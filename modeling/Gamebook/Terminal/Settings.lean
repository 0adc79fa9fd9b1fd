import Gamebook.Text.Basic

/-!
Settings of the player, read from named variables. An unset variable has a default.
-/
namespace Gamebook

structure Settings where
  contentRoot : String
  startBook : String
  tickMillis : Nat
deriving DecidableEq, Repr

inductive SettingsFlaw where
  | blankStartBook
  | badTickMillis (flaw : Text.NumberFlaw)
  | zeroTickMillis
deriving DecidableEq, Repr

def SettingsFlaw.message : SettingsFlaw → String
  | blankStartBook => "INKBOUND_START_BOOK must not be blank"
  | badTickMillis flaw => s!"INKBOUND_TICK_MILLIS must be a valid u64: {flaw.message}"
  | zeroTickMillis => "INKBOUND_TICK_MILLIS must be greater than zero"

namespace Settings

def names : List String :=
  ["INKBOUND_CONTENT_ROOT", "INKBOUND_START_BOOK", "INKBOUND_TICK_MILLIS"]

def defaultTickMillis : Nat := 1000

def tickMillisOf (value : Option String) : Except SettingsFlaw Nat :=
  match value with
  | none => .ok defaultTickMillis
  | some text =>
    match Text.readNumber64 text with
    | .error flaw => .error (.badTickMillis flaw)
    | .ok 0 => .error .zeroTickMillis
    | .ok n => .ok n

def ofLookup (lookup : String → Option String) : Except SettingsFlaw Settings := do
  let contentRoot := (lookup "INKBOUND_CONTENT_ROOT").getD "."
  let startBook := (lookup "INKBOUND_START_BOOK").getD "books/startmenu.json"
  if Text.trim startBook = "" then throw .blankStartBook
  let tickMillis ← tickMillisOf (lookup "INKBOUND_TICK_MILLIS")
  return ⟨contentRoot, startBook, tickMillis⟩

end Settings

end Gamebook
