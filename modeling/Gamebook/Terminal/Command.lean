import Gamebook.Session.Basic
import Gamebook.Session.View
import Gamebook.Text.Basic

/-!
The commands that a reader types, a line each.
-/
namespace Gamebook

inductive Command where
  | input (i : Input)
  | quit
  | unknown
deriving DecidableEq, Repr

namespace Command

/-- How far one line scrolls. -/
def scrollStep : Float := 40

def help : String :=
  "commands:\n  <enter>       advance\n  <n>           pick option n (or press button n)\n" ++
  "  go <screen>   jump to a screen\n  load <book>   load another book\n" ++
  "  up | down     scroll\n  q             quit"

/-- What is left of a line after a word and a space. -/
def afterWord? (word : String) (line : List Char) : Option String :=
  let start := word.toList ++ [' ']
  if start.isPrefixOf line then some (Text.trim (String.ofList (line.drop start.length))) else none

/-- A number picks from an open menu, or else presses a button; both count from one. -/
def ofNumber (menu : Bool) (n : Nat) : Command :=
  if n = 0 then unknown
  else if menu then input (.select (n - 1))
  else input (.press (n - 1))

/-- Reads a line, given whether the view on the screen has choices. -/
def parse (line : String) (menu : Bool) : Command :=
  let line := Text.trim line
  if line = "" then input .advance
  else if line = "q" || line = "quit" then quit
  else if line = "up" then input (.scroll (-scrollStep))
  else if line = "down" then input (.scroll scrollStep)
  else
    match afterWord? "go" line.toList, afterWord? "load" line.toList with
    | some id, _ => input (.navigate id)
    | none, some locator => input (.load locator)
    | none, none =>
      match Text.readNumber64 line with
      | .ok n => ofNumber menu n
      | .error _ => unknown

end Command

/-- Whether a view offers choices. -/
def View.hasChoices (v : View) : Bool := !v.choices.isEmpty

end Gamebook
