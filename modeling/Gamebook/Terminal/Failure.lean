import Gamebook.Book.Loading
import Gamebook.Terminal.Settings
import Gamebook.Text.Quoted
import Gamebook.Text.Utf8

/-!
Why a player stops: bad settings, a start book that does not load, or a terminal that fails.
-/
namespace Gamebook

inductive TerminalFault where
  | badInput (flaw : Text.Utf8Flaw)
  | screenFull
deriving DecidableEq, Repr

def TerminalFault.message : TerminalFault → String
  | badInput flaw => flaw.message
  | screenFull => "screen is full"

inductive Failure where
  | settings (message : String)
  | load (e : LoadError)
  | terminal (fault : TerminalFault)
deriving DecidableEq, Repr

def Failure.message : Failure → String
  | settings message => "configuration error: " ++ message
  | load e => "load error: " ++ e.message
  | terminal fault => "terminal error: " ++ fault.message

/-! ### The form for the author of a book: constructors with their fields, text in quotes -/

def fieldText (fields : List (String × String)) : String :=
  " \x7b " ++ ", ".intercalate (fields.map fun f => f.1 ++ ": " ++ f.2) ++ " \x7d"

def LoadError.detail : LoadError → String
  | notFound locator => "NotFound" ++ fieldText [("locator", Text.quoted locator)]
  | fetch locator message =>
    "Fetch" ++ fieldText [("locator", Text.quoted locator), ("message", Text.quoted message)]
  | parse locator message =>
    "Parse" ++ fieldText [("locator", Text.quoted locator), ("message", Text.quoted message)]

def Text.Utf8Flaw.detail : Text.Utf8Flaw → String
  | .invalid index length =>
    "Utf8Error" ++ fieldText [("valid_up_to", toString index), ("error_len", s!"Some({length})")]
  | .incomplete index =>
    "Utf8Error" ++ fieldText [("valid_up_to", toString index), ("error_len", "None")]

def TerminalFault.detail : TerminalFault → String
  | badInput flaw => "Custom" ++ fieldText [("kind", "InvalidData"), ("error", flaw.detail)]
  | screenFull => "Custom" ++ fieldText [("kind", "Other"), ("error", Text.quoted "screen is full")]

def Failure.detail : Failure → String
  | settings message => s!"Config({Text.quoted message})"
  | load e => s!"Load({e.detail})"
  | terminal fault => s!"Io({fault.detail})"

end Gamebook
