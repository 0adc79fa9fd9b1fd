import Gamebook.Session.Countdown

/-!
Where the reader is in the book: the state of a session, and the mode it shows.
-/
namespace Gamebook

inductive Mode where
  | splash
  | ui
  | dialogue
  | choice
  | timed
  | none
deriving DecidableEq, Repr

def Mode.name : Mode → String
  | splash => "splash"
  | ui => "ui"
  | dialogue => "dialogue"
  | choice => "choice"
  | timed => "timed"
  | none => "none"

def ScreenKind.mode : ScreenKind → Mode
  | splash => .splash
  | ui => .ui
  | dialogue => .dialogue
  | choices => .choice
  | timed => .timed
  | unknown => .none

def Mode.ofScreen : Option Screen → Mode
  | some screen => screen.kind.mode
  | .none => none

structure State where
  book : Option Book
  screenId : Option String
  dialogueIndex : Nat
  scrollOffset : Float
  /-- Set when the lines of a screen ran out into its choices. -/
  menuOpen : Bool
  countdown : Countdown

namespace State

def initial : State := ⟨none, none, 0, 0, false, .fresh⟩

def screen? (s : State) : Option Screen := do
  let book ← s.book
  let id ← s.screenId
  book.screen? id

/-- The id of the active screen, empty without one. -/
def activeId (s : State) : String := s.screenId.getD ""

/-- Whether the active book has a screen of this id. -/
def defines (s : State) (id : String) : Bool :=
  match s.book with
  | some book => book.contains id
  | none => false

/-- A running countdown shows its menu and so do open choices; else the screen's kind decides. -/
def mode (s : State) : Mode :=
  if s.countdown.isRunning then .timed
  else if s.menuOpen then .choice
  else .ofScreen s.screen?

/-- The top of a screen: its first line, not scrolled, no menu open and no countdown running. -/
def place (s : State) (id : String) : State :=
  { s with
    screenId := some id
    dialogueIndex := 0
    scrollOffset := 0
    menuOpen := false
    countdown := s.countdown.cancel }

def adopt (s : State) (book : Book) : State :=
  { s with book := some book }.place book.start

end State

end Gamebook
