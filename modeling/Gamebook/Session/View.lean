import Gamebook.Session.State

/-!
What there is to draw of a state.
-/
namespace Gamebook

structure View where
  screenId : Option String
  mode : Mode
  background : Option String
  cover : Option String
  line : Option Line
  dialogueIndex : Nat
  dialogueLength : Nat
  /-- The labels of the open menu's options. -/
  choices : List String
  timeRemaining : Option Nat
  scrollOffset : Float
  elements : List Element

/-- The options that the reader can pick from in this mode. -/
def Screen.offered (screen : Screen) : Mode → List Choice
  | .choice => screen.choiceSet
  | .timed =>
    match screen.timedChoices with
    | some t => t.options
    | none => []
  | _ => []

namespace View

def ofState (s : State) : View where
  screenId := s.screenId
  mode := s.mode
  background := s.screen?.bind (·.background)
  cover := s.screen?.bind (·.cover)
  line := s.screen?.bind fun screen => screen.lines[s.dialogueIndex]?
  dialogueIndex := s.dialogueIndex
  dialogueLength := (s.screen?.map fun screen => screen.lines.length).getD 0
  choices := (s.screen?.map fun screen => (screen.offered s.mode).map (·.text)).getD []
  timeRemaining := s.countdown.running.map (·.remaining)
  scrollOffset := s.scrollOffset
  elements := (s.screen?.map (·.elements)).getD []

/-- Whether two views show the same: numbers in them are compared as numbers. -/
def same (a b : View) : Bool :=
  a.screenId == b.screenId && a.mode == b.mode && a.background == b.background &&
    a.cover == b.cover && a.line == b.line && a.dialogueIndex == b.dialogueIndex &&
    a.dialogueLength == b.dialogueLength && a.choices == b.choices &&
    a.timeRemaining == b.timeRemaining && a.scrollOffset == b.scrollOffset &&
    sameElements a.elements b.elements
where
  sameElements : List Element → List Element → Bool
    | [], [] => true
    | e :: es, f :: fs =>
      e.kind == f.kind && e.text == f.text && e.action == f.action &&
        Json.same (.ofDict e.layout) (.ofDict f.layout) && sameElements es fs
    | _, _ => false

end View

end Gamebook
