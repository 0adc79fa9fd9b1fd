import Gamebook.Session.View

/-!
Drawing a view as rows of text.
-/
namespace Gamebook

/-- A mode in a drawing's heading, where an open menu is named for its kind of screen. -/
def Mode.label : Mode → String
  | .choice => "choices"
  | m => m.name

/-- The rows of the elements. Buttons are numbered from `number` on, and not drawn while there
are choices. -/
def elementRows (choosing : Bool) : Nat → List Element → List String
  | _, [] => []
  | number, e :: es =>
    match e.kind with
    | .label => ("   " ++ e.text) :: elementRows choosing number es
    | .button =>
      if choosing then elementRows choosing number es
      else s!"   [{number}] {e.text}" :: elementRows choosing (number + 1) es
    | .other => elementRows choosing number es

namespace View

def heading (v : View) (id : String) : String := s!"== {id} [{v.mode.label}] =="

def backdropRow (v : View) : List String :=
  match v.cover <|> v.background with
  | some picture => [s!"   ({picture})"]
  | none => []

def lineRow (v : View) : List String :=
  match v.line with
  | some l => [s!"{l.speaker}: {l.text}  ({v.dialogueIndex + 1}/{v.dialogueLength})"]
  | none => []

def choiceRows (v : View) : List String :=
  v.choices.zipIdx.map fun (choice, i) => s!"  {i + 1}. {choice}"

def timeRow (v : View) : List String :=
  match v.timeRemaining with
  | some n => [s!"Time: {n}"]
  | none => []

def rows (v : View) (id : String) : List String :=
  v.heading id :: v.backdropRow ++ elementRows (!v.choices.isEmpty) 1 v.elements ++ v.lineRow ++
    v.choiceRows ++ v.timeRow

/-- The text of a view, each row on a line of its own. -/
def draw (v : View) : String :=
  match v.screenId with
  | none => "(nothing to show)\n"
  | some id => "\n".intercalate (v.rows id) ++ "\n"

end View

end Gamebook
