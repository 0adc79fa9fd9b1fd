import Gamebook.Book.Basic

/-!
Checks of a book's content. A session copes with every issue listed here by doing nothing; the
list tells the author. Screens come in the order of their ids, and of a screen first its
references, then its kind, then its timed choices.
-/
namespace Gamebook

/-- Where in a screen a reference to another screen stands. -/
inductive Place where
  | next
  | action
  | choice (index : Nat)
  | timedOption (index : Nat)
  | element (index : Nat)
deriving DecidableEq, Repr

def Place.describe : Place → String
  | next => "next"
  | action => "action"
  | choice i => s!"choices[{i}]"
  | timedOption i => s!"timedChoices.options[{i}]"
  | element i => s!"elements[{i}]"

inductive Issue where
  | missingStart (start : String)
  | danglingReference (screen : String) (place : Place) (target : String)
  | unknownScreenType (screen : String)
  | emptyChoiceSet (screen : String)
  | missingTimedChoices (screen : String)
  | emptyTimedOptions (screen : String)
  | defaultIndexOutOfRange (screen : String) (index count : Nat)
deriving DecidableEq, Repr

def Issue.message : Issue → String
  | missingStart start => s!"start screen '{start}' is not defined"
  | danglingReference screen place target =>
    s!"screen '{screen}' {place.describe} references undefined screen '{target}'"
  | unknownScreenType screen => s!"screen '{screen}' has an unknown type"
  | emptyChoiceSet screen => s!"choice screen '{screen}' has no options"
  | missingTimedChoices screen => s!"timed screen '{screen}' has no timedChoices"
  | emptyTimedOptions screen => s!"screen '{screen}' timedChoices has no options"
  | defaultIndexOutOfRange screen index count =>
    s!"screen '{screen}' timedChoices defaultIndex {index} is past {count} options"

/-- The screen that an action leads to. -/
def Action.target? : Action → Option String
  | navigate id => some id
  | _ => none

/-- The targets of the options, each with its index. -/
def optionReferences (place : Nat → Place) (options : List Choice) : List (Place × String) :=
  options.zipIdx.map fun (option, i) => (place i, option.next)

/-- All references from a screen to screens, in the order in which they are checked. -/
def Screen.references (screen : Screen) : List (Place × String) :=
  screen.next.toList.map (.next, ·) ++
    (screen.action.bind Action.target?).toList.map (.action, ·) ++
    optionReferences .choice (screen.choices.getD []) ++
    optionReferences .timedOption ((screen.timedChoices.map (·.options)).getD []) ++
    screen.elements.zipIdx.filterMap fun (element, i) =>
      (element.action.bind Action.target?).map (.element i, ·)

def Screen.kindIssues (id : String) (screen : Screen) : List Issue :=
  match screen.kind with
  | .unknown => [.unknownScreenType id]
  | .choices => if screen.choiceSet.isEmpty then [.emptyChoiceSet id] else []
  | .timed => if screen.timedChoices.isNone then [.missingTimedChoices id] else []
  | _ => []

def Screen.timedIssues (id : String) (screen : Screen) : List Issue :=
  match screen.timedChoices with
  | none => []
  | some t =>
    if t.options.isEmpty then [.emptyTimedOptions id]
    else if t.options.length ≤ t.defaultIndex.toNat then
      [.defaultIndexOutOfRange id t.defaultIndex.toNat t.options.length]
    else []

namespace Book

def danglingReferences (b : Book) (id : String) (screen : Screen) : List Issue :=
  (screen.references.filter fun r => !b.contains r.2).map fun r => .danglingReference id r.1 r.2

def screenIssues (b : Book) (id : String) (screen : Screen) : List Issue :=
  b.danglingReferences id screen ++ screen.kindIssues id ++ screen.timedIssues id

def startIssues (b : Book) : List Issue :=
  if b.contains b.start then [] else [.missingStart b.start]

def issues (b : Book) : List Issue :=
  b.startIssues ++ b.screens.entries.flatMap fun (id, screen) => b.screenIssues id screen

end Book

end Gamebook
