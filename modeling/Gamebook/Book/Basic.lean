import Gamebook.Json.Basic

/-!
Story books: screens that a reader moves between, each with its lines, menus and elements.

These types say what an author wrote. What no reading depends on, such as the place of an element,
is kept as it stands in `Element.layout`.
-/
namespace Gamebook

inductive ScreenKind where
  | splash
  | ui
  | dialogue
  | choices
  | timed
  | unknown
deriving DecidableEq, Repr, Inhabited

namespace ScreenKind

def name : ScreenKind → String
  | splash => "splash"
  | ui => "ui"
  | dialogue => "dialogue"
  | choices => "choices"
  | timed => "timed"
  | unknown => "unknown"

/-- A name that no kind has gives the kind `unknown`. -/
def ofName (s : String) : ScreenKind :=
  match s with
  | "splash" => splash
  | "ui" => ui
  | "dialogue" => dialogue
  | "choices" => choices
  | "timed" => timed
  | _ => unknown

end ScreenKind

/-- Something said by a speaker. -/
structure Line where
  speaker : String
  text : String
deriving DecidableEq, Repr, Inhabited

/-- An option of a menu and the screen it leads to. -/
structure Choice where
  text : String
  next : String
deriving DecidableEq, Repr, Inhabited

/-- A menu with a countdown, after which the default option is picked. -/
structure TimedChoices where
  time : UInt32
  defaultIndex : UInt64
  options : List Choice
deriving DecidableEq, Repr, Inhabited

namespace TimedChoices

def defaultTime : UInt32 := 5

def blank : TimedChoices := ⟨defaultTime, 0, []⟩

/-- The seconds a countdown lasts; an authored zero stands for the default. -/
def duration (t : TimedChoices) : Nat :=
  if t.time = 0 then defaultTime.toNat else t.time.toNat

theorem duration_pos (t : TimedChoices) : 0 < t.duration := by
  unfold duration
  split
  · decide
  · rename_i h
    exact Nat.pos_of_ne_zero fun h0 => h (UInt32.toNat_inj.1 h0)

end TimedChoices

/-- A deferred effect that a screen or button asks for. -/
inductive Action where
  | navigate (screen : String)
  | loadBook (path : String)
  | advance
deriving DecidableEq, Repr, Inhabited

inductive ElementKind where
  | label
  | button
  | other
deriving DecidableEq, Repr, Inhabited

namespace ElementKind

def name : ElementKind → String
  | label => "label"
  | button => "button"
  | other => "other"

def ofName (s : String) : ElementKind :=
  match s with
  | "label" => label
  | "button" => button
  | _ => other

end ElementKind

structure Element where
  kind : ElementKind
  text : String
  action : Option Action
  layout : Dict Json

def Element.blank : Element := ⟨.other, "", none, .empty⟩

structure Screen where
  kind : ScreenKind
  background : Option String
  cover : Option String
  dialogue : Option (List Line)
  next : Option String
  action : Option Action
  elements : List Element
  choices : Option (List Choice)
  timedChoices : Option TimedChoices

namespace Screen

def blank : Screen := ⟨.unknown, none, none, none, none, none, [], none, none⟩

def lines (s : Screen) : List Line := s.dialogue.getD []

def buttons (s : Screen) : List Element := s.elements.filter (·.kind = .button)

end Screen

def Element.asChoice? (e : Element) : Option Choice :=
  match e.action with
  | some (.navigate screen) => some ⟨e.text, screen⟩
  | _ => none

namespace Screen

/-- The options offered while the menu is open: the authored ones, or else the buttons that
navigate. -/
def choiceSet (s : Screen) : List Choice :=
  match s.choices with
  | some choices => choices
  | none => s.buttons.filterMap Element.asChoice?

/-- The picture to have ready when the screen is entered. -/
def backdrop (s : Screen) : Option String := s.cover <|> s.background

end Screen

structure Book where
  start : String
  screens : Dict Screen

namespace Book

def screen? (b : Book) (id : String) : Option Screen := b.screens.find? id

def contains (b : Book) (id : String) : Bool := b.screens.contains id

end Book

end Gamebook
