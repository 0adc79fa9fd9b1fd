import Gamebook.Book.Basic
import Gamebook.Json.Decode
import Gamebook.Json.Reader

/-!
Books as JSON: the value that a book is written as, and the reading of a draft as a book.
-/
namespace Gamebook

open Json (Draft Field Problem fail)

/-! ### Writing -/

def Json.entry (name : String) (value : Json) : List (String × Json) := [(name, value)]

def Json.entry? (name : String) (value : Option Json) : List (String × Json) :=
  match value with
  | some v => [(name, v)]
  | none => []

def Line.toJson (l : Line) : Json :=
  .ofMembers [("speaker", .string l.speaker), ("text", .string l.text)]

def Choice.toJson (c : Choice) : Json :=
  .ofMembers [("text", .string c.text), ("next", .string c.next)]

def TimedChoices.toJson (t : TimedChoices) : Json :=
  .ofMembers [("time", .int t.time.toNat), ("defaultIndex", .int t.defaultIndex.toNat),
    ("options", .array (t.options.map Choice.toJson))]

def Action.toJson : Action → Json
  | navigate screen => .ofMembers [("type", .string "navigate"), ("screen", .string screen)]
  | loadBook path => .ofMembers [("type", .string "loadBook"), ("path", .string path)]
  | advance => .ofMembers [("type", .string "advance")]

def Element.toJson (e : Element) : Json :=
  .ofMembers <| Json.entry "type" (.string e.kind.name) ++ Json.entry "text" (.string e.text) ++
    Json.entry? "action" (e.action.map Action.toJson) ++ e.layout.entries

/-- Absent parts are left out, and so is an empty list of elements. -/
def Screen.toJson (s : Screen) : Json :=
  .ofMembers <| Json.entry "type" (.string s.kind.name) ++
    Json.entry? "background" (s.background.map .string) ++
    Json.entry? "cover" (s.cover.map .string) ++
    Json.entry? "dialogue" (s.dialogue.map fun ls => .array (ls.map Line.toJson)) ++
    Json.entry? "next" (s.next.map .string) ++
    Json.entry? "action" (s.action.map Action.toJson) ++
    Json.entry? "elements"
      (if s.elements.isEmpty then none else some (.array (s.elements.map Element.toJson))) ++
    Json.entry? "choices" (s.choices.map fun cs => .array (cs.map Choice.toJson)) ++
    Json.entry? "timedChoices" (s.timedChoices.map TimedChoices.toJson)

def Book.toJson (b : Book) : Json :=
  .ofMembers [("start", .string b.start), ("screens", .ofDict (b.screens.map Screen.toJson))]

/-! ### Reading -/

def Line.ofDraft : Draft → Except Problem Line :=
  Draft.record "DialogueLine"
    [.needed "speaker" Draft.text fun v l => { l with speaker := v },
      .needed "text" Draft.text fun v l => { l with text := v }]
    ⟨"", ""⟩

def Choice.ofDraft : Draft → Except Problem Choice :=
  Draft.record "Choice"
    [.needed "text" Draft.text fun v c => { c with text := v },
      .needed "next" Draft.text fun v c => { c with next := v }]
    ⟨"", ""⟩

def TimedChoices.ofDraft : Draft → Except Problem TimedChoices :=
  Draft.record "TimedChoiceSpec"
    [.optional "time" Draft.word32 fun v t => { t with time := v.toUInt32 },
      .optional "defaultIndex" Draft.word64 fun v t => { t with defaultIndex := v.toUInt64 },
      .optional "options" (Draft.listOf Choice.ofDraft) fun v t => { t with options := v }]
    .blank

/-- A kind that is written by name, or as an object with the name and nothing in it. -/
def kindName : Draft → Except Problem String :=
  Draft.variant .ok .ok fun name d => do
    d.unit
    return name

def ScreenKind.ofDraft (d : Draft) : Except Problem ScreenKind := do
  let name ← kindName d
  return ofName name

def ElementKind.ofDraft (d : Draft) : Except Problem ElementKind := do
  let name ← kindName d
  return ofName name

namespace Action

inductive Tag where
  | navigate
  | loadBook
  | advance

def readTag (name : String) : Except Problem Tag :=
  match name with
  | "navigate" => .ok .navigate
  | "loadBook" => .ok .loadBook
  | "advance" => .ok .advance
  | _ => fail (.unknownVariant name ["navigate", "loadBook", "advance"])

def ofContent (content : Json.Content) : Tag → Except Problem Action
  | .navigate => do
    let screen ← content.record "struct variant Action::Navigate"
      [.needed "screen" Draft.text fun v _ => v] ""
    return .navigate screen
  | .loadBook => do
    let path ← content.record "struct variant Action::LoadBook"
      [.needed "path" Draft.text fun v _ => v] ""
    return .loadBook path
  | .advance => do
    content.record "" [] ()
    return .advance

def ofDraft (d : Draft) : Except Problem Action := do
  let (tag, content) ← d.tagged "Action" "type" (Draft.variantName readTag)
  ofContent content tag

end Action

def Element.ofDraft : Draft → Except Problem Element :=
  Draft.openRecord "Element"
    [.optional "type" ElementKind.ofDraft fun v e => { e with kind := v },
      .optional "text" Draft.text fun v e => { e with text := v },
      .optional "action" (Draft.optional Action.ofDraft) fun v e => { e with action := v }]
    (fun name d => do
      let value ← d.keep
      return fun e => { e with layout := e.layout.insert name value })
    .blank

def Screen.ofDraft : Draft → Except Problem Screen :=
  Draft.record "Screen"
    [.optional "type" ScreenKind.ofDraft fun v s => { s with kind := v },
      .optional "background" (Draft.optional Draft.text) fun v s => { s with background := v },
      .optional "cover" (Draft.optional Draft.text) fun v s => { s with cover := v },
      .optional "dialogue" (Draft.optional (Draft.listOf Line.ofDraft))
        fun v s => { s with dialogue := v },
      .optional "next" (Draft.optional Draft.text) fun v s => { s with next := v },
      .optional "action" (Draft.optional Action.ofDraft) fun v s => { s with action := v },
      .optional "elements" (Draft.listOf Element.ofDraft) fun v s => { s with elements := v },
      .optional "choices" (Draft.optional (Draft.listOf Choice.ofDraft))
        fun v s => { s with choices := v },
      .optional "timedChoices" (Draft.optional TimedChoices.ofDraft)
        fun v s => { s with timedChoices := v }]
    .blank

def Book.ofDraft : Draft → Except Problem Book :=
  Draft.record "Book"
    [.needed "start" Draft.text fun v b => { b with start := v },
      .optional "screens" (Draft.dictOf Screen.ofDraft) fun v b => { b with screens := v }]
    ⟨"", .empty⟩

/-- Reads a whole JSON text as a book. -/
def Book.ofJsonText (text : String) : Except Problem Book :=
  (Json.Document.read text).decode Book.ofDraft

def Action.ofJsonText (text : String) : Except Problem Action :=
  (Json.Document.read text).decode Action.ofDraft

end Gamebook
