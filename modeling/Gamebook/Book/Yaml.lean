import Gamebook.Book.Codec
import Gamebook.Yaml.Decode
import Gamebook.Yaml.Reading

/-!
Books as YAML. The parts are those of a book in JSON, but every scalar will do for a text, records
are never lists of their fields, and what is left out can be an empty list or record.
-/
namespace Gamebook

open Yaml (Decoder Field Node)

def Line.ofNode : Node → Decoder Line :=
  Node.record
    [.needed "speaker" Node.text fun v l => { l with speaker := v },
      .needed "text" Node.text fun v l => { l with text := v }]
    ⟨"", ""⟩

def Choice.ofNode : Node → Decoder Choice :=
  Node.record
    [.needed "text" Node.text fun v c => { c with text := v },
      .needed "next" Node.text fun v c => { c with next := v }]
    ⟨"", ""⟩

def TimedChoices.ofNode : Node → Decoder TimedChoices :=
  Node.record
    [.optional "time" (Node.natural UInt32.size) fun v t => { t with time := v.toUInt32 },
      .optional "defaultIndex" (Node.natural UInt64.size)
        fun v t => { t with defaultIndex := v.toUInt64 },
      .optional "options" (Node.listOf Choice.ofNode) fun v t => { t with options := v }]
    .blank

def ScreenKind.ofNode (n : Node) : Decoder ScreenKind := ofName <$> n.name

def ElementKind.ofNode (n : Node) : Decoder ElementKind := ofName <$> n.name

namespace Action

def ofYamlContent? (content : Yaml.Content) : Tag → Option Action
  | .navigate => (content.text? "screen").map navigate
  | .loadBook => (content.text? "path").map loadBook
  | .advance => if content.isEmpty then some advance else none

def ofNode (n : Node) : Decoder Action := do
  let (tag, content) ← n.tagged "type" fun name => (readTag name).toOption
  Yaml.Decoder.ofOption (ofYamlContent? content tag)

end Action

def Element.ofNode : Node → Decoder Element :=
  Node.openRecord
    [.optional "type" ElementKind.ofNode fun v e => { e with kind := v },
      .optional "text" Node.text fun v e => { e with text := v },
      .optional "action" (Node.optional Action.ofNode) fun v e => { e with action := v }]
    (fun name n => do
      let value ← Yaml.Decoder.ofOption (← n.value).toJson?
      return fun e => { e with layout := e.layout.insert name value })
    .blank

def Screen.ofNode : Node → Decoder Screen :=
  Node.record
    [.optional "type" ScreenKind.ofNode fun v s => { s with kind := v },
      .optional "background" (Node.optional Node.text) fun v s => { s with background := v },
      .optional "cover" (Node.optional Node.text) fun v s => { s with cover := v },
      .optional "dialogue" (Node.optional (Node.listOf Line.ofNode))
        fun v s => { s with dialogue := v },
      .optional "next" (Node.optional Node.text) fun v s => { s with next := v },
      .optional "action" (Node.optional Action.ofNode) fun v s => { s with action := v },
      .optional "elements" (Node.listOf Element.ofNode) fun v s => { s with elements := v },
      .optional "choices" (Node.optional (Node.listOf Choice.ofNode))
        fun v s => { s with choices := v },
      .optional "timedChoices" (Node.optional TimedChoices.ofNode)
        fun v s => { s with timedChoices := v }]
    .blank

def Book.ofNode : Node → Decoder Book :=
  Node.record
    [.needed "start" Node.text fun v b => { b with start := v },
      .optional "screens" (Node.dictOf Screen.ofNode) fun v b => { b with screens := v }]
    ⟨"", .empty⟩

/-- Reads a whole YAML text as a book. -/
def Book.ofYamlText? (text : String) : Option Book := do
  let document ← Yaml.Document.ofText? text
  Yaml.Decoder.run document Book.ofNode

end Gamebook
