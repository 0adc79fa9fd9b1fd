import Gamebook.Dict
import Gamebook.Yaml.Node
import Gamebook.Yaml.Value

/-!
Decoding nodes. A decoder follows aliases wherever it meets them, up to a hundred times as often as
the document has parts, and enters collections up to a depth of 128.
-/
namespace Gamebook.Yaml

structure Scope where
  anchors : Anchors
  /-- The number of collections that may still be entered, one inside the other. -/
  room : Nat

/-- The state is the number of aliases that may still be followed. -/
abbrev Decoder (α : Type) : Type := ReaderT Scope (StateT Nat Option) α

namespace Decoder

variable {α : Type}

def fail : Decoder α := fun _ _ => none

def ofOption : Option α → Decoder α
  | some a => pure a
  | none => fail

def inside (f : Decoder α) : Decoder α := fun d =>
  match d.room with
  | 0 => fail d
  | room + 1 => f { d with room }

def run (doc : Document) (f : Node → Decoder α) : Option α :=
  (f doc.root ⟨doc.anchors, 128⟩ (doc.root.size * 100)).map Prod.fst

end Decoder

open Decoder

namespace Node

variable {α : Type}

/-- The node itself, or the one that it is an alias of. -/
def follow : Node → Decoder Node
  | aliasOf number => do
    match ← get with
    | 0 => fail
    | left + 1 =>
      set left
      ofOption ((← read).anchors.node? number)
  | n => pure n

/-! ### Values -/

def refuseLocal (tag : Option Tag) : Decoder Unit :=
  if (tag.bind Tag.localName?).isSome then fail else pure ()

/-- The value of a node whatever it is, with `room` for collections one inside the other. -/
def valueWithin : Nat → Node → Decoder Value
  | 0, n => do
    match ← n.follow with
    | scalar s => ofOption (Value.ofScalar? s)
    | _ => fail
  | room + 1, n => do
    match ← n.follow with
    | scalar s => ofOption (Value.ofScalar? s)
    | list tag items => do
      refuseLocal tag
      let items ← items.mapM (valueWithin room)
      return .list items
    | mapping tag entries => do
      refuseLocal tag
      let entries ← entries.mapM fun e => do
        let k ← valueWithin room e.1
        let v ← valueWithin room e.2
        return (k, v)
      return .mapping entries
    | aliasOf _ => fail

def value (n : Node) : Decoder Value := do valueWithin (← read).room n

/-! ### Scalars -/

/-- The text of a scalar, whatever its style and tag. -/
def text (n : Node) : Decoder String := do
  match ← n.follow with
  | scalar s => pure s.text
  | _ => fail

/-- Whether a scalar is read as a number, if one is wanted: a plain one, or a literal one whose tag
says so. -/
def isNumeral (s : Scalar) : Bool :=
  s.isPlain || (s.style = .literal && s.tag = some (.core "int"))

/-- A whole number without a minus sign, below `bound`. -/
def natural (bound : Nat) (n : Node) : Decoder Nat := do
  match ← n.follow with
  | scalar s =>
    match readInteger? s.text.toList with
    | some (false, n) => if isNumeral s && n < bound then pure n else fail
    | _ => fail
  | _ => fail

/-- Nothing for what is left out or null, if no tag says that it is something else. -/
def optional (f : Node → Decoder α) (n : Node) : Decoder (Option α) := do
  let n ← n.follow
  match n with
  | scalar s =>
    if !s.isPlain then some <$> f n
    else
      match s.tag with
      | none => if s.text.isEmpty || isNull s.text then return none else some <$> f n
      | some t =>
        if t ≠ .core "null" then some <$> f n
        else if isNull s.text then return none
        else fail
  | _ => some <$> f n

/-- A name: a text, or a local tag with nothing after it. -/
def name (n : Node) : Decoder String := do
  match ← n.follow with
  | scalar s =>
    match s.localTag? with
    | none => pure s.text
    | some name => if s.isAbsent || (s.isPlain && isNull s.text) then pure name else fail
  | _ => fail

/-! ### Collections -/

/-- The items of a list, which may be left out. -/
def listOf (f : Node → Decoder α) (n : Node) : Decoder (List α) := do
  match ← n.follow with
  | list _ items => inside (items.mapM f)
  | scalar s => if s.isAbsent then return [] else fail
  | _ => fail

/-- Reads the entries of a mapping, which may be left out, with `f`. -/
def entriesWith (f : List (Node × Node) → Decoder α) (n : Node) : Decoder α := do
  match ← n.follow with
  | mapping _ entries => inside (f entries)
  | scalar s => if s.isAbsent then f [] else fail
  | _ => fail

/-- A mapping with texts as keys, of which the later of two equal ones counts. -/
def dictOf (f : Node → Decoder α) : Node → Decoder (Dict α) :=
  entriesWith fun entries => do
    let entries ← entries.mapM fun e => do
      let k ← e.1.text
      let v ← f e.2
      return (k, v)
    return Dict.ofList entries

end Node

/-! ### Records -/

/-- A field of a record: how its value changes the record, and whether it may be missing. -/
structure Field (σ : Type) where
  name : String
  required : Bool
  fill : Node → Decoder (σ → σ)

namespace Field

variable {α σ : Type}

def needed (name : String) (read : Node → Decoder α) (set : α → σ → σ) : Field σ :=
  ⟨name, true, fun n => set <$> read n⟩

def optional (name : String) (read : Node → Decoder α) (set : α → σ → σ) : Field σ :=
  { needed name read set with required := false }

end Field

/-- Treats an entry whose key is no field's name. -/
def Extra (σ : Type) : Type := String → Node → Decoder (σ → σ)

def Extra.ignored {σ : Type} : Extra σ := fun _ _ => pure id

/-- Fills a record from entries; `seen` holds the names of the fields met before, none of which may
come again. -/
def fillEntries {σ : Type} (fields : List (Field σ)) (extra : Extra σ) (seen : List String)
    (record : σ) : List (Node × Node) → Decoder (List String × σ)
  | [] => pure (seen, record)
  | (key, n) :: rest => do
    let k ← key.text
    match fields.find? (·.name == k) with
    | none =>
      let change ← extra k n
      fillEntries fields extra seen (change record) rest
    | some field =>
      if k ∈ seen then fail
      else
        let change ← field.fill n
        fillEntries fields extra (k :: seen) (change record) rest

namespace Node

variable {σ : Type}

def openRecord (fields : List (Field σ)) (extra : Extra σ) (blank : σ) : Node → Decoder σ :=
  entriesWith fun entries => do
    let (seen, record) ← fillEntries fields extra [] blank entries
    if fields.all fun field => !field.required || field.name ∈ seen then return record else fail

def record (fields : List (Field σ)) (blank : σ) : Node → Decoder σ :=
  openRecord fields .ignored blank

end Node

/-! ### Variants -/

/-- What stands beside the tag of a tagged variant. -/
inductive Content where
  | entries (l : List (Value × Value))
  | items (l : List Value)

/-- Finds the tag among entries and sets the others aside. -/
def splitTag {τ : Type} (tag : String) (readTag : String → Option τ) (found : Option τ)
    (others : List (Value × Value)) :
    List (Node × Node) → Decoder (Option τ × List (Value × Value))
  | [] => pure (found, others.reverse)
  | (key, n) :: rest => do
    match ← key.value with
    | .text k =>
      if k = tag then
        if found.isSome then fail
        else
          let t ← ofOption (readTag (← n.text))
          splitTag tag readTag (some t) others rest
      else splitTag tag readTag found ((.text k, ← n.value) :: others) rest
    | k => splitTag tag readTag found ((k, ← n.value) :: others) rest

/-- A variant whose tag is one of its entries, wherever it stands, or the first item of a list. -/
def Node.tagged {τ : Type} (tag : String) (readTag : String → Option τ) (n : Node) :
    Decoder (τ × Content) := do
  match ← n.follow with
  | .mapping t entries =>
    refuseLocal t
    let (found, others) ← inside (splitTag tag readTag none [] entries)
    match found with
    | some t => return (t, .entries others)
    | none => fail
  | .list t items =>
    refuseLocal t
    match items with
    | [] => fail
    | first :: rest =>
      inside do
        let t ← ofOption (readTag (← first.text))
        let rest ← rest.mapM Node.value
        return (t, .items rest)
  | _ => fail

namespace Content

/-- Whether a key is that of a field, which can be called by its index, too. -/
def isKey? (name : String) (index : Nat) : Value → Option Bool
  | .text k => some (k = name)
  | .natural n => some (n = index)
  | _ => none

/-- Finds the text of a record's only field, which may come just once. -/
def findText? (name : String) (found : Option String) : List (Value × Value) → Option String
  | [] => found
  | (k, v) :: rest => do
    if ← isKey? name 0 k then
      match found, v with
      | none, .text s => findText? name (some s) rest
      | _, _ => none
    else findText? name found rest

/-- The text of a record's only field. -/
def text? (name : String) : Content → Option String
  | entries l => findText? name none l
  | items [.text s] => some s
  | items _ => none

/-- Whether a record without fields may be read from this. -/
def isEmpty : Content → Bool
  | entries _ => true
  | items l => l.isEmpty

end Content

end Gamebook.Yaml
