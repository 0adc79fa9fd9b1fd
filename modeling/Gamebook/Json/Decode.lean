import Gamebook.Json.Draft

/-!
Typed readings of a draft: simple values, lists, dictionaries, records and variants.

A record is described by its fields. It is read from an object in any order of members, each field
at most once, or from a list in the order of the fields, where fields with a default may be left
off the end. Problems are reported in the order of the text, and missing fields after it.
-/
namespace Gamebook.Json

variable {α ν σ τ : Type}

def fail (problem : Problem) : Except Problem α := .error problem

namespace Draft

def mismatch (d : Draft) (expected : Expected) : Except Problem α := do
  let found ← d.found
  fail (.wrongType found expected)

def text : Draft → Except Problem String
  | string s => s.kept
  | d => d.mismatch .string

def boolean : Draft → Except Problem Bool
  | bool b => .ok b
  | d => d.mismatch .boolean

def unit : Draft → Except Problem Unit
  | null => .ok ()
  | d => d.mismatch .unit

/-- An integer from zero up to and without `bound`. -/
def natural (bound : Nat) (expected : Expected) : Draft → Except Problem Nat
  | number n => do
    match ← n.kept with
    | .int i =>
      if 0 ≤ i ∧ i < bound then return i.toNat else fail (.wrongInteger i expected)
    | .float x => fail (.wrongType (.float x) expected)
  | d => d.mismatch expected

def word32 (d : Draft) : Except Problem Nat := d.natural UInt32.size .word32

def word64 (d : Draft) : Except Problem Nat := d.natural UInt64.size .word64

def optional (f : Draft → Except Problem α) : Draft → Except Problem (Option α)
  | null => .ok none
  | d => do
    let a ← f d
    return some a

def listOf (f : Draft → Except Problem α) : Draft → Except Problem (List α)
  | list items close => do
    let as ← items.mapM f
    demand close.listFlaw?
    return as
  | d => d.mismatch .list

/-- Of two members with one key the later counts. -/
def dictOf (f : Draft → Except Problem α) : Draft → Except Problem (Dict α)
  | object members close => do
    let entries ← members.mapM fun m => do
      let k ← m.1.kept
      let a ← f m.2
      return (k, a)
    demand close.objectFlaw?
    return Dict.ofList entries
  | keyless _ => fail (.malformed .keyNotString)
  | d => d.mismatch .object

end Draft

/-! ### Records -/

/-- A field of a record: how its value changes the record, and whether it may be absent. -/
structure Field (σ : Type) where
  name : String
  required : Bool
  fill : Draft → Except Problem (σ → σ)

namespace Field

def needed (name : String) (read : Draft → Except Problem α) (set : α → σ → σ) : Field σ :=
  ⟨name, true, fun d => do
    let a ← read d
    return set a⟩

def optional (name : String) (read : Draft → Except Problem α) (set : α → σ → σ) : Field σ :=
  { needed name read set with required := false }

end Field

/-- Treats a member whose name is no field's. -/
def Extra (σ : Type) : Type := String → Draft → Except Problem (σ → σ)

def Extra.ignored : Extra σ := fun _ d => do
  d.skip
  return id

/-- Fills a record from members; `seen` holds the names of the fields met before. -/
def fillMembers (fields : List (Field σ)) (extra : Extra σ) (seen : List String) (acc : σ) :
    List (Lexeme String × Draft) → Except Problem (List String × σ)
  | [] => .ok (seen, acc)
  | (key, d) :: rest => do
    let k ← key.kept
    match fields.find? (·.name == k) with
    | none =>
      let change ← extra k d
      fillMembers fields extra seen (change acc) rest
    | some field =>
      if k ∈ seen then fail (.duplicateField k)
      else
        let change ← field.fill d
        fillMembers fields extra (k :: seen) (change acc) rest

/-- Objects to the first field that is required and was not met. -/
def demandFields (fields : List (Field σ)) (seen : List String) : Except Problem Unit :=
  match fields.find? fun field => field.required && field.name ∉ seen with
  | some field => fail (.missingField field.name)
  | none => .ok ()

/-- Fills the fields that are left from the items that are left, `count` fields being done.
Gives back the items beyond the last field. -/
def fillItems (owner : String) (total : Nat) (close : Close) :
    Nat → List (Field σ) → σ → List Draft → Except Problem (σ × List Draft)
  | _, [], acc, items => .ok (acc, items)
  | count, field :: fields, acc, [] => do
    demand close.listFlaw?
    if field.required then fail (.tooFewItems count owner total)
    else fillItems owner total close (count + 1) fields acc []
  | count, field :: fields, acc, d :: items => do
    let change ← field.fill d
    fillItems owner total close (count + 1) fields (change acc) items

namespace Draft

/-- A record that is written as an object. -/
def openRecord (name : String) (fields : List (Field σ)) (extra : Extra σ) (blank : σ) :
    Draft → Except Problem σ
  | object members close => do
    let (seen, record) ← fillMembers fields extra [] blank members
    demand close.objectFlaw?
    demandFields fields seen
    return record
  | keyless _ => fail (.malformed .keyNotString)
  | d => d.mismatch (.record name)

/-- A record that is written as an object, or as a list of its fields. -/
def record (name : String) (fields : List (Field σ)) (blank : σ) : Draft → Except Problem σ
  | list items close => do
    let (record, surplus) ←
      fillItems ("struct " ++ name) fields.length close 0 fields blank items
    if surplus.isEmpty then demand close.recordFlaw? else fail (.malformed .trailingCharacters)
    return record
  | d => d.openRecord name fields .ignored blank

/-! ### Variants -/

/-- The name of a variant where only a name will do. -/
def variantName (readName : String → Except Problem ν) : Draft → Except Problem ν
  | string s => do
    let name ← s.kept
    readName name
  | d => d.mismatch .variantName

/-- A variant that is written as its name, or as an object whose one member is named for it. -/
def variant (readName : String → Except Problem ν) (plain : ν → Except Problem α)
    (content : ν → Draft → Except Problem α) : Draft → Except Problem α
  | string s => do
    let name ← s.kept
    let v ← readName name
    plain v
  | object [] .endOfText => fail (.malformed .endInValue)
  | object ((key, d) :: rest) close => do
    let name ← key.kept
    let v ← readName name
    let a ← content v d
    match rest, close with
    | [], .closed => return a
    | [], .endOfText => fail (.malformed .endInObject)
    | _, _ => fail (.malformed .noValue)
  | keyless first => do
    let v ← first.variantName readName
    plain v
  | tooDeep _ => fail (.malformed .tooDeep)
  | damaged flaw => fail (.malformed flaw)
  | _ => fail (.malformed .noValue)

end Draft

/-- What stands beside the tag of a tagged variant. -/
inductive Content where
  | members (l : List (String × Draft))
  | items (l : List Draft)

/-- Finds the tag among members and sets the others aside; they are all kept values. -/
def splitTag (tag : String) (readTag : Draft → Except Problem τ) (found : Option τ)
    (others : List (String × Draft)) :
    List (Lexeme String × Draft) → Except Problem (Option τ × List (String × Draft))
  | [] => .ok (found, others.reverse)
  | (key, d) :: rest => do
    let k ← key.kept
    if k = tag then
      if found.isSome then fail (.duplicateField tag)
      else
        let t ← readTag d
        splitTag tag readTag (some t) others rest
    else
      let _ ← d.keep
      splitTag tag readTag found ((k, d) :: others) rest

namespace Draft

/-- A variant whose tag is one of its members, wherever it stands, or the first item of a list. -/
def tagged (name tag : String) (readTag : Draft → Except Problem τ) :
    Draft → Except Problem (τ × Content)
  | object members close => do
    let (found, others) ← splitTag tag readTag none [] members
    demand close.objectFlaw?
    match found with
    | none => fail (.missingField tag)
    | some t => return (t, .members others)
  | keyless _ => fail (.malformed .keyNotString)
  | list items close =>
    match items with
    | [] => do
      demand close.listFlaw?
      fail (.missingField tag)
    | first :: rest => do
      let t ← readTag first
      let _ ← rest.mapM keep
      demand close.listFlaw?
      return (t, .items rest)
  | d => d.mismatch (.tagged name)

end Draft

/-- Reads a record from what stands beside a tag. -/
def Content.record (owner : String) (fields : List (Field σ)) (blank : σ) :
    Content → Except Problem σ
  | .members l => do
    let (seen, record) ← fillMembers fields .ignored [] blank (l.map fun m => (.good m.1, m.2))
    demandFields fields seen
    return record
  | .items l => do
    let (record, surplus) ← fillItems owner fields.length .closed 0 fields blank l
    if surplus.isEmpty then return record
    else fail (.tooManyItems l.length fields.length)

end Gamebook.Json
