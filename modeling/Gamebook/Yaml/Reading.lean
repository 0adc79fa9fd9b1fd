import Gamebook.Yaml.Node
import Gamebook.Yaml.Outline

/-!
From tokens to a document. A text is read only if all of it makes up one document.
-/
namespace Gamebook.Yaml

structure Reader where
  tokens : List Token
  anchors : Anchors
  /-- What the handles of tags stand for. -/
  prefixes : List (String × List UInt8)

abbrev Read (α : Type) : Type := StateT Reader Option α

namespace Read

def fail : Read α := fun _ => none

def peek : Read (Option Token) := do
  let r ← get
  return r.tokens.head?

def skip : Read Unit := modify fun r => { r with tokens := r.tokens.tail }

/-- Passes over `t` if it comes next, and tells whether it did. -/
def accept (t : Token) : Read Bool := do
  if (← peek) = some t then
    skip
    return true
  else return false

def expect (t : Token) : Read Unit := do
  if !(← accept t) then fail

/-! ### Anchors and tags -/

/-- The tag that a handle and a suffix make; without a handle the suffix is all of it. -/
def expandTag (handle : String) (suffix : List UInt8) : Read Tag := do
  if handle.isEmpty then return ⟨suffix⟩
  match (← get).prefixes.lookup handle with
  | some replacement => return ⟨replacement ++ suffix⟩
  | none => fail

def anchor? : Read (Option String) := do
  match ← peek with
  | some (.anchor name) =>
    skip
    return some name
  | _ => return none

def tag? : Read (Option Tag) := do
  match ← peek with
  | some (.tag handle suffix) =>
    skip
    return some (← expandTag handle suffix)
  | _ => return none

/-- Reads an anchor and a tag, of which either or both may be missing, in either order. -/
def properties : Read (Option String × Option Tag) := do
  match ← anchor? with
  | some name => return (some name, ← tag?)
  | none =>
    let tag ← tag?
    let name ← if tag.isSome then anchor? else pure none
    return (name, tag)

/-- Reads a node with `f`; the node's anchor is known to what `f` reads. -/
def anchored (name : Option String) (f : Read Node) : Read Node := do
  match name with
  | none => f
  | some name =>
    let (place, anchors) := (← get).anchors.add name
    modify fun r => { r with anchors }
    let n ← f
    modify fun r => { r with anchors := r.anchors.record place n }
    return n

def aliasNode (name : String) : Read Node := do
  match (← get).anchors.number? name with
  | some number => return .aliasOf number
  | none => fail

/-- The tag of a single exclamation mark says of a scalar only that it has no other. -/
def scalarTag (tag : Option Tag) : Option Tag := tag.filter (· ≠ ⟨[0x21]⟩)

end Read

/-- The places that a node stands in, which differ in the collections that may begin there. -/
inductive Context where
  | flow
  /-- An item of a list in a block. -/
  | item
  /-- A key or value in a block, where a list need not be indented. -/
  | entry
deriving DecidableEq

open Read

/-- Whether a key or value in a block is left out, as the next token shows. -/
def isEntryAbsent : Option Token → Bool
  | some .key => true
  | some .value => true
  | some .closeBlock => true
  | _ => false

/-- Whether a key or value in a flow collection is left out. -/
def isFlowAbsent (closing : Token) (next : Option Token) : Bool :=
  next = some .comma || next = some closing

mutual

/-- Reads a node. In all these functions `fuel` bounds how deep their calls are nested. -/
def readNode : Nat → Context → Read Node
  | 0, _ => fail
  | fuel + 1, context => do
    match ← peek with
    | some (.aliasOf name) =>
      skip
      aliasNode name
    | _ =>
      let (name, tag) ← properties
      anchored name (readContent fuel context (name.isSome || tag.isSome) tag)

/-- Reads what stands after an anchor and a tag, where nothing need stand. -/
def readContent : Nat → Context → Bool → Option Tag → Read Node
  | 0, _, _, _ => fail
  | fuel + 1, context, mayBeAbsent, tag => do
    match ← peek with
    | some (.scalar style text) =>
      skip
      return .scalar ⟨scalarTag tag, style, text⟩
    | some (.openFlow .list) =>
      skip
      return .list tag (← readFlowItems fuel true)
    | some (.openFlow .mapping) =>
      skip
      return .mapping tag (← readFlowEntries fuel true)
    | next =>
      if next = some .dash && context = .entry then
        return .list tag (← readFlushItems fuel)
      else if next = some (.openBlock .list) && context ≠ .flow then
        skip
        return .list tag (← readItems fuel)
      else if next = some (.openBlock .mapping) && context ≠ .flow then
        skip
        return .mapping tag (← readEntries fuel)
      else if mayBeAbsent then return .scalar { Scalar.absent with tag }
      else fail

/-- Reads the items of a list to the end of its block. -/
def readItems : Nat → Read (List Node)
  | 0 => fail
  | fuel + 1 => do
    if ← accept .closeBlock then return []
    expect .dash
    let next ← peek
    let item ←
      if next = some .dash || next = some .closeBlock then pure Node.absent
      else readNode fuel .item
    return item :: (← readItems fuel)

/-- Reads the items of a list that has no block of its own. -/
def readFlushItems : Nat → Read (List Node)
  | 0 => fail
  | fuel + 1 => do
    if !(← accept .dash) then return []
    let next ← peek
    let item ←
      if next = some .dash || isEntryAbsent next then pure Node.absent else readNode fuel .item
    return item :: (← readFlushItems fuel)

/-- Reads the entries of a mapping to the end of its block. -/
def readEntries : Nat → Read (List (Node × Node))
  | 0 => fail
  | fuel + 1 => do
    if ← accept .closeBlock then return []
    expect .key
    let key ← readEntryPart fuel
    let value ← if ← accept .value then readEntryPart fuel else pure .absent
    return (key, value) :: (← readEntries fuel)

/-- Reads a key or a value in a block. -/
def readEntryPart : Nat → Read Node
  | 0 => fail
  | fuel + 1 => do
    if isEntryAbsent (← peek) then return .absent else readNode fuel .entry

/-- Reads the items of a list in brackets. -/
def readFlowItems : Nat → Bool → Read (List Node)
  | 0, _ => fail
  | fuel + 1, first => do
    if ← accept (.closeFlow .list) then return []
    if !first then expect .comma
    if ← accept .key then
      let entry ← readFlowPair fuel
      return .mapping none [entry] :: (← readFlowItems fuel false)
    else if ← accept (.closeFlow .list) then return []
    else
      let item ← readNode fuel .flow
      return item :: (← readFlowItems fuel false)

/-- Reads a mapping of one entry that is an item of a list, after the mark of its key. Of a key that
is left out the token after it is passed over. -/
def readFlowPair : Nat → Read (Node × Node)
  | 0 => fail
  | fuel + 1 => do
    let next ← peek
    let key ←
      if next = some .value || isFlowAbsent (.closeFlow .list) next then do
        skip
        pure Node.absent
      else readNode fuel .flow
    let value ← if ← accept .value then readFlowPart fuel (.closeFlow .list) else pure .absent
    return (key, value)

/-- Reads the value of an entry in a flow collection. -/
def readFlowPart : Nat → Token → Read Node
  | 0, _ => fail
  | fuel + 1, closing => do
    if isFlowAbsent closing (← peek) then return .absent else readNode fuel .flow

/-- Reads the entries of a mapping in braces. One that is no key has no value. -/
def readFlowEntries : Nat → Bool → Read (List (Node × Node))
  | 0, _ => fail
  | fuel + 1, first => do
    if ← accept (.closeFlow .mapping) then return []
    if !first then expect .comma
    if ← accept .key then
      let next ← peek
      let key ←
        if next = some .value || isFlowAbsent (.closeFlow .mapping) next then pure Node.absent
        else readNode fuel .flow
      let value ← if ← accept .value then readFlowPart fuel (.closeFlow .mapping) else pure .absent
      return (key, value) :: (← readFlowEntries fuel false)
    else if ← accept (.closeFlow .mapping) then return []
    else
      let key ← readNode fuel .flow
      return (key, .absent) :: (← readFlowEntries fuel false)

end

/-! ### Documents -/

def corePrefixes : List (String × List UInt8) :=
  [("!", [0x21]), ("!!", (Tag.core "").bytes)]

/-- Reads directives: one version at most, and one text at most for each handle. What they say of a
handle goes before what it stands for anyway. -/
def readDirectives (versioned : Bool) (prefixes : List (String × List UInt8)) :
    List Token → Option (List (String × List UInt8) × List Token)
  | .version major minor :: rest =>
    if versioned || major ≠ 1 || (minor ≠ 1 && minor ≠ 2) then none
    else readDirectives true prefixes rest
  | .tagPrefix handle replacement :: rest =>
    if (prefixes.lookup handle).isSome then none
    else readDirectives versioned ((handle, replacement) :: prefixes) rest
  | rest => some (prefixes ++ corePrefixes, rest)

/-- Reads the one document of a text. Directives need a marker between them and its content. -/
def Document.ofTokens? (tokens : List Token) : Option Document := do
  let (prefixes, rest) ← readDirectives false [] tokens
  let content ←
    match rest with
    | .documentStart :: rest => some rest
    | rest => if rest.length = tokens.length then some rest else none
  let (root, reader) ← readNode (3 * tokens.length + 3) .item ⟨content, .empty, prefixes⟩
  if reader.tokens.all (· = .documentEnd) then return ⟨root, reader.anchors⟩ else none

def Document.ofText? (text : String) : Option Document := do
  let glyphs ← Glyph.ofText? text
  let tokens ← Token.ofGlyphs? glyphs
  Document.ofTokens? tokens

end Gamebook.Yaml
