import Gamebook.Yaml.Block
import Gamebook.Yaml.Plain
import Gamebook.Yaml.Quoted
import Gamebook.Yaml.Tag

/-!
From glyphs to tokens. In block context the indentation opens and closes blocks; a text or a flow
collection may turn out to be a key, if a colon follows it on its line.
-/
namespace Gamebook.Yaml

/-- A token that may be the first of a key. -/
structure KeySpot where
  position : Nat
  /-- Whether nothing but a key may stand here. -/
  required : Bool
  place : Place

namespace KeySpot

/-- A key ends on the line where it begins, within 1024 characters. -/
def isPast (k : KeySpot) (p : Place) : Bool :=
  k.place.line < p.line || k.place.index + 1024 < p.index

/-- Gives up a spot, which must not be a required one. -/
def drop? : Option KeySpot → Option (Option KeySpot)
  | none => some none
  | some k => if k.required then none else some none

def dropPast? (p : Place) : Option KeySpot → Option (Option KeySpot)
  | none => some none
  | some k => if k.isPast p then drop? (some k) else some (some k)

end KeySpot

structure Outline where
  tokens : Array Token
  /-- The columns of the blocks that are open, the innermost first. -/
  indents : List Nat
  /-- Where a key may have begun, in the innermost flow collection or else in block context. -/
  spot : Option KeySpot
  /-- The same for what lies around the flow collections that are open, the nearest first. -/
  outerSpots : List (Option KeySpot)
  /-- Whether a key may begin next. -/
  keyAllowed : Bool

namespace Outline

def empty : Outline := ⟨#[], [], none, [], true⟩

def inFlow (o : Outline) : Bool := !o.outerSpots.isEmpty

/-- The indentation that a line of the innermost block has at least, beyond the block's own. -/
def least (o : Outline) : Nat :=
  match o.indents with
  | [] => 0
  | column :: _ => column + 1

def push (o : Outline) (t : Token) : Outline := { o with tokens := o.tokens.push t }

def insert (o : Outline) (position : Nat) (t : Token) : Outline :=
  { o with tokens := o.tokens.insertIdxIfInBounds position t }

def allowKey (o : Outline) (allowed : Bool) : Outline := { o with keyAllowed := allowed }

/-! ### Blocks -/

/-- Closes the blocks whose column is `column` or beyond. -/
def closeFrom (column : Nat) (tokens : Array Token) : List Nat → Array Token × List Nat
  | [] => (tokens, [])
  | c :: rest =>
    if column ≤ c then closeFrom column (tokens.push .closeBlock) rest else (tokens, c :: rest)

/-- Closes the blocks that are deeper than `column`. -/
def closeBeyond (o : Outline) (column : Nat) : Outline :=
  if o.inFlow then o
  else
    let (tokens, indents) := closeFrom (column + 1) o.tokens o.indents
    { o with tokens, indents }

def closeAll (o : Outline) : Outline :=
  if o.inFlow then o
  else
    let (tokens, indents) := closeFrom 0 o.tokens o.indents
    { o with tokens, indents }

/-- Opens a block before the token at `position` unless one of that column is open. -/
def openBlock (o : Outline) (column position : Nat) (c : Collection) : Outline :=
  if o.inFlow || column < o.least then o
  else { o.insert position (.openBlock c) with indents := column :: o.indents }

/-! ### Keys -/

def dropPast? (o : Outline) (p : Place) : Option Outline := do
  let spot ← KeySpot.dropPast? p o.spot
  let outerSpots ← o.outerSpots.mapM (KeySpot.dropPast? p)
  return { o with spot, outerSpots }

def dropSpot? (o : Outline) : Option Outline := do
  let spot ← KeySpot.drop? o.spot
  return { o with spot }

/-- Notes that a key may begin at `p`. -/
def noteSpot? (o : Outline) (p : Place) : Option Outline :=
  if o.keyAllowed then do
    let o ← o.dropSpot?
    let required := !o.inFlow && o.indents.head? = some p.column
    return { o with spot := some ⟨o.tokens.size, required, p⟩ }
  else some o

/-- Notes that a key may begin at `p`, where a token begins after which none may. -/
def beginKey? (o : Outline) (p : Place) : Option Outline := do
  let o ← o.noteSpot? p
  return o.allowKey false

/-! ### Marks -/

def marker? (o : Outline) (t : Token) : Option Outline := do
  let o ← o.closeAll.dropSpot?
  return (o.push t).allowKey false

def openFlow? (o : Outline) (p : Place) (c : Collection) : Option Outline := do
  let o ← o.noteSpot? p
  return { o.push (.openFlow c) with
    spot := none, outerSpots := o.spot :: o.outerSpots, keyAllowed := true }

def closeFlow? (o : Outline) (c : Collection) : Option Outline := do
  let o ← o.dropSpot?
  let o :=
    match o.outerSpots with
    | [] => o
    | spot :: outerSpots => { o with spot, outerSpots }
  return (o.push (.closeFlow c)).allowKey false

def comma? (o : Outline) : Option Outline := do
  let o ← o.dropSpot?
  return (o.push .comma).allowKey true

/-- Opens a block at a mark that needs one. -/
def openAt? (o : Outline) (p : Place) (c : Collection) : Option Outline :=
  if o.inFlow then some o
  else if o.keyAllowed then some (o.openBlock p.column o.tokens.size c)
  else none

def dash? (o : Outline) (p : Place) : Option Outline := do
  let o ← o.openAt? p .list
  let o ← o.dropSpot?
  return (o.push .dash).allowKey true

def key? (o : Outline) (p : Place) : Option Outline := do
  let o ← o.openAt? p .mapping
  let o ← o.dropSpot?
  return (o.push .key).allowKey !o.inFlow

/-- A colon: what began at the noted spot was a key, or a key was marked as one before. -/
def value? (o : Outline) (p : Place) : Option Outline :=
  match o.spot with
  | some k =>
    let o := (o.insert k.position .key).openBlock k.place.column k.position .mapping
    some { o.push .value with spot := none, keyAllowed := false }
  | none => do
    let o ← o.openAt? p .mapping
    return (o.push .value).allowKey !o.inFlow

end Outline

/-! ### Scanning -/

/-- Passes over blanks, comments and line breaks. A tab is no blank where a key may begin in block
context; the result tells whether one may. -/
def dropGaps (inFlow comment keyAllowed : Bool) : List Glyph → Bool × List Glyph
  | [] => (keyAllowed, [])
  | g :: rest =>
    if isBreak g.char then dropGaps inFlow false (keyAllowed || !inFlow) rest
    else if comment || g.char = ' ' || (g.char = '\t' && (inFlow || !keyAllowed)) then
      dropGaps inFlow comment keyAllowed rest
    else if g.char = '#' then dropGaps inFlow true keyAllowed rest
    else (keyAllowed, g :: rest)

/-- Reads the name of an anchor or alias, which not every character may follow. -/
def readName? (gs : List Glyph) : Option (String × List Glyph) :=
  let (name, rest) := spanName gs
  let ends :=
    atGap rest || rest.head?.any (·.char ∈ ['?', ':', ',', ']', '}', '%', '@', '\x60'])
  if name.isEmpty || !ends then none else some (String.ofList name, rest)

def scalarToken (style : Style) (cs : List Char) : Token := .scalar style (String.ofList cs)

/-- Reads a document marker, which three characters make up. -/
def readMarker? (o : Outline) (t : Token) (gs : List Glyph) :
    Option (Outline × List Glyph) := do
  let o ← o.marker? t
  return (o, gs.drop 3)

/-- Reads one token, or a mark with the tokens that it brings about, at the first of `g :: rest`. -/
def readToken? (o : Outline) (g : Glyph) (rest : List Glyph) : Option (Outline × List Glyph) := do
  let p := g.place
  let flow := o.inFlow
  if p.column = 0 && g.char = '%' then
    let o ← o.closeAll.dropSpot?
    let (t, rest) ← readDirective? rest
    return ((o.push t).allowKey false, rest)
  else if atMarker '-' (g :: rest) then readMarker? o .documentStart (g :: rest)
  else if atMarker '.' (g :: rest) then readMarker? o .documentEnd (g :: rest)
  else if g.char = '[' then return (← o.openFlow? p .list, rest)
  else if g.char = '{' then return (← o.openFlow? p .mapping, rest)
  else if g.char = ']' then return (← o.closeFlow? .list, rest)
  else if g.char = '}' then return (← o.closeFlow? .mapping, rest)
  else if g.char = ',' then return (← o.comma?, rest)
  else if g.char = '-' && atGap rest then return (← o.dash? p, rest)
  else if g.char = '?' && (flow || atGap rest) then return (← o.key? p, rest)
  else if g.char = ':' && (flow || atGap rest) then return (← o.value? p, rest)
  else if g.char = '*' then
    let o ← o.beginKey? p
    let (name, rest) ← readName? rest
    return (o.push (.aliasOf name), rest)
  else if g.char = '&' then
    let o ← o.beginKey? p
    let (name, rest) ← readName? rest
    return (o.push (.anchor name), rest)
  else if g.char = '!' then
    let o ← o.beginKey? p
    let (t, rest) ← readTag? flow (g :: rest)
    return (o.push t, rest)
  else if !flow && (g.char = '|' || g.char = '>') then
    let o ← o.dropSpot?
    let folded := g.char = '>'
    let (cs, rest) ← readBlock? folded o.least rest
    return ((o.push (scalarToken (if folded then .folded else .literal) cs)).allowKey true, rest)
  else if g.char = '\'' then
    let o ← o.beginKey? p
    let (cs, rest) ← readSingleQuoted [] [] rest
    return (o.push (scalarToken .quoted cs), rest)
  else if g.char = '"' then
    let o ← o.beginKey? p
    let (cs, rest) ← readDoubleQuoted [] (.gap []) rest
    return (o.push (scalarToken .quoted cs), rest)
  else if beginsPlain flow g.char rest then
    let o ← o.beginKey? p
    let text ← readPlain flow o.least [] [] (g :: rest)
    return ((o.push (scalarToken .plain text.chars)).allowKey text.endsLine, text.rest)
  else none

/-- Reads the tokens that are left; `fuel` bounds their number. -/
def readTokens? : Nat → Outline → List Glyph → Option (List Token)
  | 0, _, _ => none
  | fuel + 1, o, gs =>
    match dropGaps o.inFlow false o.keyAllowed gs with
    | (_, []) => do
      let o ← o.closeAll.dropSpot?
      return o.tokens.toList
    | (keyAllowed, g :: rest) => do
      let o ← (o.allowKey keyAllowed).dropPast? g.place
      let (o, rest) ← readToken? (o.closeBeyond g.place.column) g rest
      readTokens? fuel o rest

/-- The tokens of a text. Each takes up at least one character. -/
def Token.ofGlyphs? (gs : List Glyph) : Option (List Token) :=
  readTokens? (gs.length + 1) .empty gs

end Gamebook.Yaml
