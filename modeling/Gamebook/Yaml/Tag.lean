import Gamebook.Text.Basic
import Gamebook.Yaml.Glyph
import Gamebook.Yaml.Scalar

/-!
Tags as they are written, in full between angle brackets or as a handle and a suffix, and the
directives at the head of a document, one of which says what a handle stands for.
-/
namespace Gamebook.Yaml

/-! ### Tags -/

/-- The ASCII characters that stand for themselves in a tag; `wide` allows those, too, that mean
something else in a flow collection. -/
def isTagChar (wide : Bool) (c : Char) : Bool :=
  isNameChar c ||
    c ∈ [';', '/', '?', ':', '@', '&', '=', '+', '$', '.', '!', '~', '*', '\'', '(', ')'] ||
    (wide && (c = ',' || c = '[' || c = ']'))

/-- The number of bytes that follow a byte of an escaped character, of which `left` were expected
to follow the one before it. -/
def escapedBytesLeft? (left n : Nat) : Option Nat :=
  match left with
  | 0 =>
    if n < 0x80 then some 0
    else if n < 0xC0 then none
    else if n < 0xE0 then some 1
    else if n < 0xF0 then some 2
    else if n < 0xF8 then some 3
    else none
  | left + 1 => if 0x80 ≤ n && n < 0xC0 then some left else none

/-- Reads the bytes of a tag, where a percent sign escapes a byte. The bytes so far stand in `acc`
in reverse order, and `left` more belong to the last character. -/
def readTagBytes (wide : Bool) (left : Nat) (acc : List UInt8) :
    List Glyph → Option (List UInt8 × List Glyph)
  | [] => if left = 0 then some (acc.reverse, []) else none
  | g :: rest =>
    if g.char = '%' then
      match rest with
      | a :: b :: after =>
        match Text.hexNumber? [a.char, b.char] with
        | some n =>
          match escapedBytesLeft? left n with
          | some left => readTagBytes wide left (n.toUInt8 :: acc) after
          | none => none
        | none => none
      | _ => none
    else if left ≠ 0 then none
    else if isTagChar wide g.char then readTagBytes wide 0 (g.char.toNat.toUInt8 :: acc) rest
    else some (acc.reverse, g :: rest)

/-- The bytes before the first zero. -/
def beforeZero (bytes : List UInt8) : List UInt8 := bytes.takeWhile (· ≠ 0)

/-- Reads bytes of which there must be one at least. -/
def readTagText? (wide : Bool) (gs : List Glyph) : Option (List UInt8 × List Glyph) := do
  let (bytes, rest) ← readTagBytes wide 0 [] gs
  if bytes.isEmpty then none else return (beforeZero bytes, rest)

def spanName (gs : List Glyph) : List Char × List Glyph :=
  let (name, rest) := gs.span fun g => isNameChar g.char
  (name.map Glyph.char, rest)

/-- Reads an exclamation mark, a name and, if it stands there, another exclamation mark. -/
def readHandle? : List Glyph → Option (List Char × List Glyph)
  | ⟨'!', _⟩ :: rest =>
    let (name, rest) := spanName rest
    match rest with
    | ⟨'!', _⟩ :: rest => some ('!' :: name ++ ['!'], rest)
    | rest => some ('!' :: name, rest)
  | _ => none

/-- Whether a handle ends in an exclamation mark other than its first. -/
def isNamedHandle (handle : List Char) : Bool := handle.tail.getLast? = some '!'

/-- Reads a tag that is written in full, after its opening bracket. -/
def readFullTag? (gs : List Glyph) : Option (Token × List Glyph) := do
  let (bytes, rest) ← readTagText? true gs
  match rest with
  | ⟨'>', _⟩ :: rest => return (.tag "" bytes, rest)
  | _ => none

/-- Reads a tag with a handle. Without a second exclamation mark the handle is the first alone, and
a tag of nothing but that mark has none. -/
def readShortTag? (gs : List Glyph) : Option (Token × List Glyph) := do
  let (handle, rest) ← readHandle? gs
  if isNamedHandle handle then
    let (bytes, rest) ← readTagText? false rest
    return (.tag (String.ofList handle) bytes, rest)
  else
    let (bytes, rest) ← readTagBytes false 0 [] rest
    let bytes := (String.ofList handle.tail).toUTF8.data.toList ++ beforeZero bytes
    if bytes.isEmpty then return (.tag "" [0x21], rest)
    else return (.tag "!" bytes, rest)

/-- Reads a tag. A blank, the end of the line or, in a flow collection, a comma must follow. -/
def readTag? (inFlow : Bool) (gs : List Glyph) : Option (Token × List Glyph) := do
  let (token, rest) ←
    match gs with
    | ⟨'!', _⟩ :: ⟨'<', _⟩ :: rest => readFullTag? rest
    | gs => readShortTag? gs
  if atGap rest || (inFlow && rest.head?.any (·.char = ',')) then return (token, rest) else none

/-! ### Directives -/

/-- Reads a number of one to nine digits. -/
def readVersionNumber? (gs : List Glyph) : Option (Nat × List Glyph) :=
  let (digits, rest) := gs.span fun g => g.char.isDigit
  if digits.isEmpty || 9 < digits.length then none
  else some (digits.foldl (fun n g => n * 10 + Text.digitValue g.char) 0, rest)

def readVersion? (gs : List Glyph) : Option (Token × List Glyph) := do
  let (major, rest) ← readVersionNumber? (dropBlanks gs)
  match rest with
  | ⟨'.', _⟩ :: rest =>
    let (minor, rest) ← readVersionNumber? rest
    return (.version major minor, rest)
  | _ => none

def readTagPrefix? (gs : List Glyph) : Option (Token × List Glyph) := do
  let (handle, rest) ← readHandle? (dropBlanks gs)
  if handle ≠ ['!'] && !isNamedHandle handle then none
  match rest with
  | [] => none
  | g :: _ =>
    if !isBlank g.char then none
    let (bytes, rest) ← readTagText? true (dropBlanks rest)
    if atGap rest then return (.tagPrefix (String.ofList handle) bytes, rest) else none

/-- Reads a directive after its percent sign, to the end of its line. -/
def readDirective? (gs : List Glyph) : Option (Token × List Glyph) := do
  let (name, rest) := spanName gs
  if !atGap rest then none
  let (token, rest) ←
    match String.ofList name with
    | "YAML" => readVersion? rest
    | "TAG" => readTagPrefix? rest
    | _ => none
  let rest ← endLine? rest
  return (token, rest)

end Gamebook.Yaml
