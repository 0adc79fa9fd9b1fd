/-!
The characters of a YAML text, each with the place where it stands.

All line breaks are read alike: a carriage return, a carriage return with a line feed, and a next
line are each one line feed. The line and paragraph separators end lines too, but stay what they
are.
-/
namespace Gamebook.Yaml

structure Place where
  index : Nat
  line : Nat
  column : Nat
deriving DecidableEq, Repr

structure Glyph where
  char : Char
  place : Place
deriving DecidableEq, Repr

/-! ### Classes of characters -/

def isBreak (c : Char) : Bool := c = '\n' || c = '\u2028' || c = '\u2029'

def isBlank (c : Char) : Bool := c = ' ' || c = '\t'

def isGap (c : Char) : Bool := isBlank c || isBreak c

/-- The characters of names: of anchors, of directives, and of tags between exclamation marks. -/
def isNameChar (c : Char) : Bool := c.isAlphanum || c = '_' || c = '-'

/-- The characters that a text may hold at all. -/
def isPermitted (c : Char) : Bool :=
  let n := c.toNat
  n = 0x9 || n = 0xA || n = 0xD || (0x20 ≤ n && n ≤ 0x7E) || n = 0x85 ||
    (0xA0 ≤ n && n ≤ 0xFFFD) || 0x10000 ≤ n

/-! ### Reading a text -/

namespace Place

def start : Place := ⟨0, 0, 0⟩

def nextColumn (p : Place) : Place := ⟨p.index + 1, p.line, p.column + 1⟩

def nextLine (p : Place) (width : Nat) : Place := ⟨p.index + width, p.line + 1, 0⟩

end Place

namespace Glyph

def listFrom (p : Place) : List Char → List Glyph
  | [] => []
  | '\r' :: '\n' :: rest => ⟨'\n', p⟩ :: listFrom (p.nextLine 2) rest
  | '\r' :: rest => ⟨'\n', p⟩ :: listFrom (p.nextLine 1) rest
  | c :: rest =>
    if c = '\u0085' then ⟨'\n', p⟩ :: listFrom (p.nextLine 1) rest
    else if isBreak c then ⟨c, p⟩ :: listFrom (p.nextLine 1) rest
    else ⟨c, p⟩ :: listFrom p.nextColumn rest

/-- The glyphs of a text; a mark of the byte order may stand before the first. -/
def ofText? (text : String) : Option (List Glyph) :=
  let cs := text.toList
  if cs.all isPermitted then
    match listFrom .start cs with
    | ⟨'\ufeff', _⟩ :: rest => some rest
    | gs => some gs
  else none

end Glyph

/-! ### Looking ahead -/

/-- Whether a line ends here. -/
def atLineEnd : List Glyph → Bool
  | [] => true
  | g :: _ => isBreak g.char

/-- Whether a blank stands here or a line ends. -/
def atGap : List Glyph → Bool
  | [] => true
  | g :: _ => isGap g.char

/-- Whether a line begins here that opens or closes a document. -/
def atMarker (mark : Char) : List Glyph → Bool
  | a :: b :: c :: rest =>
    a.place.column = 0 && a.char = mark && b.char = mark && c.char = mark && atGap rest
  | _ => false

def atDocumentMarker (gs : List Glyph) : Bool := atMarker '-' gs || atMarker '.' gs

/-! ### Passing over -/

def dropBlanks (gs : List Glyph) : List Glyph := gs.dropWhile fun g => isBlank g.char

def dropLine (gs : List Glyph) : List Glyph := gs.dropWhile fun g => !isBreak g.char

/-- Passes over the rest of a line that may hold only blanks and a comment, and over its end. -/
def endLine? (gs : List Glyph) : Option (List Glyph) :=
  let gs :=
    match dropBlanks gs with
    | ⟨'#', _⟩ :: rest => dropLine rest
    | gs => gs
  if atLineEnd gs then some gs.tail else none

/-! ### Folding -/

/-- The text that blanks and line breaks between two words stand for: the blanks themselves on one
line, a space for one line break, and one line break fewer than there are for more. -/
def foldGap (gap : List Char) : List Char :=
  match gap.filter isBreak with
  | [] => gap
  | ['\n'] => [' ']
  | '\n' :: breaks => breaks
  | breaks => breaks

/-- Appends a folded gap to a text; both stand in reverse order. -/
def appendGap (gap text : List Char) : List Char := (foldGap gap.reverse).reverse ++ text

end Gamebook.Yaml
