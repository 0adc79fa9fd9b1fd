import Gamebook.Text.Basic
import Gamebook.Yaml.Glyph

/-!
Block scalars: the indented lines below a bar, which are kept, or below a greater-than sign, which
are folded. A header after the sign may give the indentation and what becomes of the last breaks.
-/
namespace Gamebook.Yaml

/-- What becomes of the line breaks at the end. -/
inductive Chomping where
  | strip
  | clip
  | keep
deriving DecidableEq, Repr

structure BlockHeader where
  chomping : Chomping
  indentation : Option Nat

namespace BlockHeader

def chomping? (c : Char) : Option Chomping :=
  match c with
  | '+' => some .keep
  | '-' => some .strip
  | _ => none

def readChomping : List Glyph → Chomping × List Glyph
  | [] => (.clip, [])
  | g :: rest =>
    match chomping? g.char with
    | some c => (c, rest)
    | none => (.clip, g :: rest)

/-- Reads the digit that gives the indentation, which is never zero. -/
def readIndentation? : List Glyph → Option (Option Nat × List Glyph)
  | [] => some (none, [])
  | g :: rest =>
    if g.char = '0' then none
    else if g.char.isDigit then some (some (Text.digitValue g.char), rest)
    else some (none, g :: rest)

/-- Reads the two parts of a header in either order, and the rest of its line. -/
def read? (gs : List Glyph) : Option (BlockHeader × List Glyph) := do
  let (first, gs) := readChomping gs
  let (indentation, gs) ← readIndentation? gs
  let (chomping, gs) :=
    if first = .clip && indentation.isSome then readChomping gs else (first, gs)
  let gs ← endLine? gs
  return (⟨chomping, indentation⟩, gs)

end BlockHeader

/-- A line with a text, its end, which the last line of all can lack, and the ends of the empty
lines below it. -/
structure BlockLine where
  text : List Char
  ending : List Char
  empties : List Char

namespace BlockLine

def isSpaced (l : BlockLine) : Bool := l.text.head?.any isBlank

/-- What stands between the texts of two lines. -/
def between (folded : Bool) (a b : BlockLine) : List Char :=
  if folded && a.ending = ['\n'] && !a.isSpaced && !b.isSpaced then
    (if a.empties.isEmpty then [' '] else []) ++ a.empties
  else a.ending ++ a.empties

def chomp (c : Chomping) (ending empties : List Char) : List Char :=
  match c with
  | .strip => []
  | .clip => ending
  | .keep => ending ++ empties

def join (folded : Bool) (c : Chomping) : List BlockLine → List Char
  | [] => []
  | [l] => l.text ++ chomp c l.ending l.empties
  | a :: b :: rest => a.text ++ between folded a b ++ join folded c (b :: rest)

end BlockLine

/-- The greatest indentation among the empty lines that come first and the line after them. -/
def widestIndent? (widest : Nat) : List Glyph → Option Nat
  | [] => some widest
  | g :: rest =>
    if g.char = ' ' then widestIndent? (max widest (g.place.column + 1)) rest
    else if g.char = '\t' then none
    else if isBreak g.char then widestIndent? widest rest
    else some widest

/-- Reads empty lines and the indentation of the line after them. -/
def readEmpties (indent : Nat) (acc : List Char) : List Glyph → Option (List Char × List Glyph)
  | [] => some (acc.reverse, [])
  | g :: rest =>
    if g.place.column < indent && g.char = ' ' then readEmpties indent acc rest
    else if g.place.column < indent && g.char = '\t' then none
    else if isBreak g.char then readEmpties indent (g.char :: acc) rest
    else some (acc.reverse, g :: rest)

/-- Reads lines that are indented by `indent`; `fuel` bounds their number. -/
def readBlockLines (indent : Nat) : Nat → List Glyph → Option (List BlockLine × List Glyph)
  | 0, gs => some ([], gs)
  | _ + 1, [] => some ([], [])
  | fuel + 1, g :: gs =>
    if g.place.column ≠ indent then some ([], g :: gs)
    else do
      let (text, after) := (g :: gs).span fun h => !isBreak h.char
      let (empties, rest) ← readEmpties indent [] after.tail
      let line : BlockLine :=
        ⟨text.map Glyph.char, (after.take 1).map Glyph.char, empties⟩
      let (lines, rest) ← readBlockLines indent fuel rest
      return (line :: lines, rest)

/-- Reads a block scalar after its sign, in a block that requires an indentation of `least`. -/
def readBlock? (folded : Bool) (least : Nat) (gs : List Glyph) :
    Option (List Char × List Glyph) := do
  let (header, gs) ← BlockHeader.read? gs
  let indent ←
    match header.indentation with
    | some n => some (least - 1 + n)
    | none => (widestIndent? 0 gs).map fun widest => max 1 (max widest least)
  let (empties, gs) ← readEmpties indent [] gs
  let (lines, rest) ← readBlockLines indent gs.length gs
  let body :=
    if lines.isEmpty then BlockLine.chomp header.chomping [] empties
    else empties ++ BlockLine.join folded header.chomping lines
  return (body, rest)

end Gamebook.Yaml
