import Gamebook.Text.Basic
import Gamebook.Yaml.Glyph

/-!
Scalars in quotes. They may run over several lines, which are folded; between single quotes only
a doubled quote is special, between double quotes a backslash begins an escape.
-/
namespace Gamebook.Yaml

/-- Reads a text after its opening single quote. The characters so far stand in `acc` and the
blanks and line breaks after them in `gap`, both in reverse order. -/
def readSingleQuoted (gap acc : List Char) : List Glyph → Option (List Char × List Glyph)
  | [] => none
  | g :: rest =>
    if atDocumentMarker (g :: rest) then none
    else if isGap g.char then readSingleQuoted (g.char :: gap) acc rest
    else
      let acc := appendGap gap acc
      if g.char ≠ '\'' then readSingleQuoted [] (g.char :: acc) rest
      else
        match rest with
        | [] => some (acc.reverse, [])
        | h :: after =>
          if h.char = '\'' then readSingleQuoted [] ('\'' :: acc) after
          else some (acc.reverse, h :: after)

/-- The character that a one-letter escape stands for. -/
def escapedChar? : Char → Option Char
  | '0' => some '\x00'
  | 'a' => some '\x07'
  | 'b' => some '\x08'
  | 't' => some '\t'
  | '\t' => some '\t'
  | 'n' => some '\n'
  | 'v' => some '\x0b'
  | 'f' => some '\x0c'
  | 'r' => some '\r'
  | 'e' => some '\x1b'
  | ' ' => some ' '
  | '"' => some '"'
  | '/' => some '/'
  | '\\' => some '\\'
  | 'N' => some '\u0085'
  | '_' => some '\u00a0'
  | 'L' => some '\u2028'
  | 'P' => some '\u2029'
  | _ => none

/-- The number of hexadecimal digits that follow the letter of an escape. -/
def escapeLength? : Char → Option Nat
  | 'x' => some 2
  | 'u' => some 4
  | 'U' => some 8
  | _ => none

def charOfNumber? (n : Nat) : Option Char :=
  if h : n.isValidChar then some (Char.ofNatAux n h) else none

/-- Where a reader between double quotes stands. -/
inductive QuotedPlace where
  /-- After blanks and line breaks, which stand in reverse order. -/
  | gap (l : List Char)
  /-- After an escaped line break, which joins the lines around it, and after such blanks. -/
  | joined (l : List Char)
  /-- After a backslash. -/
  | escape
  /-- Inside a number, of which the given count of digits is to come. -/
  | digits (left value : Nat)

/-- Reads a text after its opening double quote; `acc` holds the characters so far in reverse. -/
def readDoubleQuoted (acc : List Char) :
    QuotedPlace → List Glyph → Option (List Char × List Glyph)
  | _, [] => none
  | .escape, g :: rest =>
    if isBreak g.char then readDoubleQuoted acc (.joined []) rest
    else
      match escapeLength? g.char with
      | some n => readDoubleQuoted acc (.digits n 0) rest
      | none =>
        match escapedChar? g.char with
        | some c => readDoubleQuoted (c :: acc) (.gap []) rest
        | none => none
  | .digits left value, g :: rest =>
    match Text.hexValue? g.char with
    | none => none
    | some d =>
      let value := value * 16 + d
      if 1 < left then readDoubleQuoted acc (.digits (left - 1) value) rest
      else
        match charOfNumber? value with
        | some c => readDoubleQuoted (c :: acc) (.gap []) rest
        | none => none
  | .gap l, g :: rest =>
    if atDocumentMarker (g :: rest) then none
    else if isGap g.char then readDoubleQuoted acc (.gap (g.char :: l)) rest
    else
      let acc := appendGap l acc
      if g.char = '"' then some (acc.reverse, rest)
      else if g.char = '\\' then readDoubleQuoted acc .escape rest
      else readDoubleQuoted (g.char :: acc) (.gap []) rest
  | .joined l, g :: rest =>
    if atDocumentMarker (g :: rest) then none
    else if isGap g.char then readDoubleQuoted acc (.joined (g.char :: l)) rest
    else
      let acc := l.filter isBreak ++ acc
      if g.char = '"' then some (acc.reverse, rest)
      else if g.char = '\\' then readDoubleQuoted acc .escape rest
      else readDoubleQuoted (g.char :: acc) (.gap []) rest

end Gamebook.Yaml
