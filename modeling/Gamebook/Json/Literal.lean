import Gamebook.Json.Numeral

/-!
JSON string literals. A literal is first cut into pieces, which is all that a reader needs that
passes over it; only a reader that keeps the text joins the pieces and asks surrogates to pair.
-/
namespace Gamebook.Json

/-- A piece of a literal: a character, or a code unit given by four hexadecimal digits. -/
inductive Piece where
  | char (c : Char)
  | unit (n : Nat)

/-- How the pieces of a literal end. -/
inductive LiteralEnd where
  | closed
  | endOfText
  | control
  | badEscape
  | badHex
deriving DecidableEq

def LiteralEnd.flaw? : LiteralEnd → Option Flaw
  | .closed => none
  | .endOfText => some .endInString
  | .control => some .controlCharacter
  | .badEscape => some .badEscape
  | .badHex => some .badEscape

def simpleEscape? : Char → Option Char
  | '"' => some '"'
  | '\\' => some '\\'
  | '/' => some '/'
  | 'b' => some '\x08'
  | 'f' => some '\x0c'
  | 'n' => some '\n'
  | 'r' => some '\r'
  | 't' => some '\t'
  | _ => none

/-- Whether at least four bytes of the text are left. -/
def hasFourBytes (cs : List Char) : Bool :=
  4 ≤ (cs.take 4).foldl (fun n c => n + c.utf8Size) 0

/-- Cuts the text after an opening quote into pieces, the pieces so far reversed in `acc`. -/
def cut (acc : List Piece) : List Char → List Piece × LiteralEnd × List Char
  | [] => (acc.reverse, .endOfText, [])
  | '"' :: rest => (acc.reverse, .closed, rest)
  | '\\' :: [] => (acc.reverse, .endOfText, [])
  | '\\' :: 'u' :: a :: b :: c :: d :: rest =>
    match Text.hexNumber? [a, b, c, d] with
    | some n => cut (.unit n :: acc) rest
    | none => (acc.reverse, .badHex, [])
  | '\\' :: 'u' :: rest =>
    (acc.reverse, if hasFourBytes rest then .badHex else .endOfText, [])
  | '\\' :: e :: rest =>
    match simpleEscape? e with
    | some c => cut (.char c :: acc) rest
    | none => (acc.reverse, .badEscape, [])
  | c :: rest =>
    if c.toNat < 0x20 then (acc.reverse, .control, []) else cut (.char c :: acc) rest

def isLeading (n : Nat) : Bool := 0xD800 ≤ n && n ≤ 0xDBFF

def isTrailing (n : Nat) : Bool := 0xDC00 ≤ n && n ≤ 0xDFFF

def pairValue (lead trail : Nat) : Nat := 0x10000 + (lead - 0xD800) * 0x400 + (trail - 0xDC00)

/-- What stands after a leading surrogate that is the last piece. -/
def LiteralEnd.flawAfterLeading : LiteralEnd → Flaw
  | .endOfText => .endInString
  | .badHex => .badEscape
  | _ => .cutSurrogate

def join (ending : LiteralEnd) (acc : List Char) : List Piece → Except Flaw (List Char)
  | [] =>
    match ending.flaw? with
    | some flaw => .error flaw
    | none => .ok acc.reverse
  | .char c :: rest => join ending (c :: acc) rest
  | .unit n :: rest =>
    if isTrailing n then .error .loneSurrogate
    else if isLeading n then
      match rest with
      | .unit m :: rest =>
        if isTrailing m then join ending (Char.ofNat (pairValue n m) :: acc) rest
        else .error .loneSurrogate
      | .char _ :: _ => .error .cutSurrogate
      | [] => .error ending.flawAfterLeading
    else join ending (Char.ofNat n :: acc) rest

/-- Reads a literal after its opening quote. -/
def readLiteral (cs : List Char) : Lexeme String × List Char :=
  let (pieces, ending, rest) := cut [] cs
  match join ending [] pieces with
  | .ok text => (.good (String.ofList text), rest)
  | .error flaw => (.broken flaw ending.flaw?, rest)

end Gamebook.Json
