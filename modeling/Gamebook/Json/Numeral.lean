import Gamebook.Json.Problem
import Gamebook.Text.Basic

/-!
Numbers as a JSON document writes them, and what they stand for: an integer where it has neither
fraction nor exponent and fits 64 bits, and a float otherwise. A float is found from the leading
digits that fit 64 bits by one or more steps of scaling, each of which rounds.
-/
namespace Gamebook.Json

inductive Number where
  | int (n : Int)
  | float (x : Float)
deriving DecidableEq, Repr

/-- A part of the text that stands for a value. When it is broken, a reader that wants the value
and one that only passes over it can differ in what they object to; the second may not object. -/
inductive Lexeme (α : Type) where
  | good (value : α)
  | broken (kept : Flaw) (skipped : Option Flaw)
deriving Repr

structure Numeral where
  negative : Bool
  whole : List Nat
  fraction : List Nat
  exponent : Option (Bool × List Nat)

namespace Numeral

def largest : Nat := UInt64.size - 1

/-- Appends digits as long as the number fits 64 bits; also says how many were left. -/
def accumulate : Nat → List Nat → Nat × Nat
  | n, [] => (n, 0)
  | n, d :: ds => if n * 10 + d ≤ largest then accumulate (n * 10 + d) ds else (n, ds.length + 1)

/-- Scales by a power of ten, in steps that a float can hold; none if the result is too large. -/
def scale (x : Float) (e : Int) : Option Float :=
  if e.natAbs ≤ 308 then
    let power := Float.ofScientific 1 false e.natAbs
    if 0 ≤ e then
      let y := x * power
      if y.isInf then none else some y
    else some (x / power)
  else if x == 0 then some x
  else if h : 0 ≤ e then none
  else scale (x / Float.ofScientific 1 false 308) (e + 308)
termination_by e.natAbs
decreasing_by omega

def signed (negative : Bool) (x : Float) : Float := if negative then -x else x

/-- The largest exponent that is looked at; a greater one makes zero or a number out of range. -/
def exponentLimit : Nat := 0x7fffffff

def decimalValue (digits : List Nat) : Nat := digits.foldl (fun n d => n * 10 + d) 0

def value (n : Numeral) : Option Number :=
  let (head, dropped) := accumulate 0 n.whole
  match n.fraction, n.exponent with
  | [], none =>
    if dropped ≠ 0 then (scale head.toUInt64.toFloat dropped).map (.float <| signed n.negative ·)
    else if !n.negative then some (.int head)
    else if head = 0 ∨ 0x8000000000000000 < head then some (.float (-head.toUInt64.toFloat))
    else some (.int (-head))
  | fraction, exponent =>
    let (significand, left) := accumulate head fraction
    let places : Int := (dropped : Int) - (fraction.length - left : Nat)
    let x := significand.toUInt64.toFloat
    match exponent with
    | none => (scale x places).map (.float <| signed n.negative ·)
    | some (negativeExponent, digits) =>
      let e := decimalValue digits
      if exponentLimit < e then
        if significand ≠ 0 && !negativeExponent then none else some (.float (signed n.negative 0))
      else
        let e : Int := if negativeExponent then places - e else places + e
        let e := max (-(exponentLimit : Int) - 1) (min (exponentLimit : Int) e)
        (scale x e).map (.float <| signed n.negative ·)

end Numeral

def splitDigits (cs : List Char) : List Nat × List Char :=
  ((cs.takeWhile Char.isDigit).map Text.digitValue, cs.dropWhile Char.isDigit)

/-- A number that ends in the middle: a reader that wants its value sees where the text ends. -/
def brokenNumber {α : Type} : List Char → Lexeme α × List Char
  | [] => (.broken .endInValue (some .badNumber), [])
  | _ :: _ => (.broken .badNumber (some .badNumber), [])

def finishNumber (n : Numeral) (rest : List Char) : Lexeme Number × List Char :=
  match n.value with
  | some v => (.good v, rest)
  | none => (.broken .numberOutOfRange none, rest)

def readExponent (n : Numeral) (cs : List Char) : Lexeme Number × List Char :=
  let (negative, cs) :=
    match cs with
    | '+' :: r => (false, r)
    | '-' :: r => (true, r)
    | r => (false, r)
  match splitDigits cs with
  | ([], rest) => brokenNumber rest
  | (digits, rest) => finishNumber { n with exponent := some (negative, digits) } rest

def readAfterFraction (n : Numeral) (cs : List Char) : Lexeme Number × List Char :=
  match cs with
  | 'e' :: r | 'E' :: r => readExponent n r
  | r => finishNumber n r

def readAfterWhole (n : Numeral) (cs : List Char) : Lexeme Number × List Char :=
  match cs with
  | '.' :: r =>
    match splitDigits r with
    | ([], rest) => brokenNumber rest
    | (digits, rest) => readAfterFraction { n with fraction := digits } rest
  | r => readAfterFraction n r

/-- Reads a number after its sign. Only a lone zero may begin with a zero. -/
def readNumber (negative : Bool) (cs : List Char) : Lexeme Number × List Char :=
  match splitDigits cs with
  | ([], rest) => brokenNumber rest
  | (0 :: _ :: _, _) => (.broken .badNumber (some .badNumber), [])
  | (digits, rest) => readAfterWhole ⟨negative, digits, [], none⟩ rest

end Gamebook.Json
