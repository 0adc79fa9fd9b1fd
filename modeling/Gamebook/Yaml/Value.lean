import Gamebook.Json.Basic
import Gamebook.Text.Basic
import Gamebook.Yaml.Scalar

/-!
What scalars stand for. A plain text can name a null, a truth value or a number; in every other
style a text stands for itself, unless a tag says otherwise.
-/
namespace Gamebook.Yaml

inductive Value where
  | null
  | bool (b : Bool)
  | natural (n : Nat)
  /-- The number `-n`; minus zero is one too. -/
  | negative (n : Nat)
  | float (x : Float)
  | text (s : String)
  | list (items : List Value)
  | mapping (entries : List (Value × Value))
deriving Inhabited

/-! ### Words -/

def isNull (s : String) : Bool := s = "null" || s = "Null" || s = "NULL" || s = "~"

def readBool? (s : String) : Option Bool :=
  if s = "true" || s = "True" || s = "TRUE" then some true
  else if s = "false" || s = "False" || s = "FALSE" then some false
  else none

/-! ### Integers -/

def digitsValue? (base : Nat) (cs : List Char) : Option Nat :=
  if cs.isEmpty then none
  else
    cs.foldlM (fun n c => do
      let d ← Text.hexValue? c
      if d < base then some (n * base + d) else none) 0

def dropPlus : List Char → List Char
  | '+' :: cs => cs
  | cs => cs

/-- Whether a zero stands in front of other digits, all of them decimal, so that the whole is no
number. -/
def isZeroPadded (cs : List Char) : Bool :=
  let digits :=
    match cs with
    | '-' :: cs => cs
    | cs => dropPlus cs
  match digits with
  | '0' :: c :: rest => (c :: rest).all Char.isDigit
  | _ => false

/-- The value of digits without a sign: after `0x`, `0o` or `0b` in that base. -/
def readNatural? : List Char → Option Nat
  | '0' :: 'x' :: cs => digitsValue? 16 cs
  | '0' :: 'o' :: cs => digitsValue? 8 cs
  | '0' :: 'b' :: cs => digitsValue? 2 cs
  | cs => if isZeroPadded cs then none else digitsValue? 10 cs

/-- A whole number and whether a minus sign stands before it. -/
def readInteger? (cs : List Char) : Option (Bool × Nat) :=
  match cs with
  | '-' :: cs => (readNatural? cs).map fun n => (true, n)
  | cs => (readNatural? (dropPlus cs)).map fun n => (false, n)

/-- Whether an integer fits a word of so many bits, one with a sign if it is negative. -/
def fitsBits (bits : Nat) : Bool × Nat → Bool
  | (false, n) => n < 1 <<< bits
  | (true, n) => n ≤ 1 <<< (bits - 1)

/-! ### Floats -/

/-- The float nearest to `m · 10 ^ e`, if one is near enough. The powers that no float reaches are
told by the number of digits. -/
def nearestFloat? (m : Nat) (e : Int) : Option Float :=
  let size : Int := e + (Nat.toDigits 10 m).length
  if m = 0 || size < -330 then some 0
  else if 310 < size then none
  else
    let x := Float.ofScientific m (e < 0) e.natAbs
    if x.isInf then none else some x

def readExponent? : List Char → Option Int
  | [] => some 0
  | c :: cs =>
    if c = 'e' || c = 'E' then
      match cs with
      | '-' :: cs => (digitsValue? 10 cs).map fun n => -(n : Int)
      | cs => (digitsValue? 10 (dropPlus cs)).map fun n => (n : Int)
    else none

/-- A decimal fraction without a sign: digits, among which a point may stand, and an exponent. -/
def readFraction? (cs : List Char) : Option Float := do
  let whole := cs.takeWhile Char.isDigit
  let (fraction, rest) :=
    match cs.dropWhile Char.isDigit with
    | '.' :: rest => rest.span Char.isDigit
    | rest => ([], rest)
  let m ← digitsValue? 10 (whole ++ fraction)
  let e ← readExponent? rest
  nearestFloat? m (e - fraction.length)

def infinity : Float := 1 / 0

def readFloat? (s : String) : Option Float :=
  if s ∈ [".inf", ".Inf", ".INF", "+.inf", "+.Inf", "+.INF"] then some infinity
  else if s ∈ ["-.inf", "-.Inf", "-.INF"] then some (-infinity)
  else if s ∈ [".nan", ".NaN", ".NAN"] then some (0 / 0)
  else
    match s.toList with
    | '-' :: cs => (readFraction? cs).map fun x => -x
    | cs => readFraction? (dropPlus cs)

/-! ### Scalars -/

namespace Value

def ofInteger? (i : Bool × Nat) : Option Value :=
  if fitsBits 64 i then some (if i.1 then .negative i.2 else .natural i.2) else none

/-- What a plain text stands for. A number that 128 bits hold but 64 do not stands for nothing. -/
def ofPlain? (s : String) : Option Value :=
  if s.isEmpty || isNull s then some .null
  else
    match readBool? s with
    | some b => some (.bool b)
    | none =>
      match (readInteger? s.toList).filter (fitsBits 128) with
      | some i => ofInteger? i
      | none =>
        if isZeroPadded s.toList then some (.text s)
        else
          match readFloat? s with
          | some x => some (.float x)
          | none => some (.text s)

/-- What a scalar stands for. A text that is not of the type its tag names stands for nothing, and
neither does one with a tag that is meant for the document alone. -/
def ofScalar? (s : Scalar) : Option Value :=
  match s.tag with
  | none => if s.isPlain then ofPlain? s.text else some (.text s.text)
  | some t =>
    if t = .core "bool" then (readBool? s.text).map .bool
    else if t = .core "int" then (readInteger? s.text.toList).bind ofInteger?
    else if t = .core "float" then (readFloat? s.text).map .float
    else if t = .core "null" then if isNull s.text then some .null else none
    else if t.localName?.isSome then none
    else some (.text s.text)

/-- The value in JSON, where the keys of a mapping are texts, the later of two with one key counts,
and a float that is not finite becomes null. -/
def toJson? : Value → Option Json
  | null => some .null
  | bool b => some (.bool b)
  | natural n => some (.int n)
  | negative n => some (.int (-n))
  | float x => some (if x.isFinite then .float x else .null)
  | text s => some (.string s)
  | list items => do
    let items ← itemsToJson? items
    return .array items
  | mapping entries => do
    let members ← entriesToJson? entries
    return .ofMembers members
where
  itemsToJson? : List Value → Option (List Json)
    | [] => some []
    | v :: rest => do
      let j ← v.toJson?
      let js ← itemsToJson? rest
      return j :: js
  entriesToJson? : List (Value × Value) → Option (List (String × Json))
    | [] => some []
    | (text k, v) :: rest => do
      let j ← v.toJson?
      let js ← entriesToJson? rest
      return (k, j) :: js
    | _ => none

end Value

end Gamebook.Yaml
