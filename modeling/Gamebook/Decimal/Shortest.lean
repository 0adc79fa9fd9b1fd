/-!
The shortest decimal that reads back as a given binary floating-point number: among the decimals
with the fewest digits that round to it, the one nearest to it.
-/
namespace Gamebook.Decimal

/-- The number `mantissa * 2 ^ exponent`, for a finite float without its sign. -/
structure Binary where
  mantissa : Nat
  exponent : Int
deriving DecidableEq, Repr

/-- The number `digits * 10 ^ exponent`. -/
structure Scientific where
  digits : Nat
  exponent : Int
deriving DecidableEq, Repr

/-- The leading bit of a mantissa, which a float leaves unwritten unless it is a small one. -/
def leadingBit : Nat := 0x10000000000000

def Binary.ofFloat (x : Float) : Binary :=
  let bits := x.toBits.toNat
  let fraction : Nat := bits % leadingBit
  let biased : Nat := bits / leadingBit % 0x800
  if biased = 0 then ⟨fraction, -1074⟩ else ⟨fraction + leadingBit, (biased : Int) - 1075⟩

def pow (base : Nat) (e : Int) : Nat × Nat :=
  if 0 ≤ e then (base.pow e.toNat, 1) else (1, base.pow (-e).toNat)

/-- Whether `d * 10 ^ e` rounds to `b`: it lies between the midpoints to `b`'s neighbours, which
count themselves when the mantissa is even. All is in quarters of the last binary place. -/
def Binary.admits (b : Binary) (d : Nat) (e : Int) : Bool :=
  let (tenUp, tenDown) := pow 10 e
  let (twoUp, twoDown) := pow 2 (b.exponent - 2)
  let scaled := d * tenUp * twoDown
  let below := if b.mantissa = leadingBit && b.exponent != -1074 then 1 else 2
  let low := (4 * b.mantissa - below) * twoUp * tenDown
  let high := (4 * b.mantissa + 2) * twoUp * tenDown
  if b.mantissa % 2 = 0 then low ≤ scaled && scaled ≤ high else low < scaled && scaled < high

/-- The multiple of `10 ^ e` at or below `b`, and twice what is left over, against one step. -/
def Binary.grid (b : Binary) (e : Int) : Nat × Nat × Nat :=
  let (tenUp, tenDown) := pow 10 e
  let (twoUp, twoDown) := pow 2 b.exponent
  let num := b.mantissa * twoUp * tenDown
  let den := twoDown * tenUp
  (num / den, 2 * (num % den), den)

/-- The nearer of the two neighbours of `b` on the grid of `10 ^ e` that round to `b`. -/
def Binary.onGrid (b : Binary) (e : Int) : Option Scientific :=
  let (d, twice, step) := b.grid e
  let down := b.admits d e && d != 0
  let up := b.admits (d + 1) e
  if down && up then
    some ⟨if twice < step || (twice = step && d % 2 = 0) then d else d + 1, e⟩
  else if down then some ⟨d, e⟩
  else if up then some ⟨d + 1, e⟩
  else none

/-- Tries finer and finer grids, `count` of them, from the one of `10 ^ e`. -/
def Binary.search (b : Binary) : Nat → Int → Scientific
  | 0, e => ⟨(b.grid e).1, e⟩
  | count + 1, e =>
    match b.onGrid e with
    | some d => d
    | none => b.search count (e - 1)

/-- The exponent of the first decimal place of a number that is not zero. -/
def Binary.magnitude (b : Binary) : Int :=
  let (up, down) := pow 2 b.exponent
  let num := b.mantissa * up
  if down ≤ num then ((Nat.toDigits 10 (num / down)).length : Int) - 1
  else -((Nat.toDigits 10 (down / num)).length : Int)

def Binary.shortest (b : Binary) : Scientific :=
  b.search 19 (b.magnitude + 1)

/-- Drops the zeros at the end of the digits, at most `count` of them. -/
def Scientific.trimmed : Nat → Scientific → Scientific
  | 0, d => d
  | count + 1, d =>
    if d.digits ≠ 0 && d.digits % 10 = 0 then trimmed count ⟨d.digits / 10, d.exponent + 1⟩ else d

/-- Where positional notation ends: the point stands after at least `lowest + 1` and at most
`highest` digits, zeros before the first digit counting below zero. -/
structure Style where
  lowest : Int
  highest : Int

def zeros (n : Int) : String := String.ofList (List.replicate n.toNat '0')

/-- A positional number always has a point and a digit after it. -/
def Scientific.render (style : Style) (d : Scientific) : String :=
  let digits := Nat.toDigits 10 d.digits
  let count : Int := digits.length
  let point := count + d.exponent
  if 0 ≤ d.exponent && point ≤ style.highest then
    String.ofList digits ++ zeros d.exponent ++ ".0"
  else if 0 < point && point ≤ style.highest then
    String.ofList (digits.take point.toNat) ++ "." ++ String.ofList (digits.drop point.toNat)
  else if style.lowest < point && point ≤ 0 then
    "0." ++ zeros (-point) ++ String.ofList digits
  else
    let tail := if count = 1 then "" else "." ++ String.ofList (digits.drop 1)
    String.ofList (digits.take 1) ++ tail ++ "e" ++ toString (point - 1)

def renderFloat (style : Style) (x : Float) : String :=
  let sign := if x.toBits.toNat >>> 63 = 1 then "-" else ""
  let b := Binary.ofFloat x
  if b.mantissa = 0 then sign ++ "0.0" else sign ++ (b.shortest.trimmed 20).render style

end Gamebook.Decimal
