/-!
Blanks, digits, and whole numbers in text.

Blanks are the 25 characters of Unicode's `White_Space` property. Digits are those of ASCII, decimal
and hexadecimal. A whole number of 64 bits is read from decimal digits, one plus sign allowed before
them, and any number of zeros in front.
-/
namespace Gamebook.Text

/-! ### Blanks -/

def isBlank (c : Char) : Bool :=
  let n := c.toNat
  (9 ≤ n && n ≤ 13) || n == 0x20 || n == 0x85 || n == 0xA0 || n == 0x1680 ||
    (0x2000 ≤ n && n ≤ 0x200A) || n == 0x2028 || n == 0x2029 || n == 0x202F || n == 0x205F ||
    n == 0x3000

def trimList (cs : List Char) : List Char :=
  ((cs.dropWhile isBlank).reverse.dropWhile isBlank).reverse

def trim (s : String) : String := String.ofList (trimList s.toList)

/-! ### Digits -/

def digitValue (c : Char) : Nat := c.toNat - '0'.toNat

def hexValue? (c : Char) : Option Nat :=
  if '0' ≤ c && c ≤ '9' then some (c.toNat - '0'.toNat)
  else if 'a' ≤ c && c ≤ 'f' then some (c.toNat - 'a'.toNat + 10)
  else if 'A' ≤ c && c ≤ 'F' then some (c.toNat - 'A'.toNat + 10)
  else none

/-- The number that hexadecimal digits write, the highest digit first. -/
def hexNumber? (cs : List Char) : Option Nat :=
  cs.foldlM (fun n c => (hexValue? c).map (n * 16 + ·)) 0

/-! ### Numbers -/

inductive NumberFlaw where
  | empty
  | badDigit
  | tooLarge
deriving DecidableEq, Repr

def NumberFlaw.message : NumberFlaw → String
  | .empty => "cannot parse integer from empty string"
  | .badDigit => "invalid digit found in string"
  | .tooLarge => "number too large to fit in target type"

/-- The digits that are left without a plus sign. -/
def dropPlus : List Char → List Char
  | '+' :: cs => cs
  | cs => cs

/-- Appends digits to `n`; the first character that is no digit or makes the number too large
decides which flaw is reported. -/
def readDigits (bound : Nat) (n : Nat) : List Char → Except NumberFlaw Nat
  | [] => .ok n
  | c :: cs =>
    if !c.isDigit then .error .badDigit
    else
      let m := n * 10 + digitValue c
      if m < bound then readDigits bound m cs else .error .tooLarge

def readNumber64 (s : String) : Except NumberFlaw Nat :=
  match s.toList with
  | [] => .error .empty
  | cs =>
    match dropPlus cs with
    | [] => .error .badDigit
    | digits => readDigits UInt64.size 0 digits

end Gamebook.Text
