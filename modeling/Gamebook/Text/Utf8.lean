/-!
Reading bytes as UTF-8. A sequence that cannot be read is reported with the index of its first byte
and with the number of its bytes that begin a character, or as cut off by the end of the bytes.
-/
namespace Gamebook.Text

inductive Utf8Flaw where
  | invalid (index length : Nat)
  | incomplete (index : Nat)
deriving DecidableEq, Repr

def Utf8Flaw.message : Utf8Flaw → String
  | .invalid i n => s!"invalid utf-8 sequence of {n} bytes from index {i}"
  | .incomplete i => s!"incomplete utf-8 byte sequence from index {i}"

def isContinuation (b : UInt8) : Bool := 0x80 ≤ b && b ≤ 0xBF

/-- The second bytes that may follow a first byte of a sequence of three or four. -/
def isSecond (first second : UInt8) : Bool :=
  if first == 0xE0 then 0xA0 ≤ second && second ≤ 0xBF
  else if first == 0xED then 0x80 ≤ second && second ≤ 0x9F
  else if first == 0xF0 then 0x90 ≤ second && second ≤ 0xBF
  else if first == 0xF4 then 0x80 ≤ second && second ≤ 0x8F
  else isContinuation second

def joinBits (lead : Nat) (tail : List UInt8) : Char :=
  Char.ofNat (tail.foldl (fun n b => n * 64 + b.toNat % 64) lead)

/-- The characters of `bytes`, whose first byte has the given index; `acc` holds those before. -/
def decodeFrom (index : Nat) (acc : List Char) : List UInt8 → Except Utf8Flaw (List Char)
  | [] => .ok acc.reverse
  | b :: rest =>
    if b < 0x80 then decodeFrom (index + 1) (Char.ofNat b.toNat :: acc) rest
    else if b < 0xC2 then .error (.invalid index 1)
    else if b < 0xE0 then
      match rest with
      | [] => .error (.incomplete index)
      | b2 :: rest =>
        if isContinuation b2 then
          decodeFrom (index + 2) (joinBits (b.toNat % 32) [b2] :: acc) rest
        else .error (.invalid index 1)
    else if b < 0xF0 then
      match rest with
      | [] => .error (.incomplete index)
      | b2 :: rest =>
        if isSecond b b2 then
          match rest with
          | [] => .error (.incomplete index)
          | b3 :: rest =>
            if isContinuation b3 then
              decodeFrom (index + 3) (joinBits (b.toNat % 16) [b2, b3] :: acc) rest
            else .error (.invalid index 2)
        else .error (.invalid index 1)
    else if b < 0xF5 then
      match rest with
      | [] => .error (.incomplete index)
      | b2 :: rest =>
        if isSecond b b2 then
          match rest with
          | [] => .error (.incomplete index)
          | b3 :: rest =>
            if isContinuation b3 then
              match rest with
              | [] => .error (.incomplete index)
              | b4 :: rest =>
                if isContinuation b4 then
                  decodeFrom (index + 4) (joinBits (b.toNat % 8) [b2, b3, b4] :: acc) rest
                else .error (.invalid index 3)
            else .error (.invalid index 2)
        else .error (.invalid index 1)
    else .error (.invalid index 1)

def decodeUtf8 (bytes : List UInt8) : Except Utf8Flaw String :=
  (decodeFrom 0 [] bytes).map String.ofList

end Gamebook.Text
