import Gamebook.Json.Draft

/-!
Reading a text as a draft. Blanks may stand around every value, key and mark; the text after the
document's value is left to `Document.trailing`.
-/
namespace Gamebook.Json

def isBlank (c : Char) : Bool := c = ' ' || c = '\n' || c = '\t' || c = '\r'

def skipBlanks (cs : List Char) : List Char := cs.dropWhile isBlank

/-- Reads the rest of a word whose first letter told which it is. -/
def readWord (value : Draft) : List Char → List Char → Draft × List Char
  | [], rest => (value, rest)
  | _ :: _, [] => (.misspelt .endInValue, [])
  | w :: ws, c :: cs => if c = w then readWord value ws cs else (.misspelt .badWord, [])

/-- A container within `room` more: marked when there is no room for it. -/
def within (room : Nat) (d : Draft) : Draft :=
  match room with
  | 0 => .tooDeep d
  | _ + 1 => d

mutual

/-- Reads a value. `fuel` bounds the number of values and keys to come, `room` the depth. -/
def readValue : Nat → Nat → List Char → Draft × List Char
  | 0, _, _ => (.damaged .endInValue, [])
  | fuel + 1, room, cs =>
    match skipBlanks cs with
    | [] => (.damaged .endInValue, [])
    | 'n' :: rest => readWord .null ['u', 'l', 'l'] rest
    | 't' :: rest => readWord (.bool true) ['r', 'u', 'e'] rest
    | 'f' :: rest => readWord (.bool false) ['a', 'l', 's', 'e'] rest
    | '"' :: rest =>
      let (s, rest) := readLiteral rest
      (.string s, rest)
    | '[' :: rest =>
      match skipBlanks rest with
      | ']' :: rest => (within room (.list [] .closed), rest)
      | [] => (within room (.list [] .endOfText), [])
      | rest =>
        let (items, close, rest) := readItems fuel (room - 1) rest
        (within room (.list items close), rest)
    | '{' :: rest =>
      match skipBlanks rest with
      | '}' :: rest => (within room (.object [] .closed), rest)
      | [] => (within room (.object [] .endOfText), [])
      | '"' :: rest =>
        let (members, close, rest) := readMembers fuel (room - 1) rest
        (within room (.object members close), rest)
      | rest => (within room (.keyless (readValue fuel (room - 1) rest).1), [])
    | c :: rest =>
      if c = '-' then
        let (n, rest) := readNumber true rest
        (.number n, rest)
      else if c.isDigit then
        let (n, rest) := readNumber false (c :: rest)
        (.number n, rest)
      else (.damaged .noValue, [])

/-- Reads the items of a list from the first of them on. -/
def readItems : Nat → Nat → List Char → List Draft × Close × List Char
  | 0, _, _ => ([], .endOfText, [])
  | fuel + 1, room, cs =>
    let (item, rest) := readValue fuel room cs
    match skipBlanks rest with
    | [] => ([item], .endOfText, [])
    | ']' :: rest => ([item], .closed, rest)
    | ',' :: rest =>
      match skipBlanks rest with
      | [] => ([item], .commaThenEnd, [])
      | ']' :: rest => ([item], .commaThenClose, rest)
      | rest =>
        let (items, close, rest) := readItems fuel room rest
        (item :: items, close, rest)
    | _ => ([item], .other, [])

/-- Reads the members of an object from the text after the first key's opening quote on. -/
def readMembers : Nat → Nat → List Char → List (Lexeme String × Draft) × Close × List Char
  | 0, _, _ => ([], .endOfText, [])
  | fuel + 1, room, cs =>
    let (key, rest) := readLiteral cs
    match skipBlanks rest with
    | ':' :: rest =>
      let (value, rest) := readValue fuel room rest
      match skipBlanks rest with
      | [] => ([(key, value)], .endOfText, [])
      | '}' :: rest => ([(key, value)], .closed, rest)
      | ',' :: rest =>
        match skipBlanks rest with
        | [] => ([(key, value)], .commaThenEnd, [])
        | '}' :: rest => ([(key, value)], .commaThenClose, rest)
        | '"' :: rest =>
          let (members, close, rest) := readMembers fuel room rest
          ((key, value) :: members, close, rest)
        | _ => ([(key, value)], .commaThenOther, [])
      | _ => ([(key, value)], .other, [])
    | [] => ([(key, .damaged .endInObject)], .endOfText, [])
    | _ => ([(key, .damaged .noColon)], .other, [])

end

/-- A draft, and whether anything but blanks follows it. -/
structure Document where
  draft : Draft
  trailing : Bool

def Document.read (text : String) : Document :=
  let cs := text.toList
  let (draft, rest) := readValue (2 * cs.length + 2) nestingLimit cs
  ⟨draft, !(skipBlanks rest).isEmpty⟩

/-- Decodes the document's value with `f`, then objects to what follows it. -/
def Document.decode {α : Type} (f : Draft → Except Problem α) (d : Document) :
    Except Problem α := do
  let a ← f d.draft
  if d.trailing then .error (.malformed .trailingCharacters) else return a

end Gamebook.Json
