import Gamebook.Json.Basic
import Gamebook.Json.Literal

/-!
A JSON document as far as it can be read.

A draft is the tree that a text spells, with its first flaw standing in the tree where the reading
stopped. What is made of a draft decides whether a flaw matters: `Draft.keep` builds the value that
the draft stands for, `Draft.skip` only passes over it, and both report the first problem they meet
in the order of the text. `Draft.ofJson` is the flawless draft of a value.
-/
namespace Gamebook.Json

/-- What stands after the last item of a list or the last member of an object. -/
inductive Close where
  | closed
  | endOfText
  | commaThenClose
  | commaThenEnd
  | commaThenOther
  | other
deriving DecidableEq, Repr

inductive Draft where
  | null
  | bool (b : Bool)
  | number (n : Lexeme Number)
  | string (s : Lexeme String)
  | list (items : List Draft) (close : Close)
  | object (members : List (Lexeme String × Draft)) (close : Close)
  /-- An object whose first member does not begin with a quote, but as `first` does. -/
  | keyless (first : Draft)
  /-- A list or object inside more others than a value may have around it. -/
  | tooDeep (inner : Draft)
  | misspelt (flaw : Flaw)
  /-- A missing colon, the end of the text, or no beginning of any value. -/
  | damaged (flaw : Flaw)
deriving Inhabited

/-- The containers that a kept value may be nested in, itself included. -/
def nestingLimit : Nat := 127

namespace Close

/-- The objection to the end of a kept list. -/
def listFlaw? : Close → Option Flaw
  | .closed => none
  | .endOfText => some .endInList
  | .commaThenClose => some .trailingComma
  | .commaThenEnd => some .endInValue
  | .commaThenOther => some .noValue
  | .other => some .noCommaInList

/-- The objection to the end of a list that is passed over. -/
def skippedListFlaw? : Close → Option Flaw
  | .commaThenClose => some .noValue
  | c => c.listFlaw?

def objectFlaw? : Close → Option Flaw
  | .closed => none
  | .endOfText => some .endInObject
  | .commaThenClose => some .trailingComma
  | .commaThenEnd => some .endInValue
  | .commaThenOther => some .keyNotString
  | .other => some .noCommaInObject

def skippedObjectFlaw? : Close → Option Flaw
  | .commaThenClose => some .keyNotString
  | .commaThenEnd => some .endInObject
  | c => c.objectFlaw?

/-- The objection to what follows the last field of a record that is written as a list. -/
def recordFlaw? : Close → Option Flaw
  | .closed => none
  | .endOfText => some .endInList
  | .commaThenClose => some .trailingComma
  | _ => some .trailingCharacters

end Close

def demand : Option Flaw → Except Problem Unit
  | none => .ok ()
  | some flaw => .error (.malformed flaw)

namespace Lexeme

variable {α : Type}

def kept : Lexeme α → Except Problem α
  | .good a => .ok a
  | .broken flaw _ => .error (.malformed flaw)

def skipped : Lexeme α → Except Problem Unit
  | .good _ => .ok ()
  | .broken _ flaw => demand flaw

end Lexeme

def Number.toJson : Number → Json
  | .int n => .int n
  | .float x => .float x

namespace Draft

def skip : Draft → Except Problem Unit
  | null => .ok ()
  | bool _ => .ok ()
  | number n => n.skipped
  | string s => s.skipped
  | list items close => do
    skipItems items
    demand close.skippedListFlaw?
  | object members close => do
    skipMembers members
    demand close.skippedObjectFlaw?
  | keyless _ => .error (.malformed .keyNotString)
  | tooDeep inner => inner.skip
  | misspelt flaw => .error (.malformed flaw)
  | damaged flaw => .error (.malformed flaw)
where
  skipItems : List Draft → Except Problem Unit
    | [] => .ok ()
    | d :: rest => do
      d.skip
      skipItems rest
  skipMembers : List (Lexeme String × Draft) → Except Problem Unit
    | [] => .ok ()
    | (key, d) :: rest => do
      key.skipped
      d.skip
      skipMembers rest

def keep : Draft → Except Problem Json
  | null => .ok .null
  | bool b => .ok (.bool b)
  | number n => do
    let n ← n.kept
    return n.toJson
  | string s => do
    let s ← s.kept
    return .string s
  | list items close => do
    let items ← keepItems items
    demand close.listFlaw?
    return .array items
  | object members close => do
    let members ← keepMembers members
    demand close.objectFlaw?
    return .ofMembers members
  | keyless _ => .error (.malformed .keyNotString)
  | tooDeep _ => .error (.malformed .tooDeep)
  | misspelt flaw => .error (.malformed flaw)
  | damaged flaw => .error (.malformed flaw)
where
  keepItems : List Draft → Except Problem (List Json)
    | [] => .ok []
    | d :: rest => do
      let j ← d.keep
      let js ← keepItems rest
      return j :: js
  keepMembers : List (Lexeme String × Draft) → Except Problem (List (String × Json))
    | [] => .ok []
    | (key, d) :: rest => do
      let k ← key.kept
      let j ← d.keep
      let js ← keepMembers rest
      return (k, j) :: js

def ofJson : Json → Draft
  | .null => null
  | .bool b => bool b
  | .int n => number (.good (.int n))
  | .float x => number (.good (.float x))
  | .string s => string (.good s)
  | .array items => list (ofItems items) .closed
  | .object members => object (ofMembers members) .closed
where
  ofItems : List Json → List Draft
    | [] => []
    | j :: rest => ofJson j :: ofItems rest
  ofMembers : List (String × Json) → List (Lexeme String × Draft)
    | [] => []
    | (k, j) :: rest => (.good k, ofJson j) :: ofMembers rest

/-- The kind of value that the draft begins, read as far as naming it takes. -/
def found : Draft → Except Problem Found
  | null => .ok .null
  | bool b => .ok (.bool b)
  | number n => do
    match ← n.kept with
    | .int n => return .int n
    | .float x => return .float x
  | string s => do
    let s ← s.kept
    return .string s
  | list _ _ => .ok .list
  | object _ _ => .ok .object
  | keyless _ => .ok .object
  | tooDeep _ => .error (.malformed .tooDeep)
  | misspelt flaw => .error (.malformed flaw)
  | damaged flaw => .error (.malformed flaw)

end Draft

end Gamebook.Json
