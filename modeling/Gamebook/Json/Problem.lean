import Gamebook.Decimal.Shortest
import Gamebook.Text.Quoted

/-!
What can be wrong with a JSON document: flaws of its text, and values that do not fit what is
expected where they stand.
-/
namespace Gamebook.Json

inductive Flaw where
  | endInValue
  | endInList
  | endInObject
  | endInString
  | noColon
  | noCommaInObject
  | noCommaInList
  | badWord
  | noValue
  | keyNotString
  | trailingComma
  | trailingCharacters
  | badEscape
  | badNumber
  | numberOutOfRange
  | loneSurrogate
  | cutSurrogate
  | controlCharacter
  | tooDeep
deriving DecidableEq, Repr

def Flaw.message : Flaw → String
  | .endInValue => "EOF while parsing a value"
  | .endInList => "EOF while parsing a list"
  | .endInObject => "EOF while parsing an object"
  | .endInString => "EOF while parsing a string"
  | .noColon => "expected `:`"
  | .noCommaInObject => "expected `,` or `\x7d`"
  | .noCommaInList => "expected `,` or `]`"
  | .badWord => "expected ident"
  | .noValue => "expected value"
  | .keyNotString => "key must be a string"
  | .trailingComma => "trailing comma"
  | .trailingCharacters => "trailing characters"
  | .badEscape => "invalid escape"
  | .badNumber => "invalid number"
  | .numberOutOfRange => "number out of range"
  | .loneSurrogate => "lone leading surrogate in hex escape"
  | .cutSurrogate => "unexpected end of hex escape"
  | .controlCharacter => "control character (\\u0000-\\u001F) found while parsing a string"
  | .tooDeep => "recursion limit exceeded"

/-- The kind of value that was met. -/
inductive Found where
  | null
  | bool (b : Bool)
  | int (n : Int)
  | float (x : Float)
  | string (s : String)
  | list
  | object
  | plainVariant
deriving DecidableEq, Repr

/-- Positional notation reaches from four zeros behind the point to sixteen digits before it. -/
def floatStyle : Decimal.Style := ⟨-5, 16⟩

def Found.describe : Found → String
  | .null => "null"
  | .bool b => s!"boolean `{b}`"
  | .int n => s!"integer `{n}`"
  | .float x => s!"floating point `{Decimal.renderFloat floatStyle x}`"
  | .string s => "string " ++ Text.quoted s
  | .list => "sequence"
  | .object => "map"
  | .plainVariant => "unit variant"

/-- What a place in a document can call for. -/
inductive Expected where
  | string
  | boolean
  | word32
  | word64
  | unit
  | list
  | object
  | record (name : String)
  | variantName
  | tagged (name : String)
  | variantWithContent
deriving DecidableEq, Repr

def Expected.describe : Expected → String
  | .string => "a string"
  | .boolean => "a boolean"
  | .word32 => "u32"
  | .word64 => "usize"
  | .unit => "unit"
  | .list => "a sequence"
  | .object => "a map"
  | .record name => "struct " ++ name
  | .variantName => "variant identifier"
  | .tagged name => "internally tagged enum " ++ name
  | .variantWithContent => "newtype variant"

inductive Problem where
  | malformed (flaw : Flaw)
  | missingField (name : String)
  | duplicateField (name : String)
  | wrongType (found : Found) (expected : Expected)
  | wrongInteger (n : Int) (expected : Expected)
  | unknownVariant (name : String) (known : List String)
  | tooFewItems (count : Nat) (owner : String) (needed : Nat)
  | tooManyItems (count : Nat) (allowed : Nat)
deriving DecidableEq, Repr

def countOfElements (n : Nat) : String :=
  if n = 1 then "1 element" else s!"{n} elements"

def Problem.message : Problem → String
  | .malformed flaw => flaw.message
  | .missingField name => s!"missing field `{name}`"
  | .duplicateField name => s!"duplicate field `{name}`"
  | .wrongType found expected => s!"invalid type: {found.describe}, expected {expected.describe}"
  | .wrongInteger n expected => s!"invalid value: integer `{n}`, expected {expected.describe}"
  | .unknownVariant name known =>
    let list := ", ".intercalate (known.map fun k => "`" ++ k ++ "`")
    s!"unknown variant `{name}`, expected one of {list}"
  | .tooFewItems count owner needed =>
    s!"invalid length {count}, expected {owner} with {countOfElements needed}"
  | .tooManyItems count allowed =>
    s!"invalid length {count}, expected {countOfElements allowed} in sequence"

end Gamebook.Json
