import Gamebook.Text.Utf8

/-!
The tokens of a YAML text, and the scalars among what they make up: a text, the way it was written,
and the tag that was put before it.
-/
namespace Gamebook.Yaml

/-- How a scalar is written. Both kinds of quotes count as one. -/
inductive Style where
  | plain
  | quoted
  | literal
  | folded
deriving DecidableEq, Repr

/-- The name of a type, as the bytes of its text. -/
structure Tag where
  bytes : List UInt8
deriving DecidableEq, Repr

namespace Tag

def ofText (s : String) : Tag := ⟨s.toUTF8.data.toList⟩

def core (name : String) : Tag := ofText ("tag:yaml.org,2002:" ++ name)

/-- What follows the exclamation mark of a tag that is meant for the document alone. -/
def localName? (t : Tag) : Option String :=
  match t.bytes with
  | 0x21 :: rest => (Text.decodeUtf8 rest).toOption
  | _ => none

end Tag

structure Scalar where
  tag : Option Tag
  style : Style
  text : String
deriving DecidableEq, Repr

namespace Scalar

/-- What stands where a value is left out. -/
def absent : Scalar := ⟨none, .plain, ""⟩

def isPlain (s : Scalar) : Bool := s.style = .plain

/-- Whether nothing is written, apart from a tag. -/
def isAbsent (s : Scalar) : Bool := s.isPlain && s.text.isEmpty

def localTag? (s : Scalar) : Option String := s.tag.bind Tag.localName?

end Scalar

/-! ### Tokens

Where a block begins or ends, and where a key begins that only the colon after it shows to be one,
stands a token of its own. -/

inductive Collection where
  | list
  | mapping
deriving DecidableEq, Repr

inductive Token where
  | version (major minor : Nat)
  | tagPrefix (handle : String) (replacement : List UInt8)
  | documentStart
  | documentEnd
  | openBlock (c : Collection)
  | closeBlock
  | openFlow (c : Collection)
  | closeFlow (c : Collection)
  | dash
  | comma
  | key
  | value
  | aliasOf (name : String)
  | anchor (name : String)
  | tag (handle : String) (suffix : List UInt8)
  | scalar (style : Style) (text : String)
deriving DecidableEq, Repr

end Gamebook.Yaml
