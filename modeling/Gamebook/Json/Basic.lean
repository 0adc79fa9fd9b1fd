import Gamebook.Dict

/-!
JSON values. An object lists its members in the order of their keys, each key once.
-/
namespace Gamebook

inductive Json where
  | null
  | bool (b : Bool)
  | int (n : Int)
  | float (x : Float)
  | string (s : String)
  | array (items : List Json)
  | object (members : List (String × Json))
deriving Inhabited, Repr

namespace Json

/-- The object of a list of members; of two with one key the later counts. -/
def ofMembers (members : List (String × Json)) : Json :=
  .object (Dict.ofList members).entries

def ofDict (d : Dict Json) : Json := .object d.entries

/-- Equality of the values meant: floats are compared as numbers. -/
def same : Json → Json → Bool
  | .null, .null => true
  | .bool a, .bool b => a == b
  | .int a, .int b => a == b
  | .float a, .float b => a == b
  | .string a, .string b => a == b
  | .array a, .array b => sameItems a b
  | .object a, .object b => sameMembers a b
  | _, _ => false
where
  sameItems : List Json → List Json → Bool
    | [], [] => true
    | a :: as, b :: bs => same a b && sameItems as bs
    | _, _ => false
  sameMembers : List (String × Json) → List (String × Json) → Bool
    | [], [] => true
    | (k, a) :: as, (l, b) :: bs => k == l && same a b && sameMembers as bs
    | _, _ => false

end Json

end Gamebook
