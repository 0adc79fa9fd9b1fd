import Gamebook.Yaml.Scalar

/-!
YAML documents as trees. An alias stands in the tree by the number of the anchor that it names.
-/
namespace Gamebook.Yaml

inductive Node where
  | scalar (s : Scalar)
  | list (tag : Option Tag) (items : List Node)
  | mapping (tag : Option Tag) (entries : List (Node × Node))
  | aliasOf (anchor : Nat)
deriving Inhabited

namespace Node

def absent : Node := .scalar .absent

/-- The number of scalars and aliases, and of beginnings and ends of collections. -/
def size : Node → Nat
  | scalar _ => 1
  | list _ items => sizeItems items + 2
  | mapping _ entries => sizeEntries entries + 2
  | aliasOf _ => 1
where
  sizeItems : List Node → Nat
    | [] => 0
    | n :: rest => n.size + sizeItems rest
  sizeEntries : List (Node × Node) → Nat
    | [] => 0
    | (k, v) :: rest => k.size + v.size + sizeEntries rest

end Node

/-!
Anchors are numbered as they are met, each by the count of the names known before it. A name that
is used again gets a new number, but does not raise the count; of the anchors with one number an
alias means the last, even where that one comes after the alias.
-/

structure Anchors where
  /-- The names met so far, each with its last number. -/
  names : List (String × Nat)
  /-- The nodes met so far, the last first: the number of each and its place among them all. -/
  numbered : List (Nat × Nat)
  /-- The nodes that have been read to their ends, each with its place. -/
  nodes : List (Nat × Node)

namespace Anchors

def empty : Anchors := ⟨[], [], []⟩

/-- Numbers a node whose anchor has been met; also gives its place. -/
def add (a : Anchors) (name : String) : Nat × Anchors :=
  let number := a.names.length
  let place := a.numbered.length
  let others := a.names.filter (·.1 ≠ name)
  (place, { a with names := (name, number) :: others, numbered := (number, place) :: a.numbered })

def record (a : Anchors) (place : Nat) (n : Node) : Anchors :=
  { a with nodes := (place, n) :: a.nodes }

def number? (a : Anchors) (name : String) : Option Nat := a.names.lookup name

/-- The node that an alias with this number means. -/
def node? (a : Anchors) (number : Nat) : Option Node := do
  let place ← a.numbered.lookup number
  a.nodes.lookup place

end Anchors

structure Document where
  root : Node
  anchors : Anchors

end Gamebook.Yaml
