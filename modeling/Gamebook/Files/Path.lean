/-!
Paths as text with `/` between their segments.
-/
namespace Gamebook.Path

/-- The text between the slashes, at least one segment. -/
def splitList : List Char → List (List Char)
  | [] => [[]]
  | c :: rest =>
    if c = '/' then [] :: splitList rest
    else
      match splitList rest with
      | [] => [[c]]
      | segment :: segments => (c :: segment) :: segments

def segments (path : String) : List String := (splitList path.toList).map String.ofList

/-- Segments that stand for no step: the one between two slashes, and a lone point. -/
def isIdle (segment : String) : Bool := segment = "" || segment = "."

def isAbsolute (path : String) : Bool := path.toList.head? = some '/'

/-- Whether a path is relative and has no segment that climbs. -/
def isContained (path : String) : Bool :=
  !isAbsolute path && (segments path).all (· ≠ "..")

/-- Puts a slash between the two, unless the first is empty or ends with one. -/
def join (root reference : String) : String :=
  if root = "" || root.toList.getLast? = some '/' then root ++ reference
  else root ++ "/" ++ reference

/-- The reference under the root, if it stays there. -/
def under? (root reference : String) : Option String :=
  if isContained reference then some (join root reference) else none

/-- The last segment that is a step. -/
def fileName? (path : String) : Option String :=
  ((segments path).filter fun s => !isIdle s).getLast?.filter (· ≠ "..")

/-- What follows the last point of a name, if anything stands before that point. -/
def extensionOf? (name : List Char) : Option (List Char) :=
  let tail := name.reverse.takeWhile (· ≠ '.')
  let front := name.length - tail.length
  if 1 < front then some tail.reverse else none

def extension? (path : String) : Option String := do
  let name ← fileName? path
  let ext ← extensionOf? name.toList
  return String.ofList ext

end Gamebook.Path
