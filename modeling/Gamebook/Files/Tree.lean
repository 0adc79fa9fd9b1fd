import Gamebook.Book.Loading
import Gamebook.Files.Path
import Gamebook.Text.Utf8

/-!
Trees of files, the reading of the file at a path, and books kept as files under a content root,
which no locator leaves.
-/
namespace Gamebook

inductive FileTree where
  | file (bytes : List UInt8)
  | directory (entries : List (String × FileTree))

inductive FileFault where
  | notFound
  | notDirectory
  | isDirectory
  | nameTooLong
  | nulInName
  | notText
deriving DecidableEq, Repr

def FileFault.message : FileFault → String
  | notFound => "No such file or directory (os error 2)"
  | notDirectory => "Not a directory (os error 20)"
  | isDirectory => "Is a directory (os error 21)"
  | nameTooLong => "File name too long (os error 36)"
  | nulInName => "file name contained an unexpected NUL byte"
  | notText => "stream did not contain valid UTF-8"

namespace FileTree

def empty : FileTree := .directory []

/-- The most bytes in a name and in a path. -/
def nameLimit : Nat := 255

def pathLimit : Nat := 4095

/-- Follows segments from `here`, which lies in the directories `above`, the nearest first. -/
def walk (here : FileTree) (above : List FileTree) : List String → Except FileFault FileTree
  | [] => .ok here
  | s :: rest =>
    match here with
    | file _ => .error .notDirectory
    | directory entries =>
      if Path.isIdle s then walk here above rest
      else if s = ".." then
        match above with
        | [] => walk here [] rest
        | up :: above => walk up above rest
      else if nameLimit < s.utf8ByteSize then .error .nameTooLong
      else
        match entries.lookup s with
        | none => .error .notFound
        | some t => walk t (here :: above) rest

def find (t : FileTree) (path : String) : Except FileFault FileTree :=
  if path.toList.contains '\x00' then .error .nulInName
  else if path = "" then .error .notFound
  else if pathLimit < path.utf8ByteSize then .error .nameTooLong
  else t.walk [] (Path.segments path)

def readText (t : FileTree) (path : String) : Except FileFault String :=
  match t.find path with
  | .error fault => .error fault
  | .ok (directory _) => .error .isDirectory
  | .ok (file bytes) => (Text.decodeUtf8 bytes).mapError fun _ => .notText

/-! ### Building -/

/-- Replaces or adds an entry. -/
def setEntry (name : String) (t : FileTree) : List (String × FileTree) → List (String × FileTree)
  | [] => [(name, t)]
  | e :: rest => if e.1 = name then (name, t) :: rest else e :: setEntry name t rest

def entries : FileTree → List (String × FileTree)
  | file _ => []
  | directory entries => entries

/-- Puts a file or directory at a place, with the directories on the way. -/
def put (leaf : FileTree) : List String → FileTree → FileTree
  | [], _ => leaf
  | name :: rest, t =>
    let inner := ((entries t).lookup name).getD empty
    directory (setEntry name (put leaf rest inner) (entries t))

end FileTree

/-! ### Books under a content root -/

/-- The path of a locator under the root. -/
def shelfPath (root locator : String) : Except LoadError String :=
  match Path.under? root locator with
  | some path => .ok path
  | none => .error (.fetch locator "locator must stay inside the content root")

/-- The path of a picture under the root. A reference that leaves the root is not looked for. -/
def picturePath? (root reference : String) : Option String := Path.under? root reference

def FileFault.toLoadError (locator : String) : FileFault → LoadError
  | notFound => .notFound locator
  | fault => .fetch locator fault.message

def fetchFrom (tree : FileTree) (root locator : String) : Except LoadError String := do
  let path ← shelfPath root locator
  (tree.readText path).mapError (FileFault.toLoadError locator)

end Gamebook
