import Gamebook.Book.Codec
import Gamebook.Book.Yaml
import Gamebook.Digest.Sha256
import Gamebook.Files.Path

/-!
Loading a book: the format that a locator names, and the errors of fetching and decoding.
-/
namespace Gamebook

inductive BookFormat where
  | json
  | yaml
deriving DecidableEq, Repr

/-- The extension decides, its ASCII letters in either case; most of them mean JSON. -/
def BookFormat.ofLocator (locator : String) : BookFormat :=
  match Path.extension? locator with
  | some ext =>
    let lower := ext.map Char.toLower
    if lower = "yaml" || lower = "yml" then .yaml else .json
  | none => .json

inductive LoadError where
  | notFound (locator : String)
  | fetch (locator message : String)
  | parse (locator message : String)
deriving DecidableEq, Repr

namespace LoadError

def locator : LoadError → String
  | notFound locator => locator
  | fetch locator _ => locator
  | parse locator _ => locator

/-- The parts of the message, in the order in which they are written. -/
def parts : LoadError → List String
  | notFound locator => ["book not found: ", locator]
  | fetch locator message => ["failed to fetch book ", locator, ": ", message]
  | parse locator message => ["failed to parse book ", locator, ": ", message]

def message (e : LoadError) : String := String.join e.parts

end LoadError

/-- The diagnostic for every YAML text that is no book. -/
def yamlDiagnostic : String := "<yaml>"

def Book.decode (locator text : String) : Except LoadError Book :=
  match BookFormat.ofLocator locator with
  | .json => (Book.ofJsonText text).mapError fun problem => .parse locator problem.message
  | .yaml =>
    match Book.ofYamlText? text with
    | some book => .ok book
    | none => .error (.parse locator yamlDiagnostic)

/-- Tells the revisions of a document apart. -/
def versionHash (text : String) : String := Sha256.hexDigest text

end Gamebook
