import Groundplan.Storage.Disk
import Groundplan.Text.Blank
import Groundplan.Text.Identifier

/-!
Placeholders that a specification left in generated files.  An escaped interpolation is a
literal to the provisioning tool; in the specification it was a placeholder, most often
for a variable of the environment.
-/

namespace Groundplan
namespace Rollout

open Storage

/-- The texts between an opening mark and the next closing brace, left to right and
without overlap.  Nothing between the two is no text. -/
def captures (opening : List Char) : List Char → List (List Char)
  | [] => []
  | c :: rest =>
    if opening.isPrefixOf (c :: rest) then
      let tail := rest.drop (opening.length - 1)
      let text := tail.takeWhile (· ≠ '\x7d')
      if text.isEmpty || text.length = tail.length then captures opening rest
      else text :: captures opening (tail.drop (text.length + 1))
    else captures opening rest
termination_by s => s.length
decreasing_by
  all_goals simp only [List.length_cons, List.length_drop]
  all_goals omega

/-- How the renderer writes the start of an interpolation that is to stay literal. -/
def escapedOpening : List Char := ['$', '$', '\x7b']

/-- A placeholder with the variable that it names, if it names one, and whether that
variable is set. -/
structure Reference where
  text : String
  name : Option String
  isSet : Bool
  deriving DecidableEq, Inhabited

/-- The part of a text in front of the first mark of a default. -/
def beforeDefault : List Char → List Char
  | ':' :: '-' :: _ => []
  | c :: rest => c :: beforeDefault rest
  | [] => []

/-- The variable that a placeholder names. -/
def variableName (text : String) : Option String :=
  let name := Text.strip (String.ofList (beforeDefault text.toList))
  if Text.isIdentifier name then some name else none

def Reference.ofText (environment : List String) (text : String) : Reference :=
  let name := variableName text
  ⟨text, name, name.any environment.contains⟩

/-- What is said about a placeholder. -/
def Reference.status (r : Reference) : String :=
  if r.name.isNone then "not an environment variable"
  else if r.isSet then "set" else "not set"

/-- Each text once, in increasing order. -/
def distinctSorted (texts : List String) : List String :=
  texts.eraseDups.mergeSort Disk.nameLe

/-- The placeholders in texts of generated files. -/
def referencesIn (environment : List String) (sources : List String) : List Reference :=
  let found := sources.flatMap fun s => (captures escapedOpening s.toList).map String.ofList
  (distinctSorted found).map (Reference.ofText environment)

/-! ## Generated files on a disk -/

def isSourceName (name : String) : Bool := ['.', 't', 'f'].isSuffixOf name.toList

/-- Where the provisioning tool keeps what it has fetched. -/
def workingDirectory : String := ".terraform"

/-- Every entry below a directory that is named like a generated file, except what the
provisioning tool has fetched. -/
def sourcePaths (d : Disk) (root : Path) : List Path :=
  match d.locate root with
  | .error _ => []
  | .ok l =>
    if d.isDirectoryAt l then
      ((d.below l).filter fun (parts, _) =>
        isSourceName (parts.getLastD "") && !parts.contains workingDirectory).map
          fun (parts, _) => { root with parts := root.parts ++ parts }
    else []

def readAll (d : Disk) : List Path → Except Storage.Failure (List String)
  | [] => .ok []
  | p :: rest => do
    let text ← (d.readText p).mapError (⟨·, p⟩)
    let texts ← readAll d rest
    return text :: texts

/-- The placeholders in the generated files of a directory. -/
def references (environment : List String) (d : Disk) (root : Path) :
    Except Storage.Failure (List Reference) :=
  (readAll d (sourcePaths d root)).map (referencesIn environment)

end Rollout
end Groundplan
