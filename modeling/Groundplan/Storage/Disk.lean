import Groundplan.Storage.Path
import Groundplan.Text.Quoted
import Groundplan.Text.Utf8

/-!
Files and directories.  A disk maps locations to files and directories and knows the
directory in which relative paths start.  Operations fail for the same causes as those
of an operating system, in the same order.
-/

namespace Groundplan
namespace Storage

/-- The components of an absolute path without dots. -/
abbrev Location := List String

inductive Entry
  | file (bytes : List UInt8)
  | directory
  deriving DecidableEq, Inhabited

inductive Fault
  | notFound
  | exists
  | isDirectory
  | notDirectory
  | notUtf8 (m : Text.Utf8.Malformed)
  deriving DecidableEq, Inhabited

/-- A fault with the path that was asked for. -/
structure Failure where
  fault : Fault
  path : Path
  deriving DecidableEq, Inhabited

/-- The number and the text by which operating systems know a fault. -/
def Failure.message (f : Failure) : String :=
  let numbered (number : Nat) (text : String) : String :=
    s!"[Errno {number}] {text}: {Text.quoted f.path.toText}"
  match f.fault with
  | .notFound => numbered 2 "No such file or directory"
  | .exists => numbered 17 "File exists"
  | .notDirectory => numbered 20 "Not a directory"
  | .isDirectory => numbered 21 "Is a directory"
  | .notUtf8 m => m.message

/-- The root is a directory without an entry of its own. -/
structure Disk where
  entries : List (Location × Entry) := []
  cwd : Location := []
  deriving Inhabited

namespace Disk

def entry? (d : Disk) (l : Location) : Option Entry :=
  if l = [] then some .directory else d.entries.lookup l

def isDirectoryAt (d : Disk) (l : Location) : Bool := d.entry? l == some .directory

/-- Enters each component in turn.  What is left behind must be a directory; the last
component need not exist. -/
def walk (d : Disk) (at_ : Location) : List String → Except Fault Location
  | [] => .ok at_
  | part :: rest =>
    match d.entry? at_ with
    | none => .error .notFound
    | some (.file _) => .error .notDirectory
    | some .directory =>
      if part = ".." then walk d at_.dropLast rest else walk d (at_ ++ [part]) rest

def locate (d : Disk) (p : Path) : Except Fault Location :=
  d.walk (if p.isAbsolute then [] else d.cwd) p.parts

/-- What stands at a path, if anything does. -/
def stat? (d : Disk) (p : Path) : Option Entry :=
  match d.locate p with
  | .ok l => d.entry? l
  | .error _ => none

def isDirectory (d : Disk) (p : Path) : Bool := d.stat? p == some .directory

def isPresent (d : Disk) (p : Path) : Bool := (d.stat? p).isSome

/-- Sets the entry of a location. -/
def put (d : Disk) (l : Location) (e : Entry) : Disk :=
  { d with entries := (l, e) :: d.entries.filter (·.1 != l) }

def read (d : Disk) (p : Path) : Except Fault (List UInt8) := do
  match d.entry? (← d.locate p) with
  | none => throw .notFound
  | some .directory => throw .isDirectory
  | some (.file bytes) => return bytes

/-- Reads a file as text with unified line ends. -/
def readText (d : Disk) (p : Path) : Except Fault String := do
  match Text.Utf8.decode (← d.read p) with
  | .ok s => return String.ofList (Text.unifyNewlines s.toList)
  | .error m => throw (.notUtf8 m)

/-- Reads a file as text, with malformed bytes replaced and line ends unified. -/
def readLossyText (d : Disk) (p : Path) : Except Fault String := do
  return String.ofList (Text.unifyNewlines (Text.Utf8.decodeLossy (← d.read p)))

def write (d : Disk) (p : Path) (bytes : List UInt8) : Except Fault Disk := do
  let l ← d.locate p
  match d.entry? l with
  | some .directory => throw .isDirectory
  | _ => return d.put l (.file bytes)

def writeText (d : Disk) (p : Path) (s : String) : Except Fault Disk :=
  d.write p (Text.Utf8.encode s)

def makeDirectory (d : Disk) (p : Path) : Except Fault Disk := do
  let l ← d.locate p
  match d.entry? l with
  | some _ => throw .exists
  | none => return d.put l .directory

/-- Accepts a directory that is there already. -/
def ensureDirectory (d : Disk) (p : Path) : Except Fault Disk :=
  match d.makeDirectory p with
  | .ok d => .ok d
  | .error e => if e ≠ .notFound ∧ d.isDirectory p then .ok d else .error e

/-- What one step leaves: on a failure the disk is as it was. -/
def settle (d : Disk) (p : Path) : Except Fault Disk → Disk × Except Failure Unit
  | .ok d' => (d', .ok ())
  | .error e => (d, .error ⟨e, p⟩)

/-- Makes a directory and the missing ones above it; `parts` are the components that may
still be given up, the last one first.  Directories that were made stay if a later one
cannot be. -/
def makeDirectoriesFrom (d : Disk) (anchor : String) : List String → Disk × Except Failure Unit
  | [] => d.settle ⟨anchor, []⟩ (d.ensureDirectory ⟨anchor, []⟩)
  | part :: above =>
    let p : Path := ⟨anchor, (part :: above).reverse⟩
    match d.makeDirectory p with
    | .error .notFound =>
      match makeDirectoriesFrom d anchor above with
      | (d, .ok _) => d.settle p (d.ensureDirectory p)
      | failed => failed
    | _ => d.settle p (d.ensureDirectory p)

def makeDirectories (d : Disk) (p : Path) : Disk × Except Failure Unit :=
  d.makeDirectoriesFrom p.anchor p.parts.reverse

/-- Removes a file. -/
def remove (d : Disk) (p : Path) : Except Fault Disk := do
  let l ← d.locate p
  match d.entry? l with
  | none => throw .notFound
  | some .directory => throw .isDirectory
  | some (.file _) => return { d with entries := d.entries.filter (·.1 != l) }

/-- Removes a file if it is there. -/
def removeIfPresent (d : Disk) (p : Path) : Except Fault Disk :=
  match d.remove p with
  | .error .notFound => .ok d
  | r => r

/-- Removes a directory with everything below it, or a file. -/
def removeTree (d : Disk) (p : Path) : Except Fault Disk := do
  let l ← d.locate p
  match d.entry? l with
  | none => throw .notFound
  | some _ => return { d with entries := d.entries.filter fun e => !l.isPrefixOf e.1 }

/-- Whether two components, texts or names are in order: by code points. -/
def nameLe (a b : String) : Bool := a < b || a == b

def namesLe : List String → List String → Bool
  | [], _ => true
  | _ :: _, [] => false
  | a :: as, b :: bs => if a = b then namesLe as bs else nameLe a b

/-- The names in a directory with what they name, in increasing order. -/
def children (d : Disk) (l : Location) : List (String × Entry) :=
  let found := d.entries.filterMap fun (k, e) =>
    if k.length = l.length + 1 && l.isPrefixOf k then some (k.getLastD "", e) else none
  found.mergeSort fun a b => nameLe a.1 b.1

/-- Everything below a directory, with locations relative to it, in increasing order. -/
def below (d : Disk) (l : Location) : List (Location × Entry) :=
  let found := d.entries.filterMap fun (k, e) =>
    if l.length < k.length && l.isPrefixOf k then some (k.drop l.length, e) else none
  found.mergeSort fun a b => namesLe a.1 b.1

end Disk
end Storage
end Groundplan
