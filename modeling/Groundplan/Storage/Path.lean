import Groundplan.Text.Lines

/-!
Paths as they are written.  Empty components and single dots have no effect and are
dropped; double dots are kept, because what they mean depends on the directory they
follow.
-/

namespace Groundplan
namespace Storage

structure Path where
  /-- The slashes in front of an absolute path, and nothing for a relative one. -/
  anchor : String
  parts : List String
  deriving DecidableEq, Inhabited

namespace Path

/-- Two slashes in front are kept as two, more than two count as one. -/
def anchorOf (slashes : Nat) : String :=
  if slashes = 0 then "" else if slashes = 2 then "//" else "/"

def parse (s : String) : Path :=
  let cs := s.toList
  let pieces := (Text.splitOn '/' cs).map String.ofList
  ⟨anchorOf (cs.takeWhile (· == '/')).length, pieces.filter fun p => p != "" && p != "."⟩

def isAbsolute (p : Path) : Bool := p.anchor != ""

def toText (p : Path) : String :=
  let s := p.anchor ++ "/".intercalate p.parts
  if s.isEmpty then "." else s

/-- A path seen from another; an absolute one stays itself. -/
def join (p q : Path) : Path :=
  if q.isAbsolute then q else { p with parts := p.parts ++ q.parts }

def child (p : Path) (name : String) : Path := { p with parts := p.parts ++ [name] }

def parent (p : Path) : Path := { p with parts := p.parts.dropLast }

def name (p : Path) : String := p.parts.getLastD ""

/-- The last extension of the name with its dot.  A dot at either end makes none. -/
def suffix (p : Path) : String :=
  let cs := p.name.toList.reverse
  let extension := cs.takeWhile (· ≠ '.')
  let stem := (cs.dropWhile (· ≠ '.')).drop 1
  if extension.isEmpty || stem.isEmpty then "" else String.ofList ('.' :: extension.reverse)

end Path
end Storage
end Groundplan
