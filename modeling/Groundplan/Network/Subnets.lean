import Groundplan.Network.Range

/-!
The fixed layout of the network.  Six blocks of 256 addresses are cut out of its range at
fixed places, three for private and three for public use.
-/

namespace Groundplan
namespace Network

/-- The numbers of the private blocks, counted from the start of the range. -/
def privateBlocks : List Nat := [1, 2, 3]

def publicBlocks : List Nat := [101, 102, 103]

/-- The public blocks lie behind the private ones, so a range that has them has all. -/
def neededBlocks : Nat := publicBlocks.foldl max 0 + 1

inductive LayoutFault
  | invalid (cidr : String) (fault : Fault)
  | tooSmall (cidr : String)
  /-- A block does not start where a range of its size may. -/
  | block (fault : Fault)
  deriving DecidableEq

namespace LayoutFault

def message : LayoutFault → String
  | .invalid cidr fault =>
    "resources.networking.cidr " ++ Text.quoted cidr ++ " is not a valid network: " ++ fault.message
  | .tooSmall cidr =>
    "resources.networking.cidr " ++ Text.quoted cidr ++
      " is too small for the fixed /24 subnet layout (needs an IPv4 /17 or larger)"
  | .block fault => fault.message

end LayoutFault

/-- Block number `i` of a range. -/
def block (r : Range) (i : Nat) : Except LayoutFault Range :=
  (Range.ofNumber (r.address + i * 256) 24).mapError .block

structure Subnets where
  privateRanges : List Range
  publicRanges : List Range
  deriving DecidableEq

/-- The subnets of a range, which must be of version 4 and have all blocks of the layout. -/
def Subnets.ofCidr (cidr : String) : Except LayoutFault Subnets := do
  let r ← (parse cidr).mapError (.invalid cidr)
  if r.bits ≠ 32 ∨ 24 < r.length ∨ Nat.pow 2 (24 - r.length) < neededBlocks then
    throw (.tooSmall cidr)
  return ⟨← privateBlocks.mapM (block r), ← publicBlocks.mapM (block r)⟩

end Network
end Groundplan
