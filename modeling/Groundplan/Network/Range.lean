import Groundplan.Network.Address
import Groundplan.Text.Quoted

/-!
Address ranges.  A range is an address and the number of its leading bits that all
members share; the other bits of the address must be zero.
-/

namespace Groundplan
namespace Network

structure Range where
  /-- The number of bits of an address: 32 or 128. -/
  bits : Nat
  address : Nat
  length : Nat
  zone : Option (List Char) := none
  deriving DecidableEq, Inhabited

inductive Fault
  | unreadable (text : String)
  | hostBits (range : Range)
  deriving DecidableEq

namespace Range

/-- The number of addresses in a range. -/
def size (r : Range) : Nat := Nat.pow 2 (r.bits - r.length)

/-- Whether all bits behind the shared ones are zero. -/
def isAligned (r : Range) : Bool := r.address % r.size == 0

/-- The members are the addresses from `r.address` on, as many as the range is large. -/
def Contains (r : Range) (address : Nat) : Prop :=
  r.address ≤ address ∧ address < r.address + r.size

def toText (r : Range) : String :=
  (if r.bits = 32 then ipv4Text r.address else ipv6Text r.address r.zone) ++ "/" ++
    toString r.length

end Range

def Fault.message : Fault → String
  | .unreadable text => Text.quoted text ++ " does not appear to be an IPv4 or IPv6 network"
  | .hostBits range => range.toText ++ " has host bits set"

/-- The range from a first address on, in the first version that has the address.  No bit
behind the shared ones may be set. -/
def Range.ofNumber (address length : Nat) : Except Fault Range :=
  let r : Range := { bits := if address < 0x100000000 then 32 else 128, address, length }
  if r.isAligned then .ok r else .error (.hostBits r)

/-- The number of leading ones of a mask that has only zeros behind them. -/
def maskLength? (mask : Nat) : Option Nat :=
  (List.range 33).find? fun n => mask == 0x100000000 - Nat.pow 2 (32 - n)

/-- A number of more digits than this is not read, even if they are zeros. -/
def maxDigits : Nat := 4300

/-- The length behind the slash, as a number of bits. -/
def lengthOf? (bits : Nat) (cs : List Char) : Option Nat :=
  if isDecimal cs && cs.length ≤ maxDigits && decimalValue cs ≤ bits then some (decimalValue cs)
  else none

/-- A version 4 length may also be written as a mask, or as the mask's complement. -/
def ipv4Length? (cs : List Char) : Option Nat :=
  (lengthOf? 32 cs).or do
    let mask ← ipv4? cs
    (maskLength? mask).or (maskLength? (0xffffffff - mask))

def ipv4Range? (address : List Char) (length : Option (List Char)) : Option Range := do
  let a ← ipv4? address
  let n ← match length with
    | none => some 32
    | some cs => ipv4Length? cs
  return { bits := 32, address := a, length := n }

def ipv6Range? (address : List Char) (length : Option (List Char)) : Option Range := do
  let (a, zone) ← ipv6? address
  let n ← match length with
    | none => some 128
    | some cs => lengthOf? 128 cs
  return { bits := 128, address := a, length := n, zone }

/-- Reads an address with an optional length behind a slash. -/
def parse (text : String) : Except Fault Range :=
  let range := match Text.splitOn '/' text.toList with
    | [address] => (ipv4Range? address none).or (ipv6Range? address none)
    | [address, length] => (ipv4Range? address (some length)).or (ipv6Range? address (some length))
    | _ => none
  match range with
  | none => .error (.unreadable text)
  | some r => if r.isAligned then .ok r else .error (.hostBits r)

end Network
end Groundplan
