import Groundplan.Text.Digit
import Groundplan.Text.Lines

/-!
Internet addresses as numbers, with their written forms.  Version 4 has four decimal
octets without leading zeros; version 6 has eight groups of hexadecimal digits, of which
one run of zeros may be left out.
-/

namespace Groundplan
namespace Network

def isDecimal (cs : List Char) : Bool := !cs.isEmpty && cs.all fun c => '0' ≤ c && c ≤ '9'

def decimalValue (cs : List Char) : Nat := cs.foldl (fun n c => 10 * n + (c.toNat - 48)) 0

def octet? (cs : List Char) : Option Nat :=
  if isDecimal cs && cs.length ≤ 3 && (cs == ['0'] || cs.head? != some '0') &&
      decimalValue cs ≤ 255 then
    some (decimalValue cs)
  else none

/-- A version 4 address. -/
def ipv4? (cs : List Char) : Option Nat :=
  match (Text.splitOn '.' cs).map octet? with
  | [some a, some b, some c, some d] => some (((a * 256 + b) * 256 + c) * 256 + d)
  | _ => none

def ipv4Text (n : Nat) : String :=
  ".".intercalate ([n / 0x1000000, n / 0x10000 % 256, n / 256 % 256, n % 256].map toString)

/-- A group of a version 6 address. -/
def hextet? (cs : List Char) : Option Nat :=
  if cs.isEmpty || 4 < cs.length then none else Text.hexNumber? cs

def hexText (n : Nat) : List Char := Nat.toDigits 16 n

/-- The groups of an address; a version 4 address at the end stands for two. -/
def groups? (cs : List Char) : Option (List (List Char)) :=
  let parts := Text.splitOn ':' cs
  match parts.getLast? with
  | some last =>
    if parts.length < 3 then none
    else if last.contains '.' then
      (ipv4? last).map fun n => parts.dropLast ++ [hexText (n / 65536), hexText (n % 65536)]
    else some parts
  | none => none

/-- The number that groups denote, the most significant first. -/
def groupsValue? (groups : List (List Char)) : Option Nat :=
  groups.foldl (fun acc g => acc.bind fun n => (hextet? g).map (65536 * n + ·)) (some 0)

/-- The groups on one side of the gap.  An empty group at the outer end belongs to the
gap, and then nothing else may stand on that side. -/
def besideGap? (outerIsEmpty : Bool) (side : List (List Char)) : Option (List (List Char)) :=
  if outerIsEmpty then (if side.length = 1 then some [] else none) else some side

/-- A version 6 address without its zone. -/
def ipv6Number? (cs : List Char) : Option Nat := do
  let parts ← groups? cs
  if 9 < parts.length then none
  let inner := (parts.drop 1).dropLast
  match inner.findIdx? List.isEmpty with
  | none => if parts.length = 8 then groupsValue? parts else none
  | some i =>
    if 1 < (inner.filter List.isEmpty).length then none
    let high ← besideGap? ((parts.head?.map List.isEmpty).getD false) (parts.take (i + 1))
    let low ← besideGap? ((parts.getLast?.map List.isEmpty).getD false) (parts.drop (i + 2))
    if 8 ≤ high.length + low.length then none
    let h ← groupsValue? high
    let l ← groupsValue? low
    return h * Nat.pow 65536 (8 - high.length) + l

/-- An address with the zone behind a percent sign. -/
def ipv6? (cs : List Char) : Option (Nat × Option (List Char)) :=
  match cs.dropWhile (· ≠ '%') with
  | [] => (ipv6Number? cs).map fun n => (n, none)
  | _ :: zone =>
    if zone.isEmpty || zone.contains '%' then none
    else (ipv6Number? (cs.takeWhile (· ≠ '%'))).map fun n => (n, some zone)

def ipv6Groups (n : Nat) : List Nat :=
  (List.range 8).map fun i => n / Nat.pow 65536 (7 - i) % 65536

/-- The length of the run of zeros that starts a list. -/
def zeroRun (groups : List Nat) : Nat := (groups.takeWhile (· == 0)).length

/-- The first of the longest runs of at least two zeros, as start and length. -/
def longestZeroRun (groups : List Nat) : Option (Nat × Nat) :=
  let runs := (List.range groups.length).map fun i => (i, zeroRun (groups.drop i))
  (runs.foldl (fun best run => if best.2 < run.2 then run else best) (0, 1)) |> fun best =>
    if best.2 ≤ 1 then none else some best

def joinGroups (groups : List Nat) : String :=
  ":".intercalate (groups.map fun g => String.ofList (hexText g))

/-- The shortest form of a version 6 address. -/
def ipv6Text (n : Nat) (zone : Option (List Char)) : String :=
  let groups := ipv6Groups n
  let body := match longestZeroRun groups with
    | none => joinGroups groups
    | some (start, length) =>
      joinGroups (groups.take start) ++ "::" ++ joinGroups (groups.drop (start + length))
  body ++ ((zone.map fun z => "%" ++ String.ofList z).getD "")

end Network
end Groundplan
