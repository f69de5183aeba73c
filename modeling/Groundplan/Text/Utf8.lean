import Groundplan.Text.Digit

/-!
Text as bytes.  Files hold UTF-8; a file that does not can still be read approximately,
with every malformed sequence replaced.
-/

namespace Groundplan
namespace Text
namespace Utf8

def encode (s : String) : List UInt8 := s.toUTF8.data.toList

/-- What a lead byte announces: the number of further bytes, the range of the first of
them, and the bits that it contributes itself. -/
structure Lead where
  further : Nat
  low : Nat
  high : Nat
  bits : Nat

def lead? (b : Nat) : Option Lead :=
  if b < 0x80 then some ⟨0, 0x80, 0xbf, b⟩
  else if b < 0xc2 then none
  else if b < 0xe0 then some ⟨1, 0x80, 0xbf, b - 0xc0⟩
  else if b < 0xf0 then
    some ⟨2, if b = 0xe0 then 0xa0 else 0x80, if b = 0xed then 0x9f else 0xbf, b - 0xe0⟩
  else if b < 0xf5 then
    some ⟨3, if b = 0xf0 then 0x90 else 0x80, if b = 0xf4 then 0x8f else 0xbf, b - 0xf0⟩
  else none

/-- Collects further bytes.  Gives the code point if all are there, and the number of
bytes that fit. -/
def collect (low high : Nat) : Nat → Nat → List UInt8 → Option Nat × Nat
  | 0, code, _ => (some code, 0)
  | n + 1, code, b :: rest =>
    if low ≤ b.toNat ∧ b.toNat ≤ high then
      let (code, used) := collect 0x80 0xbf n (code * 64 + (b.toNat - 0x80)) rest
      (code, used + 1)
    else (none, 0)
  | _ + 1, _, [] => (none, 0)

/-! ## Malformed bytes -/

inductive Reason
  | lead
  | continuation
  | truncated
  deriving DecidableEq, Inhabited

/-- The first bytes of a text that start no valid sequence. -/
structure Malformed where
  offset : Nat
  bytes : List UInt8
  reason : Reason
  deriving DecidableEq, Inhabited

def Reason.message : Reason → String
  | .lead => "invalid start byte"
  | .continuation => "invalid continuation byte"
  | .truncated => "unexpected end of data"

def Malformed.message (m : Malformed) : String :=
  let place := match m.bytes with
    | [b] => s!"byte 0x{String.ofList (hexDigits 2 b.toNat)} in position {m.offset}"
    | bytes => s!"bytes in position {m.offset}-{m.offset + bytes.length - 1}"
  s!"'utf-8' codec can't decode {place}: {m.reason.message}"

/-- Reads bytes that follow `offset` others as text. -/
def decodeFrom (offset : Nat) : List UInt8 → Except Malformed (List Char)
  | [] => .ok []
  | b :: rest =>
    match lead? b.toNat with
    | none => .error ⟨offset, [b], .lead⟩
    | some l =>
      match collect l.low l.high l.further l.bits rest with
      | (some code, used) =>
        (decodeFrom (offset + 1 + used) (rest.drop used)).map (Char.ofNat code :: ·)
      | (none, used) =>
        .error ⟨offset, b :: rest.take used,
          if used = rest.length then .truncated else .continuation⟩
termination_by bytes => bytes.length
decreasing_by
  all_goals simp only [List.length_cons, List.length_drop]
  all_goals omega

/-- The text that the bytes encode, if they are valid. -/
def decode (bytes : List UInt8) : Except Malformed String :=
  (decodeFrom 0 bytes).map String.ofList

/-- Reads bytes as text; each longest part that starts no valid sequence becomes one
replacement character. -/
def decodeLossy : List UInt8 → List Char
  | [] => []
  | b :: rest =>
    match lead? b.toNat with
    | none => '\ufffd' :: decodeLossy rest
    | some l =>
      let (code, used) := collect l.low l.high l.further l.bits rest
      ((code.map Char.ofNat).getD '\ufffd') :: decodeLossy (rest.drop used)
termination_by bytes => bytes.length
decreasing_by
  all_goals simp only [List.length_cons, List.length_drop]
  all_goals omega

end Utf8
end Text
end Groundplan
