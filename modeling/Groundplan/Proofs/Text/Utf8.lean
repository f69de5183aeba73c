/-
A text is read back from its bytes.

Every character is written as a lead byte and as many further ones as that announces.  The
limits that the reader puts on the first of them, which keep out overlong forms and code
points that are no characters, are met because the code point is that of a character and
is written in the shortest form that holds it.
-/
import Groundplan.Text.Utf8
import Mathlib.Data.List.Basic

namespace Groundplan
namespace Text
namespace Utf8

/-- Bytes that are read as one character, whatever follows them. -/
def Reads (c : Char) (bytes : List UInt8) : Prop :=
  ∃ b further l, bytes = b :: further ∧ lead? b.toNat = some l ∧
    ∀ rest, collect l.low l.high l.further l.bits (further ++ rest) = (some c.toNat, further.length)

theorem decodeFrom_append {c : Char} {bytes : List UInt8} (h : Reads c bytes) (offset : Nat)
    (rest : List UInt8) :
    decodeFrom offset (bytes ++ rest) =
      (decodeFrom (offset + bytes.length) rest).map (c :: ·) := by
  obtain ⟨b, further, l, rfl, hlead, hcollect⟩ := h
  rw [List.cons_append, decodeFrom]
  simp only [hlead, hcollect, List.drop_left, List.length_cons, Char.ofNat_toNat]
  rw [Nat.add_assoc, Nat.add_comm 1]

theorem decodeLossy_append {c : Char} {bytes : List UInt8} (h : Reads c bytes) (rest : List UInt8) :
    decodeLossy (bytes ++ rest) = c :: decodeLossy rest := by
  obtain ⟨b, further, l, rfl, hlead, hcollect⟩ := h
  rw [List.cons_append, decodeLossy]
  simp only [hlead, hcollect, List.drop_left, Option.map_some, Option.getD_some, Char.ofNat_toNat]

/-! ## Further bytes -/

theorem toNat_ofNat_of_lt {n : Nat} (h : n < 256) : (UInt8.ofNat n).toNat = n := by
  rw [UInt8.toNat_ofNat', Nat.mod_eq_of_lt h]

theorem collect_zero (low high code : Nat) (bytes : List UInt8) :
    collect low high 0 code bytes = (some code, 0) := by
  rw [collect]

/-- A further byte adds six bits. -/
theorem collect_succ {low high further code b : Nat} (hlow : low ≤ b) (hhigh : b ≤ high) (hb : b < 256)
    (rest : List UInt8) :
    collect low high (further + 1) code (UInt8.ofNat b :: rest) =
      ((collect 0x80 0xbf further (code * 64 + (b - 0x80)) rest).1,
        (collect 0x80 0xbf further (code * 64 + (b - 0x80)) rest).2 + 1) := by
  rw [collect, toNat_ofNat_of_lt hb, if_pos ⟨hlow, hhigh⟩]

/-! ## Characters -/

/-- Two bytes, of which the first is a lead byte for one more. -/
theorem reads_two {c : Char} {b₀ b₁ : Nat} (h₀ : 0xc2 ≤ b₀ ∧ b₀ < 0xe0) (h₁ : 0x80 ≤ b₁ ∧ b₁ < 0xc0)
    (hc : (b₀ - 0xc0) * 64 + (b₁ - 0x80) = c.toNat) : Reads c [UInt8.ofNat b₀, UInt8.ofNat b₁] := by
  refine ⟨_, _, ⟨1, 0x80, 0xbf, b₀ - 0xc0⟩, rfl, ?_, fun rest => ?_⟩
  · rw [toNat_ofNat_of_lt (by omega), lead?, if_neg (by omega), if_neg (by omega), if_pos h₀.2]
  · show collect 0x80 0xbf 1 (b₀ - 0xc0) (UInt8.ofNat b₁ :: rest) = _
    rw [collect_succ h₁.1 (by omega) (by omega), collect_zero, hc]
    rfl

theorem reads_three {c : Char} {b₀ b₁ b₂ : Nat} (h₀ : 0xe0 ≤ b₀ ∧ b₀ < 0xf0)
    (h₁ : 0x80 ≤ b₁ ∧ b₁ < 0xc0) (hlong : b₀ = 0xe0 → 0xa0 ≤ b₁) (hsurrogate : b₀ = 0xed → b₁ < 0xa0)
    (h₂ : 0x80 ≤ b₂ ∧ b₂ < 0xc0) (hc : ((b₀ - 0xe0) * 64 + (b₁ - 0x80)) * 64 + (b₂ - 0x80) = c.toNat) :
    Reads c [UInt8.ofNat b₀, UInt8.ofNat b₁, UInt8.ofNat b₂] := by
  have hlow : (if b₀ = 0xe0 then 0xa0 else 0x80) ≤ b₁ := by split <;> omega
  have hhigh : b₁ ≤ if b₀ = 0xed then 0x9f else 0xbf := by split <;> omega
  have hlead : lead? (UInt8.ofNat b₀).toNat = some
      ⟨2, if b₀ = 0xe0 then 0xa0 else 0x80, if b₀ = 0xed then 0x9f else 0xbf, b₀ - 0xe0⟩ := by
    rw [toNat_ofNat_of_lt (by omega), lead?, if_neg (by omega), if_neg (by omega), if_neg (by omega),
      if_pos h₀.2]
  refine ⟨_, _, _, rfl, hlead, fun rest => ?_⟩
  show collect _ _ 2 (b₀ - 0xe0) (UInt8.ofNat b₁ :: UInt8.ofNat b₂ :: rest) = _
  rw [collect_succ hlow hhigh (by omega), collect_succ h₂.1 (by omega) (by omega), collect_zero, hc]
  rfl

theorem reads_four {c : Char} {b₀ b₁ b₂ b₃ : Nat} (h₀ : 0xf0 ≤ b₀ ∧ b₀ < 0xf5)
    (h₁ : 0x80 ≤ b₁ ∧ b₁ < 0xc0) (hlong : b₀ = 0xf0 → 0x90 ≤ b₁) (hlast : b₀ = 0xf4 → b₁ < 0x90)
    (h₂ : 0x80 ≤ b₂ ∧ b₂ < 0xc0) (h₃ : 0x80 ≤ b₃ ∧ b₃ < 0xc0)
    (hc : (((b₀ - 0xf0) * 64 + (b₁ - 0x80)) * 64 + (b₂ - 0x80)) * 64 + (b₃ - 0x80) = c.toNat) :
    Reads c [UInt8.ofNat b₀, UInt8.ofNat b₁, UInt8.ofNat b₂, UInt8.ofNat b₃] := by
  have hlow : (if b₀ = 0xf0 then 0x90 else 0x80) ≤ b₁ := by split <;> omega
  have hhigh : b₁ ≤ if b₀ = 0xf4 then 0x8f else 0xbf := by split <;> omega
  have hlead : lead? (UInt8.ofNat b₀).toNat = some
      ⟨3, if b₀ = 0xf0 then 0x90 else 0x80, if b₀ = 0xf4 then 0x8f else 0xbf, b₀ - 0xf0⟩ := by
    rw [toNat_ofNat_of_lt (by omega), lead?, if_neg (by omega), if_neg (by omega), if_neg (by omega),
      if_neg (by omega), if_pos h₀.2]
  refine ⟨_, _, _, rfl, hlead, fun rest => ?_⟩
  show collect _ _ 3 (b₀ - 0xf0) (UInt8.ofNat b₁ :: UInt8.ofNat b₂ :: UInt8.ofNat b₃ :: rest) = _
  rw [collect_succ hlow hhigh (by omega), collect_succ h₂.1 (by omega) (by omega),
    collect_succ h₃.1 (by omega) (by omega), collect_zero, hc]
  rfl

theorem reads_utf8EncodeChar (c : Char) : Reads c (String.utf8EncodeChar c) := by
  have hvalid : c.toNat < 0xd800 ∨ 0xdfff < c.toNat ∧ c.toNat < 0x110000 := c.valid
  rw [String.utf8EncodeChar.eq_def]
  dsimp only
  rw [show c.val.toNat = c.toNat from rfl]
  split
  · refine ⟨_, [], ⟨0, 0x80, 0xbf, c.toNat⟩, rfl, ?_, fun rest => collect_zero _ _ _ _⟩
    rw [toNat_ofNat_of_lt (by omega), lead?, if_pos (by omega)]
  split
  · exact reads_two (by omega) (by omega) (by omega)
  split
  · exact reads_three (by omega) (by omega) (by omega) (by omega) (by omega) (by omega)
  · exact reads_four (by omega) (by omega) (by omega) (by omega) (by omega) (by omega) (by omega)

/-! ## Texts -/

theorem decodeFrom_flatMap (cs : List Char) (offset : Nat) :
    decodeFrom offset (cs.flatMap String.utf8EncodeChar) = .ok cs := by
  induction cs generalizing offset with
  | nil =>
    rw [List.flatMap_nil, decodeFrom]
  | cons c cs ih =>
    rw [List.flatMap_cons, decodeFrom_append (reads_utf8EncodeChar c), ih]
    rfl

theorem encode_eq (s : String) : encode s = s.toList.flatMap String.utf8EncodeChar := by
  rw [encode, String.toUTF8_eq_toByteArray, ← String.utf8Encode_toList, List.utf8Encode,
    List.toList_data_toByteArray]

/-- What is written as text is read as the same text. -/
theorem decode_encode (s : String) : decode (encode s) = .ok s := by
  rw [decode, encode_eq, decodeFrom_flatMap]
  exact congrArg Except.ok (String.ofList_toList)

theorem decodeLossy_encode (s : String) : decodeLossy (encode s) = s.toList := by
  rw [encode_eq]
  induction s.toList with
  | nil => rw [List.flatMap_nil, decodeLossy]
  | cons c cs ih => rw [List.flatMap_cons, decodeLossy_append (reads_utf8EncodeChar c), ih]

end Utf8
end Text
end Groundplan
