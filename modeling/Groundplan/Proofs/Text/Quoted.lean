/-
Quoted texts.

A quoted text is shown in messages and comments, which are taken apart into lines later.
It has no line boundary of any kind in it, so it stays on the line on which it is put.  The
letter behind a backslash tells how many digits follow, so the text can be had back from
what is shown, and different texts are shown differently.
-/
import Groundplan.Proofs.Text.Lines
import Groundplan.Text.Quoted
import Mathlib.Algebra.Group.Nat.Defs

namespace Groundplan
namespace Text

/-- The digits of an escape. -/
def isHexDigit (c : Char) : Bool := ('0' ≤ c && c ≤ '9') || ('a' ≤ c && c ≤ 'f')

theorem isHexDigit_hexDigit : ∀ n < 16, isHexDigit (hexDigit n) = true := by decide

theorem isHexDigit_of_mem_hexDigits {width n : Nat} {c : Char} (h : c ∈ hexDigits width n) :
    isHexDigit c = true := by
  induction width generalizing n with
  | zero => exact absurd h List.not_mem_nil
  | succ width ih =>
    rcases List.mem_append.mp h with h | h
    · exact ih h
    · rw [List.mem_singleton.mp h]
      exact isHexDigit_hexDigit _ (Nat.mod_lt n (by decide))

theorem length_hexDigits (width n : Nat) : (hexDigits width n).length = width := by
  induction width generalizing n with
  | zero => rfl
  | succ width ih => rw [hexDigits, List.length_append, ih, List.length_singleton]

theorem hexValue?_hexDigit : ∀ n < 16, hexValue? (hexDigit n) = some n := by
  decide

theorem hexNumber?_hexDigits {width n : Nat} (h : n < 16 ^ width) :
    hexNumber? (hexDigits width n) = some n := by
  induction width generalizing n with
  | zero =>
    have hn : n = 0 := by omega
    rw [hn]
    rfl
  | succ width ih =>
    have hdiv : n / 16 < 16 ^ width := by
      rw [Nat.pow_succ] at h
      omega
    have hinit := ih hdiv
    rw [hexNumber?] at hinit ⊢
    rw [hexDigits, List.foldl_append, hinit, List.foldl_cons, List.foldl_nil, Option.bind_some,
      hexValue?_hexDigit _ (Nat.mod_lt n (by decide)), Option.map_some, Nat.div_add_mod]

namespace Quoted

theorem mark_eq (s : List Char) : mark s = '"' ∨ mark s = '\'' := by
  rw [mark]
  split
  · exact .inl rfl
  · exact .inr rfl

/-- An escape for a code point: a backslash, a letter for the width, and digits. -/
theorem exists_codePoint (c : Char) :
    ∃ letter width, letter ∈ ['x', 'u', 'U'] ∧ codePoint c = '\\' :: letter :: hexDigits width c.toNat := by
  rw [codePoint]
  split
  · exact ⟨'x', 2, by decide, rfl⟩
  · split
    · exact ⟨'u', 4, by decide, rfl⟩
    · exact ⟨'U', 8, by decide, rfl⟩

/-- The five ways in which a character is written. -/
theorem escapeChar_cases (mark c : Char) :
    (escapeChar mark c = ['\\', c] ∧ (c = mark ∨ c = '\\')) ∨
      (∃ letter ∈ ['n', 'r', 't'], escapeChar mark c = ['\\', letter]) ∨
      (escapeChar mark c = [c] ∧ isPrintable c = true) ∨ escapeChar mark c = codePoint c := by
  rw [escapeChar]
  split
  · exact .inl ⟨rfl, ‹_›⟩
  split
  · exact .inr (.inl ⟨'n', by decide, rfl⟩)
  split
  · exact .inr (.inl ⟨'r', by decide, rfl⟩)
  split
  · exact .inr (.inl ⟨'t', by decide, rfl⟩)
  split
  · exact .inr (.inr (.inl ⟨rfl, ‹_›⟩))
  · exact .inr (.inr (.inr rfl))

/-- Of which characters the text for a character consists. -/
theorem forall_mem_escapeChar {p : Char → Prop} {mark c : Char}
    (hfixed : ∀ d ∈ ['\\', 'n', 'r', 't', 'x', 'u', 'U'], p d)
    (hdigit : ∀ d, isHexDigit d = true → p d) (hself : c = mark ∨ isPrintable c = true → p c) :
    ∀ d ∈ escapeChar mark c, p d := by
  have hbackslash : p '\\' := hfixed _ (by decide)
  rcases escapeChar_cases mark c with ⟨h, hc⟩ | ⟨letter, hletter, h⟩ | ⟨h, hc⟩ | h
  · rw [h, List.forall_mem_cons, List.forall_mem_singleton]
    refine ⟨hbackslash, ?_⟩
    rcases hc with hc | rfl
    · exact hself (.inl hc)
    · exact hbackslash
  · rw [h, List.forall_mem_cons, List.forall_mem_singleton]
    exact ⟨hbackslash, hfixed letter (List.mem_cons_of_mem _ (List.mem_append_left _ hletter))⟩
  · rw [h, List.forall_mem_singleton]
    exact hself (.inr hc)
  · obtain ⟨letter, width, hletter, hcode⟩ := exists_codePoint c
    rw [h, hcode, List.forall_mem_cons, List.forall_mem_cons]
    refine ⟨hbackslash, hfixed letter ?_, fun d hd => hdigit d (isHexDigit_of_mem_hexDigits hd)⟩
    exact List.mem_append_right ['\\', 'n', 'r', 't'] hletter

theorem isLineBoundary_of_class {p : Char → Bool}
    (h : (['\n', '\r', '\x0b', '\x0c', '\x1c', '\x1d', '\x1e', '\x85', '\u2028', '\u2029'].all
      fun b => !p b) = true) (c : Char) (hc : p c = true) : isLineBoundary c = false := by
  rw [isLineBoundary, ← Bool.not_eq_true, List.contains_iff_mem]
  intro hmem
  have hnot := List.all_eq_true.mp h c hmem
  rw [hc] at hnot
  cases hnot

theorem isOneLine_escapeChar {mark : Char} (hmark : mark = '"' ∨ mark = '\'') (c : Char) :
    IsOneLine (escapeChar mark c) := by
  refine forall_mem_escapeChar (by simp [isLineBoundary]) (isLineBoundary_of_class (by decide)) fun hc => ?_
  rcases hc with rfl | hc
  · rcases hmark with rfl | rfl <;> decide
  · exact isLineBoundary_of_class (by decide +kernel) c hc

end Quoted

/-- A quoted text is on one line, whatever is in the text. -/
theorem isOneLine_quoted (s : String) : IsOneLine (quoted s).toList := by
  have hmark := Quoted.mark_eq s.toList
  have hquote : IsOneLine [Quoted.mark s.toList] := by
    rcases hmark with h | h <;> rw [h] <;> decide
  rw [quoted, String.toList_ofList, Quoted.encode, ← List.singleton_append]
  refine isOneLine_append hquote (isOneLine_append (fun c hc => ?_) hquote)
  obtain ⟨d, -, hd⟩ := List.mem_flatMap.mp hc
  exact Quoted.isOneLine_escapeChar hmark d c hd

namespace Quoted

/-! ## Reading back -/

/-- The number of digits behind a letter. -/
def digitCount : Char → Nat
  | 'x' => 2
  | 'u' => 4
  | 'U' => 8
  | _ => 0

/-- The character that a letter and its digits stand for. -/
def meaning (letter : Char) (digits : List Char) : Char :=
  if digitCount letter ≠ 0 then Char.ofNat ((hexNumber? digits).getD 0)
  else if letter = 'n' then '\n'
  else if letter = 'r' then '\r'
  else if letter = 't' then '\t'
  else letter

/-- An escape from which a character can be had back. -/
def IsEscapeOf (c : Char) (text : List Char) : Prop :=
  ∃ letter digits, text = '\\' :: letter :: digits ∧ digits.length = digitCount letter ∧
    meaning letter digits = c

theorem isEscapeOf_hexDigits {c : Char} (letter : Char) (hletter : digitCount letter ≠ 0)
    (hc : c.toNat < 16 ^ digitCount letter) :
    IsEscapeOf c ('\\' :: letter :: hexDigits (digitCount letter) c.toNat) := by
  refine ⟨letter, _, rfl, length_hexDigits _ _, ?_⟩
  rw [meaning, if_pos hletter, hexNumber?_hexDigits hc, Option.getD_some, Char.ofNat_toNat]

theorem isEscapeOf_codePoint (c : Char) : IsEscapeOf c (codePoint c) := by
  rw [codePoint]
  split
  · have hc : c.toNat < 16 ^ 2 := by omega
    exact isEscapeOf_hexDigits 'x' (by decide) hc
  split
  · have hc : c.toNat < 16 ^ 4 := by omega
    exact isEscapeOf_hexDigits 'u' (by decide) hc
  · have hc : c.toNat < 16 ^ 8 := c.val.toNat_lt
    exact isEscapeOf_hexDigits 'U' (by decide) hc

/-- A character is written as it is, or as an escape. -/
theorem escapeChar_eq_or {mark : Char} (hmark : mark = '"' ∨ mark = '\'') (c : Char) :
    escapeChar mark c = [c] ∧ c ≠ '\\' ∨ IsEscapeOf c (escapeChar mark c) := by
  rw [escapeChar]
  split
  · rename_i hc
    refine .inr ⟨c, [], rfl, ?_⟩
    rcases hc with rfl | rfl
    · rcases hmark with rfl | rfl <;> decide
    · decide
  · rename_i hc
    rw [not_or] at hc
    split
    · rename_i h
      exact .inr ⟨'n', [], rfl, rfl, h.symm⟩
    split
    · rename_i h
      exact .inr ⟨'r', [], rfl, rfl, h.symm⟩
    split
    · rename_i h
      exact .inr ⟨'t', [], rfl, rfl, h.symm⟩
    split
    · exact .inl ⟨rfl, hc.2⟩
    · exact .inr (isEscapeOf_codePoint c)

/-- Whatever stands behind it, the text for a character is told from that for another. -/
theorem escapeChar_append_inj {mark c d : Char} (hmark : mark = '"' ∨ mark = '\'') {x y : List Char}
    (h : escapeChar mark c ++ x = escapeChar mark d ++ y) : c = d ∧ x = y := by
  rcases escapeChar_eq_or hmark c with ⟨hc, hplain⟩ | ⟨letter, digits, hc, hcount, hmeans⟩
  · rcases escapeChar_eq_or hmark d with ⟨hd, -⟩ | ⟨letter', digits', hd, -⟩
    · rw [hc, hd] at h
      exact List.cons.inj h
    · rw [hc, hd] at h
      exact absurd (List.cons.inj h).1 hplain
  · rcases escapeChar_eq_or hmark d with ⟨hd, hplain⟩ | ⟨letter', digits', hd, hcount', hmeans'⟩
    · rw [hc, hd] at h
      exact absurd (List.cons.inj h).1.symm hplain
    · rw [hc, hd] at h
      obtain ⟨rfl, hrest⟩ := List.cons.inj (List.cons.inj h).2
      obtain ⟨rfl, hxy⟩ := List.append_inj hrest (hcount.trans hcount'.symm)
      exact ⟨hmeans.symm.trans hmeans', hxy⟩

theorem escapeChar_ne_nil {mark : Char} (hmark : mark = '"' ∨ mark = '\'') (c : Char) :
    escapeChar mark c ≠ [] := by
  rcases escapeChar_eq_or hmark c with ⟨hc, -⟩ | ⟨letter, digits, hc, -⟩
  · rw [hc]
    exact List.cons_ne_nil c []
  · rw [hc]
    exact List.cons_ne_nil _ _

theorem flatMap_escapeChar_inj {mark : Char} (hmark : mark = '"' ∨ mark = '\'') {s t : List Char}
    (h : s.flatMap (escapeChar mark) = t.flatMap (escapeChar mark)) : s = t := by
  induction s generalizing t with
  | nil =>
    cases t with
    | nil => rfl
    | cons d t => exact absurd (List.append_eq_nil_iff.mp h.symm).1 (escapeChar_ne_nil hmark d)
  | cons c s ih =>
    cases t with
    | nil => exact absurd (List.append_eq_nil_iff.mp h).1 (escapeChar_ne_nil hmark c)
    | cons d t =>
      rw [List.flatMap_cons, List.flatMap_cons] at h
      obtain ⟨rfl, hrest⟩ := escapeChar_append_inj hmark h
      rw [ih hrest]

theorem encode_injective : Function.Injective encode := by
  intro s t h
  obtain ⟨hmark, hrest⟩ := List.cons.inj h
  rw [← hmark] at hrest
  exact flatMap_escapeChar_inj (mark_eq s) (List.append_cancel_right hrest)

end Quoted

theorem quoted_injective : Function.Injective quoted := by
  intro s t h
  have hchars := congrArg String.toList h
  rw [quoted, quoted, String.toList_ofList, String.toList_ofList] at hchars
  exact String.toList_injective (Quoted.encode_injective hchars)

end Text
end Groundplan
