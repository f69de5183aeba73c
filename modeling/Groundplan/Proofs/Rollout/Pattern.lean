/-
What is found by the pattern of a placeholder.

`captures` runs over a text once.  What it is after can be said without it: the pattern
matches where a mark stands, then a text that is not empty and has no closing brace, and
then the brace.  Matches are taken from the left, and the search goes on behind each of them.

The renderer doubles the dollar sign of every mark, and the report looks for doubled marks.
That the two agree needs both directions: a match in a text is one in the escaped text, and
an escaped text has no others, although escaping also changes what stands between a mark and
its brace.
-/
import Groundplan.Proofs.Rollout.Captures

namespace Groundplan
namespace Rollout

open Hcl

/-! ## Matches -/

/-- The pattern matches at the start of `s`: it takes `text` out, and `rest` is left. -/
structure IsMatch (opening s text rest : List Char) : Prop where
  split : s = opening ++ (text ++ '\x7d' :: rest)
  nonempty : text ≠ []
  noClosing : '\x7d' ∉ text

def Matches (opening s : List Char) : Prop := ∃ text rest, IsMatch opening s text rest

/-- The texts that are taken out of `s` by one match after the other.  A match is taken at
the first place where there is one, and the next is looked for behind it. -/
inductive Finds (opening : List Char) : List Char → List (List Char) → Prop
  | done : Finds opening [] []
  | skip {c : Char} {s : List Char} {texts : List (List Char)} (hno : ¬Matches opening (c :: s))
      (h : Finds opening s texts) : Finds opening (c :: s) texts
  | take {s text rest : List Char} {texts : List (List Char)} (hmatch : IsMatch opening s text rest)
      (h : Finds opening rest texts) : Finds opening s (text :: texts)

variable {opening s text rest : List Char} {texts : List (List Char)}

theorem IsMatch.length_lt (h : IsMatch opening s text rest) : rest.length < s.length := by
  have hlength := congrArg List.length h.split
  simp only [List.length_append, List.length_cons] at hlength
  omega

theorem captures_of_isMatch (hopening : opening ≠ []) (h : IsMatch opening s text rest) :
    captures opening s = text :: captures opening rest := by
  rw [h.split, captures_mark hopening h.noClosing, if_neg h.nonempty]

theorem captures_of_not_matches {c : Char} (hopening : opening ≠ []) (h : ¬Matches opening (c :: s)) :
    captures opening (c :: s) = captures opening s := by
  by_cases hbegins : opening <+: c :: s
  · obtain ⟨tail, htail⟩ := hbegins
    have hs : s = opening.tail ++ tail := by
      have hcons := congrArg List.tail htail
      rw [List.tail_append_of_ne_nil hopening] at hcons
      exact hcons.symm
    rw [← htail, hs]
    by_cases hclosing : '\x7d' ∈ tail
    · obtain ⟨text, rest, rfl, htext⟩ := List.eq_append_cons_of_mem hclosing
      have hempty : text = [] := by
        by_contra hne
        exact h ⟨text, rest, htail.symm, hne, htext⟩
      rw [captures_mark hopening htext, if_pos hempty, hempty, List.nil_append]
    · exact captures_unclosed hopening hclosing
  · exact captures_cons_of_not_prefix hbegins

/-- Running over a text finds what there is to be found, and there is one answer only. -/
theorem finds_iff (hopening : opening ≠ []) : Finds opening s texts ↔ captures opening s = texts := by
  constructor
  · intro h
    induction h with
    | done => rw [captures]
    | skip hno _ ih => rw [captures_of_not_matches hopening hno, ih]
    | take hmatch _ ih => rw [captures_of_isMatch hopening hmatch, ih]
  · rintro rfl
    induction hlength : s.length using Nat.strong_induction_on generalizing s with
    | _ n ih =>
      by_cases hmatches : Matches opening s
      · obtain ⟨text, rest, hmatch⟩ := hmatches
        rw [captures_of_isMatch hopening hmatch]
        have hlt := hmatch.length_lt
        exact .take hmatch (ih rest.length (by omega) rfl)
      · cases s with
        | nil =>
          rw [captures]
          exact .done
        | cons c s =>
          rw [captures_of_not_matches hopening hmatches]
          refine .skip hmatches (ih s.length ?_ rfl)
          rw [List.length_cons] at hlength
          omega

/-! ## Escaped texts -/

/-- A doubled mark only stands where a mark stood. -/
theorem exists_of_escape_eq_mark {tail : List Char} (h : Literal.escape s = escapedMark ++ tail) :
    ∃ t, s = '$' :: '\x7b' :: t ∧ Literal.escape t = tail := by
  fun_induction Literal.escape s with
  | case1 => simp [escapedMark] at h
  | case2 t _ => exact ⟨t, rfl, by simpa [escapedMark] using h⟩
  | case3 t _ => simp [escapedMark] at h
  | case4 c t hdollar _ _ =>
    by_cases hraw : Literal.IsRaw c
    · rw [Literal.escapeChar_of_isRaw hraw] at h
      exact absurd (List.cons.inj h).2 (Literal.escape_ne_marker (.inl rfl) t tail)
    · obtain ⟨d, hd, -⟩ := Literal.escapeChar_of_not_isRaw hraw
      rw [hd] at h
      simp [escapedMark] at h

theorem isMatch_escape (h : IsMatch liveMark s text rest) :
    IsMatch escapedMark (Literal.escape s) (Literal.escape text) (Literal.escape rest) where
  split := by
    rw [h.split]
    exact Literal.escape_placeholder [] text rest
  nonempty := by
    intro hnil
    apply h.nonempty
    apply Literal.escape_injective
    rw [hnil, Literal.escape]
  noClosing := by
    rw [Literal.mem_escape_closing]
    exact h.noClosing

theorem matches_of_escape (h : Matches escapedMark (Literal.escape s)) : Matches liveMark s := by
  obtain ⟨text, rest, hmatch⟩ := h
  obtain ⟨t, rfl, ht⟩ := exists_of_escape_eq_mark hmatch.split
  have hclosing : '\x7d' ∈ t := by
    rw [← Literal.mem_escape_closing, ht]
    simp
  obtain ⟨inner, behind, rfl, hinner⟩ := List.eq_append_cons_of_mem hclosing
  refine ⟨inner, behind, rfl, ?_, hinner⟩
  rintro rfl
  -- A brace right behind the mark would stand right behind the doubled one.
  have hfirst : '\x7d' :: Literal.escape behind = text ++ '\x7d' :: rest := ht
  cases htext : text with
  | nil => exact hmatch.nonempty htext
  | cons c cs =>
    rw [htext] at hfirst
    apply hmatch.noClosing
    rw [htext, (List.cons.inj hfirst).1]
    exact List.mem_cons_self

theorem not_matches_of_head {m c : Char} {mark : List Char} (h : c ≠ m) (s : List Char) :
    ¬Matches (m :: mark) (c :: s) := by
  rintro ⟨text, rest, hmatch⟩
  exact h (List.cons.inj hmatch.split).1

/-- Nothing is found in front of the first dollar sign. -/
theorem Finds.behind {front : List Char} (hfront : '$' ∉ front) (h : Finds escapedMark s texts) :
    Finds escapedMark (front ++ s) texts := by
  induction front with
  | nil => exact h
  | cons c front ih =>
    rw [List.mem_cons, not_or] at hfront
    exact .skip (not_matches_of_head (Ne.symm hfront.1) _) (ih hfront.2)

/-- A character at which nothing matches is still none when it is escaped. -/
theorem Finds.escape_cons {c : Char} (hno : ¬Matches liveMark (c :: s))
    (h : Finds escapedMark (Literal.escape s) texts) :
    Finds escapedMark (Literal.escape (c :: s)) texts := by
  have hfirst : ¬Matches escapedMark (Literal.escape (c :: s)) := mt matches_of_escape hno
  by_cases hmarker : (c = '$' ∨ c = '%') ∧ ∃ t, s = '\x7b' :: t
  · obtain ⟨hc, t, rfl⟩ := hmarker
    have hbrace : Literal.escape ('\x7b' :: t) = '\x7b' :: Literal.escape t := rfl
    rw [hbrace] at h
    rcases hc with rfl | rfl
    · refine .skip hfirst (.skip ?_ h)
      -- One dollar sign is no doubled mark.
      rintro ⟨text, rest, hmatch⟩
      have hsplit := hmatch.split
      simp [escapedMark] at hsplit
    · have hfront : '$' ∉ ['%', '%'] := by decide
      exact h.behind hfront
  · have hescape : Literal.escape (c :: s) = Literal.escapeChar c ++ Literal.escape s := by
      rw [Literal.escape]
      · exact fun t hc hs => hmarker ⟨.inl hc, t, hs⟩
      · exact fun t hc hs => hmarker ⟨.inr hc, t, hs⟩
    by_cases hc : c = '$'
    · subst hc
      rw [hescape] at hfirst ⊢
      exact .skip hfirst h
    · rw [hescape]
      exact h.behind (Literal.keepsMarks_escapeChar.noDollar c hc)

/-- The text of each match is escaped, and everything else stays apart. -/
theorem Finds.escape (h : Finds liveMark s texts) :
    Finds escapedMark (Literal.escape s) (texts.map Literal.escape) := by
  induction h with
  | done => exact .done
  | skip hno _ ih => exact ih.escape_cons hno
  | take hmatch _ ih => exact .take (isMatch_escape hmatch) ih

/-- What the report finds in an escaped text is what stands in the placeholders of the text,
escaped: nothing is lost, nothing is added, and nothing is cut elsewhere. -/
theorem captures_escape (s : List Char) :
    Finds liveMark s (captures liveMark s) ∧
      Finds escapedOpening (Literal.escape s) (captures escapedOpening (Literal.escape s)) ∧
        captures escapedOpening (Literal.escape s) = (captures liveMark s).map Literal.escape := by
  have hlive : Finds liveMark s (captures liveMark s) := (finds_iff (List.cons_ne_nil _ _)).mpr rfl
  have hescaped := (finds_iff escapedMark_ne_nil).mp hlive.escape
  exact ⟨hlive, (finds_iff (List.cons_ne_nil _ _)).mpr rfl, hescaped⟩

/-- A run of dollar signs, an opening inside another one, an empty pair of braces, and an
opening that is never closed. -/
example : captures escapedOpening (Literal.escape "$$\x7ba\x7d$\x7b\x7d$\x7b%\x7bb$\x7bc\x7d$\x7b".toList) =
    ["a".toList, "%%\x7bb$$\x7bc".toList] := by
  decide +kernel

end Rollout
end Groundplan
