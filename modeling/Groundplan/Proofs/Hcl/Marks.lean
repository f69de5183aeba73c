/-
Marks that open something.

Whoever looks for escaped interpolations in a generated file reads from an opening mark to
the next closing brace, and what stands between may run over several literals.  A stretch
of a file in which every mark has a closing brace behind it can be put in front of
anything without disturbing such a search; `Sealed` is that property in a form that is
kept when stretches are put together.  A literal is sealed if the text that it was made
from closes what it opens.
-/
import Groundplan.Proofs.Hcl.Literal
import Groundplan.Proofs.Hcl.Replacement
import Groundplan.Proofs.Text.Names
import Groundplan.Proofs.Text.Quoted
import Mathlib.Data.List.Infix

namespace Groundplan
namespace Hcl

/-- How a live interpolation starts. -/
def liveMark : List Char := ['$', '\x7b']

/-- How an interpolation starts that is to stay literal. -/
def escapedMark : List Char := ['$', '$', '\x7b']

theorem liveMark_dropLast : ∀ c ∈ liveMark.dropLast, c = '$' := by simp [liveMark]

theorem escapedMark_dropLast : ∀ c ∈ escapedMark.dropLast, c = '$' := by simp [escapedMark]

/-- Wherever the mark stands, a closing brace stands behind it. -/
def Settles (mark s : List Char) : Prop := ∀ t ∈ s.tails, mark <+: t → '\x7d' ∈ t

instance (mark s : List Char) : Decidable (Settles mark s) := List.decidableBAll _ _

/-- A text closes the interpolations that it opens. -/
def Closes (s : String) : Prop := Settles liveMark s.toList

instance (s : String) : Decidable (Closes s) := inferInstanceAs (Decidable (Settles _ _))

/-- What can stand in front of anything: nothing in it stays open, no mark begins at its
end, and it is read as it is written. -/
structure Sealed (s : List Char) : Prop where
  settled : Settles escapedMark s
  last : s.getLast? ≠ some '$'
  noReturn : '\r' ∉ s

/-! ## Marks -/

theorem settles_nil {mark : List Char} (hmark : mark ≠ []) : Settles mark [] := by
  intro t ht hbegins
  rw [List.tails, List.mem_singleton] at ht
  subst ht
  exact absurd (List.prefix_nil.mp hbegins) hmark

theorem settles_cons {mark s : List Char} {c : Char} :
    Settles mark (c :: s) ↔ (mark <+: c :: s → '\x7d' ∈ c :: s) ∧ Settles mark s := by
  rw [Settles, List.tails, List.forall_mem_cons]
  rfl

theorem Settles.suffix {mark s t : List Char} (h : Settles mark s) (ht : t <:+ s) :
    Settles mark t := by
  intro u hu
  rw [List.mem_tails] at hu
  exact h u ((List.mem_tails _ _).mpr (hu.trans ht))

/-- Without its first character a mark stands nowhere. -/
theorem settles_of_not_mem {m : Char} {mark s : List Char} (h : m ∉ s) : Settles (m :: mark) s := by
  intro t ht hbegins
  have hm : m ∈ t := hbegins.subset List.mem_cons_self
  exact absurd (((List.mem_tails _ _).mp ht).subset hm) h

/-- A mark across the border between two texts begins with a dollar sign at the end of the
first and goes on at the start of the second. -/
theorem Settles.append {mark a b : List Char} (hmark : ∀ c ∈ mark.dropLast, c = '$')
    (ha : Settles mark a) (hb : Settles mark b)
    (hborder : a.getLast? ≠ some '$' ∨ ∀ c ∈ b.head?, c ∉ mark) : Settles mark (a ++ b) := by
  induction a with
  | nil => exact hb
  | cons c a ih =>
    rw [settles_cons] at ha
    rw [List.cons_append, settles_cons]
    refine ⟨fun hbegins => show '\x7d' ∈ (c :: a) ++ b from List.mem_append_left b ?_, ih ha.2 ?_⟩
    · -- The mark stands in the first text, for there is none across the border.
      refine ha.1 ?_
      rcases List.prefix_or_prefix_of_prefix hbegins (List.prefix_append (c :: a) b) with hle | hge
      · exact hle
      · obtain ⟨rest, rfl⟩ := hge
        cases rest with
        | nil =>
          rw [List.append_nil]
        | cons d rest =>
          exfalso
          rcases hborder with hlast | hhead
          · have hdollars : ∀ e ∈ c :: a, e = '$' := by
              intro e he
              refine hmark e ?_
              rw [List.dropLast_append_of_ne_nil (List.cons_ne_nil d rest)]
              exact List.mem_append_left _ he
            have hend := List.getLast?_eq_some_getLast (List.cons_ne_nil c a)
            rw [hend, hdollars _ (List.getLast_mem _)] at hlast
            exact hlast rfl
          · have hb : d :: rest <+: b := (List.prefix_append_right_inj (c :: a)).mp hbegins
            obtain ⟨t, rfl⟩ := hb
            exact hhead d rfl (List.mem_append_right _ List.mem_cons_self)
    · refine hborder.imp_left fun hlast h => hlast ?_
      rw [List.getLast?_cons, h]
      rfl

theorem settles_escapedMark {s : List Char} (h : Settles liveMark s) : Settles escapedMark s := by
  induction s with
  | nil => exact settles_nil (by decide)
  | cons c s ih =>
    rw [settles_cons] at h ⊢
    refine ⟨fun hbegins => ?_, ih h.2⟩
    have hlive : liveMark <+: s := (List.cons_prefix_cons.mp hbegins).2
    have hmem : '\x7d' ∈ s := h.2 s ((List.mem_tails _ _).mpr (List.suffix_refl s)) hlive
    exact List.mem_cons_of_mem c hmem

/-! ## Escapes -/

/-- A way of writing texts, character by character, that leaves marks and closing braces as
they are and adds none. -/
structure KeepsMarks (f : Char → List Char) : Prop where
  dollar : f '$' = ['$']
  closing : f '\x7d' = ['\x7d']
  noDollar : ∀ c, c ≠ '$' → '$' ∉ f c
  brace : ∀ c rest t, f c ++ rest = '\x7b' :: t → c = '\x7b'

theorem KeepsMarks.mem_closing {f : Char → List Char} (hf : KeepsMarks f) {s : List Char}
    (h : '\x7d' ∈ s) : '\x7d' ∈ s.flatMap f := by
  refine List.mem_flatMap.mpr ⟨'\x7d', h, ?_⟩
  rw [hf.closing]
  exact List.mem_singleton_self _

theorem KeepsMarks.settles {f : Char → List Char} (hf : KeepsMarks f) {s : List Char}
    (h : Settles liveMark s) : Settles liveMark (s.flatMap f) := by
  induction s with
  | nil => exact settles_nil (by decide)
  | cons c s ih =>
    rw [settles_cons] at h
    have hrest := ih h.2
    rw [List.flatMap_cons]
    by_cases hc : c = '$'
    · subst hc
      rw [hf.dollar, List.singleton_append, settles_cons]
      refine ⟨fun hbegins => List.mem_cons_of_mem _ ?_, hrest⟩
      obtain ⟨t, ht⟩ := (List.cons_prefix_cons.mp hbegins).2
      cases s with
      | nil => cases ht
      | cons d s =>
        rw [List.flatMap_cons] at ht
        have hd := hf.brace d _ _ ht.symm
        subst hd
        have hmem := h.1 ⟨s, rfl⟩
        exact hf.mem_closing ((List.mem_cons.mp hmem).resolve_left (by decide))
    · exact (settles_of_not_mem (hf.noDollar c hc)).append liveMark_dropLast hrest
        (.inl fun hlast => hf.noDollar c hc (List.mem_of_getLast? hlast))

namespace Literal

theorem keepsMarks_escapeChar : KeepsMarks escapeChar where
  dollar := rfl
  closing := rfl
  noDollar := by
    intro c hc hmem
    by_cases hraw : IsRaw c
    · rw [escapeChar_of_isRaw hraw, List.mem_singleton] at hmem
      exact hc hmem.symm
    · obtain ⟨d, hd, hback⟩ := escapeChar_of_not_isRaw hraw
      rw [hd] at hmem
      rcases List.mem_cons.mp hmem with h | h
      · exact absurd h (by decide)
      · exact (ne_marker_of_unescapeChar? hback).1 (List.mem_singleton.mp h).symm
  brace := by
    intro c rest t h
    by_cases hraw : IsRaw c
    · rw [escapeChar_of_isRaw hraw] at h
      exact (List.cons.inj h).1
    · obtain ⟨d, hd, -⟩ := escapeChar_of_not_isRaw hraw
      rw [hd] at h
      exact absurd (List.cons.inj h).1 (by decide)

theorem settles_escapeKeepingMarkers {s : List Char} (h : Settles liveMark s) :
    Settles escapedMark (escapeKeepingMarkers s) :=
  settles_escapedMark (keepsMarks_escapeChar.settles h)

theorem mem_escape_closing {s : List Char} : '\x7d' ∈ escape s ↔ '\x7d' ∈ s := by
  fun_induction escape s with
  | case1 => rfl
  | case2 rest ih => simp [ih]
  | case3 rest ih => simp [ih]
  | case4 c rest _ _ ih =>
    rw [List.mem_append, ih, List.mem_cons]
    refine or_congr_left ?_
    by_cases hraw : IsRaw c
    · rw [escapeChar_of_isRaw hraw, List.mem_singleton]
    · obtain ⟨d, hd, hback⟩ := escapeChar_of_not_isRaw hraw
      rw [hd]
      have hc : c ≠ '\x7d' := fun h => hraw (h ▸ by decide)
      have hd : d ≠ '\x7d' := by
        rintro rfl
        cases hback
      simp [Ne.symm hc, Ne.symm hd]

/-- A literal opens what its text opens. -/
theorem settles_escape {s : List Char} (h : Settles liveMark s) : Settles escapedMark (escape s) := by
  fun_induction escape s with
  | case1 => exact settles_nil (by decide)
  | case2 rest ih =>
    have hrest : Settles liveMark rest := h.suffix ⟨['$', '\x7b'], rfl⟩
    have hmem : '\x7d' ∈ escape rest := by
      have hmem := (settles_cons.mp h).1 ⟨rest, rfl⟩
      rw [mem_escape_closing]
      simpa using hmem
    have hbehind : ∀ c s, '\x7d' ∈ s → Settles escapedMark s → Settles escapedMark (c :: s) :=
      fun c s hs hsettles => settles_cons.mpr ⟨fun _ => List.mem_cons_of_mem c hs, hsettles⟩
    exact hbehind _ _ (by simp [hmem]) (hbehind _ _ (by simp [hmem]) (hbehind _ _ hmem (ih hrest)))
  | case3 rest ih =>
    have hrest : Settles liveMark rest := h.suffix ⟨['%', '\x7b'], rfl⟩
    have hmark : Settles escapedMark ['%', '%', '\x7b'] := by decide
    exact hmark.append escapedMark_dropLast (ih hrest) (.inl (by decide))
  | case4 c rest hdollar hpercent ih =>
    have hrest : Settles liveMark rest := h.suffix ⟨[c], rfl⟩
    by_cases hc : c = '$'
    · subst hc
      show Settles escapedMark ('$' :: escape rest)
      rw [settles_cons]
      refine ⟨fun hbegins => ?_, ih hrest⟩
      obtain ⟨t, ht⟩ := (List.cons_prefix_cons.mp hbegins).2
      exact absurd ht.symm (escape_ne_marker (.inl rfl) rest t)
    · have hno := keepsMarks_escapeChar.noDollar c hc
      exact (settles_of_not_mem hno).append escapedMark_dropLast (ih hrest)
        (.inl fun hlast => hno (List.mem_of_getLast? hlast))

/-- Texts are escaped one after the other, unless a marker would come about at the border. -/
theorem escape_append {a b : List Char} (hb : ∀ t, b ≠ '\x7b' :: t) :
    escape (a ++ b) = escape a ++ escape b := by
  fun_induction escape a with
  | case1 => rfl
  | case2 rest ih => rw [List.cons_append, List.cons_append, escape, ih]; rfl
  | case3 rest ih => rw [List.cons_append, List.cons_append, escape, ih]; rfl
  | case4 c rest hdollar hpercent ih =>
    have hbrace : ∀ t, rest ++ b = '\x7b' :: t → ∃ u, rest = '\x7b' :: u := by
      intro t ht
      cases rest with
      | nil => exact absurd ht (hb t)
      | cons d rest => exact ⟨rest, by rw [(List.cons.inj ht).1]⟩
    rw [List.cons_append, escape, ih, List.append_assoc]
    · intro t hc ht
      obtain ⟨u, hu⟩ := hbrace t ht
      exact hdollar u hc hu
    · intro t hc ht
      obtain ⟨u, hu⟩ := hbrace t ht
      exact hpercent u hc hu

/-- What becomes of a placeholder. -/
theorem escape_placeholder (before body after : List Char) :
    escape (before ++ ('$' :: '\x7b' :: (body ++ '\x7d' :: after))) =
      escape before ++ (escapedMark ++ (escape body ++ '\x7d' :: escape after)) := by
  rw [escape_append (by simp), escape, escape_append (by simp)]
  rfl

end Literal

/-- The quotes of messages leave marks as they are. -/
theorem keepsMarks_quoted {mark : Char} (hmark : mark = '"' ∨ mark = '\'') :
    KeepsMarks (Text.Quoted.escapeChar mark) where
  dollar := by rcases hmark with rfl | rfl <;> decide
  closing := by rcases hmark with rfl | rfl <;> decide
  noDollar := by
    intro c hc hmem
    refine Text.Quoted.forall_mem_escapeChar (p := (· ≠ '$')) (by simp) ?_ (fun _ => hc) '$' hmem rfl
    rintro d hd rfl
    cases hd
  brace := by
    intro c rest t h
    rcases Text.Quoted.escapeChar_cases mark c with ⟨hc, -⟩ | ⟨letter, -, hc⟩ | ⟨hc, -⟩ | hc
    · rw [hc] at h
      exact absurd (List.cons.inj h).1 (by decide)
    · rw [hc] at h
      exact absurd (List.cons.inj h).1 (by decide)
    · rw [hc] at h
      exact (List.cons.inj h).1
    · obtain ⟨letter, width, -, hcode⟩ := Text.Quoted.exists_codePoint c
      rw [hc, hcode] at h
      exact absurd (List.cons.inj h).1 (by decide)

/-! ## Sealed stretches -/

theorem sealed_append {a b : List Char} (ha : Sealed a) (hb : Sealed b) : Sealed (a ++ b) where
  settled := ha.settled.append escapedMark_dropLast hb.settled (.inl ha.last)
  last := by
    rw [List.getLast?_append]
    cases hlast : b.getLast? with
    | none => exact ha.last
    | some c =>
      rw [Option.some_or, ← hlast]
      exact hb.last
  noReturn := by
    rw [List.mem_append, not_or]
    exact ⟨ha.noReturn, hb.noReturn⟩

theorem sealed_of_not_mem {s : List Char} (hdollar : '$' ∉ s) (hreturn : '\r' ∉ s) : Sealed s :=
  ⟨settles_of_not_mem hdollar, fun hlast => hdollar (List.mem_of_getLast? hlast), hreturn⟩

/-- A text with nothing in it that opens an interpolation or ends a line halfway. -/
def isStill (s : String) : Bool := !s.toList.contains '$' && !s.toList.contains '\r'

theorem isStill_iff {s : String} : isStill s = true ↔ '$' ∉ s.toList ∧ '\r' ∉ s.toList := by
  simp [isStill]

theorem sealed_of_isStill {s : String} (h : isStill s = true) : Sealed s.toList :=
  sealed_of_not_mem (isStill_iff.mp h).1 (isStill_iff.mp h).2

theorem isStill_of_isName {first further : Char → Bool}
    (hdollar : first '$' = false ∧ further '$' = false)
    (hreturn : first '\r' = false ∧ further '\r' = false) {s : String}
    (h : Text.isName first further s.toList = true) : isStill s = true :=
  isStill_iff.mpr ⟨Text.not_mem_of_isName hdollar.1 hdollar.2 (by decide) h,
    Text.not_mem_of_isName hreturn.1 hreturn.2 (by decide) h⟩

/-- A text between quotes of one kind. -/
theorem sealed_quotes {mark : Char} {body : List Char} (hmark : mark = '"' ∨ mark = '\'')
    (hbody : Settles escapedMark body) (hreturn : '\r' ∉ body) :
    Sealed (mark :: (body ++ [mark])) := by
  have hquote : Sealed [mark] := by
    rcases hmark with rfl | rfl <;> exact sealed_of_not_mem (by decide) (by decide)
  have hborder : ∀ c ∈ [mark].head?, c ∉ escapedMark := by
    rcases hmark with rfl | rfl <;> simp [escapedMark]
  refine ⟨?settled, ?last, ?noReturn⟩
  case settled =>
    have hend := hbody.append escapedMark_dropLast hquote.settled (.inr hborder)
    exact hquote.settled.append escapedMark_dropLast hend (.inl hquote.last)
  case last =>
    rw [← List.cons_append, List.getLast?_concat]
    exact hquote.last
  case noReturn =>
    rw [← List.cons_append, ← List.singleton_append, List.mem_append, List.mem_append, not_or, not_or]
    exact ⟨⟨hquote.noReturn, hreturn⟩, hquote.noReturn⟩

theorem sealed_quote {s : String} (h : Closes s) : Sealed (quote s).toList := by
  rw [toList_quote]
  exact sealed_quotes (.inl rfl) (Literal.settles_escape h) (Literal.break_not_mem_escape (.inr rfl) _)

theorem sealed_quoteTemplate {s : String} (h : Closes s) : Sealed (quoteTemplate s).toList := by
  rw [toList_quoteTemplate]
  exact sealed_quotes (.inl rfl) (Literal.settles_escapeKeepingMarkers h)
    (Literal.break_not_mem_escapeKeepingMarkers (.inr rfl) _)

theorem sealed_quoted {s : String} (h : Closes s) : Sealed (Text.quoted s).toList := by
  have hmark := Text.Quoted.mark_eq s.toList
  have hline := Text.isOneLine_quoted s
  rw [Text.quoted, String.toList_ofList, Text.Quoted.encode] at hline ⊢
  refine sealed_quotes hmark (settles_escapedMark ((keepsMarks_quoted hmark).settles h)) fun hmem => ?_
  have hboundary := hline '\r' (List.mem_cons_of_mem _ (List.mem_append_left _ hmem))
  cases hboundary

theorem sealed_key {k : String} (h : Closes k) : Sealed (key k).toList := by
  rw [key]
  split
  · rename_i hbare
    rw [Bool.and_eq_true] at hbare
    exact sealed_of_isStill (isStill_of_isName (by decide) (by decide) hbare.1)
  · exact sealed_quote h

end Hcl
end Groundplan
