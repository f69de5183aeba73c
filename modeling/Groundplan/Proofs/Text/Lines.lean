/-
Lines of a text.

A text is split at every kind of line boundary.  What is needed of that is how a line at
the front of a text is found, and that lines bring no characters of their own.  When a file
is read, line ends are only unified, and a text shows that if it has a carriage return.
-/
import Groundplan.Text.Lines
import Mathlib.Data.List.Basic

namespace Groundplan
namespace Text

/-- A text without line boundaries. -/
def IsOneLine (s : List Char) : Prop := ∀ c ∈ s, isLineBoundary c = false

instance (s : List Char) : Decidable (IsOneLine s) := List.decidableBAll _ s

theorem isOneLine_append {a b : List Char} (ha : IsOneLine a) (hb : IsOneLine b) :
    IsOneLine (a ++ b) :=
  List.forall_mem_append.mpr ⟨ha, hb⟩

theorem splitLines_cons_of_boundary {c : Char} (hc : isLineBoundary c = true) (hreturn : c ≠ '\r')
    (rest : List Char) : splitLines (c :: rest) = [] :: splitLines rest := by
  rw [splitLines.eq_def]
  split
  · contradiction
  · rename_i heq
    exact absurd (List.cons.inj heq).1 hreturn
  · rename_i heq
    obtain ⟨rfl, rfl⟩ := List.cons.inj heq
    rw [if_pos hc]

theorem splitLines_cons {c : Char} (hc : isLineBoundary c = false) (rest : List Char) :
    splitLines (c :: rest) = match splitLines rest with
      | [] => [[c]]
      | line :: lines => (c :: line) :: lines := by
  rw [splitLines.eq_def]
  split
  · contradiction
  · rename_i heq
    rw [(List.cons.inj heq).1] at hc
    cases hc
  · rename_i heq
    obtain ⟨rfl, rfl⟩ := List.cons.inj heq
    rw [hc]
    rfl

/-- A line in front of a newline. -/
theorem splitLines_append_newline {a : List Char} (ha : IsOneLine a) (b : List Char) :
    splitLines (a ++ '\n' :: b) = a :: splitLines b := by
  induction a with
  | nil => exact splitLines_cons_of_boundary rfl (by decide) b
  | cons c a ih =>
    have hrest := ih fun d hd => ha d (List.mem_cons_of_mem c hd)
    rw [List.cons_append, splitLines_cons (ha c List.mem_cons_self), hrest]

theorem splitLines_of_isOneLine {a : List Char} (ha : IsOneLine a) (hne : a ≠ []) :
    splitLines a = [a] := by
  induction a with
  | nil => exact absurd rfl hne
  | cons c a ih =>
    rw [splitLines_cons (ha c List.mem_cons_self)]
    cases a with
    | nil => rfl
    | cons d a =>
      rw [ih (fun e he => ha e (List.mem_cons_of_mem c he)) (List.cons_ne_nil d a)]

/-- No line has a boundary in it. -/
theorem isOneLine_of_mem_splitLines {cs line : List Char} (h : line ∈ splitLines cs) :
    IsOneLine line := by
  fun_induction splitLines cs generalizing line with
  | case1 => exact absurd h List.not_mem_nil
  | case2 rest ih =>
    rcases List.mem_cons.mp h with rfl | h
    · exact List.forall_mem_nil _
    · exact ih h
  | case3 c rest _ _ ih =>
    rcases List.mem_cons.mp h with rfl | h
    · exact List.forall_mem_nil _
    · exact ih h
  | case4 c rest _ hc _ _ =>
    rw [List.mem_singleton.mp h]
    exact List.forall_mem_singleton.mpr (Bool.eq_false_iff.mpr hc)
  | case5 c rest _ hc line' lines hrest ih =>
    rw [hrest] at ih
    rcases List.mem_cons.mp h with rfl | h
    · exact List.forall_mem_cons.mpr ⟨Bool.eq_false_iff.mpr hc, ih List.mem_cons_self⟩
    · exact ih (List.mem_cons_of_mem line' h)

theorem IsOneLine.newline_not_mem {s : List Char} (h : IsOneLine s) : '\n' ∉ s := fun hmem =>
  absurd (h _ hmem) (by decide)

theorem subset_of_mem_splitLines {cs line : List Char} (h : line ∈ splitLines cs) : line ⊆ cs := by
  fun_induction splitLines cs generalizing line with
  | case1 => exact absurd h List.not_mem_nil
  | case2 rest ih =>
    rcases List.mem_cons.mp h with rfl | h
    · exact List.nil_subset _
    · exact fun c hc => List.mem_cons_of_mem _ (List.mem_cons_of_mem _ (ih h hc))
  | case3 c rest _ _ ih =>
    rcases List.mem_cons.mp h with rfl | h
    · exact List.nil_subset _
    · exact List.subset_cons_of_subset c (ih h)
  | case4 c rest _ _ _ _ =>
    rw [List.mem_singleton.mp h]
    exact List.cons_subset_cons c (List.nil_subset rest)
  | case5 c rest _ _ line' lines hrest ih =>
    rw [hrest] at ih
    rcases List.mem_cons.mp h with rfl | h
    · exact List.cons_subset_cons c (ih List.mem_cons_self)
    · exact List.subset_cons_of_subset c (ih (List.mem_cons_of_mem line' h))

/-! ## Line ends -/

theorem unifyNewlines_append {a : List Char} (h : '\r' ∉ a) (b : List Char) :
    unifyNewlines (a ++ b) = a ++ unifyNewlines b := by
  induction a with
  | nil => rfl
  | cons c a ih =>
    rw [List.mem_cons, not_or] at h
    rw [List.cons_append, unifyNewlines, ih h.2, List.cons_append]
    · rintro _ rfl
      exact absurd rfl h.1
    · rintro rfl
      exact absurd rfl h.1

theorem return_not_mem_unifyNewlines (cs : List Char) : '\r' ∉ unifyNewlines cs := by
  fun_induction unifyNewlines cs with
  | case1 => exact List.not_mem_nil
  | case2 rest ih => simp [ih]
  | case3 rest _ ih => simp [ih]
  | case4 c rest _ hc ih =>
    rw [List.mem_cons, not_or]
    exact ⟨fun h => hc h.symm, ih⟩

/-- Reading leaves a text as it is if and only if it has no carriage return. -/
theorem unifyNewlines_eq_self_iff {cs : List Char} : unifyNewlines cs = cs ↔ '\r' ∉ cs := by
  refine ⟨fun h => h ▸ return_not_mem_unifyNewlines cs, fun h => ?_⟩
  have happend := unifyNewlines_append h []
  rwa [List.append_nil, show unifyNewlines [] = [] from rfl, List.append_nil] at happend

end Text
end Groundplan
