/-
What is left of a text when its ends are trimmed.

Trimming both ends cuts a text in three: what stands in front and behind is of the class that
goes, and what is between them is left as it is.  The end is trimmed from the right, so what
is left of it is what the library leaves of the reversed text.
-/
import Groundplan.Text.Blank
import Mathlib.Data.List.DropRight

namespace Groundplan
namespace Text

variable {p : Char → Bool} {cs : List Char}

theorem trimEndBy_eq_rdropWhile (p : Char → Bool) (cs : List Char) :
    trimEndBy p cs = cs.rdropWhile p := by
  induction cs with
  | nil => rfl
  | cons c cs ih =>
    rw [trimEndBy, ih, List.rdropWhile, List.rdropWhile, List.reverse_cons, List.dropWhile_append]
    cases hrest : cs.reverse.dropWhile p with
    | nil => cases hc : p c <;> simp [hc]
    | cons d ds =>
      rw [if_neg (by simp : ¬(d :: ds).isEmpty = true), List.reverse_append,
        List.reverse_singleton, List.singleton_append]
      split
      · next hempty => simp at hempty
      · next hfront => rw [hfront]

theorem trimEndBy_of_forall (h : ∀ c ∈ cs, p c = false) : trimEndBy p cs = cs := by
  rw [trimEndBy_eq_rdropWhile, List.rdropWhile_eq_self_iff]
  intro hne
  rw [h _ (List.getLast_mem hne)]
  exact Bool.false_ne_true

/-- Nothing in front of a character that stays is removed. -/
theorem trimEndBy_append_cons {c : Char} (hc : p c = false) (a b : List Char) :
    trimEndBy p (a ++ c :: b) = a ++ c :: trimEndBy p b := by
  induction a with
  | nil =>
    rw [List.nil_append, trimEndBy]
    cases trimEndBy p b with
    | nil => simp [hc]
    | cons d ds => rfl
  | cons d a ih =>
    rw [List.cons_append, trimEndBy, ih]
    cases a <;> rfl

theorem trimEndBy_subset (p : Char → Bool) (cs : List Char) : trimEndBy p cs ⊆ cs := by
  rw [trimEndBy_eq_rdropWhile]
  exact (List.rdropWhile_prefix p cs).subset

theorem getLast?_trimEndBy {c : Char} (h : (trimEndBy p cs).getLast? = some c) : p c = false := by
  rw [trimEndBy_eq_rdropWhile] at h
  obtain ⟨hne, rfl⟩ := List.mem_getLast?_eq_getLast h
  exact Bool.eq_false_iff.mpr (List.rdropWhile_last_not p cs hne)

/-- What is removed from both ends is of the class. -/
theorem exists_trimBy (p : Char → Bool) (cs : List Char) : ∃ before after,
    (∀ c ∈ before, p c = true) ∧ (∀ c ∈ after, p c = true) ∧
      cs = before ++ (trimBy p cs ++ after) := by
  refine ⟨cs.takeWhile p, ((cs.dropWhile p).reverse.takeWhile p).reverse,
    fun c hc => List.mem_takeWhile_imp hc,
    fun c hc => List.mem_takeWhile_imp (List.mem_reverse.mp hc), ?_⟩
  rw [trimBy, trimEndBy_eq_rdropWhile, List.rdropWhile, ← List.reverse_append,
    List.takeWhile_append_dropWhile, List.reverse_reverse, List.takeWhile_append_dropWhile]

/-- What has nothing of the class is left of what stands around it. -/
theorem trimBy_append {before core after : List Char} (hbefore : ∀ c ∈ before, p c = true)
    (hcore : ∀ c ∈ core, p c = false) (hafter : ∀ c ∈ after, p c = true) :
    trimBy p (before ++ (core ++ after)) = core := by
  rw [trimBy, List.dropWhile_append_of_pos hbefore]
  cases core with
  | nil =>
    rw [List.nil_append, List.dropWhile_eq_nil_iff.mpr hafter]
    rfl
  | cons c core =>
    have hc := hcore c List.mem_cons_self
    rw [List.cons_append, List.dropWhile_cons_of_neg (by rw [hc]; exact Bool.false_ne_true),
      ← List.cons_append, trimEndBy_eq_rdropWhile, List.rdropWhile, List.reverse_append,
      List.dropWhile_append_of_pos fun d hd => hafter d (List.mem_reverse.mp hd)]
    exact (trimEndBy_eq_rdropWhile p _).symm.trans (trimEndBy_of_forall hcore)

end Text
end Groundplan
