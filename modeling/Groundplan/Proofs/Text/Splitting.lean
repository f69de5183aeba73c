/-
Splitting a text at a separator.

A text is split piece by piece from the left, so its pieces are found by taking it apart
at the first separator.  They can also be told without splitting: they have no separator in
them and give the text when they are joined.  In the same way the beginning of a text that
is out of one class of characters is told by the class alone.
-/
import Groundplan.Text.Lines

namespace Groundplan
namespace Text

theorem splitOn_ne_nil (c : Char) (cs : List Char) : splitOn c cs ≠ [] := by
  cases cs with
  | nil => simp [splitOn]
  | cons d rest =>
    rw [splitOn]
    split
    · simp
    · split <;> simp

theorem splitOn_append_cons (c : Char) (a b : List Char) :
    splitOn c (a ++ c :: b) = splitOn c a ++ splitOn c b := by
  induction a with
  | nil => simp [splitOn]
  | cons d a ih =>
    rw [List.cons_append, splitOn, splitOn, ih]
    by_cases hd : d = c
    · rw [if_pos hd, if_pos hd, List.cons_append]
    · rw [if_neg hd, if_neg hd]
      cases h : splitOn c a with
      | nil => exact absurd h (splitOn_ne_nil c a)
      | cons piece pieces => rfl

theorem splitOn_of_not_mem {c : Char} {cs : List Char} (h : c ∉ cs) : splitOn c cs = [cs] := by
  induction cs with
  | nil => rfl
  | cons d rest ih =>
    rw [List.mem_cons, not_or] at h
    rw [splitOn, if_neg (Ne.symm h.1), ih h.2]

theorem not_mem_of_mem_splitOn {c : Char} {cs piece : List Char} (h : piece ∈ splitOn c cs) :
    c ∉ piece := by
  induction cs generalizing piece with
  | nil =>
    rw [List.mem_singleton.mp h]
    exact List.not_mem_nil
  | cons d rest ih =>
    rw [splitOn] at h
    split at h
    · rcases List.mem_cons.mp h with rfl | h
      · exact List.not_mem_nil
      · exact ih h
    · rename_i hd
      cases hrest : splitOn c rest with
      | nil => exact absurd hrest (splitOn_ne_nil c rest)
      | cons first pieces =>
        rw [hrest] at h ih
        rcases List.mem_cons.mp h with rfl | h
        · rw [List.mem_cons, not_or]
          exact ⟨Ne.symm hd, ih List.mem_cons_self⟩
        · exact ih (List.mem_cons_of_mem _ h)

theorem intercalate_splitOn (c : Char) (cs : List Char) : [c].intercalate (splitOn c cs) = cs := by
  induction cs with
  | nil => rfl
  | cons d rest ih =>
    rw [splitOn]
    cases hrest : splitOn c rest with
    | nil => exact absurd hrest (splitOn_ne_nil c rest)
    | cons first pieces =>
      rw [hrest] at ih
      split
      · rename_i hd
        rw [List.intercalate_cons_cons, ih, hd]
        rfl
      · cases pieces with
        | nil => rw [← ih, List.intercalate_singleton, List.intercalate_singleton]
        | cons second pieces =>
          rw [← ih, List.intercalate_cons_cons, List.intercalate_cons_cons]
          rfl

theorem splitOn_intercalate {c : Char} {pieces : List (List Char)} (hne : pieces ≠ [])
    (h : ∀ piece ∈ pieces, c ∉ piece) : splitOn c ([c].intercalate pieces) = pieces := by
  induction pieces with
  | nil => exact absurd rfl hne
  | cons first pieces ih =>
    have hfirst := splitOn_of_not_mem (h first List.mem_cons_self)
    cases pieces with
    | nil => rw [List.intercalate_singleton, hfirst]
    | cons second pieces =>
      rw [List.intercalate_cons_cons, List.append_assoc, List.singleton_append, splitOn_append_cons,
        hfirst, ih (List.cons_ne_nil _ _) fun piece hpiece => h piece (List.mem_cons_of_mem _ hpiece)]
      rfl

/-- A text has the given pieces if it is them with separators in between. -/
theorem splitOn_eq_iff {c : Char} {cs : List Char} {pieces : List (List Char)} :
    splitOn c cs = pieces ↔
      pieces ≠ [] ∧ (∀ piece ∈ pieces, c ∉ piece) ∧ cs = [c].intercalate pieces := by
  constructor
  · rintro rfl
    exact ⟨splitOn_ne_nil c cs, fun _ => not_mem_of_mem_splitOn, (intercalate_splitOn c cs).symm⟩
  · rintro ⟨hne, hpieces, rfl⟩
    exact splitOn_intercalate hne hpieces

/-! ## Beginnings out of a class -/

/-- Two beginnings out of one class are the same if it ends behind both. -/
theorem append_inj_of_class {p : Char → Bool} {a b r s : List Char} (h : a ++ r = b ++ s)
    (ha : ∀ c ∈ a, p c = true) (hb : ∀ c ∈ b, p c = true) (hr : ∀ c ∈ r.head?, p c = false)
    (hs : ∀ c ∈ s.head?, p c = false) : a = b ∧ r = s := by
  induction a generalizing b with
  | nil =>
    cases b with
    | nil => exact ⟨rfl, h⟩
    | cons d b =>
      have hd := hb d List.mem_cons_self
      rw [List.nil_append] at h
      rw [h] at hr
      exact absurd ((hr d rfl).symm.trans hd) Bool.false_ne_true
  | cons c a ih =>
    cases b with
    | nil =>
      have hc := ha c List.mem_cons_self
      rw [List.nil_append] at h
      rw [← h] at hs
      exact absurd ((hs c rfl).symm.trans hc) Bool.false_ne_true
    | cons d b =>
      obtain ⟨rfl, htail⟩ := List.cons.inj h
      obtain ⟨rfl, hrest⟩ := ih htail (fun e he => ha e (List.mem_cons_of_mem c he))
        fun e he => hb e (List.mem_cons_of_mem c he)
      exact ⟨rfl, hrest⟩

theorem append_cons_inj_of_class {p : Char → Bool} {a b r s : List Char} {c d : Char}
    (h : a ++ c :: r = b ++ d :: s) (ha : ∀ e ∈ a, p e = true) (hb : ∀ e ∈ b, p e = true)
    (hc : p c = false) (hd : p d = false) : a = b ∧ c = d ∧ r = s := by
  obtain ⟨hab, hrest⟩ := append_inj_of_class h ha hb (by simpa using hc) (by simpa using hd)
  exact ⟨hab, List.cons.inj hrest⟩

end Text
end Groundplan
