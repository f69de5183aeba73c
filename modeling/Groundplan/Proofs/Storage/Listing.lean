/-
What a directory lists.

A disk is a list of entries, and a directory lists those that are right below it, sorted by
name.  If no location is entered twice, these are the entries that are found by location,
each of them once.  Entries are only ever put in the place of others, so this stays so.
-/
import Groundplan.Proofs.Storage.Frame
import Mathlib.Data.List.Nodup
import Mathlib.Data.String.Basic

namespace Groundplan
namespace Storage
namespace Disk

variable {d d' : Disk} {l : Location}

/-- No location is entered twice. -/
def IsProper (d : Disk) : Prop := d.entries.Pairwise fun a b => a.1 ≠ b.1

/-! ## Operations -/

theorem IsProper.put (h : d.IsProper) (l : Location) (e : Entry) : (d.put l e).IsProper := by
  refine List.pairwise_cons.mpr ⟨fun b hb => ?_, h.filter _⟩
  exact Ne.symm (bne_iff_ne.mp (List.mem_filter.mp hb).2)

theorem IsProper.writeText {p : Path} {text : String} (h : d.IsProper)
    (hwrite : d.writeText p text = .ok d') : d'.IsProper := by
  obtain ⟨l, -, -, rfl⟩ := writeText_ok hwrite
  exact h.put l _

theorem IsProper.makeDirectory {p : Path} (h : d.IsProper) (hmake : d.makeDirectory p = .ok d') :
    d'.IsProper := by
  obtain ⟨l, -, hmake⟩ := ok_of_bind hmake
  split at hmake
  · cases hmake
  · cases hmake
    exact h.put l _

theorem IsProper.settle (h : d.IsProper) (p : Path) : (d.settle p (d.ensureDirectory p)).1.IsProper := by
  cases hensure : d.ensureDirectory p with
  | error e => exact h
  | ok d' =>
    rw [ensureDirectory] at hensure
    split at hensure
    · rename_i hmake
      cases hensure
      exact h.makeDirectory hmake
    · split at hensure
      · cases hensure
        exact h
      · cases hensure

theorem IsProper.makeDirectoriesFrom (h : d.IsProper) (anchor : String) (parts : List String) :
    (d.makeDirectoriesFrom anchor parts).1.IsProper := by
  induction parts with
  | nil => exact h.settle _
  | cons part above ih =>
    rw [Disk.makeDirectoriesFrom]
    split
    · split
      · rename_i habove
        rw [habove] at ih
        exact ih.settle _
      · exact ih
    · exact h.settle _

theorem IsProper.makeDirectories (h : d.IsProper) (p : Path) : (d.makeDirectories p).1.IsProper :=
  h.makeDirectoriesFrom p.anchor p.parts.reverse

/-! ## Listing -/

theorem mem_entries_iff (h : d.IsProper) {k : Location} {e : Entry} :
    (k, e) ∈ d.entries ↔ d.entries.lookup k = some e := by
  rw [IsProper] at h
  generalize d.entries = entries at h
  induction entries with
  | nil => simp
  | cons first entries ih =>
    obtain ⟨hfirst, hrest⟩ := List.pairwise_cons.mp h
    obtain ⟨k', e'⟩ := first
    rw [List.mem_cons, List.lookup_cons, ih hrest]
    by_cases hk : k = k'
    · subst hk
      have hnone : entries.lookup k = none := by
        refine List.lookup_eq_none_iff.mpr fun b hb => bne_iff_ne.mpr ?_
        exact hfirst b hb
      simp [hnone, eq_comm]
    · simp [hk, beq_false_of_ne hk]

/-- A name below a directory. -/
theorem child_iff {k : Location} {name : String} :
    (k.length = l.length + 1 ∧ l <+: k) ∧ k.getLastD "" = name ↔ k = l ++ [name] := by
  constructor
  · rintro ⟨⟨hlength, rest, rfl⟩, hname⟩
    rw [List.length_append, Nat.add_left_cancel_iff] at hlength
    obtain ⟨last, rfl⟩ := List.length_eq_one_iff.mp hlength
    rw [List.getLastD_concat] at hname
    rw [hname]
  · rintro rfl
    exact ⟨⟨List.length_append, List.prefix_append _ _⟩, List.getLastD_concat⟩

/-- What an entry is listed as. -/
theorem child_of_entry {k : Location} {e : Entry} {child : String × Entry} :
    (if k.length = l.length + 1 && l.isPrefixOf k then some (k.getLastD "", e) else none) = some child ↔
      k = l ++ [child.1] ∧ e = child.2 := by
  obtain ⟨name, entry⟩ := child
  rw [← child_iff (l := l), Option.ite_none_right_eq_some, Bool.and_eq_true, decide_eq_true_eq,
    List.isPrefixOf_iff_prefix, Option.some.injEq, Prod.mk.injEq]
  exact and_assoc.symm

theorem mem_children (h : d.IsProper) {name : String} {e : Entry} :
    (name, e) ∈ d.children l ↔ d.entry? (l ++ [name]) = some e := by
  rw [entry?_of_ne_nil d (List.append_ne_nil_of_right_ne_nil _ (List.cons_ne_nil _ _)),
    ← mem_entries_iff h, children]
  dsimp only
  rw [List.mem_mergeSort, List.mem_filterMap]
  constructor
  · rintro ⟨⟨k, e'⟩, hmem, hchild⟩
    obtain ⟨hk, he⟩ := child_of_entry.mp hchild
    dsimp only at hk he
    rwa [hk, he] at hmem
  · intro hmem
    exact ⟨_, hmem, child_of_entry.mpr ⟨rfl, rfl⟩⟩

theorem nameLe_iff {a b : String} : nameLe a b = true ↔ a ≤ b := by
  rw [nameLe, Bool.or_eq_true, decide_eq_true_eq, beq_iff_eq, le_iff_lt_or_eq]

/-- Each name is listed once, in increasing order. -/
theorem pairwise_children (h : d.IsProper) (l : Location) :
    (d.children l).Pairwise fun a b => a.1 < b.1 := by
  have hsorted : (d.children l).Pairwise fun a b => nameLe a.1 b.1 = true := by
    refine List.pairwise_mergeSort (fun a b c hab hbc => ?_) (fun a b => ?_) _
    · exact nameLe_iff.mpr ((nameLe_iff.mp hab).trans (nameLe_iff.mp hbc))
    · rw [Bool.or_eq_true, nameLe_iff, nameLe_iff]
      exact le_total a.1 b.1
  have hdistinct : (d.children l).Pairwise fun a b => a.1 ≠ b.1 := by
    refine ((List.mergeSort_perm _ _).pairwise_iff fun hab => Ne.symm hab).mpr ?_
    refine List.pairwise_filterMap.mpr (h.imp fun hne a ha b hb hab => hne ?_)
    rw [(child_of_entry.mp ha).1, (child_of_entry.mp hb).1, hab]
  exact (hsorted.and hdistinct).imp fun hab => lt_of_le_of_ne (nameLe_iff.mp hab.1) hab.2

end Disk
end Storage
end Groundplan
