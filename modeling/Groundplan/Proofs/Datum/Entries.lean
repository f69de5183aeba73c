/-
Entries that are built by setting names one after the other.

A name that is set again keeps its place and takes the new value.  Whatever is built in this
way is therefore known from two lists: the names in the order of their first use, and for each
name the value that it was given last.
-/
import Groundplan.Proofs.Datum.Document
import Mathlib.Data.List.Induction

namespace Groundplan
namespace Entries

variable {α : Type}

theorem lookup_insert (name key : String) (value : α) (es : List (String × α)) :
    (insert name value es).lookup key = if key = name then some value else es.lookup key := by
  induction es with
  | nil =>
    by_cases hk : key = name
    · rw [insert, List.lookup_cons, if_pos hk, beq_iff_eq.mpr hk]
    · rw [insert, List.lookup_cons, if_neg hk, beq_false_of_ne hk]
  | cons e es ih =>
    obtain ⟨n, v⟩ := e
    rw [insert, List.lookup_cons]
    by_cases hn : n = name
    · rw [if_pos hn, List.lookup_cons, hn]
      by_cases hk : key = name
      · rw [if_pos hk, beq_iff_eq.mpr hk]
      · rw [if_neg hk, beq_false_of_ne hk]
    · rw [if_neg hn, List.lookup_cons, ih]
      by_cases hk : key = n
      · have hkn : key ≠ name := fun h => hn (hk.symm.trans h)
        rw [beq_iff_eq.mpr hk, if_neg hkn, if_neg hkn]
      · rw [beq_false_of_ne hk]

/-- The last value that pairs give a name. -/
def last? (name : String) (pairs : List (String × α)) : Option α :=
  ((pairs.filter fun p => p.1 == name).getLast?).map Prod.snd

theorem last?_append (name : String) (a b : List (String × α)) :
    last? name (a ++ b) = (last? name b).or (last? name a) := by
  rw [last?, List.filter_append, List.getLast?_append, Option.map_or]
  rfl

theorem last?_singleton (name : String) (p : String × α) :
    last? name [p] = if name = p.1 then some p.2 else none := by
  rw [last?, List.filter_singleton]
  by_cases hname : name = p.1
  · rw [if_pos hname, beq_iff_eq.mpr hname.symm]
    rfl
  · rw [if_neg hname, beq_false_of_ne (Ne.symm hname)]
    rfl

/-- The value of a name is the last one that it was given. -/
theorem lookup_foldl_insert (name : String) (pairs es : List (String × α)) :
    (pairs.foldl (fun entries p => insert p.1 p.2 entries) es).lookup name =
      (last? name pairs).or (es.lookup name) := by
  induction pairs generalizing es with
  | nil => rfl
  | cons p pairs ih =>
    rw [List.foldl_cons, ih, lookup_insert, ← List.singleton_append, last?_append, Option.or_assoc,
      last?_singleton]
    split <;> rfl

theorem eraseDups_concat (names : List String) (name : String) :
    (names ++ [name]).eraseDups =
      if name ∈ names then names.eraseDups else names.eraseDups ++ [name] := by
  rw [List.eraseDups_append]
  by_cases hname : name ∈ names
  · rw [if_pos hname]
    simp [List.removeAll, hname]
  · rw [if_neg hname]
    simp [List.removeAll, hname, List.eraseDups_cons]

/-- The names stand in the order in which they were first given. -/
theorem keys_ofPairs (pairs : List (String × α)) :
    (ofPairs pairs).map Prod.fst = (pairs.map Prod.fst).eraseDups := by
  induction pairs using List.reverseRecOn with
  | nil => rfl
  | append_singleton pairs p ih =>
    rw [ofPairs, List.foldl_append]
    show (insert p.1 p.2 (ofPairs pairs)).map Prod.fst = _
    rw [map_fst_insert, ih, List.map_append, List.map_singleton, eraseDups_concat]
    simp only [List.mem_eraseDups]

theorem lookup_of_mem {es : List (String × α)} (h : (es.map Prod.fst).Nodup) {name : String}
    {value : α} (hmem : (name, value) ∈ es) : es.lookup name = some value := by
  obtain ⟨before, after, rfl⟩ := List.append_of_mem hmem
  refine List.lookup_eq_some_iff.mpr
    ⟨before, after, rfl, fun p hp => bne_iff_ne.mpr fun hname => ?_⟩
  rw [List.map_append, List.map_cons, List.nodup_append] at h
  exact h.2.2 p.1 (List.mem_map_of_mem hp) name List.mem_cons_self hname.symm

/-- Entries with distinct names are known from their names and the values of these. -/
theorem eq_filterMap_lookup {es : List (String × α)} (h : (es.map Prod.fst).Nodup) :
    es = (es.map Prod.fst).filterMap fun n => (es.lookup n).map fun v => (n, v) := by
  induction es with
  | nil => rfl
  | cons e es ih =>
    obtain ⟨n, v⟩ := e
    rw [List.map_cons, List.nodup_cons] at h
    have hrest : ∀ m ∈ es.map Prod.fst, List.lookup m ((n, v) :: es) = es.lookup m := by
      intro m hm
      have hne : m ≠ n := fun hmn => h.1 (hmn ▸ hm)
      rw [List.lookup_cons, beq_false_of_ne hne]
    rw [List.map_cons, List.filterMap_cons, List.lookup_cons, BEq.rfl]
    refine congrArg ((n, v) :: ·) ((ih h.2).trans ?_)
    exact List.filterMap_congr fun m hm => by rw [hrest m hm]

/-- Pairs of one name share the place of the first of them, with the value of the last. -/
theorem ofPairs_eq (pairs : List (String × α)) :
    ofPairs pairs =
      (pairs.map Prod.fst).eraseDups.filterMap fun n => (last? n pairs).map fun v => (n, v) := by
  have hlookup : ∀ n, (ofPairs pairs).lookup n = last? n pairs := by
    intro n
    rw [ofPairs, lookup_foldl_insert, List.lookup_nil, Option.or_none]
  have h := eq_filterMap_lookup (nodup_ofPairs pairs)
  rw [keys_ofPairs] at h
  simpa only [hlookup] using h

end Entries

namespace Datum

theorem sameKey_text_iff {key : Datum} {name : String} :
    sameKey key (.text name) = true ↔ key = .text name := by
  cases key <;> simp [sameKey, asInt?]

end Datum
end Groundplan
