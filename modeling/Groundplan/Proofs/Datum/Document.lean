/-
Values that a text document can hold.

Besides what a document can be read into, `Datum` has source text of the configuration
language and values of foreign types, which only programs can build.  `isDocument`
leaves these out, and building entries from pairs does not bring them back.
-/
import Groundplan.Datum
import Mathlib.Data.List.Nodup

namespace Groundplan

namespace Datum

mutual
/-- Whether a value consists of what documents can hold. -/
def isDocument : Datum → Bool
  | .list items | .tuple items | .set items => areDocuments items
  | .mapping entries => entriesAreDocuments entries
  | .expr _ | .template _ | .call _ _ | .foreign _ => false
  | _ => true

def areDocuments : List Datum → Bool
  | [] => true
  | x :: xs => isDocument x && areDocuments xs

def entriesAreDocuments : List (Datum × Datum) → Bool
  | [] => true
  | (k, v) :: rest => isDocument k && isDocument v && entriesAreDocuments rest
end

theorem areDocuments_iff {xs : List Datum} :
    areDocuments xs = true ↔ ∀ x ∈ xs, x.isDocument = true := by
  induction xs with
  | nil => simp [areDocuments]
  | cons x xs ih => rw [areDocuments, Bool.and_eq_true, ih, List.forall_mem_cons]

theorem entriesAreDocuments_iff {es : List (Datum × Datum)} :
    entriesAreDocuments es = true ↔
      ∀ e ∈ es, e.1.isDocument = true ∧ e.2.isDocument = true := by
  induction es with
  | nil => simp [entriesAreDocuments]
  | cons e es ih =>
    rw [entriesAreDocuments, Bool.and_eq_true, Bool.and_eq_true, ih, List.forall_mem_cons]

theorem areDocuments_cons {x : Datum} {xs : List Datum} (hx : x.isDocument = true)
    (hxs : areDocuments xs = true) : areDocuments (x :: xs) = true := by
  rw [areDocuments, hx, hxs]
  rfl

theorem entriesAreDocuments_cons {k v : Datum} {es : List (Datum × Datum)}
    (hk : k.isDocument = true) (hv : v.isDocument = true) (hes : entriesAreDocuments es = true) :
    entriesAreDocuments ((k, v) :: es) = true := by
  rw [entriesAreDocuments, hk, hv, hes]
  rfl

theorem entriesAreDocuments_insertEntry {key value : Datum} {es : List (Datum × Datum)}
    (hkey : key.isDocument = true) (hvalue : value.isDocument = true)
    (h : entriesAreDocuments es = true) : entriesAreDocuments (insertEntry key value es) = true := by
  induction es with
  | nil => exact entriesAreDocuments_cons hkey hvalue rfl
  | cons e es ih =>
    obtain ⟨k, v⟩ := e
    rw [entriesAreDocuments, Bool.and_eq_true, Bool.and_eq_true] at h
    rw [insertEntry]
    split
    · exact entriesAreDocuments_cons h.1.1 hvalue h.2
    · exact entriesAreDocuments_cons h.1.1 h.1.2 (ih h.2)

theorem entriesAreDocuments_entriesOfPairs {pairs : List (Datum × Datum)}
    (h : entriesAreDocuments pairs = true) : entriesAreDocuments (entriesOfPairs pairs) = true := by
  -- The entries made so far come first in the induction, since the fold carries them along.
  suffices hfold : ∀ es, entriesAreDocuments es = true →
      entriesAreDocuments (pairs.foldl (fun entries p => insertEntry p.1 p.2 entries) es) = true from
    hfold [] rfl
  induction pairs with
  | nil => exact fun es hes => hes
  | cons p pairs ih =>
    rw [entriesAreDocuments, Bool.and_eq_true, Bool.and_eq_true] at h
    intro es hes
    exact ih h.2 _ (entriesAreDocuments_insertEntry h.1.1 h.1.2 hes)

theorem isDocument_ofPairs {pairs : List (Datum × Datum)} (h : entriesAreDocuments pairs = true) :
    (ofPairs pairs).isDocument = true := by
  rw [ofPairs, isDocument]
  exact entriesAreDocuments_entriesOfPairs h

theorem isDocument_setOf {items : List Datum} (h : areDocuments items = true) :
    (setOf items).isDocument = true := by
  rw [setOf, isDocument, areDocuments_iff]
  have hpairs : entriesAreDocuments (items.map fun x => (x, .null)) = true := by
    rw [entriesAreDocuments_iff]
    intro e he
    obtain ⟨x, hx, rfl⟩ := List.mem_map.mp he
    exact ⟨areDocuments_iff.mp h x hx, rfl⟩
  intro x hx
  obtain ⟨e, he, rfl⟩ := List.mem_map.mp hx
  exact (entriesAreDocuments_iff.mp (entriesAreDocuments_entriesOfPairs hpairs) e he).1

end Datum

namespace Entries

variable {α : Type}

/-! ## Named values -/

theorem mem_insert {name : String} {value : α} {es : List (String × α)} {e : String × α}
    (h : e ∈ insert name value es) : e = (name, value) ∨ e ∈ es := by
  induction es with
  | nil =>
    rw [insert, List.mem_singleton] at h
    exact .inl h
  | cons d es ih =>
    obtain ⟨n, v⟩ := d
    rw [insert] at h
    split at h
    · rename_i hn
      rw [hn] at h
      rcases List.mem_cons.mp h with h | h
      · exact .inl h
      · exact .inr (List.mem_cons_of_mem _ h)
    · rcases List.mem_cons.mp h with h | h
      · rw [h]
        exact .inr List.mem_cons_self
      · exact (ih h).imp id (List.mem_cons_of_mem _)

/-- A name that is there keeps its place, and a new one comes last. -/
theorem map_fst_insert (name : String) (value : α) (es : List (String × α)) :
    (insert name value es).map Prod.fst =
      if name ∈ es.map Prod.fst then es.map Prod.fst else es.map Prod.fst ++ [name] := by
  induction es with
  | nil => rfl
  | cons d es ih =>
    obtain ⟨n, v⟩ := d
    rw [insert]
    by_cases hn : n = name
    · rw [if_pos hn]
      simp [hn]
    · rw [if_neg hn, List.map_cons, ih]
      by_cases hm : name ∈ es.map Prod.fst
      · rw [if_pos hm, List.map_cons, if_pos (List.mem_cons_of_mem n hm)]
      · rw [if_neg hm, List.map_cons, if_neg fun h => (List.mem_cons.mp h).elim (Ne.symm hn) hm,
          List.cons_append]

theorem nodup_insert {name : String} {value : α} {es : List (String × α)}
    (h : (es.map Prod.fst).Nodup) : ((insert name value es).map Prod.fst).Nodup := by
  rw [map_fst_insert]
  split
  · exact h
  · rename_i hm
    exact List.nodup_append.mpr ⟨h, List.nodup_singleton name, fun a ha b hb hab => by
      rw [List.mem_singleton.mp hb] at hab
      exact hm (hab ▸ ha)⟩

theorem mem_ofPairs {pairs : List (String × α)} {e : String × α} (h : e ∈ ofPairs pairs) :
    e ∈ pairs := by
  suffices hfold : ∀ es, e ∈ pairs.foldl (fun entries p => insert p.1 p.2 entries) es →
      e ∈ es ∨ e ∈ pairs from (hfold [] h).resolve_left List.not_mem_nil
  clear h
  induction pairs with
  | nil => exact fun es hes => .inl hes
  | cons p pairs ih =>
    intro es hes
    rcases ih _ hes with h | h
    · rcases mem_insert h with rfl | h
      · exact .inr List.mem_cons_self
      · exact .inl h
    · exact .inr (List.mem_cons_of_mem p h)

theorem nodup_ofPairs (pairs : List (String × α)) : ((ofPairs pairs).map Prod.fst).Nodup := by
  suffices hfold : ∀ es : List (String × α), (es.map Prod.fst).Nodup →
      ((pairs.foldl (fun entries p => insert p.1 p.2 entries) es).map Prod.fst).Nodup from
    hfold [] List.nodup_nil
  induction pairs with
  | nil => exact fun es hes => hes
  | cons p pairs ih => exact fun es hes => ih _ (nodup_insert hes)

end Entries
end Groundplan
