/-
What a document writes raw.

Texts, keys and labels are written as quoted literals.  Source text inside values, names
of attributes and types of blocks are written as they are, and so every property of a
generated text that does not hold for all documents comes down to a property of these.
`allRaw p` says that all of them have the property `p`.
-/
import Groundplan.Module.Basic
import Groundplan.Proofs.Datum.Document

namespace Groundplan
namespace Hcl

mutual
/-- Whether all source text inside a value has a property. -/
def Value.allRaw (p : String → Bool) : Value → Bool
  | .expr source => p source
  | .call name args => p name && Value.allRawList p args
  | .list items => Value.allRawList p items
  | .object entries => Value.allRawEntries p entries
  | _ => true

def Value.allRawList (p : String → Bool) : List Value → Bool
  | [] => true
  | v :: vs => v.allRaw p && Value.allRawList p vs

def Value.allRawEntries (p : String → Bool) : List (String × Value) → Bool
  | [] => true
  | (_, v) :: rest => v.allRaw p && Value.allRawEntries p rest
end

mutual
/-- Whether all that an item has written raw has a property. -/
def Item.allRaw (p : String → Bool) : Item → Bool
  | .attribute name value => p name && value.allRaw p
  | .block type _ body => p type && Item.allRawList p body
  | .comment _ => true
  | .blank => true

def Item.allRawList (p : String → Bool) : List Item → Bool
  | [] => true
  | item :: rest => item.allRaw p && Item.allRawList p rest
end

variable {p : String → Bool}

/-! ## Weaker properties -/

mutual
theorem allRaw_mono {q : String → Bool} (hpq : ∀ s, p s = true → q s = true) :
    ∀ {v : Value}, v.allRaw p = true → v.allRaw q = true
  | .null, _ | .bool _, _ | .int _, _ | .float _, _ | .text _, _ | .template _, _ => rfl
  | .foreign _, _ => rfl
  | .expr source, h => hpq source h
  | .call name args, h => by
    rw [Value.allRaw, Bool.and_eq_true] at h ⊢
    exact ⟨hpq name h.1, allRawList_mono hpq h.2⟩
  | .list _, h => allRawList_mono hpq h
  | .object _, h => allRawEntries_mono hpq h

theorem allRawList_mono {q : String → Bool} (hpq : ∀ s, p s = true → q s = true) :
    ∀ {vs : List Value}, Value.allRawList p vs = true → Value.allRawList q vs = true
  | [], _ => rfl
  | v :: vs, h => by
    rw [Value.allRawList, Bool.and_eq_true] at h ⊢
    exact ⟨allRaw_mono hpq h.1, allRawList_mono hpq h.2⟩

theorem allRawEntries_mono {q : String → Bool} (hpq : ∀ s, p s = true → q s = true) :
    ∀ {es : List (String × Value)}, Value.allRawEntries p es = true → Value.allRawEntries q es = true
  | [], _ => rfl
  | (k, v) :: rest, h => by
    rw [Value.allRawEntries, Bool.and_eq_true] at h ⊢
    exact ⟨allRaw_mono hpq h.1, allRawEntries_mono hpq h.2⟩
end

mutual
theorem Item.allRaw_mono {q : String → Bool} (hpq : ∀ s, p s = true → q s = true) :
    ∀ {i : Item}, i.allRaw p = true → i.allRaw q = true
  | .attribute name value, h => by
    rw [Item.allRaw, Bool.and_eq_true] at h ⊢
    exact ⟨hpq name h.1, Hcl.allRaw_mono hpq h.2⟩
  | .block type labels body, h => by
    rw [Item.allRaw, Bool.and_eq_true] at h ⊢
    exact ⟨hpq type h.1, Item.allRawList_mono hpq h.2⟩
  | .comment _, _ | .blank, _ => rfl

theorem Item.allRawList_mono {q : String → Bool} (hpq : ∀ s, p s = true → q s = true) :
    ∀ {items : List Item}, Item.allRawList p items = true → Item.allRawList q items = true
  | [], _ => rfl
  | i :: items, h => by
    rw [Item.allRawList, Bool.and_eq_true] at h ⊢
    exact ⟨Item.allRaw_mono hpq h.1, Item.allRawList_mono hpq h.2⟩
end

/-! ## Document values -/

mutual
/-- A document value brings no source text with it. -/
theorem allRaw_ofDatum : ∀ {d : Datum}, d.isDocument = true → (Value.ofDatum d).allRaw p = true
  | .null, _ | .bool _, _ | .int _, _ | .float _, _ | .text _, _ => rfl
  | .bytes _, _ | .date _, _ | .dateTime _, _ | .set _, _ => rfl
  | .list _, h => allRawList_ofData h
  | .tuple _, h => allRawList_ofData h
  | .mapping _, h => allRawEntries_ofDatumEntries h
  | .expr _, h | .template _, h | .call _ _, h | .foreign _, h => by cases h

theorem allRawList_ofData : ∀ {ds : List Datum}, Datum.areDocuments ds = true →
    Value.allRawList p (Value.ofData ds) = true
  | [], _ => rfl
  | d :: ds, h => by
    rw [Datum.areDocuments, Bool.and_eq_true] at h
    rw [Value.ofData, Value.allRawList, allRaw_ofDatum h.1, allRawList_ofData h.2]
    rfl

theorem allRawEntries_ofDatumEntries : ∀ {es : List (Datum × Datum)},
    Datum.entriesAreDocuments es = true →
      Value.allRawEntries p (Value.ofDatumEntries es) = true
  | [], _ => rfl
  | (k, v) :: rest, h => by
    rw [Datum.entriesAreDocuments, Bool.and_eq_true, Bool.and_eq_true] at h
    rw [Value.ofDatumEntries, Value.allRawEntries, allRaw_ofDatum h.1.2,
      allRawEntries_ofDatumEntries h.2]
    rfl
end

theorem allRaw_ofEntries {es : Entries} (h : ∀ e ∈ es, e.2.isDocument = true) :
    (Value.ofEntries es).allRaw p = true := by
  rw [Value.ofEntries, Value.allRaw]
  induction es with
  | nil => rfl
  | cons e es ih =>
    rw [List.map_cons, Value.allRawEntries, allRaw_ofDatum (h e List.mem_cons_self),
      ih fun d hd => h d (List.mem_cons_of_mem e hd)]
    rfl

/-! ## Putting items together -/

theorem allRaw_texts {α : Type} (f : α → String) (xs : List α) :
    (Value.list (xs.map fun x => .text (f x))).allRaw p = true := by
  rw [Value.allRaw]
  induction xs with
  | nil => rfl
  | cons x xs ih =>
    rw [List.map_cons, Value.allRawList, ih]
    rfl

theorem allRaw_ref {name : String} (h : p name = true) : (ref name).allRaw p = true := by
  rw [ref, Value.allRaw, h]

theorem allRaw_attribute {name : String} {value : Value} (hname : p name = true)
    (hvalue : value.allRaw p = true) : (Item.attribute name value).allRaw p = true := by
  rw [Item.allRaw, hname, hvalue]
  rfl

theorem allRaw_block {type : String} {labels : List String} {body : List Item}
    (htype : p type = true) (hbody : Item.allRawList p body = true) :
    (Item.block type labels body).allRaw p = true := by
  rw [Item.allRaw, htype, hbody]
  rfl

theorem allRawList_iff {items : List Item} :
    Item.allRawList p items = true ↔ ∀ i ∈ items, i.allRaw p = true := by
  induction items with
  | nil => simp [Item.allRawList]
  | cons i items ih => rw [Item.allRawList, Bool.and_eq_true, ih, List.forall_mem_cons]

theorem allRawList_cons {i : Item} {items : List Item} (hi : i.allRaw p = true)
    (hitems : Item.allRawList p items = true) : Item.allRawList p (i :: items) = true := by
  rw [Item.allRawList, hi, hitems]
  rfl

theorem allRawList_append {a b : List Item} (ha : Item.allRawList p a = true)
    (hb : Item.allRawList p b = true) : Item.allRawList p (a ++ b) = true :=
  allRawList_iff.mpr (List.forall_mem_append.mpr ⟨allRawList_iff.mp ha, allRawList_iff.mp hb⟩)

theorem allRawList_attributes {attrs : List Attribute}
    (h : ∀ a ∈ attrs, a.toItem.allRaw p = true) :
    Item.allRawList p (attrs.map Attribute.toItem) = true := by
  rw [allRawList_iff]
  intro i hi
  obtain ⟨a, ha, rfl⟩ := List.mem_map.mp hi
  exact h a ha

/-- The attributes that wait for their column, with one more of them. -/
theorem forall_mem_pending {run : List Attribute} {name : String} {value : Value}
    (hrun : ∀ a ∈ run, a.toItem.allRaw p = true)
    (h : (Item.attribute name value).allRaw p = true) :
    ∀ a ∈ run ++ [⟨name, value⟩], a.toItem.allRaw p = true := by
  intro a ha
  rcases List.mem_append.mp ha with ha | ha
  · exact hrun a ha
  · rw [List.mem_singleton.mp ha]
    exact h

end Hcl
end Groundplan
