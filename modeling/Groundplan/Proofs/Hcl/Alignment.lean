/-
Alignment of attributes.

Neighbouring attributes that fit on one row have their equals signs in one column, and an
attribute of several rows has nobody to be aligned with.  Where a group starts and ends is
told here by the attributes on both sides of it and not by the way the list is cut.  The
column is the number of characters in front of the sign, which is the column on its row
unless a name has a newline in it.
-/
import Groundplan.Proofs.Hcl.Places
import Groundplan.Proofs.Hcl.Renderable
import Groundplan.Proofs.Hcl.Wrapping
import Mathlib.Data.List.DropRight

namespace Groundplan
namespace Hcl

/-! ## Widths -/

theorem maxLength_eq_max? (names : List String) :
    maxLength names = (names.map String.length).max?.getD 0 := by
  rw [maxLength, List.foldl_max, Nat.zero_max]

theorem length_le_maxLength {names : List String} {name : String} (h : name ∈ names) :
    name.length ≤ maxLength names := by
  rw [maxLength_eq_max?]
  exact List.le_max?_getD_of_mem (List.mem_map_of_mem h)

theorem exists_length_eq_maxLength {names : List String} (h : names ≠ []) :
    ∃ name ∈ names, name.length = maxLength names := by
  rw [maxLength_eq_max?]
  cases hmax : (names.map String.length).max? with
  | none => exact absurd (List.map_eq_nil_iff.mp (List.max?_eq_none_iff.mp hmax)) h
  | some width => exact List.mem_map.mp (List.max?_mem hmax)

/-! ## Groups -/

theorem isMultiLine_iff {text : String} : isMultiLine text = true ↔ '\n' ∈ text.toList := by
  rw [isMultiLine, List.contains_eq_mem, decide_eq_true_iff]

/-- A group of neighbouring attributes on one row each, which cannot be made longer. -/
structure IsGroup (front group back : List (String × String)) : Prop where
  ne_nil : group ≠ []
  rows : ∀ a ∈ group, '\n' ∉ a.2.toList
  start : ∀ a ∈ front.getLast?, '\n' ∈ a.2.toList
  stop : ∀ a ∈ back.head?, '\n' ∈ a.2.toList

/-- Two neighbours of which one has several rows. -/
def IsBorder (front back : List (String × String)) : Prop :=
  ∀ a ∈ front.getLast?, ∀ b ∈ back.head?, '\n' ∈ a.2.toList ∨ '\n' ∈ b.2.toList

/-- Nothing is aligned across a border. -/
theorem attributeLines_append {front back : List (String × String)} (h : IsBorder front back)
    (level : Int) :
    attributeLines level (front ++ back) = attributeLines level front ++ attributeLines level back := by
  rw [attributeLines, List.splitBy_append, List.flatMap_append]
  · rfl
  · intro a ha b hb
    rw [Bool.and_eq_false_iff, Bool.not_eq_false', Bool.not_eq_false', isMultiLine_iff,
      isMultiLine_iff]
    exact h a ha b hb

theorem length_attributeLines (level : Int) (attrs : List (String × String)) :
    (attributeLines level attrs).length = attrs.length :=
  (forall₂_attributeLines level attrs).length_eq.symm

/-- Attributes between two borders have entries of their own. -/
theorem attributeLines_between {front group back : List (String × String)}
    (hstart : IsBorder front (group ++ back)) (hstop : IsBorder group back) (level : Int) :
    attributeLines level (front ++ (group ++ back)) =
      attributeLines level front ++ (attributeLines level group ++ attributeLines level back) := by
  rw [attributeLines_append hstart, attributeLines_append hstop]

theorem IsGroup.border_start {front group back : List (String × String)}
    (h : IsGroup front group back) : IsBorder front (group ++ back) :=
  fun a ha _ _ => .inl (h.start a ha)

theorem IsGroup.border_stop {front group back : List (String × String)}
    (h : IsGroup front group back) : IsBorder group back :=
  fun _ _ b hb => .inr (h.stop b hb)

def isOneRow (a : String × String) : Bool := !isMultiLine a.2

theorem isOneRow_iff {a : String × String} : isOneRow a = true ↔ '\n' ∉ a.2.toList := by
  rw [isOneRow, Bool.not_eq_true', ← Bool.not_eq_true, isMultiLine_iff]

/-- Every attribute on one row is in a group. -/
theorem exists_isGroup {a : String × String} (ha : '\n' ∉ a.2.toList)
    (front back : List (String × String)) :
    ∃ before left right after, front = before ++ left ∧ back = right ++ after ∧
      IsGroup before (left ++ a :: right) after := by
  refine ⟨front.rdropWhile isOneRow, front.rtakeWhile isOneRow, back.takeWhile isOneRow,
    back.dropWhile isOneRow, List.rdropWhile_append_rtakeWhile.symm,
    List.takeWhile_append_dropWhile.symm, List.append_ne_nil_of_right_ne_nil _ (List.cons_ne_nil _ _),
    ?_, ?_, ?_⟩
  · intro b hb
    rcases List.mem_append.mp hb with hb | hb
    · exact isOneRow_iff.mp (List.mem_rtakeWhile_imp hb)
    · rcases List.mem_cons.mp hb with rfl | hb
      · exact ha
      · exact isOneRow_iff.mp (List.mem_takeWhile_imp hb)
  · intro b hb
    obtain ⟨hne, rfl⟩ := List.mem_getLast?_eq_getLast hb
    exact not_not.mp (mt isOneRow_iff.mpr (List.rdropWhile_last_not isOneRow front hne))
  · intro b hb
    have hhead := List.head?_dropWhile_not isOneRow back
    rw [Option.mem_def.mp hb] at hhead
    exact not_not.mp (mt isOneRow_iff.mpr (ne_true_of_eq_false hhead))

/-! ## Columns -/

/-- What stands in front of the equals sign if `n` spaces are put behind the name. -/
def entryFront (level : Int) (name : String) (n : Nat) : List Char :=
  spaces (2 * level).toNat ++ (name.toList ++ (spaces n ++ [' ']))

theorem length_entryFront (level : Int) (name : String) (n : Nat) :
    (entryFront level name n).length = (2 * level).toNat + (name.length + (n + 1)) := by
  simp [entryFront, spaces, String.length_toList]

theorem newline_not_mem_entryFront {name : String} (h : '\n' ∉ name.toList) (level : Int) (n : Nat) :
    '\n' ∉ entryFront level name n := by
  simp [entryFront, spaces, h]

/-- The entries of a group.  A name has spaces behind it up to the longest name, so the equals
sign has the same number of characters in front of it in all entries, and no number below that
can be had in all of them. -/
structure IsAlignedGroup (level : Int) (group : List (String × String)) (entries : List String)
    (width column : Nat) : Prop where
  longest : (∀ a ∈ group, a.1.length ≤ width) ∧ ∃ a ∈ group, a.1.length = width
  padded : List.Forall₂ (fun a entry => entry.toList =
    entryFront level a.1 (width - a.1.length) ++ '=' :: ' ' :: a.2.toList) group entries
  sameColumn : ∀ a ∈ group, (entryFront level a.1 (width - a.1.length)).length = column
  row : ∀ a ∈ group, '\n' ∉ a.1.toList → '\n' ∉ entryFront level a.1 (width - a.1.length)
  least : ∀ c, (∀ a ∈ group, ∃ n, (entryFront level a.1 n).length = c) → column ≤ c

theorem toList_alignedLine (level : Int) (width : Nat) (a : String × String) :
    (indent level ++ padName width a.1 ++ " = " ++ a.2).toList =
      entryFront level a.1 (width - a.1.length) ++ '=' :: ' ' :: a.2.toList := by
  simp only [entryFront, String.toList_append, toList_indent, toList_padName, List.append_assoc]
  rfl

theorem isAlignedGroup_alignedLines {group : List (String × String)} (hne : group ≠ [])
    (level : Int) :
    ∃ width column, IsAlignedGroup level group (alignedLines level group) width column := by
  have hle : ∀ a ∈ group, a.1.length ≤ maxLength (group.map Prod.fst) := fun a ha =>
    length_le_maxLength (List.mem_map_of_mem ha)
  obtain ⟨longest, hlongest, hwidth⟩ : ∃ a ∈ group, a.1.length = maxLength (group.map Prod.fst) := by
    obtain ⟨name, hname, hlength⟩ :=
      exists_length_eq_maxLength (mt List.map_eq_nil_iff.mp hne : group.map Prod.fst ≠ [])
    obtain ⟨a, ha, rfl⟩ := List.mem_map.mp hname
    exact ⟨a, ha, hlength⟩
  refine ⟨maxLength (group.map Prod.fst),
    (2 * level).toNat + (maxLength (group.map Prod.fst) + 1), ⟨hle, longest, hlongest, hwidth⟩,
    ?_, ?_, fun a _ h => newline_not_mem_entryFront h level _, ?_⟩
  · rw [alignedLines, List.forall₂_map_right_iff, List.forall₂_same]
    exact fun a _ => toList_alignedLine level _ a
  · intro a ha
    have := hle a ha
    rw [length_entryFront]
    omega
  · -- The longest name alone needs this much.
    intro c hc
    obtain ⟨n, hn⟩ := hc longest hlongest
    rw [length_entryFront] at hn
    omega

/-! ## Runs of attributes -/

/-- The entries of a run of attributes, one for each and in their order. -/
structure IsAligned (level : Int) (attrs : List (String × String)) (entries : List String) :
    Prop where
  each : List.Forall₂ (IsAttributeLine level) attrs entries
  alone : ∀ front name text back, attrs = front ++ (name, text) :: back → '\n' ∈ text.toList →
    entries[front.length]? = some (indent level ++ name ++ " = " ++ text)
  aligned : ∀ front group back, attrs = front ++ (group ++ back) → IsGroup front group back →
    ∃ before own after width column, entries = before ++ (own ++ after) ∧
      before.length = front.length ∧ IsAlignedGroup level group own width column
  covered : ∀ front a back, attrs = front ++ a :: back → '\n' ∉ a.2.toList →
    ∃ before left right after, front = before ++ left ∧ back = right ++ after ∧
      IsGroup before (left ++ a :: right) after

theorem isAligned_attributeLines (level : Int) (attrs : List (String × String)) :
    IsAligned level attrs (attributeLines level attrs) where
  each := forall₂_attributeLines level attrs
  alone := by
    rintro front name text back rfl htext
    have hstart : IsBorder front ([(name, text)] ++ back) := by
      intro a _ b hb
      cases hb
      exact .inr htext
    have hstop : IsBorder [(name, text)] back := by
      intro a ha b _
      cases ha
      exact .inl htext
    have hlines := attributeLines_between hstart hstop level
    rw [Rows.attributeLines_singleton] at hlines
    rw [← List.singleton_append, hlines, List.getElem?_append_right (by rw [length_attributeLines]),
      length_attributeLines, Nat.sub_self]
    rfl
  aligned := by
    rintro front group back rfl h
    obtain ⟨width, column, hgroup⟩ := isAlignedGroup_alignedLines h.ne_nil level
    refine ⟨attributeLines level front, alignedLines level group, attributeLines level back, width,
      column, ?_, length_attributeLines level front, hgroup⟩
    rw [attributeLines_between h.border_start h.border_stop,
      Rows.attributeLines_of_oneLine h.ne_nil h.rows]
  covered := fun front _ back _ ha => exists_isGroup ha front back

/-- A run of attributes with values that can be written has its entries, each of them as it
should be. -/
theorem isAligned_of_renderable (level : Int) {attrs : List Attribute}
    (h : ∀ a ∈ attrs, a.value.isRenderable = true) :
    ∃ rendered entries,
      List.Forall₂ (fun a r => r.1 = a.name ∧ renderValue level a.value = .ok r.2) attrs rendered ∧
      renderAttributes level attrs = .ok entries ∧ IsAligned level rendered entries := by
  obtain ⟨entries, hentries⟩ : ∃ entries, renderAttributes level attrs = .ok entries := by
    refine exists_of_isOk ?_
    rw [Renderable.isOk_renderAttributes, List.all_eq_true]
    exact h
  obtain ⟨rendered, hrendered, rfl⟩ := renderAttributes_ok hentries
  exact ⟨rendered, _, hrendered, hentries, isAligned_attributeLines level rendered⟩

/-- Two short names, an object of several rows, and a long name with a short one behind it. -/
def mixedAttributes : List Attribute :=
  [⟨"a", .int 1⟩, ⟨"name", .text "web"⟩, ⟨"tags", .object [("k", .null), ("key", .bool true)]⟩,
    ⟨"description", .list []⟩, ⟨"x", .int 2⟩]

/-- The object is between two groups and has one inside it. -/
def mixedEntries : List String :=
  ["  a    = 1",
    "  name = \"web\"",
    "  tags = \x7b\n    k   = null\n    key = true\n  \x7d",
    "  description = []",
    "  x           = 2"]

theorem isAligned_of_renderable_mixed :
    (∀ a ∈ mixedAttributes, a.value.isRenderable = true) ∧
      ∃ rendered,
        List.Forall₂ (fun a r => r.1 = a.name ∧ renderValue 1 a.value = .ok r.2)
          mixedAttributes rendered ∧
        renderAttributes 1 mixedAttributes = .ok mixedEntries ∧
        IsAligned 1 rendered mixedEntries := by
  have h : ∀ a ∈ mixedAttributes, a.value.isRenderable = true := by
    intro a ha
    simp only [mixedAttributes, List.mem_cons, List.not_mem_nil, or_false] at ha
    rcases ha with rfl | rfl | rfl | rfl | rfl <;> rfl
  have hwritten : renderAttributes 1 mixedAttributes = .ok mixedEntries := rfl
  obtain ⟨rendered, entries, hrendered, hentries, haligned⟩ :=
    isAligned_of_renderable 1 h
  cases hwritten.symm.trans hentries
  exact ⟨h, rendered, hrendered, hwritten, haligned⟩

end Hcl
end Groundplan
