/-
What the text of a value tells about the value.

Whatever the layout of a plain value, its text belongs to the grammar of values, and the
grammar gives no text to two of them.  So nothing about a value is lost in its text.
-/
import Groundplan.Proofs.Hcl.Grammar

namespace Groundplan

namespace Hcl

/-! ## Plain values -/

/-- The values of documents without fractions and times.  An object may even hold a key more
than once. -/
inductive IsPlain : Datum → Prop
  | null : IsPlain .null
  | bool (b : Bool) : IsPlain (.bool b)
  | int (n : Int) : IsPlain (.int n)
  | text (s : String) : IsPlain (.text s)
  | list {items : List Datum} : (∀ x ∈ items, IsPlain x) → IsPlain (.list items)
  | mapping {entries : List (Datum × Datum)} : (∀ e ∈ entries, ∃ k, e.1 = .text k) →
      (∀ e ∈ entries, IsPlain e.2) → IsPlain (.mapping entries)

/-! ## The texts that are written -/

theorem isGap_nil : IsGap [] := List.forall_mem_nil _

theorem isGap_newline : IsGap ['\n'] := List.forall_mem_singleton.mpr rfl

theorem isGap_spaces (n : Nat) : IsGap (spaces n) := by
  intro c hc
  rw [mem_spaces hc]
  rfl

theorem IsGap.append {a b : List Char} (ha : IsGap a) (hb : IsGap b) : IsGap (a ++ b) := by
  intro c hc
  rcases List.mem_append.mp hc with hc | hc
  · exact ha c hc
  · exact hb c hc

/-- More of a gap does no harm. -/
theorem DenotesItems.gap_append {gap cs : List Char} {xs : List Datum} (hgap : IsGap gap)
    (h : DenotesItems cs xs) : DenotesItems (gap ++ cs) xs := by
  cases h with
  | nil hinner =>
    rw [← List.append_assoc]
    exact .nil (hgap.append hinner)
  | cons hinner hx hxs =>
    rw [← List.append_assoc]
    exact .cons (hgap.append hinner) hx hxs

theorem DenotesEntries.gap_append {gap cs : List Char} {es : List (Datum × Datum)}
    (hgap : IsGap gap) (h : DenotesEntries cs es) : DenotesEntries (gap ++ cs) es := by
  cases h with
  | nil hinner =>
    rw [← List.append_assoc]
    exact .nil (hgap.append hinner)
  | cons hinner hx hes =>
    rw [← List.append_assoc]
    exact .cons (hgap.append hinner) hx hes

theorem denotesItems_of_flush {cs rest : List Char} {x : Datum} {xs : List Datum}
    (hx : Denotes cs x) (hxs : DenotesRest rest xs) : DenotesItems (cs ++ rest) (x :: xs) :=
  @DenotesItems.cons [] cs rest x xs isGap_nil hx hxs

/-- Items on one line. -/
theorem denotesItems_inline {texts : List String} {xs : List Datum}
    (h : List.Forall₂ (fun text x => Denotes text.toList x) texts xs) :
    DenotesItems ((", ".intercalate texts).toList ++ [']']) xs := by
  induction h with
  | nil => exact @DenotesItems.nil [] isGap_nil
  | @cons text x texts xs hx hxs ih =>
    cases hxs with
    | nil =>
      rw [String.intercalate_singleton]
      exact denotesItems_of_flush hx .closed
    | cons _ _ =>
      rw [String.intercalate_cons_cons, String.toList_append, String.toList_append,
        List.append_assoc, List.append_assoc]
      exact denotesItems_of_flush hx (.comma (ih.gap_append (isGap_spaces 1)))

/-- Items on lines of their own. -/
theorem denotesItems_lines {level : Int} {n : Nat} {texts : List String} {xs : List Datum}
    (h : List.Forall₂ (fun text x => Denotes text.toList x) texts xs) :
    DenotesItems (linesText (texts.map fun text => indent level ++ text ++ ",") ++
      (spaces n ++ [']'])) xs := by
  induction h with
  | nil => exact .nil (isGap_spaces n)
  | cons hx _ ih =>
    have hrest := ih.gap_append isGap_newline
    rw [List.map_cons, linesText_cons, String.toList_append, String.toList_append, toList_indent]
    simp only [List.append_assoc, List.cons_append]
    exact .cons (isGap_spaces _) hx (.comma hrest)

theorem spaces_append_cons (n : Nat) (cs : List Char) :
    spaces n ++ ' ' :: cs = ' ' :: (spaces n ++ cs) := by
  rw [spaces, ← List.cons_append, ← List.replicate_succ, List.replicate_succ', List.append_assoc]
  rfl

/-- Entries on lines of their own.  The last space in front of the equals sign passes for the
first one behind the key. -/
theorem denotesEntries_lines {level : Int} {n : Nat} {es : List (Datum × Datum)}
    {lines : List String} (hkeys : ∀ e ∈ es, ∃ k, e.1 = .text k)
    (hvalues : ∀ e ∈ es, ∀ text, renderValue level (Value.ofDatum e.2) = .ok text →
      Denotes text.toList e.2)
    (hlines : List.Forall₂ (IsEntryLine level) (Value.ofDatumEntries es) lines) :
    DenotesEntries (linesText lines ++ (spaces n ++ ['\x7d'])) es := by
  induction es generalizing lines with
  | nil =>
    cases hlines
    exact .nil (isGap_spaces n)
  | cons e es ih =>
    obtain ⟨k, x⟩ := e
    rw [List.forall_mem_cons] at hkeys hvalues
    obtain ⟨k, rfl⟩ := hkeys.1
    cases hlines with
    | cons hline hlines =>
      obtain ⟨text, htext, m, hline⟩ := hline
      rw [linesText_cons, hline, show " = ".toList = [' ', '=', ' '] from rfl]
      simp only [List.append_assoc, List.cons_append, List.nil_append, spaces_append_cons]
      exact .cons (isGap_spaces _) (hvalues.1 text htext) (ih hkeys.2 hvalues.2 hlines)

/-- A value has a text for every level, and the grammar has the text for it. -/
def IsWritten (x : Datum) : Prop :=
  ∀ level, ∃ text, renderValue level (Value.ofDatum x) = .ok text ∧ Denotes text.toList x

theorem exists_renderValues {xs : List Datum} (h : ∀ x ∈ xs, IsWritten x) (level : Int) :
    ∃ texts, renderValues level (Value.ofData xs) = .ok texts ∧
      List.Forall₂ (fun text x => Denotes text.toList x) texts xs := by
  induction xs with
  | nil => exact ⟨[], rfl, .nil⟩
  | cons x xs ih =>
    rw [List.forall_mem_cons] at h
    obtain ⟨text, htext, hx⟩ := h.1 level
    obtain ⟨texts, htexts, hxs⟩ := ih h.2
    refine ⟨text :: texts, ?_, .cons hx hxs⟩
    rw [Value.ofData, renderValues, htext, htexts]
    rfl

theorem exists_renderEntries {es : List (Datum × Datum)} (h : ∀ e ∈ es, IsWritten e.2)
    (level : Int) : ∃ rendered, renderEntries level (Value.ofDatumEntries es) = .ok rendered := by
  induction es with
  | nil => exact ⟨[], rfl⟩
  | cons e es ih =>
    rw [List.forall_mem_cons] at h
    obtain ⟨text, htext, -⟩ := h.1 level
    obtain ⟨rendered, hrendered⟩ := ih h.2
    refine ⟨(key e.1.plainText, text) :: rendered, ?_⟩
    rw [Value.ofDatumEntries, renderEntries, htext, hrendered]
    rfl

theorem isWritten_list {items : List Datum} (h : ∀ x ∈ items, IsWritten x) :
    IsWritten (.list items) := by
  intro level
  cases items with
  | nil => exact ⟨_, rfl, .list (@DenotesItems.nil [] isGap_nil)⟩
  | cons x xs =>
    rw [Value.ofDatum, renderValue]
    · split
      · obtain ⟨texts, htexts, hxs⟩ := exists_renderValues h level
        refine ⟨_, by rw [htexts]; rfl, ?_⟩
        rw [String.toList_append, String.toList_append]
        exact .list (denotesItems_inline hxs)
      · obtain ⟨texts, htexts, hxs⟩ := exists_renderValues h (level + 1)
        refine ⟨_, by rw [htexts]; rfl, ?_⟩
        rw [toList_joinLines_enclosed, String.toList_append, toList_indent]
        exact .list (@DenotesItems.gap_append ['\n'] _ _ isGap_newline (denotesItems_lines hxs))
    · exact List.cons_ne_nil _ _

theorem isWritten_mapping {entries : List (Datum × Datum)}
    (hkeys : ∀ e ∈ entries, ∃ k, e.1 = .text k) (h : ∀ e ∈ entries, IsWritten e.2) :
    IsWritten (.mapping entries) := by
  intro level
  cases entries with
  | nil => exact ⟨_, rfl, .mapping (@DenotesEntries.nil [] isGap_nil)⟩
  | cons e es =>
    have hne : Value.ofDatumEntries (e :: es) ≠ [] := List.cons_ne_nil _ _
    obtain ⟨rendered, hrendered⟩ := exists_renderEntries h (level + 1)
    obtain ⟨text, hrender⟩ :
        ∃ text, renderValue level (.object (Value.ofDatumEntries (e :: es))) = .ok text := by
      rw [renderValue, hrendered]
      · exact ⟨_, rfl⟩
      · exact hne
    have hvalues : ∀ f ∈ e :: es, ∀ inner,
        renderValue (level + 1) (Value.ofDatum f.2) = .ok inner → Denotes inner.toList f.2 := by
      intro f hf inner hinner
      obtain ⟨written, hwritten, hdenotes⟩ := h f hf (level + 1)
      rw [hwritten] at hinner
      exact Except.ok.inj hinner ▸ hdenotes
    obtain ⟨lines, hlines, hlayout⟩ := layout_object hne hrender
    refine ⟨text, hrender, ?_⟩
    rw [hlayout]
    exact .mapping ((denotesEntries_lines hkeys hvalues hlines).gap_append isGap_newline)

theorem isWritten_of_isPlain {x : Datum} (h : IsPlain x) : IsWritten x := by
  induction h with
  | null => exact fun _ => ⟨_, rfl, .null⟩
  | bool b => exact fun _ => ⟨_, rfl, .bool b⟩
  | int n => exact fun _ => ⟨_, rfl, .int n⟩
  | text s => exact fun _ => ⟨_, rfl, .text s⟩
  | list _ ih => exact isWritten_list ih
  | mapping hkeys _ ih => exact isWritten_mapping hkeys ih

/-! ## Values and their texts -/

/-- Values with a property have texts, and two of them have the same text only if they are the
same, whatever the levels for which they are written. -/
def IsUnambiguous {α : Type} (toValue : α → Value) (p : α → Prop) : Prop :=
  ∀ (level level' : Int) (x y : α), p x → p y → ∃ text text',
    renderValue level (toValue x) = .ok text ∧ renderValue level' (toValue y) = .ok text' ∧
      (text = text' → x = y)

/-- Named values are what an object with these names as keys has for entries. -/
theorem ofEntries_eq_ofDatum (es : Entries) :
    Value.ofEntries es = Value.ofDatum (.mapping (es.map fun e => (.text e.1, e.2))) := by
  rw [Value.ofEntries, Value.ofDatum]
  congr 1
  induction es with
  | nil => rfl
  | cons e es ih =>
    rw [List.map_cons, List.map_cons, Value.ofDatumEntries, ih]
    rfl

theorem isPlain_entries {es : Entries} (h : ∀ e ∈ es, IsPlain e.2) :
    IsPlain (.mapping (es.map fun e => (.text e.1, e.2))) := by
  refine .mapping (fun f hf => ?_) fun f hf => ?_
  · obtain ⟨e, -, rfl⟩ := List.mem_map.mp hf
    exact ⟨e.1, rfl⟩
  · obtain ⟨e, he, rfl⟩ := List.mem_map.mp hf
    exact h e he

theorem isUnambiguous_ofDatum : IsUnambiguous Value.ofDatum IsPlain := by
  intro level level' x y hx hy
  obtain ⟨text, htext, hdenotes⟩ := isWritten_of_isPlain hx level
  obtain ⟨text', htext', hdenotes'⟩ := isWritten_of_isPlain hy level'
  refine ⟨text, text', htext, htext', ?_⟩
  rintro rfl
  exact hdenotes.unique hdenotes'

/-- The text of a plain value, or of a map with plain values, shows what the value is: its type,
what it holds, and in which order. -/
theorem eq_of_renderValue_eq :
    IsUnambiguous Value.ofDatum IsPlain ∧
      IsUnambiguous Value.ofEntries fun es => ∀ e ∈ es, IsPlain e.2 := by
  refine ⟨isUnambiguous_ofDatum, fun level level' a b ha hb => ?_⟩
  obtain ⟨text, text', htext, htext', heq⟩ :=
    isUnambiguous_ofDatum level level' _ _ (isPlain_entries ha) (isPlain_entries hb)
  rw [← ofEntries_eq_ofDatum] at htext htext'
  refine ⟨text, text', htext, htext', fun h => ?_⟩
  refine List.map_injective_iff.mpr (fun e f hef => ?_) (Datum.mapping.inj (heq h))
  obtain ⟨hkey, hvalue⟩ := Prod.mk.inj hef
  exact Prod.ext (Datum.text.inj hkey) hvalue

/-- An object with a list in it, of an object under a reserved word and of a value. -/
def listing (last : Datum) : Datum :=
  .mapping [(.text "ports", .list [.mapping [(.text "for", .int 80)], last]), (.text "a b", .null)]

theorem isPlain_listing {last : Datum} (h : IsPlain last) : IsPlain (listing last) := by
  have hfor : IsPlain (.mapping [(.text "for", .int 80)]) :=
    .mapping (List.forall_mem_singleton.mpr ⟨_, rfl⟩) (List.forall_mem_singleton.mpr (.int 80))
  have hports : IsPlain (.list [.mapping [(.text "for", .int 80)], last]) :=
    .list (List.forall_mem_cons.mpr ⟨hfor, List.forall_mem_singleton.mpr h⟩)
  exact .mapping
    (List.forall_mem_cons.mpr ⟨⟨_, rfl⟩, List.forall_mem_singleton.mpr ⟨_, rfl⟩⟩)
    (List.forall_mem_cons.mpr ⟨hports, List.forall_mem_singleton.mpr .null⟩)

/-- An empty list is told from an empty object, and a number from its digits. -/
theorem renderValue_ne_listing :
    (IsPlain (listing (.list [])) ∧ IsPlain (listing (.mapping [])) ∧ ∃ text text',
      renderValue 0 (.ofDatum (listing (.list []))) = .ok text ∧
        renderValue 0 (.ofDatum (listing (.mapping []))) = .ok text' ∧ text ≠ text') ∧
      IsPlain (.int 80) ∧ IsPlain (.text "80") ∧ ∃ text text',
        renderValue 1 (.ofEntries [("PORT", .int 80)]) = .ok text ∧
          renderValue 1 (.ofEntries [("PORT", .text "80")]) = .ok text' ∧ text ≠ text' := by
  have hlist : IsPlain (listing (.list [])) := isPlain_listing (.list (List.forall_mem_nil _))
  have hmapping : IsPlain (listing (.mapping [])) :=
    isPlain_listing (.mapping (List.forall_mem_nil _) (List.forall_mem_nil _))
  refine ⟨⟨hlist, hmapping, ?_⟩, .int 80, .text "80", ?_⟩
  · obtain ⟨text, text', htext, htext', heq⟩ := eq_of_renderValue_eq.1 0 0 _ _ hlist hmapping
    exact ⟨text, text', htext, htext', mt heq (by simp [listing])⟩
  · obtain ⟨text, text', htext, htext', heq⟩ := eq_of_renderValue_eq.2 1 1
      [("PORT", .int 80)] [("PORT", .text "80")]
      (List.forall_mem_singleton.mpr (.int 80)) (List.forall_mem_singleton.mpr (.text "80"))
    exact ⟨text, text', htext, htext', mt heq (by simp)⟩

end Hcl
end Groundplan
