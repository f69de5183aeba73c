/-
Where things stand in a generated text.

A row that is known to be there is found from the outside in: the item in the document,
the lines of the item among those of the document, and the rows of a line in the text.
-/
import Groundplan.Proofs.Hcl.Rows

namespace Groundplan
namespace Hcl
namespace Rows

open Text

/-! ## Lines of an item -/

theorem itemLines_infix {items : List Item} {item : Item} (hmem : item ∈ items)
    {previous : Option Item} {lines : List String} (h : documentLines previous items = .ok lines) :
    ∃ inner, itemLines item = .ok inner ∧ inner <:+: lines := by
  induction items generalizing previous lines with
  | nil => cases hmem
  | cons first rest ih =>
    rw [documentLines] at h
    obtain ⟨inner, hinner, h⟩ := ok_of_bind h
    obtain ⟨after, hafter, h⟩ := ok_of_bind h
    cases h
    rcases List.mem_cons.mp hmem with rfl | hmem
    · exact ⟨inner, hinner, List.infix_append _ _ _⟩
    · obtain ⟨found, hfound, hinfix⟩ := ih hmem hafter
      exact ⟨found, hfound, hinfix.trans (List.suffix_append _ _).isInfix⟩

/-- A character in a line of an item is in the text. -/
theorem mem_of_itemLines {d : Document} {text : String} (h : d.render = .ok text) {item : Item}
    (hmem : item ∈ d.items) {c : Char}
    (hitem : ∀ inner, itemLines item = .ok inner → ∃ line ∈ inner, c ∈ line.toList) :
    c ∈ text.toList := by
  rw [Document.render] at h
  obtain ⟨lines, hlines, h⟩ := ok_of_bind h
  cases h
  obtain ⟨inner, hinner, hinfix⟩ := itemLines_infix hmem hlines
  obtain ⟨line, hline, hc⟩ := hitem inner hinner
  have hthere : line ∈ lines := hinfix.subset hline
  rw [String.toList_append, show "\n".toList = ['\n'] from rfl,
    toList_joinLines_append (List.ne_nil_of_mem hthere)]
  exact List.mem_flatMap.mpr ⟨line, hthere, List.mem_append_left _ hc⟩

/-! ## Rows of lines -/

theorem splitOn_linesText (lines : List String) :
    splitOn '\n' (linesText lines) = (lines.flatMap fun l => splitOn '\n' l.toList) ++ [[]] := by
  induction lines with
  | nil => rfl
  | cons l rest ih =>
    rw [linesText_cons, splitOn_append_cons, ih, List.flatMap_cons, List.append_assoc]

/-- The rows of lines, which are the lines themselves where they hold no newline. -/
def linesRows (lines : List String) : List String :=
  lines.flatMap fun l => rows l

theorem linesRows_append (a b : List String) : linesRows (a ++ b) = linesRows a ++ linesRows b :=
  List.flatMap_append

theorem rows_of_not_mem {l : String} (h : '\n' ∉ l.toList) : rows l = [l] := by
  rw [rows, splitOn_of_not_mem h, List.map_cons, List.map_nil, String.ofList_toList]

theorem linesRows_of_not_mem {lines : List String} (h : ∀ l ∈ lines, '\n' ∉ l.toList) :
    linesRows lines = lines := by
  induction lines with
  | nil => rfl
  | cons l lines ih =>
    rw [linesRows, List.flatMap_cons, rows_of_not_mem (h l List.mem_cons_self)]
    exact congrArg (l :: ·) (ih fun k hk => h k (List.mem_cons_of_mem l hk))

theorem infix_linesRows {a b : List String} (h : a <:+: b) : linesRows a <:+: linesRows b := by
  obtain ⟨before, after, rfl⟩ := h
  rw [linesRows_append, linesRows_append]
  exact List.infix_append _ _ _

/-- The rows of a document are those of its lines, and one more. -/
theorem linesRows_prefix {d : Document} {text : String} (h : d.render = .ok text) :
    ∃ lines, documentLines none d.items = .ok lines ∧ linesRows lines <+: rows text := by
  rw [Document.render] at h
  obtain ⟨lines, hlines, h⟩ := ok_of_bind h
  cases h
  refine ⟨lines, hlines, ?_⟩
  by_cases hne : lines = []
  · rw [hne]
    exact List.nil_prefix
  · rw [rows, String.toList_append, show "\n".toList = ['\n'] from rfl,
      toList_joinLines_append hne, splitOn_linesText, List.map_append, List.map_flatMap]
    exact List.prefix_append _ _

/-- The rows of an item are neighbouring rows of its document. -/
theorem exists_itemRows {d : Document} {text : String} (h : d.render = .ok text) {item : Item}
    (hmem : item ∈ d.items) :
    ∃ inner, itemLines item = .ok inner ∧ linesRows inner <:+: rows text := by
  obtain ⟨lines, hlines, hrows⟩ := linesRows_prefix h
  obtain ⟨inner, hinner, hinfix⟩ := itemLines_infix hmem hlines
  exact ⟨inner, hinner, (infix_linesRows hinfix).trans hrows.isInfix⟩

/-- Lines without newlines in them are rows. -/
theorem rows_infix {d : Document} {text : String} (h : d.render = .ok text) {item : Item}
    (hmem : item ∈ d.items) {b : List String} (hrows : ∀ l ∈ b, '\n' ∉ l.toList)
    (hitem : ∀ inner, itemLines item = .ok inner → b <:+: inner) : b <:+: rows text := by
  obtain ⟨inner, hinner, hinfix⟩ := exists_itemRows h hmem
  have hb := (infix_linesRows (hitem inner hinner)).trans hinfix
  rwa [linesRows_of_not_mem hrows] at hb

/-! ## Lines of a block -/

theorem attributeLines_singleton (level : Int) (name text : String) :
    attributeLines level [(name, text)] = [indent level ++ name ++ " = " ++ text] := by
  have hpad : padName (maxLength ([(name, text)].map Prod.fst)) name = name := by
    simp [padName, maxLength]
  have haligned : alignedLines level [(name, text)] = [indent level ++ name ++ " = " ++ text] := by
    rw [alignedLines, List.map_cons, List.map_nil]
    dsimp only
    rw [hpad]
  show List.flatMap _ [[(name, text)]] = _
  rw [List.flatMap_cons, List.flatMap_nil, List.append_nil]
  dsimp only
  split
  · rfl
  · exact haligned

theorem attributeLines_of_oneLine {level : Int} {attrs : List (String × String)} (hne : attrs ≠ [])
    (h : ∀ a ∈ attrs, '\n' ∉ a.2.toList) : attributeLines level attrs = alignedLines level attrs := by
  have hline : ∀ a ∈ attrs, isMultiLine a.2 = false := by
    intro a ha
    rw [isMultiLine, List.contains_eq_mem, decide_eq_false (h a ha)]
  have hgroup : attrs.splitBy (fun a b => !isMultiLine a.2 && !isMultiLine b.2) = [attrs] := by
    refine List.splitBy_of_isChain hne (List.Pairwise.isChain ?_)
    refine List.pairwise_of_forall_mem_list fun a ha b hb => ?_
    rw [hline a ha, hline b hb]
    rfl
  rw [attributeLines, hgroup, List.flatMap_cons, List.flatMap_nil, List.append_nil]
  split
  · rw [if_neg (by rw [hline _ List.mem_cons_self]; exact Bool.false_ne_true)]
  · rfl

/-- Attributes with values of one line each have their equals signs in one column. -/
theorem renderAttributes_aligned {level : Int} {attrs : List Attribute} {texts : List String}
    (hne : attrs ≠ []) (h : List.Forall₂ (fun a text => renderValue level a.value = .ok text ∧
      '\n' ∉ text.toList) attrs texts) :
    renderAttributes level attrs =
      .ok (alignedLines level ((attrs.map Attribute.name).zip texts)) := by
  have hrendered : attrs.mapM (fun a => do return (a.name, ← renderValue level a.value)) =
      Except.ok (ε := RenderFault) ((attrs.map Attribute.name).zip texts) := by
    clear hne
    induction h with
    | nil => rfl
    | cons hfirst _ ih =>
      rw [List.mapM_cons, ih, hfirst.1]
      rfl
  have hline : ∀ a ∈ (attrs.map Attribute.name).zip texts, '\n' ∉ a.2.toList := by
    intro a ha
    obtain ⟨attr, -, htext⟩ := exists_of_mem_forall₂ h (List.of_mem_zip ha).2
    exact htext.2
  rw [renderAttributes, hrendered, ok_bind, attributeLines_of_oneLine ?_ hline]
  · rfl
  · cases h with
    | nil => exact absurd rfl hne
    | cons _ _ => exact List.cons_ne_nil _ _

theorem not_mem_intercalate {c : Char} {sep : String} (hsep : c ∉ sep.toList) {texts : List String}
    (h : ∀ text ∈ texts, c ∉ text.toList) : c ∉ (sep.intercalate texts).toList := by
  induction texts with
  | nil => exact List.not_mem_nil
  | cons first rest ih =>
    cases rest with
    | nil =>
      rw [String.intercalate_singleton]
      exact h first List.mem_cons_self
    | cons second rest =>
      rw [String.intercalate_cons_cons, String.toList_append, String.toList_append, List.mem_append,
        List.mem_append, not_or, not_or]
      exact ⟨⟨h first List.mem_cons_self, hsep⟩, ih fun text ht => h text (List.mem_cons_of_mem _ ht)⟩

/-- The text of a list of texts, which is on one line. -/
def listText (texts : List String) : String := "[" ++ ", ".intercalate (texts.map quote) ++ "]"

theorem renderValue_texts (level : Int) (texts : List String) :
    renderValue level (.list (texts.map .text)) = .ok (listText texts) := by
  have hvalues : renderValues level (texts.map .text) = .ok (texts.map quote) := by
    induction texts with
    | nil => rfl
    | cons s texts ih =>
      rw [List.map_cons, renderValues, ih]
      rfl
  cases texts with
  | nil => rfl
  | cons s texts =>
    have hsimple : ((s :: texts).map Value.text).all Value.isSimple = true := by
      rw [List.all_map]
      exact List.all_eq_true.mpr fun _ _ => rfl
    rw [renderValue, if_pos hsimple, hvalues]
    · rfl
    · exact List.cons_ne_nil _ _

theorem newline_not_mem_listText (texts : List String) : '\n' ∉ (listText texts).toList := by
  have hquoted : ∀ text ∈ texts.map quote, '\n' ∉ text.toList := by
    intro text ht
    obtain ⟨s, -, rfl⟩ := List.mem_map.mp ht
    exact break_not_mem_quote (.inl rfl) s
  rw [listText, String.toList_append, String.toList_append, List.mem_append, List.mem_append,
    not_or, not_or]
  exact ⟨⟨by decide, not_mem_intercalate (by decide) hquoted⟩, by decide⟩

/-- The first attribute of a block stands right below its first row if a blank sets it
off from the others. -/
theorem blockLines_attribute_blank {level : Int} {type name s : String} {labels lines : List String}
    {rest : List Item}
    (h : blockLines level type labels (.attribute name (.text s) :: .blank :: rest) = .ok lines) :
    ∃ after, lines = (indent level ++ blockHead type labels ++ " \x7b") ::
      (indent (level + 1) ++ name ++ " = " ++ quote s) :: after := by
  rw [blockLines] at h
  · obtain ⟨inner, hinner, h⟩ := ok_of_bind h
    cases h
    rw [bodyLines, if_neg (by simp [needsGap]), List.nil_append, bodyLines] at hinner
    obtain ⟨before, hbefore, hinner⟩ := ok_of_bind hinner
    obtain ⟨after, -, hinner⟩ := ok_of_bind hinner
    cases hinner
    obtain ⟨rendered, hr, rfl⟩ := renderAttributes_ok hbefore
    obtain ⟨r, rfl, hname, htext⟩ : ∃ r, rendered = [r] ∧ r.1 = name ∧
        renderValue (level + 1) (.text s) = .ok r.2 := by
      cases hr with
      | cons hfirst hnil =>
        cases hnil
        exact ⟨_, rfl, hfirst⟩
    obtain ⟨n, text⟩ := r
    cases hname
    cases htext
    rw [attributeLines_singleton]
    exact ⟨_, rfl⟩
  · exact List.cons_ne_nil _ _

/-- A block with one attribute in it. -/
theorem blockLines_attribute {level : Int} {type name : String} {labels lines : List String}
    {value : Value} (h : blockLines level type labels [.attribute name value] = .ok lines) :
    ∃ text, renderValue (level + 1) value = .ok text ∧
      lines = [indent level ++ blockHead type labels ++ " \x7b",
        indent (level + 1) ++ name ++ " = " ++ text, indent level ++ "\x7d"] := by
  rw [blockLines] at h
  · obtain ⟨inner, hinner, h⟩ := ok_of_bind h
    cases h
    rw [bodyLines, if_neg (by simp [needsGap]), List.nil_append, bodyLines] at hinner
    obtain ⟨rendered, hr, rfl⟩ := renderAttributes_ok hinner
    obtain ⟨r, rfl, hname, htext⟩ : ∃ r, rendered = [r] ∧ r.1 = name ∧
        renderValue (level + 1) value = .ok r.2 := by
      cases hr with
      | cons hfirst hnil =>
        cases hnil
        exact ⟨_, rfl, hfirst⟩
    obtain ⟨n, text⟩ := r
    cases hname
    rw [attributeLines_singleton]
    exact ⟨text, htext, rfl⟩
  · exact List.cons_ne_nil _ _

/-- A block with one block in it. -/
theorem blockLines_block {level : Int} {type type' : String} {labels labels' lines : List String}
    {body : List Item} (h : blockLines level type labels [.block type' labels' body] = .ok lines) :
    ∃ inner, blockLines (level + 1) type' labels' body = .ok inner ∧
      lines = (indent level ++ blockHead type labels ++ " \x7b") ::
        (inner ++ [indent level ++ "\x7d"]) := by
  rw [blockLines] at h
  · obtain ⟨inner, hinner, h⟩ := ok_of_bind h
    cases h
    rw [bodyLines] at hinner
    obtain ⟨before, hbefore, hinner⟩ := ok_of_bind hinner
    obtain ⟨lines, hlines, hinner⟩ := ok_of_bind hinner
    obtain ⟨after, hafter, hinner⟩ := ok_of_bind hinner
    rw [bodyLines] at hafter
    cases hbefore
    cases hafter
    cases hinner
    have hnone : attributeLines (level + 1) [] = [] := rfl
    refine ⟨lines, hlines, ?_⟩
    simp [hnone, gapLines, needsGap]
  · exact List.cons_ne_nil _ _

/-- An object that is not empty opens on the row of its key. -/
theorem rows_object {level : Int} {before text : String} {e : String × Value}
    {entries : List (String × Value)} (hbefore : '\n' ∉ before.toList)
    (h : renderValue level (.object (e :: entries)) = .ok text) :
    ∃ rest, rows (before ++ text) = (before ++ "\x7b") :: rest := by
  obtain ⟨attrs, -, h⟩ := ok_of_bind h
  cases h
  rw [rows, String.toList_append, toList_joinLines_enclosed, ← List.append_assoc,
    splitOn_append_cons, splitOn_of_not_mem, List.map_append, List.map_cons, List.map_nil,
    ← String.toList_append, String.ofList_toList]
  · exact ⟨_, rfl⟩
  · rw [List.mem_append, not_or]
    exact ⟨hbefore, by decide⟩

end Rows
end Hcl
end Groundplan
