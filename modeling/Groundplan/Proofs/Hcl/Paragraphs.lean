/-
Paragraphs of a body.

Attributes of a body wait for their common column until something ends their run, so a
change of one of them can move the others.  A comment and a blank end a run without
looking at it: from such an item on, the lines of a body are those of a body of its own.
-/
import Groundplan.Proofs.Hcl.Sections
import Groundplan.Proofs.Hcl.Pieces

namespace Groundplan
namespace Hcl

/-- The item in front of a body only decides whether an empty line is between them. -/
theorem bodyLines_previous (level : Int) (previous : Option Item) (item : Item) (rest : List Item) :
    bodyLines level previous [] (item :: rest) = do
      let lines ← bodyLines level none [] (item :: rest)
      return gapLines previous item ++ lines := by
  have hnone : gapLines none item = [] := rfl
  cases item with
  | «attribute» name value =>
    have hstart := fun previous => bodyLines_start level previous ⟨name, value⟩ rest
    simp only [Attribute.toItem, ← gapLines_eq] at hstart
    simp only [hstart, bind_assoc, pure_bind, hnone, List.nil_append]
  | block type labels body =>
    simp only [bodyLines, renderAttributes_nil, ok_bind, bind_assoc, pure_bind, hnone,
      List.nil_append, List.append_assoc]
  | comment text =>
    simp only [bodyLines, renderAttributes_nil, ok_bind, bind_assoc, pure_bind, hnone,
      List.nil_append, List.append_assoc]
  | blank =>
    simp only [bodyLines, renderAttributes_nil, ok_bind, bind_assoc, pure_bind, hnone,
      List.nil_append]

/-- The two parts of a body, where the second starts with an item that ends the run in front
of it. -/
theorem bodyLines_append_ok {a rest : List Item} {item : Item} (hrest : EndsRun (item :: rest))
    {level : Int} {lines : List String}
    (h : bodyLines level none [] (a ++ item :: rest) = .ok lines) :
    ∃ la lb, bodyLines level none [] a = .ok la ∧
      bodyLines level none [] (item :: rest) = .ok lb ∧
      lines = la ++ gapLines a.getLast? item ++ lb := by
  rw [bodyLines_append a hrest, bodyLines_previous, Option.or_none] at h
  obtain ⟨la, hla, h⟩ := ok_of_bind h
  obtain ⟨after, hafter, h⟩ := ok_of_bind h
  obtain ⟨lb, hlb, hgap⟩ := ok_of_bind hafter
  cases hgap
  cases h
  exact ⟨la, lb, hla, hlb, (List.append_assoc _ _ _).symm⟩

/-- The lines of a paragraph that starts with a comment and has a blank behind it.  What
stands around it does not depend on it. -/
theorem bodyLines_paragraph_ok {a b p : List Item} {note : String} {level : Int}
    {lines : List String} (h : bodyLines level none [] (a ++ (.comment note :: p ++ .blank :: b)) = .ok lines) :
    ∃ la lp lb, bodyLines level none [] a = .ok la ∧
      bodyLines level none [] (.comment note :: p) = .ok lp ∧
      bodyLines level none [] (.blank :: b) = .ok lb ∧
      lines = (la ++ gapLines a.getLast? (.comment note)) ++
        (lp ++ (gapLines (.comment note :: p).getLast? .blank ++ lb)) := by
  obtain ⟨la, l, hla, hl, hlines⟩ := bodyLines_append_ok (endsRun_comment note _) h
  have hl : bodyLines level none [] ((.comment note :: p) ++ .blank :: b) = .ok l := hl
  obtain ⟨lp, lb, hlp, hlb, hl⟩ := bodyLines_append_ok (endsRun_blank b) hl
  refine ⟨la, lp, lb, hla, hlp, hlb, ?_⟩
  rw [hlines, hl, List.append_assoc lp]

/-- The lines of a comment with one attribute below it. -/
theorem bodyLines_note (level : Int) (note name : String) {value : Value} {text : String}
    (h : renderValue level value = .ok text) :
    bodyLines level none [] [.comment note, .attribute name value] =
      .ok (commentLines level note ++ [indent level ++ name ++ " = " ++ text]) := by
  have hempty : renderAttributes level [] = .ok [] := rfl
  have hattribute : renderAttributes level [⟨name, value⟩] =
      .ok [indent level ++ name ++ " = " ++ text] := by
    rw [renderAttributes, List.mapM_cons, List.mapM_nil, h, ← Rows.attributeLines_singleton]
    rfl
  rw [bodyLines, hempty, bodyLines, if_neg (by simp [needsGap, Item.isComment]), List.nil_append,
    bodyLines, hattribute]
  rfl

/-! ## Paragraphs of attributes -/

theorem needsGap_of_not_block {previous : Option Item} {item : Item}
    (hprevious : previous.any Item.isBlock = false) (hitem : item.isBlock = false) :
    needsGap previous item = false := by
  cases previous with
  | none => rfl
  | some other =>
    have hother : other.isBlock = false := hprevious
    rw [needsGap, hother, hitem, Bool.or_false, Bool.and_false]

theorem gapLines_of_not_block {previous : Option Item} {item : Item}
    (hprevious : previous.any Item.isBlock = false) (hitem : item.isBlock = false) :
    gapLines previous item = [] := by
  rw [gapLines, needsGap_of_not_block hprevious hitem, if_neg Bool.false_ne_true]

theorem bodyLines_attributes {level : Int} {previous : Option Item} {attrs : List Attribute}
    {lines : List String} (hprevious : previous.any Item.isBlock = false)
    (h : renderAttributes level attrs = .ok lines) :
    bodyLines level previous [] (attrs.map Attribute.toItem) = .ok lines := by
  cases attrs with
  | nil => rwa [List.map_nil, bodyLines]
  | cons a more =>
    have hpiece := bodyLines_piece (.run a more) (fun _ => endsRun_nil) level previous
    have hfirst : (Piece.run a more).first.isBlock = false := rfl
    rw [List.append_nil, Piece.lines, h, ok_bind, ← gapLines_eq,
      gapLines_of_not_block hprevious hfirst, bodyLines, renderAttributes_nil] at hpiece
    exact hpiece.trans (congrArg Except.ok (List.append_nil lines))

/-- Attributes in front of a blank are a paragraph of their own. -/
theorem bodyLines_attributes_blank {level : Int} {previous : Option Item} {attrs : List Attribute}
    {rest : List Item} {lines after : List String} (hprevious : previous.any Item.isBlock = false)
    (h : renderAttributes level attrs = .ok lines)
    (hrest : bodyLines level (some .blank) [] rest = .ok after) :
    bodyLines level previous [] (attrs.map Attribute.toItem ++ .blank :: rest) =
      .ok (lines ++ "" :: after) := by
  have hlast : ((attrs.map Attribute.toItem).getLast?.or previous).any Item.isBlock = false := by
    rw [List.getLast?_map]
    cases attrs.getLast? with
    | none => exact hprevious
    | some a => rfl
  rw [bodyLines_append _ (endsRun_blank rest), bodyLines_attributes hprevious h, ok_bind, bodyLines,
    renderAttributes_nil, ok_bind, hrest, ok_bind, gapLines_of_not_block hlast rfl]
  rfl

/-! ## Paragraphs in the place of one another -/

/-- Whether the paragraph ends with a block, behind which a blank adds an empty line. -/
def endsWithBlock (items : List Item) : Bool := items.getLast?.any Item.isBlock

/-- Two bodies that differ in one paragraph. -/
theorem bodyLines_paragraphs {a b p p' : List Item} {note note' : String} {level : Int}
    {lines lines' : List String}
    (h : bodyLines level none [] (a ++ (.comment note :: p ++ .blank :: b)) = .ok lines)
    (h' : bodyLines level none [] (a ++ (.comment note' :: p' ++ .blank :: b)) = .ok lines')
    (hp : endsWithBlock (.comment note :: p) = false)
    (hp' : endsWithBlock (.comment note' :: p') = false) :
    ∃ before lp lp' after, bodyLines level none [] (.comment note :: p) = .ok lp ∧
      bodyLines level none [] (.comment note' :: p') = .ok lp' ∧
      lines = before ++ (lp ++ after) ∧ lines' = before ++ (lp' ++ after) := by
  obtain ⟨la, lp, lb, hla, hlp, hlb, hlines⟩ := bodyLines_paragraph_ok h
  obtain ⟨la', lp', lb', hla', hlp', hlb', hlines'⟩ := bodyLines_paragraph_ok h'
  -- The lines in front of the paragraph and behind it are determined.
  rw [hla] at hla'
  rw [hlb] at hlb'
  cases hla'
  cases hlb'
  rw [gapLines_of_not_block hp rfl, List.nil_append] at hlines
  rw [gapLines_of_not_block hp' rfl, List.nil_append] at hlines'
  exact ⟨_, lp, lp', lb, hlp, hlp', hlines, hlines'⟩

theorem blockLines_ok {level : Int} {type : String} {labels lines : List String}
    {body : List Item} (hbody : body ≠ []) (h : blockLines level type labels body = .ok lines) :
    ∃ inner, bodyLines (level + 1) none [] body = .ok inner ∧
      lines = (indent level ++ blockHead type labels ++ " \x7b") ::
        (inner ++ [indent level ++ "\x7d"]) := by
  rw [blockLines] at h
  · obtain ⟨inner, hinner, h⟩ := ok_of_bind h
    cases h
    exact ⟨inner, hinner, rfl⟩
  · exact hbody

/-- Two blocks whose bodies differ in one paragraph. -/
theorem blockLines_paragraphs {type : String} {labels : List String} {a b p p' : List Item}
    {note note' : String} {level : Int} {lines lines' : List String}
    (h : blockLines level type labels (a ++ (.comment note :: p ++ .blank :: b)) = .ok lines)
    (h' : blockLines level type labels (a ++ (.comment note' :: p' ++ .blank :: b)) = .ok lines')
    (hp : endsWithBlock (.comment note :: p) = false)
    (hp' : endsWithBlock (.comment note' :: p') = false) :
    ∃ before lp lp' after, bodyLines (level + 1) none [] (.comment note :: p) = .ok lp ∧
      bodyLines (level + 1) none [] (.comment note' :: p') = .ok lp' ∧
      lines = before ++ (lp ++ after) ∧ lines' = before ++ (lp' ++ after) := by
  obtain ⟨inner, hinner, rfl⟩ := blockLines_ok (by simp) h
  obtain ⟨inner', hinner', rfl⟩ := blockLines_ok (by simp) h'
  obtain ⟨before, lp, lp', after, hlp, hlp', rfl, rfl⟩ := bodyLines_paragraphs hinner hinner' hp hp'
  refine ⟨(indent level ++ blockHead type labels ++ " \x7b") :: before, lp, lp',
    after ++ [indent level ++ "\x7d"], hlp, hlp', ?_, ?_⟩
  · simp only [List.cons_append, List.append_assoc]
  · simp only [List.cons_append, List.append_assoc]

/-- Two documents that differ in one item. -/
theorem documentLines_items {i j : Item} {a b : List Item} {lines lines' : List String}
    (h : documentLines none (a ++ i :: b) = .ok lines)
    (h' : documentLines none (a ++ j :: b) = .ok lines') (hij : j.isComment = i.isComment) :
    ∃ before li lj after, itemLines i = .ok li ∧ itemLines j = .ok lj ∧
      lines = before ++ (li ++ after) ∧ lines' = before ++ (lj ++ after) := by
  obtain ⟨la, l, hla, hl, rfl⟩ := documentLines_append_ok h
  obtain ⟨la', l', hla', hl', rfl⟩ := documentLines_append_ok h'
  rw [hla] at hla'
  cases hla'
  rw [documentLines] at hl hl'
  obtain ⟨li, hli, hl⟩ := ok_of_bind hl
  obtain ⟨after, hafter, hl⟩ := ok_of_bind hl
  obtain ⟨lj, hlj, hl'⟩ := ok_of_bind hl'
  obtain ⟨after', hafter', hl'⟩ := ok_of_bind hl'
  have hset : isSetOff (some i) = isSetOff (some j) := congrArg Bool.not hij.symm
  rw [documentLines_congr hset, hafter'] at hafter
  cases hafter
  cases hl
  cases hl'
  refine ⟨la ++ if (a.getLast?.or none).any (!·.isComment) then [""] else [], li, lj, after, hli,
    hlj, ?_, ?_⟩
  · simp only [List.append_assoc]
  · simp only [List.append_assoc]

end Hcl
end Groundplan
