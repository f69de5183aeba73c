/-
Sections of a document.

The empty line in front of an item depends on the item before it, so it is not plain that
a run of items has the same text wherever it stands.  What matters of the item before is
only whether it is a comment.  A run that ends with something else is closed, and the text
of a closed run behind another one is the same in every document: an empty line, and the
text that it has as a document of its own.
-/
import Groundplan.Proofs.Hcl.Places

namespace Groundplan
namespace Hcl

/-- Whether an empty line stands in front of what follows an item. -/
def isSetOff (previous : Option Item) : Bool := previous.any (!·.isComment)

/-- A run of items with something at its end that is no comment. -/
def IsClosed (items : List Item) : Prop := isSetOff items.getLast? = true

/-- The text of a run of items behind something that is no comment. -/
def sectionText (items : List Item) : Except RenderFault String :=
  (Document.render ⟨items⟩).map ("\n" ++ ·)

/-! ## Closed runs -/

theorem IsClosed.ne_nil {items : List Item} (h : IsClosed items) : items ≠ [] := by
  rintro rfl
  cases h

theorem isClosed_append (a : List Item) {b : List Item} (hb : IsClosed b) : IsClosed (a ++ b) := by
  have hlast : (a ++ b).getLast? = b.getLast? := by
    rw [List.getLast?_append]
    cases hb' : b.getLast? with
    | none => exact absurd (List.getLast?_eq_none_iff.mp hb') hb.ne_nil
    | some item => rfl
  rw [IsClosed, hlast]
  exact hb

/-- Closed runs behind a closed one make one closed run. -/
theorem IsClosed.append_flatMap {γ : Type} {a : List Item} (ha : IsClosed a) {f : γ → List Item}
    (hf : ∀ x, IsClosed (f x)) (xs : List γ) : IsClosed (a ++ xs.flatMap f) := by
  induction xs generalizing a with
  | nil =>
    rw [List.flatMap_nil, List.append_nil]
    exact ha
  | cons x xs ih =>
    rw [List.flatMap_cons, ← List.append_assoc]
    exact ih (isClosed_append a (hf x))

/-! ## Lines of runs -/

theorem documentLines_congr {p q : Option Item} (h : isSetOff p = isSetOff q) (items : List Item) :
    documentLines p items = documentLines q items := by
  cases items with
  | nil => rfl
  | cons item rest =>
    have hany : p.any (!·.isComment) = q.any (!·.isComment) := h
    rw [documentLines, documentLines, hany]

/-- Two runs behind one another: the second one sees the last item of the first. -/
theorem documentLines_append_ok {previous : Option Item} {a b : List Item} {lines : List String}
    (h : documentLines previous (a ++ b) = .ok lines) :
    ∃ la lb, documentLines previous a = .ok la ∧
      documentLines (a.getLast?.or previous) b = .ok lb ∧ lines = la ++ lb := by
  induction a generalizing previous lines with
  | nil => exact ⟨[], lines, rfl, h, rfl⟩
  | cons item a ih =>
    rw [List.cons_append, documentLines] at h
    obtain ⟨inner, hinner, h⟩ := ok_of_bind h
    obtain ⟨after, hafter, h⟩ := ok_of_bind h
    cases h
    obtain ⟨la, lb, hla, hlb, rfl⟩ := ih hafter
    have hlast : (item :: a).getLast?.or previous = a.getLast?.or (some item) := by
      rw [List.getLast?_cons]
      cases a.getLast? <;> rfl
    refine ⟨_, lb, ?_, ?_, (List.append_assoc _ _ _).symm⟩
    · rw [documentLines, hinner, hla]
      rfl
    · rw [hlast]
      exact hlb

/-- Behind something that is no comment there is an empty line first. -/
theorem documentLines_setOff {previous : Option Item} (hprevious : isSetOff previous = true)
    {items : List Item} (hitems : items ≠ []) {lines : List String}
    (h : documentLines previous items = .ok lines) :
    ∃ rest, documentLines none items = .ok rest ∧ lines = "" :: rest := by
  cases items with
  | nil => exact absurd rfl hitems
  | cons item items =>
    have hany : previous.any (!·.isComment) = true := hprevious
    rw [documentLines, hany] at h
    obtain ⟨inner, hinner, h⟩ := ok_of_bind h
    obtain ⟨after, hafter, h⟩ := ok_of_bind h
    cases h
    refine ⟨inner ++ after, ?_, rfl⟩
    rw [documentLines, hinner, hafter]
    rfl

theorem isSetOff_getLast {a : List Item} (ha : IsClosed a) (previous : Option Item) :
    isSetOff (a.getLast?.or previous) = true := by
  cases hlast : a.getLast? with
  | none => exact absurd (List.getLast?_eq_none_iff.mp hlast) ha.ne_nil
  | some item =>
    rw [IsClosed, hlast] at ha
    exact ha

/-- What is in front of a closed run and what is behind it do not notice it. -/
theorem documentLines_section {previous : Option Item} {a piece b : List Item} (ha : IsClosed a)
    (hpiece : IsClosed piece) {lines : List String}
    (h : documentLines previous (a ++ (piece ++ b)) = .ok lines) :
    ∃ la lp lb, documentLines previous a = .ok la ∧ documentLines none piece = .ok lp ∧
      documentLines (a.getLast?.or previous) b = .ok lb ∧ lines = la ++ ("" :: lp ++ lb) := by
  obtain ⟨la, l, hla, hl, rfl⟩ := documentLines_append_ok h
  obtain ⟨l', lb, hl', hlb, rfl⟩ := documentLines_append_ok hl
  have hset := isSetOff_getLast ha previous
  obtain ⟨lp, hlp, rfl⟩ := documentLines_setOff hset hpiece.ne_nil hl'
  have hset' := isSetOff_getLast hpiece (a.getLast?.or previous)
  rw [documentLines_congr (hset'.trans hset.symm)] at hlb
  exact ⟨la, lp, lb, hla, hlp, hlb, rfl⟩

/-! ## Documents without two sections -/

/-- A document and what is left of it when two closed runs are taken out. -/
theorem documentLines_without {previous : Option Item} {a p b q c : List Item} (ha : IsClosed a)
    (hp : IsClosed p) (hb : IsClosed b) (hq : IsClosed q) {lines lines' : List String}
    (h : documentLines previous (a ++ (p ++ (b ++ (q ++ c)))) = .ok lines)
    (h' : documentLines previous (a ++ (b ++ c)) = .ok lines') :
    ∃ la lp lb lq lc, documentLines none p = .ok lp ∧ documentLines none q = .ok lq ∧
      lines = la ++ (("" :: lp) ++ (lb ++ (("" :: lq) ++ lc))) ∧ lines' = la ++ (lb ++ lc) := by
  obtain ⟨la, lp, l, hla, hlp, hl, rfl⟩ := documentLines_section ha hp h
  obtain ⟨lb, lq, lc, hlb, hlq, hlc, rfl⟩ := documentLines_section hb hq hl
  obtain ⟨la', l', hla', hl', rfl⟩ := documentLines_append_ok h'
  obtain ⟨lb', lc', hlb', hlc', rfl⟩ := documentLines_append_ok hl'
  -- The lines of each part are determined, so those that stay are the same in both.
  rw [hla] at hla'
  rw [hlb] at hlb'
  rw [hlc] at hlc'
  cases hla'
  cases hlb'
  cases hlc'
  exact ⟨la, lp, lb, lq, lc, hlp, hlq, rfl, rfl⟩

/-! ## Texts -/

def linesString (lines : List String) : String := String.ofList (linesText lines)

theorem linesString_append (a b : List String) :
    linesString (a ++ b) = linesString a ++ linesString b := by
  rw [linesString, linesText_append, String.ofList_append]
  rfl

theorem linesString_of_ne_nil {lines : List String} (h : lines ≠ []) :
    linesString lines = joinLines lines ++ "\n" := by
  refine String.toList_injective ?_
  rw [linesString, String.toList_ofList, String.toList_append, ← toList_joinLines_append h]
  rfl

theorem blockLines_ne_nil {level : Int} {type : String} {labels lines : List String}
    {body : List Item} (h : blockLines level type labels body = .ok lines) : lines ≠ [] := by
  cases body with
  | nil =>
    rw [blockLines] at h
    cases h
    exact List.cons_ne_nil _ _
  | cons item body =>
    rw [blockLines] at h
    · obtain ⟨inner, -, h⟩ := ok_of_bind h
      cases h
      exact List.cons_ne_nil _ _
    · exact List.cons_ne_nil _ _

/-- Some item is a block, which is enough for there to be a line. -/
def HasBlock (items : List Item) : Prop := ∃ type labels body, .block type labels body ∈ items

theorem hasBlock_of_any {items : List Item} (h : items.any Item.isBlock = true) : HasBlock items := by
  obtain ⟨item, hmem, hblock⟩ := List.any_eq_true.mp h
  match item, hblock with
  | .block type labels body, _ => exact ⟨type, labels, body, hmem⟩

theorem HasBlock.append_left {b : List Item} (hb : HasBlock b) (a : List Item) : HasBlock (a ++ b) := by
  obtain ⟨type, labels, body, hmem⟩ := hb
  exact ⟨type, labels, body, List.mem_append_right a hmem⟩

theorem HasBlock.append_right {a : List Item} (ha : HasBlock a) (b : List Item) :
    HasBlock (a ++ b) := by
  obtain ⟨type, labels, body, hmem⟩ := ha
  exact ⟨type, labels, body, List.mem_append_left b hmem⟩

theorem documentLines_ne_nil {previous : Option Item} {items : List Item} {lines : List String}
    (h : documentLines previous items = .ok lines) (hblock : HasBlock items) : lines ≠ [] := by
  obtain ⟨type, labels, body, hmem⟩ := hblock
  obtain ⟨inner, hinner, hinfix⟩ := Rows.itemLines_infix hmem h
  rintro rfl
  exact blockLines_ne_nil hinner (List.infix_nil.mp hinfix)

theorem render_ok {d : Document} {text : String} (h : d.render = .ok text)
    (hblock : HasBlock d.items) :
    ∃ lines, documentLines none d.items = .ok lines ∧ text = linesString lines := by
  obtain ⟨lines, hlines, h⟩ := ok_of_bind h
  cases h
  exact ⟨lines, hlines, (linesString_of_ne_nil (documentLines_ne_nil hlines hblock)).symm⟩

theorem sectionText_ok {items : List Item} {lines : List String}
    (h : documentLines none items = .ok lines) (hblock : HasBlock items) :
    sectionText items = .ok (linesString ("" :: lines)) := by
  have htext : linesString ("" :: lines) = "\n" ++ (joinLines lines ++ "\n") := by
    rw [← linesString_of_ne_nil (documentLines_ne_nil h hblock)]
    exact linesString_append [""] lines
  rw [htext, sectionText, Document.render, h]
  rfl

/-- The text of a document and of what is left of it when two closed runs with blocks in
them are taken out. -/
theorem render_without {d d' : Document} {a p b q c : List Item}
    (hd : d.items = a ++ (p ++ (b ++ (q ++ c)))) (hd' : d'.items = a ++ (b ++ c))
    (ha : IsClosed a) (hp : IsClosed p) (hb : IsClosed b) (hq : IsClosed q)
    (hablock : HasBlock a) (hpblock : HasBlock p) (hqblock : HasBlock q)
    {text text' : String} (h : d.render = .ok text) (h' : d'.render = .ok text') :
    ∃ x y z piece piece', sectionText p = .ok piece ∧ sectionText q = .ok piece' ∧
      text = x ++ piece ++ y ++ piece' ++ z ∧ text' = x ++ y ++ z := by
  obtain ⟨lines, hlines, rfl⟩ := render_ok h (hd ▸ hablock.append_right _)
  obtain ⟨lines', hlines', rfl⟩ := render_ok h' (hd' ▸ hablock.append_right _)
  rw [hd] at hlines
  rw [hd'] at hlines'
  obtain ⟨la, lp, lb, lq, lc, hlp, hlq, rfl, rfl⟩ :=
    documentLines_without ha hp hb hq hlines hlines'
  refine ⟨linesString la, linesString lb, linesString lc, _, _, sectionText_ok hlp hpblock,
    sectionText_ok hlq hqblock, ?_, ?_⟩
  · simp only [linesString_append, String.append_assoc]
  · simp only [linesString_append, String.append_assoc]

end Hcl
end Groundplan
