/-
The pieces of a body.

While a body is rendered, attributes wait until something ends their run.  Here the body is
cut up first, into the longest runs of attributes and all other items one by one, which can
be done in one way only.  The lines of the body are then those of its pieces in order, with
an empty line in front of the pieces that are set apart, so nothing that waits is lost,
written twice or moved across another item.
-/
import Groundplan.Hcl.Render
import Groundplan.Proofs.Result
import Mathlib.Data.List.Chain

namespace Groundplan
namespace Hcl

/-! ## Pieces -/

/-- A run of attributes, which is not empty, or one item of another kind. -/
inductive Piece
  | run (first : Attribute) (more : List Attribute)
  | block (type : String) (labels : List String) (body : List Item)
  | comment (text : String)
  | blank

namespace Piece

def isRun : Piece → Bool
  | .run _ _ => true
  | _ => false

def items : Piece → List Item
  | .run first more => first.toItem :: more.map Attribute.toItem
  | .block type labels body => [.block type labels body]
  | .comment text => [.comment text]
  | .blank => [.blank]

theorem items_ne_nil (p : Piece) : p.items ≠ [] := by
  cases p <;> exact List.cons_ne_nil _ _

def first (p : Piece) : Item := p.items.head p.items_ne_nil

def last (p : Piece) : Item := p.items.getLast p.items_ne_nil

/-- The lines of a piece that stands alone. -/
def lines (level : Int) : Piece → Except RenderFault (List String)
  | .run first more => renderAttributes level (first :: more)
  | .block type labels body => blockLines level type labels body
  | .comment text => .ok (commentLines level text)
  | .blank => .ok [""]

end Piece

/-- Two neighbours with an empty line between them. -/
def IsSetApart (previous item : Item) : Prop :=
  previous.isComment = false ∧ previous.isBlank = false ∧
    (item.isBlock = true ∨ previous.isBlock = true)

instance (previous item : Item) : Decidable (IsSetApart previous item) := by
  unfold IsSetApart
  infer_instance

/-- The line in front of an item, if there is one. -/
def gapBefore (previous : Option Item) (item : Item) : List String :=
  if ∃ p ∈ previous, IsSetApart p item then [""] else []

/-- The lines of pieces that follow an item. -/
def piecesLines (level : Int) (previous : Option Item) :
    List Piece → Except RenderFault (List String)
  | [] => .ok []
  | p :: rest => do
    let own ← p.lines level
    let after ← piecesLines level (some p.last) rest
    return gapBefore previous p.first ++ own ++ after

/-- How a body is cut up.  Attributes are in one run if nothing stands between them, no empty
line included. -/
structure IsCut (items : List Item) (pieces : List Piece) : Prop where
  whole : pieces.flatMap Piece.items = items
  unbroken : ∀ p ∈ pieces, p.items.IsChain fun a b => ¬IsSetApart a b
  longest : pieces.IsChain fun p q =>
    p.isRun = true → q.isRun = true → IsSetApart p.last q.first

/-! ## Neighbours -/

theorem not_isSetApart_attributes (a b : Attribute) : ¬IsSetApart a.toItem b.toItem := by
  rintro ⟨-, -, h | h⟩ <;> cases h

theorem needsGap_some_iff {previous item : Item} :
    needsGap (some previous) item = true ↔ IsSetApart previous item := by
  simp [needsGap, IsSetApart, and_assoc]

theorem gapLines_eq (previous : Option Item) (item : Item) :
    gapLines previous item = gapBefore previous item := by
  cases previous with
  | none => simp [gapLines, gapBefore, needsGap]
  | some p => simp [gapLines, gapBefore, needsGap_some_iff]

/-! ## Lines of a body -/

theorem renderAttributes_nil (level : Int) : renderAttributes level [] = .ok [] := rfl

/-- An attribute with an item in front of it that is none starts a run. -/
theorem bodyLines_start (level : Int) (previous : Option Item) (a : Attribute) (rest : List Item) :
    bodyLines level previous [] (a.toItem :: rest) = do
      let after ← bodyLines level (some a.toItem) [a] rest
      return gapBefore previous a.toItem ++ after := by
  rw [← gapLines_eq, Attribute.toItem, bodyLines, gapLines, renderAttributes_nil]
  split
  · rfl
  · rw [List.nil_append]
    cases bodyLines level (some (.attribute a.name a.value)) [a] rest <;> rfl

/-- Attributes behind an attribute join the run that waits. -/
theorem bodyLines_join (level : Int) (a : Attribute) (run more : List Attribute) (rest : List Item) :
    bodyLines level (some a.toItem) run (more.map Attribute.toItem ++ rest) =
      bodyLines level (some (Piece.run a more).last) (run ++ more) rest := by
  induction more generalizing a run with
  | nil =>
    rw [List.append_nil]
    rfl
  | cons b more ih =>
    have hjoin : bodyLines level (some a.toItem) run (b.toItem :: (more.map Attribute.toItem ++ rest)) =
        bodyLines level (some b.toItem) (run ++ [b]) (more.map Attribute.toItem ++ rest) := by
      rw [Attribute.toItem.eq_def b, bodyLines]
      exact if_neg (mt needsGap_some_iff.mp (not_isSetApart_attributes a b))
    rw [List.map_cons, List.cons_append, hjoin, ih, List.append_assoc]
    rfl

/-- Nothing, or an item that is no attribute and what stands behind it. -/
def EndsRun (rest : List Item) : Prop := ∀ a : Attribute, ∀ more, rest ≠ a.toItem :: more

theorem endsRun_nil : EndsRun [] := fun _ _ => (List.cons_ne_nil _ _).symm

theorem endsRun_block (type : String) (labels : List String) (body rest : List Item) :
    EndsRun (.block type labels body :: rest) := fun _ _ h => nomatch (List.cons.inj h).1

theorem endsRun_comment (text : String) (rest : List Item) : EndsRun (.comment text :: rest) :=
  fun _ _ h => nomatch (List.cons.inj h).1

theorem endsRun_blank (rest : List Item) : EndsRun (.blank :: rest) :=
  fun _ _ h => nomatch (List.cons.inj h).1

/-- What is no attribute writes out the run in front of it. -/
theorem bodyLines_flush {rest : List Item} (h : EndsRun rest) (level : Int) (previous : Option Item) (run : List Attribute) :
    bodyLines level previous run rest = do
      let before ← renderAttributes level run
      let after ← bodyLines level previous [] rest
      return before ++ after := by
  cases rest with
  | nil =>
    rw [bodyLines, bodyLines, renderAttributes_nil]
    cases renderAttributes level run with
    | error e => rfl
    | ok before => exact congrArg Except.ok (List.append_nil before).symm
  | cons item rest =>
    cases item with
    | «attribute» name value => exact absurd rfl (h ⟨name, value⟩ rest)
    | block type labels body =>
      rw [bodyLines, bodyLines, renderAttributes_nil]
      cases renderAttributes level run <;> cases blockLines level type labels body <;>
        cases bodyLines level (some (.block type labels body)) [] rest <;>
        simp [bind, Except.bind, pure, Except.pure]
    | comment text =>
      rw [bodyLines, bodyLines, renderAttributes_nil]
      cases renderAttributes level run <;>
        cases bodyLines level (some (.comment text)) [] rest <;>
        simp [bind, Except.bind, pure, Except.pure]
    | blank =>
      rw [bodyLines, bodyLines, renderAttributes_nil]
      cases renderAttributes level run <;> cases bodyLines level (some .blank) [] rest <;>
        simp [bind, Except.bind, pure, Except.pure]

def startsWithRun (pieces : List Piece) : Bool := pieces.head?.any Piece.isRun

theorem endsRun_of_not_startsWithRun {pieces : List Piece} (h : startsWithRun pieces = false)
    {rest : List Item} (hrest : EndsRun rest) : EndsRun (pieces.flatMap Piece.items ++ rest) := by
  cases pieces with
  | nil => exact hrest
  | cons p more =>
    cases p with
    | run first others => cases h
    | block type labels body => exact endsRun_block type labels body _
    | comment text => exact endsRun_comment text _
    | blank => exact endsRun_blank _

theorem bodyLines_piece (p : Piece) {rest : List Item} (h : p.isRun = true → EndsRun rest)
    (level : Int) (previous : Option Item) :
    bodyLines level previous [] (p.items ++ rest) = do
      let own ← p.lines level
      let after ← bodyLines level (some p.last) [] rest
      return gapBefore previous p.first ++ own ++ after := by
  cases p with
  | run a more =>
    have hflush := bodyLines_flush (h rfl) level (some (Piece.run a more).last) (a :: more)
    rw [Piece.items, List.cons_append, bodyLines_start, bodyLines_join, List.singleton_append,
      hflush, Piece.lines, Piece.first]
    simp [Piece.items]
  | block type labels body =>
    rw [Piece.items, List.singleton_append, bodyLines, renderAttributes_nil, gapLines_eq]
    rfl
  | comment text =>
    rw [Piece.items, List.singleton_append, bodyLines, renderAttributes_nil, gapLines_eq]
    rfl
  | blank =>
    rw [Piece.items, List.singleton_append, bodyLines, renderAttributes_nil, gapLines_eq]
    simp [Piece.lines, ok_bind, Piece.first, Piece.items, Piece.last]

/-- No run has a run behind it. -/
def AreApart (pieces : List Piece) : Prop :=
  pieces.IsChain fun p q => p.isRun = true → q.isRun = false

theorem AreApart.not_startsWithRun {p : Piece} {rest : List Piece} (h : AreApart (p :: rest))
    (hp : p.isRun = true) : startsWithRun rest = false := by
  cases rest with
  | nil => rfl
  | cons q rest => exact (List.isChain_cons_cons.mp h).1 hp

theorem getLast?_items_append (p : Piece) (items : List Item) (previous : Option Item) :
    (p.items ++ items).getLast?.or previous = items.getLast?.or (some p.last) := by
  rw [List.getLast?_append, List.getLast?_eq_some_getLast p.items_ne_nil, Option.or_assoc,
    Option.some_or]
  rfl

theorem bodyLines_pieces_append {pieces : List Piece} (h : AreApart pieces) {rest : List Item}
    (hrest : EndsRun rest) (level : Int) (previous : Option Item) :
    bodyLines level previous [] (pieces.flatMap Piece.items ++ rest) = do
      let before ← piecesLines level previous pieces
      let after ← bodyLines level ((pieces.flatMap Piece.items).getLast?.or previous) [] rest
      return before ++ after := by
  induction pieces generalizing previous with
  | nil =>
    rw [List.flatMap_nil, List.nil_append, piecesLines, ok_bind, List.getLast?_nil, Option.none_or]
    exact (bind_pure _).symm
  | cons p more ih =>
    have hp : p.isRun = true → EndsRun (more.flatMap Piece.items ++ rest) :=
      fun hrun => endsRun_of_not_startsWithRun (h.not_startsWithRun hrun) hrest
    rw [List.flatMap_cons, List.append_assoc, bodyLines_piece p hp, ih (List.IsChain.tail h),
      getLast?_items_append, piecesLines]
    simp only [bind_assoc, pure_bind, List.append_assoc]

theorem bodyLines_pieces {pieces : List Piece} (h : AreApart pieces) (level : Int)
    (previous : Option Item) :
    bodyLines level previous [] (pieces.flatMap Piece.items) = piecesLines level previous pieces := by
  have happend := bodyLines_pieces_append h endsRun_nil level previous
  simp only [List.append_nil, bodyLines, renderAttributes_nil, ok_bind] at happend
  rw [happend, bind_pure]

/-! ## Cutting -/

/-- Puts an item in front of pieces. -/
def attach : Item → List Piece → List Piece
  | .attribute name value, .run first more :: rest => .run ⟨name, value⟩ (first :: more) :: rest
  | .attribute name value, rest => .run ⟨name, value⟩ [] :: rest
  | .block type labels body, rest => .block type labels body :: rest
  | .comment text, rest => .comment text :: rest
  | .blank, rest => .blank :: rest

def cut (items : List Item) : List Piece := items.foldr attach []

theorem items_attach (item : Item) (pieces : List Piece) :
    (attach item pieces).flatMap Piece.items = item :: pieces.flatMap Piece.items := by
  fun_cases attach item pieces <;> rfl

theorem areApart_attach (item : Item) {pieces : List Piece} (h : AreApart pieces) :
    AreApart (attach item pieces) := by
  fun_cases attach item pieces with
  | case1 name value first more rest =>
    cases rest with
    | nil => exact List.isChain_singleton _
    | cons q rest => exact List.isChain_cons_cons.mpr (List.isChain_cons_cons.mp h)
  | case2 name value pieces hrun =>
    cases pieces with
    | nil => exact List.isChain_singleton _
    | cons q rest =>
      refine List.isChain_cons_cons.mpr ⟨fun _ => ?_, h⟩
      cases q with
      | run first more => exact absurd rfl (hrun first more rest)
      | _ => rfl
  | _ =>
    cases pieces with
    | nil => exact List.isChain_singleton _
    | cons q rest => exact List.isChain_cons_cons.mpr ⟨nofun, h⟩

theorem items_cut (items : List Item) : (cut items).flatMap Piece.items = items := by
  induction items with
  | nil => rfl
  | cons item items ih => rw [cut, List.foldr_cons, items_attach, ← cut, ih]

theorem areApart_cut (items : List Item) : AreApart (cut items) := by
  induction items with
  | nil => exact List.isChain_nil
  | cons item items ih => exact areApart_attach item ih

theorem attach_attribute (a : Attribute) {pieces : List Piece} (h : startsWithRun pieces = false) :
    attach a.toItem pieces = .run a [] :: pieces := by
  cases pieces with
  | nil => rfl
  | cons p rest => cases p with
    | run first more => cases h
    | _ => rfl

/-- Attributes in front of pieces make one run. -/
theorem foldr_attach_run (a : Attribute) (more : List Attribute) {pieces : List Piece}
    (h : startsWithRun pieces = false) :
    (Piece.run a more).items.foldr attach pieces = .run a more :: pieces := by
  induction more generalizing a with
  | nil => exact attach_attribute a h
  | cons b more ih =>
    have hrest := ih b
    rw [Piece.items] at hrest ⊢
    rw [List.foldr_cons, List.map_cons, hrest]
    rfl

theorem foldr_attach_items {p : Piece} {pieces : List Piece}
    (h : p.isRun = true → startsWithRun pieces = false) :
    p.items.foldr attach pieces = p :: pieces := by
  cases p with
  | run a more => exact foldr_attach_run a more (h rfl)
  | block type labels body => rfl
  | comment text => rfl
  | blank => rfl

/-- There is only one way to cut. -/
theorem cut_flatMap {pieces : List Piece} (h : AreApart pieces) :
    cut (pieces.flatMap Piece.items) = pieces := by
  induction pieces with
  | nil => rfl
  | cons p rest ih =>
    have hrest := ih (List.IsChain.tail h)
    rw [cut] at hrest ⊢
    rw [List.flatMap_cons, List.foldr_append, hrest, foldr_attach_items h.not_startsWithRun]

/-! ## Cut bodies -/

theorem exists_attribute_of_mem {p : Piece} (hp : p.isRun = true) {item : Item}
    (h : item ∈ p.items) : ∃ a : Attribute, item = a.toItem := by
  cases p with
  | run first more =>
    obtain ⟨a, -, ha⟩ : ∃ a ∈ first :: more, a.toItem = item :=
      List.mem_map.mp (show item ∈ (first :: more).map Attribute.toItem from h)
    exact ⟨a, ha.symm⟩
  | _ => cases hp

theorem not_isSetApart_of_mem {p q : Piece} (hp : p.isRun = true) (hq : q.isRun = true)
    {a b : Item} (ha : a ∈ p.items) (hb : b ∈ q.items) : ¬IsSetApart a b := by
  obtain ⟨a, rfl⟩ := exists_attribute_of_mem hp ha
  obtain ⟨b, rfl⟩ := exists_attribute_of_mem hq hb
  exact not_isSetApart_attributes a b

theorem isChain_items (p : Piece) : p.items.IsChain fun a b => ¬IsSetApart a b := by
  by_cases hp : p.isRun = true
  · exact (List.pairwise_of_forall_mem_list fun a ha b hb =>
      not_isSetApart_of_mem hp hp ha hb).isChain
  · cases p with
    | run first more => exact absurd rfl hp
    | _ => exact List.isChain_singleton _

theorem isCut_of_areApart {pieces : List Piece} (h : AreApart pieces) :
    IsCut (pieces.flatMap Piece.items) pieces where
  whole := rfl
  unbroken := fun p _ => isChain_items p
  longest := h.imp fun _ _ hpq hp hq => absurd (hpq hp) (ne_false_of_eq_true hq)

theorem IsCut.areApart {items : List Item} {pieces : List Piece} (h : IsCut items pieces) :
    AreApart pieces := by
  refine h.longest.imp fun _ _ hpq hp => Bool.eq_false_iff.mpr fun hq => ?_
  exact not_isSetApart_of_mem hp hq (List.getLast_mem _) (List.head_mem _) (hpq hp hq)

theorem isCut_iff {items : List Item} {pieces : List Piece} :
    IsCut items pieces ↔ pieces = cut items := by
  constructor
  · intro h
    rw [← h.whole, cut_flatMap h.areApart]
  · rintro rfl
    have h := isCut_of_areApart (areApart_cut items)
    rwa [items_cut] at h

/-- A body falls into two where no run of attributes goes on. -/
theorem bodyLines_append (items : List Item) {rest : List Item} (hrest : EndsRun rest) (level : Int)
    (previous : Option Item) :
    bodyLines level previous [] (items ++ rest) = do
      let before ← bodyLines level previous [] items
      let after ← bodyLines level (items.getLast?.or previous) [] rest
      return before ++ after := by
  have h := bodyLines_pieces_append (areApart_cut items) hrest level previous
  rwa [← bodyLines_pieces (areApart_cut items), items_cut] at h

/-- A body is cut up in one way, and its lines are those of the pieces.  Where a value cannot be
written, both sides fail for the first such value. -/
theorem bodyLines_eq_piecesLines (level : Int) (items : List Item) :
    ∃ pieces, IsCut items pieces ∧ (∀ other, IsCut items other → other = pieces) ∧
      bodyLines level none [] items = piecesLines level none pieces := by
  refine ⟨cut items, isCut_iff.mpr rfl, fun other h => isCut_iff.mp h, ?_⟩
  have h := bodyLines_pieces (areApart_cut items) level none
  rwa [items_cut] at h

end Hcl
end Groundplan
