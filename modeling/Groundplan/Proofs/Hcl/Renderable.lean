/-
Which documents have a text.

Rendering fails only where a value has no form in the configuration language, at any
depth.  Each step of the renderer succeeds if and only if its parts do, so the statements
are equations between truth values and follow the renderer's recursion.
-/
import Groundplan.Hcl.Render
import Groundplan.Proofs.Result
import Mathlib.Data.Bool.Basic

namespace Groundplan

namespace Hcl

mutual
/-- Whether a value can be written, with all that it holds. -/
def Value.isRenderable : Value → Bool
  | .call _ args => Value.areRenderable args
  | .list items => Value.areRenderable items
  | .object entries => Value.entriesAreRenderable entries
  | .foreign _ => false
  | _ => true

def Value.areRenderable : List Value → Bool
  | [] => true
  | v :: vs => v.isRenderable && Value.areRenderable vs

def Value.entriesAreRenderable : List (String × Value) → Bool
  | [] => true
  | (_, v) :: rest => v.isRenderable && Value.entriesAreRenderable rest
end

mutual
def Item.isRenderable : Item → Bool
  | .attribute _ value => value.isRenderable
  | .block _ _ body => Item.areRenderable body
  | .comment _ => true
  | .blank => true

def Item.areRenderable : List Item → Bool
  | [] => true
  | item :: rest => item.isRenderable && Item.areRenderable rest
end

namespace Renderable

/-! ## Values -/

mutual
theorem isOk_renderValue : ∀ (v : Value) (level : Int),
    (renderValue level v).isOk = v.isRenderable
  | .null, _ | .bool _, _ | .int _, _ | .float _, _ | .text _, _ | .template _, _ | .expr _, _ => rfl
  | .call name args, level => by
    rw [renderValue, isOk_map, isOk_renderValues, Value.isRenderable]
  | .list [], _ => rfl
  | .list (v :: vs), level => by
    rw [renderValue, Value.isRenderable]
    · split
      · rw [isOk_map, isOk_renderValues]
      · rw [isOk_map, isOk_renderValues]
    · exact List.cons_ne_nil v vs
  | .object [], _ => rfl
  | .object (e :: rest), level => by
    rw [renderValue, Value.isRenderable, isOk_map, isOk_renderEntries]
    exact List.cons_ne_nil e rest
  | .foreign _, _ => rfl

theorem isOk_renderValues : ∀ (vs : List Value) (level : Int),
    (renderValues level vs).isOk = Value.areRenderable vs
  | [], _ => rfl
  | v :: vs, level => by
    rw [renderValues, Value.areRenderable, isOk_bind fun _ _ => isOk_map, isOk_renderValue,
      isOk_renderValues]

theorem isOk_renderEntries : ∀ (es : List (String × Value)) (level : Int),
    (renderEntries level es).isOk = Value.entriesAreRenderable es
  | [], _ => rfl
  | (k, v) :: rest, level => by
    rw [renderEntries, Value.entriesAreRenderable, isOk_bind fun _ _ => isOk_map, isOk_renderValue,
      isOk_renderEntries]
end

/-! ## Items -/

theorem isOk_renderAttributes (level : Int) (attrs : List Attribute) :
    (renderAttributes level attrs).isOk = attrs.all fun a => a.value.isRenderable := by
  rw [renderAttributes, isOk_map]
  induction attrs with
  | nil => rfl
  | cons a attrs ih =>
    rw [List.mapM_cons, isOk_bind fun _ _ => isOk_map, isOk_map, isOk_renderValue, ih, List.all_cons]

theorem isOk_blockLines (level : Int) (type : String) (labels : List String) {body : List Item}
    (hbody : (bodyLines (level + 1) none [] body).isOk = Item.areRenderable body) :
    (blockLines level type labels body).isOk = Item.areRenderable body := by
  cases body with
  | nil =>
    rw [blockLines]
    rfl
  | cons item rest =>
    rw [blockLines, isOk_map, hbody]
    exact List.cons_ne_nil item rest

theorem isOk_bodyLines : ∀ (items : List Item) (level : Int) (previous : Option Item)
    (run : List Attribute), (bodyLines level previous run items).isOk =
      ((run.all fun a => a.value.isRenderable) && Item.areRenderable items)
  | [], level, previous, run => by
    rw [bodyLines, isOk_renderAttributes, Item.areRenderable, Bool.and_true]
  | .attribute name value :: rest, level, previous, run => by
    rw [bodyLines, Item.areRenderable, Item.isRenderable]
    split
    · rw [isOk_bind fun _ _ => isOk_map, isOk_renderAttributes, isOk_bodyLines, List.all_cons,
        List.all_nil, Bool.and_true]
    · rw [isOk_bodyLines, List.all_append, List.all_cons, List.all_nil, Bool.and_true, Bool.and_assoc]
  | .block type labels body :: rest, level, previous, run => by
    have hbody : (bodyLines (level + 1) none [] body).isOk = Item.areRenderable body := by
      rw [isOk_bodyLines body, List.all_nil, Bool.true_and]
    rw [bodyLines, isOk_bind fun _ _ => isOk_bind fun _ _ => isOk_map, isOk_renderAttributes,
      isOk_blockLines level type labels hbody, isOk_bodyLines rest, Item.areRenderable,
      Item.isRenderable, List.all_nil, Bool.true_and]
  | .comment text :: rest, level, previous, run => by
    rw [bodyLines, isOk_bind fun _ _ => isOk_map, isOk_renderAttributes, isOk_bodyLines,
      Item.areRenderable, Item.isRenderable, List.all_nil, Bool.true_and]
  | .blank :: rest, level, previous, run => by
    rw [bodyLines, isOk_bind fun _ _ => isOk_map, isOk_renderAttributes, isOk_bodyLines,
      Item.areRenderable, Item.isRenderable, List.all_nil, Bool.true_and]

/-! ## Documents -/

theorem isOk_itemLines : ∀ item : Item, (itemLines item).isOk = item.isRenderable
  | .attribute name value => by
    rw [itemLines, isOk_renderAttributes, List.all_cons, List.all_nil, Bool.and_true,
      Item.isRenderable]
  | .block type labels body => by
    have hbody : (bodyLines (0 + 1) none [] body).isOk = Item.areRenderable body := by
      rw [isOk_bodyLines, List.all_nil, Bool.true_and]
    rw [itemLines, isOk_blockLines 0 type labels hbody, Item.isRenderable]
  | .comment _ => rfl
  | .blank => rfl

theorem isOk_documentLines (items : List Item) (previous : Option Item) :
    (documentLines previous items).isOk = Item.areRenderable items := by
  induction items generalizing previous with
  | nil => rfl
  | cons item rest ih =>
    rw [documentLines, isOk_bind fun _ _ => isOk_map, isOk_itemLines, ih, Item.areRenderable]

/-- A document has a text if and only if every value in it can be written. -/
theorem isOk_render (d : Document) : d.render.isOk = Item.areRenderable d.items := by
  rw [Document.render, isOk_map, isOk_documentLines]

end Renderable
end Hcl

/-! ## Document values -/

namespace Datum

mutual
/-- Whether a value can be written, with all that it holds; `source` says whether source
text, and calls of functions with it, are reckoned among such values. -/
def isRenderable (source : Bool) : Datum → Bool
  | .null | .bool _ | .int _ | .float _ | .text _ => true
  | .list items | .tuple items => areRenderable source items
  | .mapping entries => entriesAreRenderable source entries
  | .expr _ | .template _ => source
  | .call _ args => source && areRenderable source args
  | .bytes _ | .date _ | .dateTime _ | .set _ | .foreign _ => false

def areRenderable (source : Bool) : List Datum → Bool
  | [] => true
  | d :: ds => d.isRenderable source && areRenderable source ds

/-- The keys of a mapping do not count. -/
def entriesAreRenderable (source : Bool) : List (Datum × Datum) → Bool
  | [] => true
  | (_, d) :: rest => d.isRenderable source && entriesAreRenderable source rest
end

end Datum

namespace Hcl
namespace Renderable

mutual
theorem isRenderable_ofDatum : ∀ d : Datum, (Value.ofDatum d).isRenderable = d.isRenderable true
  | .null | .bool _ | .int _ | .float _ | .text _ | .expr _ | .template _ => rfl
  | .bytes _ | .date _ | .dateTime _ | .set _ | .foreign _ => rfl
  | .list items | .tuple items => areRenderable_ofData items
  | .call _ args => areRenderable_ofData args
  | .mapping entries => entriesAreRenderable_ofDatumEntries entries

theorem areRenderable_ofData : ∀ ds : List Datum,
    Value.areRenderable (Value.ofData ds) = Datum.areRenderable true ds
  | [] => rfl
  | d :: ds => by
    rw [Value.ofData, Value.areRenderable, Datum.areRenderable, isRenderable_ofDatum,
      areRenderable_ofData]

theorem entriesAreRenderable_ofDatumEntries : ∀ es : List (Datum × Datum),
    Value.entriesAreRenderable (Value.ofDatumEntries es) = Datum.entriesAreRenderable true es
  | [] => rfl
  | (k, d) :: rest => by
    rw [Value.ofDatumEntries, Value.entriesAreRenderable, Datum.entriesAreRenderable,
      isRenderable_ofDatum, entriesAreRenderable_ofDatumEntries]
end

theorem isRenderable_ofEntries (es : Entries) :
    (Value.ofEntries es).isRenderable = es.all fun e => e.2.isRenderable true := by
  rw [Value.ofEntries, Value.isRenderable]
  induction es with
  | nil => rfl
  | cons e es ih =>
    rw [List.map_cons, Value.entriesAreRenderable, isRenderable_ofDatum, ih, List.all_cons]

/-! ## Lists of items -/

theorem areRenderable_append (a b : List Item) :
    Item.areRenderable (a ++ b) = (Item.areRenderable a && Item.areRenderable b) := by
  induction a with
  | nil => rfl
  | cons item a ih => rw [List.cons_append, Item.areRenderable, ih, Item.areRenderable, Bool.and_assoc]

theorem areRenderable_toItem (attrs : List Attribute) :
    Item.areRenderable (attrs.map Attribute.toItem) = attrs.all fun a => a.value.isRenderable := by
  induction attrs with
  | nil => rfl
  | cons a attrs ih =>
    rw [List.map_cons, Item.areRenderable, ih, List.all_cons]
    rfl

theorem areRenderable_flatMap {α : Type} (f : α → List Item) (as : List α) :
    Item.areRenderable (as.flatMap f) = as.all fun a => Item.areRenderable (f a) := by
  induction as with
  | nil => rfl
  | cons a as ih => rw [List.flatMap_cons, areRenderable_append, ih, List.all_cons]

end Renderable
end Hcl
end Groundplan
