/-
Properties that a rendered text has from its parts.

Texts, keys and labels are written as quoted literals and comments one line at a time, so
a property that these have, and that is kept when texts are put together, can only be lost
through the parts of a document that are written raw: source text inside values, names of
attributes and types of blocks.  `Composes` lists what is asked of such a property, and
`Composes.render` follows the renderer once for all of them.
-/
import Groundplan.Proofs.Hcl.Lines
import Groundplan.Proofs.Hcl.Raw
import Groundplan.Proofs.Hcl.Scan
import Groundplan.Proofs.Number.Numeral

namespace Groundplan
namespace Hcl

open Scan

/-- A character that means nothing in code and that is no line end that a reader replaces. -/
def isInert (c : Char) : Bool := isPlain c && c != '\r'

/-- A class that holds no mark and no carriage return. -/
theorem isInert_of_class {q : Char → Bool} (h : (('\r' :: marks).all fun m => !q m) = true) (c : Char)
    (hc : q c = true) : isInert c = true := by
  rw [List.all_cons, Bool.and_eq_true, Bool.not_eq_true'] at h
  have hreturn : c ≠ '\r' := by
    rintro rfl
    rw [hc] at h
    cases h.1
  rw [isInert, isPlain_of_class h.2 c hc, bne_iff_ne.mpr hreturn]
  rfl

/-- A property that a text has if its parts have it. -/
structure Composes (P : List Char → Prop) : Prop where
  append : ∀ {a b : List Char}, P a → P b → P (a ++ b)
  brackets : ∀ {c d : Char} {cs : List Char}, closing? c = some d → P cs → P (c :: (cs ++ [d]))
  inert : ∀ {cs : List Char}, cs.all isInert = true → P cs
  literal : ∀ s, P (quote s).toList
  template : ∀ s, P (quoteTemplate s).toList
  comment : ∀ {cs : List Char}, Text.IsOneLine cs → P ('#' :: (cs ++ ['\n']))

/-- Whether a property holds of a text. -/
def holds (P : List Char → Prop) [DecidablePred P] (s : String) : Bool := decide (P s.toList)

namespace Composes

section

variable {P : List Char → Prop} (hP : Composes P)
include hP

/-! ## Parts -/

theorem nil : P [] := hP.inert rfl

theorem flatMap {α : Type} {f : α → List Char} :
    ∀ {l : List α}, (∀ x ∈ l, P (f x)) → P (l.flatMap f)
  | [], _ => hP.nil
  | x :: l, h => by
    rw [List.flatMap_cons]
    exact hP.append (h x List.mem_cons_self) (flatMap fun y hy => h y (List.mem_cons_of_mem x hy))

theorem blanks (n : Nat) : P (spaces n) :=
  hP.inert (List.all_eq_true.mpr fun c hc => by
    rw [mem_spaces hc]
    decide)

theorem indentation (level : Int) : P (indent level).toList := by
  rw [toList_indent]
  exact hP.blanks _

theorem numeral {cs : List Char} (h : Number.IsNumeral cs) : P cs :=
  hP.inert (List.all_eq_true.mpr fun c hc => isInert_of_class (by decide) c (h c hc))

theorem name {first further : Char → Bool} {cs : List Char}
    (hfirst : (('\r' :: marks).all fun m => !first m) = true)
    (hfurther : (('\r' :: marks).all fun m => !further m) = true)
    (h : Text.isName first further cs = true) : P cs :=
  hP.inert (List.all_eq_true.mpr
    (Text.isName_imp (isInert_of_class hfirst) (isInert_of_class hfurther) (by decide) h))

theorem entryKey (k : String) : P (key k).toList := by
  rw [key]
  by_cases h : Text.isIdentifier k && !reservedKeys.contains k
  · rw [if_pos h]
    rw [Bool.and_eq_true] at h
    exact hP.name (by decide) (by decide) h.1
  · rw [if_neg h]
    exact hP.literal k

theorem newline {cs : List Char} (h : P cs) : P (cs ++ ['\n']) := hP.append h (hP.inert (by decide))

theorem lines {lines : List String} (h : ∀ l ∈ lines, P l.toList) : P (linesText lines) :=
  hP.flatMap fun l hl => hP.newline (h l hl)

/-- Texts with commas between them. -/
theorem commas {texts : List String} (h : ∀ t ∈ texts, P t.toList) :
    P (", ".intercalate texts).toList := by
  induction texts with
  | nil => exact hP.nil
  | cons t rest ih =>
    cases rest with
    | nil =>
      rw [String.intercalate_singleton]
      exact h t List.mem_cons_self
    | cons u rest =>
      rw [String.intercalate_cons_cons, String.toList_append, String.toList_append]
      exact hP.append (hP.append (h t List.mem_cons_self) (hP.inert (by decide)))
        (ih fun x hx => h x (List.mem_cons_of_mem t hx))

theorem attributeLine {level : Int} {a : String × String} {line : String}
    (hname : P a.1.toList) (htext : P a.2.toList) (h : IsAttributeLine level a line) :
    P line.toList := by
  obtain ⟨n, hline⟩ := h
  rw [hline]
  exact hP.append (hP.blanks _) (hP.append hname
    (hP.append (hP.blanks _) (hP.append (hP.inert (by decide)) htext)))

theorem attributeRows {level : Int} {attrs : List (String × String)}
    (h : ∀ a ∈ attrs, P a.1.toList ∧ P a.2.toList) :
    ∀ line ∈ attributeLines level attrs, P line.toList := by
  intro line hline
  obtain ⟨a, ha, hshape⟩ := mem_attributeLines hline
  exact hP.attributeLine (h a ha).1 (h a ha).2 hshape

/-- Lines in brackets that stand on lines of their own. -/
theorem enclosed {a b : String} {c d : Char} (level : Int) {lines : List String}
    (ha : a.toList = [c]) (hb : b.toList = [d]) (hc : closing? c = some d)
    (h : ∀ l ∈ lines, P l.toList) :
    P (joinLines (a :: (lines ++ [indent level ++ b]))).toList := by
  rw [toList_joinLines_enclosed, ha, String.toList_append, hb, List.singleton_append,
    ← List.append_assoc, ← List.cons_append]
  refine hP.brackets hc ?_
  exact hP.append (hP.append (a := ['\n']) (hP.inert (by decide)) (hP.lines h))
    (hP.indentation level)

theorem inline {a b text : String} {c d : Char}
    (ha : a.toList = [c]) (hb : b.toList = [d]) (hc : closing? c = some d)
    (h : P text.toList) : P (a ++ text ++ b).toList := by
  rw [String.toList_append, String.toList_append, ha, hb, List.append_assoc]
  exact hP.brackets hc h

/-! ## Rows -/

theorem blankRow : P (linesText [""]) := hP.inert (by decide)

theorem rows_append {a b : List String} (ha : P (linesText a)) (hb : P (linesText b)) :
    P (linesText (a ++ b)) := by
  rw [linesText_append]
  exact hP.append ha hb

theorem comments (level : Int) (text : String) : P (linesText (commentLines level text)) := by
  refine hP.flatMap fun line hline => ?_
  obtain ⟨rest, hshape, hone⟩ := mem_commentLines hline
  rw [hshape, List.append_assoc]
  exact hP.append (hP.blanks _) (hP.comment hone)

theorem gap (previous : Option Item) (item : Item) : P (linesText (gapLines previous item)) := by
  rw [gapLines]
  split
  · exact hP.blankRow
  · exact hP.nil

theorem head {type : String} {labels : List String} (h : P type.toList) :
    P (blockHead type labels).toList := by
  rw [blockHead]
  induction labels generalizing type with
  | nil =>
    rw [List.map_nil, String.intercalate_singleton]
    exact h
  | cons l labels ih =>
    rw [List.map_cons, String.intercalate_cons_cons, String.toList_append, String.toList_append]
    exact hP.append (hP.append h (hP.inert (by decide))) (ih (hP.literal l))

/-- The line that opens a block is closed only by the one at its end. -/
theorem block {level : Int} {head : String} {inner : List String}
    (hhead : P head.toList) (hinner : P (linesText inner)) :
    P (linesText ((indent level ++ head ++ " \x7b") :: (inner ++ [indent level ++ "\x7d"]))) := by
  have hbody : P ('\x7b' :: (('\n' :: linesText inner ++ (indent level).toList) ++ ['\x7d'])) :=
    hP.brackets rfl (hP.append (hP.append (a := ['\n']) (hP.inert (by decide)) hinner)
      (hP.indentation level))
  have hall := hP.newline (hP.append (hP.append (hP.indentation level) hhead)
    (hP.append (a := [' ']) (hP.inert (by decide)) hbody))
  rw [linesText_cons, linesText_append, linesText_singleton]
  simpa using hall

end

/-! ## Values -/

section

variable {P : List Char → Prop} [DecidablePred P]

mutual
theorem value (hP : Composes P) : ∀ {v : Value} {level : Int} {text : String},
    v.allRaw (holds P) = true → renderValue level v = .ok text → P text.toList
  | .null, _, _, _, h => by
    cases h
    exact hP.inert (by decide)
  | .bool b, _, _, _, h => by
    cases h
    cases b <;> exact hP.inert (by decide)
  | .int n, _, _, _, h => by
    cases h
    exact hP.numeral (Number.isNumeral_toString n)
  | .float x, _, _, _, h => by
    cases h
    exact hP.numeral (Number.isNumeral_toText x)
  | .text s, _, _, _, h => by
    cases h
    exact hP.literal s
  | .template s, _, _, _, h => by
    cases h
    exact hP.template s
  | .expr source, _, _, hv, h => by
    cases h
    rw [Value.allRaw] at hv
    exact of_decide_eq_true hv
  | .call name args, level, text, hv, h => by
    rw [Value.allRaw, Bool.and_eq_true] at hv
    rw [renderValue] at h
    obtain ⟨texts, htexts, h⟩ := ok_of_bind h
    cases h
    have hargs := hP.commas (values hP hv.2 htexts)
    rw [String.toList_append, String.toList_append, String.toList_append]
    rw [List.append_assoc, List.append_assoc]
    exact hP.append (of_decide_eq_true hv.1) (hP.brackets (c := '(') rfl hargs)
  | .list [], _, _, _, h => by
    cases h
    exact hP.brackets (c := '[') rfl hP.nil
  | .list (v :: vs), level, text, hv, h => by
    rw [Value.allRaw] at hv
    rw [renderValue] at h
    split at h
    · obtain ⟨texts, htexts, h⟩ := ok_of_bind h
      cases h
      exact hP.inline (c := '[') rfl rfl rfl (hP.commas (values hP hv htexts))
    · obtain ⟨texts, htexts, h⟩ := ok_of_bind h
      cases h
      refine hP.enclosed (c := '[') level rfl rfl rfl fun l hl => ?_
      obtain ⟨t, ht, rfl⟩ := List.mem_map.mp hl
      rw [String.toList_append, String.toList_append]
      exact hP.append (hP.append (hP.indentation _) (values hP hv htexts t ht)) (hP.inert (by decide))
    · exact List.cons_ne_nil v vs
  | .object [], _, _, _, h => by
    cases h
    exact hP.brackets (c := '\x7b') rfl hP.nil
  | .object ((k, v) :: rest), level, text, hv, h => by
    rw [Value.allRaw] at hv
    rw [renderValue] at h
    · obtain ⟨rendered, hrendered, h⟩ := ok_of_bind h
      cases h
      exact hP.enclosed (c := '\x7b') level rfl rfl rfl (hP.attributeRows (entries hP hv hrendered))
    · exact List.cons_ne_nil (k, v) rest
  | .foreign _, _, _, _, h => by cases h

theorem values (hP : Composes P) : ∀ {vs : List Value} {level : Int} {texts : List String},
    Value.allRawList (holds P) vs = true → renderValues level vs = .ok texts → ∀ t ∈ texts, P t.toList
  | [], _, _, _, h => by
    cases h
    simp
  | v :: vs, level, texts, hv, h => by
    rw [Value.allRawList, Bool.and_eq_true] at hv
    rw [renderValues] at h
    obtain ⟨text, htext, h⟩ := ok_of_bind h
    obtain ⟨rest, hrest, h⟩ := ok_of_bind h
    cases h
    exact List.forall_mem_cons.mpr ⟨value hP hv.1 htext, values hP hv.2 hrest⟩

theorem entries (hP : Composes P) : ∀ {es : List (String × Value)} {level : Int} {rendered : List (String × String)},
    Value.allRawEntries (holds P) es = true → renderEntries level es = .ok rendered →
      ∀ a ∈ rendered, P a.1.toList ∧ P a.2.toList
  | [], _, _, _, h => by
    cases h
    simp
  | (k, v) :: rest, level, rendered, hv, h => by
    rw [Value.allRawEntries, Bool.and_eq_true] at hv
    rw [renderEntries] at h
    obtain ⟨text, htext, h⟩ := ok_of_bind h
    obtain ⟨texts, hrest, h⟩ := ok_of_bind h
    cases h
    exact List.forall_mem_cons.mpr ⟨⟨hP.entryKey k, value hP hv.1 htext⟩, entries hP hv.2 hrest⟩
end

/-! ## Bodies and blocks -/

variable (hP : Composes P)
include hP

theorem attributes {level : Int} {attrs : List Attribute} {lines : List String}
    (ha : ∀ a ∈ attrs, a.toItem.allRaw (holds P) = true) (h : renderAttributes level attrs = .ok lines) :
    P (linesText lines) := by
  obtain ⟨rendered, hr, rfl⟩ := renderAttributes_ok h
  refine hP.lines (hP.attributeRows fun r hmem => ?_)
  obtain ⟨a, hattr, hname, htext⟩ := exists_of_mem_forall₂ hr hmem
  have hitem := ha a hattr
  rw [Attribute.toItem, Item.allRaw, Bool.and_eq_true] at hitem
  rw [hname]
  exact ⟨of_decide_eq_true hitem.1, hP.value hitem.2 htext⟩

/-- A block has the property if its body has. -/
theorem blockRows {level : Int} {type : String} {labels lines : List String}
    {body : List Item} (htype : holds P type = true)
    (hbody : ∀ {inner : List String}, bodyLines (level + 1) none [] body = .ok inner →
      P (linesText inner))
    (h : blockLines level type labels body = .ok lines) : P (linesText lines) := by
  have hhead : P (blockHead type labels).toList := hP.head (of_decide_eq_true htype)
  cases body with
  | nil =>
    rw [blockLines] at h
    cases h
    rw [linesText_singleton, String.toList_append, String.toList_append]
    exact hP.newline (hP.append (hP.append (hP.indentation level) hhead)
      (hP.append (a := [' ']) (hP.inert (by decide)) (hP.brackets (c := '\x7b') rfl hP.nil)))
  | cons item rest =>
    rw [blockLines] at h
    · obtain ⟨inner, hinner, h⟩ := ok_of_bind h
      cases h
      exact hP.block hhead (hbody hinner)
    · exact List.cons_ne_nil item rest

theorem bodyRows : ∀ {items : List Item} {level : Int} {previous : Option Item}
    {run : List Attribute} {lines : List String},
    (∀ a ∈ run, a.toItem.allRaw (holds P) = true) → Item.allRawList (holds P) items = true →
      bodyLines level previous run items = .ok lines → P (linesText lines)
  | [], _, _, _, _, hrun, _, h => by
    rw [bodyLines] at h
    exact hP.attributes hrun h
  | .attribute name value :: rest, level, previous, run, lines, hrun, hitems, h => by
    rw [Item.allRawList, Bool.and_eq_true] at hitems
    rw [bodyLines] at h
    split at h
    · obtain ⟨before, hbefore, h⟩ := ok_of_bind h
      obtain ⟨after, hafter, h⟩ := ok_of_bind h
      cases h
      refine hP.rows_append (hP.attributes hrun hbefore) ?_
      refine hP.rows_append (a := [""]) hP.blankRow ?_
      exact bodyRows (forall_mem_pending (List.forall_mem_nil _) hitems.1) hitems.2 hafter
    · exact bodyRows (forall_mem_pending hrun hitems.1) hitems.2 h
  | .block type labels body :: rest, level, previous, run, lines, hrun, hitems, h => by
    rw [Item.allRawList, Bool.and_eq_true, Item.allRaw, Bool.and_eq_true] at hitems
    rw [bodyLines] at h
    obtain ⟨before, hbefore, h⟩ := ok_of_bind h
    obtain ⟨inner, hinner, h⟩ := ok_of_bind h
    obtain ⟨after, hafter, h⟩ := ok_of_bind h
    cases h
    have hbody : ∀ {inner : List String}, bodyLines (level + 1) none [] body = .ok inner →
        P (linesText inner) :=
      bodyRows (List.forall_mem_nil _) hitems.1.2
    refine hP.rows_append (hP.rows_append (hP.rows_append
      (hP.attributes hrun hbefore) (hP.gap _ _)) ?_) ?_
    · exact hP.blockRows hitems.1.1 hbody hinner
    · exact bodyRows (List.forall_mem_nil _) hitems.2 hafter
  | .comment text :: rest, level, previous, run, lines, hrun, hitems, h => by
    rw [Item.allRawList, Bool.and_eq_true] at hitems
    rw [bodyLines] at h
    obtain ⟨before, hbefore, h⟩ := ok_of_bind h
    obtain ⟨after, hafter, h⟩ := ok_of_bind h
    cases h
    refine hP.rows_append (hP.rows_append (hP.rows_append
      (hP.attributes hrun hbefore) (hP.gap _ _)) ?_) ?_
    · exact hP.comments level text
    · exact bodyRows (List.forall_mem_nil _) hitems.2 hafter
  | .blank :: rest, level, previous, run, lines, hrun, hitems, h => by
    rw [Item.allRawList, Bool.and_eq_true] at hitems
    rw [bodyLines] at h
    obtain ⟨before, hbefore, h⟩ := ok_of_bind h
    obtain ⟨after, hafter, h⟩ := ok_of_bind h
    cases h
    refine hP.rows_append (hP.rows_append (hP.attributes hrun hbefore) (hP.gap _ _)) ?_
    refine hP.rows_append (a := [""]) hP.blankRow ?_
    exact bodyRows (List.forall_mem_nil _) hitems.2 hafter

/-! ## Documents -/

theorem itemRows : ∀ {item : Item} {lines : List String}, item.allRaw (holds P) = true →
    itemLines item = .ok lines → P (linesText lines)
  | .attribute _ _, _, hitem, h =>
    hP.attributes (forall_mem_pending (List.forall_mem_nil _) hitem) h
  | .block _ _ _, _, hitem, h => by
    rw [Item.allRaw, Bool.and_eq_true] at hitem
    exact hP.blockRows hitem.1 (hP.bodyRows (List.forall_mem_nil _) hitem.2) h
  | .comment text, _, _, h => by
    cases h
    exact hP.comments 0 text
  | .blank, _, _, h => by
    cases h
    exact hP.nil

theorem documentRows {items : List Item} {previous : Option Item} {lines : List String}
    (hitems : Item.allRawList (holds P) items = true) (h : documentLines previous items = .ok lines) :
    P (linesText lines) := by
  induction items generalizing previous lines with
  | nil =>
    cases h
    exact hP.nil
  | cons item rest ih =>
    rw [Item.allRawList, Bool.and_eq_true] at hitems
    rw [documentLines] at h
    obtain ⟨inner, hinner, h⟩ := ok_of_bind h
    obtain ⟨after, hafter, h⟩ := ok_of_bind h
    cases h
    refine hP.rows_append (hP.rows_append ?_ (hP.itemRows hitems.1 hinner)) (ih hitems.2 hafter)
    split
    · exact hP.blankRow
    · exact hP.nil

/-- The text of a document has the property if everything raw in the document has. -/
theorem render {d : Document} {text : String} (hd : Item.allRawList (holds P) d.items = true)
    (h : d.render = .ok text) : P text.toList := by
  rw [Document.render] at h
  obtain ⟨lines, hlines, h⟩ := ok_of_bind h
  cases h
  rw [String.toList_append]
  cases lines with
  | nil => exact hP.inert (by decide)
  | cons l rest =>
    rw [show "\n".toList = ['\n'] from rfl, toList_joinLines_append (List.cons_ne_nil l rest)]
    exact hP.documentRows hd hlines

end

end Composes
end Hcl
end Groundplan
