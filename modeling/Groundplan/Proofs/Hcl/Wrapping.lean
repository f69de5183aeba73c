/-
Generated texts as spellings and what stands between them.

A generated text consists of the spellings of the texts of its document and of what the
layout puts between them.  `Wraps` takes it apart that way.  What stands between has no
mark in it if the raw parts and the comments of the document have none, and so a mark
that stays open in front of a spelling comes from one of the spellings before it.
-/
import Groundplan.Proofs.Hcl.Lines
import Groundplan.Proofs.Hcl.Raw
import Groundplan.Proofs.Hcl.Spellings
import Groundplan.Proofs.Number.Numeral

namespace Groundplan
namespace Hcl

/-- A text is made of these spellings, in this order, with sealed stretches before, between
and behind them. -/
inductive Wraps : List Spelling → List Char → Prop
  | still {t : List Char} : Sealed t → Wraps [] t
  | spelling {a : List Char} {p : Spelling} {ps : List Spelling} {t : List Char} :
      Sealed a → Wraps ps t → Wraps (p :: ps) (a ++ (p.written ++ t))

theorem sealed_nil : Sealed [] := sealed_of_not_mem List.not_mem_nil List.not_mem_nil

theorem wraps_spelling (p : Spelling) : Wraps [p] p.written := by
  have h : Wraps [p] ([] ++ (p.written ++ [])) := .spelling sealed_nil (.still sealed_nil)
  rwa [List.nil_append, List.append_nil] at h

theorem Wraps.append {ps qs : List Spelling} {a b : List Char} (ha : Wraps ps a) (hb : Wraps qs b) :
    Wraps (ps ++ qs) (a ++ b) := by
  induction ha with
  | still ht =>
    rw [List.nil_append]
    cases hb with
    | still hb => exact .still (sealed_append ht hb)
    | spelling hc hb =>
      rw [← List.append_assoc]
      exact .spelling (sealed_append ht hc) hb
  | spelling hc _ ih =>
    rw [List.cons_append, List.append_assoc, List.append_assoc]
    exact .spelling hc ih

/-- Something still in front. -/
theorem Wraps.behind {ps : List Spelling} {a b : List Char} (hb : Wraps ps b) (ha : Sealed a) :
    Wraps ps (a ++ b) :=
  (Wraps.still ha).append hb

/-- Something still behind. -/
theorem Wraps.before {ps : List Spelling} {a b : List Char} (ha : Wraps ps a) (hb : Sealed b) :
    Wraps ps (a ++ b) := by
  have h := ha.append (.still hb)
  rwa [List.append_nil] at h

theorem wraps_flatMap {α β : Type} {f : α → List Spelling} {g : β → List Char} {xs : List α}
    {ys : List β} (h : List.Forall₂ (fun x y => Wraps (f x) (g y)) xs ys) :
    Wraps (xs.flatMap f) (ys.flatMap g) := by
  induction h with
  | nil => exact .still sealed_nil
  | cons hfirst _ ih =>
    rw [List.flatMap_cons, List.flatMap_cons]
    exact hfirst.append ih

/-- Where a spelling stands, and what stands in front of it. -/
theorem Wraps.split {before after : List Spelling} {p : Spelling} {t : List Char}
    (h : Wraps (before ++ p :: after) t) :
    ∃ a b, t = a ++ (p.written ++ b) ∧ Wraps before a := by
  induction before generalizing t with
  | nil =>
    cases h with
    | spelling hc _ => exact ⟨_, _, rfl, .still hc⟩
  | cons q before ih =>
    cases h with
    | spelling hc hrest =>
      obtain ⟨a, b, rfl, hbefore⟩ := ih hrest
      refine ⟨_ ++ (q.written ++ a), b, ?_, .spelling hc hbefore⟩
      simp only [List.append_assoc]

/-- If all of its texts close what they open, nothing in a text stays open. -/
theorem Wraps.sealed {ps : List Spelling} {t : List Char} (h : Wraps ps t)
    (hps : ∀ p ∈ ps, Closes p.text) : Sealed t := by
  induction h with
  | still ht => exact ht
  | spelling hc _ ih =>
    rw [List.forall_mem_cons] at hps
    exact sealed_append hc (sealed_append (Spelling.sealed_written hps.1) (ih hps.2))

/-! ## Lines and lists -/

theorem sealed_of_class {q : Char → Bool} (hdollar : q '$' = false) (hreturn : q '\r' = false)
    {cs : List Char} (h : ∀ c ∈ cs, q c = true) : Sealed cs := by
  refine sealed_of_not_mem (fun hmem => ?_) fun hmem => ?_
  · rw [h _ hmem] at hdollar
    cases hdollar
  · rw [h _ hmem] at hreturn
    cases hreturn

theorem sealed_spaces (n : Nat) : Sealed (spaces n) := by
  refine sealed_of_not_mem (fun hmem => ?_) fun hmem => ?_
  · exact absurd (mem_spaces hmem) (by decide)
  · exact absurd (mem_spaces hmem) (by decide)

theorem sealed_indent (level : Int) : Sealed (indent level).toList := by
  rw [toList_indent]
  exact sealed_spaces _

theorem sealed_newline : Sealed ['\n'] := sealed_of_not_mem (by decide) (by decide)

theorem wraps_linesText {α : Type} {f : α → List Spelling} {xs : List α} {lines : List String}
    (h : List.Forall₂ (fun x l => Wraps (f x) l.toList) xs lines) :
    Wraps (xs.flatMap f) (linesText lines) :=
  wraps_flatMap (h.imp fun _ _ hl => hl.before sealed_newline)

/-- Texts with commas between them. -/
theorem wraps_commas {α : Type} {f : α → List Spelling} {xs : List α} {texts : List String}
    (h : List.Forall₂ (fun x t => Wraps (f x) t.toList) xs texts) :
    Wraps (xs.flatMap f) (", ".intercalate texts).toList := by
  induction h with
  | nil => exact .still sealed_nil
  | @cons x t xs texts hfirst hrest ih =>
    cases texts with
    | nil =>
      cases hrest
      rw [String.intercalate_singleton, List.flatMap_cons, List.flatMap_nil, List.append_nil]
      exact hfirst
    | cons u texts =>
      rw [String.intercalate_cons_cons, String.toList_append, String.toList_append, List.flatMap_cons]
      exact (hfirst.before (sealed_of_not_mem (by decide) (by decide))).append ih

/-- Lines between an opening one and a closing one. -/
theorem wraps_enclosed {a b : String} {ps : List Spelling} (level : Int) {lines : List String}
    (ha : Sealed a.toList) (hb : Sealed b.toList) (h : Wraps ps (linesText lines)) :
    Wraps ps (joinLines (a :: (lines ++ [indent level ++ b]))).toList := by
  rw [toList_joinLines_enclosed, String.toList_append, ← List.singleton_append]
  exact ((h.before (sealed_append (sealed_indent level) hb)).behind sealed_newline).behind ha

/-! ## Attributes -/

theorem wraps_attributeLine {level : Int} {r : String × String} {line : String}
    {ps qs : List Spelling} (hname : Wraps ps r.1.toList) (htext : Wraps qs r.2.toList)
    (h : IsAttributeLine level r line) : Wraps (ps ++ qs) line.toList := by
  obtain ⟨n, hline⟩ := h
  have hsign : Sealed " = ".toList := sealed_of_not_mem (by decide) (by decide)
  rw [hline]
  exact (hname.append ((htext.behind hsign).behind (sealed_spaces n))).behind (sealed_spaces _)

theorem forall₂_alignedLines (level : Int) (group : List (String × String)) :
    List.Forall₂ (IsAttributeLine level) group (alignedLines level group) := by
  rw [alignedLines, List.forall₂_map_right_iff, List.forall₂_same]
  intro r _
  refine ⟨maxLength (group.map Prod.fst) - r.1.length, ?_⟩
  simp only [String.toList_append, toList_indent, toList_padName, List.append_assoc]

/-- There is one line for each attribute, in the order of the attributes. -/
theorem forall₂_attributeLines (level : Int) (attrs : List (String × String)) :
    List.Forall₂ (IsAttributeLine level) attrs (attributeLines level attrs) := by
  rw [attributeLines]
  conv => lhs; rw [← List.flatten_splitBy (fun a b => !isMultiLine a.2 && !isMultiLine b.2) attrs]
  generalize attrs.splitBy _ = groups
  induction groups with
  | nil => exact .nil
  | cons group groups ih =>
    rw [List.flatten_cons, List.flatMap_cons]
    refine List.rel_append ?_ ih
    split
    · rename_i name text
      split
      · refine .cons ⟨0, ?_⟩ .nil
        simp [toList_indent, spaces]
      · exact forall₂_alignedLines level _
    · exact forall₂_alignedLines level _

/-! ## Values -/

theorem spellingsList_eq_flatMap : ∀ vs : List Value, Value.spellingsList vs = vs.flatMap Value.spellings
  | [] => rfl
  | v :: vs => by rw [Value.spellingsList, List.flatMap_cons, spellingsList_eq_flatMap vs]

def entrySpellings (e : String × Value) : List Spelling := [.key e.1] ++ e.2.spellings

theorem spellingsEntries_eq_flatMap :
    ∀ es : List (String × Value), Value.spellingsEntries es = es.flatMap entrySpellings
  | [] => rfl
  | (k, v) :: rest => by
    rw [Value.spellingsEntries, List.flatMap_cons, spellingsEntries_eq_flatMap rest]
    rfl

/-- An attribute whose name and value are written as said. -/
def WrapsAttribute (ps : List Spelling) (r : String × String) : Prop :=
  ∃ names values, ps = names ++ values ∧ Wraps names r.1.toList ∧ Wraps values r.2.toList

theorem wraps_attributeLines {α : Type} {f : α → List Spelling} {xs : List α}
    {attrs : List (String × String)} (level : Int)
    (h : List.Forall₂ (fun x r => WrapsAttribute (f x) r) xs attrs) :
    Wraps (xs.flatMap f) (linesText (attributeLines level attrs)) := by
  refine wraps_linesText ?_
  have hlines := forall₂_attributeLines level attrs
  generalize attributeLines level attrs = lines at hlines
  induction h generalizing lines with
  | nil =>
    cases hlines
    exact .nil
  | cons hfirst _ ih =>
    cases hlines with
    | cons hline hlines =>
      obtain ⟨names, values, heq, hname, hvalue⟩ := hfirst
      refine .cons ?_ (ih _ hlines)
      rw [heq]
      exact wraps_attributeLine hname hvalue hline

mutual
theorem wraps_renderValue : ∀ {v : Value} {level : Int} {text : String},
    v.allRaw isStill = true → renderValue level v = .ok text → Wraps v.spellings text.toList
  | .null, _, _, _, h => by
    cases h
    exact .still (sealed_of_isStill (by decide))
  | .bool b, _, _, _, h => by
    cases h
    cases b <;> exact .still (sealed_of_isStill (by decide))
  | .int n, _, _, _, h => by
    cases h
    exact .still (sealed_of_class (by decide) (by decide) (Number.isNumeral_toString n))
  | .float x, _, _, _, h => by
    cases h
    exact .still (sealed_of_class (by decide) (by decide) (Number.isNumeral_toText x))
  | .text s, _, _, _, h => by
    cases h
    exact wraps_spelling (.literal s)
  | .template s, _, _, _, h => by
    cases h
    exact wraps_spelling (.template s)
  | .expr source, _, _, hv, h => by
    cases h
    rw [Value.allRaw] at hv
    exact .still (sealed_of_isStill hv)
  | .call name args, level, text, hv, h => by
    rw [Value.allRaw, Bool.and_eq_true] at hv
    rw [renderValue] at h
    obtain ⟨texts, htexts, h⟩ := ok_of_bind h
    cases h
    have hargs := wraps_commas (forall₂_renderValues hv.2 htexts)
    rw [Value.spellings, spellingsList_eq_flatMap, String.toList_append, String.toList_append,
      String.toList_append]
    exact (hargs.behind (sealed_append (sealed_of_isStill hv.1)
      (sealed_of_isStill (by decide)))).before (sealed_of_isStill (by decide))
  | .list [], _, _, _, h => by
    cases h
    exact .still (sealed_of_isStill (by decide))
  | .list (v :: vs), level, text, hv, h => by
    rw [Value.allRaw] at hv
    rw [renderValue] at h
    · rw [Value.spellings, spellingsList_eq_flatMap]
      split at h
      · obtain ⟨texts, htexts, h⟩ := ok_of_bind h
        cases h
        rw [String.toList_append, String.toList_append]
        exact ((wraps_commas (forall₂_renderValues hv htexts)).behind
          (sealed_of_isStill (by decide))).before (sealed_of_isStill (by decide))
      · obtain ⟨texts, htexts, h⟩ := ok_of_bind h
        cases h
        refine wraps_enclosed level (sealed_of_isStill (by decide)) (sealed_of_isStill (by decide))
          (wraps_linesText ?_)
        refine List.forall₂_map_right_iff.mpr ((forall₂_renderValues hv htexts).imp fun _ t ht => ?_)
        rw [String.toList_append, String.toList_append]
        exact (ht.behind (sealed_indent _)).before (sealed_of_isStill (by decide))
    · exact List.cons_ne_nil v vs
  | .object [], _, _, _, h => by
    cases h
    exact .still (sealed_of_isStill (by decide))
  | .object ((k, v) :: rest), level, text, hv, h => by
    rw [Value.allRaw] at hv
    rw [renderValue] at h
    · obtain ⟨entries, hentries, h⟩ := ok_of_bind h
      cases h
      rw [Value.spellings, spellingsEntries_eq_flatMap]
      exact wraps_enclosed level (sealed_of_isStill (by decide)) (sealed_of_isStill (by decide))
        (wraps_attributeLines _ (forall₂_renderEntries hv hentries))
    · exact List.cons_ne_nil (k, v) rest
  | .foreign _, _, _, _, h => by cases h

theorem forall₂_renderValues : ∀ {vs : List Value} {level : Int} {texts : List String},
    Value.allRawList isStill vs = true → renderValues level vs = .ok texts →
      List.Forall₂ (fun v t => Wraps v.spellings t.toList) vs texts
  | [], _, _, _, h => by
    cases h
    exact .nil
  | v :: vs, level, texts, hv, h => by
    rw [Value.allRawList, Bool.and_eq_true] at hv
    rw [renderValues] at h
    obtain ⟨text, htext, h⟩ := ok_of_bind h
    obtain ⟨rest, hrest, h⟩ := ok_of_bind h
    cases h
    exact .cons (wraps_renderValue hv.1 htext) (forall₂_renderValues hv.2 hrest)

theorem forall₂_renderEntries : ∀ {es : List (String × Value)} {level : Int}
    {rendered : List (String × String)}, Value.allRawEntries isStill es = true →
      renderEntries level es = .ok rendered →
        List.Forall₂ (fun e r => WrapsAttribute (entrySpellings e) r) es rendered
  | [], _, _, _, h => by
    cases h
    exact .nil
  | (k, v) :: rest, level, rendered, hv, h => by
    rw [Value.allRawEntries, Bool.and_eq_true] at hv
    rw [renderEntries] at h
    obtain ⟨text, htext, h⟩ := ok_of_bind h
    obtain ⟨texts, hrest, h⟩ := ok_of_bind h
    cases h
    exact .cons ⟨[.key k], v.spellings, rfl, wraps_spelling (.key k), wraps_renderValue hv.1 htext⟩
      (forall₂_renderEntries hv.2 hrest)
end

/-! ## Bodies and blocks -/

theorem sealed_blank : Sealed (linesText [""]) := sealed_newline

/-- The texts of the attributes that wait for their column. -/
def pendingSpellings (run : List Attribute) : List Spelling := run.flatMap fun a => a.value.spellings

theorem wraps_renderAttributes {level : Int} {attrs : List Attribute} {lines : List String}
    (ha : ∀ a ∈ attrs, a.toItem.allRaw isStill = true)
    (h : renderAttributes level attrs = .ok lines) :
    Wraps (pendingSpellings attrs) (linesText lines) := by
  obtain ⟨rendered, hr, rfl⟩ := renderAttributes_ok h
  refine wraps_attributeLines level ?_
  clear h
  induction hr with
  | nil => exact .nil
  | @cons a r attrs rendered hfirst _ ih =>
    rw [List.forall_mem_cons] at ha
    have hitem := ha.1
    rw [Attribute.toItem, Item.allRaw, Bool.and_eq_true] at hitem
    obtain ⟨hname, htext⟩ := hfirst
    refine .cons ⟨[], a.value.spellings, rfl, ?_, wraps_renderValue hitem.2 htext⟩ (ih ha.2)
    rw [hname]
    exact .still (sealed_of_isStill hitem.1)

theorem sealed_gapLines (previous : Option Item) (item : Item) :
    Sealed (linesText (gapLines previous item)) := by
  rw [gapLines]
  split
  · exact sealed_blank
  · exact sealed_nil

theorem sealed_commentLines (level : Int) {text : String} (h : isStill text = true) :
    Sealed (linesText (commentLines level text)) := by
  have hmem : ∀ c ∈ linesText (commentLines level text), c ∈ ['\n', ' ', '#'] ∨ c ∈ text.toList := by
    intro c hc
    obtain ⟨line, hline, hc⟩ := List.mem_flatMap.mp hc
    obtain ⟨l, hl, rfl⟩ := List.mem_map.mp hline
    obtain ⟨cs, hcs, rfl⟩ := List.mem_map.mp hl
    rcases List.mem_append.mp hc with hc | hc
    · rw [Text.stripEnd, String.toList_ofList] at hc
      replace hc := Text.trimEndBy_subset _ _ hc
      simp only [String.toList_append, toList_indent, String.toList_ofList] at hc
      rcases List.mem_append.mp hc with hc | hc
      · rcases List.mem_append.mp hc with hc | hc
        · rw [mem_spaces hc]
          exact .inl (by decide)
        · exact .inl (List.mem_cons_of_mem _ (List.mem_reverse.mpr hc))
      · exact .inr (Text.subset_of_mem_splitLines hcs hc)
    · rw [List.mem_singleton.mp hc]
      exact .inl (by decide)
  obtain ⟨hdollar, hreturn⟩ := isStill_iff.mp h
  refine sealed_of_not_mem (fun hc => ?_) fun hc => ?_
  · exact hdollar ((hmem _ hc).resolve_left (by decide))
  · exact hreturn ((hmem _ hc).resolve_left (by decide))

theorem wraps_words {first : String} {ps : List Spelling} (labels : List String)
    (h : Wraps ps first.toList) :
    Wraps (ps ++ labels.map .literal) (" ".intercalate (first :: labels.map quote)).toList := by
  induction labels generalizing first ps with
  | nil =>
    simp only [List.map_nil, List.append_nil, String.intercalate_singleton]
    exact h
  | cons l labels ih =>
    have hrest := ih (wraps_spelling (.literal l))
    simp only [List.map_cons, String.intercalate_cons_cons, String.toList_append]
    exact (h.before (sealed_of_isStill (by decide))).append hrest

theorem wraps_blockHead {type : String} (labels : List String) (h : isStill type = true) :
    Wraps (labels.map .literal) (blockHead type labels).toList :=
  wraps_words labels (.still (sealed_of_isStill h))

/-- A block writes its labels and then its body. -/
theorem wraps_blockLines {level : Int} {type : String} {labels lines : List String}
    {body : List Item} (htype : isStill type = true)
    (hbody : ∀ {inner : List String}, bodyLines (level + 1) none [] body = .ok inner →
      Wraps (Item.spellingsList body) (linesText inner))
    (h : blockLines level type labels body = .ok lines) :
    Wraps (Item.block type labels body).spellings (linesText lines) := by
  have hhead := (wraps_blockHead labels htype).behind (sealed_indent level)
  rw [Item.spellings]
  cases body with
  | nil =>
    rw [blockLines] at h
    cases h
    rw [Item.spellingsList, List.append_nil, linesText_singleton, String.toList_append,
      String.toList_append]
    exact (hhead.before (sealed_of_isStill (by decide))).before sealed_newline
  | cons item rest =>
    rw [blockLines] at h
    · obtain ⟨inner, hinner, h⟩ := ok_of_bind h
      cases h
      have hclose : Sealed (linesText [indent level ++ "\x7d"]) := by
        rw [linesText_singleton, String.toList_append]
        exact sealed_append (sealed_append (sealed_indent level) (sealed_of_isStill (by decide)))
          sealed_newline
      have hopen := (hhead.before (sealed_of_isStill (s := " \x7b") (by decide))).before sealed_newline
      rw [linesText_cons, linesText_append, String.toList_append, String.toList_append]
      have hall := hopen.append ((hbody hinner).before hclose)
      rwa [List.append_assoc _ ['\n'], List.singleton_append] at hall
    · exact List.cons_ne_nil item rest

/-- The lines of an item behind those of the attributes that waited for it. -/
theorem wraps_paragraph {run : List Attribute} {previous : Option Item} {item : Item}
    {rest : List Item} {level : Int} {before inner after : List String}
    (hrun : ∀ a ∈ run, a.toItem.allRaw isStill = true)
    (hbefore : renderAttributes level run = .ok before) (hinner : Wraps item.spellings (linesText inner))
    (hafter : Wraps (Item.spellingsList rest) (linesText after)) :
    Wraps (pendingSpellings run ++ Item.spellingsList (item :: rest))
      (linesText (before ++ gapLines previous item ++ inner ++ after)) := by
  have hfront := (wraps_renderAttributes hrun hbefore).before (sealed_gapLines previous item)
  rw [Item.spellingsList, linesText_append, linesText_append, linesText_append, List.append_assoc _ _ (linesText after)]
  exact hfront.append (hinner.append hafter)

theorem wraps_bodyLines : ∀ {items : List Item} {level : Int} {previous : Option Item}
    {run : List Attribute} {lines : List String},
    (∀ a ∈ run, a.toItem.allRaw isStill = true) → Item.allRawList isStill items = true →
      Item.allRemarksList isStill items = true → bodyLines level previous run items = .ok lines →
        Wraps (pendingSpellings run ++ Item.spellingsList items) (linesText lines)
  | [], _, _, _, _, hrun, _, _, h => by
    rw [bodyLines] at h
    rw [Item.spellingsList, List.append_nil]
    exact wraps_renderAttributes hrun h
  | .attribute name value :: rest, level, previous, run, lines, hrun, hitems, hremarks, h => by
    rw [Item.allRawList, Bool.and_eq_true] at hitems
    rw [Item.allRemarksList, Bool.and_eq_true] at hremarks
    rw [bodyLines] at h
    split at h
    · obtain ⟨before, hbefore, h⟩ := ok_of_bind h
      obtain ⟨after, hafter, h⟩ := ok_of_bind h
      cases h
      have hrest := wraps_bodyLines (forall_mem_pending (List.forall_mem_nil _) hitems.1) hitems.2
        hremarks.2 hafter
      have hbehind := hrest.behind sealed_blank
      rw [← linesText_append, List.singleton_append] at hbehind
      have hall := (wraps_renderAttributes hrun hbefore).append hbehind
      rw [← linesText_append] at hall
      simpa [pendingSpellings, Item.spellingsList, Item.spellings] using hall
    · have hrest := wraps_bodyLines (forall_mem_pending hrun hitems.1) hitems.2 hremarks.2 h
      simpa [pendingSpellings, Item.spellingsList, Item.spellings] using hrest
  | .block type labels body :: rest, level, previous, run, lines, hrun, hitems, hremarks, h => by
    rw [Item.allRawList, Bool.and_eq_true, Item.allRaw, Bool.and_eq_true] at hitems
    rw [Item.allRemarksList, Bool.and_eq_true, Item.allRemarks] at hremarks
    rw [bodyLines] at h
    obtain ⟨before, hbefore, h⟩ := ok_of_bind h
    obtain ⟨inner, hinner, h⟩ := ok_of_bind h
    obtain ⟨after, hafter, h⟩ := ok_of_bind h
    cases h
    have hbody : ∀ {inner : List String}, bodyLines (level + 1) none [] body = .ok inner →
        Wraps (Item.spellingsList body) (linesText inner) :=
      wraps_bodyLines (List.forall_mem_nil _) hitems.1.2 hremarks.1
    exact wraps_paragraph hrun hbefore (wraps_blockLines hitems.1.1 hbody hinner)
      (wraps_bodyLines (List.forall_mem_nil _) hitems.2 hremarks.2 hafter)
  | .comment text :: rest, level, previous, run, lines, hrun, hitems, hremarks, h => by
    rw [Item.allRawList, Bool.and_eq_true] at hitems
    rw [Item.allRemarksList, Bool.and_eq_true, Item.allRemarks] at hremarks
    rw [bodyLines] at h
    obtain ⟨before, hbefore, h⟩ := ok_of_bind h
    obtain ⟨after, hafter, h⟩ := ok_of_bind h
    cases h
    exact wraps_paragraph hrun hbefore (.still (sealed_commentLines level hremarks.1))
      (wraps_bodyLines (List.forall_mem_nil _) hitems.2 hremarks.2 hafter)
  | .blank :: rest, level, previous, run, lines, hrun, hitems, hremarks, h => by
    rw [Item.allRawList, Bool.and_eq_true] at hitems
    rw [Item.allRemarksList, Bool.and_eq_true] at hremarks
    rw [bodyLines] at h
    obtain ⟨before, hbefore, h⟩ := ok_of_bind h
    obtain ⟨after, hafter, h⟩ := ok_of_bind h
    cases h
    have hall : Wraps (pendingSpellings run ++ Item.spellingsList (.blank :: rest))
        (linesText (before ++ gapLines previous .blank ++ [""] ++ after)) :=
      wraps_paragraph hrun hbefore (.still sealed_blank)
        (wraps_bodyLines (List.forall_mem_nil _) hitems.2 hremarks.2 hafter)
    rwa [List.append_assoc _ [""], List.singleton_append] at hall

/-! ## Documents -/

theorem wraps_itemLines : ∀ {item : Item} {lines : List String}, item.allRaw isStill = true →
    item.allRemarks isStill = true → itemLines item = .ok lines →
      Wraps item.spellings (linesText lines)
  | .attribute name value, lines, hitem, _, h => by
    have hall := wraps_renderAttributes (forall_mem_pending (List.forall_mem_nil _) hitem) h
    simpa [pendingSpellings, Item.spellings] using hall
  | .block _ _ _, _, hitem, hremarks, h => by
    rw [Item.allRaw, Bool.and_eq_true] at hitem
    rw [Item.allRemarks] at hremarks
    exact wraps_blockLines hitem.1
      (wraps_bodyLines (List.forall_mem_nil _) hitem.2 hremarks) h
  | .comment text, _, _, hremarks, h => by
    rw [Item.allRemarks] at hremarks
    cases h
    exact .still (sealed_commentLines 0 hremarks)
  | .blank, _, _, _, h => by
    cases h
    exact .still sealed_nil

theorem wraps_documentLines {items : List Item} {previous : Option Item} {lines : List String}
    (hitems : Item.allRawList isStill items = true) (hremarks : Item.allRemarksList isStill items = true)
    (h : documentLines previous items = .ok lines) :
    Wraps (Item.spellingsList items) (linesText lines) := by
  induction items generalizing previous lines with
  | nil =>
    cases h
    exact .still sealed_nil
  | cons item rest ih =>
    rw [Item.allRawList, Bool.and_eq_true] at hitems
    rw [Item.allRemarksList, Bool.and_eq_true] at hremarks
    rw [documentLines] at h
    obtain ⟨inner, hinner, h⟩ := ok_of_bind h
    obtain ⟨after, hafter, h⟩ := ok_of_bind h
    cases h
    have hgap : Sealed (linesText (if previous.any (!·.isComment) then [""] else [])) := by
      split
      · exact sealed_blank
      · exact sealed_nil
    rw [Item.spellingsList, linesText_append, linesText_append]
    exact ((wraps_itemLines hitems.1 hremarks.1 hinner).behind hgap).append
      (ih hitems.2 hremarks.2 hafter)

end Hcl
end Groundplan
