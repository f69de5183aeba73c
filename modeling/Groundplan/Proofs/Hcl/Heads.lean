/-
The rows of a document that start with a letter.

Bodies are indented, comments start with a hash sign and closing brackets are no
letters, so only the first rows of top-level blocks start with one.  This fails as soon
as something raw brings a row of its own, and holds for every text that is quoted.
-/
import Groundplan.Proofs.Hcl.Rows
import Groundplan.Proofs.Text.Names

namespace Groundplan
namespace Hcl
namespace Rows

open Text

/-! ## Parts of lines -/

theorem hangs_spaces (fresh : Bool) (n : Nat) : hangs fresh (spaces n) = true := by
  cases n with
  | zero => rfl
  | succ n =>
    have h := hangs_spaces_append n.succ_ne_zero fresh []
    rw [List.append_nil] at h
    rw [h]
    rfl

theorem hangs_append_spaces (fresh : Bool) (a : List Char) (n : Nat) :
    hangs fresh (a ++ spaces n) = hangs fresh a := by
  cases n with
  | zero => rw [spaces, List.replicate_zero, List.append_nil]
  | succ n =>
    rw [spaces, List.replicate_succ, hangs_append_cons (by decide)]
    show (hangs fresh a && hangs false (spaces n)) = hangs fresh a
    rw [hangs_spaces, Bool.and_true]

theorem hangs_numeral {cs : List Char} (h : Number.IsNumeral cs) : hangs false cs = true := by
  refine hangs_of_not_mem fun hn => ?_
  exact absurd (h '\n' hn) (by decide)

theorem hangs_quote (s : String) : hangs false (quote s).toList = true :=
  hangs_of_not_mem (break_not_mem_quote (.inl rfl) s)

/-- A newline at the end of a name starts no letter. -/
theorem hangs_of_isName {first further : Char → Bool} (hfirst : first '\n' = false)
    (hfurther : further '\n' = false) {cs : List Char} (h : isName first further cs = true) :
    hangs false cs = true := by
  obtain ⟨word, hword, hcs⟩ := exists_word_of_isName hfirst hfurther h
  rcases hcs with rfl | rfl
  · exact hangs_of_not_mem hword
  · rw [hangs_append_of_not_mem hword]
    rfl

theorem hangs_key (k : String) : hangs false (key k).toList = true := by
  rw [key]
  by_cases h : Text.isIdentifier k && !reservedKeys.contains k
  · rw [if_pos h]
    rw [Bool.and_eq_true] at h
    exact hangs_of_isName (by decide) (by decide) h.1
  · rw [if_neg h]
    exact hangs_quote k

theorem hangs_commas {texts : List String} (h : ∀ t ∈ texts, hangs false t.toList = true) :
    hangs false (", ".intercalate texts).toList = true := by
  induction texts with
  | nil => rfl
  | cons t rest ih =>
    cases rest with
    | nil =>
      rw [String.intercalate_singleton]
      exact h t List.mem_cons_self
    | cons u rest =>
      rw [String.intercalate_cons_cons, String.toList_append, String.toList_append,
        List.append_assoc, show ", ".toList = [',', ' '] from rfl, List.cons_append,
        hangs_append_cons (by decide), h t List.mem_cons_self, Bool.true_and]
      exact ih fun x hx => h x (List.mem_cons_of_mem t hx)

/-- Something hanging between two brackets. -/
theorem hangs_brackets {c d : Char} (hc : isLetter c = false) (hd : isLetter d = false)
    (hcn : c ≠ '\n') (fresh : Bool) {a b : List Char} (ha : hangs fresh a = true)
    (hb : hangs false b = true) : hangs fresh (a ++ c :: (b ++ [d])) = true := by
  rw [hangs_append_cons hc, hangs_append_cons hd, ha, beq_eq_false_iff_ne.mpr hcn, hb]
  rfl

/-! ## Attributes -/

theorem two_mul_toNat_ne_zero {level : Int} (h : 0 < level) : (2 * level).toNat ≠ 0 := by omega

theorem hangs_attributeLine {level : Int} (hlevel : 0 < level) {a : String × String} {line : String}
    (hname : hangs false a.1.toList = true) (htext : hangs false a.2.toList = true)
    (h : IsAttributeLine level a line) : hangs true line.toList = true := by
  obtain ⟨n, hline⟩ := h
  rw [hline, hangs_spaces_append (two_mul_toNat_ne_zero hlevel), ← List.append_assoc,
    show " = ".toList = [' ', '=', ' '] from rfl, List.cons_append, hangs_append_cons (by decide),
    hangs_append_spaces, hname, Bool.true_and]
  exact htext

theorem hangs_attributeLines {level : Int} (hlevel : 0 < level) {attrs : List (String × String)}
    (h : ∀ a ∈ attrs, hangs false a.1.toList = true ∧ hangs false a.2.toList = true) :
    ∀ line ∈ attributeLines level attrs, hangs true line.toList = true := by
  intro line hline
  obtain ⟨a, ha, hshape⟩ := mem_attributeLines hline
  exact hangs_attributeLine hlevel (h a ha).1 (h a ha).2 hshape

theorem hangs_enclosed {a b : String} {c d : Char} (level : Int) {lines : List String}
    (ha : a.toList = [c]) (hb : b.toList = [d]) (hd : isLetter d = false)
    (h : ∀ l ∈ lines, hangs true l.toList = true) :
    hangs false (joinLines (a :: (lines ++ [indent level ++ b]))).toList = true := by
  rw [toList_joinLines_enclosed, ha, String.toList_append, hb, hangs_append_cons (by decide)]
  show (hangs false [c] && hangs true (linesText lines ++ ((indent level).toList ++ [d]))) = true
  rw [hangs_linesText_append h, toList_indent, hangs_append_cons hd, hangs_spaces]
  rfl

/-! ## Values -/

mutual
theorem hangs_renderValue : ∀ {v : Value} {level : Int} {text : String}, 0 ≤ level →
    v.allRaw isHanging = true → renderValue level v = .ok text → hangs false text.toList = true
  | .null, _, _, _, _, h => by
    cases h
    decide
  | .bool b, _, _, _, _, h => by
    cases h
    cases b <;> decide
  | .int n, _, _, _, _, h => by
    cases h
    exact hangs_numeral (Number.isNumeral_toString n)
  | .float x, _, _, _, _, h => by
    cases h
    exact hangs_numeral (Number.isNumeral_toText x)
  | .text s, _, _, _, _, h => by
    cases h
    exact hangs_quote s
  | .template s, _, _, _, _, h => by
    cases h
    exact hangs_of_not_mem (break_not_mem_quoteTemplate (.inl rfl) s)
  | .expr source, _, _, _, hv, h => by
    cases h
    exact hv
  | .call name args, level, text, hlevel, hv, h => by
    rw [Value.allRaw, Bool.and_eq_true] at hv
    rw [renderValue] at h
    obtain ⟨texts, htexts, h⟩ := ok_of_bind h
    cases h
    have hargs := hangs_commas (hangs_renderValues hlevel hv.2 htexts)
    rw [String.toList_append, String.toList_append, String.toList_append, List.append_assoc,
      List.append_assoc]
    exact hangs_brackets (c := '(') (d := ')') (by decide) (by decide) (by decide) false hv.1 hargs
  | .list [], _, _, _, _, h => by
    cases h
    decide
  | .list (v :: vs), level, text, hlevel, hv, h => by
    rw [Value.allRaw] at hv
    rw [renderValue] at h
    split at h
    · obtain ⟨texts, htexts, h⟩ := ok_of_bind h
      cases h
      have hitems := hangs_commas (hangs_renderValues hlevel hv htexts)
      rw [String.toList_append, String.toList_append, List.append_assoc]
      exact hangs_brackets (c := '[') (d := ']') (a := []) (by decide) (by decide) (by decide) false
        rfl hitems
    · obtain ⟨texts, htexts, h⟩ := ok_of_bind h
      cases h
      refine hangs_enclosed (c := '[') level rfl rfl (by decide) fun l hl => ?_
      obtain ⟨t, ht, rfl⟩ := List.mem_map.mp hl
      have hinner : 0 < level + 1 := by omega
      rw [String.toList_append, String.toList_append, List.append_assoc, toList_indent,
        hangs_spaces_append (two_mul_toNat_ne_zero hinner), show ",".toList = [','] from rfl,
        hangs_append_cons (by decide), hangs_renderValues (by omega) hv htexts t ht]
      rfl
    · exact List.cons_ne_nil v vs
  | .object [], _, _, _, _, h => by
    cases h
    decide
  | .object ((k, v) :: rest), level, text, hlevel, hv, h => by
    rw [Value.allRaw] at hv
    rw [renderValue] at h
    · obtain ⟨entries, hentries, h⟩ := ok_of_bind h
      cases h
      exact hangs_enclosed (c := '\x7b') level rfl rfl (by decide)
        (hangs_attributeLines (by omega) (hangs_renderEntries (by omega) hv hentries))
    · exact List.cons_ne_nil (k, v) rest
  | .foreign _, _, _, _, _, h => by cases h

theorem hangs_renderValues : ∀ {vs : List Value} {level : Int} {texts : List String}, 0 ≤ level →
    Value.allRawList isHanging vs = true → renderValues level vs = .ok texts →
      ∀ t ∈ texts, hangs false t.toList = true
  | [], _, _, _, _, h => by
    cases h
    simp
  | v :: vs, level, texts, hlevel, hv, h => by
    rw [Value.allRawList, Bool.and_eq_true] at hv
    rw [renderValues] at h
    obtain ⟨text, htext, h⟩ := ok_of_bind h
    obtain ⟨rest, hrest, h⟩ := ok_of_bind h
    cases h
    exact List.forall_mem_cons.mpr
      ⟨hangs_renderValue hlevel hv.1 htext, hangs_renderValues hlevel hv.2 hrest⟩

theorem hangs_renderEntries : ∀ {es : List (String × Value)} {level : Int}
    {rendered : List (String × String)}, 0 ≤ level → Value.allRawEntries isHanging es = true →
      renderEntries level es = .ok rendered →
        ∀ a ∈ rendered, hangs false a.1.toList = true ∧ hangs false a.2.toList = true
  | [], _, _, _, _, h => by
    cases h
    simp
  | (k, v) :: rest, level, rendered, hlevel, hv, h => by
    rw [Value.allRawEntries, Bool.and_eq_true] at hv
    rw [renderEntries] at h
    obtain ⟨text, htext, h⟩ := ok_of_bind h
    obtain ⟨texts, hrest, h⟩ := ok_of_bind h
    cases h
    exact List.forall_mem_cons.mpr
      ⟨⟨hangs_key k, hangs_renderValue hlevel hv.1 htext⟩, hangs_renderEntries hlevel hv.2 hrest⟩
end

/-! ## Bodies -/

/-- The lines of a body or of a block are quiet: no row of them starts with a letter. -/
def Quiet (lines : List String) : Prop := ∀ l ∈ lines, hangs true l.toList = true

theorem quiet_append {a b : List String} (ha : Quiet a) (hb : Quiet b) : Quiet (a ++ b) :=
  List.forall_mem_append.mpr ⟨ha, hb⟩

theorem quiet_cons {l : String} {lines : List String} (hl : hangs true l.toList = true)
    (h : Quiet lines) : Quiet (l :: lines) :=
  List.forall_mem_cons.mpr ⟨hl, h⟩

theorem quiet_nil : Quiet [] := fun _ h => absurd h List.not_mem_nil

theorem quiet_commentLines (level : Int) (text : String) : Quiet (commentLines level text) := by
  intro line hline
  obtain ⟨rest, hshape, hone⟩ := mem_commentLines hline
  rw [hshape, hangs_append_cons (by decide), hangs_spaces, Bool.true_and]
  exact hangs_of_not_mem hone.newline_not_mem

theorem quiet_gapLines (previous : Option Item) (item : Item) : Quiet (gapLines previous item) := by
  rw [gapLines]
  split
  · exact quiet_cons rfl quiet_nil
  · exact quiet_nil

theorem quiet_renderAttributes {level : Int} (hlevel : 0 < level) {attrs : List Attribute}
    {lines : List String} (ha : ∀ a ∈ attrs, a.toItem.allRaw isHanging = true)
    (h : renderAttributes level attrs = .ok lines) : Quiet lines := by
  obtain ⟨rendered, hr, rfl⟩ := renderAttributes_ok h
  refine hangs_attributeLines hlevel fun r hmem => ?_
  obtain ⟨a, hattr, hname, htext⟩ := exists_of_mem_forall₂ hr hmem
  have hitem := ha a hattr
  rw [Attribute.toItem, Item.allRaw, Bool.and_eq_true] at hitem
  rw [hname]
  exact ⟨hitem.1, hangs_renderValue (by omega) hitem.2 htext⟩

theorem hangs_blockHead {type : String} {labels : List String} (h : isHanging type = true) :
    hangs false (blockHead type labels).toList = true := by
  rw [blockHead]
  induction labels generalizing type with
  | nil =>
    rw [List.map_nil, String.intercalate_singleton]
    exact h
  | cons l labels ih =>
    rw [List.map_cons, String.intercalate_cons_cons, String.toList_append, String.toList_append,
      List.append_assoc, show " ".toList = [' '] from rfl, List.cons_append, List.nil_append,
      hangs_append_cons (by decide), show hangs false type.toList = true from h, Bool.true_and]
    exact ih (hangs_quote l)

theorem hangs_blockLine {level : Int} (hlevel : 0 < level) {type : String} {labels : List String}
    {bracket : String} (hbracket : bracket.toList.head? = some ' ')
    (hrest : hangs false bracket.toList = true) (h : isHanging type = true) :
    hangs true (indent level ++ blockHead type labels ++ bracket).toList = true := by
  obtain ⟨rest, hb⟩ := List.head?_eq_some_iff.mp hbracket
  rw [hb, hangs_cons (by decide)] at hrest
  rw [String.toList_append, String.toList_append, List.append_assoc, toList_indent,
    hangs_spaces_append (two_mul_toNat_ne_zero hlevel), hb, hangs_append_cons (by decide),
    hangs_blockHead h, hrest]
  rfl

theorem hangs_closing (level : Int) : hangs true (indent level ++ "\x7d").toList = true := by
  rw [String.toList_append, toList_indent, show "\x7d".toList = ['\x7d'] from rfl,
    hangs_append_cons (by decide), hangs_spaces]
  rfl

/-- A block inside another one is quiet if its body is. -/
theorem quiet_blockLines {level : Int} (hlevel : 0 < level) {type : String}
    {labels lines : List String} {body : List Item} (htype : isHanging type = true)
    (hbody : ∀ {inner : List String}, bodyLines (level + 1) none [] body = .ok inner → Quiet inner)
    (h : blockLines level type labels body = .ok lines) : Quiet lines := by
  cases body with
  | nil =>
    rw [blockLines] at h
    cases h
    exact quiet_cons (hangs_blockLine hlevel rfl rfl htype) quiet_nil
  | cons item rest =>
    rw [blockLines] at h
    · obtain ⟨inner, hinner, h⟩ := ok_of_bind h
      cases h
      refine quiet_cons (hangs_blockLine hlevel rfl rfl htype) (quiet_append (hbody hinner) ?_)
      exact quiet_cons (hangs_closing level) quiet_nil
    · exact List.cons_ne_nil item rest

theorem quiet_bodyLines : ∀ {items : List Item} {level : Int} {previous : Option Item}
    {run : List Attribute} {lines : List String}, 0 < level →
    (∀ a ∈ run, a.toItem.allRaw isHanging = true) → Item.allRawList isHanging items = true →
      bodyLines level previous run items = .ok lines → Quiet lines
  | [], _, _, _, _, hlevel, hrun, _, h => by
    rw [bodyLines] at h
    exact quiet_renderAttributes hlevel hrun h
  | .attribute name value :: rest, level, previous, run, lines, hlevel, hrun, hitems, h => by
    rw [Item.allRawList, Bool.and_eq_true] at hitems
    rw [bodyLines] at h
    split at h
    · obtain ⟨before, hbefore, h⟩ := ok_of_bind h
      obtain ⟨after, hafter, h⟩ := ok_of_bind h
      cases h
      refine quiet_append (quiet_renderAttributes hlevel hrun hbefore) (quiet_cons rfl ?_)
      exact quiet_bodyLines hlevel (forall_mem_pending (List.forall_mem_nil _) hitems.1) hitems.2 hafter
    · exact quiet_bodyLines hlevel (forall_mem_pending hrun hitems.1) hitems.2 h
  | .block type labels body :: rest, level, previous, run, lines, hlevel, hrun, hitems, h => by
    rw [Item.allRawList, Bool.and_eq_true, Item.allRaw, Bool.and_eq_true] at hitems
    rw [bodyLines] at h
    obtain ⟨before, hbefore, h⟩ := ok_of_bind h
    obtain ⟨inner, hinner, h⟩ := ok_of_bind h
    obtain ⟨after, hafter, h⟩ := ok_of_bind h
    cases h
    have hbody : ∀ {inner : List String}, bodyLines (level + 1) none [] body = .ok inner → Quiet inner :=
      quiet_bodyLines (by omega) (List.forall_mem_nil _) hitems.1.2
    refine quiet_append (quiet_append (quiet_append (quiet_renderAttributes hlevel hrun hbefore)
      (quiet_gapLines _ _)) ?_) ?_
    · exact quiet_blockLines hlevel hitems.1.1 hbody hinner
    · exact quiet_bodyLines hlevel (List.forall_mem_nil _) hitems.2 hafter
  | .comment text :: rest, level, previous, run, lines, hlevel, hrun, hitems, h => by
    rw [Item.allRawList, Bool.and_eq_true] at hitems
    rw [bodyLines] at h
    obtain ⟨before, hbefore, h⟩ := ok_of_bind h
    obtain ⟨after, hafter, h⟩ := ok_of_bind h
    cases h
    refine quiet_append (quiet_append (quiet_append (quiet_renderAttributes hlevel hrun hbefore)
      (quiet_gapLines _ _)) (quiet_commentLines level text)) ?_
    exact quiet_bodyLines hlevel (List.forall_mem_nil _) hitems.2 hafter
  | .blank :: rest, level, previous, run, lines, hlevel, hrun, hitems, h => by
    rw [Item.allRawList, Bool.and_eq_true] at hitems
    rw [bodyLines] at h
    obtain ⟨before, hbefore, h⟩ := ok_of_bind h
    obtain ⟨after, hafter, h⟩ := ok_of_bind h
    cases h
    refine quiet_append (quiet_append (quiet_renderAttributes hlevel hrun hbefore)
      (quiet_gapLines _ _)) (quiet_cons rfl ?_)
    exact quiet_bodyLines hlevel (List.forall_mem_nil _) hitems.2 hafter

/-! ## Documents -/

/-- An item whose first row is the only one that starts with a letter.  Attributes at
the top level would be more such rows. -/
def IsTopLevel : Item → Prop
  | .attribute _ _ => False
  | .block type _ body =>
    '\n' ∉ type.toList ∧ startsWithLetter type.toList = true ∧ Item.allRawList isHanging body = true
  | .comment _ => True
  | .blank => True

/-- The first row of a block. -/
def headRow (type : String) (labels : List String) (body : List Item) : String :=
  blockHead type labels ++ if body.isEmpty then " \x7b\x7d" else " \x7b"

theorem headRow_nil (type : String) (labels : List String) :
    headRow type labels [] = blockHead type labels ++ " \x7b\x7d" := rfl

theorem headRow_cons (type : String) (labels : List String) (item : Item) (rest : List Item) :
    headRow type labels (item :: rest) = blockHead type labels ++ " \x7b" := rfl

def headRow? : Item → Option String
  | .block type labels body => some (headRow type labels body)
  | _ => none

theorem newline_not_mem_blockHead {type : String} {labels : List String} (h : '\n' ∉ type.toList) :
    '\n' ∉ (blockHead type labels).toList := by
  rw [blockHead]
  induction labels generalizing type with
  | nil =>
    rw [List.map_nil, String.intercalate_singleton]
    exact h
  | cons l labels ih =>
    rw [List.map_cons, String.intercalate_cons_cons, String.toList_append, String.toList_append,
      List.mem_append, List.mem_append, not_or, not_or]
    exact ⟨⟨h, by decide⟩, ih (break_not_mem_quote (.inl rfl) l)⟩

theorem blockHead_append (type : String) (labels : List String) :
    ∃ rest, (blockHead type labels).toList = type.toList ++ rest := by
  rw [blockHead]
  cases labels with
  | nil => exact ⟨[], by rw [List.map_nil, String.intercalate_singleton, List.append_nil]⟩
  | cons l labels =>
    rw [List.map_cons, String.intercalate_cons_cons, String.toList_append, String.toList_append,
      List.append_assoc]
    exact ⟨_, rfl⟩

theorem newline_not_mem_headRow {type : String} {labels : List String} {body : List Item}
    (h : '\n' ∉ type.toList) : '\n' ∉ (headRow type labels body).toList := by
  rw [headRow, String.toList_append, List.mem_append, not_or]
  refine ⟨newline_not_mem_blockHead h, ?_⟩
  split <;> decide

theorem heads_headRow {type : String} {labels : List String} {body : List Item}
    (h : '\n' ∉ type.toList) (hletter : startsWithLetter type.toList = true) :
    heads (headRow type labels body).toList = [(headRow type labels body).toList] := by
  refine heads_of_row (newline_not_mem_headRow h) ?_
  obtain ⟨rest, hrest⟩ := blockHead_append type labels
  rw [headRow, String.toList_append, hrest, startsWithLetter, List.append_assoc]
  cases ht : type.toList with
  | nil =>
    rw [ht] at hletter
    cases hletter
  | cons c cs =>
    rw [ht] at hletter
    exact hletter

theorem heads_of_quiet {lines : List String} (h : Quiet lines) : heads (linesText lines) = [] :=
  heads_of_hangs (hangs_linesText h)

theorem indent_zero (s : String) : indent 0 ++ s = s := by
  rw [show indent 0 = "" from rfl, String.empty_append]

theorem heads_blockLines {type : String} {labels lines : List String} {body : List Item}
    (htop : IsTopLevel (.block type labels body)) (h : blockLines 0 type labels body = .ok lines) :
    heads (linesText lines) = [(headRow type labels body).toList] := by
  obtain ⟨hn, hletter, hbody⟩ := htop
  cases body with
  | nil =>
    rw [blockLines] at h
    cases h
    rw [indent_zero, ← headRow_nil, linesText_singleton, heads_append_newline,
      heads_headRow hn hletter]
    rfl
  | cons item rest =>
    rw [blockLines] at h
    · obtain ⟨inner, hinner, h⟩ := ok_of_bind h
      cases h
      have hquiet : Quiet (inner ++ [indent 0 ++ "\x7d"]) :=
        quiet_append (quiet_bodyLines (by decide) (List.forall_mem_nil _) hbody hinner)
          (quiet_cons (hangs_closing 0) quiet_nil)
      rw [indent_zero, ← headRow_cons type labels item rest, linesText_cons, heads_append_newline,
        heads_of_quiet hquiet, List.append_nil, heads_headRow hn hletter]
    · exact List.cons_ne_nil item rest

theorem heads_itemLines {item : Item} {lines : List String} (htop : IsTopLevel item)
    (h : itemLines item = .ok lines) :
    heads (linesText lines) = ((headRow? item).map String.toList).toList := by
  unfold itemLines at h
  split at h
  · exact absurd htop id
  · exact heads_blockLines htop h
  · cases h
    exact heads_of_quiet (quiet_commentLines 0 _)
  · cases h
    rfl

theorem heads_documentLines {items : List Item} (htop : ∀ i ∈ items, IsTopLevel i)
    {previous : Option Item} {lines : List String} (h : documentLines previous items = .ok lines) :
    heads (linesText lines) = (items.filterMap headRow?).map String.toList := by
  induction items generalizing previous lines with
  | nil =>
    cases h
    rfl
  | cons item rest ih =>
    rw [documentLines] at h
    obtain ⟨inner, hinner, h⟩ := ok_of_bind h
    obtain ⟨after, hafter, h⟩ := ok_of_bind h
    cases h
    have hgap : heads (linesText (if previous.any (!·.isComment) then [""] else [])) = [] := by
      split <;> rfl
    rw [heads_linesText_append, heads_linesText_append, hgap,
      heads_itemLines (htop item List.mem_cons_self) hinner,
      ih (fun i hi => htop i (List.mem_cons_of_mem item hi)) hafter, List.filterMap_cons]
    cases headRow? item <;> rfl

theorem heads_render {d : Document} {text : String} (htop : ∀ i ∈ d.items, IsTopLevel i)
    (h : d.render = .ok text) :
    heads text.toList = (d.items.filterMap headRow?).map String.toList := by
  rw [Document.render] at h
  obtain ⟨lines, hlines, h⟩ := ok_of_bind h
  cases h
  rw [← heads_documentLines htop hlines, String.toList_append, show "\n".toList = ['\n'] from rfl]
  cases lines with
  | nil => rfl
  | cons l rest => rw [toList_joinLines_append (List.cons_ne_nil l rest)]

/-- A word that starts with a letter can start a row only where a top-level block does. -/
theorem rowsFrom_render {d : Document} {text word : String}
    (hword : startsWithLetter word.toList = true) (htop : ∀ i ∈ d.items, IsTopLevel i)
    (h : d.render = .ok text) :
    rowsFrom word text =
      (d.items.filterMap headRow?).filter fun row => word.toList.isPrefixOf row.toList := by
  have hstart : ∀ row : List Char, word.toList.isPrefixOf row = true → startsWithLetter row = true := by
    intro row hrow
    obtain ⟨rest, rfl⟩ := List.isPrefixOf_iff_prefix.mp hrow
    cases hw : word.toList with
    | nil =>
      rw [hw] at hword
      cases hword
    | cons c cs =>
      rw [hw] at hword
      exact hword
  have hheads : (splitOn '\n' text.toList).filter word.toList.isPrefixOf =
      (heads text.toList).filter word.toList.isPrefixOf := by
    rw [heads, List.filter_filter]
    refine List.filter_congr fun row _ => ?_
    cases hrow : word.toList.isPrefixOf row with
    | false => rfl
    | true => rw [hstart row hrow]; rfl
  rw [rowsFrom, rows, List.filter_map]
  simp only [Function.comp_def, String.toList_ofList]
  rw [hheads, heads_render htop h, List.filter_map, List.map_map]
  simp only [Function.comp_def, String.ofList_toList, List.map_id']

end Rows
end Hcl
end Groundplan
