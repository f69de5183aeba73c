/-
Keys of objects.

A key is written bare if it is an identifier and no reserved word, and as a quoted literal
otherwise, so that an entry starts with its key and an equals sign on one row.  The test for
identifiers lets a newline pass behind a word.  Such a key is written bare with its newline,
which ends the row between the key and the equals sign; every other entry starts as it should,
however deep its object stands.
-/
import Groundplan.Proofs.Hcl.Places
import Groundplan.Proofs.Hcl.Wrapping
import Groundplan.Proofs.Text.Names

namespace Groundplan

namespace Text

def isIdentifierWord (s : String) : Bool :=
  isWord (fun c => isLetter c || c == '_') (fun c => isLetter c || isAsciiDigit c || c == '_')
    s.toList

theorem isIdentifier_iff {s : String} : isIdentifier s = true ↔ IsUpToNewline isIdentifierWord s :=
  isUpToNewline_iff.symm

theorem newline_not_mem_of_isIdentifierWord {s : String} (h : isIdentifierWord s = true) :
    '\n' ∉ s.toList := by
  rw [isIdentifierWord] at h
  cases hs : s.toList with
  | nil => exact List.not_mem_nil
  | cons c rest =>
    rw [hs, isWord, Bool.and_eq_true] at h
    rw [List.mem_cons, not_or]
    refine ⟨?_, fun hmem => ?_⟩
    · rintro rfl
      exact absurd h.1 (by decide)
    · exact absurd (List.all_eq_true.mp h.2 _ hmem) (by decide)

end Text

namespace Hcl

open Text Rows

/-! ## Keys -/

/-- The forms in which a key denotes the text that it was made from. -/
inductive IsKeyOf (k : String) : String → Prop
  | bare : isIdentifierWord k = true → k ∉ reservedKeys → IsKeyOf k k
  | quoted {written : String} {body : List Char} : written.toList = '"' :: (body ++ ['"']) →
      Literal.decode body = some k.toList → '\n' ∉ body → IsKeyOf k written

/-- An identifier with a newline behind it. -/
def IsBrokenKey (k : String) : Prop := ∃ word, isIdentifierWord word = true ∧ k = word ++ "\n"

theorem IsBrokenKey.newline_mem {k : String} (h : IsBrokenKey k) : '\n' ∈ k.toList := by
  obtain ⟨word, -, rfl⟩ := h
  rw [String.toList_append]
  exact List.mem_append_right _ (by decide)

theorem isKeyOf_quote (k : String) : IsKeyOf k (quote k) :=
  .quoted (toList_quote k) (Literal.decode_escape k.toList)
    (Literal.break_not_mem_escape (.inl rfl) k.toList)

theorem key_of_bare {k : String} (h : isIdentifier k = true) (hfree : k ∉ reservedKeys) :
    key k = k := by
  rw [key, h, List.contains_eq_mem, decide_eq_false hfree]
  rfl

theorem key_of_not_bare {k : String} (h : isIdentifier k = true → k ∈ reservedKeys) :
    key k = quote k := by
  rw [key, if_neg]
  rw [Bool.and_eq_true, Bool.not_eq_true', List.contains_eq_mem, decide_eq_false_iff_not]
  exact fun hbare => hbare.2 (h hbare.1)

/-- No reserved word has a newline behind it. -/
theorem IsBrokenKey.key {k : String} (h : IsBrokenKey k) : key k = k := by
  refine key_of_bare (isIdentifier_iff.mpr (.inr h)) fun hmem => ?_
  have hall : ∀ word ∈ reservedKeys, '\n' ∉ word.toList := by decide
  exact hall k hmem h.newline_mem

theorem isKeyOf_key {k : String} (h : ¬IsBrokenKey k) : IsKeyOf k (key k) := by
  by_cases hbare : isIdentifier k = true ∧ k ∉ reservedKeys
  · rw [key_of_bare hbare.1 hbare.2]
    rcases isIdentifier_iff.mp hbare.1 with hword | hbroken
    · exact .bare hword hbare.2
    · exact absurd hbroken h
  · rw [key_of_not_bare fun hid => by_contra fun hfree => hbare ⟨hid, hfree⟩]
    exact isKeyOf_quote k

theorem IsKeyOf.newline_not_mem {k written : String} (h : IsKeyOf k written) :
    '\n' ∉ written.toList := by
  cases h with
  | bare hword _ => exact newline_not_mem_of_isIdentifierWord hword
  | quoted hwritten _ hbody =>
    rw [hwritten]
    exact break_not_mem_quotes (.inl rfl) hbody

theorem newline_mem_key_iff {k : String} : '\n' ∈ (key k).toList ↔ IsBrokenKey k := by
  constructor
  · intro hmem
    by_contra hno
    exact (isKeyOf_key hno).newline_not_mem hmem
  · intro h
    rw [h.key]
    exact h.newline_mem

/-- What a key is written as.  Only a broken one lets a newline through. -/
structure WritesKey (k : String) : Prop where
  denotes : ¬IsBrokenKey k → IsKeyOf k (key k)
  broken : IsBrokenKey k → key k = k
  newline : '\n' ∈ (key k).toList ↔ IsBrokenKey k

/-! ## Values inside values -/

/-- The value `w` stands in `v`, or is `v`; where `v` is rendered for one level, `w` is for
the other. -/
inductive Stands : Int → Value → Int → Value → Prop
  | here (level : Int) (v : Value) : Stands level v level v
  | argument {level inner : Int} {name : String} {args : List Value} {v w : Value} : v ∈ args →
      Stands level v inner w → Stands level (.call name args) inner w
  | item {level inner : Int} {items : List Value} {v w : Value} : v ∈ items →
      Stands (if items.all Value.isSimple then level else level + 1) v inner w →
        Stands level (.list items) inner w
  | entry {level inner : Int} {entries : List (String × Value)} {k : String} {v w : Value} :
      (k, v) ∈ entries → Stands (level + 1) v inner w → Stands level (.object entries) inner w

theorem infix_intercalate {s : String} {texts : List String} (h : s ∈ texts) (sep : String) :
    s.toList <:+: (sep.intercalate texts).toList := by
  induction texts with
  | nil => cases h
  | cons t texts ih =>
    cases texts with
    | nil =>
      rw [List.mem_singleton.mp h, String.intercalate_singleton]
    | cons u texts =>
      rw [String.intercalate_cons_cons, String.toList_append, String.toList_append]
      rcases List.mem_cons.mp h with rfl | h
      · rw [List.append_assoc]
        exact (List.prefix_append _ _).isInfix
      · exact (ih h).trans (List.suffix_append _ _).isInfix

theorem infix_enclosed {s : String} {texts : List String} (h : s ∈ texts)
    (opening closing : String) :
    s.toList <:+: (opening ++ ", ".intercalate texts ++ closing).toList := by
  refine (infix_intercalate h ", ").trans ?_
  rw [String.toList_append, String.toList_append]
  exact List.infix_append _ _ _

theorem exists_of_renderValues {level : Int} {v : Value} {vs : List Value} {texts : List String}
    (hmem : v ∈ vs) (h : renderValues level vs = .ok texts) :
    ∃ text ∈ texts, renderValue level v = .ok text := by
  induction vs generalizing texts with
  | nil => cases hmem
  | cons first vs ih =>
    rw [renderValues] at h
    obtain ⟨text, htext, h⟩ := ok_of_bind h
    obtain ⟨rest, hrest, h⟩ := ok_of_bind h
    cases h
    rcases List.mem_cons.mp hmem with rfl | hmem
    · exact ⟨text, List.mem_cons_self, htext⟩
    · obtain ⟨found, hfound, heq⟩ := ih hmem hrest
      exact ⟨found, List.mem_cons_of_mem _ hfound, heq⟩

/-! ## Entries of an object -/

/-- An entry as it is written: the indentation, the key with spaces behind it, an equals sign
and the value. -/
def IsEntryLine (level : Int) (e : String × Value) (line : String) : Prop :=
  ∃ text, renderValue level e.2 = .ok text ∧ IsAttributeLine level (key e.1, text) line

theorem rendered_of_renderEntries {level : Int} {entries : List (String × Value)}
    {rendered : List (String × String)} (h : renderEntries level entries = .ok rendered) :
    List.Forall₂ (fun e r => r.1 = key e.1 ∧ renderValue level e.2 = .ok r.2) entries rendered := by
  induction entries generalizing rendered with
  | nil =>
    cases h
    exact .nil
  | cons e entries ih =>
    obtain ⟨k, v⟩ := e
    rw [renderEntries] at h
    obtain ⟨text, htext, h⟩ := ok_of_bind h
    obtain ⟨rest, hrest, h⟩ := ok_of_bind h
    cases h
    exact .cons ⟨rfl, htext⟩ (ih hrest)

/-- There is one line for each entry, in the order of the entries. -/
theorem forall₂_entryLines {level : Int} {entries : List (String × Value)}
    {rendered : List (String × String)} (h : renderEntries level entries = .ok rendered) :
    List.Forall₂ (IsEntryLine level) entries (attributeLines level rendered) := by
  have hrendered := rendered_of_renderEntries h
  have hlines := forall₂_attributeLines level rendered
  generalize attributeLines level rendered = lines at hlines
  clear h
  induction hrendered generalizing lines with
  | nil =>
    cases hlines
    exact .nil
  | cons hfirst _ ih =>
    obtain ⟨hname, htext⟩ := hfirst
    cases hlines with
    | cons hline hlines => exact .cons ⟨_, htext, hname ▸ hline⟩ (ih _ hlines)

/-- The layout of an object that is not empty: a line for each entry, between braces. -/
theorem layout_object {level : Int} {entries : List (String × Value)} {text : String}
    (hne : entries ≠ []) (h : renderValue level (.object entries) = .ok text) :
    ∃ lines, List.Forall₂ (IsEntryLine (level + 1)) entries lines ∧
      text.toList =
        '\x7b' :: '\n' :: (linesText lines ++ (spaces (2 * level).toNat ++ ['\x7d'])) := by
  rw [renderValue] at h
  · obtain ⟨rendered, hrendered, h⟩ := ok_of_bind h
    cases h
    refine ⟨attributeLines (level + 1) rendered, forall₂_entryLines hrendered, ?_⟩
    rw [toList_joinLines_enclosed, String.toList_append, toList_indent]
    rfl
  · exact hne

theorem exists_line_of_mem {level : Int} {entries : List (String × Value)} {lines : List String}
    (h : List.Forall₂ (IsEntryLine level) entries lines) {e : String × Value} (he : e ∈ entries) :
    ∃ line ∈ lines, IsEntryLine level e line := by
  induction h with
  | nil => cases he
  | cons hfirst _ ih =>
    rcases List.mem_cons.mp he with rfl | he
    · exact ⟨_, List.mem_cons_self, hfirst⟩
    · obtain ⟨line, hline, hentry⟩ := ih he
      exact ⟨line, List.mem_cons_of_mem _ hline, hentry⟩

/-- A newline stands in front of every line. -/
theorem infix_linesText {line : String} {lines : List String} (h : line ∈ lines) :
    '\n' :: line.toList <:+: '\n' :: linesText lines := by
  induction lines with
  | nil => cases h
  | cons first lines ih =>
    rw [linesText_cons]
    rcases List.mem_cons.mp h with rfl | h
    · exact (List.prefix_append ('\n' :: line.toList) _).isInfix
    · exact (ih h).trans (List.suffix_append ('\n' :: first.toList) _).isInfix

/-! ## Where an object stands -/

/-- The text of a value is found whole in the text of every value that it stands in. -/
theorem infix_of_stands {level inner : Int} {v w : Value} (h : Stands level v inner w)
    {text : String} (htext : renderValue level v = .ok text) :
    ∃ part, renderValue inner w = .ok part ∧ part.toList <:+: text.toList := by
  induction h generalizing text with
  | here level v => exact ⟨text, htext, List.infix_rfl⟩
  | argument hmem _ ih =>
    rw [renderValue] at htext
    obtain ⟨texts, htexts, htext⟩ := ok_of_bind htext
    cases htext
    obtain ⟨found, hfound, heq⟩ := exists_of_renderValues hmem htexts
    obtain ⟨part, hpart, hinfix⟩ := ih heq
    exact ⟨part, hpart, hinfix.trans (infix_enclosed hfound _ ")")⟩
  | @item level inner items v w hmem _ ih =>
    rw [renderValue] at htext
    · split at htext
      · rename_i hsimple
        obtain ⟨texts, htexts, htext⟩ := ok_of_bind htext
        cases htext
        obtain ⟨found, hfound, heq⟩ := exists_of_renderValues hmem htexts
        rw [if_pos hsimple] at ih
        obtain ⟨part, hpart, hinfix⟩ := ih heq
        exact ⟨part, hpart, hinfix.trans (infix_enclosed hfound "[" "]")⟩
      · rename_i hsimple
        obtain ⟨texts, htexts, htext⟩ := ok_of_bind htext
        cases htext
        obtain ⟨found, hfound, heq⟩ := exists_of_renderValues hmem htexts
        rw [if_neg hsimple] at ih
        obtain ⟨part, hpart, hinfix⟩ := ih heq
        refine ⟨part, hpart, hinfix.trans ?_⟩
        have hline : indent (level + 1) ++ found ++ "," ∈
            "[" :: (texts.map (fun text => indent (level + 1) ++ text ++ ",") ++
              [indent level ++ "]"]) :=
          List.mem_cons_of_mem _ (List.mem_append_left _ (List.mem_map.mpr ⟨found, hfound, rfl⟩))
        refine List.IsInfix.trans ?_ (infix_intercalate hline "\n")
        rw [String.toList_append, String.toList_append]
        exact List.infix_append _ _ _
    · exact List.ne_nil_of_mem hmem
  | entry hmem _ ih =>
    obtain ⟨lines, hlines, heq⟩ := layout_object (List.ne_nil_of_mem hmem) htext
    obtain ⟨line, hline, value, hvalue, n, hshape⟩ := exists_line_of_mem hlines hmem
    obtain ⟨part, hpart, hinfix⟩ := ih hvalue
    refine ⟨part, hpart, hinfix.trans ?_⟩
    have hend : value.toList <:+ line.toList := by
      rw [hshape]
      simp only [← List.append_assoc]
      exact List.suffix_append _ _
    rw [heq]
    refine (hend.isInfix.trans ((List.suffix_cons '\n' line.toList).isInfix.trans
      (infix_linesText hline))).trans ?_
    exact List.infix_append ['\x7b'] ('\n' :: linesText lines) _

/-- A row starts with what stands behind a newline. -/
theorem exists_row_of_infix {head : List Char} (hhead : '\n' ∉ head) {text : String}
    (h : '\n' :: head <:+: text.toList) : ∃ row ∈ rows text, head <+: row.toList := by
  obtain ⟨before, after, heq⟩ := h
  have hsplit : splitOn '\n' text.toList =
      splitOn '\n' before ++ splitOn '\n' (head ++ after) := by
    rw [← heq, List.append_assoc, List.cons_append, splitOn_append_cons]
  -- The row ends at the next newline, if there is one.
  obtain ⟨row, hrow, hprefix⟩ : ∃ row ∈ splitOn '\n' (head ++ after), head <+: row := by
    by_cases hmem : '\n' ∈ after
    · obtain ⟨first, rest, rfl, hfirst⟩ := List.eq_append_cons_of_mem hmem
      have hnone : '\n' ∉ head ++ first := by
        rw [List.mem_append, not_or]
        exact ⟨hhead, hfirst⟩
      refine ⟨head ++ first, ?_, List.prefix_append _ _⟩
      rw [← List.append_assoc, splitOn_append_cons, splitOn_of_not_mem hnone]
      exact List.mem_cons_self
    · have hnone : '\n' ∉ head ++ after := by
        rw [List.mem_append, not_or]
        exact ⟨hhead, hmem⟩
      refine ⟨head ++ after, ?_, List.prefix_append _ _⟩
      rw [splitOn_of_not_mem hnone]
      exact List.mem_cons_self
  refine ⟨String.ofList row, List.mem_map.mpr ⟨row, ?_, rfl⟩, ?_⟩
  · rw [hsplit]
    exact List.mem_append_right _ hrow
  · rwa [String.toList_ofList]

/-- A row ends at the next newline. -/
theorem mem_rows_of_infix {row : String} (hrow : '\n' ∉ row.toList) {text : String}
    (h : '\n' :: (row.toList ++ ['\n']) <:+: text.toList) : row ∈ rows text := by
  obtain ⟨before, after, heq⟩ := h
  refine List.mem_map.mpr ⟨row.toList, ?_, String.ofList_toList⟩
  rw [← heq, List.append_assoc, List.cons_append, splitOn_append_cons, List.append_assoc,
    List.singleton_append, splitOn_append_cons, splitOn_of_not_mem hrow]
  exact List.mem_append_right _ List.mem_cons_self

/-! ## Entries everywhere -/

/-- What an entry starts with: the indentation, the key, some spaces and an equals sign. -/
def entryHead (level : Int) (k : String) (n : Nat) : List Char :=
  spaces (2 * level).toNat ++ ((key k).toList ++ (spaces n ++ " =".toList))

/-- The entries of an object stand in a text one after the other, each from the left edge of a
row on.  A row has the whole beginning of an entry in it, or ends behind the word of a broken
key. -/
structure WritesEntries (level : Int) (entries : List (String × Value)) (text : String) : Prop where
  layout : ∃ before lines after, List.Forall₂ (IsEntryLine level) entries lines ∧
    text.toList = before ++ '\x7b' :: '\n' :: (linesText lines ++ after)
  starts : ∀ e ∈ entries, ¬IsBrokenKey e.1 →
    ∃ n, ∃ row ∈ rows text, entryHead level e.1 n <+: row.toList
  breaks : ∀ e ∈ entries, ∀ word, isIdentifierWord word = true → e.1 = word ++ "\n" →
    indent level ++ word ∈ rows text

theorem newline_not_mem_spaces (n : Nat) : '\n' ∉ spaces n := fun h =>
  absurd (mem_spaces h) (by decide)

theorem newline_not_mem_entryHead {level : Int} {k : String} (h : ¬IsBrokenKey k) (n : Nat) :
    '\n' ∉ entryHead level k n := by
  rw [entryHead, List.mem_append, List.mem_append, List.mem_append, not_or, not_or, not_or]
  exact ⟨newline_not_mem_spaces _, mt newline_mem_key_iff.mp h, newline_not_mem_spaces n, by decide⟩

theorem writesEntries_of_layout {level : Int} {entries : List (String × Value)}
    {lines : List String} {before after : List Char} {text : String}
    (hlines : List.Forall₂ (IsEntryLine level) entries lines)
    (htext : text.toList = before ++ '\x7b' :: '\n' :: (linesText lines ++ after)) :
    WritesEntries level entries text := by
  have hline : ∀ line ∈ lines, '\n' :: line.toList <:+: text.toList := by
    intro line hmem
    rw [htext]
    refine (infix_linesText hmem).trans ?_
    rw [← List.singleton_append (x := '\x7b'), ← List.append_assoc, ← List.cons_append,
      ← List.append_assoc]
    exact List.infix_append _ _ _
  refine ⟨⟨before, lines, after, hlines, htext⟩, fun e he hkey => ?_, fun e he word hword hk => ?_⟩
  · obtain ⟨line, hmem, value, -, n, hshape⟩ := exists_line_of_mem hlines he
    refine ⟨n, exists_row_of_infix (newline_not_mem_entryHead hkey n) ?_⟩
    refine List.IsInfix.trans (List.IsPrefix.isInfix ?_) (hline line hmem)
    rw [hshape, entryHead, List.prefix_cons_inj]
    simp only [List.prefix_append_right_inj]
    exact List.prefix_append " =".toList (' ' :: value.toList)
  · obtain ⟨line, hmem, value, -, n, hshape⟩ := exists_line_of_mem hlines he
    have hbroken : IsBrokenKey e.1 := ⟨word, hword, hk⟩
    have hrow : '\n' ∉ (indent level ++ word).toList := by
      rw [String.toList_append, toList_indent, List.mem_append, not_or]
      exact ⟨newline_not_mem_spaces _, newline_not_mem_of_isIdentifierWord hword⟩
    refine mem_rows_of_infix hrow (List.IsInfix.trans (List.IsPrefix.isInfix ?_) (hline line hmem))
    rw [hshape, hbroken.key, hk, String.toList_append, String.toList_append, toList_indent,
      List.prefix_cons_inj]
    simp only [List.append_assoc, List.prefix_append_right_inj]
    exact List.prefix_append ['\n'] _

/-- How a key is written, and where the entries of an object stand, however deep it is. -/
theorem writesEntries_of_stands (k : String) (level : Int) (v : Value) :
    WritesKey k ∧ ∀ text, renderValue level v = .ok text → ∀ inner entries, entries ≠ [] →
      Stands level v inner (.object entries) → WritesEntries (inner + 1) entries text := by
  refine ⟨⟨isKeyOf_key, IsBrokenKey.key, newline_mem_key_iff⟩, ?_⟩
  intro text htext inner entries hne hstands
  obtain ⟨part, hpart, before, after, hinfix⟩ := infix_of_stands hstands htext
  obtain ⟨lines, hlines, hlayout⟩ := layout_object hne hpart
  have hwhole : text.toList = before ++ '\x7b' :: '\n' :: (linesText lines ++
      (spaces (2 * inner).toNat ++ '\x7d' :: after)) := by
    rw [← hinfix, hlayout]
    simp only [List.append_assoc, List.cons_append, List.nil_append]
  exact writesEntries_of_layout hlines hwhole

/-- An object in a list in an object, with a reserved word and a text that is no identifier as
keys. -/
def nestedObject : Value :=
  .object [("tags", .list [.object [("for", .int 1), ("a b", .bool true)]])]

theorem writesEntries_of_stands_nested :
    ∃ text, renderValue 0 nestedObject = .ok text ∧
      Stands 0 nestedObject 2 (.object [("for", .int 1), ("a b", .bool true)]) ∧
        WritesEntries (2 + 1) [("for", .int 1), ("a b", .bool true)] text := by
  have hstands : Stands 0 nestedObject 2 (.object [("for", .int 1), ("a b", .bool true)]) :=
    .entry (List.mem_singleton_self _) (.item (List.mem_singleton_self _) (.here 2 _))
  obtain ⟨text, htext⟩ : ∃ text, renderValue 0 nestedObject = .ok text := exists_of_isOk (by decide)
  exact ⟨text, htext, hstands, (writesEntries_of_stands "for" 0 nestedObject).2 text htext 2 _
    (List.cons_ne_nil _ _) hstands⟩

/-- A newline behind an identifier comes through, and with it the entry is broken. -/
theorem newline_mem_key_broken :
    '\n' ∈ (key "a\n").toList ∧
      renderValue 0 (.object [("a\n", .int 1)]) = .ok "\x7b\n  a\n = 1\n\x7d" :=
  ⟨by decide, rfl⟩

end Hcl
end Groundplan
