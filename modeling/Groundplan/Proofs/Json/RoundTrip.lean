/-
Reading what was written.

Every character inside quotes is written so that the reader comes back to it: as itself, by a
letter, or by the numbers of one or two code units.  A second unit is asked for only behind
the first half of a pair, and the reader needs something behind the digits, which the closing
quote always is.  Trees follow by induction; a value takes less fuel than its text has
characters.
-/
import Groundplan.Json.Reader
import Groundplan.Json.Writer
import Groundplan.Proofs.Result
import Groundplan.Proofs.Text.Quoted

namespace Groundplan
namespace Json

open Text

/-! ## Characters -/

/-- What a reader gives for a text with one more character in front. -/
def behind (c : Char) (r : Except Stop (List Char × List Char)) :
    Except Stop (List Char × List Char) :=
  r.map fun p => (c :: p.1, p.2)

theorem bind_eq_behind (c : Char) (r : Except Stop (List Char × List Char)) :
    (do
      let (cs, left) ← r
      return (c :: cs, left)) = behind c r := by
  cases r <;> rfl

variable {start : Nat} {c : Char} {rest : List Char}

theorem readString_raw (hquote : c ≠ '"') (hslash : c ≠ '\\') (hplain : 0x1f < c.toNat) :
    readString start (c :: rest) = behind c (readString start rest) := by
  rw [readString.eq_7 start c rest hquote (fun h => absurd h hslash)
    (fun _ _ _ _ _ _ h => absurd h hslash) (fun _ h => absurd h hslash)
    (fun _ _ h => absurd h hslash), if_neg (Nat.not_le.mpr hplain)]
  exact bind_eq_behind c _

theorem readString_escaped (letter : Char) (hletter : letter ≠ 'u')
    (h : escapedChar? letter = some c) :
    readString start ('\\' :: letter :: rest) = behind c (readString start rest) := by
  rw [readString.eq_6 start letter rest (fun _ _ _ _ _ _ h => absurd h hletter) hletter, h]
  exact bind_eq_behind c _

theorem exists_hexDigits (n : Nat) : ∃ a b c d, hexDigits 4 n = [a, b, c, d] := ⟨_, _, _, _, rfl⟩

theorem secondEscape?_unitEscape (n : Nat) (last : Char) (rest : List Char) :
    secondEscape? (unitEscape n ++ last :: rest) = some (hexDigits 4 n, last :: rest) := rfl

/-- A unit that is no first half of a pair stands for itself. -/
theorem readString_unit {n : Nat} (hn : n < 0x10000) (hhigh : isHighSurrogate n = false)
    (next : Char) : readString start (unitEscape n ++ next :: rest) =
      behind (charOfCode n) (readString start (next :: rest)) := by
  obtain ⟨a, b, c, d, hdigits⟩ := exists_hexDigits n
  have hnumber : hexNumber? [a, b, c, d] = some n := hdigits ▸ hexNumber?_hexDigits hn
  rw [unitEscape, hdigits]
  show readString start ('\\' :: 'u' :: a :: b :: c :: d :: next :: rest) = _
  rw [readString.eq_4, hnumber]
  dsimp only
  split
  · rename_i hpair
    have hfound := (Option.filter_eq_some_iff.mp hpair).2
    rw [hhigh] at hfound
    cases hfound
  · exact bind_eq_behind _ _

/-- Two units that form a pair stand for one character. -/
theorem readString_pair {high low : Nat} (hhigh : isHighSurrogate high = true)
    (hlow : isLowSurrogate low = true) (next : Char) :
    readString start (unitEscape high ++ (unitEscape low ++ next :: rest)) =
      behind (charOfCode (joinSurrogates high low)) (readString start (next :: rest)) := by
  have hbounds : high < 0x10000 ∧ low < 0x10000 := by
    simp only [isHighSurrogate, isLowSurrogate, Bool.and_eq_true, decide_eq_true_eq] at hhigh hlow
    omega
  obtain ⟨a, b, c, d, hdigits⟩ := exists_hexDigits high
  have hnumber : hexNumber? [a, b, c, d] = some high := hdigits ▸ hexNumber?_hexDigits hbounds.1
  have hsecond := secondEscape?_unitEscape low next rest
  rw [unitEscape, hdigits]
  generalize hescape : unitEscape low ++ next :: rest = text at hsecond ⊢
  obtain ⟨e, tail, rfl⟩ : ∃ e tail, text = e :: tail := ⟨_, _, hescape.symm⟩
  show readString start ('\\' :: 'u' :: a :: b :: c :: d :: e :: tail) = _
  rw [readString.eq_4, hnumber]
  dsimp only
  split
  · rename_i digits more hpair
    have hfound := (Option.filter_eq_some_iff.mp hpair).1
    rw [hsecond] at hfound
    cases hfound
    rw [hexNumber?_hexDigits hbounds.2]
    dsimp only
    rw [if_pos hlow]
    exact bind_eq_behind _ _
  · rename_i hnone
    rw [hsecond, Option.filter_some, if_pos hhigh] at hnone
    cases hnone

/-- No character is half of a pair. -/
theorem toNat_bounds (c : Char) : c.toNat < 0xd800 ∨ 0xdfff < c.toNat ∧ c.toNat < 0x110000 :=
  c.valid

theorem isHighSurrogate_toNat (c : Char) : isHighSurrogate c.toNat = false := by
  have hbounds := toNat_bounds c
  simp only [isHighSurrogate, Bool.and_eq_false_iff, decide_eq_false_iff_not]
  omega

theorem charOfCode_toNat (c : Char) : charOfCode c.toNat = c := by
  have hbounds := toNat_bounds c
  have hlow : isLowSurrogate c.toNat = false := by
    simp only [isLowSurrogate, Bool.and_eq_false_iff, decide_eq_false_iff_not]
    omega
  rw [charOfCode, isHighSurrogate_toNat, hlow]
  exact Char.ofNat_toNat c

theorem eq_ofNat {c : Char} {n : Nat} (h : c.toNat = n) : c = Char.ofNat n := by
  rw [← h, Char.ofNat_toNat]

theorem joinSurrogates_halves (n : Nat) :
    joinSurrogates (0xd800 + n / 0x400) (0xdc00 + n % 0x400) = 0x10000 + n := by
  unfold joinSurrogates
  simp only [Nat.add_sub_cancel_left, Nat.add_assoc, Nat.div_add_mod']

/-- Whatever the form of a character, the reader comes back to it. -/
theorem readString_writeChar (start : Nat) (c next : Char) (rest : List Char) :
    readString start (writeChar c ++ next :: rest) =
      behind c (readString start (next :: rest)) := by
  rw [writeChar]
  split
  · rename_i hc
    rcases hc with rfl | rfl
    · exact readString_escaped '"' (by decide) rfl
    · exact readString_escaped '\\' (by decide) rfl
  rename_i hspecial
  rw [not_or] at hspecial
  split
  · exact readString_escaped 'n' (by decide) (congrArg some (Eq.symm ‹c = _›))
  split
  · exact readString_escaped 'r' (by decide) (congrArg some (Eq.symm ‹c = _›))
  split
  · exact readString_escaped 't' (by decide) (congrArg some (Eq.symm ‹c = _›))
  split
  · exact readString_escaped 'b' (by decide) (congrArg some (eq_ofNat ‹_›).symm)
  split
  · exact readString_escaped 'f' (by decide) (congrArg some (eq_ofNat ‹_›).symm)
  split
  · rename_i hplain
    exact readString_raw hspecial.1 hspecial.2 (by omega)
  split
  · rename_i hunit
    rw [readString_unit hunit (isHighSurrogate_toNat c), charOfCode_toNat]
  · rename_i hunit
    have hbounds := toNat_bounds c
    obtain ⟨n, hn⟩ : ∃ n, c.toNat = 0x10000 + n := ⟨c.toNat - 0x10000, by omega⟩
    have hhigh : isHighSurrogate (0xd800 + n / 0x400) = true := by
      simp only [isHighSurrogate, Bool.and_eq_true, decide_eq_true_eq]
      omega
    have hlow : isLowSurrogate (0xdc00 + n % 0x400) = true := by
      simp only [isLowSurrogate, Bool.and_eq_true, decide_eq_true_eq]
      omega
    have hoffset : c.toNat - 0x10000 = n := by omega
    rw [hoffset, List.append_assoc, readString_pair hhigh hlow, joinSurrogates_halves, ← hn,
      charOfCode_toNat]

theorem readString_written (start : Nat) (cs rest : List Char) :
    readString start (cs.flatMap writeChar ++ '"' :: rest) = .ok (cs, rest) := by
  induction cs with
  | nil => exact readString.eq_2 start rest
  | cons c cs ih =>
    obtain ⟨next, tail, htail⟩ :
        ∃ next tail, cs.flatMap writeChar ++ '"' :: rest = next :: tail := by
      cases h : cs.flatMap writeChar with
      | nil => exact ⟨_, _, rfl⟩
      | cons d ds => exact ⟨_, _, rfl⟩
    rw [List.flatMap_cons, List.append_assoc, htail, readString_writeChar, ← htail, ih]
    rfl

/-! ## Layout -/

theorem skipBlank_append {blanks : List Char} (h : ∀ b ∈ blanks, isBlank b = true)
    (rest : List Char) : skipBlank (blanks ++ rest) = skipBlank rest :=
  List.dropWhile_append_of_pos h

theorem skipBlank_cons {c : Char} (h : isBlank c = false) (rest : List Char) :
    skipBlank (c :: rest) = c :: rest :=
  List.dropWhile_cons_of_neg (by rw [h]; decide)

/-- The end of a line with the indentation of the next one. -/
def lineEnd (level : Nat) : List Char := '\n' :: (indent level).toList

theorem isBlank_of_mem_lineEnd {level : Nat} : ∀ b ∈ lineEnd level, isBlank b = true := by
  rw [lineEnd, indent, String.toList_ofList, List.forall_mem_cons]
  refine ⟨by decide, fun b hb => ?_⟩
  rw [List.eq_of_mem_replicate hb]
  decide

theorem skipBlank_lineEnd (level : Nat) (rest : List Char) :
    skipBlank (lineEnd level ++ rest) = skipBlank rest :=
  skipBlank_append isBlank_of_mem_lineEnd rest

/-- Items with commas between them, each on a line of its own. -/
def separated (level : Nat) : List String → List Char
  | [] => []
  | [item] => item.toList
  | item :: rest => item.toList ++ ',' :: (lineEnd level ++ separated level rest)

theorem separated_cons_cons (level : Nat) (item next : String) (items : List String) :
    separated level (item :: next :: items) =
      item.toList ++ ',' :: (lineEnd level ++ separated level (next :: items)) := rfl

theorem toList_intercalate (level : Nat) (item : String) (items : List String) :
    '\n' :: (",\n".intercalate ((item :: items).map (indent level ++ ·))).toList =
      lineEnd level ++ separated level (item :: items) := by
  induction items generalizing item with
  | nil =>
    rw [List.map_singleton, String.intercalate_singleton, String.toList_append]
    rfl
  | cons next items ih =>
    rw [List.map_cons, List.map_cons, String.intercalate_cons_cons, ← List.map_cons,
      String.toList_append, String.toList_append, String.toList_append, List.append_assoc,
      List.append_assoc]
    show lineEnd level ++ (item.toList ++ ',' ::
      '\n' :: (",\n".intercalate ((next :: items).map fun i => indent level ++ i)).toList) = _
    rw [ih]
    rfl

theorem toList_enclose_nil (opening closing : String) (level : Nat) :
    (enclose opening closing level []).toList = opening.toList ++ closing.toList :=
  String.toList_append

theorem toList_enclose (opening closing : String) (level : Nat) (item : String)
    (items : List String) : (enclose opening closing level (item :: items)).toList =
      opening.toList ++ (lineEnd (level + 1) ++ (separated (level + 1) (item :: items) ++
        (lineEnd level ++ closing.toList))) := by
  rw [enclose, if_neg (by simp), ← List.append_assoc (lineEnd (level + 1)), ← toList_intercalate]
  simp only [String.toList_append, List.append_assoc]
  rfl

/-! ## Trees -/

namespace Tree

mutual
/-- The value that a tree is read as. -/
def toDatum : Tree → Datum
  | .text s => .text s
  | .list items => .list (toData items)
  | .object members => .ofPairs (toPairs members)

def toData : List Tree → List Datum
  | [] => []
  | t :: rest => toDatum t :: toData rest

def toPairs : List (String × Tree) → List (Datum × Datum)
  | [] => []
  | (name, t) :: rest => (.text name, toDatum t) :: toPairs rest
end

mutual
/-- The fuel that reading a tree takes. -/
def weight : Tree → Nat
  | .text _ => 1
  | .list items => weightAll items + 1
  | .object members => weightMembers members + 1

def weightAll : List Tree → Nat
  | [] => 0
  | t :: rest => weight t + weightAll rest + 1

def weightMembers : List (String × Tree) → Nat
  | [] => 0
  | (_, t) :: rest => weight t + weightMembers rest + 1
end

end Tree

open Json.Tree

theorem toList_writeText (s : String) :
    (writeText s).toList = '"' :: (s.toList.flatMap writeChar ++ ['"']) := by
  rw [writeText, String.toList_append, String.toList_append,
    String.toList_ofList (l := s.toList.flatMap writeChar), List.append_assoc]
  rfl

/-- A tree starts with a quote or a bracket. -/
theorem exists_head (level : Nat) (t : Tree) :
    ∃ c ∈ ['"', '[', '\x7b'], ∃ rest, (write level t).toList = c :: rest := by
  have henclose : ∀ (opening closing : String) (c : Char), opening.toList = [c] →
      ∀ items, ∃ rest, (enclose opening closing level items).toList = c :: rest := by
    intro opening closing c hopening items
    rw [enclose]
    split
    · rw [String.toList_append, hopening]
      exact ⟨_, rfl⟩
    · simp only [String.toList_append, hopening]
      exact ⟨_, rfl⟩
  cases t with
  | text s => exact ⟨'"', by decide, _, toList_writeText s⟩
  | list items => exact ⟨'[', by decide, henclose "[" "]" '[' rfl _⟩
  | object members => exact ⟨'\x7b', by decide, henclose "\x7b" "\x7d" '\x7b' rfl _⟩

theorem isBlank_of_mem_heads {c : Char} (h : c ∈ ['"', '[', '\x7b']) : isBlank c = false := by
  have hall : ['"', '[', '\x7b'].all (fun c => !isBlank c) = true := by decide
  rw [← Bool.not_eq_true']
  exact List.all_eq_true.mp hall c h

/-- What follows the end of a line is what comes next. -/
theorem skipBlank_separated (level : Nat) {item : String} {c : Char} {text : List Char}
    (hc : c ∈ ['"', '[', '\x7b']) (hitem : item.toList = c :: text) (items : List String)
    (tail : List Char) : ∃ more, separated level (item :: items) ++ tail = c :: more ∧
      skipBlank (lineEnd level ++ (separated level (item :: items) ++ tail)) = c :: more := by
  obtain ⟨more, hmore⟩ : ∃ more, separated level (item :: items) ++ tail = c :: more := by
    cases items with
    | nil => exact ⟨_, by rw [separated, hitem, List.cons_append]⟩
    | cons next items =>
      exact ⟨_, by rw [separated_cons_cons, hitem, List.cons_append, List.cons_append]⟩
  refine ⟨more, hmore, ?_⟩
  rw [skipBlank_lineEnd, hmore]
  exact skipBlank_cons (isBlank_of_mem_heads hc) more

theorem toList_member (level : Nat) (name : String) (t : Tree) :
    (writeText name ++ ": " ++ t.write level).toList =
      (writeText name).toList ++ ':' :: ' ' :: (t.write level).toList := by
  rw [String.toList_append, String.toList_append, List.append_assoc]
  rfl

theorem exists_head_member (level : Nat) (name : String) (t : Tree) :
    ∃ rest, (writeText name ++ ": " ++ t.write level).toList = '"' :: rest := by
  rw [toList_member, toList_writeText]
  exact ⟨_, rfl⟩

/-! ## Reading -/

section

variable {fuel : Nat} {text left more rest : List Char} {d : Datum}

theorem readItems_last (hvalue : readValue fuel text = .ok (d, left))
    (hleft : skipBlank left = ']' :: rest) : readItems (fuel + 1) text = .ok ([d], rest) := by
  rw [readItems, hvalue, ok_bind]
  dsimp only
  rw [hleft]
  rfl

theorem readItems_next {items : List Datum} (hvalue : readValue fuel text = .ok (d, left))
    (hleft : skipBlank left = ',' :: more)
    (hmore : readItems fuel (skipBlank more) = .ok (items, rest)) :
    readItems (fuel + 1) text = .ok (d :: items, rest) := by
  rw [readItems, hvalue, ok_bind]
  dsimp only
  rw [hleft]
  show (readItems fuel (skipBlank more) >>= fun p => pure (d :: p.1, p.2)) = _
  rw [hmore]
  rfl

/-- The name of a member and the colon behind it. -/
theorem readMembers_named (name : String) (value : List Char) :
    readMembers (fuel + 1) ((writeText name).toList ++ ':' :: ' ' :: value) =
      readValue fuel (skipBlank (' ' :: value)) >>= fun p =>
        match skipBlank p.2 with
        | '\x7d' :: left => .ok ([(.text name, p.1)], left)
        | ',' :: left => readMembers fuel (skipBlank left) >>= fun q =>
          .ok ((.text name, p.1) :: q.1, q.2)
        | left => .error (.malformed .expectingComma left.length) := by
  rw [toList_writeText, List.cons_append, List.append_assoc, List.singleton_append, readMembers,
    readString_written, ok_bind]
  dsimp only
  rw [skipBlank_cons (by decide), String.ofList_toList]
  rfl

theorem readMembers_last {name : String}
    (hvalue : readValue fuel (skipBlank (' ' :: text)) = .ok (d, left))
    (hleft : skipBlank left = '\x7d' :: rest) :
    readMembers (fuel + 1) ((writeText name).toList ++ ':' :: ' ' :: text) =
      .ok ([(.text name, d)], rest) := by
  rw [readMembers_named, hvalue, ok_bind]
  dsimp only
  rw [hleft]
  rfl

theorem readMembers_next {name : String} {members : List (Datum × Datum)}
    (hvalue : readValue fuel (skipBlank (' ' :: text)) = .ok (d, left))
    (hleft : skipBlank left = ',' :: more)
    (hmore : readMembers fuel (skipBlank more) = .ok (members, rest)) :
    readMembers (fuel + 1) ((writeText name).toList ++ ':' :: ' ' :: text) =
      .ok ((.text name, d) :: members, rest) := by
  rw [readMembers_named, hvalue, ok_bind]
  dsimp only
  rw [hleft]
  show (readMembers fuel (skipBlank more) >>= fun q => .ok ((.text name, d) :: q.1, q.2)) = _
  rw [hmore]
  rfl

/-- A list with something in it is left to the reader of items. -/
theorem readValue_bracket {c : Char} (hc : c ∈ ['"', '[', '\x7b'])
    (hblank : skipBlank text = c :: more) :
    readValue (fuel + 1) ('[' :: text) =
      readItems fuel (c :: more) >>= fun p => .ok (.list p.1, p.2) := by
  rw [readValue, hblank]
  simp only [List.mem_cons, List.not_mem_nil, or_false] at hc
  rcases hc with rfl | rfl | rfl <;> rfl

theorem readValue_brace (hblank : skipBlank text = '"' :: more) :
    readValue (fuel + 1) ('\x7b' :: text) =
      readMembers fuel ('"' :: more) >>= fun p => .ok (.ofPairs p.1, p.2) := by
  rw [readValue, hblank]
  rfl

end

/-- The text of a value behind the colon of a member. -/
theorem skipBlank_write (level : Nat) (t : Tree) (rest : List Char) :
    skipBlank (' ' :: ((t.write level).toList ++ rest)) = (t.write level).toList ++ rest := by
  obtain ⟨c, hc, text, htext⟩ := exists_head level t
  rw [htext]
  exact skipBlank_cons (isBlank_of_mem_heads hc) _

mutual
theorem readValue_write : ∀ (t : Tree) (level fuel : Nat) (rest : List Char), t.weight ≤ fuel →
    readValue fuel ((t.write level).toList ++ rest) = .ok (t.toDatum, rest)
  | t, _, 0, _, h => by
    cases t <;> simp [weight] at h
  | .text s, level, fuel + 1, rest, h => by
    rw [write, toList_writeText, List.cons_append, List.append_assoc, List.singleton_append,
      readValue, readString_written, ok_bind, toDatum]
    dsimp only
    rw [String.ofList_toList]
    rfl
  | .list [], level, fuel + 1, rest, h => by
    rw [write, writeAll, toList_enclose_nil]
    show readValue (fuel + 1) ('[' :: ']' :: rest) = _
    rw [readValue, skipBlank_cons (by decide)]
    rfl
  | .list (t :: ts), level, fuel + 1, rest, h => by
    have hitems := readItems_write (t :: ts) (level + 1) fuel (lineEnd level ++ ']' :: rest) rest
      (List.cons_ne_nil t ts) (Nat.le_of_succ_le_succ h)
      (by rw [skipBlank_lineEnd, skipBlank_cons (by decide)])
    obtain ⟨c, hc, text, htext⟩ := exists_head (level + 1) t
    obtain ⟨more, hmore, hblank⟩ := skipBlank_separated (level + 1) hc htext
      (writeAll (level + 1) ts) (lineEnd level ++ ']' :: rest)
    rw [writeAll, hmore] at hitems
    rw [write, writeAll, toList_enclose]
    simp only [List.append_assoc]
    show readValue (fuel + 1) ('[' :: (lineEnd (level + 1) ++
      (separated (level + 1) (write (level + 1) t :: writeAll (level + 1) ts) ++
        (lineEnd level ++ ']' :: rest)))) = _
    rw [readValue_bracket hc hblank, hitems]
    rfl
  | .object [], level, fuel + 1, rest, h => by
    rw [write, writeMembers, toList_enclose_nil]
    show readValue (fuel + 1) ('\x7b' :: '\x7d' :: rest) = _
    rw [readValue, skipBlank_cons (by decide)]
    rfl
  | .object ((name, t) :: ms), level, fuel + 1, rest, h => by
    have hmembers := readMembers_write ((name, t) :: ms) (level + 1) fuel
      (lineEnd level ++ '\x7d' :: rest) rest (List.cons_ne_nil _ ms) (Nat.le_of_succ_le_succ h)
      (by rw [skipBlank_lineEnd, skipBlank_cons (by decide)])
    obtain ⟨text, htext⟩ := exists_head_member (level + 1) name t
    obtain ⟨more, hmore, hblank⟩ := skipBlank_separated (level + 1) (by decide) htext
      (writeMembers (level + 1) ms) (lineEnd level ++ '\x7d' :: rest)
    rw [writeMembers, hmore] at hmembers
    rw [write, writeMembers, toList_enclose]
    simp only [List.append_assoc]
    show readValue (fuel + 1) ('\x7b' :: (lineEnd (level + 1) ++
      (separated (level + 1) ((writeText name ++ ": " ++ write (level + 1) t) ::
        writeMembers (level + 1) ms) ++ (lineEnd level ++ '\x7d' :: rest)))) = _
    rw [readValue_brace hblank, hmembers]
    rfl

theorem readItems_write : ∀ (items : List Tree) (level fuel : Nat) (tail rest : List Char),
    items ≠ [] → weightAll items ≤ fuel → skipBlank tail = ']' :: rest →
    readItems fuel (separated level (writeAll level items) ++ tail) = .ok (toData items, rest)
  | [], _, _, _, _, hne, _, _ => absurd rfl hne
  | _ :: _, _, 0, _, _, _, h, _ => absurd h (by simp [weightAll])
  | [t], level, fuel + 1, tail, rest, _, h, htail => by
    have hfuel : t.weight ≤ fuel := by
      simp only [weightAll] at h
      omega
    exact readItems_last (readValue_write t level fuel tail hfuel) htail
  | t :: u :: ts, level, fuel + 1, tail, rest, _, h, htail => by
    have hfuel : t.weight ≤ fuel ∧ weightAll (u :: ts) ≤ fuel := by
      rw [weightAll] at h
      omega
    have hrest :=
      readItems_write (u :: ts) level fuel tail rest (List.cons_ne_nil u ts) hfuel.2 htail
    obtain ⟨c, hc, text, htext⟩ := exists_head level u
    obtain ⟨more, hmore, hblank⟩ := skipBlank_separated level hc htext
      (writeAll level ts) tail
    rw [writeAll, hmore, ← hblank] at hrest
    rw [writeAll, writeAll, separated_cons_cons, List.append_assoc, List.cons_append,
      List.append_assoc]
    exact readItems_next (readValue_write t level fuel _ hfuel.1) (skipBlank_cons (by decide) _)
      hrest

theorem readMembers_write : ∀ (members : List (String × Tree)) (level fuel : Nat)
    (tail rest : List Char), members ≠ [] → weightMembers members ≤ fuel →
    skipBlank tail = '\x7d' :: rest →
    readMembers fuel (separated level (writeMembers level members) ++ tail) =
      .ok (toPairs members, rest)
  | [], _, _, _, _, hne, _, _ => absurd rfl hne
  | _ :: _, _, 0, _, _, _, h, _ => absurd h (by simp [weightMembers])
  | [(name, t)], level, fuel + 1, tail, rest, _, h, htail => by
    have hfuel : t.weight ≤ fuel := by
      simp only [weightMembers] at h
      omega
    have hvalue := readValue_write t level fuel tail hfuel
    rw [← skipBlank_write] at hvalue
    rw [writeMembers, writeMembers, separated, toList_member, List.append_assoc]
    exact readMembers_last hvalue htail
  | (name, t) :: (name', u) :: ms, level, fuel + 1, tail, rest, _, h, htail => by
    have hfuel : t.weight ≤ fuel ∧ weightMembers ((name', u) :: ms) ≤ fuel := by
      rw [weightMembers] at h
      omega
    have hrest := readMembers_write ((name', u) :: ms) level fuel tail rest (List.cons_ne_nil _ ms)
      hfuel.2 htail
    obtain ⟨text, htext⟩ := exists_head_member level name' u
    obtain ⟨more, hmore, hblank⟩ := skipBlank_separated level (by decide) htext
      (writeMembers level ms) tail
    rw [writeMembers, hmore, ← hblank] at hrest
    have hvalue := readValue_write t level fuel
      (',' :: (lineEnd level ++ (separated level
        ((writeText name' ++ ": " ++ write level u) :: writeMembers level ms) ++ tail))) hfuel.1
    rw [← skipBlank_write] at hvalue
    rw [writeMembers, writeMembers, separated_cons_cons, toList_member]
    simp only [List.append_assoc, List.cons_append]
    exact readMembers_next hvalue (skipBlank_cons (by decide) _) hrest
end

/-! ## Documents -/

mutual
/-- There is more text than reading it takes fuel. -/
theorem weight_lt_length : ∀ (t : Tree) (level : Nat), t.weight < (t.write level).toList.length
  | .text s, level => by
    rw [write, toList_writeText, weight]
    simp
  | .list [], level => by
    rw [write, writeAll, toList_enclose_nil]
    decide
  | .list (t :: ts), level => by
    have hitems := weightAll_le_length (t :: ts) (level + 1)
    rw [writeAll] at hitems
    rw [write, writeAll, toList_enclose, weight]
    simp only [lineEnd, List.length_append, List.length_cons]
    omega
  | .object [], level => by
    rw [write, writeMembers, toList_enclose_nil]
    decide
  | .object ((name, t) :: ms), level => by
    have hmembers := weightMembers_le_length ((name, t) :: ms) (level + 1)
    rw [writeMembers] at hmembers
    rw [write, writeMembers, toList_enclose, weight]
    simp only [lineEnd, List.length_append, List.length_cons]
    omega

theorem weightAll_le_length : ∀ (items : List Tree) (level : Nat),
    weightAll items ≤ (separated level (writeAll level items)).length
  | [], _ => Nat.le_refl 0
  | [t], level => weight_lt_length t level
  | t :: u :: ts, level => by
    have hfirst := weight_lt_length t level
    have hrest := weightAll_le_length (u :: ts) level
    rw [writeAll] at hrest
    rw [writeAll, writeAll, separated_cons_cons, weightAll]
    simp only [List.length_append, List.length_cons]
    omega

theorem weightMembers_le_length : ∀ (members : List (String × Tree)) (level : Nat),
    weightMembers members ≤ (separated level (writeMembers level members)).length
  | [], _ => Nat.le_refl 0
  | [(name, t)], level => by
    have hvalue := weight_lt_length t level
    rw [writeMembers, writeMembers, separated, toList_member]
    simp only [List.length_append, List.length_cons, weightMembers]
    omega
  | (name, t) :: (name', u) :: ms, level => by
    have hvalue := weight_lt_length t level
    have hrest := weightMembers_le_length ((name', u) :: ms) level
    rw [writeMembers] at hrest
    rw [writeMembers, writeMembers, separated_cons_cons, toList_member, weightMembers]
    simp only [List.length_append, List.length_cons]
    omega
end

/-- What is printed for a tree is read as the value of the tree. -/
theorem parse_toText (t : Tree) : parse (t.toText ++ "\n") = .ok t.toDatum := by
  obtain ⟨c, hc, text, htext⟩ := exists_head 0 t
  have hmark : '\ufeff' ∉ ['"', '[', '\x7b'] := by decide
  have hlength := weight_lt_length t 0
  have hread : readDocument ((t.write 0).toList ++ ['\n']) = .ok t.toDatum := by
    have hhead : ((t.write 0).toList ++ ['\n']).head? ≠ some '\ufeff' := by
      rw [htext]
      exact fun h => hmark (Option.some.inj h ▸ hc)
    have hblank : skipBlank ((t.write 0).toList ++ ['\n']) = (t.write 0).toList ++ ['\n'] := by
      rw [htext]
      exact skipBlank_cons (isBlank_of_mem_heads hc) _
    rw [readDocument, if_neg hhead, hblank, readValue_write]
    · rfl
    · rw [List.length_append]
      omega
  rw [parse, toText, String.toList_append]
  show (readDocument ((t.write 0).toList ++ ['\n'])).mapError _ = _
  rw [hread]
  rfl

end Json
end Groundplan
