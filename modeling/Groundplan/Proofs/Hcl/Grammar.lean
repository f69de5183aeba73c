/-
A grammar of values, in which no text has two readings.

Read from the left, a text never leaves a choice.  Its first character shows what kind of
value it is, a literal ends at the first quote that is not escaped, and a number where
something stands that no number has.  How a list or an object is laid out depends on what
is in it and on how deep it stands; but a reader that passes over spaces and newlines
between the parts need not know, so the grammar leaves them open.
-/
import Mathlib
import Groundplan.Proofs.Hcl.Keys

namespace Groundplan

namespace Hcl

open Text

/-! ## The grammar -/

def isGap (c : Char) : Bool := c == ' ' || c == '\n'

/-- Spaces and newlines. -/
def IsGap (cs : List Char) : Prop := ∀ c ∈ cs, isGap c = true

theorem isGap_of_ne {c : Char} (hspace : c ≠ ' ') (hnewline : c ≠ '\n') : isGap c = false := by
  rw [isGap, beq_eq_false_iff_ne.mpr hspace, beq_eq_false_iff_ne.mpr hnewline]
  rfl

mutual
/-- The texts of a value. -/
inductive Denotes : List Char → Datum → Prop
  | null : Denotes "null".toList .null
  | bool (b : Bool) : Denotes (if b then "true" else "false").toList (.bool b)
  | int (n : Int) : Denotes (toString n).toList (.int n)
  | text (s : String) : Denotes (quote s).toList (.text s)
  | list {cs : List Char} {items : List Datum} : DenotesItems cs items →
      Denotes ('[' :: cs) (.list items)
  | mapping {cs : List Char} {entries : List (Datum × Datum)} : DenotesEntries cs entries →
      Denotes ('\x7b' :: cs) (.mapping entries)

/-- The texts of items up to the bracket behind them. -/
inductive DenotesItems : List Char → List Datum → Prop
  | nil {gap : List Char} : IsGap gap → DenotesItems (gap ++ [']']) []
  | cons {gap cs rest : List Char} {x : Datum} {xs : List Datum} : IsGap gap → Denotes cs x →
      DenotesRest rest xs → DenotesItems (gap ++ (cs ++ rest)) (x :: xs)

/-- What can stand behind an item: the bracket, or a comma with or without further items. -/
inductive DenotesRest : List Char → List Datum → Prop
  | closed : DenotesRest [']'] []
  | comma {cs : List Char} {xs : List Datum} : DenotesItems cs xs → DenotesRest (',' :: cs) xs

/-- The texts of entries up to the brace behind them. -/
inductive DenotesEntries : List Char → List (Datum × Datum) → Prop
  | nil {gap : List Char} : IsGap gap → DenotesEntries (gap ++ ['\x7d']) []
  | cons {gap cs rest : List Char} {k : String} {n : Nat} {x : Datum}
      {entries : List (Datum × Datum)} : IsGap gap → Denotes cs x → DenotesEntries rest entries →
      DenotesEntries
        (gap ++ ((key k).toList ++ ' ' :: (spaces n ++ '=' :: ' ' :: (cs ++ '\n' :: rest))))
        ((.text k, x) :: entries)
end

/-! ## Literals and keys -/

/-- The body of a literal and what stands behind its closing quote. -/
def untilQuote : List Char → Option (List Char × List Char)
  | [] => none
  | '"' :: rest => some ([], rest)
  | '\\' :: c :: rest => (untilQuote rest).map fun p => ('\\' :: c :: p.1, p.2)
  | c :: rest => (untilQuote rest).map fun p => (c :: p.1, p.2)

theorem untilQuote_raw {c : Char} (hquote : c ≠ '"') (hslash : c ≠ '\\') (cs : List Char) :
    untilQuote (c :: cs) = (untilQuote cs).map fun p => (c :: p.1, p.2) := by
  rw [untilQuote]
  · exact hquote
  · exact fun _ _ h => absurd h hslash

theorem untilQuote_escape (s rest : List Char) :
    untilQuote (Literal.escape s ++ '"' :: rest) = some (Literal.escape s, rest) := by
  have hmarker : ∀ (c : Char) (s : List Char), c ≠ '"' → c ≠ '\\' →
      untilQuote (Literal.escape s ++ '"' :: rest) = some (Literal.escape s, rest) →
        untilQuote (c :: c :: '\x7b' :: (Literal.escape s ++ '"' :: rest)) =
          some (c :: c :: '\x7b' :: Literal.escape s, rest) := by
    intro c s hquote hslash ih
    rw [untilQuote_raw hquote hslash, untilQuote_raw hquote hslash,
      untilQuote_raw (by decide) (by decide), ih]
    rfl
  fun_induction Literal.escape s with
  | case1 => rfl
  | case2 s ih => exact hmarker '$' s (by decide) (by decide) ih
  | case3 s ih => exact hmarker '%' s (by decide) (by decide) ih
  | case4 c s _ _ ih =>
    by_cases hraw : Literal.IsRaw c
    · rw [Literal.escapeChar_of_isRaw hraw, List.singleton_append, List.cons_append,
        untilQuote_raw hraw.2.1 hraw.1, ih]
      rfl
    · obtain ⟨d, hd, -⟩ := Literal.escapeChar_of_not_isRaw hraw
      rw [hd]
      show (untilQuote (Literal.escape s ++ '"' :: rest)).map _ = _
      rw [ih]
      rfl

theorem quote_append_inj {s t : String} {r u : List Char}
    (h : (quote s).toList ++ r = (quote t).toList ++ u) : s = t ∧ r = u := by
  rw [toList_quote, toList_quote, List.cons_append, List.cons_append, List.append_assoc,
    List.append_assoc] at h
  have hread := congrArg untilQuote (List.cons.inj h).2
  rw [List.singleton_append, List.singleton_append, untilQuote_escape, untilQuote_escape] at hread
  obtain ⟨hbody, hrest⟩ := Prod.mk.inj (Option.some.inj hread)
  exact ⟨String.toList_injective (Literal.escape_injective hbody), hrest⟩

/-- The characters of keys that are written bare. -/
def isBareChar (c : Char) : Bool := isLetter c || isAsciiDigit c || c == '_' || c == '\n'

/-- A key is written bare, with a letter or an underscore at its front, or as a literal. -/
theorem key_cases (k : String) :
    (key k = k ∧ ∃ c rest, k.toList = c :: rest ∧ (isLetter c || c == '_') = true ∧
      ∀ d ∈ k.toList, isBareChar d = true) ∨ key k = quote k := by
  by_cases hbare : isIdentifier k = true ∧ k ∉ reservedKeys
  · refine .inl ⟨key_of_bare hbare.1 hbare.2, ?_⟩
    obtain ⟨c, body, hc, -, hk⟩ := exists_of_isName hbare.1
    have hchars : ∀ d ∈ k.toList, isBareChar d = true := by
      refine isName_imp (fun d hd => ?_) (fun d hd => ?_) rfl hbare.1
      · rcases Bool.or_eq_true_iff.mp hd with hd | hd <;> simp [isBareChar, hd]
      · rw [isBareChar, hd, Bool.true_or]
    rcases hk with hk | hk
    · exact ⟨c, body, hk, hc, hchars⟩
    · exact ⟨c, body ++ ['\n'], hk, hc, hchars⟩
  · exact .inr (key_of_not_bare fun hid => by_contra fun hfree => hbare ⟨hid, hfree⟩)

theorem exists_head_key (k : String) :
    ∃ c rest, (key k).toList = c :: rest ∧ isGap c = false ∧ c ≠ '\x7d' := by
  rcases key_cases k with ⟨hkey, c, rest, hk, hc, -⟩ | hkey
  · have hne : ∀ d : Char, (isLetter d || d == '_') = false → c ≠ d := fun d hd =>
      ne_of_apply_ne (fun e => isLetter e || e == '_') (by simp only [hc, hd]; decide)
    exact ⟨c, rest, by rw [hkey, hk], isGap_of_ne (hne ' ' rfl) (hne '\n' rfl), hne '\x7d' (by decide)⟩
  · exact ⟨'"', _, by rw [hkey, toList_quote], by decide, by decide⟩

/-- A bare key ends in front of a space, and a literal starts as no bare key does. -/
theorem key_append_inj {k l : String} {r s : List Char}
    (h : (key k).toList ++ ' ' :: r = (key l).toList ++ ' ' :: s) : k = l ∧ r = s := by
  have hmixed : ∀ {k l : String} {r s : List Char}, (∀ d ∈ k.toList, isBareChar d = true) →
      k.toList ≠ [] → k.toList ++ r ≠ (quote l).toList ++ s := by
    intro k l r s hchars hne heq
    obtain ⟨c, rest, hk⟩ := List.exists_cons_of_ne_nil hne
    rw [hk] at hchars heq
    rw [toList_quote] at heq
    have hc := hchars c List.mem_cons_self
    rw [(List.cons.inj heq).1] at hc
    exact absurd hc (by decide)
  rcases key_cases k with ⟨hk, c, rest, hcons, -, hchars⟩ | hk <;>
    rcases key_cases l with ⟨hl, d, rest', hcons', -, hchars'⟩ | hl <;> rw [hk, hl] at h
  · obtain ⟨hkl, -, hrest⟩ := append_cons_inj_of_class h hchars hchars' rfl rfl
    exact ⟨String.toList_injective hkl, hrest⟩
  · exact absurd h (hmixed hchars (by rw [hcons]; exact List.cons_ne_nil c rest))
  · exact absurd h.symm (hmixed hchars' (by rw [hcons']; exact List.cons_ne_nil d rest'))
  · obtain ⟨hkl, hrest⟩ := quote_append_inj h
    exact ⟨hkl, (List.cons.inj hrest).2⟩

/-! ## The first character -/

/-- The type of the values of which the texts start with a character. -/
def typeOfHead (c : Char) : Option String :=
  if c = 'n' then some "NoneType"
  else if c = 't' ∨ c = 'f' then some "bool"
  else if c = '"' then some "str"
  else if c = '[' then some "list"
  else if c = '\x7b' then some "dict"
  else if c = '-' ∨ c.isDigit then some "int"
  else none

theorem typeOfHead_of_isDigit {c : Char} (h : c.isDigit = true) : typeOfHead c = some "int" := by
  have hne : ∀ d : Char, d.isDigit = false → c ≠ d := fun d hd =>
    ne_of_apply_ne Char.isDigit (by simp [h, hd])
  simp [typeOfHead, h, hne]

theorem exists_head_toString (n : Int) :
    ∃ c rest, (toString n).toList = c :: rest ∧ typeOfHead c = some "int" := by
  have hdigits : ∀ m : Nat, ∃ c rest, (Nat.repr m).toList = c :: rest ∧ c.isDigit = true := by
    intro m
    rw [Nat.repr, String.toList_ofList]
    obtain ⟨c, rest, hcons⟩ := List.exists_cons_of_ne_nil (Nat.toDigits_ne_nil (b := 10) (n := m))
    refine ⟨c, rest, hcons, Nat.isDigit_of_mem_toDigits (b := 10) (n := m) (by decide) (by decide) ?_⟩
    rw [hcons]
    exact List.mem_cons_self
  cases n with
  | ofNat m =>
    obtain ⟨c, rest, hcons, hdigit⟩ := hdigits m
    exact ⟨c, rest, hcons, typeOfHead_of_isDigit hdigit⟩
  | negSucc m => exact ⟨'-', (Nat.repr (m + 1)).toList, String.toList_append, rfl⟩

theorem Denotes.exists_head {cs : List Char} {x : Datum} (h : Denotes cs x) :
    ∃ c rest, cs = c :: rest ∧ typeOfHead c = some x.typeName := by
  cases h with
  | null => exact ⟨_, _, rfl, by decide⟩
  | bool b => cases b <;> exact ⟨_, _, rfl, by decide⟩
  | int n => exact exists_head_toString n
  | text s => exact ⟨_, _, toList_quote s, rfl⟩
  | list _ => exact ⟨_, _, rfl, rfl⟩
  | mapping _ => exact ⟨_, _, rfl, rfl⟩

theorem Denotes.typeName_eq {cs ds r s : List Char} {x y : Datum} (hx : Denotes cs x)
    (hy : Denotes ds y) (h : cs ++ r = ds ++ s) : x.typeName = y.typeName := by
  obtain ⟨c, cs, rfl, hc⟩ := hx.exists_head
  obtain ⟨d, ds, rfl, hd⟩ := hy.exists_head
  obtain ⟨rfl, -⟩ := List.cons.inj h
  exact Option.some.inj (hc.symm.trans hd)

/-- A value starts with no character of a gap, and not with what closes a list. -/
theorem Denotes.exists_start {cs : List Char} {x : Datum} (h : Denotes cs x) :
    ∃ c rest, cs = c :: rest ∧ isGap c = false ∧ c ≠ ']' := by
  obtain ⟨c, rest, hcs, hc⟩ := h.exists_head
  have hne : ∀ d : Char, typeOfHead d = none → c ≠ d := fun d hd =>
    ne_of_apply_ne typeOfHead (by simp [hc, hd])
  exact ⟨c, rest, hcs, isGap_of_ne (hne ' ' rfl) (hne '\n' rfl), hne ']' rfl⟩

/-! ## Reading from the left -/

/-- What can stand behind a value.  A number needs it, as no bracket or quote closes it. -/
def IsDelimited (cs : List Char) : Prop := ∀ c ∈ cs.head?, c = ',' ∨ c = ']' ∨ c = '\n'

/-- A text tells which value stands at the front, and where the text of it ends. -/
def Tells (cs : List Char) (x : Datum) : Prop :=
  ∀ {ds r s : List Char} {y : Datum}, Denotes ds y → IsDelimited r → IsDelimited s →
    cs ++ r = ds ++ s → x = y ∧ r = s

def TellsItems (cs : List Char) (xs : List Datum) : Prop :=
  ∀ {ds r s : List Char} {ys : List Datum}, DenotesItems ds ys → cs ++ r = ds ++ s →
    xs = ys ∧ r = s

def TellsRest (cs : List Char) (xs : List Datum) : Prop :=
  ∀ {ds r s : List Char} {ys : List Datum}, DenotesRest ds ys → cs ++ r = ds ++ s →
    xs = ys ∧ r = s

def TellsEntries (cs : List Char) (es : List (Datum × Datum)) : Prop :=
  ∀ {ds r s : List Char} {fs : List (Datum × Datum)}, DenotesEntries ds fs → cs ++ r = ds ++ s →
    es = fs ∧ r = s

theorem tells_null : Tells "null".toList .null := by
  intro ds r s y hy _ _ h
  have htype := Denotes.null.typeName_eq hy h
  cases hy with
  | null => exact ⟨rfl, List.append_cancel_left h⟩
  | _ => simp [Datum.typeName] at htype

theorem tells_bool (b : Bool) : Tells (if b then "true" else "false").toList (.bool b) := by
  intro ds r s y hy _ _ h
  have htype := (Denotes.bool b).typeName_eq hy h
  cases hy with
  | bool b' =>
    cases b <;> cases b'
    · exact ⟨rfl, List.append_cancel_left h⟩
    · cases h
    · cases h
    · exact ⟨rfl, List.append_cancel_left h⟩
  | _ => simp [Datum.typeName] at htype

theorem tells_int (n : Int) : Tells (toString n).toList (.int n) := by
  intro ds r s y hy hr hs h
  have htype := (Denotes.int n).typeName_eq hy h
  have hclass : ∀ {cs}, IsDelimited cs → ∀ c ∈ cs.head?, Number.isNumeral c = false := by
    intro cs hcs c hc
    rcases hcs c hc with rfl | rfl | rfl <;> decide
  cases hy with
  | int m =>
    obtain ⟨htext, hrest⟩ := append_inj_of_class h (Number.isNumeral_toString n)
      (Number.isNumeral_toString m) (hclass hr) (hclass hs)
    exact ⟨congrArg Datum.int (Int.repr_inj.mp (String.toList_injective htext)), hrest⟩
  | _ => simp [Datum.typeName] at htype

theorem tells_text (t : String) : Tells (quote t).toList (.text t) := by
  intro ds r s y hy _ _ h
  have htype := (Denotes.text t).typeName_eq hy h
  cases hy with
  | text u =>
    obtain ⟨rfl, hrest⟩ := quote_append_inj h
    exact ⟨rfl, hrest⟩
  | _ => simp [Datum.typeName] at htype

theorem tells_list {cs : List Char} {items : List Datum} (hitems : DenotesItems cs items)
    (ih : TellsItems cs items) : Tells ('[' :: cs) (.list items) := by
  intro ds r s y hy _ _ h
  have htype := (Denotes.list hitems).typeName_eq hy h
  cases hy with
  | list hys =>
    obtain ⟨rfl, hrest⟩ := ih hys (List.cons.inj h).2
    exact ⟨rfl, hrest⟩
  | _ => simp [Datum.typeName] at htype

theorem tells_mapping {cs : List Char} {entries : List (Datum × Datum)}
    (hentries : DenotesEntries cs entries) (ih : TellsEntries cs entries) :
    Tells ('\x7b' :: cs) (.mapping entries) := by
  intro ds r s y hy _ _ h
  have htype := (Denotes.mapping hentries).typeName_eq hy h
  cases hy with
  | mapping hys =>
    obtain ⟨rfl, hrest⟩ := ih hys (List.cons.inj h).2
    exact ⟨rfl, hrest⟩
  | _ => simp [Datum.typeName] at htype

/-- A gap ends where something starts that is none. -/
theorem gap_append_inj {gap gap' a b : List Char} (hgap : IsGap gap) (hgap' : IsGap gap')
    (ha : ∀ c ∈ a.head?, isGap c = false) (hb : ∀ c ∈ b.head?, isGap c = false)
    (h : gap ++ a = gap' ++ b) : a = b :=
  (append_inj_of_class h hgap hgap' ha hb).2

theorem isGap_head_cons {c : Char} (hc : isGap c = false) (r : List Char) :
    ∀ d ∈ (c :: r).head?, isGap d = false := by
  intro d hd
  cases hd
  exact hc

theorem Denotes.isGap_head {cs : List Char} {x : Datum} (h : Denotes cs x) (r : List Char) :
    ∀ c ∈ (cs ++ r).head?, isGap c = false := by
  obtain ⟨c, rest, rfl, hc, -⟩ := h.exists_start
  exact isGap_head_cons hc (rest ++ r)

theorem isGap_head_key (k : String) (r : List Char) :
    ∀ c ∈ ((key k).toList ++ r).head?, isGap c = false := by
  obtain ⟨c, rest, hk, hc, -⟩ := exists_head_key k
  rw [hk]
  exact isGap_head_cons hc (rest ++ r)

theorem Denotes.append_ne {cs : List Char} {x : Datum} (h : Denotes cs x) (r s : List Char) :
    ']' :: s ≠ cs ++ r := by
  obtain ⟨c, rest, rfl, -, hne⟩ := h.exists_start
  exact fun heq => hne (List.cons.inj heq).1.symm

theorem key_append_ne (k : String) (r s : List Char) : '\x7d' :: s ≠ (key k).toList ++ r := by
  obtain ⟨c, rest, hk, -, hne⟩ := exists_head_key k
  rw [hk]
  exact fun heq => hne (List.cons.inj heq).1.symm

theorem tellsItems_nil {gap : List Char} (hgap : IsGap gap) : TellsItems (gap ++ [']']) [] := by
  intro ds r s ys hys h
  rw [List.append_assoc, List.singleton_append] at h
  cases hys with
  | nil hgap' =>
    rw [List.append_assoc, List.singleton_append] at h
    have hclosed := gap_append_inj hgap hgap' (isGap_head_cons rfl r) (isGap_head_cons rfl s) h
    exact ⟨rfl, (List.cons.inj hclosed).2⟩
  | cons hgap' hy _ =>
    rw [List.append_assoc, List.append_assoc] at h
    have hclosed := gap_append_inj hgap hgap' (isGap_head_cons rfl r) (hy.isGap_head _) h
    exact absurd hclosed (hy.append_ne _ r)

theorem isDelimited_rest {cs : List Char} {xs : List Datum} (h : DenotesRest cs xs)
    (r : List Char) : IsDelimited (cs ++ r) := by
  cases h with
  | closed =>
    intro c hc
    cases hc
    exact .inr (.inl rfl)
  | comma _ =>
    intro c hc
    cases hc
    exact .inl rfl

theorem tellsItems_cons {gap cs rest : List Char} {x : Datum} {xs : List Datum} (hgap : IsGap gap)
    (hx : Denotes cs x) (hxs : DenotesRest rest xs) (ihx : Tells cs x) (ihxs : TellsRest rest xs) :
    TellsItems (gap ++ (cs ++ rest)) (x :: xs) := by
  intro ds r s ys hys h
  rw [List.append_assoc, List.append_assoc] at h
  cases hys with
  | nil hgap' =>
    rw [List.append_assoc, List.singleton_append] at h
    have hclosed := gap_append_inj hgap hgap' (hx.isGap_head _) (isGap_head_cons rfl s) h
    exact absurd hclosed.symm (hx.append_ne _ s)
  | cons hgap' hy hys =>
    rw [List.append_assoc, List.append_assoc] at h
    obtain ⟨rfl, hrest⟩ := ihx hy (isDelimited_rest hxs r) (isDelimited_rest hys s)
      (gap_append_inj hgap hgap' (hx.isGap_head _) (hy.isGap_head _) h)
    obtain ⟨rfl, hrest⟩ := ihxs hys hrest
    exact ⟨rfl, hrest⟩

theorem tellsRest_closed : TellsRest [']'] [] := by
  intro ds r s ys hys h
  cases hys with
  | closed => exact ⟨rfl, (List.cons.inj h).2⟩
  | comma _ => cases h

theorem tellsRest_comma {cs : List Char} {xs : List Datum} (ih : TellsItems cs xs) :
    TellsRest (',' :: cs) xs := by
  intro ds r s ys hys h
  cases hys with
  | closed => cases h
  | comma hys => exact ih hys (List.cons.inj h).2

theorem tellsEntries_nil {gap : List Char} (hgap : IsGap gap) :
    TellsEntries (gap ++ ['\x7d']) [] := by
  intro ds r s fs hfs h
  rw [List.append_assoc, List.singleton_append] at h
  cases hfs with
  | nil hgap' =>
    rw [List.append_assoc, List.singleton_append] at h
    have hclosed := gap_append_inj hgap hgap' (isGap_head_cons rfl r) (isGap_head_cons rfl s) h
    exact ⟨rfl, (List.cons.inj hclosed).2⟩
  | cons hgap' _ _ =>
    rw [List.append_assoc, List.append_assoc] at h
    have hclosed := gap_append_inj hgap hgap' (isGap_head_cons rfl r) (isGap_head_key _ _) h
    exact absurd hclosed (key_append_ne _ _ r)

theorem tellsEntries_cons {gap cs rest : List Char} {k : String} {n : Nat} {x : Datum}
    {entries : List (Datum × Datum)} (hgap : IsGap gap) (ihx : Tells cs x)
    (ihentries : TellsEntries rest entries) :
    TellsEntries
      (gap ++ ((key k).toList ++ ' ' :: (spaces n ++ '=' :: ' ' :: (cs ++ '\n' :: rest))))
      ((.text k, x) :: entries) := by
  intro ds r s fs hfs h
  have hspaces : ∀ {m}, ∀ c ∈ spaces m, (c == ' ') = true := fun _ hc =>
    beq_iff_eq.mpr (mem_spaces hc)
  have hnewline : ∀ cs, IsDelimited ('\n' :: cs) := by
    intro cs c hc
    cases hc
    exact .inr (.inr rfl)
  simp only [List.append_assoc, List.cons_append] at h
  cases hfs with
  | nil hgap' =>
    rw [List.append_assoc, List.singleton_append] at h
    have hclosed := gap_append_inj hgap hgap' (isGap_head_key k _) (isGap_head_cons rfl s) h
    exact absurd hclosed.symm (key_append_ne k _ s)
  | cons hgap' hy hfs =>
    simp only [List.append_assoc, List.cons_append] at h
    -- The key ends at the space behind it, and what pads it at the equals sign.
    obtain ⟨rfl, hequals⟩ := key_append_inj
      (gap_append_inj hgap hgap' (isGap_head_key k _) (isGap_head_key _ _) h)
    obtain ⟨-, -, hvalue⟩ := append_cons_inj_of_class hequals hspaces hspaces rfl rfl
    obtain ⟨rfl, hrest⟩ := ihx hy (hnewline _) (hnewline _) (List.cons.inj hvalue).2
    obtain ⟨rfl, hend⟩ := ihentries hfs (List.cons.inj hrest).2
    exact ⟨rfl, hend⟩

-- The recursion is over the derivation of the first reading.
mutual
theorem tells_of_denotes : ∀ {cs : List Char} {x : Datum}, Denotes cs x → Tells cs x
  | _, _, .null => tells_null
  | _, _, .bool b => tells_bool b
  | _, _, .int n => tells_int n
  | _, _, .text s => tells_text s
  | _, _, .list h => tells_list h (tellsItems_of_denotes h)
  | _, _, .mapping h => tells_mapping h (tellsEntries_of_denotes h)

theorem tellsItems_of_denotes : ∀ {cs : List Char} {xs : List Datum}, DenotesItems cs xs →
    TellsItems cs xs
  | _, _, .nil hgap => tellsItems_nil hgap
  | _, _, .cons hgap hx hxs =>
    tellsItems_cons hgap hx hxs (tells_of_denotes hx) (tellsRest_of_denotes hxs)

theorem tellsRest_of_denotes : ∀ {cs : List Char} {xs : List Datum}, DenotesRest cs xs →
    TellsRest cs xs
  | _, _, .closed => tellsRest_closed
  | _, _, .comma h => tellsRest_comma (tellsItems_of_denotes h)

theorem tellsEntries_of_denotes : ∀ {cs : List Char} {es : List (Datum × Datum)},
    DenotesEntries cs es → TellsEntries cs es
  | _, _, .nil hgap => tellsEntries_nil hgap
  | _, _, .cons hgap hx hes =>
    tellsEntries_cons hgap (tells_of_denotes hx) (tellsEntries_of_denotes hes)
end

/-- No text has two readings. -/
theorem Denotes.unique {cs : List Char} {x y : Datum} (hx : Denotes cs x) (hy : Denotes cs y) :
    x = y := by
  have hnone : IsDelimited [] := fun _ hc => nomatch hc
  exact (tells_of_denotes hx hy hnone hnone rfl).1

end Hcl
end Groundplan
