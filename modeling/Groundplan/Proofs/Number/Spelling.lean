/-
The integers that texts spell.

The reader of integers trims a text, turns the digits of other scripts into ASCII, splits off
the sign and checks the underscores before it reads a digit.  Which texts spell an integer can
be told without any of these steps: they are blanks, a sign, a run of digits of any script, and
blanks again.  The one thing that cannot be seen from the text is the bound on the number of
digits.
-/
import Groundplan.Number.Reading
import Groundplan.Proofs.Result
import Groundplan.Proofs.Text.Trimming
import Mathlib.Data.List.Forall2
import Mathlib.Data.Nat.Digits.Defs

namespace Groundplan
namespace Number

/-- A decimal digit of some script. -/
def IsDigitOf (c : Char) (d : Nat) : Prop :=
  d < 10 ∧ ∃ first ∈ 48 :: Text.digitZeros, c.toNat = first + d

/-- Digits with single underscores between some of them. -/
inductive IsDigitRun : List Char → List Nat → Prop
  | single {c : Char} {d : Nat} : IsDigitOf c d → IsDigitRun [c] [d]
  | digit {c : Char} {d : Nat} {cs : List Char} {ds : List Nat} :
      IsDigitOf c d → IsDigitRun cs ds → IsDigitRun (c :: cs) (d :: ds)
  | spaced {c : Char} {d : Nat} {cs : List Char} {ds : List Nat} :
      IsDigitOf c d → IsDigitRun cs ds → IsDigitRun (c :: '_' :: cs) (d :: ds)

/-- A sign in front of digits, which may be absent. -/
inductive IsSign : Bool → List Char → Prop
  | absent : IsSign false []
  | plus : IsSign false ['+']
  | minus : IsSign true ['-']

/-- A text is a sign and digits with blanks around them. -/
def Spells (s : String) (negative : Bool) (ds : List Nat) : Prop :=
  ∃ before sign run after, s.toList = before ++ ((sign ++ run) ++ after) ∧
    (∀ c ∈ before, Text.isBlank c = true) ∧ IsSign negative sign ∧ IsDigitRun run ds ∧
      ∀ c ∈ after, Text.isBlank c = true

/-! ## Digits of any script -/

theorem find?_digitZeros : ∀ first ∈ Text.digitZeros, ∀ d < 10,
    Text.digitZeros.find? (fun z => z ≤ first + d && first + d < z + 10) = some first := by
  decide +kernel

theorem ge_of_mem_digitZeros : ∀ first ∈ Text.digitZeros, 0x80 ≤ first := by decide

theorem toNat_ofNat_digit : ∀ d < 10, (Char.ofNat (48 + d)).toNat = 48 + d := by decide

/-- A digit is written as the ASCII digit of its value. -/
theorem IsDigitOf.toAsciiDigit {c : Char} {d : Nat} (h : IsDigitOf c d) :
    Text.toAsciiDigit c = Char.ofNat (48 + d) := by
  obtain ⟨hd, first, hfirst, hc⟩ := h
  rw [Text.toAsciiDigit]
  rcases List.mem_cons.mp hfirst with rfl | hfirst
  · rw [if_pos (by omega), ← hc, Char.ofNat_toNat]
  · have hge := ge_of_mem_digitZeros first hfirst
    rw [if_neg (by omega), hc, find?_digitZeros first hfirst d hd]
    dsimp only
    rw [Nat.add_sub_cancel_left]

/-- Every character that is not a digit stays as it is. -/
theorem toAsciiDigit_of_not_digit {c : Char} (h : ∀ d, ¬IsDigitOf c d) :
    Text.toAsciiDigit c = c := by
  rw [Text.toAsciiDigit]
  split
  · rfl
  · cases hfind : Text.digitZeros.find? fun z => z ≤ c.toNat && c.toNat < z + 10 with
    | none => rfl
    | some first =>
      have hin := List.find?_some hfind
      rw [Bool.and_eq_true, decide_eq_true_iff, decide_eq_true_iff] at hin
      exact absurd ⟨by omega, first, List.mem_cons_of_mem _ (List.mem_of_find?_eq_some hfind),
        by omega⟩ (h (c.toNat - first))

theorem isDigitOf_ofNat {d : Nat} (hd : d < 10) : IsDigitOf (Char.ofNat (48 + d)) d :=
  ⟨hd, 48, List.mem_cons_self, toNat_ofNat_digit d hd⟩

theorem isDigitOf_iff {c : Char} {d : Nat} :
    IsDigitOf c d ↔ d < 10 ∧ Text.toAsciiDigit c = Char.ofNat (48 + d) := by
  refine ⟨fun h => ⟨h.1, h.toAsciiDigit⟩, fun h => ?_⟩
  obtain ⟨hd, hc⟩ := h
  by_cases hdigit : ∃ d', IsDigitOf c d'
  · obtain ⟨d', hd'⟩ := hdigit
    have hsame := congrArg Char.toNat (hd'.toAsciiDigit.symm.trans hc)
    rw [toNat_ofNat_digit d' hd'.1, toNat_ofNat_digit d hd] at hsame
    rwa [← Nat.add_left_cancel hsame]
  · rw [toAsciiDigit_of_not_digit (not_exists.mp hdigit)] at hc
    rw [hc]
    exact isDigitOf_ofNat hd

theorem toAsciiDigit_toAsciiDigit (c : Char) :
    Text.toAsciiDigit (Text.toAsciiDigit c) = Text.toAsciiDigit c := by
  by_cases hdigit : ∃ d, IsDigitOf c d
  · obtain ⟨d, hd⟩ := hdigit
    rw [hd.toAsciiDigit]
    exact (isDigitOf_ofNat hd.1).toAsciiDigit
  · rw [toAsciiDigit_of_not_digit (not_exists.mp hdigit),
      toAsciiDigit_of_not_digit (not_exists.mp hdigit)]

/-- The marks that can stand in the spelling of an integer apart from its digits. -/
theorem toAsciiDigit_eq_iff {c mark : Char} (hmark : mark ∈ ['_', '-', '+']) :
    Text.toAsciiDigit c = mark ↔ c = mark := by
  have hascii : ∀ m ∈ ['_', '-', '+'], (∀ d < 10, Char.ofNat (48 + d) ≠ m) ∧
      Text.toAsciiDigit m = m :=
    List.forall_mem_cons.mpr ⟨by decide, List.forall_mem_cons.mpr ⟨by decide,
      List.forall_mem_singleton.mpr (by decide)⟩⟩
  refine ⟨fun h => ?_, fun h => by rw [h, (hascii mark hmark).2]⟩
  by_cases hdigit : ∃ d, IsDigitOf c d
  · obtain ⟨d, hd⟩ := hdigit
    exact absurd (hd.toAsciiDigit.symm.trans h) ((hascii mark hmark).1 d hd.1)
  · exact (toAsciiDigit_of_not_digit (not_exists.mp hdigit)).symm.trans h

/-! ## Reading a run -/

/-- The value of a decimal digit. -/
def digit? (c : Char) : Option Nat := (Text.letterDigitValue? c).filter (· < 10)

theorem digit?_ofNat : ∀ d < 10, digit? (Char.ofNat (48 + d)) = some d := by decide

theorem digit?_eq_some_iff {c : Char} {d : Nat} :
    digit? c = some d ↔ d < 10 ∧ c = Char.ofNat (48 + d) := by
  constructor
  · intro h
    rw [digit?, Option.filter_eq_some_iff, decide_eq_true_iff] at h
    refine ⟨h.2, ?_⟩
    have hvalue := h.1
    rw [Text.letterDigitValue?] at hvalue
    have hd := h.2
    split at hvalue
    · next hc =>
      cases hvalue
      have hlow : 48 ≤ c.toNat := hc.1
      rw [Nat.add_sub_cancel' hlow, Char.ofNat_toNat]
    · split at hvalue
      · next hc =>
        have hlow : 97 ≤ c.toNat := hc.1
        cases hvalue
        omega
      · split at hvalue
        · next hc =>
          have hlow : 65 ≤ c.toNat := hc.1
          cases hvalue
          omega
        · cases hvalue
  · rintro ⟨hd, rfl⟩
    exact digit?_ofNat d hd

theorem foldl_digit?_none (base : Nat) (cs : List Char) :
    cs.foldl (fun acc c => acc.bind fun n => (digit? c).map (base * n + ·)) none = none := by
  induction cs with
  | nil => rfl
  | cons c cs ih => exact ih

/-- Digits are read from the left. -/
theorem foldl_digit?_iff {cs : List Char} {m n : Nat} :
    cs.foldl (fun acc c => acc.bind fun n => (digit? c).map (10 * n + ·)) (some m) = some n ↔
      ∃ ds, List.Forall₂ (fun c d => digit? c = some d) cs ds ∧
        n = ds.foldl (fun n d => 10 * n + d) m := by
  induction cs generalizing m with
  | nil => simp [List.forall₂_nil_left_iff, eq_comm]
  | cons c cs ih =>
    rw [List.foldl_cons, Option.bind_some]
    cases hc : digit? c with
    | none =>
      rw [Option.map_none, foldl_digit?_none]
      simp [List.forall₂_cons_left_iff, hc]
    | some d =>
      rw [Option.map_some, ih]
      constructor
      · rintro ⟨ds, hds, hn⟩
        exact ⟨d :: ds, .cons hc hds, hn⟩
      · rintro ⟨_, _ | ⟨hd, hds⟩, hn⟩
        cases hc.symm.trans hd
        exact ⟨_, hds, hn⟩

theorem foldl_digits (ds : List Nat) :
    ds.foldl (fun n d => 10 * n + d) 0 = Nat.ofDigits 10 ds.reverse := by
  rw [Nat.ofDigits_eq_foldr, List.foldr_reverse]
  simp only [Nat.cast_id, Nat.add_comm]

theorem isDigit_eq : isDigit = fun c => (digit? c).isSome := by
  funext c
  rw [Bool.eq_iff_iff, Option.isSome_iff_exists]
  constructor
  · intro hc
    rw [isDigit, Bool.and_eq_true, decide_eq_true_iff, decide_eq_true_iff] at hc
    have hlow : 48 ≤ c.toNat := hc.1
    have hhigh : c.toNat ≤ 57 := hc.2
    refine ⟨c.toNat - 48, digit?_eq_some_iff.mpr ⟨by omega, ?_⟩⟩
    rw [Nat.add_sub_cancel' hlow, Char.ofNat_toNat]
  · intro hc
    obtain ⟨d, hd⟩ := hc
    obtain ⟨hlt, rfl⟩ := digit?_eq_some_iff.mp hd
    exact (by decide : ∀ d < 10, isDigit (Char.ofNat (48 + d)) = true) d hlt

theorem ne_underscore {c : Char} (h : isDigit c = true) : c ≠ '_' := by
  rintro rfl
  cases h

theorem dropUnderscores_cons {c : Char} (hc : c ≠ '_') (cs : List Char) :
    dropUnderscores (c :: cs) = c :: dropUnderscores cs :=
  List.filter_cons_of_pos (by simpa using hc)

theorem dropUnderscores_underscore (cs : List Char) :
    dropUnderscores ('_' :: cs) = dropUnderscores cs :=
  List.filter_cons_of_neg (by decide)

theorem underscoresBetweenDigits_cons {p : Char → Bool} {c d : Char} (hc : c ≠ '_') (hd : d ≠ '_')
    (cs : List Char) :
    underscoresBetweenDigits p (c :: d :: cs) = underscoresBetweenDigits p (d :: cs) := by
  rw [underscoresBetweenDigits]
  · exact hc
  · exact fun _ _ h => absurd h hd
  · exact fun h => absurd h hd

theorem underscoresBetweenDigits_underscore {p : Char → Bool} {c : Char} (hc : c ≠ '_') (d : Char)
    (cs : List Char) : underscoresBetweenDigits p (c :: '_' :: d :: cs) =
      (p c && p d && underscoresBetweenDigits p (d :: cs)) := by
  rw [underscoresBetweenDigits]
  exact hc

/-- Underscores that are in order stand between the digits of a run. -/
theorem isDigitRun_of_read {p : Char → Bool} {cs : List Char} {ds : List Nat} (hne : cs ≠ [])
    (hspaces : underscoresBetweenDigits p cs = true)
    (hds : List.Forall₂ (fun c d => digit? c = some d) (dropUnderscores cs) ds) :
    IsDigitRun cs ds := by
  have hdigit : ∀ {c d}, digit? c = some d → IsDigitOf c d := by
    intro c d h
    obtain ⟨hd, rfl⟩ := digit?_eq_some_iff.mp h
    exact isDigitOf_ofNat hd
  fun_induction underscoresBetweenDigits p cs generalizing ds with
  | case1 => exact absurd rfl hne
  | case2 => cases hspaces
  | case3 => cases hspaces
  | case4 c hc =>
    rw [dropUnderscores_cons hc] at hds
    obtain _ | ⟨hd, hrest⟩ := hds
    cases hrest
    exact .single (hdigit hd)
  | case5 c d rest hc ih =>
    rw [dropUnderscores_cons hc, dropUnderscores_underscore] at hds
    obtain _ | ⟨hd, hrest⟩ := hds
    rw [Bool.and_eq_true] at hspaces
    exact .spaced (hdigit hd) (ih (List.cons_ne_nil _ _) hspaces.2 hrest)
  | case6 => cases hspaces
  | case7 c d rest hc _ _ ih =>
    rw [dropUnderscores_cons hc] at hds
    obtain _ | ⟨hd, hrest⟩ := hds
    exact .digit (hdigit hd) (ih (List.cons_ne_nil _ _) hspaces hrest)

theorem IsDigitRun.of_map {cs : List Char} {ds : List Nat}
    (h : IsDigitRun (cs.map Text.toAsciiDigit) ds) : IsDigitRun cs ds := by
  have hdigit : ∀ {c d}, IsDigitOf (Text.toAsciiDigit c) d → IsDigitOf c d := by
    intro c d hd
    rw [isDigitOf_iff, toAsciiDigit_toAsciiDigit, ← isDigitOf_iff] at hd
    exact hd
  generalize hascii : cs.map Text.toAsciiDigit = ascii at h
  induction h generalizing cs with
  | single hd =>
    obtain ⟨c, rest, rfl, rfl, hrest⟩ := List.map_eq_cons_iff.mp hascii
    rw [List.map_eq_nil_iff.mp hrest]
    exact .single (hdigit hd)
  | digit hd _ ih =>
    obtain ⟨c, rest, rfl, rfl, hrest⟩ := List.map_eq_cons_iff.mp hascii
    exact .digit (hdigit hd) (ih hrest)
  | spaced hd _ ih =>
    obtain ⟨c, rest, rfl, rfl, hrest⟩ := List.map_eq_cons_iff.mp hascii
    obtain ⟨mark, rest, rfl, hmark, hrest⟩ := List.map_eq_cons_iff.mp hrest
    rw [(toAsciiDigit_eq_iff (by decide)).mp hmark]
    exact .spaced (hdigit hd) (ih hrest)

/-- The digits of a run can be read when they are written in ASCII. -/
theorem IsDigitRun.read {cs : List Char} {ds : List Nat} (h : IsDigitRun cs ds) :
    (∃ c rest, cs.map Text.toAsciiDigit = c :: rest ∧ isDigit c = true) ∧
      underscoresBetweenDigits isDigit (cs.map Text.toAsciiDigit) = true ∧
      List.Forall₂ (fun c d => digit? c = some d) (dropUnderscores (cs.map Text.toAsciiDigit)) ds := by
  have hfirst : ∀ {c d}, IsDigitOf c d → isDigit (Text.toAsciiDigit c) = true ∧
      digit? (Text.toAsciiDigit c) = some d := by
    intro c d hd
    have hvalue := digit?_eq_some_iff.mpr (isDigitOf_iff.mp hd)
    rw [isDigit_eq]
    exact ⟨Option.isSome_of_eq_some hvalue, hvalue⟩
  induction h with
  | single hd =>
    obtain ⟨hc, hvalue⟩ := hfirst hd
    refine ⟨⟨_, _, rfl, hc⟩, ?_, ?_⟩
    · rw [List.map_singleton, underscoresBetweenDigits]
      exact ne_underscore hc
    · rw [List.map_singleton, dropUnderscores_cons (ne_underscore hc)]
      exact .cons hvalue .nil
  | digit hd _ ih =>
    obtain ⟨hc, hvalue⟩ := hfirst hd
    obtain ⟨⟨c, rest, hrun, hnext⟩, hspaces, hds⟩ := ih
    refine ⟨⟨_, _, rfl, hc⟩, ?_, ?_⟩
    · rw [List.map_cons, hrun, underscoresBetweenDigits_cons (ne_underscore hc) (ne_underscore hnext),
        ← hrun]
      exact hspaces
    · rw [List.map_cons, dropUnderscores_cons (ne_underscore hc)]
      exact .cons hvalue hds
  | spaced hd _ ih =>
    obtain ⟨hc, hvalue⟩ := hfirst hd
    obtain ⟨⟨c, rest, hrun, hnext⟩, hspaces, hds⟩ := ih
    have hmark : Text.toAsciiDigit '_' = '_' := (toAsciiDigit_eq_iff (by decide)).mpr rfl
    refine ⟨⟨_, _, rfl, hc⟩, ?_, ?_⟩
    · rw [List.map_cons, List.map_cons, hmark, hrun,
        underscoresBetweenDigits_underscore (ne_underscore hc), hc, hnext, ← hrun, hspaces]
      rfl
    · rw [List.map_cons, List.map_cons, hmark, dropUnderscores_cons (ne_underscore hc),
        dropUnderscores_underscore]
      exact .cons hvalue hds

/-! ## Reading an integer -/

theorem readDigits?_eq_some_iff {cs : List Char} {n : Nat} : readDigits? 10 cs = some n ↔
    (dropUnderscores cs ≠ [] ∧ underscoresBetweenDigits isDigit cs = true) ∧
      ∃ ds, List.Forall₂ (fun c d => digit? c = some d) (dropUnderscores cs) ds ∧
        n = Nat.ofDigits 10 ds.reverse := by
  have hread : readDigits? 10 cs = if (dropUnderscores cs).isEmpty ||
      !underscoresBetweenDigits isDigit cs then none
    else (dropUnderscores cs).foldl
      (fun acc c => acc.bind fun n => (digit? c).map (10 * n + ·)) (some 0) := by
    rw [isDigit_eq]
    rfl
  simp only [← foldl_digits]
  rw [hread, ite_eq_iff, ← foldl_digit?_iff]
  simp

theorem dropBaseMark_ten (cs : List Char) : dropBaseMark 10 cs = cs := by
  rw [dropBaseMark.eq_def]
  split
  · rw [if_neg (by simp [baseLetter?])]
  · rfl

theorem isBlank_of_isDigitOf {c : Char} {d : Nat} (h : IsDigitOf c d) : Text.isBlank c = false := by
  have hblank : ∀ first ∈ 48 :: Text.digitZeros, ∀ d < 10,
      Text.isBlank (Char.ofNat (first + d)) = false := by decide +kernel
  obtain ⟨hd, first, hfirst, hc⟩ := h
  rw [← Char.ofNat_toNat c, hc]
  exact hblank first hfirst d hd

theorem IsDigitRun.isBlank {cs : List Char} {ds : List Nat} (h : IsDigitRun cs ds) :
    ∀ c ∈ cs, Text.isBlank c = false := by
  induction h with
  | single hd => exact List.forall_mem_singleton.mpr (isBlank_of_isDigitOf hd)
  | digit hd _ ih => exact List.forall_mem_cons.mpr ⟨isBlank_of_isDigitOf hd, ih⟩
  | spaced hd _ ih =>
    exact List.forall_mem_cons.mpr
      ⟨isBlank_of_isDigitOf hd, List.forall_mem_cons.mpr ⟨by decide, ih⟩⟩

theorem IsSign.isBlank {negative : Bool} {sign : List Char} (h : IsSign negative sign) :
    ∀ c ∈ sign, Text.isBlank c = false := by
  cases h with
  | absent => exact List.forall_mem_nil _
  | plus => exact List.forall_mem_singleton.mpr (by decide)
  | minus => exact List.forall_mem_singleton.mpr (by decide)

/-- The characters of a text that are read for an integer. -/
def spelling (s : String) : List Char :=
  (Text.trimBy Text.isBlank s.toList).map Text.toAsciiDigit

theorem readSign_of_isSign {negative : Bool} {sign : List Char} (hsign : IsSign negative sign)
    {run : List Char} {ds : List Nat} (hrun : IsDigitRun run ds) :
    readSign ((sign ++ run).map Text.toAsciiDigit) = (negative, run.map Text.toAsciiDigit) := by
  cases hsign with
  | plus => rfl
  | minus => rfl
  | absent =>
    obtain ⟨⟨c, rest, hcs, hc⟩, -⟩ := hrun.read
    rw [List.nil_append, hcs, readSign]
    · rintro _ ⟨⟩
      cases hc
    · rintro _ ⟨⟩
      cases hc

theorem Spells.readSign {s : String} {negative : Bool} {ds : List Nat} (h : Spells s negative ds) :
    ∃ run, IsDigitRun run ds ∧
      Number.readSign (spelling s) = (negative, run.map Text.toAsciiDigit) := by
  obtain ⟨before, sign, run, after, hs, hbefore, hsign, hrun, hafter⟩ := h
  refine ⟨run, hrun, ?_⟩
  rw [spelling, hs, Text.trimBy_append hbefore
    (List.forall_mem_append.mpr ⟨hsign.isBlank, hrun.isBlank⟩) hafter]
  exact readSign_of_isSign hsign hrun

/-- The sign is all that stands in front of what is read as digits. -/
theorem exists_sign (cs : List Char) : ∃ sign run, cs = sign ++ run ∧
    IsSign (readSign (cs.map Text.toAsciiDigit)).1 sign ∧
      (readSign (cs.map Text.toAsciiDigit)).2 = run.map Text.toAsciiDigit := by
  cases cs with
  | nil => exact ⟨[], [], rfl, .absent, rfl⟩
  | cons c rest =>
    rw [List.map_cons]
    by_cases hminus : Text.toAsciiDigit c = '-'
    · rw [hminus]
      rw [toAsciiDigit_eq_iff (by decide)] at hminus
      exact ⟨['-'], rest, by rw [hminus]; rfl, .minus, rfl⟩
    by_cases hplus : Text.toAsciiDigit c = '+'
    · rw [hplus]
      rw [toAsciiDigit_eq_iff (by decide)] at hplus
      exact ⟨['+'], rest, by rw [hplus]; rfl, .plus, rfl⟩
    rw [readSign]
    · exact ⟨[], c :: rest, rfl, .absent, rfl⟩
    · exact fun _ h => hminus (List.cons.inj h).1
    · exact fun _ h => hplus (List.cons.inj h).1

theorem parseInt?_eq_some_iff {s : String} {n : Int} : parseInt? 10 s = some n ↔
    ∃ negative ds, Spells s negative ds ∧
      n = Binary64.signed negative (Nat.ofDigits 10 ds.reverse) := by
  have hparse : parseInt? 10 s = (readDigits? 10 (readSign (spelling s)).2).map
      (Binary64.signed (readSign (spelling s)).1) := by
    rw [← dropBaseMark_ten (readSign (spelling s)).2]
    rfl
  rw [hparse, Option.map_eq_some_iff]
  constructor
  · intro h
    obtain ⟨m, hm, rfl⟩ := h
    obtain ⟨⟨hne, hspaces⟩, ds, hds, rfl⟩ := readDigits?_eq_some_iff.mp hm
    obtain ⟨before, after, hbefore, hafter, hs⟩ := Text.exists_trimBy Text.isBlank s.toList
    obtain ⟨sign, run, hcore, hsign, hbody⟩ := exists_sign (Text.trimBy Text.isBlank s.toList)
    have hrun : IsDigitRun (readSign (spelling s)).2 ds := by
      refine isDigitRun_of_read (fun hnil => hne ?_) hspaces hds
      rw [hnil]
      rfl
    refine ⟨_, ds, ⟨before, sign, run, after, ?_, hbefore, hsign, ?_, hafter⟩, rfl⟩
    · rw [← hcore]
      exact hs
    · exact IsDigitRun.of_map (hbody ▸ hrun)
  · rintro ⟨negative, ds, hspells, rfl⟩
    obtain ⟨run, hrun, hsign⟩ := hspells.readSign
    obtain ⟨⟨c, rest, hcs, hc⟩, hspaces, hds⟩ := hrun.read
    rw [hsign]
    refine ⟨_, readDigits?_eq_some_iff.mpr ⟨⟨?_, hspaces⟩, ds, hds, rfl⟩, rfl⟩
    dsimp only
    rw [hcs, dropUnderscores_cons (ne_underscore hc)]
    exact List.cons_ne_nil _ _

/-- A text that spells an integer has too many digits if these are more than the bound. -/
theorem Spells.excessDigits?_eq_none_iff {s : String} {negative : Bool} {ds : List Nat}
    (h : Spells s negative ds) : excessDigits? s = none ↔ ds.length ≤ maxDigits := by
  obtain ⟨run, hrun, hsign⟩ := h.readSign
  obtain ⟨-, hspaces, hds⟩ := hrun.read
  -- Everything behind the sign is in the run at the front.
  have hall : ∀ c ∈ run.map Text.toAsciiDigit, (isDigit c || c == '_') = true := by
    intro c hc
    rw [Bool.or_eq_true, or_iff_not_imp_right, beq_iff_eq]
    intro hmark
    obtain ⟨d, -, hd⟩ := exists_of_mem_forall₂ hds.flip
      (List.mem_filter.mpr ⟨hc, decide_eq_true hmark⟩)
    rw [isDigit_eq]
    exact Option.isSome_of_eq_some hd
  have htake : (run.map Text.toAsciiDigit).takeWhile (fun c => isDigit c || c == '_') =
      run.map Text.toAsciiDigit := List.takeWhile_eq_self_iff.mpr hall
  have hexcess : excessDigits? s = if maxDigits < ds.length then some ds.length else none := by
    rw [← hds.length_eq]
    show (let run := (Number.readSign (spelling s)).2.takeWhile fun c => isDigit c || c == '_'
      let count := (dropUnderscores run).length
      if maxDigits < count && underscoresBetweenDigits isDigit run then some count else none) = _
    rw [hsign]
    dsimp only
    rw [htake, hspaces, Bool.and_true]
    simp only [decide_eq_true_eq]
  rw [hexcess]
  simp

/-- Which integer a text spells, if it has no more digits than can be converted. -/
theorem readsInteger_iff {s : String} {n : Int} :
    (excessDigits? s = none ∧ parseInt? 10 s = some n) ↔
      ∃ negative ds, Spells s negative ds ∧ ds.length ≤ maxDigits ∧
        n = Binary64.signed negative (Nat.ofDigits 10 ds.reverse) := by
  rw [parseInt?_eq_some_iff]
  constructor
  · rintro ⟨hexcess, negative, ds, hspells, hn⟩
    exact ⟨negative, ds, hspells, hspells.excessDigits?_eq_none_iff.mp hexcess, hn⟩
  · rintro ⟨negative, ds, hspells, hbound, hn⟩
    exact ⟨hspells.excessDigits?_eq_none_iff.mpr hbound, negative, ds, hspells, hn⟩

end Number
end Groundplan
