/-
How address ranges of version 4 are spelled.

Behind the slash the reader takes more than a number: a mask or the complement of a mask
will do as well, and a number may have zeros in front of it.  In front of the slash it is
strict, so an address has a single spelling.  `parse_ok_iff` puts this together: it says
without the reader which texts name which range.
-/
import Groundplan.Network.Range
import Groundplan.Proofs.Result
import Groundplan.Proofs.Text.Splitting
import Mathlib.Data.List.Induction

namespace Groundplan
namespace Network

open Text

/-! ## Numerals -/

theorem isDecimal_iff {cs : List Char} :
    isDecimal cs = true ↔ cs ≠ [] ∧ ∀ c ∈ cs, 48 ≤ c.toNat ∧ c.toNat ≤ 57 := by
  rw [isDecimal, Bool.and_eq_true, List.all_eq_true, Bool.not_eq_true', List.isEmpty_eq_false_iff]
  refine and_congr_right fun _ => forall_congr' fun c => imp_congr_right fun _ => ?_
  rw [Bool.and_eq_true, decide_eq_true_iff, decide_eq_true_iff]
  exact Iff.rfl

theorem decimalValue_append (cs : List Char) (c : Char) :
    decimalValue (cs ++ [c]) = 10 * decimalValue cs + (c.toNat - 48) :=
  List.foldl_append

theorem isDecimal_toDigits (n : Nat) : isDecimal (Nat.toDigits 10 n) = true := by
  refine isDecimal_iff.mpr ⟨Nat.toDigits_ne_nil, fun c hc => ?_⟩
  have hdigit : c.isDigit = true := Nat.isDigit_of_mem_toDigits (by decide) (by decide) hc
  rw [Char.isDigit, Bool.and_eq_true, decide_eq_true_iff, decide_eq_true_iff] at hdigit
  exact hdigit

theorem decimalValue_toDigits (n : Nat) : decimalValue (Nat.toDigits 10 n) = n :=
  Nat.ofDigitChars_toDigits (by decide) (by decide)

theorem digitChar_of_digit {c : Char} (h : 48 ≤ c.toNat ∧ c.toNat ≤ 57) :
    Nat.digitChar (c.toNat - 48) = c := by
  refine Char.toNat_inj.mp ?_
  rw [Nat.toNat_digitChar_of_lt_ten (by omega)]
  omega

theorem decimalValue_pos {cs : List Char} (h : isDecimal cs = true) (hlead : cs.head? ≠ some '0') :
    0 < decimalValue cs := by
  induction cs using List.reverseRecOn with
  | nil => cases h
  | append_singleton cs c ih =>
    obtain ⟨-, hdigits⟩ := isDecimal_iff.mp h
    have hc := hdigits c (by simp)
    rw [decimalValue_append]
    cases cs with
    | nil =>
      have hzero : c.toNat ≠ '0'.toNat := fun heq => hlead (congrArg some (Char.toNat_inj.mp heq))
      have hvalue : ('0' : Char).toNat = 48 := rfl
      omega
    | cons d cs =>
      have hrest : isDecimal (d :: cs) = true :=
        isDecimal_iff.mpr ⟨List.cons_ne_nil d cs, fun e he => hdigits e (List.mem_append_left _ he)⟩
      have hpos := ih hrest hlead
      omega

/-- Without a zero in front a number has one spelling. -/
theorem toDigits_decimalValue {cs : List Char} (h : isDecimal cs = true)
    (hlead : cs.head? ≠ some '0') : Nat.toDigits 10 (decimalValue cs) = cs := by
  induction cs using List.reverseRecOn with
  | nil => cases h
  | append_singleton cs c ih =>
    obtain ⟨-, hdigits⟩ := isDecimal_iff.mp h
    have hc := hdigits c (by simp)
    have hlast : Nat.toDigits 10 (c.toNat - 48) = [c] := by
      rw [Nat.toDigits_of_lt_base (by omega), digitChar_of_digit hc]
    rw [decimalValue_append]
    cases cs with
    | nil =>
      show Nat.toDigits 10 (10 * 0 + (c.toNat - 48)) = [c]
      rw [Nat.mul_zero, Nat.zero_add, hlast]
    | cons d cs =>
      have hrest : isDecimal (d :: cs) = true :=
        isDecimal_iff.mpr ⟨List.cons_ne_nil d cs, fun e he => hdigits e (List.mem_append_left _ he)⟩
      rw [← Nat.toDigits_append_toDigits (by decide) (decimalValue_pos hrest hlead) (by omega),
        ih hrest hlead, hlast]

theorem head?_toDigits {n : Nat} (h : n ≠ 0) : (Nat.toDigits 10 n).head? ≠ some '0' := by
  induction n using Nat.strongRecOn with
  | ind n ih =>
    by_cases hsmall : n < 10
    · have hdigits : ∀ m < 10, m ≠ 0 → (Nat.toDigits 10 m).head? ≠ some '0' := by decide
      exact hdigits n hsmall h
    · have hdiv : 0 < n / 10 := by omega
      have hsplit := Nat.toDigits_append_toDigits (b := 10) (by decide) hdiv
        (Nat.mod_lt n (by decide))
      rw [Nat.div_add_mod] at hsplit
      rw [← hsplit, List.head?_append_of_ne_nil _ Nat.toDigits_ne_nil]
      exact ih (n / 10) (by omega) (by omega)

/-- A number is spelled by its digits with zeros in front of them. -/
theorem exists_padding {cs : List Char} (h : isDecimal cs = true) :
    ∃ k, cs = List.replicate k '0' ++ Nat.toDigits 10 (decimalValue cs) := by
  induction cs with
  | nil => cases h
  | cons c cs ih =>
    by_cases hzero : c = '0'
    · cases cs with
      | nil =>
        rw [hzero]
        exact ⟨0, rfl⟩
      | cons d cs =>
        obtain ⟨-, hdigits⟩ := isDecimal_iff.mp h
        have hrest : isDecimal (d :: cs) = true :=
          isDecimal_iff.mpr ⟨List.cons_ne_nil d cs, fun e he => hdigits e (List.mem_cons_of_mem c he)⟩
        obtain ⟨k, hk⟩ := ih hrest
        have hvalue : decimalValue (c :: d :: cs) = decimalValue (d :: cs) := by rw [hzero]; rfl
        refine ⟨k + 1, ?_⟩
        rw [hvalue, List.replicate_succ, List.cons_append, ← hk, hzero]
    · refine ⟨0, (toDigits_decimalValue h fun hhead => hzero ?_).symm⟩
      exact Option.some.inj hhead

theorem octet?_eq_some_iff {cs : List Char} {n : Nat} :
    octet? cs = some n ↔ n ≤ 255 ∧ cs = Nat.toDigits 10 n := by
  simp only [octet?, Option.ite_none_right_eq_some, Bool.and_eq_true, Bool.or_eq_true,
    decide_eq_true_iff, beq_iff_eq, bne_iff_ne, Option.some.injEq]
  constructor
  · rintro ⟨⟨⟨⟨hdecimal, -⟩, hlead⟩, hbound⟩, rfl⟩
    refine ⟨hbound, ?_⟩
    rcases hlead with rfl | hlead
    · rfl
    · exact (toDigits_decimalValue hdecimal hlead).symm
  · rintro ⟨hbound, rfl⟩
    rw [decimalValue_toDigits]
    refine ⟨⟨⟨⟨isDecimal_toDigits n, ?_⟩, ?_⟩, hbound⟩, rfl⟩
    · exact (Nat.length_toDigits_le_iff (by decide) (by decide)).mpr (by omega)
    · by_cases hzero : n = 0
      · exact .inl (by rw [hzero]; rfl)
      · exact .inr (head?_toDigits hzero)

/-! ## Addresses -/

/-- The octets of an address, the most significant first. -/
def octets (n : Nat) : List Nat := [n / 0x1000000, n / 0x10000 % 256, n / 256 % 256, n % 256]

theorem toList_ipv4Text (n : Nat) :
    (ipv4Text n).toList = ['.'].intercalate ((octets n).map (Nat.toDigits 10)) := by
  simp only [ipv4Text, octets, List.map_cons, List.map_nil, String.intercalate_cons_cons,
    String.intercalate_singleton, List.intercalate_cons_cons, List.intercalate_singleton,
    String.toList_append, Nat.toString_eq_ofList_toDigits, String.toList_ofList]
  rfl

theorem separator_not_mem_toDigits {c : Char} (hc : c.toNat < 48) (n : Nat) :
    c ∉ Nat.toDigits 10 n := by
  intro hmem
  have hdigit := (isDecimal_iff.mp (isDecimal_toDigits n)).2 c hmem
  omega

theorem splitOn_ipv4Text (n : Nat) :
    splitOn '.' (ipv4Text n).toList = (octets n).map (Nat.toDigits 10) := by
  refine splitOn_eq_iff.mpr ⟨List.cons_ne_nil _ _, fun piece hpiece => ?_, toList_ipv4Text n⟩
  obtain ⟨octet, -, rfl⟩ := List.mem_map.mp hpiece
  exact separator_not_mem_toDigits (by decide) octet

/-- An address has one spelling. -/
theorem ipv4?_eq_some_iff {cs : List Char} {n : Nat} :
    ipv4? cs = some n ↔ n < 0x100000000 ∧ cs = (ipv4Text n).toList := by
  constructor
  · intro h
    rw [ipv4?] at h
    split at h
    · rename_i a b c d hoctets
      cases h
      obtain ⟨da, ra, hsplit, ha, hrest⟩ := List.map_eq_cons_iff.mp hoctets
      obtain ⟨db, rb, rfl, hb, hrest⟩ := List.map_eq_cons_iff.mp hrest
      obtain ⟨dc, rc, rfl, hc, hrest⟩ := List.map_eq_cons_iff.mp hrest
      obtain ⟨dd, rd, rfl, hd, hrest⟩ := List.map_eq_cons_iff.mp hrest
      obtain rfl := List.map_eq_nil_iff.mp hrest
      obtain ⟨ha, rfl⟩ := octet?_eq_some_iff.mp ha
      obtain ⟨hb, rfl⟩ := octet?_eq_some_iff.mp hb
      obtain ⟨hc, rfl⟩ := octet?_eq_some_iff.mp hc
      obtain ⟨hd, rfl⟩ := octet?_eq_some_iff.mp hd
      have hback : octets (((a * 256 + b) * 256 + c) * 256 + d) = [a, b, c, d] := by
        simp only [octets, List.cons.injEq, and_true]
        omega
      refine ⟨by omega, ?_⟩
      rw [toList_ipv4Text, hback]
      exact (splitOn_eq_iff.mp hsplit).2.2
    · cases h
  · rintro ⟨hbound, rfl⟩
    have hread : (octets n).map (octet? ∘ Nat.toDigits 10) = (octets n).map some := by
      refine List.map_congr_left fun octet hoctet => octet?_eq_some_iff.mpr ⟨?_, rfl⟩
      simp only [octets, List.mem_cons, List.not_mem_nil, or_false] at hoctet
      omega
    rw [ipv4?, splitOn_ipv4Text, List.map_map, hread]
    simp only [octets, List.map_cons, List.map_nil, Option.some.injEq]
    omega

theorem mem_ipv4Text {c : Char} {n : Nat} (h : c ∈ (ipv4Text n).toList) :
    c = '.' ∨ 48 ≤ c.toNat ∧ c.toNat ≤ 57 := by
  by_cases hdot : c = '.'
  · exact .inl hdot
  have hpiece : ∀ m, c ∈ Nat.toDigits 10 m → 48 ≤ c.toNat ∧ c.toNat ≤ 57 :=
    fun m hm => (isDecimal_iff.mp (isDecimal_toDigits m)).2 c hm
  rw [toList_ipv4Text] at h
  simp only [octets, List.map_cons, List.map_nil, List.intercalate_cons_cons,
    List.intercalate_singleton, List.mem_append, List.mem_singleton, hdot, or_false] at h
  rcases h with h | h | h | h <;> exact .inr (hpiece _ h)

theorem not_mem_ipv4Text {c : Char} (hdot : c ≠ '.') (hdigit : ¬(48 ≤ c.toNat ∧ c.toNat ≤ 57))
    (n : Nat) : c ∉ (ipv4Text n).toList := fun hmem => (mem_ipv4Text hmem).elim hdot hdigit

theorem isDecimal_ipv4Text (n : Nat) : isDecimal (ipv4Text n).toList = false := by
  refine Bool.eq_false_iff.mpr fun h => ?_
  have hdot : '.' ∈ (ipv4Text n).toList := by
    rw [toList_ipv4Text]
    simp [octets, List.intercalate_cons_cons]
  exact absurd ((isDecimal_iff.mp h).2 '.' hdot).1 (by decide)

/-! ## Lengths -/

/-- The mask of the bits that all members of a range share. -/
def netmask (length : Nat) : Nat := 0x100000000 - Nat.pow 2 (32 - length)

/-- The mask of the other bits. -/
def hostMask (length : Nat) : Nat := Nat.pow 2 (32 - length) - 1

/-- The spellings of a length.  Of the two masks that are also the complement of one, each is
taken for itself. -/
inductive SpellsLength (n : Nat) : List Char → Prop
  | number {cs : List Char} : isDecimal cs = true → cs.length ≤ maxDigits → decimalValue cs = n →
      n ≤ 32 → SpellsLength n cs
  | mask : n ≤ 32 → SpellsLength n (ipv4Text (netmask n)).toList
  | complement : 0 < n → n < 32 → SpellsLength n (ipv4Text (hostMask n)).toList

theorem lengthOf?_eq_some_iff {bits n : Nat} {cs : List Char} :
    lengthOf? bits cs = some n ↔
      isDecimal cs = true ∧ cs.length ≤ maxDigits ∧ decimalValue cs = n ∧ n ≤ bits := by
  simp only [lengthOf?, Option.ite_none_right_eq_some, Bool.and_eq_true, decide_eq_true_iff,
    Option.some.injEq]
  constructor
  · rintro ⟨⟨⟨hdecimal, hdigits⟩, hbound⟩, rfl⟩
    exact ⟨hdecimal, hdigits, rfl, hbound⟩
  · rintro ⟨hdecimal, hdigits, rfl, hbound⟩
    exact ⟨⟨⟨hdecimal, hdigits⟩, hbound⟩, rfl⟩

theorem maskLength?_eq_some_iff {mask n : Nat} :
    maskLength? mask = some n ↔ n ≤ 32 ∧ mask = netmask n := by
  constructor
  · intro h
    rw [maskLength?] at h
    have hmem := List.mem_of_find?_eq_some h
    have hfound := List.find?_some h
    rw [List.mem_range] at hmem
    exact ⟨by omega, beq_iff_eq.mp hfound⟩
  · rintro ⟨hn, rfl⟩
    have hall : ∀ m < 33, maskLength? (netmask m) = some m := by decide
    exact hall n (by omega)

theorem netmask_add_hostMask {n : Nat} (h : n ≤ 32) : netmask n + hostMask n = 0xffffffff := by
  have hall : ∀ m < 33, netmask m + hostMask m = 0xffffffff := by decide
  exact hall n (by omega)

/-- A mask that is not one itself may be the complement of one. -/
theorem eq_hostMask_of_complement {mask n : Nat} (hmask : mask < 0x100000000)
    (hnone : maskLength? mask = none) (h : maskLength? (0xffffffff - mask) = some n) :
    0 < n ∧ n < 32 ∧ mask = hostMask n := by
  obtain ⟨hn, hcomplement⟩ := maskLength?_eq_some_iff.mp h
  have hsum := netmask_add_hostMask hn
  have heq : mask = hostMask n := by omega
  refine ⟨Nat.pos_of_ne_zero ?_, Nat.lt_of_le_of_ne hn ?_, heq⟩
  · rintro rfl
    rw [heq] at hnone
    exact absurd hnone (by decide)
  · rintro rfl
    rw [heq] at hnone
    exact absurd hnone (by decide)

theorem ipv4Length?_eq_some_iff {cs : List Char} {n : Nat} :
    ipv4Length? cs = some n ↔ SpellsLength n cs := by
  have hnumber : ∀ m, lengthOf? 32 (ipv4Text m).toList = none := by
    intro m
    refine Option.eq_none_iff_forall_ne_some.mpr fun k hk => ?_
    rw [lengthOf?_eq_some_iff, isDecimal_ipv4Text] at hk
    exact absurd hk.1 Bool.false_ne_true
  constructor
  · intro h
    rcases Option.or_eq_some_iff.mp h with h | ⟨-, h⟩
    · obtain ⟨hdecimal, hdigits, hvalue, hbound⟩ := lengthOf?_eq_some_iff.mp h
      exact .number hdecimal hdigits hvalue hbound
    · obtain ⟨mask, hread, hlength⟩ := Option.bind_eq_some_iff.mp h
      obtain ⟨hmask, hcs⟩ := ipv4?_eq_some_iff.mp hread
      rcases Option.or_eq_some_iff.mp hlength with hlength | ⟨hnone, hlength⟩
      · obtain ⟨hn, heq⟩ := maskLength?_eq_some_iff.mp hlength
        rw [hcs, heq]
        exact .mask hn
      · obtain ⟨hpos, hn, heq⟩ := eq_hostMask_of_complement hmask hnone hlength
        rw [hcs, heq]
        exact .complement hpos hn
  · intro h
    cases h with
    | number hdecimal hdigits hvalue hbound =>
      rw [ipv4Length?, lengthOf?_eq_some_iff.mpr ⟨hdecimal, hdigits, hvalue, hbound⟩, Option.some_or]
    | mask hn =>
      have hsum := netmask_add_hostMask hn
      have hread : ipv4? (ipv4Text (netmask n)).toList = some (netmask n) :=
        ipv4?_eq_some_iff.mpr ⟨by omega, rfl⟩
      rw [ipv4Length?, hnumber, Option.none_or, hread]
      show (maskLength? (netmask n)).or _ = some n
      rw [maskLength?_eq_some_iff.mpr ⟨hn, rfl⟩, Option.some_or]
    | complement hpos hn =>
      have hsum := netmask_add_hostMask (n := n) (by omega)
      have hread : ipv4? (ipv4Text (hostMask n)).toList = some (hostMask n) :=
        ipv4?_eq_some_iff.mpr ⟨by omega, rfl⟩
      have hnone : ∀ m < 32, 0 < m → maskLength? (hostMask m) = none := by decide
      have hback : 0xffffffff - hostMask n = netmask n := by omega
      rw [ipv4Length?, hnumber, Option.none_or, hread]
      show (maskLength? (hostMask n)).or (maskLength? (0xffffffff - hostMask n)) = some n
      rw [hnone n hn hpos, Option.none_or, hback, maskLength?_eq_some_iff]
      exact ⟨by omega, rfl⟩

/-! ## Ranges -/

/-- A range of version 4 as it can be read: its bits fit, and all but the shared ones are
zero. -/
structure Range.IsVersion4 (r : Range) : Prop where
  bits : r.bits = 32
  zone : r.zone = none
  address : r.address < 0x100000000
  aligned : r.isAligned = true

/-- The spellings of a range.  A single address stands for the range of which it is the only
member. -/
inductive Spells (text : String) (r : Range) : Prop
  | address : r.length = 32 → text = ipv4Text r.address → Spells text r
  | range {cs : List Char} : SpellsLength r.length cs →
      text.toList = (ipv4Text r.address).toList ++ '/' :: cs → Spells text r

theorem SpellsLength.slash_not_mem {n : Nat} {cs : List Char} (h : SpellsLength n cs) :
    '/' ∉ cs := by
  cases h with
  | number hdecimal _ _ _ =>
    intro hmem
    exact absurd ((isDecimal_iff.mp hdecimal).2 '/' hmem).1 (by decide)
  | mask => exact not_mem_ipv4Text (by decide) (by decide) _
  | complement => exact not_mem_ipv4Text (by decide) (by decide) _

theorem ipv4Range?_none_eq_some_iff {cs : List Char} {r : Range} :
    ipv4Range? cs none = some r ↔ r.bits = 32 ∧ r.zone = none ∧ r.address < 0x100000000 ∧
      r.length = 32 ∧ cs = (ipv4Text r.address).toList := by
  constructor
  · intro h
    obtain ⟨a, ha, h⟩ := Option.bind_eq_some_iff.mp h
    cases h
    obtain ⟨hbound, hcs⟩ := ipv4?_eq_some_iff.mp ha
    exact ⟨rfl, rfl, hbound, rfl, hcs⟩
  · obtain ⟨bits, address, length, zone⟩ := r
    rintro ⟨rfl, rfl, hbound, rfl, hcs⟩
    rw [ipv4Range?, ipv4?_eq_some_iff.mpr ⟨hbound, hcs⟩]
    rfl

theorem ipv4Range?_some_eq_some_iff {cs length : List Char} {r : Range} :
    ipv4Range? cs (some length) = some r ↔ r.bits = 32 ∧ r.zone = none ∧
      r.address < 0x100000000 ∧ SpellsLength r.length length ∧ cs = (ipv4Text r.address).toList := by
  constructor
  · intro h
    obtain ⟨a, ha, h⟩ := Option.bind_eq_some_iff.mp h
    obtain ⟨n, hn, h⟩ := Option.bind_eq_some_iff.mp h
    cases h
    obtain ⟨hbound, hcs⟩ := ipv4?_eq_some_iff.mp ha
    exact ⟨rfl, rfl, hbound, ipv4Length?_eq_some_iff.mp hn, hcs⟩
  · obtain ⟨bits, address, n, zone⟩ := r
    rintro ⟨rfl, rfl, hbound, hlength, hcs⟩
    rw [ipv4Range?, ipv4?_eq_some_iff.mpr ⟨hbound, hcs⟩]
    dsimp only
    rw [ipv4Length?_eq_some_iff.mpr hlength]
    rfl

theorem bits_of_ipv6Range? {cs : List Char} {length : Option (List Char)} {r : Range}
    (h : ipv6Range? cs length = some r) : r.bits = 128 := by
  obtain ⟨⟨a, zone⟩, -, h⟩ := Option.bind_eq_some_iff.mp h
  cases length with
  | none =>
    cases h
    rfl
  | some cs =>
    obtain ⟨n, -, h⟩ := Option.bind_eq_some_iff.mp h
    cases h
    rfl

/-- What is read before the bits behind the length are looked at. -/
def range? (text : String) : Option Range :=
  match splitOn '/' text.toList with
  | [address] => (ipv4Range? address none).or (ipv6Range? address none)
  | [address, length] => (ipv4Range? address (some length)).or (ipv6Range? address (some length))
  | _ => none

/-- What becomes of what was read. -/
def aligned (text : String) : Option Range → Except Fault Range
  | none => .error (.unreadable text)
  | some r => if r.isAligned then .ok r else .error (.hostBits r)

theorem parse_eq (text : String) : parse text = aligned text (range? text) := rfl

theorem parse_eq_ok_iff {text : String} {r : Range} :
    parse text = .ok r ↔ range? text = some r ∧ r.isAligned = true := by
  rw [parse_eq]
  cases range? text with
  | none => simp [aligned]
  | some found =>
    rw [aligned]
    by_cases haligned : found.isAligned = true
    · simp only [haligned, if_true, Except.ok.injEq, Option.some.injEq]
      exact ⟨fun h => ⟨h, h ▸ haligned⟩, And.left⟩
    · simp only [haligned, Bool.false_eq_true, if_false, reduceCtorEq, Option.some.injEq, false_iff]
      rintro ⟨rfl, h⟩
      exact haligned h

/-- Which texts are read as which range of version 4. -/
theorem parse_ok_iff {text : String} {r : Range} :
    parse text = .ok r ∧ r.bits = 32 ↔ r.IsVersion4 ∧ Spells text r := by
  have hversion : ∀ {x y : Option Range}, (∀ r, y = some r → r.bits = 128) → x.or y = some r →
      r.bits = 32 → x = some r := by
    intro x y hy h hbits
    refine (Option.or_eq_some_iff.mp h).resolve_right fun hboth => ?_
    exact absurd ((hy r hboth.2).symm.trans hbits) (by decide)
  rw [parse_eq_ok_iff]
  constructor
  · rintro ⟨⟨h, haligned⟩, hbits⟩
    rw [range?] at h
    split at h
    · rename_i address hsplit
      obtain ⟨-, hzone, hbound, hlength, rfl⟩ := ipv4Range?_none_eq_some_iff.mp
        (hversion (fun _ => bits_of_ipv6Range?) h hbits)
      refine ⟨⟨hbits, hzone, hbound, haligned⟩, .address hlength (String.toList_injective ?_)⟩
      rw [(splitOn_eq_iff.mp hsplit).2.2, List.intercalate_singleton]
    · rename_i address length hsplit
      obtain ⟨-, hzone, hbound, hlength, rfl⟩ := ipv4Range?_some_eq_some_iff.mp
        (hversion (fun _ => bits_of_ipv6Range?) h hbits)
      refine ⟨⟨hbits, hzone, hbound, haligned⟩, .range hlength ?_⟩
      rw [(splitOn_eq_iff.mp hsplit).2.2, List.intercalate_cons_cons, List.intercalate_singleton,
        List.append_assoc]
      rfl
    · cases h
  · rintro ⟨⟨hbits, hzone, hbound, haligned⟩, hspells⟩
    have hslash : '/' ∉ (ipv4Text r.address).toList := not_mem_ipv4Text (by decide) (by decide) _
    refine ⟨⟨?_, haligned⟩, hbits⟩
    cases hspells with
    | address hlength htext =>
      have hsplit : splitOn '/' text.toList = [(ipv4Text r.address).toList] := by
        rw [htext, splitOn_of_not_mem hslash]
      rw [range?, hsplit]
      dsimp only
      rw [ipv4Range?_none_eq_some_iff.mpr ⟨hbits, hzone, hbound, hlength, rfl⟩, Option.some_or]
    | @range cs hlength htext =>
      have hsplit : splitOn '/' text.toList = [(ipv4Text r.address).toList, cs] := by
        rw [htext, splitOn_append_cons, splitOn_of_not_mem hslash,
          splitOn_of_not_mem hlength.slash_not_mem]
        rfl
      rw [range?, hsplit]
      dsimp only
      rw [ipv4Range?_some_eq_some_iff.mpr ⟨hbits, hzone, hbound, hlength, rfl⟩, Option.some_or]

theorem spellsLength_toDigits {n : Nat} (h : n ≤ 32) : SpellsLength n (Nat.toDigits 10 n) := by
  refine .number (isDecimal_toDigits n) ?_ (decimalValue_toDigits n) h
  have hshort : (Nat.toDigits 10 n).length ≤ 2 :=
    (Nat.length_toDigits_le_iff (by decide) (by decide)).mpr (by omega)
  exact Nat.le_trans hshort (by decide)

theorem toList_slash (a b : String) : (a ++ "/" ++ b).toList = a.toList ++ '/' :: b.toList := by
  rw [String.toList_append, String.toList_append, List.append_assoc]
  rfl

theorem toList_toText {r : Range} (h : r.bits = 32) :
    r.toText.toList = (ipv4Text r.address).toList ++ '/' :: Nat.toDigits 10 r.length := by
  rw [Range.toText, if_pos h, toList_slash, Nat.toString_eq_ofList_toDigits, String.toList_ofList]

/-- A range is read back from its text. -/
theorem parse_toText {r : Range} (h : r.IsVersion4) (hlength : r.length ≤ 32) :
    parse r.toText = .ok r :=
  (parse_ok_iff.mpr ⟨h, .range (spellsLength_toDigits hlength) (toList_toText h.bits)⟩).1

theorem eq_of_toText {text : String} {r s : Range} (hr : parse text = .ok r) (hs : s.IsVersion4)
    (hlength : s.length ≤ 32) (htext : text = s.toText) : s = r := by
  rw [htext, parse_toText hs hlength] at hr
  exact Except.ok.inj hr

/-- The spellings of a range with more than one member, one by one.  The first of them is the
text of the range. -/
inductive IsSpelling (r : Range) (text : String) : Prop
  | canonical : text = r.toText → IsSpelling r text
  | padded (k : Nat) : text = ipv4Text r.address ++ "/" ++
      (String.ofList (List.replicate (k + 1) '0') ++ toString r.length) → IsSpelling r text
  | mask : text = ipv4Text r.address ++ "/" ++ ipv4Text (netmask r.length) → IsSpelling r text
  | complement : text = ipv4Text r.address ++ "/" ++ ipv4Text (hostMask r.length) →
      IsSpelling r text

theorem isSpelling_of_spells {text : String} {r : Range} (hbits : r.bits = 32)
    (hlength : r.length ≠ 32) (h : Spells text r) : IsSpelling r text := by
  cases h with
  | address hsingle _ => exact absurd hsingle hlength
  | range hspells htext =>
    cases hspells with
    | number hdecimal _ hvalue _ =>
      obtain ⟨k, hk⟩ := exists_padding hdecimal
      rw [hvalue] at hk
      cases k with
      | zero =>
        refine .canonical (String.toList_injective ?_)
        rw [toList_toText hbits, htext, hk]
        rfl
      | succ k =>
        refine .padded k (String.toList_injective ?_)
        rw [htext, hk, toList_slash, String.toList_append, String.toList_ofList,
          Nat.toString_eq_ofList_toDigits, String.toList_ofList]
    | mask => exact .mask (String.toList_injective (htext.trans (toList_slash _ _).symm))
    | complement => exact .complement (String.toList_injective (htext.trans (toList_slash _ _).symm))

theorem mem_of_spells {text : String} {r : Range} (h : Spells text r) {c : Char}
    (hc : c ∈ text.toList) : c = '/' ∨ c = '.' ∨ 48 ≤ c.toNat ∧ c.toNat ≤ 57 := by
  cases h with
  | address _ htext =>
    rw [htext] at hc
    exact .inr (mem_ipv4Text hc)
  | range hspells htext =>
    rw [htext, List.mem_append, List.mem_cons] at hc
    rcases hc with hc | hc | hc
    · exact .inr (mem_ipv4Text hc)
    · exact .inl hc
    · cases hspells with
      | number hdecimal _ _ _ => exact .inr (.inr ((isDecimal_iff.mp hdecimal).2 c hc))
      | mask => exact .inr (mem_ipv4Text hc)
      | complement => exact .inr (mem_ipv4Text hc)

end Network
end Groundplan
