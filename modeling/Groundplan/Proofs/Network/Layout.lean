/-
The layout of the network.

A range of version 4 has the blocks that the layout needs if it has at most 17 shared bits,
and then it has at least 128 of them, and starts where a block starts.  This is all that the
layout depends on: block by block it follows that the numbers can be made a range, so that
none of them is refused, that the range has a text of its own and that it lies where it
should.
-/
import Groundplan.Network.Subnets
import Groundplan.Proofs.Network.Notation
import Mathlib.Tactic.Ring

namespace Groundplan
namespace Network

/-! ## Blocks -/

/-- A text of four octets, the last one zero, and the length of a block. -/
def IsBlockText (text : String) (address : Nat) : Prop :=
  ∃ a b c, a ≤ 255 ∧ b ≤ 255 ∧ c ≤ 255 ∧ address = ((a * 256 + b) * 256 + c) * 256 ∧
    text = toString a ++ "." ++ toString b ++ "." ++ toString c ++ ".0/24"

/-- The range `b` is the block number `i` of the range `r`. -/
structure IsBlock (r : Range) (i : Nat) (b : Range) : Prop where
  made : Range.ofNumber (r.address + 256 * i) 24 = .ok b
  text : IsBlockText b.toText b.address
  readBack : parse b.toText = .ok b
  members : ∀ n, b.Contains n ↔ r.address + 256 * i ≤ n ∧ n < r.address + 256 * (i + 1)
  inside : ∀ n, b.Contains n → r.Contains n
  bounded : ∀ n, b.Contains n → n ≤ 0xffffffff

/-- Two ranges without a member in common. -/
def Range.AreApart (a b : Range) : Prop := ∀ n, ¬(a.Contains n ∧ b.Contains n)

/-- Where the subnets lie in a range. -/
structure IsLayout (r : Range) (s : Subnets) : Prop where
  privates : List.Forall₂ (IsBlock r) [1, 2, 3] s.privateRanges
  publics : List.Forall₂ (IsBlock r) [101, 102, 103] s.publicRanges
  apart : (s.privateRanges ++ s.publicRanges).Pairwise Range.AreApart

/-- The guard of the layout as a bound on the number of shared bits. -/
theorem isTooSmall_iff (r : Range) :
    (r.bits ≠ 32 ∨ 24 < r.length ∨ Nat.pow 2 (24 - r.length) < neededBlocks) ↔
      ¬(r.bits = 32 ∧ r.length ≤ 17) := by
  have hneeded : 2 ^ 6 < neededBlocks ∧ neededBlocks ≤ 2 ^ 7 := by decide
  have hblocks : 24 < r.length ∨ Nat.pow 2 (24 - r.length) < neededBlocks ↔ ¬r.length ≤ 17 := by
    constructor
    · rintro (hlength | hfew) hle
      · omega
      · have hmany : 2 ^ 7 ≤ 2 ^ (24 - r.length) := Nat.pow_le_pow_right (by decide) (by omega)
        exact absurd hfew (hneeded.2.trans hmany).not_gt
    · intro hlong
      have hfew : 2 ^ (24 - r.length) ≤ 2 ^ 6 := Nat.pow_le_pow_right (by decide) (by omega)
      exact .inr (hfew.trans_lt hneeded.1)
  rw [hblocks, not_and_or]

/-- A large range fits in the address space, and starts at a multiple of the 128 blocks that
it has. -/
theorem Range.IsVersion4.room {r : Range} (h : r.IsVersion4) (hlength : r.length ≤ 17) :
    32768 ∣ r.address ∧ 32768 ≤ r.size ∧ r.address + r.size ≤ 0x100000000 := by
  have hsize : r.size = 32768 * 2 ^ (17 - r.length) := by
    rw [Range.size, h.bits, show 32 - r.length = 15 + (17 - r.length) by omega]
    exact pow_add 2 15 _
  have hspace : r.size * 2 ^ r.length = 0x100000000 := by
    rw [hsize, Nat.mul_assoc, ← pow_add, Nat.sub_add_cancel hlength]
    norm_num
  obtain ⟨q, hq⟩ : r.size ∣ r.address := Nat.dvd_of_mod_eq_zero (beq_iff_eq.mp h.aligned)
  refine ⟨⟨2 ^ (17 - r.length) * q, ?_⟩, ?_, ?_⟩
  · rw [hq, hsize, Nat.mul_assoc]
  · rw [hsize]
    exact Nat.le_mul_of_pos_right _ (Nat.two_pow_pos _)
  · have hbelow : q < 2 ^ r.length := by
      refine Nat.lt_of_mul_lt_mul_left (a := r.size) ?_
      rw [← hq, hspace]
      exact h.address
    calc r.address + r.size = r.size * (q + 1) := by rw [hq]; ring
      _ ≤ r.size * 2 ^ r.length := Nat.mul_le_mul_left _ hbelow
      _ = 0x100000000 := hspace

theorem isBlockText_toText {b : Range} (hbits : b.bits = 32) (hlength : b.length = 24)
    (hbound : b.address < 0x100000000) (haligned : b.address % 256 = 0) :
    IsBlockText b.toText b.address := by
  refine ⟨b.address / 0x1000000, b.address / 0x10000 % 256, b.address / 256 % 256, by omega,
    by omega, by omega, by omega, ?_⟩
  rw [Range.toText, if_pos hbits, hlength, ipv4Text, haligned]
  simp only [List.map_cons, List.map_nil, String.intercalate_cons_cons,
    String.intercalate_singleton, String.append_assoc]
  rfl

/-- The range of 256 addresses from a multiple of 256 on. -/
theorem ofNumber_eq {address : Nat} (hbound : address < 0x100000000)
    (haligned : address % 256 = 0) :
    Range.ofNumber address 24 = .ok { bits := 32, address, length := 24 } := by
  rw [Range.ofNumber, if_pos hbound]
  exact if_pos (beq_iff_eq.mpr haligned)

/-- Every block of the layout can be made. -/
theorem exists_block {r : Range} (h : r.IsVersion4) (hlength : r.length ≤ 17) {i : Nat}
    (hi : i < 128) : ∃ b, block r i = .ok b ∧ IsBlock r i b := by
  obtain ⟨hstart, hsize, hspace⟩ := h.room hlength
  have hbound : r.address + i * 256 < 0x100000000 := by omega
  have haligned : (r.address + i * 256) % 256 = 0 := by omega
  set b : Range := { bits := 32, address := r.address + i * 256, length := 24 } with hb
  have hversion : b.IsVersion4 := ⟨rfl, rfl, hbound, beq_iff_eq.mpr haligned⟩
  have hmembers : ∀ n, b.Contains n ↔ r.address + 256 * i ≤ n ∧ n < r.address + 256 * (i + 1) := by
    intro n
    show r.address + i * 256 ≤ n ∧ n < r.address + i * 256 + 256 ↔ _
    omega
  refine ⟨b, by rw [block, ofNumber_eq hbound haligned]; rfl,
    { made := ?made
      text := isBlockText_toText rfl rfl hbound haligned
      readBack := parse_toText hversion (show 24 ≤ 32 by omega)
      members := hmembers
      inside := ?inside
      bounded := ?bounded }⟩
  case made =>
    rw [Nat.mul_comm 256 i]
    exact ofNumber_eq hbound haligned
  case inside =>
    intro n hn
    have hin := (hmembers n).mp hn
    exact ⟨by omega, by omega⟩
  case bounded =>
    intro n hn
    have hin := (hmembers n).mp hn
    omega

theorem exists_blocks {r : Range} (h : r.IsVersion4) (hlength : r.length ≤ 17) {is : List Nat}
    (his : ∀ i ∈ is, i < 128) :
    ∃ bs, is.mapM (block r) = .ok bs ∧ List.Forall₂ (IsBlock r) is bs := by
  induction is with
  | nil => exact ⟨[], rfl, .nil⟩
  | cons i is ih =>
    obtain ⟨b, hb, hblock⟩ := exists_block h hlength (his i List.mem_cons_self)
    obtain ⟨bs, hbs, hblocks⟩ := ih fun j hj => his j (List.mem_cons_of_mem i hj)
    exact ⟨b :: bs, by rw [List.mapM_cons, hb, hbs]; rfl, .cons hblock hblocks⟩

/-- Blocks with different numbers have no address in common. -/
theorem IsBlock.areApart {r a b : Range} {i j : Nat} (ha : IsBlock r i a) (hb : IsBlock r j b)
    (hne : i ≠ j) : a.AreApart b := by
  rintro n ⟨hn, hn'⟩
  have hi := (ha.members n).mp hn
  have hj := (hb.members n).mp hn'
  omega

/-! ## The layout -/

/-- Blocks of different numbers are apart. -/
theorem pairwise_areApart {r : Range} {is : List Nat} {bs : List Range} (his : is.Nodup)
    (h : List.Forall₂ (IsBlock r) is bs) : bs.Pairwise Range.AreApart := by
  induction h with
  | nil => exact .nil
  | cons hfirst hrest ih =>
    rw [List.nodup_cons] at his
    refine .cons (fun b hb => ?_) (ih his.2)
    obtain ⟨j, hj, hblock⟩ := exists_of_mem_forall₂ hrest hb
    exact hfirst.areApart hblock fun heq => his.1 (heq ▸ hj)

/-- The subnets of a range with the blocks that they need. -/
theorem exists_layout {r : Range} (h : r.IsVersion4) (hlength : r.length ≤ 17) :
    ∃ privates publics, privateBlocks.mapM (block r) = .ok privates ∧
      publicBlocks.mapM (block r) = .ok publics ∧ IsLayout r ⟨privates, publics⟩ := by
  obtain ⟨privates, hprivates, hprivate⟩ := exists_blocks h hlength
    (show ∀ i ∈ privateBlocks, i < 128 by decide)
  obtain ⟨publics, hpublics, hpublic⟩ := exists_blocks h hlength
    (show ∀ i ∈ publicBlocks, i < 128 by decide)
  exact ⟨privates, publics, hprivates, hpublics, hprivate, hpublic,
    pairwise_areApart (by decide) (List.rel_append hprivate hpublic)⟩

/-- What laying out comes to, by what the text is read as. -/
theorem ofCidr_eq {cidr : String} {r : Range} (hr : parse cidr = .ok r) :
    (r.bits = 32 ∧ r.length ≤ 17 → ∃ s, Subnets.ofCidr cidr = .ok s ∧ IsLayout r s) ∧
      (¬(r.bits = 32 ∧ r.length ≤ 17) → Subnets.ofCidr cidr = .error (.tooSmall cidr)) := by
  constructor
  · intro hroomy
    have hversion := (parse_ok_iff.mp ⟨hr, hroomy.1⟩).1
    obtain ⟨privates, publics, hprivates, hpublics, hlayout⟩ := exists_layout hversion hroomy.2
    refine ⟨_, ?_, hlayout⟩
    rw [Subnets.ofCidr, hr, Except.mapError, ok_bind,
      if_neg (mt (isTooSmall_iff r).mp (not_not_intro hroomy))]
    dsimp only
    rw [hprivates, ok_bind, hpublics]
    rfl
  · intro htight
    rw [Subnets.ofCidr, hr, Except.mapError, ok_bind, if_pos ((isTooSmall_iff r).mpr htight)]
    rfl

theorem exists_range_of_ofCidr {cidr : String} {s : Subnets} (h : Subnets.ofCidr cidr = .ok s) :
    ∃ r, parse cidr = .ok r ∧ (r.bits = 32 ∧ r.length ≤ 17) ∧ IsLayout r s := by
  cases hr : parse cidr with
  | error cause =>
    rw [Subnets.ofCidr, hr] at h
    cases h
  | ok r =>
    by_cases hroomy : r.bits = 32 ∧ r.length ≤ 17
    · obtain ⟨s', hs', hlayout⟩ := (ofCidr_eq hr).1 hroomy
      rw [hs'] at h
      cases h
      exact ⟨r, rfl, hroomy, hlayout⟩
    · rw [(ofCidr_eq hr).2 hroomy] at h
      cases h

theorem exists_subnets_iff {cidr : String} : (∃ s, Subnets.ofCidr cidr = .ok s) ↔
    ∃ r, parse cidr = .ok r ∧ r.bits = 32 ∧ r.length ≤ 17 := by
  constructor
  · rintro ⟨s, hs⟩
    obtain ⟨r, hr, hroomy, -⟩ := exists_range_of_ofCidr hs
    exact ⟨r, hr, hroomy⟩
  · rintro ⟨r, hr, hroomy⟩
    obtain ⟨s, hs, -⟩ := (ofCidr_eq hr).1 hroomy
    exact ⟨s, hs⟩

theorem isLayout_of_ofCidr {cidr : String} {s : Subnets} (h : Subnets.ofCidr cidr = .ok s) :
    ∃ r, parse cidr = .ok r ∧ r.IsVersion4 ∧ r.length ≤ 17 ∧ IsLayout r s := by
  obtain ⟨r, hr, hroomy, hlayout⟩ := exists_range_of_ofCidr h
  exact ⟨r, hr, (parse_ok_iff.mp ⟨hr, hroomy.1⟩).1, hroomy.2, hlayout⟩

/-- The outcome of laying out the network of a text. -/
structure IsLaidOut (cidr : String) : Prop where
  accepted : (∃ s, Subnets.ofCidr cidr = .ok s) ↔
    ∃ r, parse cidr = .ok r ∧ r.bits = 32 ∧ r.length ≤ 17
  /-- What it means that a text is read as a range of version 4. -/
  read : ∀ r, parse cidr = .ok r ∧ r.bits = 32 ↔ r.IsVersion4 ∧ Spells cidr r
  refused : ∀ fault, Subnets.ofCidr cidr = .error fault →
    (∃ cause, parse cidr = .error cause ∧ fault = .invalid cidr cause) ∨
      (∃ r, parse cidr = .ok r ∧ ¬(r.bits = 32 ∧ r.length ≤ 17) ∧ fault = .tooSmall cidr)
  layout : ∀ s, Subnets.ofCidr cidr = .ok s → ∃ r, parse cidr = .ok r ∧ IsLayout r s

/-- No block is ever refused: only the text or the size of the range can be at fault. -/
theorem refused_of_ofCidr {cidr : String} {fault : LayoutFault}
    (h : Subnets.ofCidr cidr = .error fault) :
    (∃ cause, parse cidr = .error cause ∧ fault = .invalid cidr cause) ∨
      (∃ r, parse cidr = .ok r ∧ ¬(r.bits = 32 ∧ r.length ≤ 17) ∧ fault = .tooSmall cidr) := by
  cases hr : parse cidr with
  | error cause =>
    rw [Subnets.ofCidr, hr] at h
    cases h
    exact .inl ⟨cause, rfl, rfl⟩
  | ok r =>
    by_cases hroomy : r.bits = 32 ∧ r.length ≤ 17
    · obtain ⟨s, hs, -⟩ := (ofCidr_eq hr).1 hroomy
      rw [hs] at h
      cases h
    · rw [(ofCidr_eq hr).2 hroomy] at h
      cases h
      exact .inr ⟨r, rfl, hroomy, rfl⟩

theorem isLaidOut (cidr : String) : IsLaidOut cidr where
  accepted := exists_subnets_iff
  read := fun _ => parse_ok_iff
  refused := fun _ => refused_of_ofCidr
  layout := by
    intro s hs
    obtain ⟨r, hr, -, hlayout⟩ := exists_range_of_ofCidr hs
    exact ⟨r, hr, hlayout⟩

end Network
end Groundplan
