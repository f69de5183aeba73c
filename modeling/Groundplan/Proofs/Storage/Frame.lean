/-
What changes on a disk, and what does not.

A write changes one location.  A removal changes nothing but to nothing, and only at the
locations it is for; this is `Shrinks`, which is kept apart from how many removals there
are.  Since a path that leads somewhere on a disk from which something was removed led to
the same place before, the locations of several removals can all be looked up on the disk
that was there first.
-/
import Groundplan.Proofs.Result
import Groundplan.Storage.Disk
import Mathlib.Data.List.Basic

namespace Groundplan
namespace Storage

theorem lookup_filter (keep : Location → Bool) (entries : List (Location × Entry)) (l : Location) :
    (entries.filter fun e => keep e.1).lookup l = if keep l then entries.lookup l else none := by
  induction entries with
  | nil =>
    show none = if keep l then none else none
    rw [ite_self]
  | cons e entries ih =>
    obtain ⟨k, entry⟩ := e
    rw [List.filter_cons, List.lookup_cons]
    by_cases hl : l = k
    · subst hl
      by_cases hkeep : keep l = true
      · rw [if_pos hkeep, if_pos hkeep, List.lookup_cons, BEq.rfl]
      · rw [if_neg hkeep, ih, if_neg hkeep, if_neg hkeep]
    · rw [beq_false_of_ne hl, ← ih]
      split
      · rw [List.lookup_cons, beq_false_of_ne hl]
      · rfl

namespace Disk

/-! ## Walking -/

/-- Where a component of a path leads. -/
def enter (l : Location) (part : String) : Location :=
  if part = ".." then l.dropLast else l ++ [part]

theorem walk_cons (d : Disk) (start : Location) (part : String) (parts : List String) :
    d.walk start (part :: parts) = match d.entry? start with
      | none => .error .notFound
      | some (.file _) => .error .notDirectory
      | some .directory => d.walk (enter start part) parts := by
  have henter : d.walk (enter start part) parts =
      if part = ".." then d.walk start.dropLast parts else d.walk (start ++ [part]) parts :=
    apply_ite (d.walk · parts) _ _ _
  rw [walk]
  cases d.entry? start with
  | none => rfl
  | some e =>
    cases e with
    | file bytes => rfl
    | directory => exact henter.symm

theorem walk_cons_ok_iff {d : Disk} {start l : Location} {part : String} {parts : List String} :
    d.walk start (part :: parts) = .ok l ↔
      d.entry? start = some .directory ∧ d.walk (enter start part) parts = .ok l := by
  rw [walk_cons]
  cases d.entry? start with
  | none => simp
  | some e => cases e <;> simp

/-- Every directory is still there, and relative paths start where they did. -/
structure KeepsDirectories (d d' : Disk) : Prop where
  cwd : d'.cwd = d.cwd
  directory : ∀ l, d.entry? l = some .directory → d'.entry? l = some .directory

namespace KeepsDirectories

variable {d d₁ d₂ : Disk}

theorem refl (d : Disk) : KeepsDirectories d d := ⟨rfl, fun _ h => h⟩

theorem trans (h : KeepsDirectories d d₁) (h' : KeepsDirectories d₁ d₂) : KeepsDirectories d d₂ :=
  ⟨h'.cwd.trans h.cwd, fun l hl => h'.directory l (h.directory l hl)⟩

/-- A path only ever leads through directories, so it leads where it led. -/
theorem walk (h : KeepsDirectories d d₁) {start l : Location} {parts : List String}
    (hl : d.walk start parts = .ok l) : d₁.walk start parts = .ok l := by
  induction parts generalizing start with
  | nil => exact hl
  | cons part parts ih =>
    obtain ⟨hentry, hrest⟩ := walk_cons_ok_iff.mp hl
    exact walk_cons_ok_iff.mpr ⟨h.directory start hentry, ih hrest⟩

theorem locate (h : KeepsDirectories d d₁) {path : Path} {l : Location}
    (hl : d.locate path = .ok l) : d₁.locate path = .ok l := by
  rw [Disk.locate] at hl ⊢
  rw [h.cwd]
  exact h.walk hl

end KeepsDirectories

/-! ## Writing -/

theorem entry?_nil (d : Disk) : d.entry? [] = some .directory := rfl

theorem entry?_of_ne_nil (d : Disk) {l : Location} (hl : l ≠ []) :
    d.entry? l = d.entries.lookup l := if_neg hl

theorem entry?_put_self (d : Disk) {l : Location} (hl : l ≠ []) (e : Entry) :
    Disk.entry? (d.put l e) l = some e := by
  rw [entry?_of_ne_nil _ hl, put, List.lookup_cons, BEq.rfl]

theorem entry?_put_of_ne (d : Disk) {k l : Location} (hk : k ≠ l) (e : Entry) :
    Disk.entry? (d.put l e) k = d.entry? k := by
  by_cases hroot : k = []
  · rw [hroot, entry?_nil, entry?_nil]
  · rw [entry?_of_ne_nil _ hroot, entry?_of_ne_nil _ hroot, put, List.lookup_cons,
      beq_false_of_ne hk]
    show (d.entries.filter fun e => e.1 != l).lookup k = _
    rw [lookup_filter (fun k => k != l), if_pos (bne_iff_ne.mpr hk)]

/-- The file at a path holds a text and nothing else has changed. -/
def Wrote (p : Path) (text : String) (d d' : Disk) : Prop :=
  d'.cwd = d.cwd ∧ ∃ l, d.locate p = .ok l ∧ d'.entry? l = some (.file (Text.Utf8.encode text)) ∧
    ∀ k, k ≠ l → d'.entry? k = d.entry? k

/-- A text is only put where no directory stands. -/
theorem writeText_ok {d d' : Disk} {p : Path} {text : String} (h : d.writeText p text = .ok d') :
    ∃ l, d.locate p = .ok l ∧ d.entry? l ≠ some .directory ∧
      d' = d.put l (.file (Text.Utf8.encode text)) := by
  obtain ⟨l, hl, h⟩ := ok_of_bind h
  refine ⟨l, hl, ?_⟩
  split at h
  · cases h
  · rename_i hdir
    cases h
    exact ⟨hdir, rfl⟩

theorem wrote_of_writeText {d d' : Disk} {p : Path} {text : String}
    (h : d.writeText p text = .ok d') : Wrote p text d d' := by
  obtain ⟨l, hl, hdir, rfl⟩ := writeText_ok h
  have hroot : l ≠ [] := fun hroot => hdir (if_pos hroot)
  exact ⟨rfl, l, hl, entry?_put_self d hroot _, fun k hk => entry?_put_of_ne d hk _⟩

theorem keepsDirectories_of_writeText {d d' : Disk} {p : Path} {text : String}
    (h : d.writeText p text = .ok d') : KeepsDirectories d d' := by
  obtain ⟨l, -, hdir, rfl⟩ := writeText_ok h
  refine ⟨rfl, fun k hk => ?_⟩
  have hkl : k ≠ l := by
    rintro rfl
    exact hdir hk
  rw [entry?_put_of_ne d hkl, hk]

theorem read_of_entry {d : Disk} {p : Path} {l : Location} {bytes : List UInt8}
    (hl : d.locate p = .ok l) (hfile : d.entry? l = some (.file bytes)) :
    d.read p = .ok bytes := by
  unfold Disk.read
  rw [hl]
  dsimp only [bind, Except.bind]
  rw [hfile]
  rfl

theorem entry_of_read {d : Disk} {p : Path} {bytes : List UInt8} (h : d.read p = .ok bytes) :
    ∃ l, d.locate p = .ok l ∧ d.entry? l = some (.file bytes) := by
  obtain ⟨l, hl, h⟩ := ok_of_bind h
  refine ⟨l, hl, ?_⟩
  split at h
  · cases h
  · cases h
  · rename_i hfile
    cases h
    exact hfile

/-! ## Removing -/

/-- Nothing has changed except that entries at which `p` holds may be gone. -/
structure Shrinks (p : Location → Prop) (d d' : Disk) : Prop where
  cwd : d'.cwd = d.cwd
  entry : ∀ l, d'.entry? l = d.entry? l ∨ p l ∧ d'.entry? l = none

namespace Shrinks

variable {p q : Location → Prop} {d d₁ d₂ : Disk}

theorem refl (d : Disk) : Shrinks p d d := ⟨rfl, fun _ => .inl rfl⟩

theorem mono (h : Shrinks p d d₁) (hpq : ∀ l, p l → q l) : Shrinks q d d₁ :=
  ⟨h.cwd, fun l => (h.entry l).imp_right fun hl => ⟨hpq l hl.1, hl.2⟩⟩

theorem trans (h : Shrinks p d d₁) (h' : Shrinks p d₁ d₂) : Shrinks p d d₂ := by
  refine ⟨h'.cwd.trans h.cwd, fun l => ?_⟩
  rcases h'.entry l with hsame | hgone
  · rw [hsame]
    exact h.entry l
  · exact .inr hgone

/-- What is there afterwards was there before. -/
theorem entry_of_some (h : Shrinks p d d₁) {l : Location} {e : Entry} (hl : d₁.entry? l = some e) :
    d.entry? l = some e := by
  rcases h.entry l with hsame | ⟨-, hgone⟩
  · rw [← hsame, hl]
  · rw [hgone] at hl
    cases hl

/-- Seen from the disk that is left, the one before has all its directories. -/
theorem keepsDirectories (h : Shrinks p d d₁) : KeepsDirectories d₁ d :=
  ⟨h.cwd.symm, fun _ hl => h.entry_of_some hl⟩

theorem locate (h : Shrinks p d d₁) {path : Path} {l : Location} (hl : d₁.locate path = .ok l) :
    d.locate path = .ok l :=
  h.keepsDirectories.locate hl

end Shrinks

theorem shrinks_filter (d : Disk) (keep : Location → Bool) :
    Shrinks (fun l => keep l = false) d
      { d with entries := d.entries.filter fun e => keep e.1 } := by
  refine ⟨rfl, fun l => ?_⟩
  by_cases hroot : l = []
  · left
    rw [hroot, entry?_nil, entry?_nil]
  · rw [entry?_of_ne_nil _ hroot, entry?_of_ne_nil _ hroot, lookup_filter]
    cases hkeep : keep l with
    | true => exact .inl rfl
    | false => exact .inr ⟨rfl, rfl⟩

theorem shrinks_of_remove {d d' : Disk} {path : Path} (h : d.remove path = .ok d') :
    Shrinks (fun l => d.locate path = .ok l) d d' := by
  obtain ⟨l, hl, h⟩ := ok_of_bind h
  split at h
  · cases h
  · cases h
  · cases h
    refine (shrinks_filter d fun k => k != l).mono fun k hk => ?_
    rw [bne_eq_false_iff_eq.mp hk]
    exact hl

theorem shrinks_of_removeIfPresent {d d' : Disk} {path : Path}
    (h : d.removeIfPresent path = .ok d') : Shrinks (fun l => d.locate path = .ok l) d d' := by
  rw [removeIfPresent] at h
  split at h
  · cases h
    exact .refl d
  · exact shrinks_of_remove h

theorem shrinks_of_removeTree {d d' : Disk} {path : Path} (h : d.removeTree path = .ok d') :
    Shrinks (fun l => ∃ root, d.locate path = .ok root ∧ root <+: l) d d' := by
  obtain ⟨root, hroot, h⟩ := ok_of_bind h
  split at h
  · cases h
  · cases h
    refine (shrinks_filter d fun k => !root.isPrefixOf k).mono fun k hk => ⟨root, hroot, ?_⟩
    rw [Bool.not_eq_false'] at hk
    exact List.isPrefixOf_iff_prefix.mp hk

end Disk
end Storage
end Groundplan
