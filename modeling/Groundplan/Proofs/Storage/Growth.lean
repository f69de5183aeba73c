/-
Making directories.

Directories are only made where nothing stands, and only on the way to the directory that
is asked for.  `Grows` says so of two disks, in the way `Shrinks` does for removals.  It
also holds when the attempt fails half-way: what was made by then stays, and it stands on
the way too.  "On the way" is meant of the written path.  A path with double dots in it
leads through directories that it leaves again, and these are made as well.
-/
import Groundplan.Proofs.Storage.Frame

namespace Groundplan
namespace Storage
namespace Disk

/-- Where a path leads, or one of the paths above it, which are what is left of it when
components are given up from the end. -/
def IsAbove (d : Disk) (p : Path) (l : Location) : Prop :=
  ∃ parts, parts <+: p.parts ∧ d.locate ⟨p.anchor, parts⟩ = .ok l

theorem isAbove_self {d : Disk} {p : Path} {l : Location} (h : d.locate p = .ok l) :
    IsAbove d p l :=
  ⟨p.parts, List.prefix_refl _, h⟩

theorem IsAbove.mono {d d' : Disk} {p q : Path} {l : Location} (h : IsAbove d p l)
    (hkeep : KeepsDirectories d d') (hanchor : q.anchor = p.anchor) (hparts : p.parts <+: q.parts) :
    IsAbove d' q l := by
  obtain ⟨parts, hway, hl⟩ := h
  rw [← hanchor] at hl
  exact ⟨parts, hway.trans hparts, hkeep.locate hl⟩

theorem walk_append (d : Disk) (start : Location) (a b : List String) :
    d.walk start (a ++ b) = d.walk start a >>= fun l => d.walk l b := by
  induction a generalizing start with
  | nil => rfl
  | cons part a ih =>
    rw [List.cons_append, walk_cons, walk_cons]
    cases d.entry? start with
    | none => rfl
    | some e =>
      cases e with
      | file bytes => rfl
      | directory => exact ih _

/-- A walk that comes to its end has entered every component. -/
theorem eq_foldl_enter_of_walk {d : Disk} {start l : Location} {parts : List String}
    (h : d.walk start parts = .ok l) : l = parts.foldl enter start := by
  induction parts generalizing start with
  | nil => exact (Except.ok.inj h).symm
  | cons part parts ih => exact ih (walk_cons_ok_iff.mp h).2

theorem foldl_enter {parts : List String} (hparts : ".." ∉ parts) (start : Location) :
    parts.foldl enter start = start ++ parts := by
  induction parts generalizing start with
  | nil => rw [List.foldl_nil, List.append_nil]
  | cons part parts ih =>
    rw [List.mem_cons, not_or] at hparts
    rw [List.foldl_cons, enter, if_neg (Ne.symm hparts.1), ih hparts.2, List.append_assoc,
      List.singleton_append]

/-- Without double dots a walk only goes down. -/
theorem eq_append_of_walk {d : Disk} {start l : Location} {parts : List String}
    (hparts : ".." ∉ parts) (h : d.walk start parts = .ok l) : l = start ++ parts :=
  (eq_foldl_enter_of_walk h).trans (foldl_enter hparts start)

theorem isDirectory_iff {d : Disk} {p : Path} :
    d.isDirectory p = true ↔ ∃ l, d.locate p = .ok l ∧ d.entry? l = some .directory := by
  rw [isDirectory, stat?]
  cases d.locate p with
  | error e => simp
  | ok l => simp

/-! ## Growing -/

/-- Nothing has changed except that directories were made where nothing stood, at places
where `p` holds. -/
structure Grows (p : Location → Prop) (d d' : Disk) : Prop where
  cwd : d'.cwd = d.cwd
  entry : ∀ l, d'.entry? l = d.entry? l ∨
    p l ∧ d.entry? l = none ∧ d'.entry? l = some .directory

namespace Grows

variable {p q : Location → Prop} {d d₁ d₂ : Disk}

theorem refl (d : Disk) : Grows p d d := ⟨rfl, fun _ => .inl rfl⟩

theorem mono (h : Grows p d d₁) (hpq : ∀ l, p l → q l) : Grows q d d₁ :=
  ⟨h.cwd, fun l => (h.entry l).imp_right fun hl => ⟨hpq l hl.1, hl.2⟩⟩

theorem entry_of_some (h : Grows p d d₁) {l : Location} {e : Entry} (hl : d.entry? l = some e) :
    d₁.entry? l = some e := by
  rcases h.entry l with hsame | ⟨-, hnone, -⟩
  · rw [hsame, hl]
  · rw [hnone] at hl
    cases hl

theorem keepsDirectories (h : Grows p d d₁) : KeepsDirectories d d₁ :=
  ⟨h.cwd, fun _ hl => h.entry_of_some hl⟩

theorem trans (h : Grows p d d₁) (h' : Grows p d₁ d₂) : Grows p d d₂ := by
  refine ⟨h'.cwd.trans h.cwd, fun l => ?_⟩
  rcases h.entry l with hsame | ⟨hp, hnone, hmade⟩
  · rw [← hsame]
    exact h'.entry l
  · exact .inr ⟨hp, hnone, h'.entry_of_some hmade⟩

end Grows

/-! ## One directory -/

theorem grows_of_makeDirectory {d d' : Disk} {p : Path} (h : d.makeDirectory p = .ok d') :
    Grows (fun l => d'.locate p = .ok l) d d' ∧ d'.isDirectory p = true := by
  obtain ⟨l, hl, h⟩ := ok_of_bind h
  split at h
  · cases h
  · rename_i hnone
    cases h
    have hroot : l ≠ [] := by
      rintro rfl
      rw [entry?_nil] at hnone
      cases hnone
    have hmade : Disk.entry? (d.put l .directory) l = some .directory := entry?_put_self d hroot _
    have hkeep : KeepsDirectories d (d.put l .directory) := by
      refine ⟨rfl, fun k hk => ?_⟩
      rw [entry?_put_of_ne d _ _]
      · exact hk
      · rintro rfl
        rw [hnone] at hk
        cases hk
    refine ⟨⟨rfl, fun k => ?_⟩, isDirectory_iff.mpr ⟨l, hkeep.locate hl, hmade⟩⟩
    by_cases hk : k = l
    · subst hk
      exact .inr ⟨hkeep.locate hl, hnone, hmade⟩
    · exact .inl (entry?_put_of_ne d hk _)

theorem grows_of_ensureDirectory {d d' : Disk} {p : Path} (h : d.ensureDirectory p = .ok d') :
    Grows (fun l => d'.locate p = .ok l) d d' ∧ d'.isDirectory p = true := by
  rw [ensureDirectory] at h
  split at h
  · rename_i hmade
    cases h
    exact grows_of_makeDirectory hmade
  · split at h
    · rename_i hthere
      cases h
      exact ⟨.refl d, hthere.2⟩
    · cases h

/-! ## A directory and those above it -/

/-- What an attempt to make a directory leaves, whether it succeeds or not. -/
structure Attempts (p : Path) (d : Disk) (outcome : Disk × Except Failure Unit) : Prop where
  grows : Grows (IsAbove outcome.1 p) d outcome.1
  made : outcome.2 = .ok () → outcome.1.isDirectory p = true

theorem attempts_settle (d : Disk) (p : Path) :
    Attempts p d (d.settle p (d.ensureDirectory p)) := by
  cases h : d.ensureDirectory p with
  | ok d' =>
    obtain ⟨hgrows, hdirectory⟩ := grows_of_ensureDirectory h
    exact ⟨hgrows.mono fun _ hl => isAbove_self hl, fun _ => hdirectory⟩
  | error e => exact ⟨.refl d, fun hok => nomatch hok⟩

theorem Attempts.trans {p q : Path} {d : Disk} {first second : Disk × Except Failure Unit}
    (h : Attempts q d first) (h' : Attempts p first.1 second) (hanchor : p.anchor = q.anchor)
    (hparts : q.parts <+: p.parts) : Attempts p d second := by
  have habove : ∀ l, IsAbove first.1 q l → IsAbove second.1 p l := fun l hl =>
    hl.mono h'.grows.keepsDirectories hanchor hparts
  exact ⟨(h.grows.mono habove).trans h'.grows, h'.made⟩

theorem attempts_makeDirectoriesFrom (d : Disk) (anchor : String) (parts : List String) :
    Attempts ⟨anchor, parts.reverse⟩ d (d.makeDirectoriesFrom anchor parts) := by
  induction parts with
  | nil => exact attempts_settle d ⟨anchor, []⟩
  | cons part above ih =>
    have hparts : above.reverse <+: (part :: above).reverse := by
      rw [List.reverse_cons]
      exact List.prefix_append _ _
    rw [makeDirectoriesFrom]
    split
    · split
      · rename_i habove
        rw [habove] at ih
        exact ih.trans (attempts_settle _ _) rfl hparts
      · rename_i hfailed
        -- What the directories above have left is left as it is.
        refine ⟨ih.grows.mono fun l hl => hl.mono (.refl _) rfl hparts, fun hok => ?_⟩
        exact (hfailed _ () (Prod.ext rfl hok)).elim
    · exact attempts_settle d _

theorem attempts_makeDirectories (d : Disk) (p : Path) : Attempts p d (d.makeDirectories p) := by
  have h := attempts_makeDirectoriesFrom d p.anchor p.parts.reverse
  rw [List.reverse_reverse] at h
  exact h

end Disk
end Storage
end Groundplan
