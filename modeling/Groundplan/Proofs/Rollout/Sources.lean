/-
Which files are read for placeholders.

The report goes by the entries of a disk.  What it reads can be told from what stands below
the directory alone, and either all of it is read or the first file that is no text is given
as the reason.
-/
import Groundplan.Proofs.Storage.Frame
import Groundplan.Rollout.Placeholder

namespace Groundplan
namespace Rollout

open Storage Storage.Disk

/-! ## Paths -/

theorem isSome_entry?_iff {d : Disk} {l : Location} (hl : l ≠ []) :
    (d.entry? l).isSome = true ↔ ∃ e, (l, e) ∈ d.entries := by
  rw [entry?_of_ne_nil d hl, List.lookup_isSome_iff]
  constructor
  · rintro ⟨⟨k, e⟩, hmem, hk⟩
    have hlk : l = k := beq_iff_eq.mp hk
    rw [hlk]
    exact ⟨e, hmem⟩
  · rintro ⟨e, hmem⟩
    exact ⟨(l, e), hmem, BEq.rfl⟩

theorem exists_mem_below {d : Disk} {l parts : Location} :
    (∃ e, (parts, e) ∈ d.below l) ↔ parts ≠ [] ∧ (d.entry? (l ++ parts)).isSome = true := by
  have hmem : ∀ e, (parts, e) ∈ d.below l ↔ parts ≠ [] ∧ (l ++ parts, e) ∈ d.entries := by
    intro e
    rw [below, List.mem_mergeSort, List.mem_filterMap]
    constructor
    · rintro ⟨⟨k, f⟩, hentry, h⟩
      dsimp only at h
      split at h
      · rename_i hk
        rw [Bool.and_eq_true, decide_eq_true_eq, List.isPrefixOf_iff_prefix] at hk
        obtain ⟨hlength, rest, rfl⟩ := hk
        cases h
        rw [List.length_append] at hlength
        rw [List.drop_left]
        exact ⟨List.ne_nil_of_length_pos (by omega), hentry⟩
      · cases h
    · rintro ⟨hne, hentry⟩
      have hlength := List.length_pos_iff.mpr hne
      refine ⟨(l ++ parts, e), hentry, ?_⟩
      dsimp only
      rw [if_pos, List.drop_left]
      rw [Bool.and_eq_true, decide_eq_true_eq, List.isPrefixOf_iff_prefix, List.length_append]
      exact ⟨by omega, List.prefix_append l parts⟩
  rw [exists_congr hmem, exists_and_left]
  refine and_congr_right fun hne => (isSome_entry?_iff ?_).symm
  exact List.append_ne_nil_of_right_ne_nil l hne

/-- The sources below a directory, in terms of what stands there. -/
theorem mem_sourcePaths {d : Disk} {root path : Path} {base : Location}
    (hbase : d.locate root = .ok base) (hdirectory : d.entry? base = some .directory) :
    path ∈ sourcePaths d root ↔ ∃ parts, path = { root with parts := root.parts ++ parts } ∧
      parts ≠ [] ∧ (d.entry? (base ++ parts)).isSome = true ∧
        isSourceName (parts.getLastD "") = true ∧ workingDirectory ∉ parts := by
  have hthere : d.isDirectoryAt base = true := by
    rw [isDirectoryAt, hdirectory]
    rfl
  rw [sourcePaths, hbase]
  dsimp only
  rw [if_pos hthere, List.mem_map]
  constructor
  · rintro ⟨⟨parts, e⟩, hmem, rfl⟩
    rw [List.mem_filter, Bool.and_eq_true] at hmem
    obtain ⟨hbelow, hname, hworking⟩ := hmem
    obtain ⟨hne, hentry⟩ := exists_mem_below.mp ⟨e, hbelow⟩
    exact ⟨parts, rfl, hne, hentry, hname, by simpa using hworking⟩
  · rintro ⟨parts, rfl, hne, hentry, hname, hworking⟩
    obtain ⟨e, hbelow⟩ := exists_mem_below.mpr ⟨hne, hentry⟩
    refine ⟨(parts, e), List.mem_filter.mpr ⟨hbelow, ?_⟩, rfl⟩
    rw [Bool.and_eq_true]
    exact ⟨hname, by simpa using hworking⟩

/-- A place below a directory that is named like a generated file, and is not among what the
provisioning tool has fetched. -/
def IsSourcePath (d : Disk) (root path : Path) : Prop :=
  ∃ base parts, d.locate root = .ok base ∧ d.entry? base = some .directory ∧
    path = { root with parts := root.parts ++ parts } ∧ parts ≠ [] ∧
      (d.entry? (base ++ parts)).isSome = true ∧ isSourceName (parts.getLastD "") = true ∧
        workingDirectory ∉ parts

/-- Without a directory there is nothing to read. -/
theorem mem_sourcePaths_iff {d : Disk} {root path : Path} :
    path ∈ sourcePaths d root ↔ IsSourcePath d root path := by
  cases hbase : d.locate root with
  | error e =>
    constructor
    · intro h
      simp [sourcePaths, hbase] at h
    · rintro ⟨base, parts, hl, -⟩
      rw [hbase] at hl
      cases hl
  | ok base =>
    have hsame : ∀ base', d.locate root = .ok base' → base' = base := by
      intro base' hl
      rw [hbase] at hl
      exact (Except.ok.inj hl).symm
    by_cases hdirectory : d.entry? base = some .directory
    · rw [mem_sourcePaths hbase hdirectory]
      constructor
      · rintro ⟨parts, hpath⟩
        exact ⟨base, parts, hbase, hdirectory, hpath⟩
      · rintro ⟨base', parts, hl, -, hpath⟩
        rw [hsame base' hl] at hpath
        exact ⟨parts, hpath⟩
    · constructor
      · intro h
        simp [sourcePaths, hbase, isDirectoryAt, hdirectory] at h
      · rintro ⟨base', parts, hl, hentry, -⟩
        rw [hsame base' hl] at hentry
        exact absurd hentry hdirectory

/-! ## Reading -/

theorem exists_readAll {d : Disk} {paths : List Path}
    (h : ∀ p ∈ paths, ∃ text, d.readText p = .ok text) : ∃ texts, readAll d paths = .ok texts := by
  induction paths with
  | nil => exact ⟨[], rfl⟩
  | cons p paths ih =>
    obtain ⟨text, htext⟩ := h p List.mem_cons_self
    obtain ⟨texts, htexts⟩ := ih fun q hq => h q (List.mem_cons_of_mem p hq)
    refine ⟨text :: texts, ?_⟩
    rw [readAll, htext, htexts]
    rfl

/-- What was read are the texts at the paths, and nothing else. -/
theorem mem_of_readAll {d : Disk} {paths : List Path} {texts : List String}
    (h : readAll d paths = .ok texts) :
    (∀ p ∈ paths, ∃ text ∈ texts, d.readText p = .ok text) ∧
      ∀ text ∈ texts, ∃ p ∈ paths, d.readText p = .ok text := by
  induction paths generalizing texts with
  | nil =>
    cases h
    exact ⟨List.forall_mem_nil _, List.forall_mem_nil _⟩
  | cons p paths ih =>
    obtain ⟨text, htext, h⟩ := ok_of_bind h
    obtain ⟨rest, hrest, h⟩ := ok_of_bind h
    cases h
    have hread : d.readText p = .ok text := ok_of_mapError htext
    obtain ⟨hpaths, htexts⟩ := ih hrest
    constructor
    · rw [List.forall_mem_cons]
      refine ⟨⟨text, List.mem_cons_self, hread⟩, fun q hq => ?_⟩
      obtain ⟨other, hother, hq⟩ := hpaths q hq
      exact ⟨other, List.mem_cons_of_mem text hother, hq⟩
    · rw [List.forall_mem_cons]
      refine ⟨⟨p, List.mem_cons_self, hread⟩, fun other hother => ?_⟩
      obtain ⟨q, hq, hother⟩ := htexts other hother
      exact ⟨q, List.mem_cons_of_mem p hq, hother⟩

end Rollout
end Groundplan
