/-
When directories can be made and files written.

Below a directory that is there, a further one can be made, with all that are missing above
it, as long as no file stands on the way; and then a file can be written into it unless a
directory stands in its place.  What is there already makes no difference, so the same is
done again without any change.
-/
import Groundplan.Proofs.Storage.Inner
import Mathlib.Data.List.Induction

namespace Groundplan
namespace Storage
namespace Disk

variable {d : Disk} {root path : Path} {base l : Location} {above parts : List String} {part : String}

/-- No file stands on the way down from a place, nor at its end. -/
def IsOpen (d : Disk) (base : Location) (parts : List String) : Prop :=
  ∀ way, way <+: parts → ∀ bytes, d.entry? (base ++ way) ≠ some (.file bytes)

theorem IsOpen.of_way (h : IsOpen d base parts) (hinto : above <+: parts) : IsOpen d base above :=
  fun way hway => h way (hway.trans hinto)

/-! ## Paths -/

/-- What a path leads through are directories. -/
theorem directory_of_locate_append {anchor : String} {a b : List String} {k : Location}
    (h : d.locate ⟨anchor, a ++ part :: b⟩ = .ok l) (hk : d.locate ⟨anchor, a⟩ = .ok k) :
    d.entry? k = some .directory := by
  rw [locate] at h hk
  rw [walk_append] at h
  obtain ⟨m, hm, h⟩ := ok_of_bind h
  have hsame : m = k := Except.ok.inj (hm.symm.trans hk)
  rw [← hsame]
  exact (walk_cons_ok_iff.mp h).1

theorem locate_above {anchor : String} {a b : List String} (h : d.locate ⟨anchor, a ++ b⟩ = .ok l) :
    ∃ k, d.locate ⟨anchor, a⟩ = .ok k := by
  rw [locate, walk_append] at h
  obtain ⟨k, hk, -⟩ := ok_of_bind h
  exact ⟨k, hk⟩

/-- A file stands in a directory. -/
theorem isDirectory_parent (hparts : path.parts ≠ []) (hl : d.locate path = .ok l) :
    d.isDirectory path.parent = true := by
  obtain ⟨anchor, parts⟩ := path
  have hsplit : d.locate ⟨anchor, parts.dropLast ++ [parts.getLast hparts]⟩ = .ok l := by
    rw [List.dropLast_append_getLast]
    exact hl
  obtain ⟨k, hk⟩ := locate_above hsplit
  exact isDirectory_iff.mpr ⟨k, hk, directory_of_locate_append hsplit hk⟩

/-- A longer path goes on from where the shorter one leads. -/
theorem locate_from (hbase : d.locate root = .ok base) (parts : List String) :
    d.locate ⟨root.anchor, root.parts ++ parts⟩ = d.walk base parts := by
  rw [locate, walk_append]
  exact congrArg (fun r => r >>= fun l => d.walk l parts) hbase

/-- Below a root all places on the way to where a path leads are directories. -/
theorem directory_on_way (hbase : d.locate root = .ok base) (hparts : ".." ∉ parts)
    (hl : d.locate ⟨root.anchor, root.parts ++ parts⟩ = .ok l) {way : List String}
    (hway : way <+: parts) (hne : way ≠ parts) : d.entry? (base ++ way) = some .directory := by
  obtain ⟨rest, rfl⟩ := hway
  cases rest with
  | nil => exact absurd (List.append_nil way).symm hne
  | cons part rest =>
    rw [← List.append_assoc] at hl
    obtain ⟨k, hk⟩ := locate_above hl
    have hdots : ".." ∉ way := fun hmem => hparts (List.mem_append_left _ hmem)
    obtain ⟨base', hbase', rfl⟩ := locate_append hdots hk
    rw [← Except.ok.inj (hbase'.symm.trans hbase)]
    exact directory_of_locate_append hl hk

/-- A place below a root that is on the way to somewhere, but not to there from the root, is
one that the path to the root leads through; it was there before and is not changed. -/
theorem entry_of_isAbove {d' : Disk} {inner : List String} (hbase : d.locate root = .ok base)
    (hkeep : KeepsDirectories d d') (hinner : ".." ∉ inner)
    (habove : IsAbove d' ⟨root.anchor, root.parts ++ inner⟩ (base ++ parts))
    (hoff : ¬parts <+: inner) : d'.entry? (base ++ parts) = d.entry? (base ++ parts) := by
  obtain ⟨way, hinto, hlocate⟩ := habove
  rcases List.prefix_or_prefix_of_prefix hinto (List.prefix_append root.parts _) with hle | hge
  · obtain ⟨rest, hrest⟩ := hle
    have hroot : d.locate ⟨root.anchor, way ++ rest⟩ = .ok base := by
      rw [hrest]
      exact hbase
    obtain ⟨k, hk⟩ := locate_above hroot
    have hkl : k = base ++ parts := Except.ok.inj ((hkeep.locate hk).symm.trans hlocate)
    rw [hkl] at hk
    cases rest with
    | nil =>
      rw [List.append_nil, hk] at hroot
      have hnil : parts = [] := List.self_eq_append_right.mp (Except.ok.inj hroot).symm
      exact absurd (hnil ▸ List.nil_prefix) hoff
    | cons part rest =>
      have hdirectory := directory_of_locate_append hroot hk
      rw [hdirectory, hkeep.directory _ hdirectory]
  · obtain ⟨way, rfl⟩ := hge
    rw [List.prefix_append_right_inj] at hinto
    obtain ⟨base', hbase', heq⟩ := locate_append (fun hmem => hinner (hinto.subset hmem)) hlocate
    have hsame : base' = base := Except.ok.inj (hbase'.symm.trans (hkeep.locate hbase))
    rw [hsame, List.append_cancel_left_eq] at heq
    exact absurd (heq ▸ hinto) hoff

/-- From a directory one can go on. -/
theorem locate_concat {anchor : String} (hpart : part ≠ "..")
    (h : d.isDirectory ⟨anchor, above⟩ = true) :
    ∃ k, d.locate ⟨anchor, above⟩ = .ok k ∧ d.locate ⟨anchor, above ++ [part]⟩ = .ok (k ++ [part]) := by
  obtain ⟨k, hk, hentry⟩ := isDirectory_iff.mp h
  refine ⟨k, hk, ?_⟩
  rw [locate_from hk]
  refine walk_cons_ok_iff.mpr ⟨hentry, ?_⟩
  rw [enter, if_neg hpart]
  rfl

/-- Where no file is in the way, a path can only fail because something is missing. -/
theorem error_of_isOpen {e : Fault} (hparts : ".." ∉ parts) (hopen : IsOpen d base parts)
    (h : d.walk base parts = .error e) : e = .notFound := by
  induction parts generalizing base with
  | nil => cases h
  | cons part parts ih =>
    rw [List.mem_cons, not_or] at hparts
    rw [walk_cons] at h
    cases hentry : d.entry? base with
    | none =>
      rw [hentry] at h
      exact (Except.error.inj h).symm
    | some entry =>
      rw [hentry] at h
      cases entry with
      | file bytes =>
        have hbase := hopen [] List.nil_prefix bytes
        rw [List.append_nil] at hbase
        exact absurd hentry hbase
      | directory =>
        rw [enter, if_neg (Ne.symm hparts.1)] at h
        refine ih hparts.2 (fun way hway bytes => ?_) h
        rw [List.append_assoc]
        exact hopen (part :: way) (List.cons_prefix_cons.mpr ⟨rfl, hway⟩) bytes

/-! ## Making directories -/

theorem ensureDirectory_ok (hl : d.locate path = .ok l)
    (hfile : ∀ bytes, d.entry? l ≠ some (.file bytes)) : ∃ d', d.ensureDirectory path = .ok d' := by
  rw [ensureDirectory, makeDirectory, hl, ok_bind]
  cases hentry : d.entry? l with
  | none => exact ⟨_, rfl⟩
  | some entry =>
    cases entry with
    | file bytes => exact absurd hentry (hfile bytes)
    | directory => exact ⟨d, if_pos ⟨by decide, isDirectory_iff.mpr ⟨l, hl, hentry⟩⟩⟩

theorem makeDirectory_exists (hl : d.locate path = .ok l) :
    d.makeDirectory path ≠ .error .notFound := by
  rw [makeDirectory, hl, ok_bind]
  cases d.entry? l <;> exact fun h => nomatch h

theorem makeDirectory_error {e : Fault} (h : d.locate path = .error e) :
    d.makeDirectory path = .error e := by
  rw [makeDirectory, h]
  rfl

/-- A directory is made after the one above it, if that is missing. -/
theorem makeDirectories_concat (d : Disk) (anchor : String) (above : List String) (part : String) :
    d.makeDirectories ⟨anchor, above ++ [part]⟩ =
      match d.makeDirectory ⟨anchor, above ++ [part]⟩ with
      | .error .notFound =>
        match d.makeDirectories ⟨anchor, above⟩ with
        | (d, .ok _) => d.settle ⟨anchor, above ++ [part]⟩ (d.ensureDirectory ⟨anchor, above ++ [part]⟩)
        | failed => failed
      | _ => d.settle ⟨anchor, above ++ [part]⟩ (d.ensureDirectory ⟨anchor, above ++ [part]⟩) := by
  rw [makeDirectories, makeDirectories]
  dsimp only
  rewrite [List.reverse_append, List.reverse_singleton, List.singleton_append, makeDirectoriesFrom,
    List.reverse_cons, List.reverse_reverse]
  rfl

theorem makeDirectories_of_locate (hl : d.locate path = .ok l) :
    d.makeDirectories path = d.settle path (d.ensureDirectory path) := by
  obtain ⟨anchor, parts⟩ := path
  induction parts using List.reverseRecOn with
  | nil => rfl
  | append_singleton above part =>
    rw [makeDirectories_concat]
    have hexists := makeDirectory_exists hl
    split
    · contradiction
    · rfl

/-- A directory that is there need not be made. -/
theorem makeDirectories_of_isDirectory (h : d.isDirectory path = true) :
    d.makeDirectories path = (d, .ok ()) := by
  obtain ⟨l, hl, hentry⟩ := isDirectory_iff.mp h
  have hmake : d.makeDirectory path = .error .exists := by
    rw [makeDirectory, hl, ok_bind, hentry]
    rfl
  have hensure : d.ensureDirectory path = .ok d := by
    rw [ensureDirectory, hmake]
    exact if_pos ⟨by decide, h⟩
  rw [makeDirectories_of_locate hl, hensure]
  rfl

/-- Below a directory further ones can be made where no file is in the way. -/
theorem makeDirectories_ok (hbase : d.locate root = .ok base) (hroot : d.entry? base = some .directory)
    (hparts : ".." ∉ parts) (hopen : IsOpen d base parts) :
    (d.makeDirectories ⟨root.anchor, root.parts ++ parts⟩).2 = .ok () := by
  induction parts using List.reverseRecOn with
  | nil =>
    rw [List.append_nil, makeDirectories_of_isDirectory (isDirectory_iff.mpr ⟨base, hbase, hroot⟩)]
  | append_singleton above part ih =>
    have hfile : ∀ bytes, d.entry? (base ++ (above ++ [part])) ≠ some (.file bytes) :=
      hopen _ (List.prefix_refl _)
    cases hl : d.locate ⟨root.anchor, root.parts ++ (above ++ [part])⟩ with
    | ok l =>
      obtain ⟨base', hbase', rfl⟩ := locate_append hparts hl
      have hsame : base' = base := Except.ok.inj (hbase'.symm.trans hbase)
      rw [hsame] at hl
      obtain ⟨d', hd'⟩ := ensureDirectory_ok hl hfile
      rw [makeDirectories_of_locate hl, hd']
      rfl
    | error e =>
      have hwalk := hl
      rw [locate_from hbase] at hwalk
      obtain rfl := error_of_isOpen hparts hopen hwalk
      rw [← List.append_assoc] at hl ⊢
      rw [makeDirectories_concat, makeDirectory_error hl]
      dsimp only
      have hdots : ".." ∉ above ∧ part ≠ ".." := by
        rw [List.mem_append, List.mem_singleton, not_or] at hparts
        exact ⟨hparts.1, Ne.symm hparts.2⟩
      have hmade := ih hdots.1 (hopen.of_way (List.prefix_append _ _))
      have hattempts := attempts_makeDirectories d ⟨root.anchor, root.parts ++ above⟩
      generalize d.makeDirectories ⟨root.anchor, root.parts ++ above⟩ = outcome at hmade hattempts
      obtain ⟨d₁, result⟩ := outcome
      cases hmade
      obtain ⟨k, hk, hnext⟩ := locate_concat hdots.2 (hattempts.made rfl)
      obtain ⟨base', hbase', rfl⟩ := locate_append hdots.1 hk
      have hsame : base' = base :=
        Except.ok.inj (hbase'.symm.trans (hattempts.grows.keepsDirectories.locate hbase))
      rw [hsame] at hnext
      obtain ⟨d₂, hd₂⟩ := ensureDirectory_ok hnext fun bytes hbytes => by
        rcases hattempts.grows.entry (base ++ above ++ [part]) with hkept | ⟨-, -, hdirectory⟩
        · rw [hkept, List.append_assoc] at hbytes
          exact hfile bytes hbytes
        · rw [hdirectory] at hbytes
          cases hbytes
      dsimp only
      rw [hd₂]
      rfl

/-! ## Writing files -/

theorem writeText_ok_of_locate (hl : d.locate path = .ok l) (hentry : d.entry? l ≠ some .directory)
    (text : String) : d.writeText path text = .ok (d.put l (.file (Text.Utf8.encode text))) := by
  rw [writeText, write, hl, ok_bind]
  split
  · contradiction
  · rfl

end Disk
end Storage
end Groundplan
