/-
What stands below a directory that nothing else is written to.

`IsTreeOf` describes all of it by the texts of the files: the files themselves, the
directories that lead to them, and nothing besides.  Files and directories do not get into
each other's way, since the names of files have a dot in them and those of directories have
none.  So every file of a project can be written, whatever other projects have left, and
what then stands there is described by the texts again, with the new ones laid over the old.
-/
import Groundplan.Proofs.Project.Fresh
import Mathlib.Logic.Function.Basic

namespace Groundplan
namespace Project

open Storage Storage.Disk

/-- Texts of files by their places below a directory. -/
abbrev Contents := List String → Option String

/-- Some file stands further down. -/
def Contents.Leads (c : Contents) (way : List String) : Prop :=
  ∃ place, way <+: place ∧ way ≠ place ∧ (c place).isSome = true

/-- The name of a file in directories, of which only the first has a dot in it. -/
def IsFilePlace (place : List String) : Prop :=
  ∃ above name, place = above ++ [name] ∧ '.' ∈ name.toList ∧ ∀ a ∈ above, '.' ∉ a.toList

/-- Below a directory there are these files, the directories that lead to them, and nothing
else. -/
structure IsTreeOf (base : Location) (c : Contents) (d : Disk) : Prop where
  places : ∀ {place}, (c place).isSome = true → IsFilePlace place
  root : d.entry? base = some .directory
  file : ∀ {place text}, c place = some text →
    d.entry? (base ++ place) = some (.file (Text.Utf8.encode text))
  directory : ∀ {way}, c.Leads way → d.entry? (base ++ way) = some .directory
  nothing : ∀ {place}, place ≠ [] → c place = none → ¬c.Leads place →
    d.entry? (base ++ place) = none

/-! ## Places -/

namespace IsFilePlace

theorem ne_nil {place : List String} (h : IsFilePlace place) : place ≠ [] := by
  obtain ⟨above, name, rfl, -⟩ := h
  exact List.append_ne_nil_of_right_ne_nil _ (List.cons_ne_nil _ _)

/-- No file stands on the way to another. -/
theorem eq_of_way {a b : List String} (ha : IsFilePlace a) (hb : IsFilePlace b) (hab : a <+: b) :
    a = b := by
  obtain ⟨above, name, rfl, -, habove⟩ := hb
  rcases List.prefix_concat_iff.mp hab with heq | hinto
  · exact heq
  · obtain ⟨_, name', rfl, hdot, -⟩ := ha
    have hmem : name' ∈ above := hinto.subset (List.mem_append_right _ (List.mem_singleton_self _))
    exact absurd hdot (habove name' hmem)

end IsFilePlace

theorem isFilePlace_of_isModulePath {p : Path} (h : IsModulePath p) : IsFilePlace p.parts := by
  obtain ⟨above, name, rfl, hname, habove⟩ := h
  refine ⟨above, name, rfl, ?_, habove⟩
  simp only [List.mem_cons, List.not_mem_nil, or_false] at hname
  rcases hname with rfl | rfl | rfl | rfl <;> decide

/-! ## Trees -/

namespace IsTreeOf

variable {base : Location} {c : Contents} {d d' : Disk} {place : List String}

/-- A directory with nothing in it. -/
theorem empty (hroot : d.entry? base = some .directory)
    (h : ∀ l, base <+: l → l ≠ base → d.entry? l = none) : IsTreeOf base (fun _ => none) d where
  places := fun h => nomatch h
  root := hroot
  file := fun h => nomatch h
  directory := fun ⟨_, _, _, h⟩ => nomatch h
  nothing := fun hne _ _ => h _ (List.prefix_append _ _) fun heq =>
    hne (List.self_eq_append_right.mp heq.symm)

theorem of_same (h : IsTreeOf base c d) (hsame : ∀ l, base <+: l → d'.entry? l = d.entry? l) :
    IsTreeOf base c d' where
  places := h.places
  root := (hsame base (List.prefix_refl _)).trans h.root
  file := fun hc => (hsame _ (List.prefix_append _ _)).trans (h.file hc)
  directory := fun hc => (hsame _ (List.prefix_append _ _)).trans (h.directory hc)
  nothing := fun hne hc hleads => (hsame _ (List.prefix_append _ _)).trans (h.nothing hne hc hleads)

theorem not_leads (h : IsTreeOf base c d) (hplace : IsFilePlace place) : ¬c.Leads place := by
  rintro ⟨further, hinto, hne, hsome⟩
  exact hne (hplace.eq_of_way (h.places hsome) hinto)

/-- Where a file can stand there is no directory. -/
theorem entry_ne_directory (h : IsTreeOf base c d) (hplace : IsFilePlace place) :
    d.entry? (base ++ place) ≠ some .directory := by
  cases hc : c place with
  | some text =>
    rw [h.file hc]
    exact fun h => nomatch h
  | none =>
    rw [h.nothing hplace.ne_nil hc (h.not_leads hplace)]
    exact fun h => nomatch h

/-- A directory is one that leads to a file. -/
theorem directory_iff (h : IsTreeOf base c d) {way : List String} (hne : way ≠ []) :
    d.entry? (base ++ way) = some .directory ↔ c.Leads way := by
  refine ⟨fun hentry => ?_, h.directory⟩
  by_contra hleads
  cases hc : c way with
  | some text =>
    rw [h.file hc] at hentry
    cases hentry
  | none =>
    rw [h.nothing hne hc hleads] at hentry
    cases hentry

/-- No file is in the way of a further one. -/
theorem isOpen (h : IsTreeOf base c d) (hplace : IsFilePlace place) :
    IsOpen d base place.dropLast := by
  intro way hway bytes hentry
  by_cases hc : (c way).isSome = true
  · have heq := (h.places hc).eq_of_way hplace (hway.trans (List.dropLast_prefix _))
    have hlength := hway.length_le
    rw [heq, List.length_dropLast] at hlength
    have hpos := List.length_pos_iff.mpr hplace.ne_nil
    omega
  · have hnone : c way = none := Option.not_isSome_iff_eq_none.mp hc
    by_cases hnil : way = []
    · rw [hnil, List.append_nil, h.root] at hentry
      cases hentry
    · by_cases hleads : c.Leads way
      · rw [h.directory hleads] at hentry
        cases hentry
      · rw [h.nothing hnil hnone hleads] at hentry
        cases hentry

end IsTreeOf

/-! ## One file -/

/-- A file can be written where nothing is in the way. -/
theorem writeFile_ok {d : Disk} {root : Path} {base : Location} {f : String × String}
    (hf : (Path.parse f.1).IsInner) (hbase : d.locate root = .ok base)
    (hroot : d.entry? base = some .directory) (hopen : IsOpen d base (Path.parse f.1).parts.dropLast)
    (hfree : d.entry? (base ++ (Path.parse f.1).parts) ≠ some .directory) :
    (writeFile d (target root f) f.2).result = .ok (target root f) := by
  have hdots : ".." ∉ (Path.parse f.1).parts.dropLast := fun hmem =>
    hf.noDots (List.dropLast_subset _ hmem)
  have hparent : (target root f).parent =
      ⟨root.anchor, root.parts ++ (Path.parse f.1).parts.dropLast⟩ := Path.parent_join root hf
  have hmade := makeDirectories_ok hbase hroot hdots hopen
  have hattempts := attempts_makeDirectories d (target root f).parent
  rw [hparent] at hattempts
  rw [writeFile, hparent]
  generalize d.makeDirectories _ = outcome at hmade hattempts
  obtain ⟨d₁, result⟩ := outcome
  cases hmade
  have hkeep : KeepsDirectories d d₁ := hattempts.grows.keepsDirectories
  have hl : d₁.locate (target root f) = .ok (base ++ (Path.parse f.1).parts) := by
    have hname : (Path.parse f.1).parts.getLast hf.parts ≠ ".." := fun hlast =>
      hf.noDots (hlast ▸ List.getLast_mem hf.parts)
    obtain ⟨k, hk, hl⟩ := locate_concat hname (hattempts.made rfl)
    obtain ⟨base', hbase', rfl⟩ := locate_append hdots hk
    rwa [Except.ok.inj (hbase'.symm.trans (hkeep.locate hbase)), List.append_assoc,
      List.append_assoc, List.dropLast_append_getLast, ← Path.join_of_isInner root hf] at hl
  have hentry : d₁.entry? (base ++ (Path.parse f.1).parts) ≠ some .directory := by
    rcases hattempts.grows.entry (base ++ (Path.parse f.1).parts) with hsame | ⟨habove, -, -⟩
    · rwa [hsame]
    · rwa [entry_of_isAbove hbase hkeep hdots habove fun hinto => ?_]
      have hlength := hinto.length_le
      rw [List.length_dropLast] at hlength
      have hpos := List.length_pos_iff.mpr hf.parts
      omega
  have hdiffers : ∃ changed, differs d₁ (target root f) f.2 = .ok changed := by
    rw [differs]
    split
    · rename_i hpresent
      rw [isPresent, stat?, hl] at hpresent
      obtain ⟨e, he⟩ := Option.isSome_iff_exists.mp hpresent
      cases e with
      | directory => exact absurd he hentry
      | file bytes =>
        rw [readLossyText, read_of_entry hl he]
        exact ⟨_, rfl⟩
    · exact ⟨_, rfl⟩
  obtain ⟨changed, hchanged⟩ := hdiffers
  dsimp only
  rw [hchanged]
  dsimp only
  rw [writeText_ok_of_locate hl hentry f.2]

namespace IsTreeOf

variable {base : Location} {c : Contents} {d : Disk} {root : Path}

/-- A file is laid over what is there. -/
theorem writeFile {f : String × String} (h : IsTreeOf base c d) (hbase : d.locate root = .ok base)
    (hf : (Path.parse f.1).IsInner) (hplace : IsFilePlace (Path.parse f.1).parts) :
    (Project.writeFile d (target root f) f.2).result = .ok (target root f) ∧
      (Project.writeFile d (target root f) f.2).disk.locate root = .ok base ∧
        IsTreeOf base (Function.update c (Path.parse f.1).parts (some f.2))
          (Project.writeFile d (target root f) f.2).disk := by
  have hok := writeFile_ok hf hbase h.root (h.isOpen hplace) (h.entry_ne_directory hplace)
  obtain ⟨hkeep, hway⟩ := changesOnWay_writeFile root f d
  have hdelivers := delivers_writeFile root hf d
  refine ⟨hok, hkeep.locate hbase, ?_⟩
  rw [hok] at hdelivers
  generalize (Project.writeFile d (target root f) f.2).disk = d' at hkeep hway hdelivers ⊢
  obtain ⟨l, hl, hfile⟩ : ∃ l, d'.locate (target root f) = .ok l ∧
      d'.entry? l = some (.file (Text.Utf8.encode f.2)) := by
    rcases hdelivers with ⟨-, hdelivers⟩ | ⟨e, he, -⟩
    · exact hdelivers.holds f (List.mem_singleton_self f)
    · exact (error_ne_ok he.symm).elim
  rw [target, Path.join_of_isInner root hf] at hl
  obtain ⟨base', hbase', rfl⟩ := locate_append hf.noDots hl
  rw [Except.ok.inj (hbase'.symm.trans (hkeep.locate hbase))] at hfile
  -- An entry is a directory on the way to the file, or it is as it was, apart from the file.
  have hon : ∀ {way}, way <+: (Path.parse f.1).parts → way ≠ (Path.parse f.1).parts →
      d'.entry? (base ++ way) = some .directory := fun hinto hne =>
    directory_on_way (hkeep.locate hbase) hf.noDots hl hinto hne
  have hoff : ∀ {way}, ¬way <+: (Path.parse f.1).parts →
      d'.entry? (base ++ way) = d.entry? (base ++ way) := by
    intro way hinto
    refine entry_off_way (fun g hg => ?_) hbase hkeep hway fun g hg => ?_
    · rwa [List.mem_singleton.mp hg]
    · rwa [List.mem_singleton.mp hg]
  generalize (Path.parse f.1).parts = q at hplace hfile hon hoff ⊢
  have hsome : ∀ {place}, (Function.update c q (some f.2) place).isSome = true ↔
      place = q ∨ (c place).isSome = true := by
    intro place
    by_cases hq : place = q
    · simp [hq]
    · simp [hq]
  refine
    { places := fun hc => (hsome.mp hc).elim (fun hq => hq ▸ hplace) h.places
      root := hkeep.directory _ h.root
      file := ?text
      directory := ?directory
      nothing := ?nothing }
  case text =>
    intro place text hc
    by_cases hq : place = q
    · subst hq
      rw [Function.update_self] at hc
      rw [hfile, Option.some.inj hc]
    · rw [Function.update_of_ne hq] at hc
      have hplaces := h.places (Option.isSome_iff_exists.mpr ⟨text, hc⟩)
      rw [hoff fun hinto => hq (hplaces.eq_of_way hplace hinto)]
      exact h.file hc
  case directory =>
    rintro way ⟨place, hinto, hne, hc⟩
    by_cases hway : way <+: q
    · refine hon hway fun hq => ?_
      subst hq
      -- Where a file stands it is not on the way to another.
      rcases hsome.mp hc with hq | hc
      · exact hne hq.symm
      · exact h.not_leads hplace ⟨place, hinto, hne, hc⟩
    · rw [hoff hway]
      rcases hsome.mp hc with rfl | hc
      · exact absurd hinto hway
      · exact h.directory ⟨place, hinto, hne, hc⟩
  case nothing =>
    intro place hne hc hleads
    have hq : place ≠ q := by
      rintro rfl
      rw [Function.update_self] at hc
      cases hc
    rw [Function.update_of_ne hq] at hc
    rw [hoff fun hinto => hleads ⟨q, hinto, hq, hsome.mpr (.inl rfl)⟩]
    refine h.nothing hne hc ?_
    rintro ⟨further, hinto, hne, hsome'⟩
    exact hleads ⟨further, hinto, hne, hsome.mpr (.inr hsome')⟩

end IsTreeOf

/-! ## Files -/

/-- The contents after files were written. -/
def Contents.overlay (c : Contents) (files : List (String × String)) : Contents :=
  files.foldl (fun c f => Function.update c (Path.parse f.1).parts (some f.2)) c

namespace Contents

variable {c : Contents} {files : List (String × String)} {place : List String}

theorem overlay_cons (c : Contents) (f : String × String) (files : List (String × String)) :
    c.overlay (f :: files) = overlay (Function.update c (Path.parse f.1).parts (some f.2)) files := rfl

theorem overlay_of_not_mem (h : ∀ f ∈ files, (Path.parse f.1).parts ≠ place) :
    c.overlay files place = c place := by
  induction files generalizing c with
  | nil => rfl
  | cons f files ih =>
    rw [List.forall_mem_cons] at h
    rw [overlay_cons, ih h.2, Function.update_of_ne (Ne.symm h.1)]

theorem overlay_of_mem (hapart : AreApart files) {f : String × String} (hf : f ∈ files) :
    c.overlay files (Path.parse f.1).parts = some f.2 := by
  induction files generalizing c with
  | nil => exact absurd hf List.not_mem_nil
  | cons g files ih =>
    have hrest := hapart.sublist (List.sublist_cons_self g files)
    rw [overlay_cons]
    rcases List.mem_cons.mp hf with rfl | hf
    · rw [overlay_of_not_mem, Function.update_self]
      intro g hg heq
      have hall : AreApart ([f] ++ files) := hapart
      have hparse := Path.ext_of_isInner (hrest.inner g hg) (hapart.inner f List.mem_cons_self) heq
      exact hall.parse_ne f (List.mem_singleton_self f) g hg hparse.symm
    · exact ih hrest hf

theorem isSome_overlay : (c.overlay files place).isSome = true ↔
    (c place).isSome = true ∨ ∃ f ∈ files, (Path.parse f.1).parts = place := by
  induction files generalizing c with
  | nil => simp [overlay]
  | cons f files ih =>
    rw [overlay_cons, ih]
    by_cases hf : (Path.parse f.1).parts = place
    · simp [hf]
    · simp [hf, Function.update_of_ne (Ne.symm hf)]

theorem leads_overlay {way : List String} : (c.overlay files).Leads way ↔
    c.Leads way ∨ ∃ f ∈ files, way <+: (Path.parse f.1).parts ∧ way ≠ (Path.parse f.1).parts := by
  constructor
  · rintro ⟨place, hinto, hne, hsome⟩
    rcases isSome_overlay.mp hsome with hsome | ⟨f, hf, rfl⟩
    · exact .inl ⟨place, hinto, hne, hsome⟩
    · exact .inr ⟨f, hf, hinto, hne⟩
  · rintro (⟨place, hinto, hne, hsome⟩ | ⟨f, hf, hinto, hne⟩)
    · exact ⟨place, hinto, hne, isSome_overlay.mpr (.inl hsome)⟩
    · exact ⟨_, hinto, hne, isSome_overlay.mpr (.inr ⟨f, hf, rfl⟩)⟩

end Contents

/-- Files that have a dot in their names can all be written into a tree of such files. -/
theorem IsTreeOf.writeFiles {base : Location} {c : Contents} {d : Disk} {root : Path}
    {files : List (String × String)} (h : IsTreeOf base c d) (hbase : d.locate root = .ok base)
    (hinner : ∀ f ∈ files, (Path.parse f.1).IsInner)
    (hplaces : ∀ f ∈ files, IsFilePlace (Path.parse f.1).parts) :
    (Project.writeFiles d root files).result = .ok (files.map (target root)) ∧
      (Project.writeFiles d root files).disk.locate root = .ok base ∧
        IsTreeOf base (c.overlay files) (Project.writeFiles d root files).disk := by
  induction files generalizing c d with
  | nil => exact ⟨rfl, hbase, h⟩
  | cons f files ih =>
    rw [List.forall_mem_cons] at hinner hplaces
    obtain ⟨hfirst, hbase', h'⟩ := h.writeFile hbase hinner.1 hplaces.1
    obtain ⟨hrest, hbase'', h''⟩ := ih h' hbase' hinner.2 hplaces.2
    rw [writeFiles_cons]
    rw [show root.join (Path.parse f.1) = target root f from rfl, hfirst]
    dsimp only
    rw [hrest]
    exact ⟨rfl, hbase'', h''⟩

end Project
end Groundplan
