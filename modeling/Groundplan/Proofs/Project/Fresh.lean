/-
Writing a project into an empty directory.

The entries of a disk change only on the way to the files that are written.  In a
directory that was empty there is therefore nothing afterwards but these files and the
directories that lead to them, and what is found there can be told from the paths of the
project alone.
-/
import Groundplan.Proofs.Project.Writing
import Groundplan.Proofs.Storage.Making
import Groundplan.Proofs.Text.Utf8

namespace Groundplan
namespace Storage
namespace Disk

/-- A path leads to a directory with nothing in it. -/
def IsEmptyDirectory (d : Disk) (p : Path) : Prop :=
  ∃ base, d.locate p = .ok base ∧ d.entry? base = some .directory ∧
    ∀ l, base <+: l → l ≠ base → d.entry? l = none

end Disk
end Storage

namespace Project

open Storage Storage.Disk

/-! ## What changes -/

/-- Entries have changed only on the way to files. -/
def ChangesOnWay (root : Path) (files : List (String × String)) (d d' : Disk) : Prop :=
  ∀ l, d'.entry? l = d.entry? l ∨ ∃ f ∈ files, IsAbove d' (target root f) l

theorem changesOnWay_writeFile (root : Path) (f : String × String) (d : Disk) :
    KeepsDirectories d (writeFile d (target root f) f.2).disk ∧
      ChangesOnWay root [f] d (writeFile d (target root f) f.2).disk := by
  have hmade := (attempts_makeDirectories d (target root f).parent).grows
  rw [writeFile]
  generalize d.makeDirectories (target root f).parent = outcome at hmade ⊢
  obtain ⟨d₁, made⟩ := outcome
  have hparts : (target root f).parent.parts <+: (target root f).parts := List.dropLast_prefix _
  have hway : ∀ d₂, KeepsDirectories d₁ d₂ →
      (∀ l, d₂.entry? l = d₁.entry? l ∨ d₂.locate (target root f) = .ok l) →
        ChangesOnWay root [f] d d₂ := by
    intro d₂ hkeep hwrite l
    rcases hwrite l with hsame | hl
    · rw [hsame]
      refine (hmade.entry l).imp_right fun hmoved => ⟨f, List.mem_singleton_self f, ?_⟩
      exact hmoved.1.mono hkeep rfl hparts
    · exact .inr ⟨f, List.mem_singleton_self f, isAbove_self hl⟩
  have hstop := hway d₁ (.refl d₁) fun _ => .inl rfl
  cases made with
  | error failure => exact ⟨hmade.keepsDirectories, hstop⟩
  | ok made =>
    dsimp only
    cases differs d₁ (target root f) f.2 with
    | error e => exact ⟨hmade.keepsDirectories, hstop⟩
    | ok changed =>
      dsimp only
      cases hwrite : d₁.writeText (target root f) f.2 with
      | error e => exact ⟨hmade.keepsDirectories, hstop⟩
      | ok d₂ =>
        have hkeep := keepsDirectories_of_writeText hwrite
        obtain ⟨-, l, hl, -, hothers⟩ := wrote_of_writeText hwrite
        refine ⟨hmade.keepsDirectories.trans hkeep, hway d₂ hkeep fun k => ?_⟩
        by_cases hkl : k = l
        · rw [hkl]
          exact .inr (hkeep.locate hl)
        · exact .inl (hothers k hkl)

theorem changesOnWay_writeFiles (root : Path) (files : List (String × String)) (d : Disk) :
    KeepsDirectories d (writeFiles d root files).disk ∧
      ChangesOnWay root files d (writeFiles d root files).disk := by
  induction files generalizing d with
  | nil => exact ⟨.refl d, fun _ => .inl rfl⟩
  | cons f files ih =>
    obtain ⟨hkeep, hfirst⟩ := changesOnWay_writeFile root f d
    rw [writeFiles_cons]
    rw [show root.join (Path.parse f.1) = target root f from rfl]
    generalize writeFile d (target root f) f.2 = w at hkeep hfirst ⊢
    have hlift : ∀ d₂, KeepsDirectories w.disk d₂ → ChangesOnWay root files w.disk d₂ →
        ChangesOnWay root (f :: files) d d₂ := by
      intro d₂ hkeep₂ hrest l
      rcases hrest l with hsame | ⟨g, hg, habove⟩
      · rw [hsame]
        refine (hfirst l).imp_right ?_
        rintro ⟨g, hg, habove⟩
        rw [List.mem_singleton.mp hg] at habove
        exact ⟨f, List.mem_cons_self, habove.mono hkeep₂ rfl (List.prefix_refl _)⟩
      · exact .inr ⟨g, List.mem_cons_of_mem f hg, habove⟩
    cases w.result with
    | error e => exact ⟨hkeep, hlift w.disk (.refl _) fun _ => .inl rfl⟩
    | ok path =>
      obtain ⟨hkeep₂, hrest⟩ := ih w.disk
      exact ⟨hkeep.trans hkeep₂, hlift _ hkeep₂ hrest⟩

/-- Below the root a place is only changed if it is on the way to a file. -/
theorem entry_off_way {d d' : Disk} {root : Path} {files : List (String × String)} {base : Location}
    {parts : List String} (hinner : ∀ f ∈ files, (Path.parse f.1).IsInner)
    (hbase : d.locate root = .ok base) (hkeep : KeepsDirectories d d')
    (hway : ChangesOnWay root files d d') (hoff : ∀ f ∈ files, ¬parts <+: (Path.parse f.1).parts) :
    d'.entry? (base ++ parts) = d.entry? (base ++ parts) := by
  rcases hway (base ++ parts) with hsame | ⟨f, hf, habove⟩
  · exact hsame
  · rw [target, Path.join_of_isInner root (hinner f hf)] at habove
    exact entry_of_isAbove hbase hkeep (hinner f hf).noDots habove (hoff f hf)

theorem disk_write (d : Disk) (root : Path) (p : Project) :
    (write d root p).disk = (writeFiles d root p.files).disk := by
  rw [write]
  dsimp only
  cases (writeFiles d root p.files).result <;> rfl

theorem result_write (d : Disk) (root : Path) (p : Project) :
    (write d root p).result = (writeFiles d root p.files).result := by
  rw [write]
  dsimp only
  cases h : (writeFiles d root p.files).result <;> rfl

theorem files_of_no_modules {p : Project} (h : p.modules = []) : p.files =
    [("provider.tf", p.root.provider), ("variables.tf", p.root.inputs), ("main.tf", p.root.main)] := by
  rw [files, h]
  rfl

/-- What stands in a directory that was empty stands on the way to a file. -/
theorem exists_of_fresh {d : Disk} {root : Path} {p : Project} {base l : Location} {entry : Entry}
    (hapart : AreApart p.files) (hbase : d.locate root = .ok base)
    (hempty : ∀ l, base <+: l → l ≠ base → d.entry? l = none) (hin : base <+: l) (hne : l ≠ base)
    (hl : (write d root p).disk.entry? l = some entry) :
    ∃ f ∈ p.files, ∃ parts, parts <+: (Path.parse f.1).parts ∧ l = base ++ parts := by
  obtain ⟨hkeep, hway⟩ := changesOnWay_writeFiles root p.files d
  obtain ⟨parts, rfl⟩ := hin
  rw [disk_write] at hl
  by_contra hnone
  have hoff : ∀ f ∈ p.files, ¬parts <+: (Path.parse f.1).parts := fun f hf hinto =>
    hnone ⟨f, hf, parts, hinto, rfl⟩
  rw [entry_off_way hapart.inner hbase hkeep hway hoff, hempty _ (List.prefix_append _ _) hne] at hl
  cases hl

/-! ## The paths of a project -/

/-- A file of a module, in directories whose names have no dot in them. -/
def IsModulePath (p : Path) : Prop :=
  ∃ above name, p = ⟨"", above ++ [name]⟩ ∧
    name ∈ ["provider.tf", "variables.tf", "main.tf", "outputs.tf"] ∧ ∀ a ∈ above, '.' ∉ a.toList

/-- The path of a file in a module, read. -/
theorem parse_modulePath {t : String} (ht : Text.isWorkloadName t = true) (name : String)
    (hname : name ∈ ["provider.tf", "variables.tf", "main.tf", "outputs.tf"]) :
    Path.parse ("modules/" ++ t ++ ("/" ++ name)) = ⟨"", ["modules", t, name]⟩ := by
  rw [modulePath_eq, Path.parse_intercalate (List.cons_ne_nil _ _)]
  rw [List.forall_mem_cons, List.forall_mem_cons, List.forall_mem_singleton]
  exact ⟨⟨by decide, by decide, by decide⟩, (isComponent_of_isWorkloadName ht).1,
    (isComponent_fileName name hname).1⟩

theorem parse_of_mem_modulePaths {t path : String} (ht : Text.isWorkloadName t = true)
    (h : path ∈ modulePaths t) :
    ∃ name ∈ ["provider.tf", "variables.tf", "main.tf", "outputs.tf"],
      Path.parse path = ⟨"", ["modules", t, name]⟩ := by
  simp only [modulePaths, List.mem_cons, List.not_mem_nil, or_false] at h
  rcases h with rfl | rfl | rfl
  · exact ⟨"variables.tf", by decide, parse_modulePath ht "variables.tf" (by decide)⟩
  · exact ⟨"main.tf", by decide, parse_modulePath ht "main.tf" (by decide)⟩
  · exact ⟨"outputs.tf", by decide, parse_modulePath ht "outputs.tf" (by decide)⟩

theorem isModulePath_of_mem_modulePaths {t path : String} (ht : Text.isWorkloadName t = true)
    (h : path ∈ modulePaths t) : IsModulePath (.parse path) := by
  have hdot : '.' ∉ t.toList := Text.not_mem_of_isName (by decide) (by decide) (by decide) ht
  obtain ⟨name, hname, hparse⟩ := parse_of_mem_modulePaths ht h
  refine ⟨["modules", t], name, hparse, hname, ?_⟩
  rw [List.forall_mem_cons, List.forall_mem_singleton]
  exact ⟨by decide, hdot⟩

theorem isModulePath_of_compiled {l : Module.Library} {spec : Spec} {options : Options}
    {s : Network.Subnets} {p : Project} (named : spec.Named) (h : IsCompiled l spec options s p) :
    ∀ f ∈ p.files, IsModulePath (.parse f.1) := by
  intro f hf
  have hmem : f.1 ∈ p.files.map Prod.fst := List.mem_map_of_mem hf
  rw [paths_of_compiled h] at hmem
  rcases List.mem_append.mp hmem with hroot | hmodule
  · have hname := List.mem_of_mem_take (i := 3) (l := ["provider.tf", "variables.tf", "main.tf", "outputs.tf"]) hroot
    have hparse := Path.parse_intercalate (List.cons_ne_nil f.1 [])
      (List.forall_mem_singleton.mpr (isComponent_fileName f.1 hname).1)
    rw [String.intercalate_singleton] at hparse
    exact ⟨[], f.1, hparse, hname, List.forall_mem_nil _⟩
  · obtain ⟨t, ht, hmodule⟩ := List.mem_flatMap.mp hmodule
    obtain ⟨w, hw, rfl⟩ := mem_distinctTypes.mp ht
    exact isModulePath_of_mem_modulePaths (named.types w hw) hmodule

end Project
end Groundplan
