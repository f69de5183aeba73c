/-
Generating again and again into one directory.

Nothing is ever deleted, so what stands in the directory has come from all the runs that
succeeded: each of them lays its files over what the earlier ones have left.  The contents
of the directory are therefore computed from the runs, `contents`, and every run leaves the
tree of its contents.  That there is nothing else in the directory is also why no run can
fail in writing.
-/
import Groundplan.Proofs.Project.Records
import Groundplan.Proofs.Project.Tree
import Groundplan.Proofs.Storage.Listing

namespace Groundplan
namespace Project

open Storage Storage.Disk

/-- What the generator is given when it is run. -/
structure Run where
  library : Module.Library
  disk : Disk
  specPath : Path
  out : Path
  options : Options

namespace Run

def outcome (r : Run) : Generation := generate r.library r.disk r.specPath r.out r.options

/-- The run succeeds with this project. -/
def Makes (r : Run) (p : Project) : Prop := r.outcome.result = .ok p

/-- The run succeeds, and its specification has a workload of this type. -/
def Uses (r : Run) (type : String) : Prop :=
  ∃ spec p, Spec.ofFile r.disk r.specPath = .ok spec ∧ r.Makes p ∧
    ∃ w ∈ spec.workloads, w.2.type = type

end Run

/-- Runs with the built-in templates, one after the other, that write into one directory,
which is empty at first.  Between them everything outside the directory may change, so also
the specifications. -/
inductive IsHistory (base : Location) : List Run → Disk → Prop
  | start {d : Disk} (there : d.entry? base = some .directory)
      (empty : ∀ l, base <+: l → l ≠ base → d.entry? l = none) : IsHistory base [] d
  | run {runs : List Run} {d : Disk} (r : Run) (before : IsHistory base runs d)
      (builtIn : IsBuiltIn r.library) (proper : r.disk.IsProper)
      (root : r.disk.locate r.out = .ok base)
      (untouched : ∀ l, base <+: l → r.disk.entry? l = d.entry? l) :
      IsHistory base (runs ++ [r]) r.outcome.disk

/-- The module comes from the last run that used its type. -/
def IsLastModule (runs : List Run) (m : ModuleFiles) : Prop :=
  ∃ before r after p, runs = before ++ r :: after ∧ r.Makes p ∧ m ∈ p.modules ∧
    ∀ r' ∈ after, ¬r'.Uses m.typeName

/-- What a directory has come to hold after these runs, none of which has failed in
writing.  It holds the project that was made last, which is what comes of its specification
alone.  There is a directory for every type that was ever used, and no other, with the files
that the last run that used it gave it.  The run that made the last project has warned, in
increasing order, of the types that it does not use and an earlier one did. -/
structure Accumulates (base : Location) (earlier later : List Run) (last : Run) (p : Project)
    (d : Disk) : Prop where
  stored : ∀ r ∈ earlier ++ last :: later, ∀ failure, r.outcome.result ≠ .error (.storage failure)
  compiled : ∃ spec, Spec.ofFile last.disk last.specPath = .ok spec ∧
    (compile .builtIn spec last.options).result = .ok p
  current : ∀ f ∈ p.files,
    d.entry? (base ++ (Path.parse f.1).parts) = some (.file (Text.Utf8.encode f.2))
  directories : ∀ t, d.entry? (base ++ ["modules", t]) = some .directory ↔
    ∃ r ∈ earlier ++ [last], r.Uses t
  modules : ∀ t, d.entry? (base ++ ["modules", t]) = some .directory →
    ∃ m, m.typeName = t ∧ IsLastModule (earlier ++ last :: later) m ∧
      ∀ f ∈ m.files,
        d.entry? (base ++ (Path.parse f.1).parts) = some (.file (Text.Utf8.encode f.2))
  warnings : ∃ names : List String, names.Pairwise (· < ·) ∧
    (∀ t, t ∈ names ↔ (∃ r ∈ earlier, r.Uses t) ∧ ¬last.Uses t) ∧
      last.outcome.records.filter isStale =
        names.map fun t => staleRecord ((last.out.child "modules").child t)

/-! ## Where the files of a project stand -/

theorem parts_of_mem_rootFiles {r : RootFiles} {f : String × String} (hf : f ∈ r.files) :
    ∃ name, (Path.parse f.1).parts = [name] := by
  have hname : f.1 ∈ ["provider.tf", "variables.tf", "main.tf"] := List.mem_map_of_mem (f := Prod.fst) hf
  have hparse := Path.parse_intercalate (List.cons_ne_nil f.1 [])
    (List.forall_mem_singleton.mpr (isComponent_fileName f.1 (List.mem_of_mem_take (i := 3) hname)).1)
  rw [String.intercalate_singleton] at hparse
  exact ⟨f.1, by rw [hparse]⟩

theorem parts_of_mem_moduleFiles {m : ModuleFiles} {f : String × String}
    (hm : Text.isWorkloadName m.typeName = true) (hf : f ∈ m.files) :
    ∃ name, (Path.parse f.1).parts = ["modules", m.typeName, name] := by
  have hpath : f.1 ∈ modulePaths m.typeName := List.mem_map_of_mem (f := Prod.fst) hf
  obtain ⟨name, -, hparse⟩ := parse_of_mem_modulePaths hm hpath
  exact ⟨name, by rw [hparse]⟩

section Compiled

variable {l : Module.Library} {spec : Spec} {options : Options} {s : Network.Subnets} {p : Project}

theorem isWorkloadName_of_mem_modules (named : spec.Named) (h : IsCompiled l spec options s p)
    {m : ModuleFiles} (hm : m ∈ p.modules) : Text.isWorkloadName m.typeName = true := by
  have ht : m.typeName ∈ distinctTypes spec := by
    rw [← typeNames_of_compiled h]
    exact List.mem_map_of_mem hm
  obtain ⟨w, hw, htype⟩ := mem_distinctTypes.mp ht
  rw [← htype]
  exact named.types w hw

theorem mem_modules_iff (h : IsCompiled l spec options s p) {t : String} :
    (∃ m ∈ p.modules, m.typeName = t) ↔ ∃ w ∈ spec.workloads, w.2.type = t := by
  rw [← mem_distinctTypes, ← typeNames_of_compiled h, List.mem_map]

/-- The directories that a project leads through are those of its types. -/
theorem leads_files_iff (named : spec.Named) (h : IsCompiled l spec options s p) {t : String} :
    (∃ f ∈ p.files, ["modules", t] <+: (Path.parse f.1).parts ∧
        ["modules", t] ≠ (Path.parse f.1).parts) ↔
      ∃ w ∈ spec.workloads, w.2.type = t := by
  rw [← mem_modules_iff h]
  constructor
  · rintro ⟨f, hf, hinto, -⟩
    rcases List.mem_append.mp hf with hf | hf
    · obtain ⟨name, hparts⟩ := parts_of_mem_rootFiles hf
      have hlength := hinto.length_le
      rw [hparts] at hlength
      exact absurd (show 2 ≤ 1 from hlength) (by decide)
    · obtain ⟨m, hm, hf⟩ := List.mem_flatMap.mp hf
      obtain ⟨name, hparts⟩ := parts_of_mem_moduleFiles (isWorkloadName_of_mem_modules named h hm) hf
      rw [hparts, List.cons_prefix_cons, List.cons_prefix_cons] at hinto
      exact ⟨m, hm, hinto.2.1.symm⟩
  · rintro ⟨m, hm, rfl⟩
    have hf : (m.path ++ "/main.tf", m.main) ∈ m.files := List.mem_cons_of_mem _ List.mem_cons_self
    obtain ⟨name, hparts⟩ := parts_of_mem_moduleFiles (isWorkloadName_of_mem_modules named h hm) hf
    refine ⟨_, List.mem_append_right _ (List.mem_flatMap.mpr ⟨m, hm, hf⟩), ?_⟩
    rw [hparts]
    exact ⟨⟨[name], rfl⟩, fun heq => nomatch heq⟩

end Compiled

/-! ## Modules that are not used any more -/

theorem isProper_writeFile {d : Disk} (h : d.IsProper) (path : Path) (content : String) :
    (writeFile d path content).disk.IsProper := by
  have hmade := h.makeDirectories path.parent
  rw [writeFile]
  generalize d.makeDirectories path.parent = outcome at hmade ⊢
  obtain ⟨d₁, made⟩ := outcome
  cases made with
  | error failure => exact hmade
  | ok made =>
    dsimp only
    cases differs d₁ path content with
    | error e => exact hmade
    | ok changed =>
      dsimp only
      cases hwrite : d₁.writeText path content with
      | error e => exact hmade
      | ok d₂ => exact hmade.writeText hwrite

theorem isProper_writeFiles {d : Disk} (h : d.IsProper) (root : Path)
    (files : List (String × String)) : (writeFiles d root files).disk.IsProper := by
  induction files generalizing d with
  | nil => exact h
  | cons f files ih =>
    have hfirst := isProper_writeFile h (root.join (Path.parse f.1)) f.2
    rw [writeFiles_cons]
    generalize writeFile d (root.join (Path.parse f.1)) f.2 = w at hfirst ⊢
    cases w.result with
    | error e => exact hfirst
    | ok path => exact ih hfirst

/-- The names that writing warns of are those of the directories of other types. -/
theorem IsTreeOf.staleNames {base : Location} {c : Contents} {d : Disk} {root : Path}
    (h : IsTreeOf base c d) (hproper : d.IsProper) (hbase : d.locate root = .ok base)
    (types : List String) :
    (Project.staleNames d root types).Pairwise (· < ·) ∧
      ∀ t, t ∈ Project.staleNames d root types ↔ c.Leads ["modules", t] ∧ t ∉ types := by
  have hl : d.locate (root.child "modules") = .ok (base ++ ["modules"]) := by
    rw [Path.child, locate_from hbase]
    exact walk_cons_ok_iff.mpr ⟨h.root, rfl⟩
  rw [Project.staleNames, hl]
  dsimp only
  split
  · refine ⟨List.pairwise_map.mpr ((pairwise_children hproper _).filter _), fun t => ?_⟩
    rw [List.mem_map, ← h.directory_iff (List.cons_ne_nil _ _),
      show base ++ ["modules", t] = base ++ ["modules"] ++ [t] from
        (List.append_assoc base ["modules"] [t]).symm,
      ← mem_children hproper]
    constructor
    · rintro ⟨⟨name, e⟩, hmem, rfl⟩
      obtain ⟨hmem, hkept⟩ := List.mem_filter.mp hmem
      simp only [Bool.and_eq_true, beq_iff_eq, Bool.not_eq_true', List.contains_eq_mem,
        decide_eq_false_iff_not] at hkept
      obtain ⟨rfl, htypes⟩ := hkept
      exact ⟨hmem, htypes⟩
    · rintro ⟨hmem, htypes⟩
      refine ⟨(t, .directory), List.mem_filter.mpr ⟨hmem, ?_⟩, rfl⟩
      simp [htypes]
  · rename_i hnone
    refine ⟨.nil, fun t => ⟨fun hmem => absurd hmem List.not_mem_nil, ?_⟩⟩
    rintro ⟨⟨place, ⟨rest, rfl⟩, -, hsome⟩, -⟩
    refine absurd (beq_iff_eq.mpr (h.directory ⟨_, ⟨t :: rest, rfl⟩, fun heq => ?_, hsome⟩)) hnone
    cases heq

/-! ## One run -/

section Generate

variable {base : Location} {c : Contents} {r : Run} {spec : Spec} {p : Project}

theorem Run.outcome_of_compiled (builtIn : IsBuiltIn r.library)
    (hspec : Spec.ofFile r.disk r.specPath = .ok spec)
    (hp : (compile .builtIn spec r.options).result = .ok p) :
    r.outcome =
      ⟨(compile r.library spec r.options).library, (write r.disk r.out p).disk,
        (compile r.library spec r.options).records ++ (write r.disk r.out p).records,
        ((write r.disk r.out p).result.map fun _ => p).mapError .storage⟩ := by
  rw [outcome, generate, hspec]
  dsimp only
  rw [(compile_of_isBuiltIn builtIn spec r.options).2, hp]

/-- A run either fails before it writes or comes to write. -/
theorem Run.fails_or_compiles (builtIn : IsBuiltIn r.library) :
    (r.outcome.disk = r.disk ∧ ∃ e, r.outcome.result = .error e ∧ ∀ failure, e ≠ .storage failure) ∨
      ∃ spec p, Spec.ofFile r.disk r.specPath = .ok spec ∧
        (compile .builtIn spec r.options).result = .ok p := by
  cases hspec : Spec.ofFile r.disk r.specPath with
  | error e =>
    rw [outcome, generate, hspec]
    refine .inl ⟨rfl, _, rfl, fun failure h => ?_⟩
    cases h
  | ok spec =>
    cases hp : (compile .builtIn spec r.options).result with
    | ok p => exact .inr ⟨spec, p, rfl, hp⟩
    | error e =>
      rw [outcome, generate, hspec]
      dsimp only
      rw [(compile_of_isBuiltIn builtIn spec r.options).2, hp]
      refine .inl ⟨rfl, _, rfl, fun failure h => ?_⟩
      cases h

/-- A project is that of its specification alone. -/
theorem Run.compiled_of_makes (builtIn : IsBuiltIn r.library) (h : r.Makes p) :
    ∃ spec, Spec.ofFile r.disk r.specPath = .ok spec ∧
      (compile .builtIn spec r.options).result = .ok p := by
  rw [Makes] at h
  rcases fails_or_compiles builtIn with ⟨-, e, he, -⟩ | ⟨spec, q, hspec, hq⟩
  · exact (error_ne_ok (he.symm.trans h)).elim
  · rw [outcome_of_compiled builtIn hspec hq] at h
    obtain ⟨paths, -, rfl⟩ := ok_of_exceptMap (ok_of_mapError h)
    exact ⟨spec, hspec, hq⟩

/-- A run that comes to write lays its files over what is there, and warns of what it does
not use. -/
theorem IsTreeOf.generate (h : IsTreeOf base c r.disk) (builtIn : IsBuiltIn r.library)
    (proper : r.disk.IsProper) (root : r.disk.locate r.out = .ok base)
    (hspec : Spec.ofFile r.disk r.specPath = .ok spec)
    (hp : (compile .builtIn spec r.options).result = .ok p) :
    r.Makes p ∧ IsTreeOf base (c.overlay p.files) r.outcome.disk ∧
      ∃ names : List String, names.Pairwise (· < ·) ∧
        (∀ t, t ∈ names ↔ c.Leads ["modules", t] ∧ ¬∃ w ∈ spec.workloads, w.2.type = t) ∧
          r.outcome.records.filter isStale =
            names.map fun t => staleRecord ((r.out.child "modules").child t) := by
  have named := (Spec.IsLoaded.file hspec).named
  obtain ⟨s, hs⟩ := compiled_of_builtIn hp
  have hplaces : ∀ f ∈ p.files, IsFilePlace (Path.parse f.1).parts := fun f hf =>
    isFilePlace_of_isModulePath (isModulePath_of_compiled named hs f hf)
  obtain ⟨hwritten, hbase, htree⟩ :=
    h.writeFiles root (areApart_of_compiled named hs).inner hplaces
  obtain ⟨hsorted, hnames⟩ := htree.staleNames (isProper_writeFiles proper r.out p.files) hbase
    (p.modules.map ModuleFiles.typeName)
  rw [Run.Makes, Run.outcome_of_compiled builtIn hspec hp]
  refine ⟨?_, by rwa [disk_write], _, hsorted, fun t => ?_, ?_⟩
  · rw [result_write, hwritten]
    rfl
  · rw [hnames, Contents.leads_overlay, leads_files_iff named hs, List.mem_map, mem_modules_iff hs]
    constructor
    · rintro ⟨hleads | hused, hunused⟩
      · exact ⟨hleads, hunused⟩
      · exact absurd hused hunused
    · rintro ⟨hleads, hunused⟩
      exact ⟨.inl hleads, hunused⟩
  · rw [List.filter_append, filter_isStale_write hwritten, staleRecords_eq,
      filter_isStale_eq_nil fun record hrecord =>
        (isRemark_compile builtIn spec r.options record hrecord).not_isStale]
    rfl

end Generate

theorem Run.isProper_outcome {r : Run} (builtIn : IsBuiltIn r.library) (proper : r.disk.IsProper) :
    r.outcome.disk.IsProper := by
  rcases r.fails_or_compiles builtIn with ⟨hdisk, -⟩ | ⟨spec, p, hspec, hp⟩
  · rwa [hdisk]
  · rw [outcome_of_compiled builtIn hspec hp, disk_write]
    exact isProper_writeFiles proper r.out p.files

theorem isWorkloadName_of_makes {r : Run} {p : Project} (builtIn : IsBuiltIn r.library)
    (h : r.Makes p) {m : ModuleFiles} (hm : m ∈ p.modules) : Text.isWorkloadName m.typeName = true := by
  obtain ⟨spec, hspec, hcompiled⟩ := r.compiled_of_makes builtIn h
  obtain ⟨s, hs⟩ := compiled_of_builtIn hcompiled
  exact isWorkloadName_of_mem_modules (Spec.IsLoaded.file hspec).named hs hm

theorem Run.not_uses {r : Run} (h : ∀ p, ¬r.Makes p) (t : String) : ¬r.Uses t :=
  fun ⟨_, p, _, hp, _⟩ => h p hp

theorem Run.uses_iff {r : Run} {spec : Spec} {p : Project}
    (hspec : Spec.ofFile r.disk r.specPath = .ok spec) (h : r.Makes p) {t : String} :
    r.Uses t ↔ ∃ w ∈ spec.workloads, w.2.type = t := by
  constructor
  · rintro ⟨spec', p', hspec', -, hw⟩
    rwa [Except.ok.inj (hspec.symm.trans hspec')]
  · exact fun hw => ⟨spec, p, hspec, h, hw⟩

/-! ## What the runs leave -/

/-- What a run that has succeeded lays over the contents. -/
def Run.lay (c : Contents) (r : Run) : Contents :=
  match r.outcome.result with
  | .ok p => c.overlay p.files
  | .error _ => c

/-- What comes of all runs. -/
def contents (runs : List Run) : Contents := runs.foldl Run.lay fun _ => none

namespace Run

variable {c : Contents} {r : Run} {p : Project}

theorem lay_of_makes (h : r.Makes p) : lay c r = c.overlay p.files := by
  rw [lay, show r.outcome.result = .ok p from h]

theorem lay_of_fails (h : ∀ p, ¬r.Makes p) : lay c r = c := by
  rw [lay]
  split
  · rename_i p hp
    exact absurd hp (h p)
  · rfl

/-- A run that does not use a type leaves the files of its module. -/
theorem lay_of_not_uses (builtIn : IsBuiltIn r.library) {t : String} (h : ¬r.Uses t)
    {place : List String} (hinto : ["modules", t] <+: place) (hne : ["modules", t] ≠ place) :
    lay c r place = c place := by
  by_cases hmakes : ∃ p, r.Makes p
  · obtain ⟨p, hp⟩ := hmakes
    obtain ⟨spec, hspec, hcompiled⟩ := compiled_of_makes builtIn hp
    obtain ⟨s, hs⟩ := compiled_of_builtIn hcompiled
    rw [uses_iff hspec hp, ← leads_files_iff (Spec.IsLoaded.file hspec).named hs] at h
    rw [lay_of_makes hp]
    refine Contents.overlay_of_not_mem fun f hf hplace => h ⟨f, hf, ?_⟩
    rw [hplace]
    exact ⟨hinto, hne⟩
  · rw [lay_of_fails (not_exists.mp hmakes)]

theorem leads_lay (builtIn : IsBuiltIn r.library) {t : String} :
    (lay c r).Leads ["modules", t] ↔ c.Leads ["modules", t] ∨ r.Uses t := by
  by_cases h : ∃ p, r.Makes p
  · obtain ⟨p, hp⟩ := h
    obtain ⟨spec, hspec, hcompiled⟩ := compiled_of_makes builtIn hp
    obtain ⟨s, hs⟩ := compiled_of_builtIn hcompiled
    rw [lay_of_makes hp, Contents.leads_overlay, uses_iff hspec hp,
      leads_files_iff (Spec.IsLoaded.file hspec).named hs]
  · rw [not_exists] at h
    rw [lay_of_fails h, or_iff_left (not_uses h t)]

end Run

theorem contents_concat (runs : List Run) (r : Run) :
    contents (runs ++ [r]) = Run.lay (contents runs) r := List.foldl_concat ..

/-- Runs that fail leave what there is. -/
theorem contents_append_of_fails (runs : List Run) {later : List Run}
    (failed : ∀ r ∈ later, ∀ p, ¬r.Makes p) : contents (runs ++ later) = contents runs := by
  induction later using List.reverseRecOn with
  | nil => rw [List.append_nil]
  | append_singleton later r ih =>
    rw [List.forall_mem_append, List.forall_mem_singleton] at failed
    rw [← List.append_assoc, contents_concat, Run.lay_of_fails failed.2, ih failed.1]

theorem leads_contents {runs : List Run} (builtIn : ∀ r ∈ runs, IsBuiltIn r.library) {t : String} :
    (contents runs).Leads ["modules", t] ↔ ∃ r ∈ runs, r.Uses t := by
  induction runs using List.reverseRecOn with
  | nil =>
    refine ⟨?_, fun ⟨_, hmem, _⟩ => absurd hmem List.not_mem_nil⟩
    rintro ⟨place, -, -, hsome⟩
    cases hsome
  | append_singleton runs r ih =>
    rw [List.forall_mem_append, List.forall_mem_singleton] at builtIn
    rw [contents_concat, Run.leads_lay builtIn.2, ih builtIn.1]
    simp [or_and_right, exists_or]

/-- Of every type that was used the files of the last module are left. -/
theorem exists_isLastModule {runs : List Run} (builtIn : ∀ r ∈ runs, IsBuiltIn r.library) {t : String}
    (used : ∃ r ∈ runs, r.Uses t) :
    ∃ m, m.typeName = t ∧ IsLastModule runs m ∧
      ∀ f ∈ m.files, contents runs (Path.parse f.1).parts = some f.2 := by
  induction runs using List.reverseRecOn with
  | nil =>
    obtain ⟨r, hmem, -⟩ := used
    exact absurd hmem List.not_mem_nil
  | append_singleton runs r ih =>
    rw [List.forall_mem_append, List.forall_mem_singleton] at builtIn
    rw [contents_concat]
    by_cases hnow : r.Uses t
    · obtain ⟨spec, p, hspec, hp, hw⟩ := hnow
      obtain ⟨spec', hspec', hcompiled⟩ := Run.compiled_of_makes builtIn.2 hp
      cases hspec.symm.trans hspec'
      obtain ⟨s, hs⟩ := compiled_of_builtIn hcompiled
      have hapart := areApart_of_compiled (Spec.IsLoaded.file hspec).named hs
      obtain ⟨m, hm, htype⟩ := (mem_modules_iff hs).mpr hw
      refine ⟨m, htype, ⟨runs, r, [], p, rfl, hp, hm, List.forall_mem_nil _⟩, fun f hf => ?_⟩
      rw [Run.lay_of_makes hp]
      exact Contents.overlay_of_mem hapart
        (List.mem_append_right _ (List.mem_flatMap.mpr ⟨m, hm, hf⟩))
    · have hbefore : ∃ r ∈ runs, r.Uses t := by
        obtain ⟨r', hmem, huses⟩ := used
        rcases List.mem_append.mp hmem with hmem | hmem
        · exact ⟨r', hmem, huses⟩
        · rw [List.mem_singleton.mp hmem] at huses
          exact absurd huses hnow
      obtain ⟨m, htype, ⟨before, r', after, p, hruns, hp, hm, hafter⟩, hfiles⟩ := ih builtIn.1 hbefore
      refine ⟨m, htype, ⟨before, r', after ++ [r], p, ?_, hp, hm, ?_⟩, fun f hf => ?_⟩
      · rw [hruns, List.append_assoc, List.cons_append]
      · rw [List.forall_mem_append, List.forall_mem_singleton, htype]
        exact ⟨htype ▸ hafter, hnow⟩
      · obtain ⟨name, hparts⟩ := parts_of_mem_moduleFiles
          (isWorkloadName_of_makes (builtIn.1 r' (hruns ▸ List.mem_append_right _ List.mem_cons_self))
            hp hm) hf
        rw [Run.lay_of_not_uses builtIn.2 hnow, hfiles f hf]
        · rw [hparts, htype]
          exact ⟨[name], rfl⟩
        · rw [hparts]
          exact fun heq => nomatch heq

/-! ## Histories -/

namespace IsHistory

variable {base : Location} {runs : List Run} {d : Disk}

theorem builtIn (h : IsHistory base runs d) : ∀ r ∈ runs, IsBuiltIn r.library := by
  induction h with
  | start => exact List.forall_mem_nil _
  | run r _ builtIn _ _ _ ih =>
    exact List.forall_mem_append.mpr ⟨ih, List.forall_mem_singleton.mpr builtIn⟩

/-- What stands in the directory is what the runs have left. -/
theorem isTreeOf (h : IsHistory base runs d) : IsTreeOf base (contents runs) d := by
  induction h with
  | start there empty => exact .empty there empty
  | run r _ builtIn proper root untouched ih =>
    have htree := ih.of_same untouched
    rw [contents_concat]
    rcases Run.fails_or_compiles builtIn with ⟨hdisk, e, he, -⟩ | ⟨spec, p, hspec, hp⟩
    · rw [hdisk, Run.lay_of_fails fun p hp => error_ne_ok (he.symm.trans hp)]
      exact htree
    · obtain ⟨hmakes, hleft, -⟩ := htree.generate builtIn proper root hspec hp
      rw [Run.lay_of_makes hmakes]
      exact hleft

/-- No run fails in writing. -/
theorem stored (h : IsHistory base runs d) :
    ∀ r ∈ runs, ∀ failure, r.outcome.result ≠ .error (.storage failure) := by
  induction h with
  | start => exact List.forall_mem_nil _
  | run r before builtIn proper root untouched ih =>
    refine List.forall_mem_append.mpr ⟨ih, List.forall_mem_singleton.mpr fun failure hfailure => ?_⟩
    rcases Run.fails_or_compiles builtIn with ⟨-, e, he, hstored⟩ | ⟨spec, p, hspec, hp⟩
    · exact hstored failure (Except.error.inj (he.symm.trans hfailure))
    · obtain ⟨hmakes, -⟩ := (before.isTreeOf.of_same untouched).generate builtIn proper root hspec hp
      exact error_ne_ok (hfailure.symm.trans hmakes)

/-- The last run, and what was before it. -/
theorem of_concat {r : Run} (h : IsHistory base (runs ++ [r]) d) :
    ∃ d₀, IsHistory base runs d₀ ∧ r.disk.IsProper ∧ r.disk.locate r.out = .ok base ∧
      ∀ l, base <+: l → r.disk.entry? l = d₀.entry? l := by
  generalize hall : runs ++ [r] = all at h
  cases h with
  | start => exact absurd hall (List.append_ne_nil_of_right_ne_nil _ (List.cons_ne_nil _ _))
  | run r' before builtIn proper root untouched =>
    obtain ⟨rfl, hr⟩ := List.append_inj' hall rfl
    cases hr
    exact ⟨_, before, proper, root, untouched⟩

/-- A run succeeds if its specification compiles. -/
theorem makes {r : Run} {spec : Spec} {p : Project} (h : IsHistory base (runs ++ [r]) d)
    (hspec : Spec.ofFile r.disk r.specPath = .ok spec)
    (hp : (compile .builtIn spec r.options).result = .ok p) : r.Makes p := by
  obtain ⟨d₀, hbefore, proper, root, untouched⟩ := h.of_concat
  have hbuiltIn := h.builtIn r (List.mem_append_right _ (List.mem_singleton_self r))
  exact ((hbefore.isTreeOf.of_same untouched).generate hbuiltIn proper root hspec hp).1

theorem of_append {later : List Run} (h : IsHistory base (runs ++ later) d) :
    ∃ d', IsHistory base runs d' := by
  induction later using List.reverseRecOn generalizing d with
  | nil =>
    rw [List.append_nil] at h
    exact ⟨d, h⟩
  | append_singleton later r ih =>
    rw [← List.append_assoc] at h
    obtain ⟨d₀, hbefore, -⟩ := h.of_concat
    exact ih hbefore

end IsHistory

/-- What any number of runs leave in a directory that nothing else is written to. -/
theorem accumulates_of_isHistory {base : Location} {earlier later : List Run} {last : Run}
    {p : Project} {d : Disk} (history : IsHistory base (earlier ++ last :: later) d)
    (made : last.Makes p) (failed : ∀ r ∈ later, ∀ q, ¬r.Makes q) :
    Accumulates base earlier later last p d := by
  have hsplit : earlier ++ last :: later = earlier ++ [last] ++ later := by
    rw [List.append_assoc, List.singleton_append]
  have hbuiltIn := history.builtIn
  have htree := history.isTreeOf
  rw [hsplit, contents_append_of_fails _ failed] at htree
  have hruns : ∀ r ∈ earlier ++ [last], IsBuiltIn r.library := fun r hr =>
    hbuiltIn r (hsplit ▸ List.mem_append_left later hr)
  have hlast := hruns last (List.mem_append_right _ (List.mem_singleton_self last))
  obtain ⟨spec, hspec, hcompiled⟩ := last.compiled_of_makes hlast made
  obtain ⟨s, hs⟩ := compiled_of_builtIn hcompiled
  have hdirectory : ∀ t, d.entry? (base ++ ["modules", t]) = some .directory ↔
      ∃ r ∈ earlier ++ [last], r.Uses t := fun t =>
    (htree.directory_iff (List.cons_ne_nil _ _)).trans (leads_contents hruns)
  refine
    { stored := history.stored
      compiled := ⟨spec, hspec, hcompiled⟩
      current := fun f hf => ?current
      directories := hdirectory
      modules := fun t ht => ?modules
      warnings := ?warnings }
  case current =>
    refine htree.file ?_
    rw [contents_concat, Run.lay_of_makes made]
    exact Contents.overlay_of_mem (areApart_of_compiled (Spec.IsLoaded.file hspec).named hs) hf
  case modules =>
    obtain ⟨r, hmem, huses⟩ := (hdirectory t).mp ht
    obtain ⟨m, htype, hm, hfiles⟩ := exists_isLastModule hbuiltIn
      ⟨r, hsplit ▸ List.mem_append_left later hmem, huses⟩
    refine ⟨m, htype, hm, fun f hf => htree.file ?_⟩
    rw [← contents_append_of_fails _ failed, ← hsplit]
    exact hfiles f hf
  case warnings =>
    rw [hsplit] at history
    obtain ⟨d₁, hthen⟩ := history.of_append
    obtain ⟨d₀, hbefore, proper, root, untouched⟩ := hthen.of_concat
    obtain ⟨-, -, names, hsorted, hnames, hrecords⟩ :=
      (hbefore.isTreeOf.of_same untouched).generate hlast proper root hspec hcompiled
    refine ⟨names, hsorted, fun t => ?_, hrecords⟩
    rw [hnames, leads_contents hbefore.builtIn, Run.uses_iff hspec made]

/-! ### Three runs -/

/-- A run with the specification that a text gives, which replaces the one before. -/
def runWith (d : Disk) (text : String) : Run where
  library := .builtIn
  disk := d.put ["spec.json"] (.file (Text.Utf8.encode text))
  specPath := ⟨"/", ["spec.json"]⟩
  out := ⟨"/", ["out"]⟩
  options := {}

theorem ofFile_runWith (d : Disk) (text : String) (h : '\r' ∉ text.toList) :
    Spec.ofFile (runWith d text).disk ⟨"/", ["spec.json"]⟩ =
      (Spec.ofJson "/spec.json" text).mapError .source := by
  have hstat : (runWith d text).disk.stat? ⟨"/", ["spec.json"]⟩ =
      some (.file (Text.Utf8.encode text)) :=
    entry?_put_self d (List.cons_ne_nil _ _) _
  rw [Spec.ofFile, hstat]
  dsimp only
  rw [Text.Utf8.decode_encode]
  dsimp only
  rw [Text.unifyNewlines_eq_self_iff.mpr h, String.ofList_toList, if_pos (by decide)]
  rfl

theorem IsHistory.concat_runWith {runs : List Run} {d : Disk} (h : IsHistory ["out"] runs d)
    (proper : d.IsProper) (text : String) :
    IsHistory ["out"] (runs ++ [runWith d text]) (runWith d text).outcome.disk ∧
      (runWith d text).outcome.disk.IsProper := by
  have hproper := proper.put ["spec.json"] (.file (Text.Utf8.encode text))
  refine ⟨.run _ h (.inl rfl) hproper rfl fun l hl => ?_, Run.isProper_outcome (.inl rfl) hproper⟩
  refine entry?_put_of_ne d (fun hspec => ?_) _
  rw [hspec, List.cons_prefix_cons] at hl
  exact absurd hl.1 (by decide)

/-- The text of a specification with one workload. -/
def bucketText : String := "\x7b\"workloads\":\x7b\"w\":\x7b\"type\":\"bucket\"\x7d\x7d\x7d"

theorem exists_of_bucketText : ∃ spec p, Spec.ofJson "/spec.json" bucketText = .ok spec ∧
    (compile .builtIn spec {}).result = .ok p ∧ ∃ w ∈ spec.workloads, w.2.type = "bucket" := by
  have htest : ((Spec.ofJson "/spec.json" bucketText).toOption.any fun spec =>
      spec.workloads.any (fun w => w.2.type == "bucket") && isCompilable spec) = true := by
    decide +kernel
  cases hspec : Spec.ofJson "/spec.json" bucketText with
  | error e =>
    rw [hspec] at htest
    cases htest
  | ok spec =>
    rw [hspec] at htest
    obtain ⟨hused, hcompilable⟩ := Bool.and_eq_true_iff.mp htest
    obtain ⟨p, hp⟩ := exists_compiled_of_isCompilable hcompilable
    obtain ⟨w, hw, htype⟩ := List.any_eq_true.mp hused
    exact ⟨spec, p, rfl, hp, w, hw, beq_iff_eq.mp htype⟩

/-- A type is used, then not any more, and then the specification is broken. -/
theorem accumulates_of_isHistory_bucket : ∃ first second third p d,
    IsHistory ["out"] [first, second, third] d ∧ first.Uses "bucket" ∧ second.Makes p ∧
      (∀ q, ¬third.Makes q) ∧ Accumulates ["out"] [first] [third] second p d := by
  have hempty : ∀ l, ["out"] <+: l → l ≠ ["out"] →
      Disk.entry? { entries := [(["out"], .directory)] } l = none := by
    intro l hl hne
    rw [entry?_of_ne_nil _ fun hnil => absurd hl (by rw [hnil]; decide), List.lookup_cons,
      beq_false_of_ne hne]
    rfl
  obtain ⟨hfirst, hproper⟩ := (IsHistory.start rfl hempty).concat_runWith
    (List.pairwise_singleton _ _) bucketText
  obtain ⟨hsecond, hproper⟩ := hfirst.concat_runWith hproper "\x7b\x7d"
  obtain ⟨hthird, -⟩ := hsecond.concat_runWith hproper "[]"
  obtain ⟨spec, p₁, hread, hp₁, hw⟩ := exists_of_bucketText
  have hused : ∀ d, Spec.ofFile (runWith d bucketText).disk ⟨"/", ["spec.json"]⟩ = .ok spec := by
    intro d
    rw [ofFile_runWith d bucketText (by decide), hread]
    rfl
  have hunused : ∀ d, Spec.ofFile (runWith d "\x7b\x7d").disk ⟨"/", ["spec.json"]⟩ = .ok {} :=
    fun d => ofFile_runWith d _ (by decide)
  have hfails : ∀ d q, ¬(runWith d "[]").Makes q := by
    intro d q hq
    obtain ⟨spec, hspec, -⟩ := Run.compiled_of_makes (.inl rfl) hq
    have hbroken := ofFile_runWith d "[]" (by decide)
    exact error_ne_ok (hbroken.symm.trans hspec)
  obtain ⟨p₂, hp₂⟩ : ∃ p, (compile .builtIn {} {}).result = .ok p :=
    exists_compiled ((show check {} = check hostile from rfl).trans check_hostile)
      (fun h => absurd h (by decide)) (by decide) (by decide)
  have hmakes := hsecond.makes (hunused _) hp₂
  exact ⟨_, _, _, p₂, _, hthird, ⟨spec, p₁, hused _, hfirst.makes (hused _) hp₁, hw⟩, hmakes, hfails _,
    accumulates_of_isHistory hthird hmakes (List.forall_mem_singleton.mpr (hfails _))⟩

end Project
end Groundplan
