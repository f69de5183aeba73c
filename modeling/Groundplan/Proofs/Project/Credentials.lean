/-
Where the master password comes from.

The choice between a password that the provider manages and one that is written into the
module reaches the templates and their warnings, so it could show anywhere in a project.
It shows in one paragraph of one file, and in one warning; a project with a managed
password has nothing of the other one in it.
-/
import Groundplan.Proofs.Hcl.Paragraphs
import Groundplan.Proofs.Project.Locality
import Groundplan.Proofs.Project.Report
import Groundplan.Proofs.Project.Success

namespace Groundplan
namespace Project

open Hcl

/-- The file in which the password is dealt with. -/
def databaseMain : String := "modules/database/main.tf"

/-- The comment and the attribute that depend on where the password comes from. -/
def credentialLines : Credentials → List String
  | .managed =>
    ["  # Password is generated by RDS and stored in AWS Secrets Manager",
      "  manage_master_user_password = true"]
  | .placeholder =>
    ["  # WARNING: hard-coded placeholder password, replace before production use",
      "  password = \"TemporaryPassword123!\""]

def HasDatabase (spec : Spec) : Prop := ∃ w ∈ spec.workloads, w.2.type = "database"

/-- Two texts that differ in the credential lines. -/
def DifferInLines (managed placeholder : String) : Prop :=
  ∃ before after,
    managed = before ++ (linesString (credentialLines .managed) ++ after) ∧
    placeholder = before ++ (linesString (credentialLines .placeholder) ++ after)

/-- Two files of one path, with one text unless it is the file that has the credential lines. -/
structure Corresponds (managed placeholder : String × String) : Prop where
  path : placeholder.1 = managed.1
  same : managed.1 ≠ databaseMain → placeholder.2 = managed.2
  lines : managed.1 = databaseMain → DifferInLines managed.2 placeholder.2

/-- Two projects of one specification that differ in where the password comes from. -/
structure DifferInCredentials (spec : Spec) (managed placeholder : Project) : Prop where
  name : placeholder.name = managed.name
  workloads : placeholder.workloads = managed.workloads
  missing : placeholder.report.missing = managed.report.missing
  ignored : placeholder.report.ignored = managed.report.ignored
  templates : placeholder.modules.map ModuleFiles.template = managed.modules.map ModuleFiles.template
  files : List.Forall₂ Corresponds managed.files placeholder.files
  database : databaseMain ∈ managed.files.map Prod.fst ↔ HasDatabase spec
  silent : managed.report.warnings = []
  /-- The placeholder is warned of once, however many databases there are. -/
  warned : HasDatabase spec → ∃ warning, placeholder.report.warnings = [warning]
  unwarned : ¬HasDatabase spec → placeholder.report.warnings = []

/-! ## Warnings -/

/-- Only databases have something to warn of. -/
theorem warnings_builtIn (credentials : Credentials) (t : String) :
    (Module.Library.builtIn.template t).warnings credentials =
      if t = "database" then Module.Database.warnings credentials else [] := by
  rw [template_builtIn]
  by_cases hcontainer : t = "container"
  · rw [if_pos hcontainer, hcontainer]
    rfl
  by_cases hfunction : t = "function"
  · rw [if_neg hcontainer, if_pos hfunction, hfunction]
    rfl
  rw [if_neg hcontainer, if_neg hfunction]
  by_cases hdatabase : t = "database"
  · rw [if_pos hdatabase, if_pos hdatabase]
    rfl
  · rw [if_neg hdatabase, if_neg hdatabase]
    rfl

theorem mem_templateWarnings {credentials : Credentials} {types : List String} {w : String} :
    w ∈ templateWarnings .builtIn credentials types ↔
      "database" ∈ types ∧ w ∈ Module.Database.warnings credentials := by
  rw [templateWarnings, List.mem_flatMap]
  simp only [warnings_builtIn]
  constructor
  · intro h
    obtain ⟨t, ht, hw⟩ := h
    by_cases hdatabase : t = "database"
    · rw [if_pos hdatabase] at hw
      exact ⟨hdatabase ▸ ht, hw⟩
    · rw [if_neg hdatabase] at hw
      cases hw
  · intro h
    exact ⟨"database", h.1, by rw [if_pos rfl]; exact h.2⟩

/-- A list without duplicates whose only member is known. -/
theorem eq_singleton_of_nodup {ws : List String} {w : String} (hnodup : ws.Nodup)
    (hmem : ∀ v, v ∈ ws ↔ v = w) : ws = [w] := by
  have hperm : ws.Perm [w] :=
    (List.perm_ext_iff_of_nodup hnodup (List.nodup_singleton w)).mpr fun v => by
      rw [hmem v, List.mem_singleton]
  exact List.perm_singleton.mp hperm

/-- However many databases there are, the warning is given once. -/
theorem warnings_of_database {credentials : Credentials} {types : List String}
    (h : "database" ∈ types) :
    newWarnings [] (templateWarnings .builtIn credentials types) =
      Module.Database.warnings credentials := by
  have hmem : ∀ v, v ∈ newWarnings [] (templateWarnings .builtIn credentials types) ↔
      v ∈ Module.Database.warnings credentials := by
    intro v
    rw [mem_newWarnings, mem_templateWarnings]
    simp [h]
  cases credentials with
  | managed =>
    refine List.eq_nil_iff_forall_not_mem.mpr fun v hv => ?_
    cases (hmem v).mp hv
  | placeholder =>
    exact eq_singleton_of_nodup (nodup_newWarnings _ _) fun v => (hmem v).trans List.mem_singleton

theorem warnings_without_database {credentials : Credentials} {types : List String}
    (h : "database" ∉ types) : newWarnings [] (templateWarnings .builtIn credentials types) = [] := by
  refine List.eq_nil_iff_forall_not_mem.mpr fun v hv => ?_
  rw [mem_newWarnings, mem_templateWarnings] at hv
  exact h hv.1.1

/-! ## The module of databases -/

/-- What is said of the instance in front of the password and behind it. -/
def instanceItems : List Item × List Item :=
  ([set "identifier" (Module.nameEnv ""),
      set "engine" (ref "var.engine"),
      set "engine_version" (ref "var.engine_version"),
      set "instance_class" (ref "var.instance"),
      set "allocated_storage" (ref "var.storage"),
      set "storage_type" (.text "gp2"),
      .blank,
      set "db_name" (ref "replace(var.name, \"-\", \"_\")"),
      set "username" (.text "dbadmin")],
    [set "vpc_security_group_ids" (.list [ref "aws_security_group.this.id"]),
      set "db_subnet_group_name" (ref "aws_db_subnet_group.this.name"),
      .blank,
      set "backup_retention_period" (ref "var.backup_retention"),
      set "skip_final_snapshot" (.bool true),
      .blank,
      Module.tags])

theorem databaseInstance_eq (credentials : Credentials) :
    Module.Database.databaseInstance credentials =
      .block "resource" ["aws_db_instance", "this"]
        (instanceItems.1 ++ (Module.Database.credentialItems credentials ++ .blank :: instanceItems.2)) := by
  cases credentials <;> rfl

theorem credentialItems_lines (credentials : Credentials) :
    bodyLines (0 + 1) none [] (Module.Database.credentialItems credentials) =
      .ok (credentialLines credentials) := by
  cases credentials with
  | managed =>
    have hvalue : renderValue (0 + 1) (.bool true) = .ok "true" := rfl
    refine (bodyLines_note _ _ _ hvalue).trans (congrArg Except.ok ?_)
    decide +kernel
  | placeholder =>
    have hvalue : renderValue (0 + 1) (.text Module.Database.placeholderPassword) =
        .ok "\"TemporaryPassword123!\"" := by
      rw [renderValue]
      exact congrArg Except.ok (by decide +kernel)
    refine (bodyLines_note _ _ _ hvalue).trans (congrArg Except.ok ?_)
    decide +kernel

theorem differ_of_database {project text text' : String}
    (h : IsTextOf project (Module.Database.resources .managed) text)
    (h' : IsTextOf project (Module.Database.resources .placeholder) text') :
    DifferInLines text text' := by
  let front : List Item :=
    [banner project, .blank, nested "locals" [set "port" (ref Module.Database.enginePort)]]
  let back : List Item := [Module.Database.subnetGroup, Module.Database.securityGroup]
  have hitems : ∀ c, (withBanner project (Module.Database.resources c)).items =
      front ++ Module.Database.databaseInstance c :: back := fun _ => rfl
  have hblock : ∀ c, HasBlock (withBanner project (Module.Database.resources c)).items :=
    fun c => ⟨_, _, _, List.mem_cons_of_mem _ (List.mem_cons_of_mem _ List.mem_cons_self)⟩
  obtain ⟨lines, hlines, rfl⟩ := render_ok h (hblock .managed)
  obtain ⟨lines', hlines', rfl⟩ := render_ok h' (hblock .placeholder)
  rw [hitems] at hlines
  rw [hitems] at hlines'
  obtain ⟨before, li, lj, after, hli, hlj, rfl, rfl⟩ := documentLines_items hlines hlines' rfl
  rw [databaseInstance_eq] at hli
  rw [databaseInstance_eq] at hlj
  obtain ⟨first, lp, lp', last, hlp, hlp', rfl, rfl⟩ := blockLines_paragraphs hli hlj rfl rfl
  have hmanaged : lp = credentialLines .managed :=
    Except.ok.inj (hlp.symm.trans (credentialItems_lines .managed))
  have hplaceholder : lp' = credentialLines .placeholder :=
    Except.ok.inj (hlp'.symm.trans (credentialItems_lines .placeholder))
  subst hmanaged hplaceholder
  refine ⟨linesString (before ++ first), linesString (last ++ after), ?_, ?_⟩
  · simp only [linesString_append, String.append_assoc]
  · simp only [linesString_append, String.append_assoc]

/-! ## Modules -/

/-- No other template asks where the password comes from. -/
theorem resources_builtIn {t : String} (h : t ≠ "database") (credentials credentials' : Credentials) :
    (Module.Library.builtIn.template t).resources credentials =
      (Module.Library.builtIn.template t).resources credentials' := by
  rw [template_builtIn]
  by_cases hcontainer : t = "container"
  · rw [if_pos hcontainer]
    rfl
  by_cases hfunction : t = "function"
  · rw [if_neg hcontainer, if_pos hfunction]
    rfl
  · rw [if_neg hcontainer, if_neg hfunction, if_neg h]
    rfl

theorem modulePath_ne_databaseMain {t file : String} (hmem : "modules/" ++ t ++ file ∈ modulePaths t)
    (hfile : "modules/" ++ "database" ++ file ≠ databaseMain) : "modules/" ++ t ++ file ≠ databaseMain := by
  intro h
  have hdatabase : databaseMain ∈ modulePaths "database" := by decide
  obtain rfl := modulePaths_inj hmem (h ▸ hdatabase)
  exact hfile h

theorem modulePath_eq_databaseMain {t : String} :
    "modules/" ++ t ++ "/main.tf" = databaseMain ↔ t = "database" := by
  have hmem : "modules/" ++ t ++ "/main.tf" ∈ modulePaths t := by simp [modulePaths]
  have hdatabase : databaseMain ∈ modulePaths "database" := by decide
  constructor
  · intro h
    exact modulePaths_inj hmem (h ▸ hdatabase)
  · intro h
    rw [h]
    decide

theorem corresponds_modules {project t : String} {m m' : ModuleFiles}
    (h : IsModuleOf project (Module.Library.builtIn.template t) .managed t m)
    (h' : IsModuleOf project (Module.Library.builtIn.template t) .placeholder t m') :
    List.Forall₂ Corresponds m.files m'.files := by
  have hinputs : "modules/" ++ t ++ "/variables.tf" ≠ databaseMain :=
    modulePath_ne_databaseMain (by simp [modulePaths]) (by decide)
  have houtputs : "modules/" ++ t ++ "/outputs.tf" ≠ databaseMain :=
    modulePath_ne_databaseMain (by simp [modulePaths]) (by decide)
  rw [ModuleFiles.files, ModuleFiles.files, ModuleFiles.path, ModuleFiles.path, h.typeName, h'.typeName]
  refine .cons ⟨rfl, fun _ => h.inputs.eq h'.inputs, fun heq => absurd heq hinputs⟩
    (.cons ⟨rfl, ?same, ?lines⟩
      (.cons ⟨rfl, fun _ => h.outputs.eq h'.outputs, fun heq => absurd heq houtputs⟩ .nil))
  case same =>
    intro hpath
    have ht : t ≠ "database" := mt modulePath_eq_databaseMain.mpr hpath
    have hmain := h'.main
    rw [resources_builtIn ht .placeholder .managed] at hmain
    exact h.main.eq hmain
  case lines =>
    intro hpath
    obtain rfl := modulePath_eq_databaseMain.mp hpath
    exact differ_of_database h.main h'.main

theorem corresponds_allModules {project : String} {types : List String} {ms ms' : List ModuleFiles}
    (h : List.Forall₂ (fun t m =>
      IsModuleOf project (Module.Library.builtIn.template t) .managed t m) types ms)
    (h' : List.Forall₂ (fun t m =>
      IsModuleOf project (Module.Library.builtIn.template t) .placeholder t m) types ms') :
    List.Forall₂ Corresponds (ms.flatMap ModuleFiles.files) (ms'.flatMap ModuleFiles.files) ∧
      ms'.map ModuleFiles.template = ms.map ModuleFiles.template := by
  induction h generalizing ms' with
  | nil =>
    cases h'
    exact ⟨.nil, rfl⟩
  | cons hfirst _ ih =>
    cases h' with
    | cons hfirst' hrest' =>
      have hrest := ih hrest'
      refine ⟨?_, ?_⟩
      · rw [List.flatMap_cons, List.flatMap_cons]
        exact List.rel_append (corresponds_modules hfirst hfirst') hrest.1
      · rw [List.map_cons, List.map_cons, hrest.2, hfirst.template, hfirst'.template]

theorem corresponds_root (root : RootFiles) : List.Forall₂ Corresponds root.files root.files := by
  have hself : ∀ path text : String, path ≠ databaseMain → Corresponds (path, text) (path, text) :=
    fun _ _ hpath => ⟨rfl, fun _ => rfl, fun heq => absurd heq hpath⟩
  exact .cons (hself "provider.tf" _ (by decide))
    (.cons (hself "variables.tf" _ (by decide)) (.cons (hself "main.tf" _ (by decide)) .nil))

/-! ## Both ways of compiling -/

theorem outcome_without_result {strict : Bool} {spec : Spec} {f : Fault} {credentials : Credentials}
    (h : outcome strict credentials spec = .error f) (credentials' : Credentials) :
    outcome strict credentials' spec = .error f := by
  cases hs : check spec with
  | error e =>
    rw [outcome, result_of_check_error hs] at h ⊢
    exact h
  | ok s =>
    by_cases hcomplete : strict = true → missingFields (bindAll .builtIn spec) = []
    · obtain ⟨modules, -, hresult⟩ := exists_result { strict, credentials } hs hcomplete
      obtain ⟨modules', -, hresult'⟩ :=
        exists_result { strict, credentials := credentials' } hs hcomplete
      rw [outcome, hresult] at h
      rw [outcome, hresult']
      cases hroot : rootFiles spec s (bindAll .builtIn spec) with
      | ok root =>
        rw [hroot] at h
        cases h
      | error e =>
        rw [hroot] at h
        cases h
        rfl
    · obtain ⟨hstrict, hmissing⟩ := Classical.not_imp.mp hcomplete
      rw [outcome, result_of_incomplete hs hstrict hmissing] at h ⊢
      exact h

theorem differ_of_outcome {strict : Bool} {spec : Spec} {p p' : Project}
    (h : outcome strict .managed spec = .ok p) (h' : outcome strict .placeholder spec = .ok p') :
    DifferInCredentials spec p p' := by
  obtain ⟨s, hs⟩ := compiled_of_builtIn h
  have hcomplete := hs.complete
  obtain ⟨modules, hmodules, hresult⟩ :=
    exists_result { strict, credentials := .managed } hs.checked hcomplete
  obtain ⟨modules', hmodules', hresult'⟩ :=
    exists_result { strict, credentials := .placeholder } hs.checked hcomplete
  have hpaths := paths_of_compiled hs
  rw [outcome, hresult] at h
  rw [outcome, hresult'] at h'
  cases hroot : rootFiles spec s (bindAll .builtIn spec) with
  | error f =>
    rw [hroot] at h
    cases h
  | ok root =>
    rw [hroot] at h h'
    cases h
    cases h'
    obtain ⟨hfiles, htemplates⟩ := corresponds_allModules hmodules hmodules'
    have hdatabase : "database" ∈ distinctTypes spec ↔ HasDatabase spec := mem_distinctTypes
    refine
      { name := rfl
        workloads := rfl
        missing := rfl
        ignored := rfl
        templates := htemplates
        files := List.rel_append (corresponds_root root) hfiles
        database := ?database
        silent := ?silent
        warned := fun hspec => ⟨_, warnings_of_database (hdatabase.mpr hspec)⟩
        unwarned := fun hspec => warnings_without_database (mt hdatabase.mp hspec) }
    case database =>
      have hmem : databaseMain ∈ modulePaths "database" := by decide
      rw [hpaths, mem_modulePaths_iff hmem]
      exact hdatabase
    case silent =>
      by_cases hspec : HasDatabase spec
      · exact warnings_of_database (hdatabase.mpr hspec)
      · exact warnings_without_database (mt hdatabase.mp hspec)

/-- Where the password comes from decides about the credential lines and the warning, and
about nothing else. -/
theorem credentials_decide (spec : Spec) (strict : Bool) :
    (∃ f, outcome strict .managed spec = .error f ∧ outcome strict .placeholder spec = .error f) ∨
    ∃ p p', outcome strict .managed spec = .ok p ∧ outcome strict .placeholder spec = .ok p' ∧
      DifferInCredentials spec p p' := by
  cases hmanaged : outcome strict .managed spec with
  | error f => exact .inl ⟨f, rfl, outcome_without_result hmanaged .placeholder⟩
  | ok p =>
    cases hplaceholder : outcome strict .placeholder spec with
    | error f =>
      rw [outcome_without_result hplaceholder .managed] at hmanaged
      cases hmanaged
    | ok p' => exact .inr ⟨p, p', rfl, rfl, differ_of_outcome hmanaged hplaceholder⟩

end Project
end Groundplan
