/-
Insisting on required fields.

A field that a workload lacks is bound as a stand-in and reported, or refused if the
compilation is strict.  The two ways of compiling differ in nothing else: what a strict
compilation refuses is what the other one reports, and what the other one makes of a
lacking specification is what the strict one makes of it once the stand-ins are written
into the specification.
-/
import Groundplan.Proofs.Project.Locality
import Groundplan.Proofs.Project.Report
import Groundplan.Proofs.Project.Success

namespace Groundplan
namespace Project

open Hcl

/-! ## Required fields -/

/-- A field that a workload has to have, and the argument of its module that it becomes. -/
structure Required where
  argument : String
  field : String
  value : Option String

/-- The fields that the type of a workload requires. -/
def required (w : Workload) : List Required :=
  if w.type = "container" then [⟨"image", "image", w.image⟩]
  else if w.type = "function" then
    [⟨"runtime", "runtime", w.runtime⟩, ⟨"handler", "handler", w.handler⟩]
  else if w.type = "database" then
    [⟨"engine", "engine", w.engine⟩, ⟨"engine_version", "version", w.version⟩]
  else []

/-- The argument for a required field, with the stand-in for an absent one. -/
def Required.attribute (r : Required) : Attribute :=
  ⟨r.argument, .text (r.value.getD Module.undefined)⟩

/-- The required fields that a workload lacks. -/
def absentFields (w : Workload) : List String :=
  ((required w).filter fun r => r.value.isNone).map Required.field

/-- A workload without the fields that some type requires. -/
def optionalPart (w : Workload) : Workload :=
  { w with image := none, runtime := none, handler := none, engine := none, version := none }

/-- A workload in which the stand-in is written for every required field that is absent. -/
def filled (w : Workload) : Workload :=
  let fill (value : Option String) := some (value.getD Module.undefined)
  if w.type = "container" then { w with image := fill w.image }
  else if w.type = "function" then { w with runtime := fill w.runtime, handler := fill w.handler }
  else if w.type = "database" then { w with engine := fill w.engine, version := fill w.version }
  else w

def filledSpec (spec : Spec) : Spec :=
  { spec with workloads := spec.workloads.map fun w => (w.1, filled w.2) }

/-- What the root module passes to the module of a workload. -/
def argumentsOf (w : Workload) : List Attribute :=
  ((Module.Library.builtIn.template w.type).bind w).attributes

/-- The arguments behind those for required fields. -/
def otherArguments (w : Workload) : List Attribute := (argumentsOf w).drop (required w).length

theorem type_filled (w : Workload) : (filled w).type = w.type := by
  unfold filled
  split
  · rfl
  split
  · rfl
  split <;> rfl

theorem optionalPart_filled (w : Workload) : optionalPart (filled w) = optionalPart w := by
  unfold filled
  split
  · rfl
  split
  · rfl
  split <;> rfl

/-- What does not depend on required fields is the same for the same optional part. -/
theorem eq_of_optionalPart {α : Type} {w w' : Workload} (h : optionalPart w' = optionalPart w)
    (f : Workload → α) (hf : ∀ v, f (optionalPart v) = f v) : f w' = f w := by
  rw [← hf w', h, hf w]

theorem required_filled (w : Workload) :
    required (filled w) =
      (required w).map fun r => { r with value := some (r.value.getD Module.undefined) } := by
  rw [required, required, type_filled, filled]
  by_cases hcontainer : w.type = "container"
  · simp [hcontainer]
  by_cases hfunction : w.type = "function"
  · simp [hfunction]
  by_cases hdatabase : w.type = "database"
  · simp [hdatabase]
  · simp [hcontainer, hfunction, hdatabase]

theorem absentFields_filled (w : Workload) : absentFields (filled w) = [] := by
  rw [absentFields, required_filled, List.filter_eq_nil_iff.mpr]
  · rfl
  · intro r hr
    obtain ⟨q, -, rfl⟩ := List.mem_map.mp hr
    exact Bool.false_ne_true

/-! ## Bindings -/

/-- The arguments for required fields come first, and they are the only ones that depend
on these fields. -/
theorem arguments_eq {w w' : Workload} (h : optionalPart w' = optionalPart w) :
    argumentsOf w' = (required w').map Required.attribute ++ otherArguments w := by
  have htype := eq_of_optionalPart h Workload.type fun _ => rfl
  have hresources := eq_of_optionalPart h Workload.resources fun _ => rfl
  have hports := eq_of_optionalPart h Workload.ports fun _ => rfl
  have hreplicas := eq_of_optionalPart h Workload.replicas fun _ => rfl
  have henvironment := eq_of_optionalPart h Workload.environment fun _ => rfl
  have hbackup := eq_of_optionalPart h Workload.backup fun _ => rfl
  rw [otherArguments, argumentsOf, argumentsOf, required, required, htype, template_builtIn]
  by_cases hcontainer : w.type = "container"
  · simp only [if_pos hcontainer]
    show (Module.Container.bind w').attributes = _ ++ ((Module.Container.bind w).attributes).drop 1
    rw [Module.Container.bind, Module.Container.bind, Workload.firstPort, Workload.firstPort,
      hresources, hports, hreplicas, henvironment]
    cases w'.image <;> cases w.image <;> rfl
  simp only [if_neg hcontainer]
  by_cases hfunction : w.type = "function"
  · simp only [if_pos hfunction]
    show (Module.Function.bind w').attributes = _ ++ ((Module.Function.bind w).attributes).drop 2
    rw [Module.Function.bind, Module.Function.bind, hresources, henvironment]
    cases w'.runtime <;> cases w'.handler <;> cases w.runtime <;> cases w.handler <;> rfl
  simp only [if_neg hfunction]
  by_cases hdatabase : w.type = "database"
  · simp only [if_pos hdatabase]
    show (Module.Database.bind w').attributes = _ ++ ((Module.Database.bind w).attributes).drop 2
    rw [Module.Database.bind, Module.Database.bind, hresources, hbackup]
    cases w'.engine <;> cases w'.version <;> cases w.engine <;> cases w.version <;> rfl
  · simp only [if_neg hdatabase]
    rfl

/-- Filling in the stand-ins by hand makes no difference to what is passed on. -/
theorem arguments_filled (w : Workload) : argumentsOf (filled w) = argumentsOf w := by
  rw [arguments_eq (optionalPart_filled w), arguments_eq (show optionalPart w = optionalPart w from rfl), required_filled,
    List.map_map]
  rfl

theorem missing_bind_eq (w : Workload) :
    ((Module.Library.builtIn.template w.type).bind w).missing = absentFields w := by
  rw [absentFields, required, template_builtIn]
  by_cases hcontainer : w.type = "container"
  · simp only [if_pos hcontainer]
    show (Module.Container.bind w).missing = _
    rw [Module.Container.bind]
    cases w.image <;> rfl
  simp only [if_neg hcontainer]
  by_cases hfunction : w.type = "function"
  · simp only [if_pos hfunction]
    show (Module.Function.bind w).missing = _
    rw [Module.Function.bind]
    cases w.runtime <;> cases w.handler <;> rfl
  simp only [if_neg hfunction]
  by_cases hdatabase : w.type = "database"
  · simp only [if_pos hdatabase]
    show (Module.Database.bind w).missing = _
    rw [Module.Database.bind]
    cases w.engine <;> cases w.version <;> rfl
  · simp only [if_neg hdatabase]
    rfl

theorem missingFields_builtIn (spec : Spec) :
    missingFields (bindAll .builtIn spec) =
      spec.workloads.flatMap fun w => (absentFields w.2).map fun f => (w.1, f) := by
  rw [missingFields, bindAll, List.flatMap_map]
  refine congrArg (spec.workloads.flatMap ·) (funext fun w => ?_)
  rw [missing_bind_eq]

/-! ## Two ways of compiling -/

variable {spec : Spec} {credentials : Credentials}

theorem missing_of_outcome {strict : Bool} {p : Project}
    (h : outcome strict credentials spec = .ok p) :
    p.report.missing = missingFields (bindAll .builtIn spec) := by
  obtain ⟨s, hs⟩ := compiled_of_builtIn h
  obtain ⟨modules, -, hresult⟩ := exists_result _ hs.checked hs.complete
  rw [outcome, hresult] at h
  cases hroot : rootFiles spec s (bindAll .builtIn spec) with
  | error f =>
    rw [hroot] at h
    cases h
  | ok root =>
    rw [hroot] at h
    cases h
    rfl

/-- Nothing is insisted on where nothing is missing. -/
theorem outcome_of_complete (h : missingFields (bindAll .builtIn spec) = []) (strict : Bool) :
    outcome strict credentials spec = outcome false credentials spec := by
  cases hs : check spec with
  | error f => rw [outcome, outcome, result_of_check_error hs, result_of_check_error hs]
  | ok s =>
    have hempty : ∀ b, ¬((b && !(missingFields (bindAll .builtIn spec)).isEmpty) = true) := by
      intro b
      rw [h]
      cases b <;> exact Bool.false_ne_true
    rw [outcome, outcome, result_builtIn hs, result_builtIn hs, compileBound, compileBound]
    dsimp only
    rw [if_neg (hempty _), if_neg (hempty _)]

theorem outcome_of_missing {s : Network.Subnets} (hs : check spec = .ok s)
    (h : missingFields (bindAll .builtIn spec) ≠ []) :
    outcome true credentials spec = .error (.missing (missingFields (bindAll .builtIn spec))) :=
  result_of_incomplete hs rfl h

/-! ## Specifications that are filled in -/

theorem main_filled (spec : Spec) (cidr : String) (s : Network.Subnets) :
    mainDocument cidr s (bindAll .builtIn (filledSpec spec)) =
      mainDocument cidr s (bindAll .builtIn spec) := by
  have hitems : ∀ w : String × Workload, (boundOf (w.1, filled w.2)).items = (boundOf w).items := by
    intro w
    have harguments : (boundOf (w.1, filled w.2)).binding.attributes =
        (boundOf w).binding.attributes := arguments_filled w.2
    have htype : (boundOf (w.1, filled w.2)).workload.type = (boundOf w).workload.type :=
      type_filled w.2
    rw [Bound.items, Bound.items, workloadModule, workloadModule, harguments, htype]
    rfl
  have hbound : ∀ v : Spec, bindAll .builtIn v = v.workloads.map boundOf := fun _ => rfl
  rw [mainDocument, mainDocument, hbound, hbound, filledSpec]
  simp only [List.map_map, List.flatMap_map, Function.comp_def, hitems]
  rfl

theorem distinctTypes_filled (spec : Spec) : distinctTypes (filledSpec spec) = distinctTypes spec := by
  rw [distinctTypes, distinctTypes, filledSpec, List.map_map]
  exact congrArg List.eraseDups (List.map_congr_left fun w _ => type_filled w.2)

theorem ignoredFields_filled (spec : Spec) : ignoredFields (filledSpec spec) = ignoredFields spec := by
  have hfields : ∀ w : Workload, (filled w).unconsumedFields = w.unconsumedFields :=
    fun w => eq_of_optionalPart (optionalPart_filled w) Workload.unconsumedFields fun _ => rfl
  rw [ignoredFields, ignoredFields, filledSpec, List.map_map]
  refine congrArg (List.filter _) (List.map_congr_left fun w _ => ?_)
  exact congrArg (w.1, ·) (hfields w.2)

theorem check_filled {s : Network.Subnets} (h : check spec = .ok s) :
    check (filledSpec spec) = .ok s := by
  have hnames : (filledSpec spec).workloads.map Prod.fst = spec.workloads.map Prod.fst := by
    rw [filledSpec, List.map_map]
    rfl
  rw [check_ok_iff] at h ⊢
  rw [hnames]
  exact h

theorem missingFields_filled (spec : Spec) :
    missingFields (bindAll .builtIn (filledSpec spec)) = [] := by
  rw [missingFields_builtIn, List.flatMap_eq_nil_iff]
  intro w hw
  obtain ⟨v, -, rfl⟩ := List.mem_map.mp hw
  dsimp only
  rw [absentFields_filled, List.map_nil]

/-- The files of a child module are determined. -/
theorem IsModuleOf.eq {project typeName : String} {t : Module.Template} {m m' : ModuleFiles}
    (h : IsModuleOf project t credentials typeName m)
    (h' : IsModuleOf project t credentials typeName m') : m' = m := by
  have hname := h'.typeName.trans h.typeName.symm
  have htemplate := h'.template.trans h.template.symm
  have hinputs := h.inputs.eq h'.inputs
  have hmain := h.main.eq h'.main
  have houtputs := h.outputs.eq h'.outputs
  cases m
  cases m'
  cases hname
  cases htemplate
  cases hinputs
  cases hmain
  cases houtputs
  rfl

theorem modules_eq {project : String} {types : List String} {ms ms' : List ModuleFiles}
    (h : List.Forall₂ (fun t m =>
      IsModuleOf project (Module.Library.builtIn.template t) credentials t m) types ms)
    (h' : List.Forall₂ (fun t m =>
      IsModuleOf project (Module.Library.builtIn.template t) credentials t m) types ms') :
    ms' = ms := by
  induction h generalizing ms' with
  | nil =>
    cases h'
    rfl
  | cons hfirst _ ih =>
    cases h' with
    | cons hfirst' hrest' => rw [hfirst.eq hfirst', ih hrest']

/-- Writing the stand-ins into a specification gives the project that it has without them,
except that nothing is missing any more. -/
theorem outcome_filled {p : Project} (h : outcome false credentials spec = .ok p) :
    outcome true credentials (filledSpec spec) =
      .ok { p with report := { p.report with missing := [] } } := by
  obtain ⟨s, hs⟩ := exists_check_of_ok h
  obtain ⟨modules, hmodules, hresult⟩ := exists_result { strict := false, credentials } hs
    fun hstrict => nomatch hstrict
  obtain ⟨modules', hmodules', hresult'⟩ := exists_result { strict := true, credentials }
    (check_filled hs) fun _ => missingFields_filled spec
  have hname : (filledSpec spec).metadata = spec.metadata := rfl
  have hcidr : cidrOf (filledSpec spec) = cidrOf spec := rfl
  have hworkloads : ((filledSpec spec).workloads.map fun w => (w.1, w.2.type)) =
      spec.workloads.map fun w => (w.1, w.2.type) := by
    rw [filledSpec, List.map_map]
    exact List.map_congr_left fun w _ => congrArg (w.1, ·) (type_filled w.2)
  have hroot : rootFiles (filledSpec spec) s (bindAll .builtIn (filledSpec spec)) =
      rootFiles spec s (bindAll .builtIn spec) := by
    rw [rootFiles, rootFiles, hname, hcidr, main_filled]
  rw [hname, distinctTypes_filled] at hmodules'
  rw [hname, hroot, hworkloads, missingFields_filled, ignoredFields_filled, distinctTypes_filled,
    modules_eq hmodules hmodules'] at hresult'
  rw [outcome, hresult] at h
  rw [outcome, hresult']
  cases hfiles : rootFiles spec s (bindAll .builtIn spec) with
  | error f =>
    rw [hfiles] at h
    cases h
  | ok root =>
    rw [hfiles] at h
    cases h
    rfl

/-! ## Agreement -/

/-- How a strict compilation goes, in terms of one that insists on nothing, and what that
one reports as missing. -/
structure StrictAgrees (spec : Spec) (credentials : Credentials) : Prop where
  complete : ∀ p, outcome false credentials spec = .ok p → p.report.missing = [] →
    outcome true credentials spec = .ok p
  incomplete : ∀ p, outcome false credentials spec = .ok p → p.report.missing ≠ [] →
    ∃ f, outcome true credentials spec = .error f ∧ f = .missing p.report.missing ∧
      f.message = "Missing required workload fields: " ++
        ", ".intercalate (p.report.missing.map fun m => m.1 ++ "." ++ m.2)
  failed : ∀ f, outcome false credentials spec = .error f →
    ∃ f', outcome true credentials spec = .error f'
  strict : ∀ p, outcome true credentials spec = .ok p → outcome false credentials spec = .ok p
  /-- Workload by workload, and field by field. -/
  missing : ∀ p, outcome false credentials spec = .ok p →
    p.report.missing = spec.workloads.flatMap fun w => (absentFields w.2).map fun f => (w.1, f)
  /-- The stand-in is passed for required fields that are absent; no other argument depends
  on a required field. -/
  arguments : ∀ w w', optionalPart w' = optionalPart w →
    argumentsOf w' = (required w').map Required.attribute ++ otherArguments w
  /-- The files say the same as if the stand-ins stood in the specification. -/
  substituted : ∀ p, outcome false credentials spec = .ok p →
    outcome true credentials (filledSpec spec) =
      .ok { p with report := { p.report with missing := [] } }

/-- Strict compilations refuse what the others report, and are the same otherwise. -/
theorem strict_agrees (spec : Spec) (credentials : Credentials) : StrictAgrees spec credentials where
  complete := by
    intro p hp hmissing
    rw [missing_of_outcome hp] at hmissing
    rw [outcome_of_complete hmissing, hp]
  incomplete := by
    intro p hp hmissing
    obtain ⟨s, hs⟩ := exists_check_of_ok hp
    rw [missing_of_outcome hp] at hmissing ⊢
    exact ⟨_, outcome_of_missing hs hmissing, rfl, rfl⟩
  failed := by
    intro f hf
    by_cases hmissing : missingFields (bindAll .builtIn spec) = []
    · exact ⟨f, (outcome_of_complete hmissing true).trans hf⟩
    cases hs : check spec with
    | error e => exact ⟨e, result_of_check_error hs⟩
    | ok s => exact ⟨_, outcome_of_missing hs hmissing⟩
  strict := by
    intro p hp
    obtain ⟨s, hs⟩ := compiled_of_builtIn hp
    rw [← outcome_of_complete (hs.complete rfl) true, hp]
  missing := by
    intro p hp
    rw [missing_of_outcome hp, missingFields_builtIn]
  arguments := fun _ _ => arguments_eq
  substituted := fun _ => outcome_filled

end Project
end Groundplan
