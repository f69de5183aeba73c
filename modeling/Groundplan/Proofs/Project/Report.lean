/-
What a project reports.

The report is put together on the way through the stages: the missing fields when the
workloads are bound, the warnings when their templates are looked up.  `compile_builtIn`
removes the look-ups from the picture, so that two compilations of one specification can be
compared as plain results, whether or not plugins had been looked for.
-/
import Groundplan.Proofs.Project.Integrity

namespace Groundplan
namespace Project

open Hcl

/-! ## Warnings -/

theorem newWarnings_append (given a b : List String) :
    newWarnings given (a ++ b) =
      newWarnings given a ++ newWarnings (given ++ newWarnings given a) b := by
  induction a generalizing given with
  | nil => simp [newWarnings]
  | cons w a ih =>
    rw [List.cons_append, newWarnings, newWarnings]
    by_cases hw : given.contains w = true
    · rw [if_pos hw, if_pos hw]
      exact ih given
    · rw [if_neg hw, if_neg hw, ih, List.cons_append, List.append_assoc]
      rfl

theorem mem_newWarnings {given ws : List String} {w : String} :
    w ∈ newWarnings given ws ↔ w ∈ ws ∧ w ∉ given := by
  induction ws generalizing given with
  | nil => simp [newWarnings]
  | cons v ws ih =>
    rw [newWarnings]
    by_cases hv : given.contains v = true
    · have hgiven : v ∈ given := List.contains_iff_mem.mp hv
      rw [if_pos hv, ih, List.mem_cons]
      refine and_congr_left fun hw => ?_
      have hne : w ≠ v := fun h => hw (h ▸ hgiven)
      simp [hne]
    · have hgiven : v ∉ given := fun h => hv (List.contains_iff_mem.mpr h)
      rw [if_neg hv, List.mem_cons, ih, List.mem_cons, List.mem_append, List.mem_singleton]
      by_cases hw : w = v
      · simp [hw, hgiven]
      · simp [hw]

/-- No warning is given twice. -/
theorem nodup_newWarnings (given ws : List String) : (newWarnings given ws).Nodup := by
  induction ws generalizing given with
  | nil => exact List.nodup_nil
  | cons v ws ih =>
    rw [newWarnings]
    by_cases hv : given.contains v = true
    · rw [if_pos hv]
      exact ih given
    · rw [if_neg hv, List.nodup_cons]
      refine ⟨fun hmem => ?_, ih _⟩
      exact (mem_newWarnings.mp hmem).2 (List.mem_append_right _ (List.mem_singleton_self v))

/-- What the templates of some types warn of. -/
def templateWarnings (l : Module.Library) (credentials : Credentials) (types : List String) :
    List String :=
  types.flatMap fun t => (l.template t).warnings credentials

theorem templateWarnings_cons (l : Module.Library) (credentials : Credentials) (t : String)
    (types : List String) :
    templateWarnings l credentials (t :: types) =
      (l.template t).warnings credentials ++ templateWarnings l credentials types :=
  List.flatMap_cons

theorem warnings_of_compileModules {l : Module.Library} {project : String}
    {credentials : Credentials} {types given warnings : List String} {ms : List ModuleFiles}
    (h : (compileModules l project credentials given types).2 = .ok (ms, warnings)) :
    warnings = given ++ newWarnings given (templateWarnings l credentials types) := by
  induction types generalizing given warnings ms with
  | nil =>
    cases h
    exact (List.append_nil given).symm
  | cons t types ih =>
    rw [compileModules] at h
    dsimp only at h
    split at h
    · cases h
    · dsimp only at h
      generalize hrest : (compileModules l project credentials
        (given ++ newWarnings given ((l.template t).warnings credentials)) types).2 = rest at h
      cases rest with
      | error e => cases h
      | ok rest =>
        cases h
        rw [ih hrest, templateWarnings_cons, newWarnings_append, List.append_assoc]

/-! ## Results with the built-in templates -/

theorem compileModules_searched (project : String) (credentials : Credentials)
    (given types : List String) :
    compileModules Module.Library.builtIn.search.library project credentials given types =
      compileModules .builtIn project credentials given types := by
  induction types generalizing given with
  | nil => rfl
  | cons t types ih =>
    have htemplate : Module.Library.builtIn.search.library.template t = Module.Library.builtIn.template t :=
      rfl
    have hrecords : Module.Library.builtIn.search.library.lookupRecords t =
        Module.Library.builtIn.lookupRecords t := rfl
    rw [compileModules, compileModules]
    dsimp only
    rw [htemplate, hrecords]
    simp only [ih]

theorem compileBound_searched (spec : Spec) (options : Options) (s : Network.Subnets) :
    compileBound Module.Library.builtIn.search.library spec options s =
      compileBound .builtIn spec options s := by
  rw [compileBound, compileBound, flaw?_builtIn rfl,
    flaw?_builtIn (l := Module.Library.builtIn.search.library) rfl]
  dsimp only
  rw [compileModules_searched]
  rfl

/-- The library without plugins, before they have been looked for or after that. -/
def IsBuiltIn (l : Module.Library) : Prop := l = .builtIn ∨ l = Module.Library.builtIn.search.library

/-- What comes of compiling depends on the check and on what follows it; looking for plugins
changes nothing. -/
theorem compile_builtIn {l : Module.Library} (hl : IsBuiltIn l) {spec : Spec} {options : Options}
    {s : Network.Subnets} (hs : check spec = .ok s) :
    (compile l spec options).records = (compileBound .builtIn spec options s).1 ∧
      (compile l spec options).result = (compileBound .builtIn spec options s).2 := by
  have hbound : ∀ l', IsBuiltIn l' →
      compileBound l' spec options s = compileBound .builtIn spec options s := by
    rintro l' (rfl | rfl)
    · rfl
    · exact compileBound_searched spec options s
  have hsearch : l.search = { library := Module.Library.builtIn.search.library, records := [] } := by
    rcases hl with rfl | rfl <;> rfl
  rw [compile, hs]
  dsimp only
  by_cases hempty : spec.workloads.isEmpty = true
  · rw [if_pos hempty, hbound l hl]
    exact ⟨rfl, rfl⟩
  · rw [if_neg hempty, hsearch, hbound _ (.inr rfl)]
    exact ⟨rfl, rfl⟩

theorem result_builtIn {spec : Spec} {options : Options} {s : Network.Subnets}
    (hs : check spec = .ok s) :
    (compile .builtIn spec options).result = (compileBound .builtIn spec options s).2 :=
  (compile_builtIn (.inl rfl) hs).2

theorem result_of_check_error {l : Module.Library} {spec : Spec} {options : Options} {f : Fault}
    (hf : check spec = .error f) : (compile l spec options).result = .error f := by
  rw [compile, hf]

/-- Compiling without plugins leaves a library without plugins, and whether they have been
looked for does not show. -/
theorem compile_of_isBuiltIn {l : Module.Library} (hl : IsBuiltIn l) (spec : Spec)
    (options : Options) :
    IsBuiltIn (compile l spec options).library ∧
      (compile l spec options).result = (compile .builtIn spec options).result := by
  cases hs : check spec with
  | error f =>
    rw [result_of_check_error hs, result_of_check_error hs, compile, hs]
    exact ⟨hl, rfl⟩
  | ok s =>
    rw [(compile_builtIn hl hs).2, result_builtIn hs, compile, hs]
    refine ⟨?_, rfl⟩
    cases hempty : spec.workloads.isEmpty with
    | true => exact hl
    | false => rcases hl with rfl | rfl <;> exact .inr rfl

/-- Without the fields that are insisted on there is no project. -/
theorem result_of_incomplete {spec : Spec} {options : Options} {s : Network.Subnets}
    (hs : check spec = .ok s) (hstrict : options.strict = true)
    (hmissing : missingFields (bindAll .builtIn spec) ≠ []) :
    (compile .builtIn spec options).result =
      .error (.missing (missingFields (bindAll .builtIn spec))) := by
  rw [result_builtIn hs, compileBound, flaw?_builtIn rfl]
  dsimp only
  rw [hstrict, if_pos]
  simpa using hmissing

/-- Where nothing is insisted on, or nothing is missing, the result consists of the root
module and of child modules, which there always are. -/
theorem exists_result (options : Options) {spec : Spec} {s : Network.Subnets}
    (hs : check spec = .ok s)
    (hcomplete : options.strict = true → missingFields (bindAll .builtIn spec) = []) :
    ∃ modules,
      List.Forall₂ (fun t m =>
          IsModuleOf spec.metadata.name (Module.Library.builtIn.template t) options.credentials t m)
        (distinctTypes spec) modules ∧
      (compile .builtIn spec options).result = (rootFiles spec s (bindAll .builtIn spec)).map fun root =>
        { name := spec.metadata.name, root, modules
          workloads := spec.workloads.map fun (name, w) => (name, w.type)
          report :=
            { missing := missingFields (bindAll .builtIn spec), ignored := ignoredFields spec
              warnings := newWarnings []
                (templateWarnings .builtIn options.credentials (distinctTypes spec)) } } := by
  have hstrict : ¬((options.strict && !(missingFields (bindAll .builtIn spec)).isEmpty) = true) := by
    rw [Bool.and_eq_true]
    rintro ⟨hoption, hmissing⟩
    rw [hcomplete hoption] at hmissing
    cases hmissing
  have hall : (compileModules .builtIn spec.metadata.name options.credentials []
      (distinctTypes spec)).2.isOk = true :=
    isOk_compileModules [] fun t _ => isOk_moduleFiles_builtIn spec.metadata.name t _
  obtain ⟨⟨modules, warnings⟩, hmodules⟩ := exists_of_isOk hall
  refine ⟨modules, modules_of_compileModules hmodules, ?_⟩
  rw [result_builtIn hs, compileBound, flaw?_builtIn rfl]
  dsimp only
  rw [if_neg hstrict, workloadTypes_eq]
  dsimp only
  rw [hmodules, warnings_of_compileModules hmodules, List.nil_append]
  cases rootFiles spec s (bindAll .builtIn spec) with
  | error f => rfl
  | ok root => rfl

/-- What compiling with the built-in templates gives. -/
def outcome (strict : Bool) (credentials : Credentials) (spec : Spec) : Except Fault Project :=
  (compile .builtIn spec { strict, credentials }).result

theorem exists_check_of_ok {strict : Bool} {credentials : Credentials} {spec : Spec} {p : Project}
    (h : outcome strict credentials spec = .ok p) : ∃ s, check spec = .ok s := by
  cases hs : check spec with
  | ok s => exact ⟨s, rfl⟩
  | error f =>
    rw [outcome, result_of_check_error hs] at h
    cases h

end Project
end Groundplan
