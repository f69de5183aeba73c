/-
What a compiled project consists of.

Compiling interleaves looking things up, saying what was found and rendering.  Once it
has succeeded only the renderings matter: `IsCompiled` says of which document each file
is the text, and `compiled_of_compile` is the one place where the stages are opened.
-/
import Groundplan.Project.Compile
import Groundplan.Proofs.Hcl.Lines
import Groundplan.Proofs.Hcl.Renderable
import Groundplan.Proofs.Network.Layout
import Groundplan.Proofs.Spec.Accepted
import Mathlib.Data.List.Forall2

namespace Groundplan
namespace Project

open Hcl

/-- A document has this text behind the banner of its project. -/
def IsTextOf (project : String) (d : Document) (text : String) : Prop :=
  (withBanner project d).render = .ok text

/-- The files of the child module for a type. -/
structure IsModuleOf (project : String) (t : Module.Template) (credentials : Credentials)
    (typeName : String) (m : ModuleFiles) : Prop where
  typeName : m.typeName = typeName
  template : m.template = t.typeName
  inputs : IsTextOf project t.inputsDocument m.inputs
  main : IsTextOf project (t.resources credentials) m.main
  outputs : IsTextOf project t.outputsDocument m.outputs

/-- The project of a specification whose network is laid out as `s`. -/
structure IsCompiled (l : Module.Library) (spec : Spec) (options : Options) (s : Network.Subnets)
    (p : Project) : Prop where
  checked : check spec = .ok s
  complete : options.strict = true → missingFields (bindAll l spec) = []
  name : p.name = spec.metadata.name
  provider : IsTextOf p.name (providerDocument spec.metadata) p.root.provider
  inputs : IsTextOf p.name (inputsDocument spec.metadata) p.root.inputs
  main : IsTextOf p.name (mainDocument (cidrOf spec) s (bindAll l spec)) p.root.main
  modules : List.Forall₂ (fun t m => IsModuleOf p.name (l.template t) options.credentials t m)
    spec.workloadTypes p.modules

/-- Every child module belongs to a type that is used. -/
theorem IsCompiled.exists_type {l : Module.Library} {spec : Spec} {options : Options}
    {s : Network.Subnets} {p : Project} (h : IsCompiled l spec options s p) {m : ModuleFiles}
    (hm : m ∈ p.modules) :
    ∃ t ∈ spec.workloadTypes, IsModuleOf p.name (l.template t) options.credentials t m :=
  exists_of_mem_forall₂ h.modules hm

/-! ## The check -/

theorem check_ok_iff {spec : Spec} {s : Network.Subnets} :
    check spec = .ok s ↔ Text.isProviderName spec.metadata.provider = true ∧
      "vpc" ∉ spec.workloads.map Prod.fst ∧ Network.Subnets.ofCidr (cidrOf spec) = .ok s := by
  have hvpc : (spec.workloads.lookup "vpc").isSome = true ↔ "vpc" ∈ spec.workloads.map Prod.fst := by
    rw [List.lookup_isSome_iff, List.mem_map]
    exact exists_congr fun w => and_congr_right fun _ => beq_iff_eq.trans eq_comm
  rw [check]
  cases hprovider : Text.isProviderName spec.metadata.provider with
  | false => exact ⟨fun h => (error_ne_ok h).elim, fun h => nomatch h.1⟩
  | true =>
    by_cases hmem : "vpc" ∈ spec.workloads.map Prod.fst
    · rw [hvpc.mpr hmem]
      exact ⟨fun h => (error_ne_ok h).elim, fun h => absurd hmem h.2.1⟩
    · rw [Bool.eq_false_iff.mpr (mt hvpc.mp hmem)]
      refine ⟨fun h => ⟨rfl, hmem, ok_of_mapError h⟩, fun h => ?_⟩
      show (Network.Subnets.ofCidr (cidrOf spec)).mapError (Fault.network _) = .ok s
      rw [h.2.2]
      rfl

theorem isProviderName_of_check {spec : Spec} {s : Network.Subnets} (h : check spec = .ok s) :
    Text.isProviderName spec.metadata.provider = true :=
  (check_ok_iff.mp h).1

theorem vpc_not_mem_of_check {spec : Spec} {s : Network.Subnets} (h : check spec = .ok s) :
    "vpc" ∉ spec.workloads.map Prod.fst :=
  (check_ok_iff.mp h).2.1

/-! ## Stages -/

theorem isTextOf_of_render {project : String} {d : Document} {text : String}
    (h : render project d = .ok text) : IsTextOf project d text :=
  ok_of_mapError h

theorem isModuleOf_of_moduleFiles {project typeName : String} {t : Module.Template}
    {credentials : Credentials} {m : ModuleFiles}
    (h : moduleFiles project t typeName credentials = .ok m) :
    IsModuleOf project t credentials typeName m := by
  obtain ⟨inputs, hinputs, h⟩ := ok_of_bind h
  obtain ⟨main, hmain, h⟩ := ok_of_bind h
  obtain ⟨outputs, houtputs, h⟩ := ok_of_bind h
  cases h
  exact ⟨rfl, rfl, isTextOf_of_render hinputs, isTextOf_of_render hmain,
    isTextOf_of_render houtputs⟩

theorem modules_of_compileModules {l : Module.Library} {project : String}
    {credentials : Credentials} {types given warnings : List String} {ms : List ModuleFiles}
    (h : (compileModules l project credentials given types).2 = .ok (ms, warnings)) :
    List.Forall₂ (fun t m => IsModuleOf project (l.template t) credentials t m) types ms := by
  induction types generalizing given warnings ms with
  | nil =>
    cases h
    exact .nil
  | cons t types ih =>
    rw [compileModules] at h
    dsimp only at h
    split at h
    · cases h
    · rename_i m hm
      dsimp only at h
      generalize hrest : (compileModules l project credentials
        (given ++ newWarnings given ((l.template t).warnings credentials)) types).2 = rest at h
      cases rest with
      | error e => cases h
      | ok rest =>
        cases h
        exact .cons (isModuleOf_of_moduleFiles hm) (ih hrest)

/-- Where a class has no instance there is no project. -/
theorem flaw?_of_compileBound {l : Module.Library} {spec : Spec} {options : Options}
    {s : Network.Subnets} {p : Project} (h : (compileBound l spec options s).2 = .ok p) :
    flaw? l (bindAll l spec) = none := by
  rw [compileBound] at h
  cases hflaw : flaw? l (bindAll l spec) with
  | none => rfl
  | some said =>
    rw [hflaw] at h
    cases h

theorem compiled_of_compileBound {l : Module.Library} {spec : Spec} {options : Options}
    {s : Network.Subnets} {p : Project} (hs : check spec = .ok s)
    (h : (compileBound l spec options s).2 = .ok p) : IsCompiled l spec options s p := by
  have hflaw := flaw?_of_compileBound h
  rw [compileBound, hflaw] at h
  dsimp only at h
  split at h
  · cases h
  · rename_i hstrict
    dsimp only at h
    obtain ⟨⟨modules, warnings⟩, hmodules, h⟩ := ok_of_bind h
    obtain ⟨root, hroot, h⟩ := ok_of_bind h
    cases h
    obtain ⟨provider, hprovider, hroot⟩ := ok_of_bind hroot
    obtain ⟨inputs, hinputs, hroot⟩ := ok_of_bind hroot
    obtain ⟨main, hmain, hroot⟩ := ok_of_bind hroot
    cases hroot
    refine ⟨hs, fun hoption => ?_, rfl, isTextOf_of_render hprovider, isTextOf_of_render hinputs,
      isTextOf_of_render hmain, modules_of_compileModules hmodules⟩
    rw [hoption, Bool.true_and, Bool.not_eq_true', Bool.not_eq_false] at hstrict
    exact List.isEmpty_iff.mp hstrict

/-- A project comes from the library as it is after plugins have been looked for. -/
theorem compiled_of_compile {l : Module.Library} {spec : Spec} {options : Options} {p : Project}
    (h : (compile l spec options).result = .ok p) :
    ∃ s, IsCompiled (if spec.workloads.isEmpty then l else l.search.library) spec options s p := by
  rw [compile] at h
  cases hs : check spec with
  | error e =>
    rw [hs] at h
    cases h
  | ok s =>
    rw [hs] at h
    refine ⟨s, compiled_of_compileBound hs ?_⟩
    by_cases hempty : spec.workloads.isEmpty = true
    · simp only [hempty, if_true] at h ⊢
      exact h
    · simp only [hempty, if_false, Bool.false_eq_true] at h ⊢
      cases hstopped : l.search.stopped with
      | some fault =>
        rw [hstopped] at h
        cases h
      | none =>
        rw [hstopped] at h
        exact h

/-! ## Built-in templates -/

def builtInTemplates : List Module.Template :=
  [Module.container, Module.database, Module.function, Module.generic]

theorem search_builtIn :
    Module.Library.builtIn.search.library = { Module.Library.builtIn with searched := true } :=
  rfl

/-- Without plugins the look-up changes no template. -/
theorem compiled_of_builtIn {spec : Spec} {options : Options} {p : Project}
    (h : (compile .builtIn spec options).result = .ok p) :
    ∃ s, IsCompiled .builtIn spec options s p := by
  obtain ⟨s, hs⟩ := compiled_of_compile h
  refine ⟨s, ?_⟩
  split at hs
  · exact hs
  · rw [search_builtIn] at hs
    exact ⟨hs.checked, hs.complete, hs.name, hs.provider, hs.inputs, hs.main, hs.modules⟩

theorem template_mem_builtInTemplates (type : String) :
    Module.Library.builtIn.template type ∈ builtInTemplates := by
  have hmem : ∀ t, Module.Library.builtIn.templates.lookup type = some t → t ∈ builtInTemplates := by
    intro t ht
    obtain ⟨a, b, hsplit, -⟩ := List.lookup_eq_some_iff.mp ht
    have hin : (type, t) ∈ builtInTemplates.map fun t => (t.typeName, t) := by
      show (type, t) ∈ Module.Library.builtIn.templates
      rw [hsplit]
      exact List.mem_append_right a List.mem_cons_self
    obtain ⟨u, hu, heq⟩ := List.mem_map.mp hin
    cases heq
    exact hu
  rw [Module.Library.template]
  cases hlookup : Module.Library.builtIn.templates.lookup type with
  | some t => exact hmem t hlookup
  | none => exact List.mem_of_getLast? (a := Module.generic) rfl

/-- The built-in classes have instances. -/
theorem flaw?_builtIn {l : Module.Library} (hl : l.template = Module.Library.builtIn.template)
    (bound : List Bound) : flaw? l bound = none := by
  have hmade : ∀ t ∈ builtInTemplates, t.flaw = none := by
    simp [builtInTemplates, Module.container, Module.database, Module.function, Module.generic]
  induction bound with
  | nil => rfl
  | cons b bound ih =>
    rw [flaw?, hl, Module.Template.made, hmade _ (template_mem_builtInTemplates b.workload.type), ih]
    rfl

theorem template_builtIn (type : String) :
    Module.Library.builtIn.template type =
      if type = "container" then Module.container
      else if type = "function" then Module.function
      else if type = "database" then Module.database
      else Module.generic := by
  by_cases hcontainer : type = "container"
  · subst hcontainer
    rfl
  by_cases hfunction : type = "function"
  · subst hfunction
    rfl
  by_cases hdatabase : type = "database"
  · subst hdatabase
    rfl
  rw [if_neg hcontainer, if_neg hfunction, if_neg hdatabase]
  by_cases hgeneric : type = "generic"
  · subst hgeneric
    rfl
  have hnone : Module.Library.builtIn.templates.lookup type = none := by
    refine List.lookup_eq_none_iff.mpr fun t ht => bne_iff_ne.mpr fun htype => ?_
    have hnames : t.1 ∈ ["container", "database", "function", "generic"] := List.mem_map_of_mem ht
    simp [← htype, hcontainer, hfunction, hdatabase, hgeneric] at hnames
  rw [Module.Library.template, hnone]
  rfl

/-- No other type has the template of a container or a function. -/
theorem type_of_typeName {type : String}
    (h : (Module.Library.builtIn.template type).typeName = "container" ∨
      (Module.Library.builtIn.template type).typeName = "function") :
    type = "container" ∨ type = "function" := by
  rw [template_builtIn] at h
  split at h
  · exact .inl ‹_›
  · split at h
    · exact .inr ‹_›
    · split at h
      · rcases h with h | h <;> exact absurd h (by decide)
      · rcases h with h | h <;> exact absurd h (by decide)

/-! ## When there is a project -/

theorem isOk_render (project : String) (d : Document) :
    (render project d).isOk = Item.areRenderable d.items := by
  rw [render, isOk_mapError, Renderable.isOk_render, withBanner, Item.areRenderable,
    Item.areRenderable]
  rfl

theorem isOk_moduleFiles {project typeName : String} {t : Module.Template}
    {credentials : Credentials} :
    (moduleFiles project t typeName credentials).isOk =
      (Item.areRenderable t.inputsDocument.items &&
        (Item.areRenderable (t.resources credentials).items &&
          Item.areRenderable t.outputsDocument.items)) := by
  rw [moduleFiles, isOk_bind fun _ _ => isOk_bind fun _ _ => isOk_map, isOk_render, isOk_render,
    isOk_render]

/-- The templates that are built in hold no value without a text. -/
theorem isOk_moduleFiles_builtIn (project type : String) (credentials : Credentials) :
    (moduleFiles project (Module.Library.builtIn.template type) type credentials).isOk = true := by
  have hall : ∀ t ∈ builtInTemplates, Item.areRenderable t.inputsDocument.items = true ∧
      Item.areRenderable (t.resources .managed).items = true ∧
      Item.areRenderable (t.resources .placeholder).items = true ∧
      Item.areRenderable t.outputsDocument.items = true := by
    decide
  obtain ⟨hinputs, hmanaged, hplaceholder, houtputs⟩ := hall _ (template_mem_builtInTemplates type)
  rw [isOk_moduleFiles, hinputs, houtputs]
  cases credentials with
  | managed => rw [hmanaged]; rfl
  | placeholder => rw [hplaceholder]; rfl

theorem isOk_compileModules {l : Module.Library} {project : String} {credentials : Credentials}
    {types : List String} (given : List String)
    (h : ∀ t ∈ types, (moduleFiles project (l.template t) t credentials).isOk = true) :
    (compileModules l project credentials given types).2.isOk = true := by
  induction types generalizing given with
  | nil => rfl
  | cons t types ih =>
    obtain ⟨m, hm⟩ := exists_of_isOk (h t List.mem_cons_self)
    have hrest := ih (given ++ newWarnings given ((l.template t).warnings credentials))
      fun u hu => h u (List.mem_cons_of_mem t hu)
    rw [compileModules]
    dsimp only
    rw [hm]
    obtain ⟨rest, hrest⟩ := exists_of_isOk hrest
    dsimp only
    rw [hrest]
    rfl

theorem isOk_rootFiles (spec : Spec) (s : Network.Subnets) (bound : List Bound) :
    (rootFiles spec s bound).isOk =
      (Item.areRenderable (inputsDocument spec.metadata).items &&
        Item.areRenderable (mainDocument (cidrOf spec) s bound).items) := by
  rw [rootFiles, isOk_bind fun _ _ => isOk_bind fun _ _ => isOk_map, isOk_render, isOk_render,
    isOk_render]
  rfl

theorem isOk_compileBound {l : Module.Library} (hl : l.template = Module.Library.builtIn.template)
    {spec : Spec} {options : Options} {s : Network.Subnets}
    (hcomplete : options.strict = true → missingFields (bindAll .builtIn spec) = [])
    (hinputs : Item.areRenderable (inputsDocument spec.metadata).items = true)
    (hmain : Item.areRenderable (mainDocument (cidrOf spec) s (bindAll .builtIn spec)).items = true) :
    (compileBound l spec options s).2.isOk = true := by
  have hbind : bindAll l spec = bindAll .builtIn spec := by rw [bindAll, bindAll, hl]
  have hstrict : ¬((options.strict && !(missingFields (bindAll l spec)).isEmpty) = true) := by
    rw [Bool.and_eq_true, hbind]
    rintro ⟨hoption, hmissing⟩
    rw [hcomplete hoption] at hmissing
    cases hmissing
  have hroot := isOk_rootFiles spec s (bindAll l spec)
  rw [hinputs, hbind, hmain, ← hbind] at hroot
  obtain ⟨root, hroot⟩ := exists_of_isOk hroot
  have htypes : ∀ t ∈ spec.workloadTypes,
      (moduleFiles spec.metadata.name (l.template t) t options.credentials).isOk = true := by
    intro t _
    rw [hl]
    exact isOk_moduleFiles_builtIn spec.metadata.name t options.credentials
  obtain ⟨modules, hmodules⟩ := exists_of_isOk (isOk_compileModules [] htypes)
  rw [compileBound, flaw?_builtIn hl]
  dsimp only
  rw [if_neg hstrict]
  dsimp only
  rw [hmodules, hroot]
  rfl

/-- With the built-in templates a specification compiles if it passes the check, lacks
nothing that is insisted on, and its own values can be written. -/
theorem exists_compiled {spec : Spec} {options : Options} {s : Network.Subnets}
    (hs : check spec = .ok s)
    (hcomplete : options.strict = true → missingFields (bindAll .builtIn spec) = [])
    (hinputs : Item.areRenderable (inputsDocument spec.metadata).items = true)
    (hmain : Item.areRenderable (mainDocument (cidrOf spec) s (bindAll .builtIn spec)).items = true) :
    ∃ p, (compile .builtIn spec options).result = .ok p := by
  refine exists_of_isOk ?_
  rw [compile, hs]
  dsimp only
  cases spec.workloads.isEmpty with
  | true => exact isOk_compileBound rfl hcomplete hinputs hmain
  | false =>
    exact isOk_compileBound (l := Module.Library.builtIn.search.library) rfl hcomplete hinputs hmain

/-- Whether a specification passes the check and its own values can be written. -/
def isCompilable (spec : Spec) : Bool :=
  Item.areRenderable (inputsDocument spec.metadata).items &&
    (check spec).toOption.any fun s =>
      Item.areRenderable (mainDocument (cidrOf spec) s (bindAll .builtIn spec)).items

/-- A specification that is read from a text can be seen to compile by evaluating the test. -/
theorem exists_compiled_of_isCompilable {spec : Spec} (h : isCompilable spec = true) :
    ∃ p, (compile .builtIn spec {}).result = .ok p := by
  obtain ⟨hinputs, hmain⟩ := Bool.and_eq_true_iff.mp h
  cases hs : check spec with
  | error f =>
    rw [hs] at hmain
    cases hmain
  | ok s =>
    rw [hs] at hmain
    exact exists_compiled hs (fun h => absurd h (by decide)) hinputs hmain

/-! ## A hostile specification -/

/-- Texts that would end a string, a comment or a block if they were written as they
are, in every place where a text is free. -/
def hostile : Spec :=
  { metadata :=
      { name := "a\"\n\x7d\nmodule \"x\" \x7b", region := "\x7d\r\n#", environment := "$\x7b",
        tags := [("k\n\x7d", .mapping [(.text "\"", .list [.text "\\", .text "\n]"])])] }
    workloads :=
      [("web", { image := some "\"\noutput \"vpc_id\" \x7b", environment := [("\x7d", .text "%\x7b\n")] }),
        ("db-1", { type := "database", engine := some "\\", version := some "#" }),
        ("other", { type := "queue" }),
        ("web_2", {})] }

theorem hostile_accepted : hostile.Accepted where
  names := by decide
  distinct := by decide
  types := by decide
  tags := by decide
  environments := by decide

/-- The subnets of the range that is taken where none is given. -/
def defaultSubnets : Network.Subnets :=
  let range (i : Nat) : Network.Range := { bits := 32, address := 0x0a000000 + i * 256, length := 24 }
  ⟨Network.privateBlocks.map range, Network.publicBlocks.map range⟩

theorem ofCidr_default : Network.Subnets.ofCidr defaultCidr = .ok defaultSubnets := by
  have hparse : Network.parse defaultCidr =
      .ok { bits := 32, address := 0x0a000000, length := 16 } := by decide
  have hroomy := mt (Network.isTooSmall_iff { bits := 32, address := 0x0a000000, length := 16 }).mp
    (not_not_intro ⟨rfl, by decide⟩)
  rw [Network.Subnets.ofCidr, hparse, Except.mapError, ok_bind, if_neg hroomy]
  rfl

theorem check_hostile : check hostile = .ok defaultSubnets :=
  check_ok_iff.mpr ⟨rfl, by decide, ofCidr_default⟩

theorem exists_compiled_hostile : ∃ p, (compile .builtIn hostile {}).result = .ok p :=
  exists_compiled check_hostile (fun h => nomatch h) (by decide) (by decide)

end Project
end Groundplan
