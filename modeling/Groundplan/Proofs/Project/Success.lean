/-
When a specification compiles.

Compiling can fail at five stages, of which the last, rendering, looks into values of any
depth.  Since each stage succeeds independently of the others, the conditions can be told
apart, and `Compiles` lists them in terms of the specification alone.  Whatever else a
specification holds is without influence, which `essential` makes a statement of.
-/
import Groundplan.Proofs.Network.Layout
import Groundplan.Proofs.Project.Compiled
import Groundplan.Proofs.Text.Names
import Groundplan.Spec.Source

namespace Groundplan

/-- What of a workload decides whether it can be compiled. -/
def Workload.essential (w : Workload) : Workload :=
  { type := w.type, image := w.image, runtime := w.runtime, handler := w.handler, engine := w.engine,
    version := w.version, environment := w.environment }

/-- A specification without everything that does not decide whether it compiles. -/
def Spec.essential (s : Spec) : Spec :=
  { metadata := { provider := s.metadata.provider, tags := s.metadata.tags }
    workloads := s.workloads.map fun w => (w.1, w.2.essential)
    resources := { networking := some { cidr := s.networkingCidr } } }

namespace Project

open Hcl

/-- The fields that a workload of its type has to have. -/
def requiredFields (w : Workload) : List (Option String) :=
  if w.type = "container" then [w.image]
  else if w.type = "function" then [w.runtime, w.handler]
  else if w.type = "database" then [w.engine, w.version]
  else []

/-- A range that the layout of the network fits in. -/
def IsRoomy (cidr : String) : Prop :=
  ∃ r, Network.parse cidr = .ok r ∧ r.bits = 32 ∧ r.length ≤ 17

/-- The conditions under which a specification compiles.  Environments count only where
the template of the type passes them on. -/
structure Compiles (source : Bool) (spec : Spec) (strict : Bool) : Prop where
  provider : Text.IsUpToNewline Text.isProviderWord spec.metadata.provider
  unreserved : "vpc" ∉ spec.workloads.map Prod.fst
  network : ∀ cidr, spec.networkingCidr = some cidr → cidr = "" ∨ IsRoomy cidr
  tags : ∀ e ∈ spec.metadata.tags, e.2.isRenderable source = true
  environments : ∀ w ∈ spec.workloads, w.2.type = "container" ∨ w.2.type = "function" →
    ∀ e ∈ w.2.environment, e.2.isRenderable source = true
  required : strict = true → ∀ w ∈ spec.workloads, ∀ f ∈ requiredFields w.2, f.isSome = true

/-! ## The network -/

theorem exists_ofCidr_iff {cidr : String} :
    (∃ s, Network.Subnets.ofCidr cidr = .ok s) ↔ IsRoomy cidr :=
  Network.exists_subnets_iff

theorem isRoomy_defaultCidr : IsRoomy defaultCidr :=
  exists_ofCidr_iff.mp (exists_of_isOk (by decide))

theorem isRoomy_cidrOf {spec : Spec} :
    IsRoomy (cidrOf spec) ↔ ∀ cidr, spec.networkingCidr = some cidr → cidr = "" ∨ IsRoomy cidr := by
  rw [cidrOf]
  cases spec.networkingCidr with
  | none =>
    refine ⟨fun _ _ h => ?_, fun _ => isRoomy_defaultCidr⟩
    cases h
  | some cidr =>
    dsimp only
    by_cases hempty : cidr.isEmpty = true
    · rw [if_pos hempty]
      refine ⟨fun _ _ h => .inl ?_, fun _ => isRoomy_defaultCidr⟩
      rw [← Option.some.inj h]
      exact String.isEmpty_iff.mp hempty
    · rw [if_neg hempty]
      refine ⟨fun hroomy _ h => .inr ?_, fun h => (h cidr rfl).resolve_left fun hcidr => ?_⟩
      · rw [← Option.some.inj h]
        exact hroomy
      · exact hempty (String.isEmpty_iff.mpr hcidr)

/-! ## Bindings -/

/-- Whether all that a module is passed can be written. -/
def isPassable (b : Module.Binding) : Bool := b.attributes.all fun a => a.value.isRenderable

theorem isPassable_append (a b : Module.Binding) :
    isPassable (a ++ b) = (isPassable a && isPassable b) := List.all_append

theorem isPassable_required (name source : String) (value : Option String) :
    isPassable (.required name source value) = true := by
  cases value <;> rfl

theorem isPassable_optional {α : Type} {name : String} {value : Option α} {f : α → Value}
    {default : Value} (hf : ∀ a, (f a).isRenderable = true) (hdefault : default.isRenderable = true) :
    isPassable (.optional name (value.map f) default) = true := by
  cases value with
  | none => exact Bool.and_eq_true_iff.mpr ⟨hdefault, rfl⟩
  | some a => exact Bool.and_eq_true_iff.mpr ⟨hf a, rfl⟩

theorem isPassable_environment (name : String) (es : Entries) :
    isPassable (.always name (Value.ofEntries es)) = es.all fun e => e.2.isRenderable true := by
  rw [← Renderable.isRenderable_ofEntries]
  exact Bool.and_true _

theorem isRenderable_ofQuantity (q : Quantity) : (Value.ofQuantity q).isRenderable = true := by
  cases q <;> rfl

theorem isPassable_container (w : Workload) :
    isPassable (Module.container.bind w) = w.environment.all fun e => e.2.isRenderable true := by
  show isPassable (Module.Container.bind w) = _
  simp only [Module.Container.bind, isPassable_append]
  rw [isPassable_required, isPassable_optional isRenderable_ofQuantity rfl,
    isPassable_optional isRenderable_ofQuantity rfl, isPassable_optional (fun _ => rfl) rfl,
    isPassable_optional (fun _ => rfl) rfl, isPassable_environment]
  rfl

theorem isPassable_function (w : Workload) :
    isPassable (Module.function.bind w) = w.environment.all fun e => e.2.isRenderable true := by
  show isPassable (Module.Function.bind w) = _
  simp only [Module.Function.bind, isPassable_append]
  rw [isPassable_required, isPassable_required, isPassable_optional isRenderable_ofQuantity rfl,
    isPassable_environment]
  rfl

theorem isPassable_database (w : Workload) : isPassable (Module.database.bind w) = true := by
  show isPassable (Module.Database.bind w) = _
  simp only [Module.Database.bind, isPassable_append]
  rw [isPassable_required, isPassable_required, isPassable_optional (fun _ => rfl) rfl,
    isPassable_optional (fun _ => rfl) rfl, isPassable_optional (fun _ => rfl) rfl]
  rfl

theorem isPassable_bind (w : Workload) :
    isPassable ((Module.Library.builtIn.template w.type).bind w) = true ↔
      (w.type = "container" ∨ w.type = "function" →
        ∀ e ∈ w.environment, e.2.isRenderable true = true) := by
  rw [template_builtIn]
  by_cases hcontainer : w.type = "container"
  · rw [if_pos hcontainer, isPassable_container, List.all_eq_true]
    exact ⟨fun h _ => h, fun h => h (.inl hcontainer)⟩
  by_cases hfunction : w.type = "function"
  · rw [if_neg hcontainer, if_pos hfunction, isPassable_function, List.all_eq_true]
    exact ⟨fun h _ => h, fun h => h (.inr hfunction)⟩
  have hnot : ¬(w.type = "container" ∨ w.type = "function") := not_or.mpr ⟨hcontainer, hfunction⟩
  refine ⟨fun _ h => absurd h hnot, fun _ => ?_⟩
  rw [if_neg hcontainer, if_neg hfunction]
  split
  · exact isPassable_database w
  · rfl

/-! ## Required fields -/

theorem missing_append (a b : Module.Binding) : (a ++ b).missing = a.missing ++ b.missing := rfl

theorem missing_required {name source : String} {value : Option String} :
    (Module.Binding.required name source value).missing = [] ↔ value.isSome = true := by
  cases value <;> simp [Module.Binding.required]

theorem missing_optional (name : String) (value : Option Value) (default : Value) :
    (Module.Binding.optional name value default).missing = [] := rfl

theorem missing_always (name : String) (value : Value) :
    (Module.Binding.always name value).missing = [] := rfl

theorem missing_bind (w : Workload) :
    ((Module.Library.builtIn.template w.type).bind w).missing = [] ↔
      ∀ f ∈ requiredFields w, f.isSome = true := by
  rw [template_builtIn, requiredFields]
  by_cases hcontainer : w.type = "container"
  · rw [if_pos hcontainer, if_pos hcontainer, List.forall_mem_singleton]
    show (Module.Container.bind w).missing = [] ↔ _
    simp only [Module.Container.bind, missing_append, missing_optional, missing_always,
      List.append_nil, missing_required]
  rw [if_neg hcontainer, if_neg hcontainer]
  by_cases hfunction : w.type = "function"
  · rw [if_pos hfunction, if_pos hfunction, List.forall_mem_cons, List.forall_mem_singleton]
    show (Module.Function.bind w).missing = [] ↔ _
    simp only [Module.Function.bind, missing_append, missing_optional, missing_always,
      List.append_nil, List.append_eq_nil_iff, missing_required]
  rw [if_neg hfunction, if_neg hfunction]
  by_cases hdatabase : w.type = "database"
  · rw [if_pos hdatabase, if_pos hdatabase, List.forall_mem_cons, List.forall_mem_singleton]
    show (Module.Database.bind w).missing = [] ↔ _
    simp only [Module.Database.bind, missing_append, missing_optional, List.append_nil,
      List.append_eq_nil_iff, missing_required]
  rw [if_neg hdatabase, if_neg hdatabase]
  exact ⟨fun _ _ hf => absurd hf List.not_mem_nil, fun _ => rfl⟩

theorem missingFields_eq_nil {spec : Spec} :
    missingFields (bindAll .builtIn spec) = [] ↔
      ∀ w ∈ spec.workloads, ∀ f ∈ requiredFields w.2, f.isSome = true := by
  rw [missingFields, List.flatMap_eq_nil_iff, bindAll, List.forall_mem_map]
  refine forall₂_congr fun w _ => ?_
  rw [List.map_eq_nil_iff]
  exact missing_bind w.2

/-! ## Documents -/

theorem areRenderable_inputs (m : Metadata) :
    Item.areRenderable (inputsDocument m).items = m.tags.all fun e => e.2.isRenderable true := by
  rw [← Renderable.isRenderable_ofEntries]
  show ((Value.ofEntries m.tags).isRenderable && true && true) = _
  rw [Bool.and_true, Bool.and_true]

theorem isRenderable_networkModule (cidr : String) (s : Network.Subnets) :
    (networkModule cidr s).isRenderable = true := by
  have htexts : ∀ rs : List Network.Range,
      Value.areRenderable (rs.map fun r => .text r.toText) = true := by
    intro rs
    induction rs with
    | nil => rfl
    | cons r rs ih => exact ih
  show (Value.areRenderable (s.privateRanges.map _) &&
    (Value.areRenderable (s.publicRanges.map _) && true)) = true
  rw [htexts, htexts]
  rfl

theorem isRenderable_workloadModule (name type : String) (b : Module.Binding) :
    (workloadModule name type b).isRenderable = isPassable b := by
  have hbound : Item.areRenderable
      (if b.attributes.isEmpty then [] else .blank :: b.attributes.map Attribute.toItem) =
        isPassable b := by
    by_cases hempty : b.attributes.isEmpty = true
    · rw [if_pos hempty, isPassable, List.isEmpty_iff.mp hempty]
      rfl
    · rw [if_neg hempty, isPassable, ← Renderable.areRenderable_toItem]
      rfl
  rw [workloadModule, Item.isRenderable, Renderable.areRenderable_append,
    Renderable.areRenderable_append, hbound]
  exact Bool.and_true _

theorem areRenderable_main (cidr : String) (s : Network.Subnets) (bound : List Bound) :
    Item.areRenderable (mainDocument cidr s bound).items = bound.all fun b => isPassable b.binding := by
  have hmodules : Item.areRenderable (bound.flatMap Bound.items) =
      bound.all fun b => isPassable b.binding := by
    rw [Renderable.areRenderable_flatMap]
    refine congrArg bound.all (funext fun b => ?_)
    rw [← isRenderable_workloadModule b.name b.workload.type]
    exact Bool.and_true _
  have hdetails : Item.areRenderable
      (bound.map fun b => outputBlock (b.name ++ "_details") ("module." ++ b.name)) = true := by
    clear hmodules
    induction bound with
    | nil => rfl
    | cons b bound ih => exact ih
  rw [mainDocument, Renderable.areRenderable_append, Renderable.areRenderable_append,
    Renderable.areRenderable_append, hmodules, hdetails, Item.areRenderable, Item.areRenderable,
    isRenderable_networkModule, Bool.and_true]
  exact Bool.and_true _

theorem areRenderable_main_bindAll (cidr : String) (s : Network.Subnets) (spec : Spec) :
    Item.areRenderable (mainDocument cidr s (bindAll .builtIn spec)).items = true ↔
      ∀ w ∈ spec.workloads, w.2.type = "container" ∨ w.2.type = "function" →
        ∀ e ∈ w.2.environment, e.2.isRenderable true = true := by
  rw [areRenderable_main, List.all_eq_true, bindAll, List.forall_mem_map]
  exact forall₂_congr fun w _ => isPassable_bind w.2

/-! ## Compiling -/

theorem compiles_of_compiled {spec : Spec} {options : Options} {s : Network.Subnets} {p : Project}
    (h : IsCompiled .builtIn spec options s p) : Compiles true spec options.strict := by
  obtain ⟨hprovider, hvpc, hnetwork⟩ := check_ok_iff.mp h.checked
  have hrendered : ∀ d text, IsTextOf p.name d text → Item.areRenderable d.items = true := by
    intro d text htext
    rw [← isOk_render p.name, render, isOk_mapError, htext]
    rfl
  refine ⟨Text.isProviderName_iff.mp hprovider, hvpc, ?network, ?tags, ?environments, ?required⟩
  case network => exact isRoomy_cidrOf.mp (exists_ofCidr_iff.mp ⟨s, hnetwork⟩)
  case tags =>
    have hinputs := hrendered _ _ h.inputs
    rw [areRenderable_inputs] at hinputs
    exact List.all_eq_true.mp hinputs
  case environments => exact (areRenderable_main_bindAll _ _ _).mp (hrendered _ _ h.main)
  case required => exact fun hstrict => missingFields_eq_nil.mp (h.complete hstrict)

theorem exists_compiled_of_compiles {spec : Spec} {options : Options}
    (h : Compiles true spec options.strict) :
    ∃ p, (compile .builtIn spec options).result = .ok p := by
  obtain ⟨s, hs⟩ := exists_ofCidr_iff.mpr (isRoomy_cidrOf.mpr h.network)
  have hcheck := check_ok_iff.mpr ⟨Text.isProviderName_iff.mpr h.provider, h.unreserved, hs⟩
  refine exists_compiled hcheck (fun hstrict => missingFields_eq_nil.mpr (h.required hstrict)) ?_ ?_
  · rw [areRenderable_inputs]
    exact List.all_eq_true.mpr h.tags
  · exact (areRenderable_main_bindAll _ _ _).mpr h.environments

theorem compiles_essential {source strict : Bool} {spec : Spec} :
    Compiles source spec.essential strict ↔ Compiles source spec strict := by
  have hnames : spec.essential.workloads.map Prod.fst = spec.workloads.map Prod.fst := by
    rw [Spec.essential, List.map_map]
    rfl
  have hall : ∀ q : String × Workload → Prop,
      (∀ w ∈ spec.essential.workloads, q w) ↔ ∀ w ∈ spec.workloads, q (w.1, w.2.essential) :=
    fun _ => List.forall_mem_map
  constructor
  · rintro ⟨hprovider, hvpc, hnetwork, htags, henvironments, hrequired⟩
    rw [hnames] at hvpc
    exact ⟨hprovider, hvpc, hnetwork, htags, (hall _).mp henvironments,
      fun hstrict => (hall _).mp (hrequired hstrict)⟩
  · rintro ⟨hprovider, hvpc, hnetwork, htags, henvironments, hrequired⟩
    rw [← hnames] at hvpc
    exact ⟨hprovider, hvpc, hnetwork, htags, (hall _).mpr henvironments,
      fun hstrict => (hall _).mpr (hrequired hstrict)⟩

theorem ok_iff_compiles {spec : Spec} {options : Options} :
    (∃ p, (compile .builtIn spec options).result = .ok p) ↔ Compiles true spec options.strict := by
  constructor
  · rintro ⟨p, hp⟩
    obtain ⟨s, hs⟩ := compiled_of_builtIn hp
    exact compiles_of_compiled hs
  · exact exists_compiled_of_compiles

/-- Whether a specification compiles; otherwise there is a reason why not.  Nothing else in
it matters, and neither do the credentials. -/
theorem compile_succeeds_iff (spec : Spec) (options : Options) :
    ((∃ p, (compile .builtIn spec options).result = .ok p) ↔ Compiles true spec options.strict) ∧
      ((∃ f, (compile .builtIn spec options).result = .error f) ↔
        ¬Compiles true spec options.strict) ∧
      ∀ spec' options', spec'.essential = spec.essential → options'.strict = options.strict →
        ((∃ p, (compile .builtIn spec' options').result = .ok p) ↔
          ∃ p, (compile .builtIn spec options).result = .ok p) := by
  refine ⟨ok_iff_compiles, ?_, fun spec' options' hspec hstrict => ?_⟩
  · rw [← ok_iff_compiles]
    cases (compile .builtIn spec options).result with
    | error f => exact ⟨fun _ ⟨_, h⟩ => error_ne_ok h, fun _ => ⟨f, rfl⟩⟩
    | ok p => exact ⟨fun ⟨_, h⟩ => (error_ne_ok h.symm).elim, fun h => absurd ⟨p, rfl⟩ h⟩
  · rw [ok_iff_compiles, ok_iff_compiles, ← compiles_essential, hspec, hstrict, compiles_essential]

/-- A document with source text for the value of a tag. -/
def sourceTag : Datum :=
  .mapping [(.text "metadata", .mapping [(.text "tags", .mapping [(.text "owner", .expr "var.owner")])])]

/-- Source text cannot be left out of the values that can be written. -/
theorem compiles_sourceTag :
    ∃ spec, Spec.ofDatum "<spec>" sourceTag = .ok spec ∧
      (∃ p, (compile .builtIn spec {}).result = .ok p) ∧ ¬Compiles false spec false := by
  refine ⟨{ metadata := { tags := [("owner", .expr "var.owner")] } }, rfl, ?_, fun h => ?_⟩
  · refine ok_iff_compiles.mpr ⟨Text.isProviderName_iff.mp (by decide), by decide, ?_, by decide,
      by decide, fun h => nomatch h⟩
    intro cidr h
    cases h
  · exact absurd (h.tags _ List.mem_cons_self) (by decide)

end Project
end Groundplan
