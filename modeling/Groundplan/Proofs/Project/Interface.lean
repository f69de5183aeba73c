/-
Module calls and the modules that are called.

What the root module passes to a child module comes from the workload, the variables of the
child module from the template of its type, and a type that has no template of its own shares
one with all others of this kind.  Nothing in a template holds its two sides together.  The
names on both sides do not depend on the workload, though, so that they can be compared for
each template once.
-/
import Groundplan.Proofs.Datum.Entries
import Groundplan.Proofs.Project.Integrity

namespace Groundplan
namespace Project

open Hcl Text Rows

/-! ## Calls and interfaces -/

/-- The attributes of a body, without those of the blocks in it. -/
def attributesOf (body : List Item) : List Attribute :=
  body.filterMap fun
    | .attribute name value => some ⟨name, value⟩
    | _ => none

/-- The labels and bodies of the module blocks of a document. -/
def moduleBlocks (d : Document) : List (String × List Item) :=
  d.items.filterMap fun
    | .block "module" [label] body => some (label, body)
    | _ => none

/-- The variables that a document declares, each with its default if it has one. -/
def variablesOf (d : Document) : List (String × Option Value) :=
  d.items.filterMap fun
    | .block "variable" [name] body =>
      some (name, ((attributesOf body).find? fun a => a.name == "default").map Attribute.value)
    | _ => none

/-- An argument that a workload may leave open. -/
structure Argument where
  name : String
  given : Workload → Option Value
  default : Value

/-- The arguments that workloads of a type may leave open, with what stands in for them. -/
def openArguments (type : String) : List Argument :=
  if type = "container" then
    [⟨"cpu", fun w => w.resources.cpu.map Value.ofQuantity, .int 256⟩,
      ⟨"memory", fun w => w.resources.memory.map Value.ofQuantity, .int 512⟩,
      ⟨"port", fun w => w.firstPort.map Value.int, .int 80⟩,
      ⟨"replicas", fun w => w.replicas.map Value.int, .int 1⟩,
      ⟨"environment_variables", fun w => some (.ofEntries w.environment), .object []⟩]
  else if type = "function" then
    [⟨"memory", fun w => w.resources.memory.map Value.ofQuantity, .int 128⟩,
      ⟨"environment_variables", fun w => some (.ofEntries w.environment), .object []⟩]
  else if type = "database" then
    [⟨"instance", fun w => w.resources.instanceType.map Value.text, .text "db.t3.micro"⟩,
      ⟨"storage", fun w => w.resources.storage.map Value.int, .int 20⟩,
      ⟨"backup_retention", fun w => (w.backup.bind Backup.retention).map Value.int, .int 7⟩]
  else []

/-- The arguments that workloads of a type have to give. -/
def requiredArguments (type : String) : List (String × (Workload → Option String)) :=
  if type = "container" then [("image", Workload.image)]
  else if type = "function" then [("runtime", Workload.runtime), ("handler", Workload.handler)]
  else if type = "database" then [("engine", Workload.engine), ("engine_version", Workload.version)]
  else []

/-- The body of a module block goes with the variables of the module that it calls. -/
structure Fits (w : Workload) (body : List Item) (inputs : Document) : Prop where
  source : ⟨"source", .text ("./modules/" ++ w.type)⟩ ∈ attributesOf body
  distinct : ((attributesOf body).map Attribute.name).Nodup
  declared : ∀ a ∈ attributesOf body, a.name ≠ "source" → a.name ∈ (variablesOf inputs).map Prod.fst
  bound : ∀ v ∈ variablesOf inputs, v.2 = none → v.1 ∈ (attributesOf body).map Attribute.name
  required : ∀ r ∈ requiredArguments w.type,
    ⟨r.1, .text ((r.2 w).getD Module.undefined)⟩ ∈ attributesOf body
  /-- What the workload gives counts, and only what it does not give is left to the default,
  which is that of the variable too. -/
  given : ∀ a ∈ openArguments w.type, ⟨a.name, (a.given w).getD a.default⟩ ∈ attributesOf body ∧
    (a.name, some a.default) ∈ variablesOf inputs

/-- The module blocks of a project are those of its workloads, in order, behind the one of the
network, and each goes with the variables in the directory of its type. -/
structure HasInterfaces (spec : Spec) (s : Network.Subnets) (p : Project) : Prop where
  main : IsTextOf p.name (mainDocument (cidrOf spec) s (bindAll .builtIn spec)) p.root.main
  calls : ∃ network blocks,
    moduleBlocks (mainDocument (cidrOf spec) s (bindAll .builtIn spec)) =
      ("vpc", network) :: blocks ∧
    List.Forall₂ (fun w block => block.1 = w.1 ∧ ∃ inputs text,
      p.files.lookup ("modules/" ++ w.2.type ++ "/variables.tf") = some text ∧
      IsTextOf p.name inputs text ∧
      rowsFrom "variable " text =
        (variablesOf inputs).map (fun v => "variable " ++ quote v.1 ++ " \x7b") ∧
      Fits w.2 block.2 inputs) spec.workloads blocks

/-! ## Templates -/

/-- Types without a template of their own have no arguments of their own either. -/
theorem type_cases (type : String) :
    type = "container" ∨ type = "function" ∨ type = "database" ∨
      Module.Library.builtIn.template type = Module.generic ∧
        requiredArguments type = [] ∧ openArguments type = [] := by
  by_cases hcontainer : type = "container"
  · exact .inl hcontainer
  by_cases hfunction : type = "function"
  · exact .inr (.inl hfunction)
  by_cases hdatabase : type = "database"
  · exact .inr (.inr (.inl hdatabase))
  rw [template_builtIn, requiredArguments, openArguments]
  simp only [if_neg hcontainer, if_neg hfunction, if_neg hdatabase]
  exact .inr (.inr (.inr ⟨trivial, trivial, trivial⟩))

theorem attributes_append (a b : Module.Binding) :
    (a ++ b).attributes = a.attributes ++ b.attributes := rfl

theorem attributes_required (name source : String) (value : Option String) :
    (Module.Binding.required name source value).attributes =
      [⟨name, .text (value.getD Module.undefined)⟩] := by
  cases value <;> rfl

/-- What a template binds are the arguments of its type. -/
theorem attributes_bind (type : String) (w : Workload) :
    ((Module.Library.builtIn.template type).bind w).attributes =
      (requiredArguments type).map (fun r => ⟨r.1, .text ((r.2 w).getD Module.undefined)⟩) ++
        (openArguments type).map fun a => ⟨a.name, (a.given w).getD a.default⟩ := by
  rcases type_cases type with rfl | rfl | rfl | ⟨htemplate, hrequired, hopen⟩
  · show (Module.Container.bind w).attributes = _
    rw [Module.Container.bind]
    simp only [attributes_append, attributes_required]
    rfl
  · show (Module.Function.bind w).attributes = _
    rw [Module.Function.bind]
    simp only [attributes_append, attributes_required]
    rfl
  · show (Module.Database.bind w).attributes = _
    rw [Module.Database.bind]
    simp only [attributes_append, attributes_required]
    rfl
  · rw [htemplate, hrequired, hopen]
    rfl

/-- The names of the arguments of a module block, behind the source. -/
def argumentNames (type : String) : List String :=
  ["name", "environment", "vpc_id", "subnets", "public_subnets"] ++
    (requiredArguments type).map Prod.fst ++ (openArguments type).map Argument.name ++ ["tags"]

theorem nodup_argumentNames (type : String) : ("source" :: argumentNames type).Nodup := by
  rcases type_cases type with rfl | rfl | rfl | ⟨-, hrequired, hopen⟩
  · decide
  · decide
  · decide
  · rw [argumentNames, hrequired, hopen]
    decide

theorem argumentNames_subset (type : String) :
    argumentNames type ⊆
      (Module.Library.builtIn.template type).inputs.map Module.Variable.name := by
  rcases type_cases type with rfl | rfl | rfl | ⟨htemplate, hrequired, hopen⟩
  · decide
  · decide
  · decide
  · rw [argumentNames, htemplate, hrequired, hopen]
    decide

theorem mem_argumentNames_of_default {type : String} {v : Module.Variable}
    (hv : v ∈ (Module.Library.builtIn.template type).inputs) (h : v.default = none) :
    v.name ∈ argumentNames type := by
  have hall : ∀ v ∈ (Module.Library.builtIn.template type).inputs,
      v.default.isNone = true → v.name ∈ argumentNames type := by
    rcases type_cases type with rfl | rfl | rfl | ⟨htemplate, hrequired, hopen⟩
    · decide
    · decide
    · decide
    · rw [argumentNames, htemplate, hrequired, hopen]
      decide
  exact hall v hv (Option.isNone_iff_eq_none.mpr h)

/-- Both sides of a template have the same defaults. -/
theorem openArguments_isInfix (type : String) :
    (openArguments type).map (fun a => (a.name, some a.default)) <:+:
      (Module.Library.builtIn.template type).inputs.map fun v => (v.name, v.default) := by
  rcases type_cases type with rfl | rfl | rfl | ⟨-, -, hopen⟩
  · exact ⟨(Module.container.inputs.map fun v => (v.name, v.default)).take 6, _, rfl⟩
  · exact ⟨(Module.function.inputs.map fun v => (v.name, v.default)).take 7, _, rfl⟩
  · exact ⟨(Module.database.inputs.map fun v => (v.name, v.default)).take 7, _, rfl⟩
  · rw [hopen]
    exact List.nil_infix

/-! ## Documents -/

theorem attributesOf_append (a b : List Item) :
    attributesOf (a ++ b) = attributesOf a ++ attributesOf b :=
  List.filterMap_append ..

theorem attributesOf_toItem (as : List Attribute) :
    attributesOf (as.map Attribute.toItem) = as := by
  rw [attributesOf, List.filterMap_map]
  exact List.filterMap_some

/-- The body of the module block of a workload. -/
def moduleBody (b : Bound) : List Item :=
  [set "source" (.text ("./modules/" ++ b.workload.type)), .blank] ++
    (commonAttributes b.name).map Attribute.toItem ++
    (if b.binding.attributes.isEmpty then []
      else .blank :: b.binding.attributes.map Attribute.toItem) ++
    [.blank, commonTags]

theorem attributesOf_moduleBody (b : Bound) :
    attributesOf (moduleBody b) =
      ⟨"source", .text ("./modules/" ++ b.workload.type)⟩ :: commonAttributes b.name ++
        b.binding.attributes ++ [⟨"tags", ref "local.common_tags"⟩] := by
  have hbound : attributesOf (if b.binding.attributes.isEmpty then []
      else .blank :: b.binding.attributes.map Attribute.toItem) = b.binding.attributes := by
    split
    · rename_i hempty
      rw [List.isEmpty_iff.mp hempty]
      rfl
    · exact attributesOf_toItem _
  rw [moduleBody, attributesOf_append, attributesOf_append, attributesOf_append, hbound,
    attributesOf_toItem]
  rfl

theorem moduleBlocks_main (cidr : String) (s : Network.Subnets) (bound : List Bound) :
    ∃ network, moduleBlocks (mainDocument cidr s bound) =
      ("vpc", network) :: bound.map fun b => (b.name, moduleBody b) := by
  obtain ⟨network, hnetwork⟩ : ∃ body, networkModule cidr s = .block "module" ["vpc"] body :=
    ⟨_, rfl⟩
  refine ⟨network, ?_⟩
  have hbound : moduleBlocks ⟨bound.flatMap Bound.items⟩ =
      bound.map fun b => (b.name, moduleBody b) := by
    induction bound with
    | nil => rfl
    | cons b bound ih =>
      rw [moduleBlocks] at ih ⊢
      rw [List.flatMap_cons, List.filterMap_append, ih]
      rfl
  have houtputs : moduleBlocks
      ⟨bound.map fun b => outputBlock (b.name ++ "_details") ("module." ++ b.name)⟩ = [] := by
    rw [moduleBlocks, List.filterMap_map]
    exact List.filterMap_eq_nil_iff.mpr fun _ _ => rfl
  rw [moduleBlocks] at hbound houtputs ⊢
  rw [mainDocument, hnetwork, List.filterMap_append, List.filterMap_append, List.filterMap_append,
    hbound, houtputs]
  exact congrArg (_ :: ·) ((List.append_nil _).trans (List.append_nil _))

theorem variablesOf_inputsDocument (t : Module.Template) :
    variablesOf t.inputsDocument = t.inputs.map fun v => (v.name, v.default) := by
  rw [variablesOf, Module.Template.inputsDocument, List.filterMap_map, ← List.filterMap_eq_map]
  refine List.filterMap_congr fun v _ => ?_
  rw [Function.comp_apply, Function.comp_apply, Module.Variable.toItem]
  cases v.default with
  | none => rfl
  | some value => rfl

theorem rowsFrom_inputs {project text type : String}
    (h : IsTextOf project (Module.Library.builtIn.template type).inputsDocument text) :
    rowsFrom "variable " text =
      (variablesOf (Module.Library.builtIn.template type).inputsDocument).map fun v =>
        "variable " ++ quote v.1 ++ " \x7b" := by
  have hraw : ∀ t ∈ builtInTemplates, Item.allRawList isHanging t.inputsDocument.items = true := by
    decide +kernel
  have htop : ∀ i ∈ (withBanner project
      (Module.Library.builtIn.template type).inputsDocument).items, IsTopLevel i := by
    rw [withBanner, List.forall_mem_cons, List.forall_mem_cons]
    refine ⟨trivial, trivial, fun i hi => ?_⟩
    have hi' := allRawList_iff.mp (hraw _ (template_mem_builtInTemplates type)) i hi
    obtain ⟨v, -, rfl⟩ := List.mem_map.mp hi
    rw [Module.Variable.toItem, Item.allRaw, Bool.and_eq_true] at hi'
    exact ⟨by decide, by decide, hi'.2⟩
  have hheads : ∀ v : Module.Variable,
      headRow? v.toItem = some ("variable " ++ quote v.name ++ " \x7b") :=
    fun v => congrArg some (headRow_singleton _ _ _ _)
  rw [rowsFrom_render (by decide) htop h, variablesOf_inputsDocument, withBanner,
    List.filterMap_cons_none rfl, List.filterMap_cons_none rfl, Module.Template.inputsDocument,
    List.filterMap_map, List.map_map]
  have hmap : (headRow? ∘ Module.Variable.toItem) = some ∘ fun v : Module.Variable =>
      "variable " ++ quote v.name ++ " \x7b" := funext hheads
  rw [hmap, List.filterMap_eq_map]
  refine List.filter_eq_self.mpr fun row hrow => ?_
  obtain ⟨v, -, rfl⟩ := List.mem_map.mp hrow
  rw [String.toList_append, String.toList_append]
  rfl

/-! ## Calls -/

theorem fits_of_bind (name : String) (w : Workload) :
    Fits w (moduleBody ⟨name, w, (Module.Library.builtIn.template w.type).bind w⟩)
      (Module.Library.builtIn.template w.type).inputsDocument := by
  have hattributes := attributesOf_moduleBody
    ⟨name, w, (Module.Library.builtIn.template w.type).bind w⟩
  have hnames : (attributesOf (moduleBody
      ⟨name, w, (Module.Library.builtIn.template w.type).bind w⟩)).map Attribute.name =
        "source" :: argumentNames w.type := by
    rw [hattributes, attributes_bind, argumentNames]
    simp only [List.map_append, List.map_cons, List.map_map]
    rfl
  have hmem : ∀ {a : Attribute},
      a ∈ ((Module.Library.builtIn.template w.type).bind w).attributes →
        a ∈ attributesOf
          (moduleBody ⟨name, w, (Module.Library.builtIn.template w.type).bind w⟩) := by
    intro a ha
    rw [hattributes]
    exact List.mem_append_left _ (List.mem_append_right _ ha)
  rw [attributes_bind] at hmem
  constructor
  case source =>
    rw [hattributes]
    exact List.mem_cons_self
  case distinct =>
    rw [hnames]
    exact nodup_argumentNames w.type
  case declared =>
    intro a ha hsource
    rw [variablesOf_inputsDocument, List.map_map]
    have hname : a.name ∈ "source" :: argumentNames w.type := hnames ▸ List.mem_map_of_mem ha
    exact argumentNames_subset w.type ((List.mem_cons.mp hname).resolve_left hsource)
  case bound =>
    intro v hv hdefault
    rw [variablesOf_inputsDocument] at hv
    obtain ⟨u, hu, rfl⟩ := List.mem_map.mp hv
    rw [hnames]
    exact List.mem_cons_of_mem _ (mem_argumentNames_of_default hu hdefault)
  case required => exact fun r hr => hmem (List.mem_append_left _ (List.mem_map.mpr ⟨r, hr, rfl⟩))
  case given =>
    intro a ha
    refine ⟨hmem (List.mem_append_right _ (List.mem_map.mpr ⟨a, ha, rfl⟩)), ?_⟩
    rw [variablesOf_inputsDocument]
    exact (openArguments_isInfix w.type).subset (List.mem_map.mpr ⟨a, ha, rfl⟩)

theorem lookup_inputs {spec : Spec} {options : Options} {s : Network.Subnets} {p : Project}
    (h : IsCompiled .builtIn spec options s p) {w : String × Workload} (hw : w ∈ spec.workloads) :
    ∃ text, p.files.lookup ("modules/" ++ w.2.type ++ "/variables.tf") = some text ∧
      IsTextOf p.name (Module.Library.builtIn.template w.2.type).inputsDocument text := by
  have htype : w.2.type ∈ spec.workloadTypes := by
    rw [workloadTypes_eq]
    exact mem_distinctTypes.mpr ⟨w, hw, rfl⟩
  obtain ⟨m, hm, hmodule⟩ := exists_of_mem_forall₂ h.modules.flip htype
  refine ⟨m.inputs, ?_, hmodule.inputs⟩
  have hnodup : (p.files.map Prod.fst).Nodup := by
    rw [paths_of_compiled h]
    exact nodup_paths (nodup_eraseDups _)
  refine Entries.lookup_of_mem hnodup ?_
  rw [← hmodule.typeName]
  refine List.mem_append_right _ (List.mem_flatMap.mpr ⟨m, hm, ?_⟩)
  exact List.mem_cons_self

/-- Every workload's module block matches the variables of the module that it calls. -/
theorem hasInterfaces_of_compile {spec : Spec} {options : Options} {p : Project}
    (h : (compile .builtIn spec options).result = .ok p) :
    ∃ s, check spec = .ok s ∧ HasInterfaces spec s p := by
  obtain ⟨s, hs⟩ := compiled_of_builtIn h
  obtain ⟨network, hblocks⟩ := moduleBlocks_main (cidrOf spec) s (bindAll .builtIn spec)
  refine ⟨s, hs.checked, hs.main, network, _, hblocks, ?_⟩
  rw [bindAll, List.map_map, List.forall₂_map_right_iff, List.forall₂_same]
  intro w hw
  obtain ⟨text, hlookup, htext⟩ := lookup_inputs hs hw
  exact ⟨rfl, _, text, hlookup, htext, rowsFrom_inputs htext, fits_of_bind w.1 w.2⟩

theorem hasInterfaces_of_compile_hostile : ∃ p, (compile .builtIn hostile {}).result = .ok p ∧
    ∃ s, check hostile = .ok s ∧ HasInterfaces hostile s p := by
  obtain ⟨p, hp⟩ := exists_compiled_hostile
  exact ⟨p, hp, hasInterfaces_of_compile hp⟩

end Project
end Groundplan
