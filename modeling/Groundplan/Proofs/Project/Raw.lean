/-
What the documents of a project write raw.

Apart from fixed words these are the provider, the references to the modules of the
workloads, and what a program has put into the values of tags and environments.  All else
that comes from a specification is a text or was a document, which holds nothing raw.  So
a property that composes holds of every file of a project as soon as it holds of these few,
which is `IsCompiled.forall_files`.
-/
import Groundplan.Proofs.Hcl.Composition
import Groundplan.Proofs.Hcl.Raw
import Groundplan.Proofs.Project.Compiled

namespace Groundplan
namespace Project

open Hcl

def isDottedChar (c : Char) : Bool :=
  Text.isLetter c || Text.isAsciiDigit c || c == '_' || c == '.'

/-- A word of names joined by points. -/
def isDotted (s : String) : Bool := s.toList.all isDottedChar

variable {p : String → Bool}

/-- What a specification brings along raw has the property.  Environments count only where
the template of the type passes them on. -/
structure Brings (p : String → Bool) (spec : Spec) : Prop where
  tags : (Value.ofEntries spec.metadata.tags).allRaw p = true
  environments : ∀ w ∈ spec.workloads, w.2.type = "container" ∨ w.2.type = "function" →
    (Value.ofEntries w.2.environment).allRaw p = true

/-- Documents bring nothing along. -/
theorem brings_of_accepted {spec : Spec} (accepted : spec.Accepted) : Brings p spec :=
  ⟨allRaw_ofEntries accepted.tags, fun w hw _ => allRaw_ofEntries (accepted.environments w hw)⟩

/-! ## Bindings -/

/-- What a workload passes to its module has the property. -/
def Binds (p : String → Bool) (b : Module.Binding) : Prop :=
  ∀ a ∈ b.attributes, a.toItem.allRaw p = true

theorem binds_append {a b : Module.Binding} (ha : Binds p a) (hb : Binds p b) : Binds p (a ++ b) :=
  List.forall_mem_append.mpr ⟨ha, hb⟩

theorem binds_required {name : String} (hname : p name = true) (source : String)
    (value : Option String) : Binds p (.required name source value) := by
  cases value with
  | none => exact List.forall_mem_singleton.mpr (allRaw_attribute hname rfl)
  | some v => exact List.forall_mem_singleton.mpr (allRaw_attribute hname rfl)

theorem binds_always {name : String} (hname : p name = true) {value : Value}
    (hvalue : value.allRaw p = true) : Binds p (.always name value) :=
  List.forall_mem_singleton.mpr (allRaw_attribute hname hvalue)

theorem binds_optional {α : Type} {name : String} (hname : p name = true) {f : α → Value}
    (hf : ∀ x, (f x).allRaw p = true) (value : Option α) {default : Value}
    (hdefault : default.allRaw p = true) : Binds p (.optional name (value.map f) default) := by
  refine List.forall_mem_singleton.mpr (allRaw_attribute hname ?_)
  cases value with
  | none => exact hdefault
  | some x => exact hf x

theorem allRaw_ofQuantity : ∀ q : Quantity, (Value.ofQuantity q).allRaw p = true
  | .whole _ => rfl
  | .real _ => rfl

section

-- Fixed words have the property, whichever it is.
variable (hp : ∀ {s : String}, isDotted s = true → p s = true)
include hp

theorem binds_template {t : Module.Template} (ht : t ∈ builtInTemplates) {w : Workload}
    (hw : t.typeName = "container" ∨ t.typeName = "function" →
      (Value.ofEntries w.environment).allRaw p = true) : Binds p (t.bind w) := by
  simp only [builtInTemplates, List.mem_cons, List.not_mem_nil, or_false] at ht
  rcases ht with rfl | rfl | rfl | rfl
  · refine binds_append (binds_append (binds_append (binds_append (binds_append ?image ?cpu) ?memory)
      ?port) ?replicas) ?environment
    case image => exact binds_required (hp (by decide)) _ _
    case cpu => exact binds_optional (hp (by decide)) allRaw_ofQuantity _ rfl
    case memory => exact binds_optional (hp (by decide)) allRaw_ofQuantity _ rfl
    case port => exact binds_optional (hp (by decide)) (fun _ => rfl) _ rfl
    case replicas => exact binds_optional (hp (by decide)) (fun _ => rfl) _ rfl
    case environment => exact binds_always (hp (by decide)) (hw (.inl rfl))
  · refine binds_append (binds_append (binds_append (binds_append ?engine ?version) ?size) ?storage)
      ?retention
    case engine => exact binds_required (hp (by decide)) _ _
    case version => exact binds_required (hp (by decide)) _ _
    case size => exact binds_optional (hp (by decide)) (fun _ => rfl) _ rfl
    case storage => exact binds_optional (hp (by decide)) (fun _ => rfl) _ rfl
    case retention => exact binds_optional (hp (by decide)) (fun _ => rfl) _ rfl
  · refine binds_append (binds_append (binds_append ?runtime ?handler) ?memory) ?environment
    case runtime => exact binds_required (hp (by decide)) _ _
    case handler => exact binds_required (hp (by decide)) _ _
    case memory => exact binds_optional (hp (by decide)) allRaw_ofQuantity _ rfl
    case environment => exact binds_always (hp (by decide)) (hw (.inr rfl))
  · exact fun a ha => absurd ha List.not_mem_nil

theorem binds_bound {spec : Spec} (brings : Brings p spec) :
    ∀ b ∈ bindAll .builtIn spec, Binds p b.binding := by
  intro b hb
  obtain ⟨w, hw, rfl⟩ := List.mem_map.mp hb
  refine binds_template hp (template_mem_builtInTemplates _) fun htype => ?_
  exact brings.environments w hw (type_of_typeName htype)

/-! ## Documents -/

theorem allRaw_provider {m : Metadata} (h : p m.provider = true) :
    Item.allRawList p (providerDocument m).items = true := by
  refine allRawList_cons ?region (allRawList_cons ?versions rfl)
  case region =>
    exact allRaw_block (hp (by decide)) (allRawList_cons (allRaw_attribute (hp (by decide)) rfl) rfl)
  case versions =>
    refine allRaw_block (hp (by decide)) (allRawList_cons (allRaw_block (hp (by decide)) ?_) rfl)
    exact allRawList_cons (allRaw_attribute h rfl) rfl

theorem allRaw_rootVariable (name description value : String) :
    (rootVariable name description value).allRaw p = true :=
  allRaw_block (hp (by decide)) (allRawList_cons (allRaw_attribute (hp (by decide)) rfl)
    (allRawList_cons (allRaw_attribute (hp (by decide)) rfl) rfl))

theorem allRaw_rootInputs {m : Metadata} (h : (Value.ofEntries m.tags).allRaw p = true) :
    Item.allRawList p (inputsDocument m).items = true := by
  refine allRawList_cons (allRaw_rootVariable hp _ _ _) (allRawList_cons
    (allRaw_rootVariable hp _ _ _) (allRawList_cons (allRaw_rootVariable hp _ _ _)
      (allRawList_cons ?locals rfl)))
  exact allRaw_block (hp (by decide))
    (allRawList_cons (allRaw_attribute (hp (by decide)) h) rfl)

theorem allRaw_commonTags : commonTags.allRaw p = true :=
  allRaw_attribute (hp (by decide)) (allRaw_ref (hp (by decide)))

theorem allRaw_networkModule (cidr : String) (s : Network.Subnets) :
    (networkModule cidr s).allRaw p = true := by
  refine allRaw_block (hp (by decide)) ?_
  simp only [allRawList_iff, List.forall_mem_cons, List.not_mem_nil, false_implies, implies_true,
    and_true]
  refine ⟨?source, rfl, ?name, ?cidr, rfl, ?azs, ?privateRanges, ?publicRanges, rfl, ?nat, ?single,
    rfl, allRaw_commonTags hp⟩
  case source => exact allRaw_attribute (hp (by decide)) rfl
  case name => exact allRaw_attribute (hp (by decide)) rfl
  case cidr => exact allRaw_attribute (hp (by decide)) rfl
  case azs => exact allRaw_attribute (hp (by decide)) rfl
  case privateRanges => exact allRaw_attribute (hp (by decide)) (allRaw_texts _ _)
  case publicRanges => exact allRaw_attribute (hp (by decide)) (allRaw_texts _ _)
  case nat => exact allRaw_attribute (hp (by decide)) rfl
  case single => exact allRaw_attribute (hp (by decide)) rfl

theorem allRaw_commonAttributes (name : String) :
    ∀ a ∈ commonAttributes name, a.toItem.allRaw p = true := by
  simp only [commonAttributes, List.forall_mem_cons, List.not_mem_nil, false_implies, implies_true,
    and_true]
  refine ⟨allRaw_attribute (hp (s := "name") (by decide)) rfl, ?_, ?_, ?_, ?_⟩
  all_goals exact allRaw_attribute (hp (by decide)) (allRaw_ref (hp (by decide)))

theorem allRaw_workloadModule {name type : String} {b : Module.Binding} (hb : Binds p b) :
    (workloadModule name type b).allRaw p = true := by
  refine allRaw_block (hp (by decide)) (allRawList_append (allRawList_append
    (allRawList_append ?source (allRawList_attributes (allRaw_commonAttributes hp name))) ?bound)
    (allRawList_cons rfl (allRawList_cons (allRaw_commonTags hp) rfl)))
  case source =>
    exact allRawList_cons (allRaw_attribute (hp (by decide)) rfl) (allRawList_cons rfl rfl)
  case bound =>
    split
    · rfl
    · exact allRawList_cons rfl (allRawList_attributes hb)

theorem allRaw_outputBlock {name value : String} (h : p value = true) :
    (outputBlock name value).allRaw p = true :=
  allRaw_block (hp (by decide))
    (allRawList_cons (allRaw_attribute (hp (by decide)) (allRaw_ref h)) rfl)

theorem allRaw_main (cidr : String) (s : Network.Subnets) {bound : List Bound}
    (hnames : ∀ b ∈ bound, p ("module." ++ b.name) = true) (hbinds : ∀ b ∈ bound, Binds p b.binding) :
    Item.allRawList p (mainDocument cidr s bound).items = true := by
  rw [mainDocument]
  refine allRawList_append (allRawList_append (allRawList_append ?network ?modules) ?vpc) ?details
  case network => exact allRawList_cons rfl (allRawList_cons (allRaw_networkModule hp cidr s) rfl)
  case modules =>
    rw [allRawList_iff]
    intro i hi
    obtain ⟨b, hb, hi⟩ := List.mem_flatMap.mp hi
    rcases List.mem_cons.mp hi with rfl | hi
    · rfl
    · rw [List.mem_singleton.mp hi]
      exact allRaw_workloadModule hp (hbinds b hb)
  case vpc =>
    exact allRawList_cons rfl (allRawList_cons (allRaw_outputBlock hp (hp (by decide))) rfl)
  case details =>
    rw [allRawList_iff]
    intro i hi
    obtain ⟨b, hb, rfl⟩ := List.mem_map.mp hi
    exact allRaw_outputBlock hp (hnames b hb)

end

/-! ## Child modules -/

/-- Whether all that the files for a template hold raw has a property. -/
def areRaw (p : String → Bool) (t : Module.Template) (credentials : Credentials) : Bool :=
  Item.allRawList p t.inputsDocument.items && Item.allRawList p (t.resources credentials).items &&
    Item.allRawList p t.outputsDocument.items

theorem areRaw_mono {p q : String → Bool} (hpq : ∀ s, p s = true → q s = true)
    {t : Module.Template} {credentials : Credentials} (h : areRaw p t credentials = true) :
    areRaw q t credentials = true := by
  rw [areRaw, Bool.and_eq_true, Bool.and_eq_true] at h ⊢
  exact ⟨⟨Item.allRawList_mono hpq h.1.1, Item.allRawList_mono hpq h.1.2⟩,
    Item.allRawList_mono hpq h.2⟩

/-- What the built-in templates hold raw stays in its place and on its lines. -/
theorem areRaw_builtIn {t : Module.Template} (ht : t ∈ builtInTemplates) (credentials : Credentials) :
    areRaw (holds fun cs => Contained cs ∧ '\r' ∉ cs) t credentials = true := by
  have hboth : ∀ t ∈ builtInTemplates,
      areRaw (holds fun cs => Contained cs ∧ '\r' ∉ cs) t .managed = true ∧
        areRaw (holds fun cs => Contained cs ∧ '\r' ∉ cs) t .placeholder = true := by
    decide +kernel
  cases credentials with
  | managed => exact (hboth t ht).1
  | placeholder => exact (hboth t ht).2

/-! ## Files -/

section

variable {P : List Char → Prop} [DecidablePred P] (hP : Composes P)
include hP

theorem holds_of_isDotted {s : String} (h : isDotted s = true) : holds P s = true :=
  decide_eq_true (hP.inert (List.all_eq_true.mpr fun c hc =>
    isInert_of_class (q := isDottedChar) (by decide) c (List.all_eq_true.mp h c hc)))

theorem composes_of_isTextOf {project text : String} {d : Document}
    (hd : Item.allRawList (holds P) d.items = true) (h : IsTextOf project d text) : P text.toList := by
  refine hP.render ?_ h
  rw [withBanner, Item.allRawList, Item.allRawList, hd]
  rfl

theorem forall_moduleFiles {project typeName : String} {t : Module.Template}
    {credentials : Credentials} {m : ModuleFiles} (ht : areRaw (holds P) t credentials = true)
    (h : IsModuleOf project t credentials typeName m) : ∀ f ∈ m.files, P f.2.toList := by
  rw [areRaw, Bool.and_eq_true, Bool.and_eq_true] at ht
  simp only [ModuleFiles.files, List.forall_mem_cons, List.not_mem_nil, false_implies, implies_true,
    and_true]
  exact ⟨composes_of_isTextOf hP ht.1.1 h.inputs, composes_of_isTextOf hP ht.1.2 h.main,
    composes_of_isTextOf hP ht.2 h.outputs⟩

theorem forall_rootFiles {spec : Spec} {options : Options} {s : Network.Subnets} {p : Project}
    (names : ∀ w ∈ spec.workloads, Text.isWorkloadName w.1 = true) (brings : Brings (holds P) spec)
    (h : IsCompiled .builtIn spec options s p) : ∀ f ∈ p.root.files, P f.2.toList := by
  have hdotted : ∀ {s : String}, isDotted s = true → holds P s = true := holds_of_isDotted hP
  have hprovider : holds P spec.metadata.provider = true :=
    decide_eq_true (hP.name (by decide) (by decide) (isProviderName_of_check h.checked))
  have hnames : ∀ b ∈ bindAll .builtIn spec, holds P ("module." ++ b.name) = true := by
    intro b hb
    obtain ⟨w, hw, rfl⟩ := List.mem_map.mp hb
    refine decide_eq_true ?_
    rw [String.toList_append]
    exact hP.append (hP.inert (by decide)) (hP.name (by decide) (by decide) (names w hw))
  simp only [RootFiles.files, List.forall_mem_cons, List.not_mem_nil, false_implies, implies_true,
    and_true]
  exact ⟨composes_of_isTextOf hP (allRaw_provider hdotted hprovider) h.provider,
    composes_of_isTextOf hP (allRaw_rootInputs hdotted brings.tags) h.inputs,
    composes_of_isTextOf hP (allRaw_main hdotted _ s hnames (binds_bound hdotted brings)) h.main⟩

/-- A property that composes holds of all files of a project if it holds of what is raw in the
templates and of what the specification brings along. -/
theorem IsCompiled.forall_files (templates : ∀ cs, Contained cs ∧ '\r' ∉ cs → P cs)
    {spec : Spec} {options : Options} {s : Network.Subnets} {p : Project}
    (names : ∀ w ∈ spec.workloads, Text.isWorkloadName w.1 = true) (brings : Brings (holds P) spec)
    (h : IsCompiled .builtIn spec options s p) : ∀ f ∈ p.files, P f.2.toList := by
  rw [files, List.forall_mem_append]
  refine ⟨forall_rootFiles hP names brings h, fun f hf => ?_⟩
  obtain ⟨m, hm, hf⟩ := List.mem_flatMap.mp hf
  obtain ⟨t, -, hmodule⟩ := h.exists_type hm
  have ht := areRaw_builtIn (template_mem_builtInTemplates t) options.credentials
  refine forall_moduleFiles hP (areRaw_mono (fun text htext => ?_) ht) hmodule f hf
  exact decide_eq_true (templates _ (of_decide_eq_true htext))

end

end Project
end Groundplan
