/-
What a workload contributes to a project.

Whoever takes a workload out of a specification wants to know that this touches nothing but what
belongs to it.  In the root module that is two sections, one with its module block and one
with its output; what stands around them, and every other file, does not depend on it.
-/
import Groundplan.Proofs.Hcl.Sections
import Groundplan.Proofs.Project.Integrity

namespace Groundplan
namespace Project

open Hcl

/-! ## What belongs to a workload -/

/-- A workload with what its template binds for it. -/
def boundOf (w : String × Workload) : Bound :=
  ⟨w.1, w.2, (Module.Library.builtIn.template w.2.type).bind w.2⟩

def detailsBlock (name : String) : Item := outputBlock (name ++ "_details") ("module." ++ name)

/-- The comment and the module block of a workload, as they stand in the root module. -/
def blockText (w : String × Workload) : Except RenderFault String := sectionText (boundOf w).items

/-- The output of a workload, as it stands in the root module. -/
def detailsText (w : String × Workload) : Except RenderFault String :=
  sectionText [detailsBlock w.1]

/-- A project is another one without a workload; the others stay. -/
structure IsWithout (w : String × Workload) (others : List (String × Workload)) (p p' : Project) :
    Prop where
  main : ∃ before between after block details, blockText w = .ok block ∧
    detailsText w = .ok details ∧
    p.root.main = before ++ block ++ between ++ details ++ after ∧
    p'.root.main = before ++ between ++ after
  unchanged : ∀ path text text', path ≠ "main.tf" → (path, text) ∈ p.files →
    (path, text') ∈ p'.files → text' = text
  kept : ∀ path ∈ p'.files.map Prod.fst, path ∈ p.files.map Prod.fst
  gone : ∀ path ∈ p.files.map Prod.fst, path ∉ p'.files.map Prod.fst ↔
    path ∈ modulePaths w.2.type ∧ ∀ o ∈ others, o.2.type ≠ w.2.type

/-- What the files of two projects have in common follows from what their specifications
have in common. -/
structure IsLocal (spec spec' : Spec) (options options' : Options) (p p' : Project) : Prop where
  removal : options'.credentials = options.credentials → ∀ before w after,
    spec.workloads = before ++ w :: after → spec' = { spec with workloads := before ++ after } →
      IsWithout w (before ++ after) p p'
  /-- A child module is made of the name of the project, its template and where passwords
  come from. -/
  modules : spec'.metadata.name = spec.metadata.name → options'.credentials = options.credentials →
    ∀ m ∈ p.modules, ∀ m' ∈ p'.modules,
      Module.Library.builtIn.template m'.typeName = Module.Library.builtIn.template m.typeName →
        m'.inputs = m.inputs ∧ m'.main = m.main ∧ m'.outputs = m.outputs
  /-- Of the metadata the root module sees only the name. -/
  metadata : spec'.metadata.name = spec.metadata.name →
    spec' = { spec with metadata := spec'.metadata } → p'.root.main = p.root.main

/-! ## Documents -/

theorem IsTextOf.eq {project : String} {d : Document} {text text' : String}
    (h : IsTextOf project d text) (h' : IsTextOf project d text') : text' = text :=
  Except.ok.inj (h'.symm.trans h)

/-- The documents of the child module for a type. -/
def moduleDocuments (credentials : Credentials) (type : String) : List (String × Document) :=
  let t := Module.Library.builtIn.template type
  [("modules/" ++ type ++ "/variables.tf", t.inputsDocument),
    ("modules/" ++ type ++ "/main.tf", t.resources credentials),
    ("modules/" ++ type ++ "/outputs.tf", t.outputsDocument)]

/-- All documents but that of the root module, which is the only one that sees what is in
a workload. -/
def otherDocuments (spec : Spec) (credentials : Credentials) : List (String × Document) :=
  ("provider.tf", providerDocument spec.metadata) ::
    ("variables.tf", inputsDocument spec.metadata) :: (distinctTypes spec).flatMap (moduleDocuments credentials)

section

variable {spec : Spec} {options : Options} {s : Network.Subnets} {p : Project}
  (h : IsCompiled .builtIn spec options s p)

include h

theorem exists_moduleDocument {m : ModuleFiles} (hm : m ∈ p.modules) {path text : String}
    (hfile : (path, text) ∈ m.files) :
    ∃ d, (path, d) ∈ otherDocuments spec options.credentials ∧ IsTextOf p.name d text := by
  obtain ⟨t, ht, hmodule⟩ := h.exists_type hm
  rw [workloadTypes_eq] at ht
  have hmem : ∀ d ∈ moduleDocuments options.credentials t,
      d ∈ otherDocuments spec options.credentials := fun d hd =>
    List.mem_cons_of_mem _ (List.mem_cons_of_mem _ (List.mem_flatMap.mpr ⟨t, ht, hd⟩))
  rw [ModuleFiles.files, ModuleFiles.path, hmodule.typeName] at hfile
  simp only [List.mem_cons, List.not_mem_nil, or_false, Prod.mk.injEq] at hfile
  rcases hfile with ⟨rfl, rfl⟩ | ⟨rfl, rfl⟩ | ⟨rfl, rfl⟩
  · exact ⟨_, hmem _ (by simp [moduleDocuments]), hmodule.inputs⟩
  · exact ⟨_, hmem _ (by simp [moduleDocuments]), hmodule.main⟩
  · exact ⟨_, hmem _ (by simp [moduleDocuments]), hmodule.outputs⟩

/-- Every file but one is the text of one of these documents. -/
theorem exists_document {path text : String} (hfile : (path, text) ∈ p.files)
    (hpath : path ≠ "main.tf") :
    ∃ d, (path, d) ∈ otherDocuments spec options.credentials ∧ IsTextOf p.name d text := by
  rcases List.mem_append.mp hfile with hroot | hmodules
  · simp only [RootFiles.files, List.mem_cons, List.not_mem_nil, or_false, Prod.mk.injEq] at hroot
    rcases hroot with ⟨rfl, rfl⟩ | ⟨rfl, rfl⟩ | ⟨rfl, rfl⟩
    · exact ⟨_, List.mem_cons_self, h.provider⟩
    · exact ⟨_, List.mem_cons_of_mem _ List.mem_cons_self, h.inputs⟩
    · exact absurd rfl hpath
  · obtain ⟨m, hm, hfile⟩ := List.mem_flatMap.mp hmodules
    exact exists_moduleDocument h hm hfile

end

theorem map_fst_otherDocuments (spec : Spec) (credentials : Credentials) :
    (otherDocuments spec credentials).map Prod.fst =
      "provider.tf" :: "variables.tf" :: (distinctTypes spec).flatMap modulePaths := by
  rw [otherDocuments, List.map_cons, List.map_cons, List.map_flatMap]
  rfl

theorem nodup_otherDocuments (spec : Spec) (credentials : Credentials) :
    ((otherDocuments spec credentials).map Prod.fst).Nodup := by
  rw [map_fst_otherDocuments]
  have hall : (["provider.tf", "variables.tf", "main.tf"] ++
      (distinctTypes spec).flatMap modulePaths).Nodup := nodup_paths (nodup_eraseDups _)
  have hrest : List.Sublist ((distinctTypes spec).flatMap modulePaths)
      ("main.tf" :: (distinctTypes spec).flatMap modulePaths) := List.sublist_cons_self _ _
  exact hall.sublist ((hrest.cons_cons _).cons_cons _)

/-! ## Taking out a workload -/

theorem isClosed_items (w : String × Workload) : IsClosed (boundOf w).items := rfl

theorem isClosed_details (w : String × Workload) : IsClosed [detailsBlock w.1] := rfl

/-- The items in front of the workloads. -/
def networkItems (project cidr : String) (s : Network.Subnets) : List Item :=
  [banner project, .blank, .comment "Shared networking", networkModule cidr s]

/-- The items between the workloads and their outputs. -/
def outputItems : List Item := [.comment "Outputs", outputBlock "vpc_id" "module.vpc.vpc_id"]

def workloadItems (ws : List (String × Workload)) : List Item :=
  ws.flatMap fun w => (boundOf w).items

def detailsItems (ws : List (String × Workload)) : List Item :=
  ws.flatMap fun w => [detailsBlock w.1]

theorem items_main (project cidr : String) (s : Network.Subnets) (ws : List (String × Workload)) :
    (withBanner project (mainDocument cidr s (ws.map boundOf))).items =
      networkItems project cidr s ++ (workloadItems ws ++ (outputItems ++ detailsItems ws)) := by
  have hdetails : ((ws.map boundOf).map fun b =>
        outputBlock (b.name ++ "_details") ("module." ++ b.name)) =
      detailsItems ws := by
    rw [List.map_map]
    exact (List.flatMap_pure_eq_map _ ws).symm
  rw [withBanner, mainDocument, hdetails, List.flatMap_map]
  simp only [networkItems, workloadItems, outputItems, List.append_assoc, List.cons_append,
    List.nil_append]

theorem main_without {project cidr : String} {s : Network.Subnets}
    {before after : List (String × Workload)} {w : String × Workload} {text text' : String}
    (h : IsTextOf project (mainDocument cidr s ((before ++ w :: after).map boundOf)) text)
    (h' : IsTextOf project (mainDocument cidr s ((before ++ after).map boundOf)) text') :
    ∃ x y z block details, blockText w = .ok block ∧ detailsText w = .ok details ∧
      text = x ++ block ++ y ++ details ++ z ∧ text' = x ++ y ++ z := by
  have hitems : (withBanner project
        (mainDocument cidr s ((before ++ w :: after).map boundOf))).items =
      (networkItems project cidr s ++ workloadItems before) ++ ((boundOf w).items ++
        ((workloadItems after ++ (outputItems ++ detailsItems before)) ++ ([detailsBlock w.1] ++
          detailsItems after))) := by
    rw [items_main]
    simp only [workloadItems, detailsItems, List.flatMap_append, List.flatMap_cons,
      List.append_assoc]
  have hitems' : (withBanner project (mainDocument cidr s ((before ++ after).map boundOf))).items =
      (networkItems project cidr s ++ workloadItems before) ++
        ((workloadItems after ++ (outputItems ++ detailsItems before)) ++ detailsItems after) := by
    rw [items_main]
    simp only [workloadItems, detailsItems, List.flatMap_append, List.append_assoc]
  refine render_without hitems hitems' ?_ (isClosed_items w) ?_ (isClosed_details w) ?_ ?_ ?_ h h'
  · have hnetwork : IsClosed (networkItems project cidr s) := rfl
    exact hnetwork.append_flatMap isClosed_items before
  · have houtput : IsClosed outputItems := rfl
    exact isClosed_append _ (houtput.append_flatMap isClosed_details before)
  · exact ⟨_, _, _, List.mem_append_left _ (List.mem_of_getLast? rfl)⟩
  · exact ⟨_, _, _, List.mem_cons_of_mem _ List.mem_cons_self⟩
  · exact ⟨_, _, _, List.mem_cons_self⟩

/-- The network is cut up in the same way wherever its range is the same. -/
theorem IsCompiled.subnets_eq {spec spec' : Spec} {options options' : Options}
    {s s' : Network.Subnets} {p p' : Project} (h : IsCompiled .builtIn spec options s p)
    (h' : IsCompiled .builtIn spec' options' s' p') (hcidr : cidrOf spec' = cidrOf spec) :
    s' = s := by
  have hs := (check_ok_iff.mp h.checked).2.2
  have hs' := (check_ok_iff.mp h'.checked).2.2
  rw [hcidr] at hs'
  exact Except.ok.inj (hs'.symm.trans hs)

theorem mem_distinctTypes_iff {spec : Spec} {before after : List (String × Workload)}
    {w : String × Workload} (hspec : spec.workloads = before ++ w :: after) {t : String} :
    t ∈ distinctTypes spec ↔
      t = w.2.type ∨ t ∈ distinctTypes { spec with workloads := before ++ after } := by
  rw [mem_distinctTypes, mem_distinctTypes, hspec]
  constructor
  · intro hmem
    obtain ⟨o, ho, rfl⟩ := hmem
    rcases List.mem_append.mp ho with ho | ho
    · exact .inr ⟨o, List.mem_append_left _ ho, rfl⟩
    · rcases List.mem_cons.mp ho with rfl | ho
      · exact .inl rfl
      · exact .inr ⟨o, List.mem_append_right _ ho, rfl⟩
  · intro hmem
    obtain rfl | ⟨o, ho, rfl⟩ := hmem
    · exact ⟨w, List.mem_append_right _ List.mem_cons_self, rfl⟩
    · rcases List.mem_append.mp ho with ho | ho
      · exact ⟨o, List.mem_append_left _ ho, rfl⟩
      · exact ⟨o, List.mem_append_right _ (List.mem_cons_of_mem _ ho), rfl⟩

/-- A path is one of the root module or one of a child module, and not both. -/
theorem mem_modulePaths_iff {types : List String} {path : String} {t : String}
    (ht : path ∈ modulePaths t) :
    path ∈ ["provider.tf", "variables.tf", "main.tf"] ++ types.flatMap modulePaths ↔ t ∈ types := by
  have happart := List.nodup_append.mp (nodup_paths (List.nodup_singleton t))
  have hroot : path ∉ ["provider.tf", "variables.tf", "main.tf"] := fun hroot =>
    happart.2.2 path hroot path (List.mem_flatMap.mpr ⟨t, List.mem_singleton_self t, ht⟩) rfl
  rw [List.mem_append, or_iff_right hroot, List.mem_flatMap]
  constructor
  · intro hmem
    obtain ⟨u, hu, hpath⟩ := hmem
    rw [modulePaths_inj ht hpath]
    exact hu
  · intro hmem
    exact ⟨t, hmem, ht⟩

section

variable {spec : Spec} {options options' : Options} {s s' : Network.Subnets} {p p' : Project}
  {before after : List (String × Workload)} {w : String × Workload}
  (h : IsCompiled .builtIn spec options s p)
  (h' : IsCompiled .builtIn { spec with workloads := before ++ after } options' s' p')
  (hspec : spec.workloads = before ++ w :: after)

include h h' hspec

theorem unchanged_of_without (hcredentials : options'.credentials = options.credentials)
    {path text text' : String} (hpath : path ≠ "main.tf") (hfile : (path, text) ∈ p.files)
    (hfile' : (path, text') ∈ p'.files) : text' = text := by
  obtain ⟨d, hd, htext⟩ := exists_document h hfile hpath
  obtain ⟨d', hd', htext'⟩ := exists_document h' hfile' hpath
  rw [hcredentials] at hd'
  -- What documents are left are documents of the whole.
  have hmem : (path, d') ∈ otherDocuments spec options.credentials := by
    rcases List.mem_cons.mp hd' with hd' | hd'
    · rw [hd']
      exact List.mem_cons_self
    · rcases List.mem_cons.mp hd' with hd' | hd'
      · rw [hd']
        exact List.mem_cons_of_mem _ List.mem_cons_self
      · obtain ⟨t, ht, hd'⟩ := List.mem_flatMap.mp hd'
        refine List.mem_cons_of_mem _ (List.mem_cons_of_mem _ (List.mem_flatMap.mpr ⟨t, ?_, hd'⟩))
        exact (mem_distinctTypes_iff hspec).mpr (.inr ht)
  have hdocument : (path, d') = (path, d) :=
    List.inj_on_of_nodup_map (nodup_otherDocuments spec options.credentials) hmem hd rfl
  rw [(Prod.mk.inj hdocument).2, h'.name] at htext'
  rw [h.name] at htext
  exact htext.eq htext'

theorem isWithout_of_compiled (hcredentials : options'.credentials = options.credentials) :
    IsWithout w (before ++ after) p p' := by
  have hpaths := paths_of_compiled h
  have hpaths' := paths_of_compiled h'
  refine
    { main := ?main
      unchanged := fun path text text' => unchanged_of_without h h' hspec hcredentials
      kept := ?kept
      gone := ?gone }
  case main =>
    have hmain := h.main
    have hmain' := h'.main
    rw [h.name, bindAll, hspec] at hmain
    rw [h'.name, h.subnets_eq h' rfl] at hmain'
    exact main_without hmain hmain'
  case kept =>
    intro path hpath
    rw [hpaths', List.mem_append] at hpath
    rw [hpaths, List.mem_append]
    refine hpath.imp_right fun hpath => ?_
    obtain ⟨t, ht, hpath⟩ := List.mem_flatMap.mp hpath
    exact List.mem_flatMap.mpr ⟨t, (mem_distinctTypes_iff hspec).mpr (.inr ht), hpath⟩
  case gone =>
    intro path hpath
    rw [hpaths']
    have hothers : (∀ o ∈ before ++ after, o.2.type ≠ w.2.type) ↔
        w.2.type ∉ distinctTypes { spec with workloads := before ++ after } := by
      rw [mem_distinctTypes]
      simp only [not_exists, not_and]
    rw [hothers]
    constructor
    · intro hgone
      rw [hpaths] at hpath
      rcases List.mem_append.mp hpath with hroot | hmodule
      · exact absurd (List.mem_append_left _ hroot) hgone
      · obtain ⟨t, ht, hmodule⟩ := List.mem_flatMap.mp hmodule
        rw [mem_modulePaths_iff hmodule] at hgone
        obtain rfl := ((mem_distinctTypes_iff hspec).mp ht).resolve_right hgone
        exact ⟨hmodule, hgone⟩
    · intro hmodule
      rw [mem_modulePaths_iff hmodule.1]
      exact hmodule.2

end

/-! ## What the files of two projects have in common -/

/-- Specifications that compile and differ in one workload have projects that differ in
what belongs to it, and a file depends on no more than it shows. -/
theorem isLocal_of_compile {spec spec' : Spec} {options options' : Options} {p p' : Project}
    (h : (compile .builtIn spec options).result = .ok p)
    (h' : (compile .builtIn spec' options').result = .ok p') :
    IsLocal spec spec' options options' p p' := by
  obtain ⟨s, hs⟩ := compiled_of_builtIn h
  obtain ⟨s', hs'⟩ := compiled_of_builtIn h'
  refine
    { removal := ?removal
      modules := ?modules
      metadata := ?metadata }
  case removal =>
    intro hcredentials before w after hspec hspec'
    subst hspec'
    exact isWithout_of_compiled hs hs' hspec hcredentials
  case modules =>
    intro hname hcredentials m hm m' hm' htemplate
    obtain ⟨t, -, hmodule⟩ := hs.exists_type hm
    obtain ⟨t', -, hmodule'⟩ := hs'.exists_type hm'
    have hproject : p'.name = p.name := by rw [hs'.name, hs.name, hname]
    rw [← hmodule.typeName] at hmodule
    rw [← hmodule'.typeName, htemplate, hproject, hcredentials] at hmodule'
    exact ⟨hmodule.inputs.eq hmodule'.inputs, hmodule.main.eq hmodule'.main,
      hmodule.outputs.eq hmodule'.outputs⟩
  case metadata =>
    intro hname hspec'
    have hcidr : cidrOf spec' = cidrOf spec := by rw [hspec']; rfl
    have hworkloads : spec'.workloads = spec.workloads := by rw [hspec']
    have hmain := hs.main
    have hmain' := hs'.main
    rw [hs.name] at hmain
    rw [hs'.name, hname, hcidr, hs.subnets_eq hs' hcidr, bindAll, hworkloads] at hmain'
    exact hmain.eq hmain'

/-- The specification of hostile texts without the one workload of its type. -/
def hostileWithout : Spec :=
  { hostile with workloads := hostile.workloads.take 2 ++ hostile.workloads.drop 3 }

theorem exists_compiled_hostileWithout : ∃ p, (compile .builtIn hostileWithout {}).result = .ok p :=
  exists_compiled check_hostile (fun h => nomatch h) (by decide) (by decide)

theorem isLocal_of_compile_hostile : ∃ p p', (compile .builtIn hostile {}).result = .ok p ∧
    (compile .builtIn hostileWithout {}).result = .ok p' ∧
    IsLocal hostile hostileWithout {} {} p p' ∧
    IsWithout ("other", { type := "queue" }) hostileWithout.workloads p p' := by
  obtain ⟨p, hp⟩ := exists_compiled_hostile
  obtain ⟨p', hp'⟩ := exists_compiled_hostileWithout
  have hlocal := isLocal_of_compile hp hp'
  exact ⟨p, p', hp, hp', hlocal, hlocal.removal rfl _ _ _ rfl rfl⟩

end Project
end Groundplan
