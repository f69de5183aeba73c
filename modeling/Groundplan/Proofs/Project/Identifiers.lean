/-
Names that are written as they are.

Labels of modules are quoted, but directories, references and the key of the provider are
written as they are, and only because names have been tested is each of them an identifier.
The test lets a newline pass behind a name.  Such a name is accepted, and no identifier; what
is promised of the generated files therefore needs names without a newline.
-/
import Groundplan.Proofs.Project.Integrity
import Groundplan.Proofs.Spec.Source
import Groundplan.Proofs.Text.Names

namespace Groundplan
namespace Project

open Hcl Hcl.Rows Text

/-- Names are tested when a specification is loaded, and the provider when it is compiled. -/
structure HasTestedNames (spec : Spec) : Prop where
  names : ∀ w ∈ spec.workloads, IsUpToNewline isWorkloadWord w.1
  types : ∀ w ∈ spec.workloads, IsUpToNewline isWorkloadWord w.2.type
  provider : ∀ l options p, (compile l spec options).result = .ok p →
    IsUpToNewline isProviderWord spec.metadata.provider

/-- No name has the newline behind it that the test lets pass. -/
structure HasSingleLineNames (spec : Spec) : Prop where
  names : ∀ w ∈ spec.workloads, '\n' ∉ w.1.toList
  types : ∀ w ∈ spec.workloads, '\n' ∉ w.2.type.toList
  provider : '\n' ∉ spec.metadata.provider.toList

/-- Wherever a name stands in a project it is an identifier and alone on its row. -/
structure WritesIdentifiers (spec : Spec) (p : Project) : Prop where
  names : ∀ w ∈ spec.workloads, isWorkloadWord w.1 = true
  labels : rowsFrom "module " p.root.main =
    ("vpc" :: spec.workloads.map Prod.fst).map fun name => "module \"" ++ name ++ "\" \x7b"
  directories : ∀ m ∈ p.modules, isWorkloadWord m.typeName = true
  sources : ∀ w ∈ spec.workloads,
    "  source = \"./modules/" ++ w.2.type ++ "\"" ∈ rows p.root.main
  references : ∀ w ∈ spec.workloads, "  value = module." ++ w.1 ∈ rows p.root.main
  provider : isProviderWord spec.metadata.provider = true
  required : ["  required_providers \x7b", "    " ++ spec.metadata.provider ++ " = \x7b"] <:+:
    rows p.root.provider

/-! ## Names in quotes -/

theorem isVerbatim_of_isWorkloadName {s : String} (h : isWorkloadName s = true)
    (hn : '\n' ∉ s.toList) : Literal.IsVerbatim s.toList := by
  have hout : ∀ a ∈ ['\\', '"', '\r', '\t', '\x7b'], ∀ c ∈ s.toList, c ≠ a := by
    intro a ha c hc hca
    refine (?_ : a ∉ s.toList) (hca ▸ hc)
    simp only [List.mem_cons, List.not_mem_nil, or_false] at ha
    rcases ha with rfl | rfl | rfl | rfl | rfl
    all_goals exact not_mem_of_isName (by decide) (by decide) (by decide) h
  have hnewline : ∀ c ∈ s.toList, c ≠ '\n' := fun c hc hcn => hn (hcn ▸ hc)
  intro c hc
  exact ⟨⟨hout _ (by decide) c hc, hout _ (by decide) c hc, hnewline c hc,
    hout _ (by decide) c hc, hout _ (by decide) c hc⟩, hout _ (by decide) c hc⟩

theorem quote_append_name {a s : String} (ha : Literal.IsVerbatim a.toList)
    (h : isWorkloadName s = true) (hn : '\n' ∉ s.toList) :
    quote (a ++ s) = "\"" ++ a ++ s ++ "\"" := by
  have hall : Literal.IsVerbatim (a ++ s).toList := by
    rw [String.toList_append]
    exact List.forall_mem_append.mpr ⟨ha, isVerbatim_of_isWorkloadName h hn⟩
  rw [quote_of_isVerbatim hall, ← String.append_assoc]

/-! ## Rows with names -/

theorem reference_of_compiled {l : Module.Library} {spec : Spec} {options : Options}
    {s : Network.Subnets} {p : Project} (h : IsCompiled l spec options s p)
    {w : String × Workload} (hw : w ∈ spec.workloads) (hn : '\n' ∉ w.1.toList) :
    "  value = module." ++ w.1 ∈ rows p.root.main := by
  have hitem : outputBlock (w.1 ++ "_details") ("module." ++ w.1) ∈
      (withBanner p.name (mainDocument (cidrOf spec) s (bindAll l spec))).items := by
    rw [withBanner, mainDocument]
    refine List.mem_cons_of_mem _ (List.mem_cons_of_mem _ (List.mem_append_right _ ?_))
    exact List.mem_map.mpr ⟨_, List.mem_map.mpr ⟨w, hw, rfl⟩, rfl⟩
  have hrow : ["  value = module." ++ w.1] <:+: rows p.root.main := by
    refine rows_infix h.main hitem ?_ ?_
    · rw [List.forall_mem_singleton, String.toList_append, List.mem_append, not_or]
      exact ⟨by decide, hn⟩
    · intro inner hinner
      obtain ⟨text, htext, rfl⟩ := blockLines_attribute hinner
      cases htext
      have hvalue : "  value = module." ++ w.1 =
          indent (0 + 1) ++ "value" ++ " = " ++ ("module." ++ w.1) := by
        rw [← String.append_assoc]
        rfl
      rw [hvalue]
      exact List.infix_append [_] [_] [_]
  exact hrow.subset List.mem_cons_self

theorem required_of_compiled {l : Module.Library} {spec : Spec} {options : Options}
    {s : Network.Subnets} {p : Project} (h : IsCompiled l spec options s p)
    (hn : '\n' ∉ spec.metadata.provider.toList) :
    ["  required_providers \x7b", "    " ++ spec.metadata.provider ++ " = \x7b"] <:+:
      rows p.root.provider := by
  have hitem : (providerDocument spec.metadata).items.getLastD .blank ∈
      (withBanner p.name (providerDocument spec.metadata)).items :=
    List.mem_cons_of_mem _ (List.mem_cons_of_mem _ (List.mem_cons_of_mem _ List.mem_cons_self))
  obtain ⟨outer, houter, hinfix⟩ := exists_itemRows h.provider hitem
  obtain ⟨inner, hinner, rfl⟩ := blockLines_block houter
  obtain ⟨text, htext, rfl⟩ := blockLines_attribute hinner
  -- The value is an object, so the line of the key has further rows behind its first.
  have hkey : '\n' ∉ ("    " ++ spec.metadata.provider ++ " = ").toList := by
    rw [String.toList_append, String.toList_append, List.mem_append, List.mem_append]
    simp [hn]
  obtain ⟨rest, hrest⟩ := rows_object hkey htext
  have hrows : linesRows ["  required_providers \x7b",
      "    " ++ spec.metadata.provider ++ " = " ++ text] =
      ["  required_providers \x7b", "    " ++ spec.metadata.provider ++ " = \x7b"] ++ rest := by
    rw [linesRows, List.flatMap_cons, List.flatMap_cons, List.flatMap_nil, hrest,
      rows_of_not_mem (by decide), show " = \x7b" = " = " ++ "\x7b" from rfl,
      ← String.append_assoc, List.append_nil]
    rfl
  refine ((List.prefix_append _ rest).isInfix.trans ?_).trans hinfix
  rw [← hrows]
  exact infix_linesRows (List.infix_append [_] [_, _] [_, _])

/-! ## Loaded specifications -/

theorem hasTestedNames_of_named {spec : Spec} (named : spec.Named) : HasTestedNames spec where
  names := fun w hw => isWorkloadName_iff.mp (named.names w hw)
  types := fun w hw => isWorkloadName_iff.mp (named.types w hw)
  provider := by
    intro l options p hp
    obtain ⟨s, hs⟩ := compiled_of_compile hp
    exact isProviderName_iff.mp (isProviderName_of_check hs.checked)

theorem openingRow_name {type name : String} (h : isWorkloadName name = true)
    (hn : '\n' ∉ name.toList) : openingRow type name = type ++ " \"" ++ name ++ "\" \x7b" := by
  have hquote := quote_append_name (a := "") (fun _ hc => absurd hc List.not_mem_nil) h hn
  rw [String.empty_append] at hquote
  rw [openingRow, hquote]
  simp only [String.append_assoc]
  rfl

theorem labels_of_compiled {spec : Spec} {options : Options} {s : Network.Subnets} {p : Project}
    (accepted : spec.Accepted) (single : HasSingleLineNames spec)
    (h : IsCompiled .builtIn spec options s p) : rowsFrom "module " p.root.main =
      ("vpc" :: spec.workloads.map Prod.fst).map fun name => "module \"" ++ name ++ "\" \x7b" := by
  rw [moduleRows_of_compiled accepted h]
  refine List.map_congr_left fun name hname => ?_
  rcases List.mem_cons.mp hname with rfl | hname
  · exact openingRow_name (by decide) (by decide)
  · obtain ⟨w, hw, rfl⟩ := List.mem_map.mp hname
    exact openingRow_name (accepted.names w hw) (single.names w hw)

theorem writesIdentifiers_of_compiled {spec : Spec} {options : Options} {s : Network.Subnets}
    {p : Project} (accepted : spec.Accepted) (tested : HasTestedNames spec)
    (single : HasSingleLineNames spec) (h : IsCompiled .builtIn spec options s p) :
    WritesIdentifiers spec p where
  names := fun w hw => (tested.names w hw).word (single.names w hw)
  labels := labels_of_compiled accepted single h
  directories := by
    intro m hm
    have htype : m.typeName ∈ distinctTypes spec := by
      rw [← typeNames_of_compiled h]
      exact List.mem_map_of_mem hm
    obtain ⟨w, hw, hmw⟩ := mem_distinctTypes.mp htype
    rw [← hmw]
    exact (tested.types w hw).word (single.types w hw)
  sources := by
    intro w hw
    have hsource : "  source = " ++ quote ("./modules/" ++ w.2.type) =
        "  source = \"./modules/" ++ w.2.type ++ "\"" := by
      rw [quote_append_name (by decide +kernel) (accepted.types w hw) (single.types w hw)]
      simp only [← String.append_assoc]
      rfl
    rw [← hsource]
    exact (source_of_compiled h hw).subset (List.mem_cons_of_mem _ List.mem_cons_self)
  references := fun w hw => reference_of_compiled h hw (single.names w hw)
  provider := (isProviderName_iff.mp (isProviderName_of_check h.checked)).word single.provider
  required := required_of_compiled h single.provider

/-- What is accepted where an identifier is meant, and what is written then. -/
theorem identifiers_of_loaded {spec : Spec} (loaded : spec.IsLoaded) :
    HasTestedNames spec ∧
      (spec.HoldsDocuments → HasSingleLineNames spec → ∀ options p,
        (compile .builtIn spec options).result = .ok p → WritesIdentifiers spec p) := by
  have tested := hasTestedNames_of_named loaded.named
  refine ⟨tested, fun documents single options p hp => ?_⟩
  obtain ⟨s, hs⟩ := compiled_of_builtIn hp
  exact writesIdentifiers_of_compiled (loaded.named.accepted documents) tested single hs

/-- The least document of one workload. -/
def singleWorkload (name : String) : Datum :=
  .mapping [(.text "workloads", .mapping [(.text name, .mapping [])])]

theorem identifiers_of_loaded_singleWorkload :
    ∃ spec p, Spec.ofDatum "<spec>" (singleWorkload "web") = .ok spec ∧
      (compile .builtIn spec {}).result = .ok p ∧ WritesIdentifiers spec p := by
  have hload : Spec.ofDatum "<spec>" (singleWorkload "web") = .ok { workloads := [("web", {})] } :=
    rfl
  have hcheck : check { workloads := [("web", {})] } = check hostile := rfl
  rw [check_hostile] at hcheck
  obtain ⟨p, hp⟩ : ∃ p, (compile .builtIn { workloads := [("web", {})] } {}).result = .ok p :=
    exists_compiled hcheck (fun h => nomatch h) (by decide) (by decide)
  refine ⟨_, p, hload, hp, (identifiers_of_loaded (.datum hload)).2 ?_ ?_ {} p hp⟩
  · exact ⟨by decide, by decide⟩
  · exact ⟨by decide, by decide, by decide⟩

/-- A name with a newline behind it is accepted and is no identifier. -/
theorem exists_loaded_not_word :
    ∃ spec, Spec.ofDatum "<spec>" (singleWorkload "web\n") = .ok spec ∧
      ∃ w ∈ spec.workloads, isWorkloadWord w.1 = false :=
  ⟨{ workloads := [("web\n", {})] }, rfl, ("web\n", {}), List.mem_cons_self, by decide⟩

end Project
end Groundplan
