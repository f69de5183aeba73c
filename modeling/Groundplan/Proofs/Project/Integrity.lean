/-
The outline of a compiled project.

Two loops make a project, one over the workloads and one over their types, and what one
refers to must be what the other makes.  The outline is read off the text of the root
module, row by row, since that is what decides which modules and outputs there are.
-/
import Groundplan.Proofs.Hcl.Heads
import Groundplan.Proofs.Hcl.Places
import Groundplan.Proofs.Project.Raw
import Groundplan.Proofs.Spec.Source
import Mathlib.Data.List.Nodup

namespace Groundplan
namespace Project

open Hcl Hcl.Rows Text

/-- The types of the workloads, each at its first use. -/
def distinctTypes (spec : Spec) : List String := (spec.workloads.map fun w => w.2.type).eraseDups

/-- The paths of the child module for a type. -/
def modulePaths (type : String) : List String :=
  ["modules/" ++ type ++ "/variables.tf", "modules/" ++ type ++ "/main.tf",
    "modules/" ++ type ++ "/outputs.tf"]

/-- The modules and outputs of the root module are those of the specification, and the
child modules are those that are referred to. -/
structure HasIntegrity (spec : Spec) (p : Project) : Prop where
  modules : rowsFrom "module " p.root.main =
    "module \"vpc\" \x7b" :: spec.workloads.map fun w => "module " ++ quote w.1 ++ " \x7b"
  outputs : rowsFrom "output " p.root.main =
    "output \"vpc_id\" \x7b" ::
      spec.workloads.map fun w => "output " ++ quote (w.1 ++ "_details") ++ " \x7b"
  distinctModules : (rowsFrom "module " p.root.main).Nodup
  distinctOutputs : (rowsFrom "output " p.root.main).Nodup
  source : ∀ w ∈ spec.workloads,
    ["module " ++ quote w.1 ++ " \x7b", "  source = " ++ quote ("./modules/" ++ w.2.type)] <:+:
      rows p.root.main
  paths : p.files.map Prod.fst =
    ["provider.tf", "variables.tf", "main.tf"] ++ (distinctTypes spec).flatMap modulePaths
  count : p.files.length = 3 + 3 * (distinctTypes spec).length
  distinctPaths : (p.files.map Prod.fst).Nodup
  generated : ∀ t, (∃ m ∈ p.modules, m.path = "modules/" ++ t) ↔ ∃ w ∈ spec.workloads, w.2.type = t

/-! ## Types -/

theorem foldl_types (ts seen : List String) :
    ts.foldl (fun seen t => if seen.contains t then seen else seen ++ [t]) seen =
      seen ++ (ts.filter fun t => !seen.contains t).eraseDups := by
  induction ts generalizing seen with
  | nil => simp
  | cons t ts ih =>
    rw [List.foldl_cons, ih]
    by_cases ht : seen.contains t = true
    · rw [if_pos ht, List.filter_cons_of_neg (by simp only [ht]; decide)]
    · rw [if_neg ht, List.filter_cons_of_pos (by simp only [ht]; decide), List.eraseDups_cons,
        List.append_assoc, List.singleton_append, List.filter_filter]
      congr 3
      refine List.filter_congr fun u _ => ?_
      simp [List.contains_eq_mem, Bool.and_comm, Bool.beq_eq_decide_eq]

theorem workloadTypes_eq (spec : Spec) : spec.workloadTypes = distinctTypes spec := by
  rw [Spec.workloadTypes, foldl_types, distinctTypes, List.nil_append]
  congr 1
  exact List.filter_eq_self.mpr fun t _ => rfl

theorem mem_distinctTypes {spec : Spec} {t : String} :
    t ∈ distinctTypes spec ↔ ∃ w ∈ spec.workloads, w.2.type = t := by
  rw [distinctTypes, List.mem_eraseDups, List.mem_map]

theorem nodup_eraseDups (ts : List String) : ts.eraseDups.Nodup := by
  induction h : ts.length using Nat.strong_induction_on generalizing ts with
  | _ n ih =>
    cases ts with
    | nil => exact List.nodup_nil
    | cons t ts =>
      rw [List.eraseDups_cons, List.nodup_cons]
      refine ⟨fun hmem => ?_, ih _ ?_ _ rfl⟩
      · rw [List.mem_eraseDups, List.mem_filter] at hmem
        simp at hmem
      · have hle := List.length_filter_le (fun u => !u == t) ts
        rw [List.length_cons] at h
        omega

/-! ## Paths -/

theorem modulePaths_inj {t u path : String} (ht : path ∈ modulePaths t) (hu : path ∈ modulePaths u) :
    t = u := by
  simp only [modulePaths, List.mem_cons, List.not_mem_nil, or_false] at ht hu
  -- Read from the end, paths of different files differ within a few characters.
  rcases ht with rfl | rfl | rfl <;> rcases hu with hu | hu | hu
  all_goals
    have h := congrArg (fun s => s.toList.reverse) hu
    simp [String.toList_append] at h
  all_goals exact String.toList_injective h

theorem nodup_modulePaths (t : String) : (modulePaths t).Nodup := by
  have hdiffer : ∀ a b : String, a.toList.reverse.take 6 ≠ b.toList.reverse.take 6 →
      6 ≤ a.toList.reverse.length → 6 ≤ b.toList.reverse.length →
        "modules/" ++ t ++ a ≠ "modules/" ++ t ++ b := by
    intro a b hab ha hb h
    have hrev := congrArg (fun s => s.toList.reverse.take 6) h
    simp only [String.toList_append, List.reverse_append] at hrev
    rw [List.take_append_of_le_length ha, List.take_append_of_le_length hb] at hrev
    exact hab hrev
  simp only [modulePaths, List.nodup_cons, List.mem_cons, List.not_mem_nil, or_false, not_or,
    not_false_eq_true, List.nodup_nil, and_true]
  exact ⟨⟨hdiffer _ _ (by decide) (by decide) (by decide), hdiffer _ _ (by decide) (by decide)
    (by decide)⟩, hdiffer _ _ (by decide) (by decide) (by decide)⟩

theorem length_modulePaths (types : List String) :
    (types.flatMap modulePaths).length = 3 * types.length := by
  induction types with
  | nil => rfl
  | cons t types ih =>
    rw [List.flatMap_cons, List.length_append, ih, List.length_cons]
    show 3 + 3 * types.length = 3 * (types.length + 1)
    omega

theorem typeNames_of_compiled {l : Module.Library} {spec : Spec} {options : Options}
    {s : Network.Subnets} {p : Project} (h : IsCompiled l spec options s p) :
    p.modules.map ModuleFiles.typeName = distinctTypes spec := by
  rw [← workloadTypes_eq]
  have hmodules := h.modules
  generalize spec.workloadTypes = types at hmodules ⊢
  generalize p.modules = ms at hmodules ⊢
  induction hmodules with
  | nil => rfl
  | cons hfirst _ ih => rw [List.map_cons, ih, hfirst.typeName]

theorem paths_of_compiled {l : Module.Library} {spec : Spec} {options : Options}
    {s : Network.Subnets} {p : Project} (h : IsCompiled l spec options s p) :
    p.files.map Prod.fst =
      ["provider.tf", "variables.tf", "main.tf"] ++ (distinctTypes spec).flatMap modulePaths := by
  rw [files, List.map_append, ← typeNames_of_compiled h, List.map_flatMap, List.flatMap_map]
  rfl

theorem nodup_paths {types : List String} (h : types.Nodup) :
    (["provider.tf", "variables.tf", "main.tf"] ++ types.flatMap modulePaths).Nodup := by
  refine List.nodup_append.mpr ⟨by decide, ?_, ?_⟩
  · rw [List.nodup_flatMap]
    refine ⟨fun t _ => nodup_modulePaths t, h.imp fun {t u} htu path ht hu => ?_⟩
    exact htu (modulePaths_inj ht hu)
  · intro a ha b hb hab
    obtain ⟨t, -, hb⟩ := List.mem_flatMap.mp hb
    -- Every path of a child module starts with the name of their directory.
    have hdir : b.toList.take 8 = "modules/".toList := by
      simp only [modulePaths, List.mem_cons, List.not_mem_nil, or_false] at hb
      rcases hb with rfl | rfl | rfl <;> simp [String.toList_append]
    rw [← hab] at hdir
    simp only [List.mem_cons, List.not_mem_nil, or_false] at ha
    rcases ha with rfl | rfl | rfl
    · exact absurd hdir (by decide)
    · exact absurd hdir (by decide)
    · exact absurd hdir (by decide)

/-! ## Rows of the root module -/

theorem isHanging_of_isDotted {s : String} (h : isDotted s = true) : isHanging s = true := by
  refine hangs_of_not_mem fun hn => ?_
  exact absurd (List.all_eq_true.mp h '\n' hn) (by decide)

theorem isHanging_reference {name : String} (h : isWorkloadName name = true) :
    isHanging ("module." ++ name) = true := by
  rw [isHanging, String.toList_append, hangs_append_of_not_mem (by decide)]
  exact hangs_of_isName (by decide) (by decide) h

theorem isTopLevel_block {type : String} {labels : List String} {body : List Item}
    (htype : type = "module" ∨ type = "output")
    (h : (Item.block type labels body).allRaw isHanging = true) :
    IsTopLevel (.block type labels body) := by
  rw [Item.allRaw, Bool.and_eq_true] at h
  rcases htype with rfl | rfl
  · exact ⟨by decide, by decide, h.2⟩
  · exact ⟨by decide, by decide, h.2⟩

theorem isTopLevel_main (project : String) {cidr : String} {s : Network.Subnets} {bound : List Bound}
    (h : Item.allRawList isHanging (mainDocument cidr s bound).items = true) :
    ∀ i ∈ (withBanner project (mainDocument cidr s bound)).items, IsTopLevel i := by
  rw [withBanner, List.forall_mem_cons, List.forall_mem_cons]
  refine ⟨trivial, trivial, fun i hi => ?_⟩
  have hraw := allRawList_iff.mp h i hi
  rw [mainDocument] at hi
  rcases List.mem_append.mp hi with hi | hi
  · rcases List.mem_append.mp hi with hi | hi
    · rcases List.mem_append.mp hi with hi | hi
      · rcases List.mem_cons.mp hi with rfl | hi
        · trivial
        · rw [List.mem_singleton.mp hi] at hraw ⊢
          exact isTopLevel_block (.inl rfl) hraw
      · obtain ⟨b, -, hi⟩ := List.mem_flatMap.mp hi
        rcases List.mem_cons.mp hi with rfl | hi
        · trivial
        · rw [List.mem_singleton.mp hi] at hraw ⊢
          exact isTopLevel_block (.inl rfl) hraw
    · rcases List.mem_cons.mp hi with rfl | hi
      · trivial
      · rw [List.mem_singleton.mp hi] at hraw ⊢
        exact isTopLevel_block (.inr rfl) hraw
  · obtain ⟨b, -, rfl⟩ := List.mem_map.mp hi
    exact isTopLevel_block (.inr rfl) hraw

theorem blockHead_singleton (type label : String) : blockHead type [label] = type ++ " " ++ quote label := by
  rw [blockHead, List.map_cons, List.map_nil, String.intercalate_cons_cons,
    String.intercalate_singleton]

def openingRow (type label : String) : String := type ++ " " ++ quote label ++ " \x7b"

theorem headRow_singleton (type label : String) (item : Item) (rest : List Item) :
    headRow type [label] (item :: rest) = openingRow type label := by
  rw [headRow_cons, blockHead_singleton, openingRow]

theorem headRows_main (project cidr : String) (s : Network.Subnets) (bound : List Bound) :
    (withBanner project (mainDocument cidr s bound)).items.filterMap headRow? =
      ("vpc" :: bound.map Bound.name).map (openingRow "module") ++
        ("vpc_id" :: bound.map fun b => b.name ++ "_details").map (openingRow "output") := by
  have hnetwork : [.comment "Shared networking", networkModule cidr s].filterMap headRow? =
      [openingRow "module" "vpc"] :=
    congrArg (fun row => [row]) (headRow_singleton _ _ _ _)
  have hmodules : (bound.flatMap Bound.items).filterMap headRow? =
      bound.map fun b => openingRow "module" b.name := by
    induction bound with
    | nil => rfl
    | cons b bound ih =>
      rw [List.flatMap_cons, List.filterMap_append, ih, List.map_cons]
      exact congrArg (· :: _) (headRow_singleton _ _ _ _)
  have hvpc : [.comment "Outputs", outputBlock "vpc_id" "module.vpc.vpc_id"].filterMap headRow? =
      [openingRow "output" "vpc_id"] :=
    congrArg (fun row => [row]) (headRow_singleton _ _ _ _)
  have hdetails : (bound.map fun b => outputBlock (b.name ++ "_details") ("module." ++ b.name)).filterMap
      headRow? = bound.map fun b => openingRow "output" (b.name ++ "_details") := by
    have hrow : (headRow? ∘ fun b : Bound => outputBlock (b.name ++ "_details") ("module." ++ b.name)) =
        fun b => some (openingRow "output" (b.name ++ "_details")) :=
      funext fun b => congrArg some (headRow_singleton _ _ _ _)
    rw [List.filterMap_map, hrow, List.filterMap_eq_map']
  rw [withBanner, List.filterMap_cons_none rfl, List.filterMap_cons_none rfl, mainDocument,
    List.filterMap_append, List.filterMap_append, List.filterMap_append, hnetwork, hmodules, hvpc,
    hdetails, List.append_assoc, List.map_cons, List.map_cons, List.map_map, List.map_map]
  rfl

theorem module_isPrefixOf (label : String) :
    "module ".toList.isPrefixOf (openingRow "module" label).toList = true := by
  rw [openingRow, String.toList_append, String.toList_append, String.toList_append]
  rfl

theorem output_isPrefixOf (label : String) :
    "output ".toList.isPrefixOf (openingRow "output" label).toList = true := by
  rw [openingRow, String.toList_append, String.toList_append, String.toList_append]
  rfl

theorem module_not_isPrefixOf (label : String) :
    "module ".toList.isPrefixOf (openingRow "output" label).toList = false := by
  rw [openingRow, String.toList_append, String.toList_append, String.toList_append]
  rfl

theorem output_not_isPrefixOf (label : String) :
    "output ".toList.isPrefixOf (openingRow "module" label).toList = false := by
  rw [openingRow, String.toList_append, String.toList_append, String.toList_append]
  rfl

/-- Rows that all open blocks of one type, or none of them. -/
theorem filter_openingRows {word type : String} {b : Bool}
    (h : ∀ label, word.toList.isPrefixOf (openingRow type label).toList = b) (labels : List String) :
    (labels.map (openingRow type)).filter (fun row => word.toList.isPrefixOf row.toList) =
      if b then labels.map (openingRow type) else [] := by
  cases b with
  | true =>
    rw [if_pos rfl, List.filter_eq_self]
    intro row hrow
    obtain ⟨label, -, rfl⟩ := List.mem_map.mp hrow
    exact h label
  | false =>
    rw [if_neg (by decide), List.filter_eq_nil_iff]
    intro row hrow
    obtain ⟨label, -, rfl⟩ := List.mem_map.mp hrow
    rw [h label]
    decide

theorem openingRow_injective (type : String) : Function.Injective (openingRow type) := by
  intro a b h
  exact quote_injective ((String.append_right_inj _).mp ((String.append_left_inj _).mp h))

/-! ## Labels -/

theorem nodup_moduleLabels {spec : Spec} {s : Network.Subnets} (accepted : spec.Accepted)
    (h : check spec = .ok s) : ("vpc" :: spec.workloads.map Prod.fst).Nodup :=
  List.nodup_cons.mpr ⟨vpc_not_mem_of_check h, accepted.distinct⟩

theorem nodup_outputLabels {spec : Spec} (accepted : spec.Accepted) :
    ("vpc_id" :: spec.workloads.map fun w => w.1 ++ "_details").Nodup := by
  refine List.nodup_cons.mpr ⟨fun hmem => ?_, ?_⟩
  · obtain ⟨w, -, hname⟩ := List.mem_map.mp hmem
    have hrev := congrArg (fun s => s.toList.reverse) hname
    simp [String.toList_append] at hrev
  · have hdetails := accepted.distinct.map (f := fun name => name ++ "_details")
      fun a b hab => (String.append_left_inj _).mp hab
    rw [List.map_map] at hdetails
    exact hdetails

/-! ## The outline -/

theorem mem_items_main {project cidr : String} {s : Network.Subnets} {bound : List Bound} {b : Bound}
    (hb : b ∈ bound) : workloadModule b.name b.workload.type b.binding ∈
      (withBanner project (mainDocument cidr s bound)).items := by
  rw [withBanner, mainDocument]
  refine List.mem_cons_of_mem _ (List.mem_cons_of_mem _ ?_)
  refine List.mem_append_left _ (List.mem_append_left _ (List.mem_append_right _ ?_))
  exact List.mem_flatMap.mpr ⟨b, hb, List.mem_cons_of_mem _ List.mem_cons_self⟩

theorem source_of_compiled {spec : Spec} {options : Options} {s : Network.Subnets} {p : Project}
    (h : IsCompiled .builtIn spec options s p) {w : String × Workload} (hw : w ∈ spec.workloads) :
    [openingRow "module" w.1, "  source = " ++ quote ("./modules/" ++ w.2.type)] <:+:
      rows p.root.main := by
  have hbound : ⟨w.1, w.2, (Module.Library.builtIn.template w.2.type).bind w.2⟩ ∈
      bindAll .builtIn spec :=
    List.mem_map.mpr ⟨w, hw, rfl⟩
  refine rows_infix h.main (mem_items_main hbound) ?_ ?_
  · have hopening : '\n' ∉ (openingRow "module" w.1).toList := by
      rw [← headRow_singleton "module" w.1 .blank []]
      exact newline_not_mem_headRow (by decide)
    have hsource : '\n' ∉ ("  source = " ++ quote ("./modules/" ++ w.2.type)).toList := by
      rw [String.toList_append, List.mem_append, not_or]
      exact ⟨by decide, break_not_mem_quote (.inl rfl) _⟩
    exact List.forall_mem_cons.mpr ⟨hopening, List.forall_mem_singleton.mpr hsource⟩
  · intro inner hinner
    obtain ⟨after, rfl⟩ := blockLines_attribute_blank hinner
    rw [indent_zero, blockHead_singleton]
    exact (List.prefix_append [_, _] after).isInfix

theorem rows_of_compiled {spec : Spec} {options : Options} {s : Network.Subnets} {p : Project}
    (accepted : spec.Accepted) (h : IsCompiled .builtIn spec options s p) {word : String}
    (hword : startsWithLetter word.toList = true) :
    rowsFrom word p.root.main =
      (("vpc" :: spec.workloads.map Prod.fst).map (openingRow "module") ++
        ("vpc_id" :: spec.workloads.map fun w => w.1 ++ "_details").map (openingRow "output")).filter
          fun row => word.toList.isPrefixOf row.toList := by
  have hnames : ∀ b ∈ bindAll .builtIn spec, isHanging ("module." ++ b.name) = true := by
    intro b hb
    obtain ⟨w, hw, rfl⟩ := List.mem_map.mp hb
    exact isHanging_reference (accepted.names w hw)
  have htop := isTopLevel_main p.name (allRaw_main isHanging_of_isDotted (cidrOf spec) s
    hnames (binds_bound isHanging_of_isDotted (brings_of_accepted accepted)))
  rw [rowsFrom_render hword htop h.main, headRows_main, bindAll, List.map_map, List.map_map]
  rfl

theorem moduleRows_of_compiled {spec : Spec} {options : Options} {s : Network.Subnets} {p : Project}
    (accepted : spec.Accepted) (h : IsCompiled .builtIn spec options s p) :
    rowsFrom "module " p.root.main =
      ("vpc" :: spec.workloads.map Prod.fst).map (openingRow "module") := by
  rw [rows_of_compiled accepted h (by decide), List.filter_append,
    filter_openingRows module_isPrefixOf, filter_openingRows module_not_isPrefixOf]
  exact List.append_nil _

theorem hasIntegrity_of_compiled {spec : Spec} {options : Options} {s : Network.Subnets}
    {p : Project} (accepted : spec.Accepted) (h : IsCompiled .builtIn spec options s p) :
    HasIntegrity spec p := by
  have hmodules := moduleRows_of_compiled accepted h
  have houtputs : rowsFrom "output " p.root.main =
      ("vpc_id" :: spec.workloads.map fun w => w.1 ++ "_details").map (openingRow "output") := by
    rw [rows_of_compiled accepted h (by decide), List.filter_append,
      filter_openingRows output_not_isPrefixOf, filter_openingRows output_isPrefixOf]
    rfl
  have hpaths := paths_of_compiled h
  refine
    { modules := ?modules
      outputs := ?outputs
      distinctModules := ?distinctModules
      distinctOutputs := ?distinctOutputs
      source := fun w hw => source_of_compiled h hw
      paths := hpaths
      count := ?count
      distinctPaths := ?distinctPaths
      generated := ?generated }
  case modules =>
    rw [hmodules, List.map_cons, List.map_map]
    rfl
  case outputs =>
    rw [houtputs, List.map_cons, List.map_map]
    rfl
  case distinctModules =>
    rw [hmodules]
    exact (nodup_moduleLabels accepted h.checked).map (openingRow_injective "module")
  case distinctOutputs =>
    rw [houtputs]
    exact (nodup_outputLabels accepted).map (openingRow_injective "output")
  case count =>
    rw [← List.length_map (f := Prod.fst), hpaths, List.length_append, length_modulePaths]
    rfl
  case distinctPaths =>
    rw [hpaths]
    exact nodup_paths (nodup_eraseDups _)
  case generated =>
    intro t
    rw [← mem_distinctTypes, ← typeNames_of_compiled h, List.mem_map]
    refine exists_congr fun m => and_congr_right fun _ => ?_
    exact String.append_right_inj _

/-- Which modules, outputs and files a compiled project has. -/
theorem integrity_of_compile {spec : Spec} {options : Options} {p : Project}
    (accepted : spec.Accepted) (h : (compile .builtIn spec options).result = .ok p) :
    HasIntegrity spec p := by
  obtain ⟨s, hs⟩ := compiled_of_builtIn h
  exact hasIntegrity_of_compiled accepted hs

theorem integrity_of_compile_hostile :
    ∃ p, hostile.Accepted ∧ (compile .builtIn hostile {}).result = .ok p ∧ HasIntegrity hostile p := by
  obtain ⟨p, hp⟩ := exists_compiled_hostile
  exact ⟨p, hostile_accepted, hp, integrity_of_compile hostile_accepted hp⟩

/-- The same for whatever a specification was read from. -/
theorem hasIntegrity_of_isRead {spec : Spec} {options : Options} {p : Project} (read : spec.IsRead)
    (h : (compile .builtIn spec options).result = .ok p) : HasIntegrity spec p := by
  obtain ⟨s, hs⟩ := compiled_of_builtIn h
  exact hasIntegrity_of_compiled read.accepted hs

end Project
end Groundplan
