/-
The texts in the files of the root module.

Every file begins with a banner that quotes the name of the project, and then holds the
texts of its document.  Apart from these nothing in it can open a mark: what documents of
the root module write raw are words, and their comments name workloads.
-/
import Groundplan.Proofs.Hcl.Wrapping
import Groundplan.Proofs.Project.Raw

namespace Groundplan
namespace Project

open Hcl

/-- The texts of a generated file in the order in which they are written. -/
def fileSpellings (project : String) (d : Document) : List Spelling :=
  .quoted project :: Item.spellingsList d.items

/-! ## The banner -/

/-- A line that ends in a full stop is a comment line as it is. -/
theorem commentLine_stop (s : String) :
    Text.stripEnd (indent 0 ++ "# " ++ (s ++ ".")) = "# " ++ s ++ "." := by
  refine String.toList_injective ?_
  have hstop : ∀ cs : List Char, Text.trimEndBy Text.isBlank (cs ++ ['.']) = cs ++ ['.'] := fun cs =>
    Text.trimEndBy_append_cons (by decide) cs []
  rw [Text.stripEnd, String.toList_ofList]
  simp only [String.toList_append, toList_indent]
  exact hstop ("# ".toList ++ s.toList)

/-- The name of the project is quoted, so it cannot end the line on which it stands. -/
theorem bannerLines (project : String) :
    itemLines (banner project) = .ok
      ["# " ++ ("Generated by scoreform from SCORE project " ++ Text.quoted project) ++ ".",
        "# Re-running scoreform overwrites this file; manual edits will be lost."] := by
  have hfirst : Text.IsOneLine
      ("Generated by scoreform from SCORE project " ++ Text.quoted project ++ ".").toList := by
    rw [String.toList_append, String.toList_append]
    exact Text.isOneLine_append (Text.isOneLine_append (by decide) (Text.isOneLine_quoted project))
      (by decide)
  have htext : ("Generated by scoreform from SCORE project " ++ Text.quoted project ++ ".\n" ++
        "Re-running scoreform overwrites this file; manual edits will be lost.").toList =
      ("Generated by scoreform from SCORE project " ++ Text.quoted project ++ ".").toList ++
        '\n' :: "Re-running scoreform overwrites this file; manual edits will be lost.".toList := by
    simp only [String.toList_append, List.append_assoc]
    rfl
  rw [banner, itemLines, commentLines, Text.lines, htext, Text.splitLines_append_newline hfirst,
    Text.splitLines_of_isOneLine (by decide) (by decide), List.map_cons, List.map_singleton,
    String.ofList_toList, String.ofList_toList, List.map_cons, List.map_singleton, commentLine_stop]
  rfl

theorem wraps_banner {project : String} {lines : List String}
    (h : itemLines (banner project) = .ok lines) :
    lines ≠ [] ∧ Wraps [.quoted project] (linesText lines) := by
  rw [bannerLines] at h
  cases h
  refine ⟨List.cons_ne_nil _ _, ?_⟩
  have hfirst : Wraps [.quoted project]
      ("# " ++ ("Generated by scoreform from SCORE project " ++ Text.quoted project) ++ ".").toList := by
    rw [String.toList_append, String.toList_append, String.toList_append]
    exact (((wraps_spelling (.quoted project)).behind (sealed_of_isStill (by decide))).behind
      (sealed_of_isStill (by decide))).before (sealed_of_isStill (by decide))
  have hsecond : Wraps []
      "# Re-running scoreform overwrites this file; manual edits will be lost.".toList :=
    .still (sealed_of_isStill (by decide))
  have hall : Wraps ([[.quoted project], []].flatMap id) (linesText [_, _]) :=
    wraps_linesText (.cons hfirst (.cons hsecond .nil))
  exact hall

theorem wraps_of_isTextOf {project text : String} {d : Document}
    (hraw : Item.allRawList isStill d.items = true)
    (hremarks : Item.allRemarksList isStill d.items = true) (h : IsTextOf project d text) :
    Wraps (fileSpellings project d) text.toList := by
  obtain ⟨lines, hlines, h⟩ := ok_of_bind h
  cases h
  rw [withBanner, documentLines] at hlines
  obtain ⟨inner, hinner, hlines⟩ := ok_of_bind hlines
  obtain ⟨after, hafter, hlines⟩ := ok_of_bind hlines
  cases hlines
  obtain ⟨hne, hbanner⟩ := wraps_banner hinner
  have hrest : Wraps (Item.spellingsList (.blank :: d.items)) (linesText after) :=
    wraps_documentLines hraw hremarks hafter
  have hall := hbanner.append hrest
  rw [← linesText_append, ← toList_joinLines_append] at hall
  · rw [String.toList_append]
    exact hall
  · exact List.append_ne_nil_of_left_ne_nil hne _

/-! ## The documents of the root module -/

theorem isStill_of_isDotted {s : String} (h : isDotted s = true) : isStill s = true := by
  have hmem : ∀ c ∈ s.toList, isDottedChar c = true := List.all_eq_true.mp h
  refine isStill_iff.mpr ⟨fun hc => ?_, fun hc => ?_⟩
  · exact absurd (hmem _ hc) (by decide)
  · exact absurd (hmem _ hc) (by decide)

theorem isStill_append {a b : String} (ha : isStill a = true) (hb : isStill b = true) :
    isStill (a ++ b) = true := by
  rw [isStill_iff] at ha hb ⊢
  simp [ha, hb]

theorem isStill_of_isWorkloadName {s : String} (h : Text.isWorkloadName s = true) :
    isStill s = true :=
  isStill_of_isName (by decide) (by decide) h

theorem wraps_inputs {spec : Spec} {options : Options} {s : Network.Subnets} {p : Project}
    (accepted : spec.Accepted) (h : IsCompiled .builtIn spec options s p) :
    Wraps (fileSpellings spec.metadata.name (inputsDocument spec.metadata)) p.root.inputs.toList := by
  rw [← h.name]
  exact wraps_of_isTextOf (allRaw_rootInputs isStill_of_isDotted (brings_of_accepted accepted).tags) rfl h.inputs

theorem allRemarks_attributes {p : String → Bool} (attrs : List Attribute) :
    Item.allRemarksList p (attrs.map Attribute.toItem) = true := by
  refine allRemarksList_iff.mpr fun item hitem => ?_
  obtain ⟨a, -, rfl⟩ := List.mem_map.mp hitem
  rfl

/-- A module block has no comment in it. -/
theorem allRemarks_workloadModule {p : String → Bool} (name type : String) (b : Module.Binding) :
    (workloadModule name type b).allRemarks p = true := by
  have happend : ∀ {xs ys : List Item}, Item.allRemarksList p xs = true →
      Item.allRemarksList p ys = true → Item.allRemarksList p (xs ++ ys) = true := fun hxs hys =>
    allRemarksList_iff.mpr (List.forall_mem_append.mpr ⟨allRemarksList_iff.mp hxs, allRemarksList_iff.mp hys⟩)
  rw [workloadModule, Item.allRemarks]
  refine happend (happend (happend rfl (allRemarks_attributes _)) ?bound) rfl
  case bound =>
    split
    · rfl
    · exact allRemarks_attributes b.attributes

theorem allRemarks_main (cidr : String) (s : Network.Subnets) {bound : List Bound}
    (hbound : ∀ b ∈ bound, isStill b.name = true ∧ isStill b.workload.type = true) :
    Item.allRemarksList isStill (mainDocument cidr s bound).items = true := by
  rw [mainDocument, allRemarksList_iff]
  simp only [List.forall_mem_append]
  refine ⟨⟨⟨allRemarksList_iff.mp rfl, ?modules⟩, allRemarksList_iff.mp rfl⟩, ?details⟩
  case modules =>
    intro item hitem
    obtain ⟨b, hb, hitem⟩ := List.mem_flatMap.mp hitem
    obtain ⟨hname, htype⟩ := hbound b hb
    rcases List.mem_cons.mp hitem with rfl | hitem
    · exact isStill_append (isStill_append (isStill_append (isStill_append (by decide) hname)
        (by decide)) htype) (by decide)
    · rw [List.mem_singleton.mp hitem]
      exact allRemarks_workloadModule _ _ _
  case details =>
    intro item hitem
    obtain ⟨b, -, rfl⟩ := List.mem_map.mp hitem
    rfl

theorem wraps_main {spec : Spec} {options : Options} {s : Network.Subnets} {p : Project}
    (accepted : spec.Accepted) (h : IsCompiled .builtIn spec options s p) :
    Wraps (fileSpellings spec.metadata.name (mainDocument (cidrOf spec) s (bindAll .builtIn spec)))
      p.root.main.toList := by
  have hnames : ∀ b ∈ bindAll .builtIn spec, isStill b.name = true ∧ isStill b.workload.type = true := by
    intro b hb
    obtain ⟨w, hw, rfl⟩ := List.mem_map.mp hb
    exact ⟨isStill_of_isWorkloadName (accepted.names w hw), isStill_of_isWorkloadName (accepted.types w hw)⟩
  rw [← h.name]
  refine wraps_of_isTextOf (allRaw_main isStill_of_isDotted _ s ?_
    (binds_bound isStill_of_isDotted (brings_of_accepted accepted))) (allRemarks_main _ s hnames) h.main
  exact fun b hb => isStill_append (by decide) (hnames b hb).1

/-! ## Where a text is placed -/

/-- A text of a specification that is written into a document of the root module: the value
of a tag into the inputs, the image of a container and the value of an environment variable
into the main document. -/
inductive IsPlaced (spec : Spec) (v : String) : Document → Prop
  | tag {k : String} : (k, .text v) ∈ spec.metadata.tags →
      IsPlaced spec v (inputsDocument spec.metadata)
  | image {s : Network.Subnets} {name : String} {w : Workload} : check spec = .ok s →
      (name, w) ∈ spec.workloads → w.type = "container" → w.image = some v →
        IsPlaced spec v (mainDocument (cidrOf spec) s (bindAll .builtIn spec))
  | environment {s : Network.Subnets} {name k : String} {w : Workload} : check spec = .ok s →
      (name, w) ∈ spec.workloads → w.type = "container" ∨ w.type = "function" →
        (k, .text v) ∈ w.environment →
          IsPlaced spec v (mainDocument (cidrOf spec) s (bindAll .builtIn spec))

theorem mem_spellings_ofEntries {k v : String} {entries : Entries} (h : (k, .text v) ∈ entries) :
    .literal v ∈ (Value.ofEntries entries).spellings := by
  rw [Value.ofEntries, Value.spellings]
  exact mem_spellingsEntries (List.mem_map.mpr ⟨_, h, rfl⟩) List.mem_cons_self

/-- What is bound for a workload is written into its module block. -/
theorem mem_spellings_bound {spec : Spec} {s : Network.Subnets} {name : String} {w : Workload}
    (hw : (name, w) ∈ spec.workloads) {a : Attribute}
    (ha : a ∈ ((Module.Library.builtIn.template w.type).bind w).attributes) {q : Spelling}
    (hq : q ∈ a.value.spellings) :
    q ∈ Item.spellingsList (mainDocument (cidrOf spec) s (bindAll .builtIn spec)).items := by
  generalize hb : (Module.Library.builtIn.template w.type).bind w = binding at ha
  have hbound : (⟨name, w, binding⟩ : Bound) ∈ bindAll .builtIn spec := by
    rw [← hb]
    exact List.mem_map.mpr ⟨(name, w), hw, rfl⟩
  have hblock : workloadModule name w.type binding ∈
      (mainDocument (cidrOf spec) s (bindAll .builtIn spec)).items := by
    refine List.mem_append_left _ (List.mem_append_left _ (List.mem_append_right _ ?_))
    exact List.mem_flatMap.mpr ⟨_, hbound, List.mem_cons_of_mem _ (List.mem_singleton_self _)⟩
  refine mem_spellingsList.mpr ⟨_, hblock, ?_⟩
  have hempty : binding.attributes.isEmpty = false := List.isEmpty_eq_false_iff.mpr (List.ne_nil_of_mem ha)
  rw [workloadModule, Item.spellings, hempty]
  refine List.mem_append_right _ (mem_spellingsList.mpr ⟨a.toItem, ?_, hq⟩)
  refine List.mem_append_left _ (List.mem_append_right _ (List.mem_cons_of_mem _ ?_))
  exact List.mem_map_of_mem ha

theorem IsPlaced.mem_spellings {spec : Spec} {v : String} {d : Document} (h : IsPlaced spec v d) :
    .literal v ∈ Item.spellingsList d.items := by
  cases h with
  | tag htag =>
    have hlocals : nested "locals" [set "common_tags" (Value.ofEntries spec.metadata.tags)] ∈
        (inputsDocument spec.metadata).items := by simp [inputsDocument]
    refine mem_spellingsList.mpr ⟨_, hlocals, ?_⟩
    exact mem_spellingsList.mpr ⟨_, List.mem_singleton_self _, mem_spellings_ofEntries htag⟩
  | image _ hw htype himage =>
    refine mem_spellings_bound hw (a := ⟨"image", .text v⟩) ?_ (List.mem_singleton_self _)
    rw [htype]
    show _ ∈ (Module.Container.bind _).attributes
    rw [Module.Container.bind, himage]
    exact List.mem_append_left _ (List.mem_append_left _ (List.mem_append_left _
      (List.mem_append_left _ (List.mem_append_left _ (List.mem_singleton_self _)))))
  | environment _ hw htype hentry =>
    refine mem_spellings_bound hw (a := ⟨"environment_variables", Value.ofEntries _⟩) ?_
      (mem_spellings_ofEntries hentry)
    rcases htype with htype | htype
    · rw [htype]
      exact List.mem_append_right _ (List.mem_singleton_self _)
    · rw [htype]
      exact List.mem_append_right _ (List.mem_singleton_self _)

theorem IsPlaced.mem_fileSpellings {spec : Spec} {v : String} {d : Document} (h : IsPlaced spec v d) :
    .literal v ∈ fileSpellings spec.metadata.name d :=
  List.mem_cons_of_mem _ h.mem_spellings

/-- The document is that of a file of the project. -/
theorem IsPlaced.exists_file {spec : Spec} {options : Options} {p : Project} {v : String}
    {d : Document} (accepted : spec.Accepted) (hp : (compile .builtIn spec options).result = .ok p)
    (h : IsPlaced spec v d) :
    ∃ f ∈ p.files, Wraps (fileSpellings spec.metadata.name d) f.2.toList := by
  obtain ⟨s, hs⟩ := compiled_of_builtIn hp
  have hmain : ∀ {s' : Network.Subnets}, check spec = .ok s' →
      ∃ f ∈ p.files, Wraps (fileSpellings spec.metadata.name
        (mainDocument (cidrOf spec) s' (bindAll .builtIn spec))) f.2.toList := by
    intro s' hs'
    rw [hs.checked] at hs'
    cases hs'
    exact ⟨("main.tf", p.root.main), by simp [files, RootFiles.files], wraps_main accepted hs⟩
  cases h with
  | tag _ => exact ⟨("variables.tf", p.root.inputs), by simp [files, RootFiles.files], wraps_inputs accepted hs⟩
  | image hchecked _ _ _ => exact hmain hchecked
  | environment hchecked _ _ _ => exact hmain hchecked

end Project
end Groundplan
