/-
The banner in front of every file.

The name of a project is free text, and the comment that shows it is taken apart into lines.
Since the name is quoted it cannot end its line, and the banner is two lines for every name.
What stands behind it is the text of the document alone: the renderer puts an empty line
behind a blank as it does behind any other item that is not a comment, and that line is the
only trace of the blank.
-/
import Groundplan.Proofs.Hcl.Sections
import Groundplan.Proofs.Project.Spellings

namespace Groundplan
namespace Project

open Hcl

/-! ## Lines -/

/-- The line that names a project. -/
def titleLine (name : String) : String :=
  "# Generated by scoreform from SCORE project " ++ Text.quoted name ++ "."

def noteLine : String := "# Re-running scoreform overwrites this file; manual edits will be lost."

/-- The banner as it stands in a file, with the empty line behind it. -/
def bannerText (name : String) : String := titleLine name ++ "\n" ++ noteLine ++ "\n\n"

/-- The text of a document behind the banner of its project, of which the first three lines
are all. -/
def IsBannered (name : String) (d : Document) (text : String) : Prop :=
  ∃ body, d.render = .ok body ∧ text = bannerText name ++ body ∧
    Text.lines text = titleLine name :: noteLine :: "" :: Text.lines body

theorem itemLines_banner (name : String) :
    itemLines (banner name) = .ok [titleLine name, noteLine] := by
  have hfront : "# " ++ "Generated by scoreform from SCORE project " =
      "# Generated by scoreform from SCORE project " := by
    decide
  rw [bannerLines, ← String.append_assoc, hfront]
  rfl

theorem isOneLine_titleLine (name : String) : Text.IsOneLine (titleLine name).toList := by
  unfold titleLine
  rw [String.toList_append, String.toList_append]
  exact Text.isOneLine_append (Text.isOneLine_append (by decide) (Text.isOneLine_quoted name))
    (by decide)

/-- The quotes keep names apart. -/
theorem titleLine_injective : Function.Injective titleLine := by
  intro name other h
  apply Text.quoted_injective
  exact (String.append_right_inj _).mp ((String.append_left_inj _).mp h)

theorem lines_append_newline {a : String} (ha : Text.IsOneLine a.toList) (b : String) :
    Text.lines (a ++ "\n" ++ b) = a :: Text.lines b := by
  have hsplit : (a ++ "\n" ++ b).toList = a.toList ++ '\n' :: b.toList := by
    rw [String.toList_append, String.toList_append, List.append_assoc]
    rfl
  rw [Text.lines, hsplit, Text.splitLines_append_newline ha, List.map_cons, String.ofList_toList]
  rfl

theorem lines_bannerText_append (name body : String) :
    Text.lines (bannerText name ++ body) = titleLine name :: noteLine :: "" :: Text.lines body := by
  have hshape : bannerText name ++ body =
      titleLine name ++ "\n" ++ (noteLine ++ "\n" ++ ("" ++ "\n" ++ body)) := by
    simp only [bannerText, String.append_assoc]
    rfl
  rw [hshape, lines_append_newline (isOneLine_titleLine name), lines_append_newline (by decide),
    lines_append_newline (by decide)]

theorem linesString_banner (name : String) (lines : List String) :
    linesString (titleLine name :: noteLine :: "" :: lines) = bannerText name ++ linesString lines := by
  have hfront : linesString [titleLine name, noteLine, ""] = bannerText name := by
    rw [linesString_of_ne_nil (List.cons_ne_nil _ _)]
    simp only [joinLines, String.intercalate_cons_cons, String.intercalate_singleton, bannerText,
      String.append_assoc]
    rfl
  rw [← hfront]
  exact linesString_append [titleLine name, noteLine, ""] lines

/-! ## Documents -/

theorem documentLines_banner {name : String} {items : List Item} (hitems : items ≠ [])
    {lines : List String}
    (h : documentLines none (banner name :: .blank :: items) = .ok lines) :
    ∃ rest, documentLines none items = .ok rest ∧
      lines = titleLine name :: noteLine :: "" :: rest := by
  rw [documentLines] at h
  obtain ⟨inner, hinner, h⟩ := ok_of_bind h
  obtain ⟨after, hafter, h⟩ := ok_of_bind h
  rw [itemLines_banner] at hinner
  cases hinner
  cases h
  rw [documentLines] at hafter
  obtain ⟨blank, hblank, hafter⟩ := ok_of_bind hafter
  obtain ⟨behind, hbehind, hafter⟩ := ok_of_bind hafter
  cases hblank
  cases hafter
  obtain ⟨rest, hrest, rfl⟩ := documentLines_setOff rfl hitems hbehind
  exact ⟨rest, hrest, rfl⟩

theorem isBannered_of_isTextOf {name text : String} {d : Document} (hblock : HasBlock d.items)
    (h : IsTextOf name d text) : IsBannered name d text := by
  obtain ⟨lines, hlines, rfl⟩ := render_ok h (hblock.append_left [banner name, .blank])
  have hitems : d.items ≠ [] := by
    intro hnil
    obtain ⟨type, labels, body, hmem⟩ := hblock
    rw [hnil] at hmem
    cases hmem
  obtain ⟨rest, hrest, rfl⟩ := documentLines_banner hitems hlines
  have hbody : d.render = .ok (linesString rest) := by
    rw [linesString_of_ne_nil (documentLines_ne_nil hrest hblock), Document.render, hrest]
    rfl
  refine ⟨linesString rest, hbody, linesString_banner name rest, ?_⟩
  rw [linesString_banner, lines_bannerText_append]

/-! ## Projects -/

/-- The documents of which the files of a project are the texts, with the paths of the
files. -/
def documents (spec : Spec) (options : Options) (s : Network.Subnets) : List (String × Document) :=
  [("provider.tf", providerDocument spec.metadata), ("variables.tf", inputsDocument spec.metadata),
    ("main.tf", mainDocument (cidrOf spec) s (bindAll .builtIn spec))] ++
  spec.workloadTypes.flatMap fun type =>
    let t := Module.Library.builtIn.template type
    [("modules/" ++ type ++ "/variables.tf", t.inputsDocument),
      ("modules/" ++ type ++ "/main.tf", t.resources options.credentials),
      ("modules/" ++ type ++ "/outputs.tf", t.outputsDocument)]

/-- Every file has the banner of the project in front of the text of its own document, and no
project of another name has that banner. -/
structure HasBanners (spec : Spec) (options : Options) (p : Project) : Prop where
  files : ∃ s, check spec = .ok s ∧
    List.Forall₂ (fun d f => f.1 = d.1 ∧ IsBannered spec.metadata.name d.2 f.2)
      (documents spec options s) p.files
  distinct : ∀ name, titleLine name = titleLine spec.metadata.name → name = spec.metadata.name

/-- No built-in template has a document without blocks. -/
theorem hasBlock_template (type : String) (credentials : Credentials) :
    HasBlock (Module.Library.builtIn.template type).inputsDocument.items ∧
      HasBlock ((Module.Library.builtIn.template type).resources credentials).items ∧
        HasBlock (Module.Library.builtIn.template type).outputsDocument.items := by
  have hall : ∀ t ∈ builtInTemplates, ∀ c ∈ [Credentials.managed, .placeholder],
      t.inputsDocument.items.any Item.isBlock = true ∧
        (t.resources c).items.any Item.isBlock = true ∧
          t.outputsDocument.items.any Item.isBlock = true := by
    decide
  have hcredentials : credentials ∈ [Credentials.managed, .placeholder] := by
    cases credentials <;> decide
  obtain ⟨hinputs, hmain, houtputs⟩ := hall _ (template_mem_builtInTemplates type) _ hcredentials
  exact ⟨hasBlock_of_any hinputs, hasBlock_of_any hmain, hasBlock_of_any houtputs⟩

theorem forall₂_documents {spec : Spec} {options : Options} {s : Network.Subnets} {p : Project}
    (h : IsCompiled .builtIn spec options s p) :
    List.Forall₂ (fun d f => f.1 = d.1 ∧ IsBannered spec.metadata.name d.2 f.2)
      (documents spec options s) p.files := by
  rw [documents, files, ← h.name]
  refine List.rel_append ?_ (List.rel_flatMap h.modules fun type m hm => ?_)
  · have hmain : HasBlock (mainDocument (cidrOf spec) s (bindAll .builtIn spec)).items :=
      ⟨_, _, _, List.mem_append_left _ (List.mem_append_left _ (List.mem_append_left _
        (List.mem_cons_of_mem _ List.mem_cons_self)))⟩
    exact .cons ⟨rfl, isBannered_of_isTextOf ⟨_, _, _, List.mem_cons_self⟩ h.provider⟩
      (.cons ⟨rfl, isBannered_of_isTextOf ⟨_, _, _, List.mem_cons_self⟩ h.inputs⟩
        (.cons ⟨rfl, isBannered_of_isTextOf hmain h.main⟩ .nil))
  · obtain ⟨hinputs, hmain, houtputs⟩ := hasBlock_template type options.credentials
    rw [ModuleFiles.files, ModuleFiles.path, hm.typeName]
    exact .cons ⟨rfl, isBannered_of_isTextOf hinputs hm.inputs⟩
      (.cons ⟨rfl, isBannered_of_isTextOf hmain hm.main⟩
        (.cons ⟨rfl, isBannered_of_isTextOf houtputs hm.outputs⟩ .nil))

/-- A specification that compiles with the built-in templates has its banner on every file,
whatever its name is. -/
theorem hasBanners_of_compile {spec : Spec} {options : Options} {p : Project}
    (compiled : (compile .builtIn spec options).result = .ok p) : HasBanners spec options p := by
  obtain ⟨s, hs⟩ := compiled_of_builtIn compiled
  exact ⟨⟨s, hs.checked, forall₂_documents hs⟩, fun name h => titleLine_injective h⟩

theorem hasBanners_of_compile_hostile : ∃ p, (compile .builtIn hostile {}).result = .ok p ∧
    HasBanners hostile {} p := by
  obtain ⟨p, hp⟩ := exists_compiled_hostile
  exact ⟨p, hp, hasBanners_of_compile hp⟩

/-- A line separator and both kinds of quotes in a name. -/
example : titleLine "a\u2028b'\"" =
    "# Generated by scoreform from SCORE project 'a\\u2028b\\'\"'." := by
  decide +kernel

end Project
end Groundplan
