/-
The shape of rendered lines.

A text is put together from lines, and a proof about a text wants it as the lines one
after the other, each with its newline: that is `linesText`.  The lemmas here say how
joining and the lines of attributes look in that form, so that what follows never opens
the layout again.
-/
import Groundplan.Hcl.Render
import Groundplan.Proofs.Result
import Groundplan.Proofs.Text.Lines
import Groundplan.Proofs.Text.Trimming
import Mathlib.Data.List.SplitBy

namespace Groundplan

namespace Hcl

/-! ## Lines -/

def spaces (n : Nat) : List Char := List.replicate n ' '

theorem mem_spaces {c : Char} {n : Nat} (h : c ∈ spaces n) : c = ' ' := List.eq_of_mem_replicate h

theorem toList_indent (level : Int) : (indent level).toList = spaces (2 * level).toNat := by
  rw [indent, String.toList_ofList, spaces]

/-- Lines one after the other, each with its newline. -/
def linesText (lines : List String) : List Char := lines.flatMap fun l => l.toList ++ ['\n']

theorem linesText_nil : linesText [] = [] := rfl

theorem linesText_cons (l : String) (lines : List String) :
    linesText (l :: lines) = l.toList ++ '\n' :: linesText lines := by
  rw [linesText, List.flatMap_cons, List.append_assoc]
  rfl

theorem linesText_append (a b : List String) : linesText (a ++ b) = linesText a ++ linesText b := by
  rw [linesText, List.flatMap_append]
  rfl

theorem linesText_singleton (l : String) : linesText [l] = l.toList ++ ['\n'] := by
  rw [linesText_cons, linesText_nil]

theorem toList_joinLines_append {lines : List String} (h : lines ≠ []) :
    (joinLines lines).toList ++ ['\n'] = linesText lines := by
  induction lines with
  | nil => exact absurd rfl h
  | cons l rest ih =>
    cases rest with
    | nil => rw [joinLines, String.intercalate_singleton, linesText_singleton]
    | cons k rest =>
      have hrest := ih (List.cons_ne_nil k rest)
      rw [joinLines] at hrest ⊢
      rw [String.intercalate_cons_cons, String.toList_append, String.toList_append,
        List.append_assoc, hrest, linesText_cons l, List.append_assoc]
      rfl

/-- Lines between an opening and a closing one. -/
theorem toList_joinLines_enclosed (a : String) (lines : List String) (b : String) :
    (joinLines (a :: (lines ++ [b]))).toList = a.toList ++ '\n' :: (linesText lines ++ b.toList) := by
  have h := toList_joinLines_append (List.cons_ne_nil a (lines ++ [b]))
  rw [linesText_cons, linesText_append, linesText_singleton] at h
  refine List.append_cancel_right (show _ ++ ['\n'] = _ ++ ['\n'] from ?_)
  rw [h]
  simp

/-! ## Attributes -/

theorem toList_padName (width : Nat) (name : String) :
    (padName width name).toList = name.toList ++ spaces (width - name.length) := by
  rw [padName, String.toList_append, String.toList_ofList, spaces]

/-- What one line of attributes consists of: the indentation, the name with spaces
behind it, and the text of the value. -/
def IsAttributeLine (level : Int) (a : String × String) (line : String) : Prop :=
  ∃ n, line.toList = spaces (2 * level).toNat ++ (a.1.toList ++ (spaces n ++ (" = ".toList ++ a.2.toList)))

theorem mem_alignedLines {level : Int} {group : List (String × String)} {line : String}
    (h : line ∈ alignedLines level group) : ∃ a ∈ group, IsAttributeLine level a line := by
  obtain ⟨a, ha, rfl⟩ := List.mem_map.mp h
  refine ⟨a, ha, maxLength (group.map Prod.fst) - a.1.length, ?_⟩
  simp only [String.toList_append, toList_indent, toList_padName, List.append_assoc]

theorem mem_attributeLines {level : Int} {attrs : List (String × String)} {line : String}
    (h : line ∈ attributeLines level attrs) : ∃ a ∈ attrs, IsAttributeLine level a line := by
  rw [attributeLines] at h
  obtain ⟨group, hgroup, hline⟩ := List.mem_flatMap.mp h
  have hsub : ∀ a ∈ group, a ∈ attrs := fun a ha => by
    rw [← List.flatten_splitBy (fun a b => !isMultiLine a.2 && !isMultiLine b.2) attrs]
    exact List.mem_flatten.mpr ⟨group, hgroup, ha⟩
  split at hline
  · rename_i name text
    split at hline
    · refine ⟨(name, text), hsub _ List.mem_cons_self, 0, ?_⟩
      rw [List.mem_singleton.mp hline]
      simp [toList_indent, spaces]
    · obtain ⟨a, ha, hshape⟩ := mem_alignedLines hline
      exact ⟨a, hsub a ha, hshape⟩
  · obtain ⟨a, ha, hshape⟩ := mem_alignedLines hline
    exact ⟨a, hsub a ha, hshape⟩

/-- The texts of attributes, in the order of the attributes. -/
theorem renderAttributes_ok {level : Int} {attrs : List Attribute} {lines : List String}
    (h : renderAttributes level attrs = .ok lines) :
    ∃ rendered, List.Forall₂ (fun a r => r.1 = a.name ∧ renderValue level a.value = .ok r.2)
      attrs rendered ∧ lines = attributeLines level rendered := by
  rw [renderAttributes] at h
  obtain ⟨rendered, hr, hlines⟩ := ok_of_bind h
  refine ⟨rendered, ?_, (Except.ok.inj hlines).symm⟩
  clear h hlines
  induction attrs generalizing rendered with
  | nil =>
    rw [List.mapM_nil] at hr
    cases hr
    exact .nil
  | cons a attrs ih =>
    rw [List.mapM_cons] at hr
    obtain ⟨r, hfirst, hr⟩ := ok_of_bind hr
    obtain ⟨rs, hrest, hr⟩ := ok_of_bind hr
    obtain ⟨text, htext, hfirst⟩ := ok_of_bind hfirst
    cases hr
    cases hfirst
    exact .cons ⟨rfl, htext⟩ (ih rs hrest)

/-! ## Comments -/

theorem isOneLine_of_mem_lines {text line : String} (h : line ∈ Text.lines text) :
    Text.IsOneLine line.toList := by
  obtain ⟨cs, hcs, rfl⟩ := List.mem_map.mp h
  rw [String.toList_ofList]
  exact Text.isOneLine_of_mem_splitLines hcs

/-- A comment line is a hash sign behind the indentation and text without a line boundary. -/
theorem mem_commentLines {level : Int} {text line : String} (h : line ∈ commentLines level text) :
    ∃ rest, line.toList = spaces (2 * level).toNat ++ '#' :: rest ∧ Text.IsOneLine rest := by
  obtain ⟨l, hl, rfl⟩ := List.mem_map.mp h
  refine ⟨Text.trimEndBy Text.isBlank (' ' :: l.toList), ?_, fun c hc => ?_⟩
  · rw [Text.stripEnd, String.toList_ofList, String.toList_append, String.toList_append,
      toList_indent, List.append_assoc]
    exact Text.trimEndBy_append_cons (by decide) _ _
  · rcases List.mem_cons.mp (Text.trimEndBy_subset _ _ hc) with rfl | hc
    · decide
    · exact isOneLine_of_mem_lines hl c hc

end Hcl
end Groundplan
