/-
What is found in printed texts.

The readers of printed texts scan from the left and drop blanks as they go.  What they find
is told here by how the text is put together: a part has something in front of it and behind
it, the last part of a path has a slash in front of it and none in it, and a name stands in an
attribute that begins a line, where no line in front begins one.
-/
import Groundplan.Rollout.Printout
import Groundplan.Rollout.Service
import Mathlib.Data.List.Infix
import Mathlib.Data.List.TakeWhile

namespace Groundplan
namespace Rollout

/-! ## Parts -/

theorem isPart_iff (part cs : List Char) : isPart part cs = true ↔ part <:+: cs := by
  induction cs with
  | nil => rw [isPart, List.isEmpty_iff, List.infix_nil]
  | cons c rest ih =>
    rw [isPart, Bool.or_eq_true, List.isPrefixOf_iff_prefix, ih, List.infix_cons_iff]

theorem contains_iff (s part : String) : contains s part = true ↔ part.toList <:+: s.toList :=
  isPart_iff part.toList s.toList

/-- A text is what another one has behind its last slash. -/
def IsLastPart (name identifier : String) : Prop :=
  '/' ∉ name.toList ∧ (identifier = name ∨ ∃ front, identifier = front ++ "/" ++ name)

theorem isLastPart_of_serviceName {identifier name : String}
    (h : serviceName (.text identifier) = .ok name) : IsLastPart name identifier := by
  cases h
  set piece := (identifier.toList.reverse.takeWhile (· ≠ '/')).reverse with hpiece
  -- What is left of the reversed text starts with the slash.
  set rest := identifier.toList.reverse.dropWhile (· ≠ '/') with hrest
  have hsplit : identifier.toList = rest.reverse ++ piece := by
    rw [hpiece, hrest, ← List.reverse_append, List.takeWhile_append_dropWhile, List.reverse_reverse]
  constructor
  · intro hslash
    rw [String.toList_ofList, hpiece, List.mem_reverse] at hslash
    have hne := List.mem_takeWhile_imp hslash
    exact absurd rfl (of_decide_eq_true hne)
  · cases hcases : rest with
    | nil =>
      rw [hcases, List.reverse_nil, List.nil_append] at hsplit
      rw [← hsplit, String.ofList_toList]
      exact .inl rfl
    | cons c front =>
      have hc : c = '/' := by
        have hhead := List.head?_dropWhile_not (· ≠ '/') identifier.toList.reverse
        rw [← hrest, hcases] at hhead
        simpa using hhead
      refine .inr ⟨String.ofList front.reverse, String.toList_injective ?_⟩
      rw [hsplit, hcases, hc]
      simp

theorem exists_text_of_serviceName {id : Datum} {name : String} (h : serviceName id = .ok name) :
    ∃ identifier, id = .text identifier := by
  cases id with
  | text identifier => exact ⟨identifier, rfl⟩
  | _ => cases h

/-! ## Names -/

/-- Blank characters and then a mark. -/
def IsMark (mark cs : List Char) : Prop :=
  ∃ blanks, (∀ c ∈ blanks, Text.isBlank c = true) ∧ cs = blanks ++ mark

/-- A text begins with an attribute that gives a name in quotes. -/
def StartsWithName (cs name : List Char) : Prop :=
  ∃ word equals quote rest, cs = word ++ (equals ++ (quote ++ (name ++ '"' :: rest))) ∧
    IsMark ['n', 'a', 'm', 'e'] word ∧ IsMark ['='] equals ∧ IsMark ['"'] quote ∧ '"' ∉ name

/-- The name that the first line with one gives. -/
inductive HasName : List Char → List Char → Prop
  | here {cs name : List Char} : StartsWithName cs name → HasName cs name
  | later {line rest name : List Char} : (∀ other, ¬StartsWithName (line ++ '\n' :: rest) other) →
      '\n' ∉ line → HasName rest name → HasName (line ++ '\n' :: rest) name

theorem takeWhile_ne_append_cons {c : Char} {front : List Char} (h : c ∉ front) (rest : List Char) :
    (front ++ c :: rest).takeWhile (· ≠ c) = front := by
  rw [List.takeWhile_append_of_pos, List.takeWhile_cons_of_neg (by simp), List.append_nil]
  exact fun d hd => decide_eq_true fun hdc => h (hdc ▸ hd)

theorem dropMark?_eq_some_iff {mark cs rest : List Char} :
    dropMark? mark cs = some rest ↔ cs = mark ++ rest := by
  rw [dropMark?, Option.ite_none_right_eq_some, List.isPrefixOf_iff_prefix]
  constructor
  · rintro ⟨⟨rest, rfl⟩, h⟩
    rw [List.drop_left] at h
    cases h
    rfl
  · rintro rfl
    exact ⟨List.prefix_append _ _, by rw [List.drop_left]⟩

theorem dropMark?_dropWhile_eq_some_iff {c : Char} (hc : Text.isBlank c = false)
    {mark cs rest : List Char} : dropMark? (c :: mark) (cs.dropWhile Text.isBlank) = some rest ↔
      ∃ front, IsMark (c :: mark) front ∧ cs = front ++ rest := by
  rw [dropMark?_eq_some_iff]
  constructor
  · intro h
    refine ⟨cs.takeWhile Text.isBlank ++ c :: mark, ⟨_, fun d hd => List.mem_takeWhile_imp hd, rfl⟩, ?_⟩
    rw [List.append_assoc, ← h, List.takeWhile_append_dropWhile]
  · rintro ⟨_, ⟨blanks, hblanks, rfl⟩, rfl⟩
    rw [List.append_assoc, List.dropWhile_append_of_pos hblanks, List.cons_append,
      List.dropWhile_cons_of_neg (by rw [hc]; exact Bool.false_ne_true)]

theorem quoted_eq_some_iff {cs name : List Char} :
    (if cs.contains '"' then some (cs.takeWhile (· ≠ '"')) else none) = some name ↔
      ∃ rest, cs = name ++ '"' :: rest ∧ '"' ∉ name := by
  rw [Option.ite_none_right_eq_some, List.contains_iff_mem, Option.some_inj]
  constructor
  · rintro ⟨hmem, rfl⟩
    obtain ⟨front, rest, rfl, hfront⟩ := List.eq_append_cons_of_mem hmem
    rw [takeWhile_ne_append_cons hfront]
    exact ⟨rest, rfl, hfront⟩
  · rintro ⟨rest, rfl, hname⟩
    exact ⟨List.mem_append_right _ List.mem_cons_self, takeWhile_ne_append_cons hname rest⟩

theorem leadingName?_eq_some_iff {cs name : List Char} :
    leadingName? cs = some name ↔ StartsWithName cs name := by
  simp only [leadingName?, Option.bind_eq_bind, Option.bind_eq_some_iff, quoted_eq_some_iff,
    dropMark?_dropWhile_eq_some_iff (by decide : Text.isBlank 'n' = false),
    dropMark?_dropWhile_eq_some_iff (by decide : Text.isBlank '=' = false),
    dropMark?_dropWhile_eq_some_iff (by decide : Text.isBlank '"' = false)]
  constructor
  · rintro ⟨_, ⟨word, hword, rfl⟩, _, ⟨equals, hequals, rfl⟩, _, ⟨quote, hquote, rfl⟩, rest, rfl, hname⟩
    exact ⟨word, equals, quote, rest, rfl, hword, hequals, hquote, hname⟩
  · rintro ⟨word, equals, quote, rest, rfl, hword, hequals, hquote, hname⟩
    exact ⟨_, ⟨word, hword, rfl⟩, _, ⟨equals, hequals, rfl⟩, _, ⟨quote, hquote, rfl⟩, rest, rfl, hname⟩

theorem behindNewlines_of_not_mem {cs : List Char} (h : '\n' ∉ cs) : behindNewlines cs = [] := by
  induction cs with
  | nil => rfl
  | cons c cs ih =>
    rw [List.mem_cons, not_or] at h
    rw [behindNewlines, if_neg (Ne.symm h.1), ih h.2]

theorem behindNewlines_append {line : List Char} (h : '\n' ∉ line) (rest : List Char) :
    behindNewlines (line ++ '\n' :: rest) = rest :: behindNewlines rest := by
  induction line with
  | nil => rw [List.nil_append, behindNewlines, if_pos rfl]
  | cons c line ih =>
    rw [List.mem_cons, not_or] at h
    rw [List.cons_append, behindNewlines, if_neg (Ne.symm h.1), ih h.2]

theorem firstName?_of_not_mem {cs : List Char} (h : '\n' ∉ cs) : firstName? cs = leadingName? cs := by
  rw [firstName?, behindNewlines_of_not_mem h, List.findSome?_singleton]

theorem firstName?_append {line : List Char} (h : '\n' ∉ line) (rest : List Char) :
    firstName? (line ++ '\n' :: rest) =
      (leadingName? (line ++ '\n' :: rest)).or (firstName? rest) := by
  rw [firstName?, behindNewlines_append h, List.findSome?_cons]
  cases leadingName? (line ++ '\n' :: rest) <;> rfl

theorem hasName_of_firstName? {cs name : List Char} (h : firstName? cs = some name) :
    HasName cs name := by
  by_cases hline : '\n' ∈ cs
  · obtain ⟨line, rest, hcs, hfront⟩ := List.eq_append_cons_of_mem hline
    rw [hcs] at h ⊢
    rw [firstName?_append hfront, Option.or_eq_some_iff] at h
    rcases h with hleading | ⟨hnone, hrest⟩
    · exact .here (leadingName?_eq_some_iff.mp hleading)
    · refine .later (fun other hother => ?_) hfront (hasName_of_firstName? hrest)
      rw [leadingName?_eq_some_iff.mpr hother] at hnone
      cases hnone
  · rw [firstName?_of_not_mem hline] at h
    exact .here (leadingName?_eq_some_iff.mp h)
termination_by cs.length
decreasing_by
  rw [hcs, List.length_append, List.length_cons]
  omega

theorem firstName?_of_hasName {cs name : List Char} (h : HasName cs name) :
    firstName? cs = some name := by
  induction h with
  | here hname => rw [firstName?, List.findSome?_cons, leadingName?_eq_some_iff.mpr hname]
  | @later line rest name hother hline _ ih =>
    have hnone : leadingName? (line ++ '\n' :: rest) = none :=
      Option.eq_none_iff_forall_ne_some.mpr fun other h =>
        hother other (leadingName?_eq_some_iff.mp h)
    rw [firstName?_append hline, hnone, Option.none_or]
    exact ih

/-- What is read is the first name that is given. -/
theorem resourceName_eq_some_iff {printout name : String} :
    resourceName printout = some name ↔ HasName printout.toList name.toList := by
  rw [resourceName, Option.map_eq_some_iff]
  constructor
  · rintro ⟨cs, hcs, rfl⟩
    rw [String.toList_ofList]
    exact hasName_of_firstName? hcs
  · intro h
    exact ⟨_, firstName?_of_hasName h, String.ofList_toList⟩

end Rollout
end Groundplan
