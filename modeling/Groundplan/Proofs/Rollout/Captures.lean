/-
What is read as a placeholder.

The reader of placeholders takes the first closing brace behind a mark for its end.  In
front of a mark where every earlier one has found its brace it therefore stands outside
of all of them, and takes what the mark itself opens.
-/
import Groundplan.Proofs.Hcl.Marks
import Groundplan.Proofs.Text.Trimming
import Groundplan.Rollout.Placeholder

namespace Groundplan
namespace Rollout

open Hcl

/-! ## Marks -/

theorem takeWhile_append_closing {text : List Char} (h : '\x7d' ∉ text) (rest : List Char) :
    (text ++ '\x7d' :: rest).takeWhile (· ≠ '\x7d') = text := by
  rw [List.takeWhile_append_of_pos, List.takeWhile_cons_of_neg (by decide), List.append_nil]
  intro c hc
  exact decide_eq_true fun heq => h (heq ▸ hc)

variable {opening : List Char}

theorem captures_cons_of_not_prefix {c : Char} {rest : List Char} (h : ¬opening <+: c :: rest) :
    captures opening (c :: rest) = captures opening rest := by
  rw [captures, if_neg (mt List.isPrefixOf_iff_prefix.mp h)]

/-- Nothing begins in a text without a dollar sign. -/
theorem captures_append_of_not_mem {front : List Char} (h : '$' ∉ front) (rest : List Char) :
    captures escapedMark (front ++ rest) = captures escapedMark rest := by
  induction front with
  | nil => rfl
  | cons c front ih =>
    rw [List.mem_cons, not_or] at h
    rw [List.cons_append, captures_cons_of_not_prefix, ih h.2]
    exact fun hbegins => h.1 (List.cons_prefix_cons.mp hbegins).1

/-- What happens at a mark, with the text behind it in sight. -/
theorem captures_append (hopening : opening ≠ []) (tail : List Char) :
    captures opening (opening ++ tail) =
      let text := tail.takeWhile (· ≠ '\x7d')
      if text.isEmpty || text.length = tail.length then captures opening (opening.tail ++ tail)
      else text :: captures opening (tail.drop (text.length + 1)) := by
  obtain ⟨m, mark, rfl⟩ := List.exists_cons_of_ne_nil hopening
  have hbegins : (m :: mark).isPrefixOf (m :: (mark ++ tail)) = true :=
    List.isPrefixOf_iff_prefix.mpr (List.prefix_append (m :: mark) tail)
  have htail : (mark ++ tail).drop ((m :: mark).length - 1) = tail := by simp
  rw [List.cons_append, captures, if_pos hbegins, htail]
  rfl

/-- A mark that no brace closes is passed over. -/
theorem captures_unclosed (hopening : opening ≠ []) {tail : List Char} (h : '\x7d' ∉ tail) :
    captures opening (opening ++ tail) = captures opening (opening.tail ++ tail) := by
  have hall : tail.takeWhile (· ≠ '\x7d') = tail := by
    rw [← List.append_nil tail, List.takeWhile_append_of_pos]
    · rfl
    · exact fun c hc => decide_eq_true fun heq => h (heq ▸ hc)
  rw [captures_append hopening]
  simp only [hall, decide_true, Bool.or_true, if_true]

/-- A mark is read with what stands between it and the next closing brace, if that is
anything. -/
theorem captures_mark (hopening : opening ≠ []) {text : List Char} (h : '\x7d' ∉ text)
    (rest : List Char) :
    captures opening (opening ++ (text ++ '\x7d' :: rest)) =
      if text = [] then captures opening (opening.tail ++ '\x7d' :: rest)
      else text :: captures opening rest := by
  have hlength : text.length ≠ (text ++ '\x7d' :: rest).length := by
    rw [List.length_append, List.length_cons]
    omega
  have hrest : (text ++ '\x7d' :: rest).drop (text.length + 1) = rest := by
    rw [List.drop_append, List.drop_of_length_le (Nat.le_succ _)]
    simp
  rw [captures_append hopening]
  simp only [takeWhile_append_closing h, hlength, hrest, decide_false, Bool.or_false,
    List.isEmpty_iff]
  by_cases hempty : text = []
  · simp only [hempty, if_true, List.nil_append]
  · simp only [hempty, if_false]

theorem escapedMark_ne_nil : escapedMark ≠ [] := List.cons_ne_nil _ _

/-- A mark of a text that settles is read within the text. -/
theorem exists_closing {s : List Char} (h : Settles escapedMark s) (hbegins : escapedMark <+: s) :
    ∃ text behind, s = escapedMark ++ (text ++ '\x7d' :: behind) ∧ '\x7d' ∉ text := by
  have hmem : '\x7d' ∈ s := h s ((List.mem_tails _ _).mpr (List.suffix_refl s)) hbegins
  obtain ⟨tail, rfl⟩ := hbegins
  have htail : '\x7d' ∈ tail := (List.mem_append.mp hmem).resolve_left (by decide)
  obtain ⟨text, behind, rfl, htext⟩ := List.eq_append_cons_of_mem htail
  exact ⟨text, behind, rfl, htext⟩

/-- No mark begins in front of a mark and goes on into it: its brace would have to be a
dollar sign. -/
theorem not_prefix_across {c : Char} {front : List Char} (h : ¬escapedMark <+: c :: front)
    (rest : List Char) : ¬escapedMark <+: c :: (front ++ (escapedMark ++ rest)) := by
  intro hacross
  rcases front with _ | ⟨d, _ | ⟨e, front⟩⟩
  · simp [escapedMark, List.cons_prefix_cons] at hacross
  · simp [escapedMark, List.cons_prefix_cons] at hacross
  · simp only [escapedMark, List.cons_append, List.cons_prefix_cons, List.nil_prefix, and_true,
      not_and] at h hacross
    exact h hacross.1 hacross.2.1 hacross.2.2

/-- An early mark takes what stands in front of its own brace, and the search goes on
behind it. -/
theorem mem_captures {front text rest : List Char} (hfront : Settles escapedMark front)
    (hne : text ≠ []) (hclosing : '\x7d' ∉ text) :
    text ∈ captures escapedMark (front ++ (escapedMark ++ (text ++ '\x7d' :: rest))) := by
  induction hlength : front.length using Nat.strong_induction_on generalizing front with
  | _ n ih =>
    by_cases hbegins : escapedMark <+: front
    · obtain ⟨taken, behind, rfl, htaken⟩ := exists_closing hfront hbegins
      simp only [List.length_append, List.length_cons] at hlength
      rw [List.append_assoc, List.append_assoc, List.cons_append, captures_mark escapedMark_ne_nil htaken]
      by_cases hempty : taken = []
      · subst hempty
        rw [if_pos rfl]
        have hsuffix := hfront.suffix (t := '$' :: '\x7b' :: '\x7d' :: behind) ⟨['$'], rfl⟩
        refine ih _ ?_ hsuffix rfl
        rw [← hlength]
        simp only [escapedMark, List.length_cons]
        omega
      · rw [if_neg hempty]
        have hsuffix := hfront.suffix (t := behind) ⟨escapedMark ++ (taken ++ ['\x7d']), by simp⟩
        refine List.mem_cons_of_mem _ (ih _ ?_ hsuffix rfl)
        omega
    · cases front with
      | nil =>
        rw [List.nil_append, captures_mark escapedMark_ne_nil hclosing, if_neg hne]
        exact List.mem_cons_self
      | cons c front =>
        rw [List.cons_append, captures_cons_of_not_prefix (not_prefix_across hbegins _)]
        refine ih _ ?_ (settles_cons.mp hfront).2 rfl
        rw [← hlength, List.length_cons]
        omega

/-- A mark without a brace takes the next one of the file, which here belongs to a later
literal, and the placeholder in that is lost. -/
example : captures escapedMark "\"$$\x7b\", \"$$\x7bNAME\x7d\"".toList = ["\", \"$$\x7bNAME".toList] := by
  decide +kernel

/-! ## Names -/

/-- A name of a variable of the environment. -/
def isVariableName (s : String) : Bool :=
  Text.isWord (fun c => Text.isLetter c || c == '_')
    (fun c => Text.isLetter c || Text.isAsciiDigit c || c == '_') s.toList

def isNameChar (c : Char) : Bool := Text.isLetter c || Text.isAsciiDigit c || c == '_'

theorem isNameChar_of_mem {name : String} (h : isVariableName name = true) :
    ∀ c ∈ name.toList, isNameChar c = true := by
  rw [isVariableName] at h
  cases hcs : name.toList with
  | nil => exact List.forall_mem_nil _
  | cons c rest =>
    rw [hcs, Text.isWord, Bool.and_eq_true, List.all_eq_true] at h
    refine List.forall_mem_cons.mpr ⟨?_, h.2⟩
    simp only [isNameChar, Bool.or_eq_true] at h ⊢
    exact h.1.imp_left .inl

theorem ne_of_isNameChar {c d : Char} (hc : isNameChar c = true) (hd : isNameChar d = false) : c ≠ d := by
  rintro rfl
  rw [hc] at hd
  cases hd

theorem isBlank_of_isNameChar {c : Char} (h : isNameChar c = true) : Text.isBlank c = false := by
  have hrange : 0x21 ≤ c.toNat ∧ c.toNat ≤ 0x7e := by
    simp only [isNameChar, Text.isLetter, Text.isAsciiDigit, Bool.or_eq_true, Bool.and_eq_true,
      decide_eq_true_eq, beq_iff_eq, Char.le_def, UInt32.le_iff_toNat_le] at h
    rcases h with ((h | h) | h) | rfl
    · exact ⟨le_trans (by decide) h.1, le_trans h.2 (by decide)⟩
    · exact ⟨le_trans (by decide) h.1, le_trans h.2 (by decide)⟩
    · exact ⟨le_trans (by decide) h.1, le_trans h.2 (by decide)⟩
    · decide
  rw [Text.isBlank, Text.isWhiteSpace]
  simp only [Bool.or_eq_false_iff, Bool.and_eq_false_iff, decide_eq_false_iff_not, beq_eq_false_iff_ne]
  omega

theorem isVerbatim_of_isVariableName {name : String} (h : isVariableName name = true) :
    Literal.IsVerbatim name.toList := by
  intro c hc
  have hne := fun d => ne_of_isNameChar (d := d) (isNameChar_of_mem h c hc)
  exact ⟨⟨hne _ (by decide), hne _ (by decide), hne _ (by decide), hne _ (by decide),
    hne _ (by decide)⟩, hne _ (by decide)⟩

theorem beforeDefault_append {name : List Char} (h : ':' ∉ name) (rest : List Char) :
    beforeDefault (name ++ rest) = name ++ beforeDefault rest := by
  induction name with
  | nil => rfl
  | cons c name ih =>
    rw [List.mem_cons, not_or] at h
    rw [List.cons_append, beforeDefault, ih h.2, List.cons_append]
    rintro _ rfl
    exact absurd rfl h.1

theorem strip_of_forall {s : String} (h : ∀ c ∈ s.toList, Text.isBlank c = false) :
    Text.strip s = s := by
  have htrim := Text.trimBy_append (List.forall_mem_nil _) h (List.forall_mem_nil _)
  rw [List.append_nil, List.nil_append] at htrim
  rw [Text.strip, htrim, String.ofList_toList]

/-- What may stand behind the name of a variable in a placeholder: nothing, or a default. -/
def IsDefault (s : List Char) : Prop := s = [] ∨ ∃ value, s = ':' :: '-' :: value

theorem variableName_of_isVariableName {name : String} (h : isVariableName name = true)
    {rest : List Char} (hrest : IsDefault rest) :
    variableName (String.ofList (name.toList ++ rest)) = some name := by
  have hchars := isNameChar_of_mem h
  have hcolon : ':' ∉ name.toList := fun hmem => ne_of_isNameChar (hchars _ hmem) (by decide) rfl
  have hbefore : beforeDefault rest = [] := by
    rcases hrest with rfl | ⟨value, rfl⟩ <;> rfl
  have hidentifier : Text.isIdentifier name = true := Text.isName_iff.mpr (.inl h)
  rw [variableName, String.toList_ofList, beforeDefault_append hcolon, hbefore, List.append_nil,
    String.ofList_toList, strip_of_forall fun c hc => isBlank_of_isNameChar (hchars c hc)]
  rw [if_pos hidentifier]

/-- A text has a placeholder for a variable in it, and closes what it opens in front of
the placeholder. -/
def Mentions (text name : String) : Prop :=
  ∃ before default after : String,
    text = before ++ "$\x7b" ++ name ++ default ++ "\x7d" ++ after ∧
      Closes before ∧ IsDefault default.toList ∧ '\x7d' ∉ default.toList

/-- The placeholder is read from the literal of the text, whatever stands behind it. -/
theorem exists_capture {text name : String} (hname : isVariableName name = true)
    (h : Mentions text name) {front : List Char} (hfront : Sealed front) (behind : List Char) :
    ∃ body ∈ captures escapedMark (front ++ ((quote text).toList ++ behind)),
      variableName (String.ofList body) = some name := by
  obtain ⟨before, default, after, rfl, hbefore, hdefault, hclosing⟩ := h
  have hverbatim := isVerbatim_of_isVariableName hname
  have hdefaultHead : ∀ t, default.toList ≠ '\x7b' :: t := by
    intro t ht
    rw [ht] at hdefault
    rcases hdefault with hnil | ⟨value, hvalue⟩
    · cases hnil
    · cases hvalue
  have hbody : Literal.escape (name.toList ++ default.toList) =
      name.toList ++ Literal.escape default.toList := by
    rw [Literal.escape_append hdefaultHead, Literal.escape_of_isVerbatim hverbatim]
  have hescaped : IsDefault (Literal.escape default.toList) := by
    rcases hdefault with hnil | ⟨value, hvalue⟩
    · rw [hnil]
      exact .inl rfl
    · rw [hvalue]
      exact .inr ⟨Literal.escape value, rfl⟩
  have hnoClosing : '\x7d' ∉ name.toList ++ Literal.escape default.toList := by
    rw [← hbody, Literal.mem_escape_closing, List.mem_append, not_or]
    exact ⟨fun hmem => ne_of_isNameChar (isNameChar_of_mem hname _ hmem) (by decide) rfl, hclosing⟩
  have hne : name.toList ++ Literal.escape default.toList ≠ [] := by
    refine List.append_ne_nil_of_left_ne_nil ?_ _
    intro hnil
    rw [isVariableName, hnil] at hname
    cases hname
  have hsettled : Settles escapedMark (front ++ '"' :: Literal.escape before.toList) := by
    refine hfront.settled.append escapedMark_dropLast ?_ (.inl hfront.last)
    refine settles_cons.mpr ⟨fun hbegins => ?_, Literal.settles_escape hbefore⟩
    exact absurd (List.cons_prefix_cons.mp hbegins).1 (by decide)
  have hliteral : (quote (before ++ "$\x7b" ++ name ++ default ++ "\x7d" ++ after)).toList ++ behind =
      '"' :: (Literal.escape before.toList ++ (escapedMark ++
        ((name.toList ++ Literal.escape default.toList) ++
          '\x7d' :: (Literal.escape after.toList ++ '"' :: behind)))) := by
    have htext : (before ++ "$\x7b" ++ name ++ default ++ "\x7d" ++ after).toList =
        before.toList ++ ('$' :: '\x7b' :: ((name.toList ++ default.toList) ++ '\x7d' :: after.toList)) := by
      simp [String.toList_append]
    rw [toList_quote, htext, Literal.escape_placeholder, hbody]
    simp
  refine ⟨_, ?_, variableName_of_isVariableName hname hescaped⟩
  rw [hliteral, ← List.cons_append, ← List.append_assoc]
  exact mem_captures hsettled hne hnoClosing

/-! ## References -/

theorem mem_distinctSorted {text : String} {texts : List String} :
    text ∈ distinctSorted texts ↔ text ∈ texts := by
  rw [distinctSorted, List.mem_mergeSort, List.mem_eraseDups]

theorem ofText_eq (environment : List String) (text : String) :
    Reference.ofText environment text =
      ⟨text, variableName text, (variableName text).any environment.contains⟩ := by
  simp only [Reference.ofText]

theorem ofText_of_variableName {text name : String} (h : variableName text = some name)
    (environment : List String) :
    Reference.ofText environment text = ⟨text, some name, environment.contains name⟩ := by
  simp only [ofText_eq, h, Option.any_some]

theorem mem_referencesIn {environment sources : List String} {r : Reference} :
    r ∈ referencesIn environment sources ↔ ∃ source ∈ sources,
      ∃ text ∈ captures escapedMark source.toList,
        r = Reference.ofText environment (String.ofList text) := by
  unfold referencesIn
  dsimp only
  simp only [List.mem_map, mem_distinctSorted, List.mem_flatMap]
  constructor
  · rintro ⟨-, ⟨source, hsource, text, htext, rfl⟩, rfl⟩
    exact ⟨source, hsource, text, htext, rfl⟩
  · rintro ⟨source, hsource, text, htext, rfl⟩
    exact ⟨_, ⟨source, hsource, text, htext, rfl⟩, rfl⟩

end Rollout
end Groundplan
