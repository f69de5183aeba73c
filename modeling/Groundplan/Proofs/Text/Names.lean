/-
What a name consists of.

The test for a name lets one newline pass at the very end.  What is proved about names
has to cope with it, and does so best with the name taken apart: a name is a word, or a
word and a newline.
-/
import Groundplan.Text.Identifier
import Mathlib.Data.List.Basic

namespace Groundplan
namespace Text

theorem exists_of_allThenNewline {p : Char → Bool} {cs : List Char}
    (h : allThenNewline p cs = true) :
    ∃ body, (∀ c ∈ body, p c = true) ∧ (cs = body ∨ cs = body ++ ['\n']) := by
  fun_induction allThenNewline p cs with
  | case1 => exact ⟨[], by simp, .inl rfl⟩
  | case2 => exact ⟨[], by simp, .inr rfl⟩
  | case3 c rest _ ih =>
    rw [Bool.and_eq_true] at h
    obtain ⟨body, hbody, hrest⟩ := ih h.2
    refine ⟨c :: body, List.forall_mem_cons.mpr ⟨h.1, hbody⟩, ?_⟩
    rcases hrest with rfl | rfl
    · exact .inl rfl
    · exact .inr rfl

/-- A name is a word over its classes of characters, or such a word and a newline. -/
theorem exists_of_isName {first further : Char → Bool} {cs : List Char}
    (h : isName first further cs = true) :
    ∃ c body, first c = true ∧ (∀ d ∈ body, further d = true) ∧
      (cs = c :: body ∨ cs = (c :: body) ++ ['\n']) := by
  cases cs with
  | nil => cases h
  | cons c rest =>
    rw [isName, Bool.and_eq_true] at h
    obtain ⟨body, hbody, hrest⟩ := exists_of_allThenNewline h.2
    refine ⟨c, body, h.1, hbody, ?_⟩
    rcases hrest with rfl | rfl
    · exact .inl rfl
    · exact .inr rfl

/-- A class of characters that has the newline and both classes of a name has the whole
name. -/
theorem isName_imp {first further q : Char → Bool} (hfirst : ∀ c, first c = true → q c = true)
    (hfurther : ∀ c, further c = true → q c = true) (hn : q '\n' = true) {cs : List Char}
    (h : isName first further cs = true) : ∀ c ∈ cs, q c = true := by
  obtain ⟨c, body, hc, hbody, hcs⟩ := exists_of_isName h
  have hword : ∀ d ∈ c :: body, q d = true :=
    List.forall_mem_cons.mpr ⟨hfirst c hc, fun d hd => hfurther d (hbody d hd)⟩
  rcases hcs with rfl | rfl
  · exact hword
  · exact List.forall_mem_append.mpr ⟨hword, List.forall_mem_singleton.mpr hn⟩

/-- A character of neither class is not in a name, unless it is the newline. -/
theorem not_mem_of_isName {first further : Char → Bool} {a : Char} (hfirst : first a = false)
    (hfurther : further a = false) (hn : a ≠ '\n') {cs : List Char}
    (h : isName first further cs = true) : a ∉ cs := by
  have hne : ∀ p : Char → Bool, p a = false → ∀ c, p c = true → (c != a) = true := by
    intro p hp c hc
    rw [bne_iff_ne]
    rintro rfl
    rw [hp] at hc
    cases hc
  have hall := isName_imp (hne first hfirst) (hne further hfurther) (bne_iff_ne.mpr hn.symm) h
  exact fun ha => bne_iff_ne.mp (hall a ha) rfl

/-- The newline can only stand at the end. -/
theorem exists_word_of_isName {first further : Char → Bool} (hfirst : first '\n' = false)
    (hfurther : further '\n' = false) {cs : List Char} (h : isName first further cs = true) :
    ∃ word, '\n' ∉ word ∧ (cs = word ∨ cs = word ++ ['\n']) := by
  obtain ⟨c, body, hc, hbody, hcs⟩ := exists_of_isName h
  refine ⟨c :: body, ?_, hcs⟩
  rw [List.mem_cons, not_or]
  refine ⟨?_, fun hn => ?_⟩
  · rintro rfl
    rw [hfirst] at hc
    cases hc
  · have hnewline := hbody _ hn
    rw [hfurther] at hnewline
    cases hnewline

/-! ## Words -/

/-- A name that nothing comes behind. -/
def isWord (first further : Char → Bool) : List Char → Bool
  | [] => false
  | c :: rest => first c && rest.all further

/-- What the test for names lets pass when words are meant. -/
def IsUpToNewline (word : String → Bool) (s : String) : Prop :=
  word s = true ∨ ∃ name, word name = true ∧ s = name ++ "\n"

def isWorkloadWord (s : String) : Bool :=
  isWord (fun c => isLetter c || c == '_')
    (fun c => isLetter c || isAsciiDigit c || c == '_' || c == '-') s.toList

def isProviderWord (s : String) : Bool :=
  isWord isLowerLetter (fun c => isLowerLetter c || isAsciiDigit c || c == '-') s.toList

theorem allThenNewline_of_all {p : Char → Bool} {body : List Char} (h : body.all p = true) :
    allThenNewline p body = true ∧ allThenNewline p (body ++ ['\n']) = true := by
  induction body with
  | nil => exact ⟨rfl, rfl⟩
  | cons c rest ih =>
    rw [List.all_cons, Bool.and_eq_true] at h
    obtain ⟨hrest, hnewline⟩ := ih h.2
    constructor
    · unfold allThenNewline
      split
      · rfl
      · rfl
      · rename_i heq
        cases heq
        rw [h.1, hrest]
        rfl
    · rw [List.cons_append, allThenNewline, h.1, hnewline]
      · rfl
      · simp

theorem isName_iff {first further : Char → Bool} {cs : List Char} :
    isName first further cs = true ↔
      isWord first further cs = true ∨
        ∃ word, isWord first further word = true ∧ cs = word ++ ['\n'] := by
  constructor
  · intro h
    obtain ⟨c, body, hc, hbody, hcs⟩ := exists_of_isName h
    have hword : isWord first further (c :: body) = true := by
      rw [isWord, hc, Bool.true_and]
      exact List.all_eq_true.mpr hbody
    rcases hcs with rfl | rfl
    · exact .inl hword
    · exact .inr ⟨c :: body, hword, rfl⟩
  · have hname : ∀ word, isWord first further word = true →
        isName first further word = true ∧ isName first further (word ++ ['\n']) = true := by
      intro word hword
      cases word with
      | nil => cases hword
      | cons c rest =>
        rw [isWord, Bool.and_eq_true] at hword
        obtain ⟨hrest, hnewline⟩ := allThenNewline_of_all hword.2
        rw [List.cons_append, isName, isName, hword.1, hrest, hnewline]
        exact ⟨rfl, rfl⟩
    rintro (hword | ⟨word, hword, rfl⟩)
    · exact (hname _ hword).1
    · exact (hname word hword).2

theorem isUpToNewline_iff {first further : Char → Bool} {s : String} :
    IsUpToNewline (fun s => isWord first further s.toList) s ↔
      isName first further s.toList = true := by
  rw [isName_iff]
  refine or_congr_right ⟨?_, ?_⟩
  · rintro ⟨name, hname, rfl⟩
    exact ⟨name.toList, hname, String.toList_append⟩
  · rintro ⟨word, hword, hs⟩
    refine ⟨String.ofList word, ?_, String.toList_injective ?_⟩
    · show isWord first further (String.ofList word).toList = true
      rwa [String.toList_ofList]
    · rw [hs, String.toList_append, String.toList_ofList]
      rfl

theorem isWorkloadName_iff {s : String} : isWorkloadName s = true ↔ IsUpToNewline isWorkloadWord s :=
  isUpToNewline_iff.symm

theorem isProviderName_iff {s : String} : isProviderName s = true ↔ IsUpToNewline isProviderWord s :=
  isUpToNewline_iff.symm

/-- Without a newline in it the name is a word. -/
theorem IsUpToNewline.word {word : String → Bool} {s : String} (h : IsUpToNewline word s)
    (hn : '\n' ∉ s.toList) : word s = true := by
  rcases h with h | ⟨name, -, rfl⟩
  · exact h
  · refine absurd ?_ hn
    rw [String.toList_append]
    exact List.mem_append_right _ (by decide)

end Text
end Groundplan
