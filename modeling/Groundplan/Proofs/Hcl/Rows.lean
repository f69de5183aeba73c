/-
Rows of a text and what starts at their left edge.

A rendered line may hold several rows, and a text given by a user may hold newlines.
`hangs` says that no row starts with a letter, so that nothing of it can pass for the
first row of a block.  It looks at one character and at what stands in front of it, and
therefore composes wherever a character that is no letter stands between two parts.
-/
import Groundplan.Proofs.Hcl.Lines
import Groundplan.Proofs.Hcl.Literal
import Groundplan.Proofs.Hcl.Raw
import Groundplan.Proofs.Number.Numeral
import Groundplan.Proofs.Text.Splitting

namespace Groundplan

namespace Text

/-- The rows of a text; behind the last newline there is one more. -/
def rows (text : String) : List String := (splitOn '\n' text.toList).map String.ofList

/-- The rows that start with a word, as a text editor finds them. -/
def rowsFrom (word text : String) : List String :=
  (rows text).filter fun row => word.toList.isPrefixOf row.toList

end Text

namespace Hcl
namespace Rows

open Text

/-! ## Hanging texts -/

/-- Whether no row starts with a letter; `fresh` says whether the text is at the start
of a row. -/
def hangs : Bool → List Char → Bool
  | _, [] => true
  | fresh, c :: rest => !(fresh && isLetter c) && hangs (c == '\n') rest

/-- The property that is asked of everything raw. -/
def isHanging (s : String) : Bool := hangs false s.toList

theorem hangs_append_cons {c : Char} (hc : isLetter c = false) (fresh : Bool) (a b : List Char) :
    hangs fresh (a ++ c :: b) = (hangs fresh a && hangs (c == '\n') b) := by
  induction a generalizing fresh with
  | nil => rw [List.nil_append, hangs, hangs, hc, Bool.and_false, Bool.not_false]
  | cons d a ih => rw [List.cons_append, hangs, hangs, ih, Bool.and_assoc]

theorem hangs_cons {c : Char} (hc : isLetter c = false) (fresh : Bool) (b : List Char) :
    hangs fresh (c :: b) = hangs (c == '\n') b := by
  rw [hangs, hc, Bool.and_false, Bool.not_false, Bool.true_and]

/-- In front of a text that stays in its row nothing can go wrong. -/
theorem hangs_append_of_not_mem {a : List Char} (h : '\n' ∉ a) (b : List Char) :
    hangs false (a ++ b) = hangs false b := by
  induction a with
  | nil => rfl
  | cons c a ih =>
    rw [List.mem_cons, not_or] at h
    rw [List.cons_append, hangs, Bool.false_and, Bool.not_false, Bool.true_and,
      beq_eq_false_iff_ne.mpr (Ne.symm h.1), ih h.2]

theorem hangs_of_not_mem {cs : List Char} (h : '\n' ∉ cs) : hangs false cs = true := by
  have happ := hangs_append_of_not_mem h []
  rw [List.append_nil] at happ
  rw [happ]
  rfl

/-- Behind the indentation of an inner level a row has started. -/
theorem hangs_spaces_append {n : Nat} (hn : n ≠ 0) (fresh : Bool) (b : List Char) :
    hangs fresh (spaces n ++ b) = hangs false b := by
  obtain ⟨m, rfl⟩ := Nat.exists_eq_succ_of_ne_zero hn
  rw [spaces, List.replicate_succ, List.cons_append, hangs_cons (by decide),
    show (' ' == '\n') = false from rfl]
  refine hangs_append_of_not_mem (fun hmem => ?_) b
  exact absurd (List.eq_of_mem_replicate hmem) (by decide)

/-- Hanging lines leave the text at the start of a row. -/
theorem hangs_linesText_append {lines : List String}
    (h : ∀ l ∈ lines, hangs true l.toList = true) (b : List Char) :
    hangs true (linesText lines ++ b) = hangs true b := by
  induction lines with
  | nil => rfl
  | cons l rest ih =>
    rw [linesText_cons, List.append_assoc, List.cons_append, hangs_append_cons (by decide),
      h l List.mem_cons_self, Bool.true_and]
    exact ih fun k hk => h k (List.mem_cons_of_mem l hk)

theorem hangs_linesText {lines : List String} (h : ∀ l ∈ lines, hangs true l.toList = true) :
    hangs true (linesText lines) = true := by
  have happ := hangs_linesText_append h []
  rw [List.append_nil] at happ
  rw [happ]
  rfl

/-! ## Heads -/

def startsWithLetter (row : List Char) : Bool := row.head?.any isLetter

/-- The rows that start with a letter. -/
def heads (cs : List Char) : List (List Char) := (splitOn '\n' cs).filter startsWithLetter

theorem heads_append_newline (a b : List Char) : heads (a ++ '\n' :: b) = heads a ++ heads b := by
  rw [heads, splitOn_append_cons, List.filter_append]
  rfl

theorem heads_linesText (lines : List String) :
    heads (linesText lines) = lines.flatMap fun l => heads l.toList := by
  induction lines with
  | nil => rfl
  | cons l rest ih => rw [linesText_cons, heads_append_newline, ih, List.flatMap_cons]

theorem heads_linesText_append (a b : List String) :
    heads (linesText (a ++ b)) = heads (linesText a) ++ heads (linesText b) := by
  rw [heads_linesText, heads_linesText, heads_linesText, List.flatMap_append]

theorem heads_of_row {cs : List Char} (h : '\n' ∉ cs) (hletter : startsWithLetter cs = true) :
    heads cs = [cs] := by
  rw [heads, splitOn_of_not_mem h, List.filter_singleton, hletter]
  rfl

/-- The first row of a hanging text is left out of account if it is not fresh. -/
theorem filter_rows_of_hangs {fresh : Bool} {cs : List Char} (h : hangs fresh cs = true) :
    ((if fresh then splitOn '\n' cs else (splitOn '\n' cs).tail).filter startsWithLetter) = [] := by
  induction cs generalizing fresh with
  | nil => cases fresh <;> rfl
  | cons c rest ih =>
    rw [hangs, Bool.and_eq_true] at h
    have hrest := ih h.2
    rw [splitOn]
    by_cases hc : c = '\n'
    · rw [if_pos hc]
      rw [hc] at hrest
      cases fresh with
      | false => exact hrest
      | true =>
        rw [if_pos rfl, List.filter_cons_of_neg (by decide)]
        exact hrest
    · rw [if_neg hc]
      rw [beq_eq_false_iff_ne.mpr hc] at hrest
      cases hs : splitOn '\n' rest with
      | nil => exact absurd hs (splitOn_ne_nil '\n' rest)
      | cons piece pieces =>
        rw [hs] at hrest
        cases fresh with
        | false => exact hrest
        | true =>
          rw [if_pos rfl, List.filter_cons_of_neg]
          · exact hrest
          · have hletter := h.1
            rw [Bool.true_and, Bool.not_eq_true'] at hletter
            simp [startsWithLetter, hletter]

theorem heads_of_hangs {cs : List Char} (h : hangs true cs = true) : heads cs = [] :=
  filter_rows_of_hangs h

end Rows
end Hcl
end Groundplan
