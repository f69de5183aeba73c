/-
The characters of written numbers.

Numbers stand in generated files without quotes, so what matters about their texts is
which characters can occur in them: digits, signs, the point, the mark of an exponent
and the letters of the two words for values without digits.
-/
import Groundplan.Number.Shortest
import Groundplan.Text.Identifier
import Mathlib.Data.List.Basic

namespace Groundplan
namespace Number

/-- A character that can occur in a written number. -/
def isNumeral (c : Char) : Bool :=
  Text.isAsciiDigit c || ['-', '+', '.', 'e', 'i', 'n', 'f', 'a'].contains c

/-- All characters of a text are of written numbers. -/
def IsNumeral (cs : List Char) : Prop := ∀ c ∈ cs, isNumeral c = true

instance (cs : List Char) : Decidable (IsNumeral cs) :=
  decidable_of_iff (cs.all isNumeral = true) List.all_eq_true

theorem IsNumeral.append {a b : List Char} (ha : IsNumeral a) (hb : IsNumeral b) :
    IsNumeral (a ++ b) := by
  intro c hc
  rcases List.mem_append.mp hc with h | h
  · exact ha c h
  · exact hb c h

theorem IsNumeral.cons {c : Char} {cs : List Char} (hc : isNumeral c = true)
    (h : IsNumeral cs) : IsNumeral (c :: cs) :=
  List.forall_mem_cons.mpr ⟨hc, h⟩

theorem IsNumeral.of_subset {a b : List Char} (h : IsNumeral b) (hab : a ⊆ b) : IsNumeral a :=
  fun c hc => h c (hab hc)

theorem isNumeral_toDigits (n : Nat) : IsNumeral (Nat.toDigits 10 n) := by
  intro c hc
  have hd : c.isDigit = true := Nat.isDigit_of_mem_toDigits (by decide) (by decide) hc
  simp only [Char.isDigit, Bool.and_eq_true, decide_eq_true_eq] at hd
  simp only [isNumeral, Text.isAsciiDigit, Bool.or_eq_true, Bool.and_eq_true, decide_eq_true_eq]
  exact Or.inl hd

theorem isNumeral_repr (n : Nat) : IsNumeral (Nat.repr n).toList := by
  rw [Nat.repr, String.toList_ofList]
  exact isNumeral_toDigits n

theorem isNumeral_toString (n : Int) : IsNumeral (toString n).toList := by
  cases n with
  | ofNat n => exact isNumeral_repr n
  | negSucc n =>
    rw [show (toString (Int.negSucc n)) = "-" ++ Nat.repr (n + 1) from rfl, String.toList_append]
    exact IsNumeral.append (by decide) (isNumeral_repr (n + 1))

/-! ## Floats -/

open Binary64

theorem isNumeral_zeros (n : Nat) : IsNumeral (zeros n) := by
  intro c hc
  rw [List.eq_of_mem_replicate hc]
  decide

theorem isNumeral_padLeft {cs : List Char} (n : Nat) (h : IsNumeral cs) :
    IsNumeral (padLeft n cs) :=
  (isNumeral_zeros _).append h

theorem isNumeral_dropTrailingZeros {cs : List Char} (h : IsNumeral cs) :
    IsNumeral (dropTrailingZeros cs) := by
  rw [dropTrailingZeros]
  split
  · decide
  · refine h.of_subset fun c hc => ?_
    exact List.mem_reverse.mp ((List.dropWhile_sublist _).subset (List.mem_reverse.mp hc))

theorem isNumeral_positional {cs : List Char} (lead : Int) (h : IsNumeral cs) :
    IsNumeral (positional cs lead) := by
  rw [positional]
  split
  · exact .cons (by decide) (.cons (by decide) ((isNumeral_zeros _).append h))
  · dsimp only
    split
    · exact (h.append (isNumeral_zeros _)).append (by decide)
    · exact (h.of_subset (List.take_subset _ _)).append
        (.cons (by decide) (h.of_subset (List.drop_subset _ _)))

theorem isNumeral_scientific {layout : Layout} {cs : List Char} (lead : Int) (h : IsNumeral cs) :
    IsNumeral (scientific layout cs lead) := by
  rw [scientific.eq_def]
  refine IsNumeral.append ?_ (.cons (by decide) (.cons ?_ ?_))
  · rcases cs with _ | ⟨d, _ | ⟨e, ds⟩⟩
    · decide
    · exact h
    · exact .cons (h d List.mem_cons_self)
        (.cons (by decide) fun c hc => h c (List.mem_cons_of_mem d hc))
  · split <;> decide
  · exact isNumeral_padLeft _ (isNumeral_toDigits _)

/-- The written form of a float is that of a number, whatever the float. -/
theorem isNumeral_toText (x : Binary64) : IsNumeral x.toText.toList := by
  have hsign : ∀ s : Bool, IsNumeral (if s then "-" else "").toList := by decide
  rw [toText, format.eq_def]
  split
  · decide
  · rw [String.toList_append]
    exact (hsign _).append (by decide)
  · rw [String.toList_append, String.toList_ofList]
    refine (hsign _).append ?_
    split
    · exact isNumeral_positional 0 (by decide)
    · dsimp only
      split
      · exact isNumeral_positional _ (isNumeral_dropTrailingZeros (isNumeral_toDigits _))
      · exact isNumeral_scientific _ (isNumeral_dropTrailingZeros (isNumeral_toDigits _))

end Number
end Groundplan
