/-
What can stop the reading of a text.

Nearly every fault of a text has a place in it, and the place is all that there is to it.
The exception is an integer that is too long.  A reader is given a part of the text and
leaves a part of that, so whatever it stops at stands in the whole text: readers of which
this can be said are closed under sequencing.
-/
import Groundplan.Json.Reader
import Groundplan.Proofs.Result
import Mathlib.Data.List.TakeWhile

namespace Groundplan
namespace Json

/-- More digits stand in one place than are converted. -/
def HasLongRun (cs : List Char) : Prop :=
  ∃ run, run <:+: cs ∧ (∀ c ∈ run, Number.isDigit c = true) ∧ Number.maxDigits < run.length

/-- What is read from `cs` leaves an end of it, and stops for digits only where they stand. -/
structure Keeps {α : Type} (cs : List Char) (x : Except Stop (α × List Char)) : Prop where
  left : ∀ p, x = .ok p → p.2 <:+ cs
  digits : ∀ count, x = .error (.digits count) → HasLongRun cs

theorem HasLongRun.of_suffix {cs cs' : List Char} (h : HasLongRun cs') (hsuffix : cs' <:+ cs) :
    HasLongRun cs := by
  obtain ⟨run, hrun, hdigits, hlong⟩ := h
  exact ⟨run, hrun.trans hsuffix.isInfix, hdigits, hlong⟩

section

variable {α β : Type} {cs : List Char}

theorem keeps_ok {a : α} {left : List Char} (h : left <:+ cs) : Keeps cs (.ok (a, left)) where
  left := by
    intro p hp
    cases hp
    exact h
  digits := nofun

theorem Keeps.of_suffix {cs' : List Char} {x : Except Stop (α × List Char)} (h : Keeps cs' x)
    (hsuffix : cs' <:+ cs) : Keeps cs x where
  left := fun p hp => (h.left p hp).trans hsuffix
  digits := fun count hcount => (h.digits count hcount).of_suffix hsuffix

theorem Keeps.bind {x : Except Stop (α × List Char)} {g : α × List Char → Except Stop (β × List Char)}
    (hx : Keeps cs x) (hg : ∀ a left, left <:+ cs → Keeps left (g (a, left))) :
    Keeps cs (x >>= g) := by
  cases x with
  | error stop =>
    refine ⟨nofun, fun count h => hx.digits count ?_⟩
    cases h
    rfl
  | ok p =>
    have hleft := hx.left p rfl
    exact (hg p.1 p.2 hleft).of_suffix hleft

/-- What is read further on is put behind what was read before. -/
theorem Keeps.map {cs' : List Char} {x : Except Stop (α × List Char)} (h : Keeps cs' x)
    (hsuffix : cs' <:+ cs) (f : α → β) : Keeps cs (x >>= fun p => .ok (f p.1, p.2)) :=
  (h.of_suffix hsuffix).bind fun _ _ _ => keeps_ok List.suffix_rfl

end

end Json
end Groundplan
