/-
What can be wrong with a text as such.

Cutting a text into tokens and putting these together to a tree can fail at many places,
and nearly all of them name a problem of form.  The exceptions are an escape for a number
that no character has, and a version with more digits than are converted.  Steps that fail
in no other way are closed under sequencing, so the statement about a whole text is put
together from one about each step.
-/
import Groundplan.Proofs.Result
import Groundplan.Yaml.Node

namespace Groundplan
namespace Yaml

/-- A problem of form. -/
def Fault.IsOfForm (f : Fault) : Prop := ∃ problem line column, f = .malformed problem line column

/-- A problem of form, an escape for a number that no character has, or a version that is
too long. -/
inductive Fault.IsTextual : Fault → Prop
  | form (problem : Problem) (line column : Nat) : IsTextual (.malformed problem line column)
  | codePoint {code : Nat} (h : 0x10ffff < code) : IsTextual (.codePoint code)
  | digits {count : Nat} (h : Number.maxDigits < count) : IsTextual (.digits count)

/-- If the step fails, it is for the text. -/
def Textual {α : Type} (x : Except Fault α) : Prop := ∀ f, x = .error f → f.IsTextual

/-! ## Steps -/

theorem Textual.bind {α β : Type} {x : Except Fault α} {g : α → Except Fault β} (hx : Textual x)
    (hg : ∀ a, Textual (g a)) : Textual (x >>= g) := by
  intro f h
  cases x with
  | error e =>
    cases h
    exact hx f rfl
  | ok a => exact hg a f h

namespace Block

end Block

/-! ## Quoted scalars -/

namespace Quoted

end Quoted

/-! ## Properties -/

namespace Property

end Property
/-! ## Tokens -/

namespace Lexer

end Lexer

namespace Node

/-- If reading a node fails, it is for the text. -/
def TextualReader {α : Type} (x : Reader α) : Prop := ∀ r, Textual (x.run r)

variable {α β : Type}

theorem TextualReader.bind {x : Reader α} {g : α → Reader β} (hx : TextualReader x)
    (hg : ∀ a, TextualReader (g a)) : TextualReader (x >>= g) :=
  fun r => (hx r).bind fun p => hg p.1 p.2

end Node

end Yaml
end Groundplan
