/-
No value of a specification leaves its place in the generated files.

The renderer keeps everything in its place but what is written raw.  Fixed text is
checked once; the provider and the names of workloads are why both are checked before
anything is rendered.
-/
import Groundplan.Proofs.Project.Raw
import Groundplan.Proofs.Spec.Source

namespace Groundplan
namespace Project

open Hcl Hcl.Scan

theorem composes_contained : Composes Contained where
  append := contained_append
  brackets := contained_brackets
  inert := fun h => contained_of_plain fun c hc =>
    (Bool.and_eq_true_iff.mp (List.all_eq_true.mp h c hc)).1
  literal := contained_quote
  template := contained_quoteTemplate
  comment := fun h => contained_comment h.newline_not_mem

theorem contained_of_compiled {spec : Spec} {options : Options} {s : Network.Subnets} {p : Project}
    (accepted : spec.Accepted) (h : IsCompiled .builtIn spec options s p) :
    ∀ f ∈ p.files, Contained f.2.toList :=
  h.forall_files composes_contained (fun _ h => h.1) accepted.names (brings_of_accepted accepted)

/-- Every generated file is contained: strings, comments and brackets end where the
renderer ends them, whatever the specification holds. -/
theorem contained_of_compile {spec : Spec} {options : Options} {p : Project}
    (accepted : spec.Accepted) (h : (compile .builtIn spec options).result = .ok p) :
    ∀ f ∈ p.files, Contained f.2.toList := by
  obtain ⟨s, hs⟩ := compiled_of_builtIn h
  exact contained_of_compiled accepted hs

theorem contained_of_compile_hostile :
    ∃ p, hostile.Accepted ∧ (compile .builtIn hostile {}).result = .ok p ∧
      ∀ f ∈ p.files, Contained f.2.toList := by
  obtain ⟨p, hp⟩ := exists_compiled_hostile
  exact ⟨p, hostile_accepted, hp, contained_of_compile hostile_accepted hp⟩

/-- Whatever text or file a specification was read from, the files generated from it are
contained. -/
theorem contained_of_isRead {spec : Spec} {options : Options} {p : Project} (read : spec.IsRead)
    (h : (compile .builtIn spec options).result = .ok p) : ∀ f ∈ p.files, Contained f.2.toList := by
  obtain ⟨s, hs⟩ := compiled_of_builtIn h
  exact contained_of_compiled read.accepted hs

end Project
end Groundplan
