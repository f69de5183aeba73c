/-
A preview and the generation that it stands for.

The two commands settle their arguments and read the specification each on their own, and a
generation has more to settle: where to write, and a line that it shows first.  Whenever it
comes to read a specification, though, both have the same one and the same options, and both
read it before they change anything.  So they compile the same, and what the preview prints
is known to be what was written because it can be read back.

A text with half of a surrogate pair is where the two part.  As JSON it can be shown, on a
console it cannot, and a generation notices it only when it comes to the file: it fails like
the preview, but the files in front of that one have been written by then.
-/
import Groundplan.Command.Run
import Groundplan.Proofs.Datum.Entries
import Groundplan.Proofs.Json.RoundTrip
import Groundplan.Proofs.Project.Encoding
import Groundplan.Proofs.Project.Fresh
import Groundplan.Proofs.Project.Spellings

namespace Groundplan
namespace Command

open Storage

/-- Ends well and shows one JSON object, whose members are the files with their texts in
order. -/
def Shows (o : Outcome) (files : List (String × String)) : Prop :=
  o.exit = 0 ∧ ∃ text, o.out = [.text text] ∧
    Json.parse text = .ok (.mapping (files.map fun f => (.text f.1, .text f.2)))

theorem exit_fail (flags : Flags) (disk : Disk) (records : List LogRecord) (fault : Fault) :
    (fail flags disk records fault).exit = 1 := by
  rw [fail]
  split <;> rfl

theorem disk_fail (flags : Flags) (disk : Disk) (records : List LogRecord) (fault : Fault) :
    (fail flags disk records fault).disk = disk := by
  rw [fail]
  split <;> rfl

/-! ## Printing -/

section

variable {S : Type} {host : Host S} {a : GenerateArguments} {path root : Path}
  {options : Project.Options} {spec : Spec} {p : Project}

/-- Where no text stops it, a generation does what the project's does. -/
theorem disk_generate (h : generatePlan host.disk host.environment a = .ok (path, root, options))
    (hnone : stopOf? host path options = none) (flags : Flags) : (generate host flags a).disk =
      (Project.generate host.library host.disk path root options).disk := by
  rw [generate, h]
  dsimp only
  rw [hnone]
  dsimp only
  split
  · exact disk_fail ..
  · split
    · rfl
    · split
      · exact disk_fail ..
      · rfl

theorem exit_generate_of_error
    (h : generatePlan host.disk host.environment a = .ok (path, root, options))
    (hnone : stopOf? host path options = none) {fault : Project.GenerateFault}
    (hfault : (Project.generate host.library host.disk path root options).result = .error fault)
    (flags : Flags) : (generate host flags a).exit = 1 := by
  rw [generate, h]
  dsimp only
  rw [hnone]
  dsimp only
  rw [hfault]
  exact exit_fail ..

variable (host a) in
/-- The project that the commands come to, and what it was compiled from. -/
structure Compiles (path root : Path) (options : Project.Options) (spec : Spec) (p : Project) :
    Prop where
  settled : generatePlan host.disk host.environment a = .ok (path, root, options)
  read : Spec.ofFile host.disk path = .ok spec
  compiled : (Project.compile host.library spec options).result = .ok p

theorem Compiles.areApart (h : Compiles host a path root options spec p) :
    Project.AreApart p.files := by
  obtain ⟨s, hs⟩ := Project.compiled_of_compile h.compiled
  exact Project.areApart_of_compiled (Spec.IsLoaded.file h.read).named hs

theorem Compiles.stopOf?_eq (h : Compiles host a path root options spec p) :
    stopOf? host path options = (Project.stop? host.halves p.files).map
      fun s => ((Project.compile host.library spec options).records, s) := by
  rw [stopOf?, h.read]
  dsimp only
  rw [h.compiled]

/-- What is left by a generation that comes to a text which cannot be encoded. -/
theorem Compiles.ended (h : Compiles host a path root options spec p) {s : Project.Stop}
    (hs : Project.stop? host.halves p.files = some s) (flags : Flags) :
    (generate host flags a).exit = 1 ∧
      (generate host flags a).disk = (Project.writeFiles host.disk root s.opened).disk := by
  have hstop := h.stopOf?_eq
  rw [hs] at hstop
  rw [generate, h.settled]
  dsimp only
  rw [hstop]
  exact ⟨exit_fail .., disk_fail ..⟩

/-- A generation that comes to its end has written the files of the project. -/
theorem Compiles.isWritten (h : Compiles host a path root options spec p) {flags : Flags}
    (hexit : (generate host flags a).exit = 0) :
    Project.IsWritten root p.files host.disk (generate host flags a).disk := by
  have hstop : Project.stop? host.halves p.files = none := by
    refine Option.eq_none_iff_forall_ne_some.mpr fun s hs => ?_
    exact absurd ((h.ended hs flags).1.symm.trans hexit) (by decide)
  have hnone := h.stopOf?_eq
  rw [hstop] at hnone
  obtain ⟨hdisk, hresult⟩ := Project.generate_of_compiled h.read h.compiled root
  rw [disk_generate h.settled hnone, hdisk]
  cases hw : (Project.write host.disk root p).result with
  | error e =>
    rw [hw] at hresult
    have hone := (exit_generate_of_error h.settled hnone hresult flags).symm.trans hexit
    cases hone
  | ok paths =>
    have horder := Project.writesInOrder_of_compile (.file h.read) h.compiled root host.disk
    exact (horder.succeeded paths hw).2

end

end Command
end Groundplan
