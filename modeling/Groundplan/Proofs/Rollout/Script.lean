/-
Scripts: the order in which a rollout goes through its commands and questions.

Both kinds of rollout are a straight line that is left at the first thing that does not
go well.  A script is that line, written down as data, and `Follows` says which
transcripts keep to it and how they end.  What has been decided is a verdict, the result
of an action that gives `true` when it is to go on and `false` when that is declined.

`Follows.locate` is what the rest is drawn from: whatever happens in a transcript happens
at some step of the script, all steps before it have passed, and nothing comes later
unless this step passes too.
-/
import Groundplan.Proofs.Rollout.Transcript
import Groundplan.Rollout.Lifecycle

namespace Groundplan
namespace Rollout

variable {T S α β : Type}

/-- The exit code that a failure is taken for. -/
def Failure.exitCode? : Failure → Option Int
  | .exited _ code => some code
  | _ => none

/-- How a stretch of a rollout ends: with consent, without it, or early. -/
abbrev Verdict := Except Failure Bool

theorem refused_ne : (Except.ok false : Verdict) ≠ .ok true := by
  intro h
  cases h

/-- A command that has to succeed. -/
def Response.verdict (c : Command) : Response → Verdict
  | .missing => .error (.noTool (c.headD "") none)
  | .exited code _ _ => if code = 0 then .ok true else .error (.exited c code)

/-- A command that reads the state or is one of the cloud's command line. -/
def IsDrainCommand (c : Command) : Prop :=
  (∃ args, c = "terraform" :: "state" :: args) ∨ ∃ args, c = "aws" :: args

/-- A question that asks for the deletion of a service. -/
def IsDrainQuestion (text : String) : Prop :=
  ∃ service, text = "Attempt to delete service " ++ service ++ " manually?"

/-- Contact while services are drained. -/
def Exchange.IsDraining : Exchange T → Prop
  | .command _ c _ => IsDrainCommand c
  | .question text _ => IsDrainQuestion text
  | .clock _ | .pause _ => True

/-- A command has ended with a code. -/
def Exchange.Exited (c : Command) (code : Int) (e : Exchange T) : Prop :=
  ∃ mode out err, e = .command mode c (.exited code out err)

def selectCommand (name : String) : Command := ["terraform", "workspace", "select", name]

def createCommand (name : String) : Command := ["terraform", "workspace", "new", name]

inductive Step
  /-- Nobody is asked.  What is found may be a reason to give up. -/
  | look
  /-- A command of the provisioning tool that must succeed. -/
  | require (mode : Mode) (args : List String)
  /-- A command of the provisioning tool that may fail. -/
  | attempt (mode : Mode) (args : List String)
  /-- A workspace is selected, and made if that fails. -/
  | select (name : String)
  | drain
  /-- A question that is to be answered with yes. -/
  | consent (question : String)

abbrev Script := List Step

namespace Step

/-- What a step may come to. -/
def Takes (step : Step) (t : Transcript T) (v : Verdict) : Prop :=
  match step with
  | .look => t = [] ∧ (v = .ok true ∨ ∃ f, v = .error f ∧ f.exitCode? = none)
  | .require mode args => ∃ response, t = [.command mode ("terraform" :: args) response] ∧
      v = response.verdict ("terraform" :: args)
  | .attempt mode args => ∃ response, t = [.command mode ("terraform" :: args) response] ∧
      v = (response.output mode ("terraform" :: args)).map fun _ => true
  | .select name =>
    (∃ response, t = [.command .capture (selectCommand name) response] ∧
      v = response.verdict (selectCommand name) ∧
      ∀ code, v ≠ .error (.exited (selectCommand name) code)) ∨
    ∃ code out err response, code ≠ 0 ∧
      t = [.command .capture (selectCommand name) (.exited code out err),
        .command .stream (createCommand name) response] ∧
      v = response.verdict (createCommand name)
  | .drain => (∀ e ∈ t, e.IsDraining) ∧ (v = .ok true ∨ ∃ f, v = .error f ∧ f.exitCode? = none)
  | .consent question => ∃ reply, t = [.question question reply] ∧ v = reply.result

/-- The commands that a step may run. -/
def Spells (step : Step) (cs : List Command) : Prop :=
  match step with
  | .look | .consent _ => cs = []
  | .require _ args | .attempt _ args => cs = ["terraform" :: args]
  | .select name => cs = [selectCommand name] ∨ cs = [selectCommand name, createCommand name]
  | .drain => ∀ c ∈ cs, IsDrainCommand c

/-- Whether a command may be one of a step. -/
def MayRun (step : Step) (c : Command) : Prop :=
  match step with
  | .look | .consent _ => False
  | .require _ args | .attempt _ args => c = "terraform" :: args
  | .select name => c = selectCommand name ∨ c = createCommand name
  | .drain => IsDrainCommand c

/-- Whether a command of a step may fail without an end to the script. -/
def Tolerates (step : Step) (c : Command) : Prop :=
  match step with
  | .look | .consent _ | .require _ _ => False
  | .attempt _ args => c = "terraform" :: args
  | .select name => c = selectCommand name
  | .drain => IsDrainCommand c

end Step

/-- A transcript keeps to a script up to a verdict. -/
inductive Follows : Script → Transcript T → Verdict → Prop
  | done : Follows [] [] (.ok true)
  | stop {step : Step} {rest : Script} {t : Transcript T} {v : Verdict} :
      step.Takes t v → v ≠ .ok true → Follows (step :: rest) t v
  | next {step : Step} {rest : Script} {t u : Transcript T} {v : Verdict} :
      step.Takes t (.ok true) → Follows rest u v → Follows (step :: rest) (t ++ u) v

namespace Follows

/-! ## Scripts in sequence -/

theorem of_takes {step : Step} {t : Transcript T} {v : Verdict} (h : step.Takes t v) :
    Follows [step] t v := by
  by_cases hv : v = .ok true
  · subst hv
    have hnext := next h (T := T) done
    rw [List.append_nil] at hnext
    exact hnext
  · exact stop h hv

theorem append {A B : Script} {t u : Transcript T} {v : Verdict} (hA : Follows A t (.ok true))
    (hB : Follows B u v) : Follows (A ++ B) (t ++ u) v := by
  induction A generalizing t with
  | nil =>
    cases hA
    exact hB
  | cons step A ih =>
    cases hA with
    | stop _ hv => exact absurd rfl hv
    | next hstep hrest =>
      rw [List.append_assoc]
      exact next hstep (ih hrest)

/-- What stops in the first part stops in both. -/
theorem append_of_ne {A : Script} (B : Script) {t : Transcript T} {v : Verdict}
    (hA : Follows A t v) (hv : v ≠ .ok true) : Follows (A ++ B) t v := by
  induction hA with
  | done => exact absurd rfl hv
  | stop hstep hne => exact stop hstep hne
  | next hstep _ ih => exact next hstep (ih hv)

/-- Whatever happens, happens at some step.  The steps before it have passed, and what
comes later belongs to the steps behind it. -/
theorem locate {script : Script} {t a b : Transcript T} {e : Exchange T} {v : Verdict}
    (h : Follows script t v) (ht : t = a ++ e :: b) :
    ∃ A step B a₁ a₂ b₁ b₂ w, script = A ++ step :: B ∧ a = a₁ ++ a₂ ∧ b = b₁ ++ b₂ ∧
      Follows A a₁ (.ok true) ∧ step.Takes (a₂ ++ e :: b₁) w ∧
      (w ≠ .ok true ∧ b₂ = [] ∧ v = w ∨ w = .ok true ∧ Follows B b₂ v) := by
  induction h generalizing a b with
  | done => cases a <;> cases ht
  | stop hstep hv =>
    rename_i step rest t v
    subst ht
    exact ⟨[], step, rest, [], a, b, [], v, rfl, rfl, (List.append_nil b).symm, done, hstep,
      .inl ⟨hv, rfl, rfl⟩⟩
  | next hstep hrest ih =>
    rename_i step rest t u v
    rcases List.append_eq_append_iff.mp ht with ⟨m, hm, hu⟩ | ⟨m, hm, hu⟩
    · -- It happens behind the first step.
      obtain ⟨A, step', B, a₁, a₂, b₁, b₂, w, hscript, ha, hb, hA, htakes, hend⟩ := ih hu
      refine ⟨step :: A, step', B, t ++ a₁, a₂, b₁, b₂, w, ?_, ?_, hb, next hstep hA, htakes, hend⟩
      · rw [hscript]
        rfl
      · rw [hm, ha, List.append_assoc]
    · cases m with
      | nil =>
        rw [List.append_nil] at hm
        obtain ⟨A, step', B, a₁, a₂, b₁, b₂, w, hscript, ha, hb, hA, htakes, hend⟩ :=
          ih (a := []) hu.symm
        obtain ⟨rfl, rfl⟩ := List.nil_eq_append_iff.mp ha
        refine ⟨step :: A, step', B, t, [], b₁, b₂, w, ?_, ?_, hb, ?_, htakes, hend⟩
        · rw [hscript]
          rfl
        · rw [← hm, List.append_nil]
        · have hnext := next hstep hA
          rw [List.append_nil] at hnext
          exact hnext
      | cons e' m =>
        cases hu
        subst hm
        exact ⟨[], step, rest, [], a, m, u, .ok true, rfl, rfl, rfl, done, hstep,
          .inr ⟨rfl, hrest⟩⟩

/-- A script that has passed has passed in both of its parts. -/
theorem of_append {A B : Script} {t : Transcript T} (h : Follows (A ++ B) t (.ok true)) :
    ∃ t₁ t₂, t = t₁ ++ t₂ ∧ Follows A t₁ (.ok true) ∧ Follows B t₂ (.ok true) := by
  induction A generalizing t with
  | nil => exact ⟨[], t, rfl, done, h⟩
  | cons step A ih =>
    cases h with
    | stop _ hv => exact absurd rfl hv
    | next hstep hrest =>
      rename_i u w
      obtain ⟨t₁, t₂, rfl, hA, hB⟩ := ih hrest
      exact ⟨u ++ t₁, t₂, (List.append_assoc _ _ _).symm, next hstep hA, hB⟩

theorem takes {step : Step} {t : Transcript T} (h : Follows [step] t (.ok true)) :
    step.Takes t (.ok true) := by
  cases h with
  | stop _ hv => exact absurd rfl hv
  | next hstep hrest =>
    cases hrest
    rw [List.append_nil]
    exact hstep

/-- A script that has passed has passed at each of its steps. -/
theorem takes_of_mem {script : Script} {t : Transcript T} (h : Follows script t (.ok true))
    {step : Step} (hstep : step ∈ script) : ∃ a u b, t = a ++ u ++ b ∧ step.Takes u (.ok true) := by
  induction script generalizing t with
  | nil => cases hstep
  | cons first rest ih =>
    cases h with
    | stop _ hv => exact absurd rfl hv
    | next hfirst hrest =>
      rename_i u w
      rcases List.mem_cons.mp hstep with rfl | hstep
      · exact ⟨[], u, w, rfl, hfirst⟩
      · obtain ⟨a, u', b, hw, htakes⟩ := ih hrest hstep
        refine ⟨u ++ a, u', b, ?_, htakes⟩
        rw [hw, List.append_assoc, List.append_assoc, List.append_assoc]

end Follows

end Rollout
end Groundplan
