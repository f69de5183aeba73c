/-
What draining services may do.

The drain is the part of a rollout that is no straight line: it loops over clusters,
services and polls, and what it does depends on every answer.  For the rest of a rollout
only its limits matter.  It runs no commands but its own, asks no questions but its own,
leaves the disk alone, and never fails with an exit code.
-/
import Groundplan.Proofs.Rollout.Preparation
import Groundplan.Rollout.Drain

namespace Groundplan
namespace Rollout

variable {T S α β : Type}

/-- An action that does nothing but what draining may do. -/
def Drains (s : Setup T S) (x : Action T S α) : Prop :=
  Keeps s x fun d t res d' =>
    d' = d ∧ (∀ e ∈ t, e.IsDraining) ∧ ∀ f, res = .error f → f.exitCode? = none

namespace Drains

variable {s : Setup T S}

theorem pure (a : α) : Drains s (Pure.pure a) :=
  Keeps.pure fun _ => ⟨rfl, fun _ he => absurd he List.not_mem_nil, fun _ h => by cases h⟩

theorem throw {f : Failure} (hf : f.exitCode? = none) :
    Drains s (MonadExcept.throw f : Action T S α) := by
  refine Keeps.throw fun d => ⟨rfl, fun _ he => absurd he List.not_mem_nil, fun f' h => ?_⟩
  cases h
  exact hf

theorem bind {x : Action T S α} {f : α → Action T S β} (hx : Drains s x)
    (hf : ∀ a, Drains s (f a)) : Drains s (x >>= f) := by
  refine Keeps.bind hx hf ?_ ?_
  · intro d t e d' hfailed
    obtain ⟨hd, ht, hfail⟩ := hfailed
    refine ⟨hd, ht, fun f h => hfail f ?_⟩
    cases h
    rfl
  · intro d t a d₁ u res d' hfirst hsecond
    obtain ⟨rfl, ht, -⟩ := hfirst
    obtain ⟨hd, hu, hfail⟩ := hsecond
    refine ⟨hd, fun e he => ?_, hfail⟩
    rcases List.mem_append.mp he with he | he
    · exact ht e he
    · exact hu e he

theorem of_silent {x : Action T S α} (hx : IsSilent s x) : Drains s x := by
  refine hx.mono ?_
  intro d t res d' hkept
  obtain ⟨rfl, hd, a, rfl⟩ := hkept
  exact ⟨hd, fun _ he => absurd he List.not_mem_nil, fun _ h => by cases h⟩

theorem ite {p : Prop} [Decidable p] {x y : Action T S α} (hx : Drains s x) (hy : Drains s y) :
    Drains s (if p then x else y) := by
  split
  · exact hx
  · exact hy

/-! ## Contact -/

theorem run (mode : Mode) {c : Command} (hc : IsDrainCommand c) : Drains s (s.run mode c) := by
  refine (Keeps.run s mode c).mono ?_
  intro d t res d' hkept
  obtain ⟨response, rfl, rfl, hd⟩ := hkept
  refine ⟨hd, fun e he => ?_, fun f hf => ?_⟩
  · rw [List.mem_singleton.mp he]
    exact hc
  · cases response with
    | missing =>
      cases hf
      rfl
    | exited code out err => cases mode <;> cases hf

theorem state (args : List String) : Drains s (s.terraform .capture ("state" :: args)) :=
  run .capture (.inl ⟨args, rfl⟩)

theorem aws (args : List String) : Drains s (s.aws args) := run .capture (.inr ⟨_, rfl⟩)

theorem confirm {question : String} (hq : IsDrainQuestion question) :
    Drains s (s.confirm question) := by
  refine (Keeps.confirm s question).mono ?_
  intro d t res d' hkept
  obtain ⟨reply, rfl, rfl, hd⟩ := hkept
  refine ⟨hd, fun e he => ?_, fun f hf => ?_⟩
  · rw [List.mem_singleton.mp he]
    exact hq
  · rw [Reply.result] at hf
    split at hf
    · cases hf
    · cases hf
      rfl

theorem now : Drains s s.now := by
  refine (Keeps.now s).mono ?_
  intro d t res d' hkept
  obtain ⟨reading, rfl, rfl, hd⟩ := hkept
  refine ⟨hd, fun e he => ?_, fun f hf => by cases hf⟩
  rw [List.mem_singleton.mp he]
  trivial

theorem wait (span : T) : Drains s (s.wait span) := by
  refine (Keeps.wait s span).mono ?_
  intro d t res d' hkept
  obtain ⟨rfl, rfl, hd⟩ := hkept
  refine ⟨hd, fun e he => ?_, fun f hf => by cases hf⟩
  rw [List.mem_singleton.mp he]
  trivial

theorem ofAnswer (x : Except AnswerFault α) : Drains s (ofAnswer x) := by
  cases x with
  | ok a => exact pure a
  | error e => exact throw rfl

/-! ## Services -/

theorem isDrained (o : Output) : Drains s (Setup.isDrained o) :=
  ite (bind (ofAnswer _) fun _ => pure _) (pure _)

theorem warnOnFailure (o : Output) : Drains s (Setup.warnOnFailure o) :=
  ite (pure ()) (of_silent (.warn _))

theorem mayDelete (service : String) : Drains s (s.mayDelete service) := by
  refine ite (bind (of_silent (.info _)) fun _ => pure _) ?_
  refine bind (confirm ⟨service, rfl⟩) fun consent => ite ?_ (pure _)
  exact bind (of_silent (.info _)) fun _ => pure _

theorem clusterName (address : String) : Drains s (s.clusterName address) :=
  bind (state ["show", "-no-color", address]) fun _ => pure _

theorem listServices (cluster : String) : Drains s (s.listServices cluster) := by
  refine bind (aws _) fun o => ite ?_ ?_
  · refine bind (ofAnswer _) fun ids => ?_
    cases ids with
    | some ids => exact pure ids
    | none => exact bind (of_silent (.log _)) fun _ => pure _
  · exact bind (of_silent (.log _)) fun _ => pure _

variable [Timescale T]

theorem poll (cluster service : String) (deadline : T) (n : Nat) :
    Drains s (s.poll cluster service deadline n) := by
  induction n with
  | zero => exact throw rfl
  | succ n ih =>
    refine bind (aws _) fun answer => bind (isDrained answer) fun rests => ite (pure _) ?_
    refine bind now fun reading => ite (pure _) ?_
    exact bind (wait _) fun _ => ih

theorem waitForDrain (cluster service : String) : Drains s (s.waitForDrain cluster service) :=
  bind now fun _ => poll cluster service _ _

theorem drainService (cluster service : String) : Drains s (s.drainService cluster service) := by
  refine bind (of_silent (.info _)) fun _ => bind (aws _) fun _ => bind (warnOnFailure _) fun _ => ?_
  refine bind (of_silent (.info _)) fun _ => bind (waitForDrain cluster service) fun rests => ?_
  have hdelete : Drains s (do
      if ← s.mayDelete service then
        Setup.warnOnFailure (← s.aws
          ["ecs", "delete-service", "--cluster", cluster, "--service", service, "--force"])) :=
    bind (mayDelete service) fun _ => ite (bind (aws _) fun _ => warnOnFailure _) (pure _)
  exact ite (bind (of_silent (.warn _)) fun _ => hdelete) hdelete

theorem drainServices (cluster : String) (ids : List Datum) :
    Drains s (s.drainServices cluster ids) := by
  induction ids with
  | nil => exact pure ()
  | cons id ids ih =>
    exact bind (ofAnswer _) fun service => bind (drainService cluster service) fun _ => ih

theorem drainCluster (address : String) : Drains s (s.drainCluster address) := by
  refine bind (clusterName address) fun name => ?_
  cases name with
  | none => exact pure ()
  | some cluster =>
    refine ite (pure ()) (bind (of_silent (.info _)) fun _ => ?_)
    refine bind (listServices cluster) fun services => ite (pure ()) ?_
    exact bind (of_silent (.info _)) fun _ => drainServices cluster services

theorem drainClusters (addresses : List String) : Drains s (s.drainClusters addresses) := by
  induction addresses with
  | nil => exact pure ()
  | cons address addresses ih => exact bind (drainCluster address) fun _ => ih

theorem drain : Drains s s.drain := by
  refine ite (bind (of_silent (.info _)) fun _ => ?_) (of_silent (.warn _))
  exact bind (state ["list"]) fun _ => ite (drainClusters _) (of_silent (.log _))

end Drains

theorem Carries.drain (s : Setup T S) [Timescale T] : Carries s s.drain always [.drain] := by
  refine .of_takes (Drains.drain.mono ?_)
  intro d t res d' hkept
  obtain ⟨hd, ht, hfail⟩ := hkept
  refine ⟨hd, ht, ?_⟩
  cases res with
  | ok a => exact .inl rfl
  | error f => exact .inr ⟨f, rfl, hfail f rfl⟩

end Rollout
end Groundplan
