/-
What a drain, and with it a destruction, is stopped by.

A drain goes on after every command that fails and after every answer that is no document.
What stops it is an answer of another shape, a command that is not there, or a question
that nobody answers.  Nothing else does, since its questions about a service come to an
end: the clock has gone on by an interval between one question and the next, so only so
many of them fit in before the deadline.
-/
import Groundplan.Proofs.Rollout.Destruction
import Groundplan.Proofs.Rollout.Drainage
import Mathlib.Algebra.Order.Archimedean.Basic

namespace Groundplan
namespace Rollout

variable {T S α β : Type}

/-! ## Time -/

/-- Clock readings that spans are added to without a loss. -/
class ExactTimescale (T : Type) [AddCommGroup T] [LinearOrder T] extends Timescale T where
  later_eq (start span : T) : later start span = start + span
  reached_iff (deadline now : T) : reached deadline now = true ↔ deadline ≤ now

/-- A clock that is never turned back, and goes on by a span whenever that is waited for. -/
structure Surroundings.Advances [AddCommGroup T] [LinearOrder T] (su : Surroundings T S)
    (clock : S → T) (span : T) : Prop where
  reading : ∀ o, (su.now o).1 = clock o
  now : ∀ o, clock o ≤ clock (su.now o).2
  respond : ∀ c o, clock o ≤ clock (su.respond c o).2
  pass : ∀ o, clock o + span ≤ clock (su.pass span o)

theorem Surroundings.Answers.of_append {su : Surroundings T S} {o o' : S} {t u : Transcript T}
    (h : su.Answers o (t ++ u) o') : ∃ o₁, su.Answers o t o₁ ∧ su.Answers o₁ u o' := by
  induction t generalizing o with
  | nil => exact ⟨o, rfl, h⟩
  | cons e t ih =>
    obtain ⟨o₁, ht, hu⟩ := ih h.2
    exact ⟨o₁, ⟨h.1, ht⟩, hu⟩

section Exact

variable [AddCommGroup T] [LinearOrder T] [IsOrderedAddMonoid T] [ExactTimescale T]
  {s : Setup T S} {clock : S → T}

namespace Setup

variable {cluster service : String} {deadline : T} {n : Nat} {t : Transcript T} {o o' : S}

/-- One question takes at least an interval and is asked before the deadline. -/
theorem IsStalled.round (hadvances : s.surroundings.Advances clock s.pollInterval)
    (h : s.IsStalled cluster service deadline (n + 1) t) (ht : s.surroundings.Answers o t o') :
    clock o < deadline ∧ ∃ o₁ u, s.IsStalled cluster service deadline n u ∧
      s.surroundings.Answers o₁ u o' ∧ clock o + s.pollInterval ≤ clock o₁ := by
  cases h with
  | @succ _ response reading u hlate hrest =>
    obtain ⟨-, hreading, -, hu⟩ := ht
    have hasked := hadvances.respond (describeCommand cluster service) o
    set asked := (s.surroundings.respond (describeCommand cluster service) o).2
    have hlooked := hadvances.now asked
    have hearly : clock asked < deadline := by
      have hclock : clock asked = reading := (hadvances.reading asked).symm.trans hreading
      rw [hclock, ← not_le, ← ExactTimescale.reached_iff, hlate]
      exact Bool.false_ne_true
    refine ⟨hasked.trans_lt hearly, _, u, hrest, hu, ?_⟩
    calc clock o + s.pollInterval
        ≤ clock (s.surroundings.now asked).2 + s.pollInterval := by
          gcongr
          exact hasked.trans hlooked
      _ ≤ _ := hadvances.pass _

/-- All intervals but the last go by before the last question, and even that is asked before
the deadline. -/
theorem IsStalled.lt_deadline (hadvances : s.surroundings.Advances clock s.pollInterval)
    (h : s.IsStalled cluster service deadline (n + 1) t) (ht : s.surroundings.Answers o t o') :
    clock o + n • s.pollInterval < deadline := by
  induction n generalizing o t with
  | zero =>
    rw [zero_nsmul, add_zero]
    exact (h.round hadvances ht).1
  | succ n ih =>
    obtain ⟨-, o₁, u, hrest, hu, hround⟩ := h.round hadvances ht
    calc clock o + (n + 1) • s.pollInterval
        = clock o + s.pollInterval + n • s.pollInterval := by rw [succ_nsmul', add_assoc]
      _ ≤ clock o₁ + n • s.pollInterval := by gcongr
      _ < deadline := ih hrest hu

/-- There are no more questions than intervals that the timeout takes. -/
theorem IsStalled.le (hadvances : s.surroundings.Advances clock s.pollInterval)
    (hpositive : 0 < s.pollInterval) {k : Nat} (htimeout : s.drainTimeout ≤ k • s.pollInterval)
    {start : T} (hstart : start ≤ clock o)
    (h : s.IsStalled cluster service (start + s.drainTimeout) n t)
    (ht : s.surroundings.Answers o t o') : n ≤ k := by
  by_contra hmore
  obtain ⟨m, rfl⟩ : ∃ m, n = m + 1 := ⟨n - 1, by omega⟩
  have hlast := h.lt_deadline hadvances ht
  -- By the last question the intervals before it have used up the timeout.
  have hlate : start + s.drainTimeout ≤ clock o + m • s.pollInterval := by
    have hk : k • s.pollInterval ≤ m • s.pollInterval :=
      nsmul_le_nsmul_left hpositive.le (by omega)
    exact add_le_add hstart (htimeout.trans hk)
  exact absurd hlast hlate.not_gt

omit [IsOrderedAddMonoid T] [ExactTimescale T] in
/-- The clock is not behind a reading that it has just given. -/
theorem le_clock_now (hadvances : s.surroundings.Advances clock s.pollInterval) {start : T}
    (hstart : (s.surroundings.now o).1 = start) : start ≤ clock (s.surroundings.now o).2 := by
  rw [← hstart, hadvances.reading o]
  exact hadvances.now o

/-- With a bound on the questions that the timeout does not allow, none goes on to the
bound. -/
theorem not_stalls (hadvances : s.surroundings.Advances clock s.pollInterval)
    (hpositive : 0 < s.pollInterval) {k : Nat} (htimeout : s.drainTimeout ≤ k • s.pollInterval)
    (hbound : k < s.maxPolls) (ht : s.surroundings.Answers o t o') : ¬s.Stalls t := by
  intro hstalls
  obtain ⟨before, cluster, service, start, polls, rfl, hpolls⟩ := hstalls
  obtain ⟨o₁, -, hstart, hrest⟩ := Surroundings.Answers.of_append ht
  rw [ExactTimescale.later_eq] at hpolls
  have hle := hpolls.le hadvances hpositive htimeout (le_clock_now hadvances hstart) hrest
  omega

end Setup

end Exact

/-! ## Destroying -/

namespace Setup

variable (s : Setup T S)

/-- How far a destruction comes, given what stops a drain. -/
inductive ReachesPlan (stops : Transcript T → Prop) : Transcript T → Except Failure Int → Prop
  /-- It ends before anything is drained. -/
  | unprepared {t : Transcript T} {v : Verdict} {res : Except Failure Int} :
      Follows ([.look] ++ s.preparation) t v → v ≠ .ok true → ReachesPlan stops t res
  /-- The drain comes to an end, and the next thing is the plan. -/
  | planned {prepared drained rest : Transcript T} {response : Response}
      {res : Except Failure Int} : Follows ([.look] ++ s.preparation) prepared (.ok true) →
      (∀ e ∈ drained, e.IsSound) →
      ReachesPlan stops
        (prepared ++ (drained ++ .command .stream planDestroyCommand response :: rest)) res
  /-- The drain is stopped, which is the end with a failure. -/
  | stopped {prepared drained : Transcript T} {f : Failure} :
      Follows ([.look] ++ s.preparation) prepared (.ok true) → stops drained →
      ReachesPlan stops (prepared ++ drained) (.error f)

variable {s}

theorem ReachesPlan.mono {stops stops' : Transcript T → Prop} {t : Transcript T}
    {res : Except Failure Int} (h : s.ReachesPlan stops t res)
    (hstops : ∀ prepared drained, t = prepared ++ drained → stops drained → stops' drained) :
    s.ReachesPlan stops' t res := by
  cases h with
  | unprepared hprepared hv => exact .unprepared hprepared hv
  | planned hprepared hsound => exact .planned hprepared hsound
  | stopped hprepared hstopped => exact .stopped hprepared (hstops _ _ rfl hstopped)

variable [Timescale T]

/-- The reasons why a drain is stopped. -/
def StopsDrain (s : Setup T S) (t : Transcript T) : Prop :=
  s.Stalls t ∨ ∃ e ∈ t, ¬e.IsSound

variable (s)

theorem drainAndPlan_keeps (current : String) : Keeps s (do
      s.drain
      info "Creating destroy plan..."
      let _ ← s.require .stream ["plan", "-destroy", s!"-out={destroyPlanFile}"]
      return current) fun _ t res _ =>
    (∃ drained response, t = drained ++ [.command .stream planDestroyCommand response] ∧
      ∀ e ∈ drained, e.IsSound) ∨
    s.StopsDrain t ∧ ∃ f, res = .error f ∧ f.exitCode? = none := by
  have hdrain : Keeps s s.drain fun _ t res _ => match res with
      | .ok _ => ∀ e ∈ t, e.IsSound
      | .error f => s.StopsDrain t ∧ f.exitCode? = none := by
    refine (Yields.drain.and_result Drains.drain fun _ _ _ _ h => h.2.2).mono ?_
    intro d t res d' h
    cases res with
    | ok a => exact h.1.2
    | error f => exact ⟨h.1, h.2 f rfl⟩
  refine hdrain.seq ?_ ?_
  · intro d t f d' hstopped
    exact .inr ⟨hstopped.1, f, rfl, hstopped.2⟩
  · intro d t a d₁ hsound
    refine (IsSilent.info _).bind_keeps fun _ => ?_
    refine Keeps.bind (Keeps.require s .stream _) (R := fun _ _ u _ _ => u = [])
      (fun _ => .pure fun _ => rfl) ?_ ?_
    · intro d t' f d' hplan _
      obtain ⟨response, rfl, -⟩ := hplan
      exact .inl ⟨t, response, rfl, hsound⟩
    · intro d t' o d₁ u res d' hplan hu _
      obtain ⟨response, rfl, -⟩ := hplan
      subst hu
      exact .inl ⟨t, response, rfl, hsound⟩

theorem planDestruction_keeps : Keeps s s.planDestruction fun _ t res _ =>
    (∃ f, res = .error f ∧ Follows s.preparation t (.error f)) ∨
    ∃ prepared u, t = prepared ++ u ∧ Follows s.preparation prepared (.ok true) ∧
      ((∃ drained response, u = drained ++ [.command .stream planDestroyCommand response] ∧
          ∀ e ∈ drained, e.IsSound) ∨
        s.StopsDrain u ∧ ∃ f, res = .error f ∧ f.exitCode? = none) := by
  refine Keeps.seq (Carries.prepare s) ?_ ?_
  · intro d t f d' hfailed
    exact .inl ⟨f, rfl, hfailed.2⟩
  · intro d t current d₁ hprepared
    refine (IsSilent.title _).bind_keeps fun _ => (drainAndPlan_keeps s current).mono ?_
    intro d u res d' hu _
    exact .inr ⟨t, u, rfl, hprepared.2, hu⟩

theorem destroy_reachesPlan :
    Keeps s s.destroy fun _ t res _ => s.ReachesPlan s.StopsDrain t res := by
  refine Keeps.seq (Carries.checkPreconditions s) ?_ ?_
  · intro d t f d' hfailed
    exact .unprepared (hfailed.2.append_of_ne _ error_ne_ok) error_ne_ok
  · intro d t₀ a d₁ hlook
    refine Keeps.mono (P := fun _ t res _ => s.ReachesPlan s.StopsDrain (t₀ ++ t) res) ?_
      fun _ _ _ _ h _ => h
    refine Keeps.orExitCode_bind _ (planDestruction_keeps s) (fun _ => rfl)
      (R := fun _ _ _ _ _ => True) (fun current => ?_) ?_ ?_
    · -- Whatever comes behind the plan.
      refine Keeps.bind (approveDestruction_carries s current) (R := fun _ _ _ _ _ => True)
        (fun granted => ?_) (fun _ _ _ _ _ => trivial) fun _ _ _ _ _ _ _ _ _ => trivial
      cases granted with
      | true => exact (applyDestruction_keeps s).mono fun _ _ _ _ _ => trivial
      | false => exact (IsSilent.info _).bind_keeps fun _ => .pure fun _ => trivial
    · intro d t f d' hfailed
      obtain ⟨f', -, hprepared⟩ | ⟨prepared, u, rfl, hprepared, hu⟩ := hfailed
      · exact .unprepared (hlook.2.append hprepared) error_ne_ok
      · have hstart := hlook.2.append hprepared
        rw [← List.append_assoc]
        obtain ⟨drained, response, rfl, hsound⟩ | ⟨hstops, f', hf, hnone⟩ := hu
        · exact .planned hstart hsound
        · cases hf
          rw [settle_of_none hnone]
          exact .stopped hstart hstops
    · intro d t current d₁ u res d' hplanned _
      obtain ⟨f', hf, -⟩ | ⟨prepared, v, rfl, hprepared, hv⟩ := hplanned
      · cases hf
      · have hstart := hlook.2.append hprepared
        obtain ⟨drained, response, rfl, hsound⟩ | ⟨-, f', hf, -⟩ := hv
        · have hshape : t₀ ++ (prepared ++ (drained ++
              [.command .stream planDestroyCommand response]) ++ u) =
              t₀ ++ prepared ++ (drained ++ .command .stream planDestroyCommand response :: u) := by
            simp
          rw [hshape]
          exact .planned hstart hsound
        · cases hf

/-! ## What stops a drain -/

variable {s}

/-- Waiting for a service, draining and destroying are stopped by unsound exchanges, and by
nothing else. -/
structure IsStoppedByUnsound (s : Setup T S) : Prop where
  waiting : ∀ cluster service r, ∃ t,
    s.Accounts r t (outcome (s.waitForDrain cluster service) r).2 ∧
      ((∃ rests, (outcome (s.waitForDrain cluster service) r).1 = .ok rests) ↔
        ∀ e ∈ t, e.IsSound)
  draining : ∀ r, ∃ t, s.Accounts r t (outcome s.drain r).2 ∧
    ((∃ a, (outcome s.drain r).1 = .ok a) ↔ ∀ e ∈ t, e.IsSound)
  destroying : ∀ r, ∃ t, s.Accounts r t (outcome s.destroy r).2 ∧
    s.ReachesPlan (fun drained => ∃ e ∈ drained, ¬e.IsSound) t (outcome s.destroy r).1

theorem ok_iff_of_yields {x : Action T S α} {P : Transcript T → α → Prop}
    (hx : Yields s x s.Stalls P)
    (hends : ∀ o t o', s.surroundings.Answers o t o' → ¬s.Stalls t) (r : Run T S) :
    ∃ t, s.Accounts r t (outcome x r).2 ∧
      ((∃ a, (outcome x r).1 = .ok a) ↔ ∀ e ∈ t, e.IsSound) := by
  obtain ⟨t, ht, h⟩ := hx r
  refine ⟨t, ht, ?_⟩
  cases hres : (outcome x r).1 with
  | ok a =>
    rw [hres] at h
    exact ⟨fun _ => h.2, fun _ => ⟨a, rfl⟩⟩
  | error f =>
    rw [hres] at h
    obtain hstalls | ⟨e, he, hunsound⟩ := h
    · exact absurd hstalls (hends _ _ _ ht.answers)
    · constructor
      · intro hok
        obtain ⟨a, ha⟩ := hok
        cases ha
      · intro hsound
        exact absurd (hsound e he) hunsound

theorem isStoppedByUnsound_of_not_stalls
    (hends : ∀ o t o', s.surroundings.Answers o t o' → ¬s.Stalls t) : s.IsStoppedByUnsound where
  waiting cluster service r := ok_iff_of_yields (.waitForDrain cluster service) hends r
  draining r := ok_iff_of_yields .drain hends r
  destroying r := by
    obtain ⟨t, ht, h⟩ := destroy_reachesPlan s r
    refine ⟨t, ht, h.mono fun prepared drained heq hstops => ?_⟩
    have hanswers := ht.answers
    rw [heq] at hanswers
    obtain ⟨o₁, -, hdrained⟩ := Surroundings.Answers.of_append hanswers
    exact hstops.resolve_left (hends _ _ _ hdrained)

end Setup

/-- Where waiting takes time, a drain is not stopped by anything but an unsound exchange, and
a destruction goes on to its plan.  Any bound on the questions will do that is high
enough. -/
theorem Setup.exists_isStoppedByUnsound [AddCommGroup T] [LinearOrder T] [IsOrderedAddMonoid T]
    [Archimedean T] [ExactTimescale T] (s : Setup T S) {clock : S → T}
    (hadvances : s.surroundings.Advances clock s.pollInterval) (hpositive : 0 < s.pollInterval) :
    ∃ bound, ∀ n > bound, ({ s with maxPolls := n } : Setup T S).IsStoppedByUnsound := by
  obtain ⟨k, hk⟩ := Archimedean.arch s.drainTimeout hpositive
  refine ⟨k, fun n hn => isStoppedByUnsound_of_not_stalls fun o t o' ht => ?_⟩
  exact not_stalls (s := { s with maxPolls := n }) hadvances hpositive hk hn ht

/-! ## A clock that ticks -/

instance : ExactTimescale Int where
  later start span := start + span
  reached deadline now := decide (deadline ≤ now)
  secondsText := toString
  later_eq _ _ := rfl
  reached_iff _ _ := decide_eq_true_iff

/-- A cluster of which the services are listed by a given answer.  The state of the
surroundings is the time. -/
def ticking (listing : String) : Setup Int Int where
  directory := ⟨"/", ["work"]⟩
  outputs := ⟨"/", ["outputs.json"]⟩
  drainTimeout := 600
  pollInterval := 10
  isInstalled _ := true
  surroundings :=
    { respond := fun c o => (Setup.oneCluster listing c, o)
      reply := fun _ o => (⟨["y"], some true⟩, o)
      now := fun o => (o, o)
      pass := fun span o => o + span }

theorem advances_ticking (listing : String) : (ticking listing).surroundings.Advances id 10 where
  reading _ := rfl
  now _ := le_rfl
  respond _ _ := le_rfl
  pass _ := le_rfl

theorem exists_isStoppedByUnsound_ticking : (ticking "null").surroundings.Advances id 10 ∧
    (0 : Int) < 10 ∧
    ∃ bound, ∀ n > bound,
      ({ ticking "null" with maxPolls := n } : Setup Int Int).IsStoppedByUnsound :=
  ⟨advances_ticking "null", by decide,
    Setup.exists_isStoppedByUnsound (ticking "null") (advances_ticking "null") (by decide)⟩

/-- A list of services that is a document of another shape is the end of a destruction,
although every command succeeds and waiting takes time. -/
theorem destroy_list_fails : (ticking "[]").surroundings.Advances id 10 ∧
    (∀ c o, ∃ out, ((ticking "[]").surroundings.respond c o).1 = .exited 0 out "") ∧
    (outcome (ticking "[]").drain ⟨0, {}, []⟩).1 = .error (.answer (.member "list" "get")) ∧
    (outcome (ticking "[]").destroy ⟨0, ⟨[(["work"], .directory)], []⟩, []⟩).1 =
      .error (.answer (.member "list" "get")) := by
  refine ⟨advances_ticking "[]", fun c o => ?_, by decide +kernel, by decide +kernel⟩
  show ∃ out, Setup.oneCluster "[]" c = .exited 0 out ""
  unfold Setup.oneCluster
  split <;> exact ⟨_, rfl⟩

end Rollout
end Groundplan
