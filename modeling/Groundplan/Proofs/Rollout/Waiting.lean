/-
How long a service is waited for.

The loop that waits has no count of its own.  It looks at the clock after a question, and
not before the next one, so the last question may come when the time is up already.  Where
every pause takes an interval, each question that is followed by another one has used up
one interval of the timeout, and that leaves room for as many as fit in, and one more.
What comes of it is what the last answer says, and no answer before it says so.
-/
import Groundplan.Proofs.Rollout.Endurance
import Mathlib.Algebra.Order.Floor.Semiring
import Mathlib.Data.Rat.Floor

namespace Groundplan
namespace Rollout

variable {T S : Type}

/-! ## Rounds -/

/-- A question about a service that another one comes after: its answer, and the time
afterwards. -/
structure Round (T : Type) where
  response : Response
  reading : T

/-- A round is a question, a look at the clock and a pause of one interval. -/
def Round.exchanges (cluster service : String) (interval : T) (q : Round T) : Transcript T :=
  [.command .capture (describeCommand cluster service) q.response, .clock q.reading, .pause interval]

/-- An answer that leaves the service busy while there is time. -/
def Round.IsBusy [LT T] (deadline : T) (q : Round T) : Prop :=
  ¬q.response.SaysIdle ∧ q.reading < deadline

/-- The last question, and what comes of it. -/
inductive Decides [LE T] (cluster service : String) (deadline : T) : Transcript T → Bool → Prop
  /-- The answer says that nothing is running. -/
  | rests {response : Response} : response.SaysIdle → Decides cluster service deadline
      [.command .capture (describeCommand cluster service) response] true
  /-- The answer does not say so, and behind it the time is up. -/
  | late {response : Response} {now : T} : ¬response.SaysIdle → deadline ≤ now →
      Decides cluster service deadline
        [.command .capture (describeCommand cluster service) response, .clock now] false

section Exact

variable [AddCommGroup T] [LinearOrder T] [ExactTimescale T] {s : Setup T S}

theorem reached_eq_false_iff {deadline now : T} :
    Timescale.reached deadline now = false ↔ now < deadline := by
  rw [← Bool.not_eq_true, ExactTimescale.reached_iff, not_le]

theorem Setup.IsPolling.exists_rounds {cluster service : String} {deadline : T} {t : Transcript T}
    {b : Bool} (h : s.IsPolling cluster service deadline t b) :
    ∃ (rounds : List (Round T)) (last : Transcript T),
      t = rounds.flatMap (Round.exchanges cluster service s.pollInterval) ++ last ∧
      (∀ q ∈ rounds, q.IsBusy deadline) ∧
      s.IsStalled cluster service deadline rounds.length
        (rounds.flatMap (Round.exchanges cluster service s.pollInterval)) ∧
      Decides cluster service deadline last b := by
  induction h with
  | rests hidle =>
    exact ⟨[], _, rfl, List.forall_mem_nil _, .zero, .rests hidle⟩
  | late hbusy hreached =>
    exact ⟨[], _, rfl, List.forall_mem_nil _, .zero,
      .late hbusy ((ExactTimescale.reached_iff _ _).mp hreached)⟩
  | @again response now t b hbusy hearly _ ih =>
    obtain ⟨rounds, last, rfl, hrounds, hstalled, hlast⟩ := ih
    refine ⟨⟨response, now⟩ :: rounds, last, rfl, ?_, .succ hearly hstalled, hlast⟩
    exact List.forall_mem_cons.mpr
      ⟨⟨hbusy, reached_eq_false_iff.mp hearly⟩, hrounds⟩

end Exact

/-! ## The bound -/

/-- Exact readings that are numbers, whole ones or fractions. -/
class NumericTimescale (T : Type) [AddCommGroup T] [LinearOrder T] extends ExactTimescale T where
  value : T →+ ℚ
  value_strictMono : StrictMono value

instance [ExactTimescale Int] : NumericTimescale Int where
  value := Int.castAddHom ℚ
  value_strictMono := Int.cast_strictMono

instance [ExactTimescale ℚ] : NumericTimescale ℚ where
  value := AddMonoidHom.id ℚ
  value_strictMono := strictMono_id

namespace Setup

section

variable [AddCommGroup T] [LinearOrder T] [NumericTimescale T]

/-- The number of questions about a service that there is time for: one for each interval that
begins within the timeout, and one more. -/
def maxQuestions (s : Setup T S) : Nat :=
  ⌈NumericTimescale.value s.drainTimeout / NumericTimescale.value s.pollInterval⌉₊ + 1

/-- How waiting for a service goes, and whether it is at rest in the end. -/
def IsWait (s : Setup T S) (cluster service : String) (t : Transcript T) (rests : Bool) : Prop :=
  ∃ (start : T) (rounds : List (Round T)) (last : Transcript T),
    t = .clock start ::
      (rounds.flatMap (Round.exchanges cluster service s.pollInterval) ++ last) ∧
    (∀ q ∈ rounds, q.IsBusy (start + s.drainTimeout)) ∧ rounds.length + 1 ≤ s.maxQuestions ∧
    Decides cluster service (start + s.drainTimeout) last rests

theorem drainTimeout_le {s : Setup T S} (hpositive : 0 < s.pollInterval) :
    s.drainTimeout ≤
      ⌈NumericTimescale.value s.drainTimeout / NumericTimescale.value s.pollInterval⌉₊ •
        s.pollInterval := by
  have hmono := NumericTimescale.value_strictMono (T := T)
  have hinterval := hmono hpositive
  rw [map_zero] at hinterval
  rw [← hmono.le_iff_le, map_nsmul, nsmul_eq_mul, ← div_le_iff₀ hinterval]
  exact Nat.le_ceil _

end

variable [AddCommGroup T] [LinearOrder T] [IsOrderedAddMonoid T] [NumericTimescale T]
  {s : Setup T S} {clock : S → T}

theorem isWait_of_polling (hadvances : s.surroundings.Advances clock s.pollInterval)
    (hpositive : 0 < s.pollInterval) {cluster service : String} {start : T} {polls : Transcript T}
    {rests : Bool} {o o' : S} (ht : s.surroundings.Answers o (.clock start :: polls) o')
    (hpolls : s.IsPolling cluster service (Timescale.later start s.drainTimeout) polls rests) :
    s.IsWait cluster service (.clock start :: polls) rests := by
  rw [ExactTimescale.later_eq] at hpolls
  obtain ⟨rounds, last, rfl, hbusy, hstalled, hlast⟩ := hpolls.exists_rounds
  obtain ⟨hstart, hanswers⟩ := ht
  obtain ⟨o₁, hrounds, -⟩ := Surroundings.Answers.of_append hanswers
  have hle := hstalled.le hadvances hpositive (drainTimeout_le hpositive)
    (le_clock_now hadvances hstart) hrounds
  exact ⟨start, rounds, last, rfl, hbusy, Nat.succ_le_succ hle, hlast⟩

/-- Waiting comes to an end if everything that is answered can be understood, after as many
questions as there is time for at most, and then says what the last answer says.  Any bound on
the questions will do that leaves room for these. -/
theorem exists_isWait (s : Setup T S) (hadvances : s.surroundings.Advances clock s.pollInterval)
    (hpositive : 0 < s.pollInterval) (cluster service : String) (n : Nat)
    (hn : s.maxQuestions ≤ n) (r : Run T S) :
    ∃ t, ({ s with maxPolls := n } : Setup T S).Accounts r t
        (outcome (({ s with maxPolls := n } : Setup T S).waitForDrain cluster service) r).2 ∧
      ((∃ rests, (outcome (({ s with maxPolls := n } : Setup T S).waitForDrain cluster service) r).1 =
        .ok rests) ↔ ∀ e ∈ t, e.IsSound) ∧
      ∀ rests, (outcome (({ s with maxPolls := n } : Setup T S).waitForDrain cluster service) r).1 =
        .ok rests → s.IsWait cluster service t rests := by
  obtain ⟨t, ht, h⟩ := Yields.waitForDrain (s := { s with maxPolls := n }) cluster service r
  refine ⟨t, ht, ?_⟩
  cases hres : (outcome (({ s with maxPolls := n } : Setup T S).waitForDrain cluster service) r).1 with
  | ok rests =>
    rw [hres] at h
    obtain ⟨⟨start, polls, rfl, hpolls⟩, hsound⟩ := h
    refine ⟨⟨fun _ => hsound, fun _ => ⟨rests, rfl⟩⟩, fun rests' hrests => ?_⟩
    cases hrests
    exact isWait_of_polling (s := { s with maxPolls := n }) hadvances hpositive ht.answers hpolls
  | error f =>
    rw [hres] at h
    obtain ⟨e, he, hunsound⟩ := h.resolve_left
      (not_stalls (s := { s with maxPolls := n }) hadvances hpositive (drainTimeout_le hpositive) hn
        ht.answers)
    refine ⟨⟨?_, fun hsound => absurd (hsound e he) hunsound⟩, fun _ hrests => nomatch hrests⟩
    rintro ⟨rests, hrests⟩
    cases hrests

end Setup

/-! ## A service that comes to rest -/

/-- A service of which the tasks end after a while. -/
def emptying : Setup Int Int :=
  { ticking "null" with
    drainTimeout := 25
    surroundings := { (ticking "null").surroundings with
      respond := fun _ o => (.exited 0
        (if o < 15 then "\x7b\"services\": [\x7b\"runningCount\": 2\x7d]\x7d"
          else "\x7b\"services\": [\x7b\"status\": \"ACTIVE\"\x7d]\x7d") "", o) } }

theorem maxQuestions_emptying : emptying.maxQuestions = 4 := by decide +kernel

/-- Two tasks are running at the first two questions, and none at the third. -/
theorem exists_isWait_emptying : emptying.surroundings.Advances id 10 ∧ (0 : Int) < 10 ∧
    emptying.maxQuestions ≤ 4 ∧
    ∃ t, ({ emptying with maxPolls := 4 } : Setup Int Int).Accounts ⟨0, {}, []⟩ t
        (outcome (({ emptying with maxPolls := 4 } : Setup Int Int).waitForDrain "c" "a")
          ⟨0, {}, []⟩).2 ∧
      t.commands = List.replicate 3 (describeCommand "c" "a") ∧
      (∀ e ∈ t, e.IsSound) ∧ emptying.IsWait "c" "a" t true := by
  have hadvances : emptying.surroundings.Advances id 10 :=
    ⟨fun _ => rfl, fun _ => le_rfl, fun _ _ => le_rfl, fun _ => le_rfl⟩
  have hresult : (outcome (({ emptying with maxPolls := 4 } : Setup Int Int).waitForDrain "c" "a")
      ⟨0, {}, []⟩).1 = .ok true := by decide +kernel
  have hcommands : (outcome (({ emptying with maxPolls := 4 } : Setup Int Int).waitForDrain "c" "a")
      ⟨0, {}, []⟩).2.trace.filterMap Effect.command? =
        List.replicate 3 (describeCommand "c" "a") := by decide +kernel
  obtain ⟨t, ht, hsound, hwait⟩ := Setup.exists_isWait emptying hadvances (by decide) "c" "a" 4
    maxQuestions_emptying.le ⟨0, {}, []⟩
  refine ⟨hadvances, by decide, maxQuestions_emptying.le, t, ht, ?_, hsound.mp ⟨true, hresult⟩,
    hwait true hresult⟩
  rw [ht.commands] at hcommands
  exact hcommands

end Rollout
end Groundplan
