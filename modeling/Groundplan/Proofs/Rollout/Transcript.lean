/-
Transcripts: a rollout as a dialogue with its surroundings.

The trace of a rollout has the commands and questions but not what came back for a
command.  A transcript has both sides, and `Accounts` ties it to a run: everything in it
was answered as the surroundings do, in this order, and the trace has grown by just these
commands, questions and pauses.  `Keeps` is a program logic on top of that.  Its
assertions see the disk before and after, the transcript and the result, and there is one
rule for each thing that an action is built from, so that no other proof has to look into
the monad.
-/
import Groundplan.Proofs.Result
import Groundplan.Rollout.Basic

namespace Groundplan
namespace Rollout

open Storage

variable {T S α β : Type}

/-! ## Exchanges -/

/-- One use that a rollout makes of its surroundings, with what comes back. -/
inductive Exchange (T : Type)
  | command (mode : Mode) (command : Command) (response : Response)
  | question (text : String) (reply : Reply)
  | clock (reading : T)
  | pause (span : T)

namespace Exchange

/-- What comes back is what the surroundings give in a state. -/
def IsGiven (su : Surroundings T S) (o : S) : Exchange T → Prop
  | .command _ c response => (su.respond c o).1 = response
  | .question text reply => (su.reply text o).1 = reply
  | .clock reading => (su.now o).1 = reading
  | .pause _ => True

/-- The surroundings afterwards. -/
def after (su : Surroundings T S) (o : S) : Exchange T → S
  | .command _ c _ => (su.respond c o).2
  | .question text _ => (su.reply text o).2
  | .clock _ => (su.now o).2
  | .pause span => su.pass span o

/-- What the trace shows of it.  Looking at the clock leaves nothing. -/
def effect? (directory : Path) : Exchange T → Option (Effect T)
  | .command mode c _ => some (.run mode directory c)
  | .question text reply => some (.ask text reply)
  | .clock _ => none
  | .pause span => some (.sleep span)

def command? : Exchange T → Option Command
  | .command _ c _ => some c
  | _ => none

end Exchange

abbrev Transcript (T : Type) := List (Exchange T)

/-- The commands of a transcript in the order in which they are run. -/
def Transcript.commands (t : Transcript T) : List Command := t.filterMap Exchange.command?

@[simp] theorem commands_append (t u : Transcript T) :
    Transcript.commands (t ++ u) = t.commands ++ u.commands := List.filterMap_append

theorem mem_commands {t : Transcript T} {c : Command} :
    c ∈ t.commands ↔ ∃ mode response, Exchange.command mode c response ∈ t := by
  rw [Transcript.commands, List.mem_filterMap]
  constructor
  · intro hmem
    obtain ⟨e, he, hc⟩ := hmem
    cases e with
    | command mode c' response =>
      cases hc
      exact ⟨mode, response, he⟩
    | question text reply => cases hc
    | clock reading => cases hc
    | pause span => cases hc
  · intro hmem
    obtain ⟨mode, response, he⟩ := hmem
    exact ⟨_, he, rfl⟩

/-- Every exchange is answered by the surroundings as the one before has left them. -/
def Surroundings.Answers (su : Surroundings T S) : S → Transcript T → S → Prop
  | o, [], o' => o' = o
  | o, e :: t, o' => e.IsGiven su o ∧ su.Answers (e.after su o) t o'

theorem Surroundings.Answers.append {su : Surroundings T S} {o o₁ o₂ : S} {t u : Transcript T}
    (ht : su.Answers o t o₁) (hu : su.Answers o₁ u o₂) : su.Answers o (t ++ u) o₂ := by
  induction t generalizing o with
  | nil =>
    have ho : o₁ = o := ht
    rw [← ho]
    exact hu
  | cons e t ih => exact ⟨ht.1, ih ht.2⟩

/-- Whether the outside takes part in an effect, as it does in none that only shows or
logs something. -/
def Effect.isContact : Effect T → Bool
  | .run .. | .ask .. | .sleep _ => true
  | .echo _ | .notice .. | .record _ => false

/-- A transcript accounts for all contact with the outside between two states. -/
structure Setup.Accounts (s : Setup T S) (r : Run T S) (t : Transcript T) (r' : Run T S) : Prop where
  answers : s.surroundings.Answers r.outside t r'.outside
  effects : ∃ added, r'.trace = r.trace ++ added ∧
    added.filter Effect.isContact = t.filterMap (Exchange.effect? s.directory)

theorem Setup.Accounts.refl {s : Setup T S} (r : Run T S) : s.Accounts r [] r :=
  ⟨rfl, [], (List.append_nil _).symm, rfl⟩

theorem Setup.Accounts.trans {s : Setup T S} {r₀ r₁ r₂ : Run T S} {t u : Transcript T}
    (ht : s.Accounts r₀ t r₁) (hu : s.Accounts r₁ u r₂) : s.Accounts r₀ (t ++ u) r₂ := by
  obtain ⟨first, htrace, hfirst⟩ := ht.effects
  obtain ⟨second, htrace', hsecond⟩ := hu.effects
  refine ⟨ht.answers.append hu.answers, first ++ second, ?_, ?_⟩
  · rw [htrace', htrace, List.append_assoc]
  · rw [List.filter_append, hfirst, hsecond, List.filterMap_append]

/-- The command of an effect that runs one. -/
def Effect.command? : Effect T → Option Command
  | .run _ _ c => some c
  | _ => none

/-- The trace has grown by just the commands of the transcript. -/
theorem Setup.Accounts.commands {s : Setup T S} {r r' : Run T S} {t : Transcript T}
    (h : s.Accounts r t r') :
    r'.trace.filterMap Effect.command? = r.trace.filterMap Effect.command? ++ t.commands := by
  obtain ⟨added, htrace, hcontacts⟩ := h.effects
  have hadded : added.filterMap Effect.command? =
      (added.filter Effect.isContact).filterMap Effect.command? := by
    rw [List.filterMap_filter]
    refine List.filterMap_congr fun e _ => ?_
    cases e <;> rfl
  rw [htrace, List.filterMap_append, hadded, hcontacts, List.filterMap_filterMap,
    Transcript.commands]
  congr 2
  funext e
  cases e <;> rfl

/-! ## Outcomes -/

/-- The result of an action and the state that it leaves. -/
def outcome (x : Action T S α) (r : Run T S) : Except Failure α × Run T S := x.run.run r

theorem outcome_effect (e : Effect T) (r : Run T S) :
    outcome (effect e) r = (.ok (), { r with trace := r.trace ++ [e] }) := rfl

theorem outcome_consult (f : S → α × S) (r : Run T S) :
    outcome (consult f) r = (.ok (f r.outside).1, { r with outside := (f r.outside).2 }) := rfl

theorem outcome_bind_ok {x : Action T S α} {f : α → Action T S β} {r r' : Run T S} {a : α}
    (h : outcome x r = (.ok a, r')) : outcome (x >>= f) r = outcome (f a) r' := by
  have hx : x.run.run r = (.ok a, r') := h
  show (x >>= f).run.run r = _
  rw [ExceptT.run_bind, StateT.run_bind, hx]
  rfl

theorem outcome_bind_error {x : Action T S α} {f : α → Action T S β} {r r' : Run T S} {e : Failure}
    (h : outcome x r = (.error e, r')) : outcome (x >>= f) r = (.error e, r') := by
  have hx : x.run.run r = (.error e, r') := h
  show (x >>= f).run.run r = _
  rw [ExceptT.run_bind, StateT.run_bind, hx]
  rfl

theorem outcome_tryCatch_ok {x : Action T S α} {f : Failure → Action T S α} {r r' : Run T S}
    {a : α} (h : outcome x r = (.ok a, r')) : outcome (tryCatch x f) r = (.ok a, r') := by
  have hx : x.run.run r = (.ok a, r') := h
  show (tryCatch x f).run.run r = _
  rw [ExceptT.run_tryCatch, StateT.run_bind, hx]
  rfl

theorem outcome_tryCatch_error {x : Action T S α} {f : Failure → Action T S α} {r r' : Run T S}
    {e : Failure} (h : outcome x r = (.error e, r')) :
    outcome (tryCatch x f) r = outcome (f e) r' := by
  have hx : x.run.run r = (.error e, r') := h
  show (tryCatch x f).run.run r = _
  rw [ExceptT.run_tryCatch, StateT.run_bind, hx]
  rfl

/-! ## Assertions -/

/-- What holds of the disk before, the transcript, the result and the disk after. -/
abbrev Assertion (T α : Type) := Disk → Transcript T → Except Failure α → Disk → Prop

/-- Every run of an action has a transcript that accounts for it and satisfies an
assertion. -/
def Keeps (s : Setup T S) (x : Action T S α) (P : Assertion T α) : Prop :=
  ∀ r, ∃ t, s.Accounts r t (outcome x r).2 ∧ P r.disk t (outcome x r).1 (outcome x r).2.disk

namespace Keeps

variable {s : Setup T S} {P : Assertion T α} {Q : Assertion T β}

theorem mono {P' : Assertion T α} {x : Action T S α} (hx : Keeps s x P)
    (h : ∀ d t res d', P d t res d' → P' d t res d') : Keeps s x P' := by
  intro r
  obtain ⟨t, ht, hP⟩ := hx r
  exact ⟨t, ht, h _ _ _ _ hP⟩

/-- There is only one result, whatever the transcript. -/
theorem and_result {P' : Assertion T α} {R : Except Failure α → Prop} {x : Action T S α}
    (hx : Keeps s x P) (hx' : Keeps s x P') (h : ∀ d t res d', P' d t res d' → R res) :
    Keeps s x fun d t res d' => P d t res d' ∧ R res := by
  intro r
  obtain ⟨t, ht, hP⟩ := hx r
  obtain ⟨t', -, hP'⟩ := hx' r
  exact ⟨t, ht, hP, h _ _ _ _ hP'⟩

theorem pure {a : α} (h : ∀ d, P d [] (.ok a) d) : Keeps s (Pure.pure a) P :=
  fun r => ⟨[], .refl r, h r.disk⟩

theorem throw {e : Failure} (h : ∀ d, P d [] (.error e) d) : Keeps s (MonadExcept.throw e) P :=
  fun r => ⟨[], .refl r, h r.disk⟩

theorem throw_bind {e : Failure} {f : α → Action T S β} (h : ∀ d, Q d [] (.error e) d) :
    Keeps s (MonadExcept.throw e >>= f) Q :=
  fun r => ⟨[], .refl r, h r.disk⟩

/-- The second part starts from what the first has come to. -/
theorem seq {x : Action T S α} {f : α → Action T S β} (hx : Keeps s x P)
    (hfail : ∀ d t e d', P d t (.error e) d' → Q d t (.error e) d')
    (hf : ∀ d t a d₁, P d t (.ok a) d₁ →
      Keeps s (f a) fun d₁' u res d' => d₁' = d₁ → Q d (t ++ u) res d') :
    Keeps s (x >>= f) Q := by
  intro r
  obtain ⟨t, ht, hP⟩ := hx r
  generalize hp : outcome x r = p at ht hP
  obtain ⟨res, r₁⟩ := p
  cases res with
  | error e =>
    rw [outcome_bind_error hp]
    exact ⟨t, ht, hfail _ _ _ _ hP⟩
  | ok a =>
    rw [outcome_bind_ok hp]
    obtain ⟨u, hu, hQ⟩ := hf _ _ _ _ hP r₁
    exact ⟨t ++ u, ht.trans hu, hQ rfl⟩

/-- A failure of the first part is one of the whole; otherwise the transcripts follow
each other. -/
theorem bind {x : Action T S α} {f : α → Action T S β} {R : α → Assertion T β}
    (hx : Keeps s x P) (hf : ∀ a, Keeps s (f a) (R a))
    (hfail : ∀ d t e d', P d t (.error e) d' → Q d t (.error e) d')
    (hnext : ∀ d t a d₁ u res d', P d t (.ok a) d₁ → R a d₁ u res d' → Q d (t ++ u) res d') :
    Keeps s (x >>= f) Q := by
  refine hx.seq hfail fun d t a d₁ hP => (hf a).mono ?_
  intro d₁' u res d' hR hd
  subst hd
  exact hnext d t a d₁' u res d' hP hR

theorem map {x : Action T S α} {f : α → β} (hx : Keeps s x fun d t res d' => Q d t (res.map f) d') :
    Keeps s (f <$> x) Q := by
  rw [← bind_pure_comp]
  refine hx.bind (R := fun a d t res d' => t = [] ∧ res = .ok (f a) ∧ d' = d)
    (fun a => .pure fun d => ⟨rfl, rfl, rfl⟩) (fun _ _ _ _ h => h) ?_
  intro d t a d₁ u res d' h hsecond
  obtain ⟨rfl, rfl, rfl⟩ := hsecond
  rw [List.append_nil]
  exact h

/-- An action that sees the disk may use that it is the one at its start. -/
theorem get_bind {f : Run T S → Action T S β}
    (hf : ∀ r, Keeps s (f r) fun d t res d' => d = r.disk → Q d t res d') :
    Keeps s (MonadState.get >>= f) Q := by
  intro r
  obtain ⟨t, ht, hQ⟩ := hf r r
  exact ⟨t, ht, hQ rfl⟩

theorem onDisk {path : Path} {f : Disk → Except Fault Disk} {P : Assertion T Unit}
    (hok : ∀ d d', f d = .ok d' → P d [] (.ok ()) d')
    (herror : ∀ d e, f d = .error e → P d [] (.error (.storage ⟨e, path⟩)) d) :
    Keeps s (onDisk path f) P := by
  refine get_bind fun r => ?_
  cases hf : f r.disk with
  | ok d' =>
    intro r₁
    refine ⟨[], ⟨rfl, [], (List.append_nil _).symm, rfl⟩, fun h => ?_⟩
    rw [h]
    exact hok _ _ hf
  | error e =>
    refine throw fun d h => ?_
    rw [h]
    exact herror _ _ hf

/-- What an action leaves undone it passes on as a failure; a handler sees the state in
which the failure occurred. -/
theorem tryCatch {x : Action T S α} {h : Failure → Action T S α} {R : Failure → Assertion T α}
    {P' : Assertion T α} (hx : Keeps s x P) (hh : ∀ e, Keeps s (h e) (R e))
    (hok : ∀ d t a d', P d t (.ok a) d' → P' d t (.ok a) d')
    (hnext : ∀ d t e d₁ u res d', P d t (.error e) d₁ → R e d₁ u res d' → P' d (t ++ u) res d') :
    Keeps s (MonadExcept.tryCatch x h) P' := by
  intro r
  obtain ⟨t, ht, hP⟩ := hx r
  generalize hp : outcome x r = p at ht hP
  obtain ⟨res, r₁⟩ := p
  cases res with
  | ok a =>
    rw [outcome_tryCatch_ok hp]
    exact ⟨t, ht, hok _ _ _ _ hP⟩
  | error e =>
    rw [outcome_tryCatch_error hp]
    obtain ⟨u, hu, hR⟩ := hh e r₁
    exact ⟨t ++ u, ht.trans hu, hnext _ _ _ _ _ _ _ hP hR⟩

end Keeps

/-! ## Silence

Messages, log records and the lines that are shown make up most of every action.  None of
them is contact with the outside, so they drop out of all that follows. -/

/-- An action that only shows or logs something. -/
def IsSilent (s : Setup T S) (x : Action T S α) : Prop :=
  Keeps s x fun d t res d' => t = [] ∧ d' = d ∧ ∃ a, res = .ok a

namespace IsSilent

variable {s : Setup T S}

theorem pure (a : α) : IsSilent s (Pure.pure a) := Keeps.pure fun _ => ⟨rfl, rfl, a, rfl⟩

theorem effect {e : Effect T} (he : e.isContact = false) : IsSilent s (effect e) := by
  intro r
  refine ⟨[], ⟨rfl, [e], rfl, ?_⟩, rfl, rfl, (), rfl⟩
  rw [List.filter_cons_of_neg (by rw [he]; decide)]
  rfl

theorem notice (kind : Notice) (text : String) : IsSilent s (notice kind text) := effect rfl

theorem title (text : String) : IsSilent s (title text) := effect rfl

theorem info (text : String) : IsSilent s (info text) := effect rfl

theorem warn (text : String) : IsSilent s (warn text) := effect rfl

theorem log (record : LogRecord) : IsSilent s (log record) := effect rfl

/-- What follows a silent action has the transcript of both. -/
theorem bind_keeps {x : Action T S α} {f : α → Action T S β} {P : Assertion T β}
    (hx : IsSilent s x) (hf : ∀ a, Keeps s (f a) P) : Keeps s (x >>= f) P := by
  refine Keeps.bind hx hf ?_ ?_
  · intro d t e d' hfailed
    obtain ⟨-, -, a, h⟩ := hfailed
    cases h
  · intro d t a d₁ u res d' hfirst h
    obtain ⟨rfl, rfl, -⟩ := hfirst
    exact h

theorem bind {x : Action T S α} {f : α → Action T S β} (hx : IsSilent s x)
    (hf : ∀ a, IsSilent s (f a)) : IsSilent s (x >>= f) :=
  hx.bind_keeps hf

theorem forIn {γ : Type} (xs : List γ) {f : γ → Unit → Action T S (ForInStep Unit)}
    (hf : ∀ x a, IsSilent s (f x a)) : IsSilent s (forIn xs () f) := by
  induction xs with
  | nil =>
    rw [List.forIn_nil]
    exact pure ()
  | cons x xs ih =>
    rw [List.forIn_cons]
    refine bind (hf x ()) fun a => ?_
    cases a with
    | done a => exact pure a
    | yield a => exact ih

end IsSilent

/-! ## Contact -/

/-- What an action gets for the response of a command. -/
def Response.output (mode : Mode) (c : Command) : Response → Except Failure Output
  | .missing => .error (.noTool (c.headD "") none)
  | .exited code out err =>
    match mode with
    | .stream => .ok { command := c, code }
    | .capture => .ok { command := c, code, out, err }
    | .tee => .ok { command := c, code, out := out ++ err }

/-- The decision of a reply, which an action cannot go on without. -/
def Reply.result (reply : Reply) : Except Failure Bool :=
  match reply.decision with
  | some b => .ok b
  | none => .error .unanswered

/-- Everything that is contact with the outside goes into the trace first. -/
theorem accounts_contact {s : Setup T S} {r : Run T S} {e : Exchange T} {x : Effect T}
    (hgiven : e.IsGiven s.surroundings r.outside) (heffect : e.effect? s.directory = some x)
    (hx : x.isContact = true) :
    s.Accounts r [e]
      { r with outside := e.after s.surroundings r.outside, trace := r.trace ++ [x] } := by
  refine ⟨⟨hgiven, rfl⟩, [x], rfl, ?_⟩
  rw [List.filter_cons_of_pos hx, List.filterMap_cons_some heffect]
  rfl

namespace Keeps

variable (s : Setup T S)

theorem respond (mode : Mode) (c : Command) :
    Keeps s (do effect (.run mode s.directory c); consult (s.surroundings.respond c))
      fun d t res d' => ∃ response, t = [.command mode c response] ∧ res = .ok response ∧ d' = d :=
  fun r => ⟨[.command mode c (s.surroundings.respond c r.outside).1], accounts_contact rfl rfl rfl,
    _, rfl, rfl, rfl⟩

theorem run (mode : Mode) (c : Command) :
    Keeps s (s.run mode c) fun d t res d' =>
      ∃ response, t = [.command mode c response] ∧ res = response.output mode c ∧ d' = d := by
  refine (IsSilent.log _).bind_keeps fun _ => ?_
  rw [← bind_assoc]
  refine (respond s mode c).bind (R := fun response d t res d' =>
    t = [] ∧ res = response.output mode c ∧ d' = d) ?_ ?_ ?_
  · intro response
    cases response with
    | missing => exact throw fun d => ⟨rfl, rfl, rfl⟩
    | exited code out err =>
      cases mode with
      | stream => exact pure fun d => ⟨rfl, rfl, rfl⟩
      | capture => exact pure fun d => ⟨rfl, rfl, rfl⟩
      | tee =>
        refine IsSilent.bind_keeps (.forIn _ fun line _ => ?_) fun _ => ?_
        · exact .bind (.effect rfl) fun _ => .pure _
        · exact pure fun d => ⟨rfl, rfl, rfl⟩
  · intro d t e d' hfailed
    obtain ⟨response, -, h, -⟩ := hfailed
    cases h
  · intro d t a d₁ u res d' hfirst hsecond
    obtain ⟨response, rfl, h, rfl⟩ := hfirst
    obtain ⟨rfl, rfl, rfl⟩ := hsecond
    cases h
    exact ⟨a, rfl, rfl, rfl⟩

theorem confirm (question : String) :
    Keeps s (s.confirm question) fun d t res d' =>
      ∃ reply, t = [.question question reply] ∧ res = reply.result ∧ d' = d := by
  intro r
  generalize hreply : (s.surroundings.reply question r.outside).1 = reply
  have hrun : outcome (s.confirm question) r = (reply.result,
      { r with
        outside := (s.surroundings.reply question r.outside).2
        trace := r.trace ++ [.ask question reply] }) := by
    rw [Setup.confirm, outcome_bind_ok (outcome_consult _ _), outcome_bind_ok (outcome_effect _ _),
      hreply, Reply.result]
    cases reply.decision <;> rfl
  rw [hrun]
  exact ⟨[.question question reply], accounts_contact hreply rfl rfl, reply, rfl, rfl, rfl⟩

theorem now :
    Keeps s s.now fun d t res d' => ∃ reading, t = [.clock reading] ∧ res = .ok reading ∧ d' = d :=
  fun r => ⟨[.clock (s.surroundings.now r.outside).1], ⟨⟨rfl, rfl⟩, [], (List.append_nil _).symm, rfl⟩,
    _, rfl, rfl, rfl⟩

theorem wait (span : T) :
    Keeps s (s.wait span) fun d t res d' => t = [.pause span] ∧ res = .ok () ∧ d' = d :=
  fun _ => ⟨[.pause span], accounts_contact (e := .pause span) trivial rfl rfl, rfl, rfl, rfl⟩

end Keeps

end Rollout
end Groundplan
