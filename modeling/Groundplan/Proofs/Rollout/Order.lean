/-
What a script says about the transcripts that keep to it.

The commands of a transcript are the first ones that its script spells.  A command that
has to succeed either does or is the last thing that happens, and so it is with consent.
-/
import Groundplan.Proofs.Rollout.Script

namespace Groundplan
namespace Rollout

variable {T : Type}

/-! ## Commands -/

/-- Whether a command changes what is deployed. -/
def isApply (c : Command) : Bool := ["terraform", "apply"].isPrefixOf c

/-- What a tool is told to do. -/
def subcommand (c : Command) : String := c.getD 1 ""

theorem subcommand_of_isApply {c : Command} (h : isApply c = true) : subcommand c = "apply" := by
  obtain ⟨rest, rfl⟩ := List.isPrefixOf_iff_prefix.mp h
  rfl

theorem Step.exists_spells (step : Step) : ∃ cs, step.Spells cs := by
  cases step with
  | look => exact ⟨[], rfl⟩
  | require mode args => exact ⟨["terraform" :: args], rfl⟩
  | attempt mode args => exact ⟨["terraform" :: args], rfl⟩
  | select name => exact ⟨[selectCommand name], .inl rfl⟩
  | drain => exact ⟨[], fun c hc => absurd hc List.not_mem_nil⟩
  | consent question => exact ⟨[], rfl⟩

/-- The step of a command that only one step may run. -/
theorem eq_of_append_cons {γ : Type} {p : γ → Prop} {A B C D : List γ} {x y : γ}
    (h : A ++ x :: B = C ++ y :: D) (hA : ∀ z ∈ A, ¬p z) (hB : ∀ z ∈ B, ¬p z) (hy : p y) :
    A = C ∧ x = y ∧ B = D := by
  induction A generalizing C with
  | nil =>
    cases C with
    | nil =>
      cases h
      exact ⟨rfl, rfl, rfl⟩
    | cons c C =>
      cases h
      exact absurd hy (hB y (List.mem_append_right C List.mem_cons_self))
  | cons a A ih =>
    cases C with
    | nil =>
      cases h
      exact absurd hy (hA y List.mem_cons_self)
    | cons c C =>
      obtain ⟨rfl, htail⟩ := List.cons.inj h
      obtain ⟨rfl, hx, hB'⟩ := ih htail fun z hz => hA z (List.mem_cons_of_mem _ hz)
      exact ⟨rfl, hx, hB'⟩

/-- What is not in the second part of a list is in the first one. -/
theorem append_cons_of_not_mem {γ : Type} {A B C D : List γ} {x : γ} (h : A ++ B = C ++ x :: D)
    (hx : x ∉ B) : ∃ E, A = C ++ x :: E ∧ D = E ++ B := by
  rcases List.append_eq_append_iff.mp h with ⟨m, -, hB⟩ | ⟨m, hA, hD⟩
  · rw [hB] at hx
    exact absurd (List.mem_append_right m List.mem_cons_self) hx
  · cases m with
    | nil =>
      rw [List.nil_append] at hD
      rw [← hD] at hx
      exact absurd List.mem_cons_self hx
    | cons y m =>
      obtain ⟨rfl, rfl⟩ := List.cons.inj hD
      exact ⟨m, hA, rfl⟩

/-- Even a step that stops has run all commands of one of its courses. -/
theorem Step.Takes.commands {step : Step} {t : Transcript T} {v : Verdict} (h : step.Takes t v) :
    step.Spells t.commands := by
  cases step with
  | look =>
    obtain ⟨rfl, -⟩ := h
    rfl
  | require mode args =>
    obtain ⟨response, rfl, -⟩ := h
    rfl
  | attempt mode args =>
    obtain ⟨response, rfl, -⟩ := h
    rfl
  | select name =>
    obtain ⟨response, rfl, -⟩ | ⟨code, out, err, response, -, rfl, -⟩ := h
    · exact .inl rfl
    · exact .inr rfl
  | drain =>
    intro c hc
    obtain ⟨mode, response, he⟩ := mem_commands.mp hc
    exact h.1 _ he
  | consent question =>
    obtain ⟨reply, rfl, -⟩ := h
    rfl

namespace Script

/-- The commands of a script that passes. -/
def Spells : Script → List Command → Prop
  | [], cs => cs = []
  | step :: rest, cs => ∃ first others, cs = first ++ others ∧ step.Spells first ∧ Spells rest others

theorem exists_spells (script : Script) : ∃ cs, script.Spells cs := by
  induction script with
  | nil => exact ⟨[], rfl⟩
  | cons step rest ih =>
    obtain ⟨first, hfirst⟩ := step.exists_spells
    obtain ⟨others, hothers⟩ := ih
    exact ⟨first ++ others, first, others, rfl, hfirst, hothers⟩

theorem spells_append {A B : Script} {cs : List Command} (h : Spells (A ++ B) cs) :
    ∃ as bs, cs = as ++ bs ∧ A.Spells as ∧ B.Spells bs := by
  induction A generalizing cs with
  | nil => exact ⟨[], cs, rfl, rfl, h⟩
  | cons step A ih =>
    obtain ⟨first, others, rfl, hfirst, hothers⟩ := h
    obtain ⟨as, bs, rfl, has, hbs⟩ := ih hothers
    exact ⟨first ++ as, bs, (List.append_assoc _ _ _).symm, ⟨first, as, rfl, hfirst, has⟩, hbs⟩

end Script

/-- The commands of a transcript are the first ones of its script. -/
theorem Follows.commands {script : Script} {t : Transcript T} {v : Verdict}
    (h : Follows script t v) : ∃ cs, script.Spells cs ∧ t.commands <+: cs := by
  induction h with
  | done => exact ⟨[], rfl, List.prefix_rfl⟩
  | stop hstep _ =>
    rename_i step rest t v _
    obtain ⟨others, hothers⟩ := Script.exists_spells rest
    exact ⟨t.commands ++ others, ⟨t.commands, others, rfl, hstep.commands, hothers⟩,
      List.prefix_append t.commands others⟩
  | next hstep _ ih =>
    rename_i t u v _
    obtain ⟨others, hothers, hle⟩ := ih
    refine ⟨t.commands ++ others, ⟨t.commands, others, rfl, hstep.commands, hothers⟩, ?_⟩
    rw [commands_append]
    exact (List.prefix_append_right_inj t.commands).mpr hle

theorem Follows.commands_of_ok {script : Script} {t : Transcript T}
    (h : Follows script t (.ok true)) : script.Spells t.commands := by
  induction script generalizing t with
  | nil =>
    cases h
    rfl
  | cons step rest ih =>
    cases h with
    | stop _ hv => exact absurd rfl hv
    | next hstep hrest =>
      rw [commands_append]
      exact ⟨_, _, rfl, hstep.commands, ih hrest⟩

theorem Step.MayRun.of_spells {step : Step} {cs : List Command} {c : Command} (h : step.Spells cs)
    (hc : c ∈ cs) : step.MayRun c := by
  cases step with
  | look =>
    cases h
    cases hc
  | require mode args =>
    cases h
    exact List.mem_singleton.mp hc
  | attempt mode args =>
    cases h
    exact List.mem_singleton.mp hc
  | select name =>
    rcases h with rfl | rfl
    · exact .inl (List.mem_singleton.mp hc)
    · rcases List.mem_cons.mp hc with hc | hc
      · exact .inl hc
      · exact .inr (List.mem_singleton.mp hc)
  | drain => exact h c hc
  | consent question =>
    cases h
    cases hc

theorem Step.Takes.mayRun {step : Step} {a b : Transcript T} {mode : Mode} {c : Command}
    {response : Response} {v : Verdict} (h : step.Takes (a ++ .command mode c response :: b) v) :
    step.MayRun c := by
  have hmem : c ∈ Transcript.commands (a ++ .command mode c response :: b) :=
    mem_commands.mpr ⟨mode, response, List.mem_append_right a List.mem_cons_self⟩
  exact .of_spells h.commands hmem

/-! ## Where a transcript ends -/

theorem Response.verdict_eq_ok {c : Command} {response : Response}
    (h : response.verdict c = .ok true) : ∃ out err, response = .exited 0 out err := by
  cases response with
  | missing => cases h
  | exited code out err =>
    rw [Response.verdict] at h
    split at h
    · rename_i hcode
      rw [hcode]
      exact ⟨out, err, rfl⟩
    · cases h

theorem Response.verdict_of_ne {c : Command} {code : Int} (out err : String) (h : code ≠ 0) :
    (Response.exited code out err).verdict c = .error (.exited c code) := if_neg h

theorem of_append_cons_eq_singleton {γ : Type} {a b : List γ} {x y : γ} (h : a ++ x :: b = [y]) :
    a = [] ∧ x = y ∧ b = [] := by
  obtain ⟨ha, hx, hb⟩ := eq_of_append_cons (p := fun _ => True) (A := []) (B := []) h.symm
    (fun z hz => absurd hz List.not_mem_nil)
    (fun z hz => absurd hz List.not_mem_nil) trivial
  exact ⟨ha.symm, hx.symm, hb.symm⟩

/-- A command that may not fail is the last one of its step and decides it. -/
theorem Step.Takes.of_command {step : Step} {a b : Transcript T} {mode : Mode} {c : Command}
    {response : Response} {v : Verdict} (h : step.Takes (a ++ .command mode c response :: b) v)
    (hc : ¬step.Tolerates c) : b = [] ∧ v = response.verdict c := by
  cases step with
  | look => exact absurd h.1 (List.append_ne_nil_of_right_ne_nil a (List.cons_ne_nil _ b))
  | require mode' args =>
    obtain ⟨response', ht, hv⟩ := h
    obtain ⟨-, he, hb⟩ := of_append_cons_eq_singleton ht
    cases he
    exact ⟨hb, hv⟩
  | attempt mode' args =>
    obtain ⟨response', ht, -⟩ := h
    obtain ⟨-, he, -⟩ := of_append_cons_eq_singleton ht
    cases he
    exact absurd rfl hc
  | select name =>
    obtain ⟨response', ht, -⟩ | ⟨code, out, err, response', -, ht, hv⟩ := h
    · obtain ⟨-, he, -⟩ := of_append_cons_eq_singleton ht
      cases he
      exact absurd rfl hc
    · cases a with
      | nil =>
        cases ht
        exact absurd rfl hc
      | cons e a =>
        obtain ⟨-, ht⟩ := List.cons.inj ht
        obtain ⟨-, he, hb⟩ := of_append_cons_eq_singleton ht
        cases he
        exact ⟨hb, hv⟩
  | drain =>
    have hdrain := h.1 _ (List.mem_append_right a List.mem_cons_self)
    exact absurd hdrain hc
  | consent question =>
    obtain ⟨reply, ht, -⟩ := h
    obtain ⟨-, he, -⟩ := of_append_cons_eq_singleton ht
    cases he

/-- A question that is not one of a drain is all of its step and decides it. -/
theorem Step.Takes.of_question {step : Step} {a b : Transcript T} {text : String} {reply : Reply}
    {v : Verdict} (h : step.Takes (a ++ .question text reply :: b) v)
    (htext : step = .drain → ¬IsDrainQuestion text) : b = [] ∧ v = reply.result := by
  cases step with
  | look => exact absurd h.1 (List.append_ne_nil_of_right_ne_nil a (List.cons_ne_nil _ b))
  | require mode' args =>
    obtain ⟨response', ht, -⟩ := h
    obtain ⟨-, he, -⟩ := of_append_cons_eq_singleton ht
    cases he
  | attempt mode' args =>
    obtain ⟨response', ht, -⟩ := h
    obtain ⟨-, he, -⟩ := of_append_cons_eq_singleton ht
    cases he
  | select name =>
    obtain ⟨response', ht, -⟩ | ⟨code, out, err, response', -, ht, -⟩ := h
    · obtain ⟨-, he, -⟩ := of_append_cons_eq_singleton ht
      cases he
    · cases a with
      | nil => cases ht
      | cons e a =>
        obtain ⟨-, ht⟩ := List.cons.inj ht
        obtain ⟨-, he, -⟩ := of_append_cons_eq_singleton ht
        cases he
  | drain =>
    have hdrain := h.1 _ (List.mem_append_right a List.mem_cons_self)
    exact absurd hdrain (htext rfl)
  | consent question =>
    obtain ⟨reply', ht, hv⟩ := h
    obtain ⟨-, he, hb⟩ := of_append_cons_eq_singleton ht
    cases he
    exact ⟨hb, hv⟩

/-- A command that may not fail either succeeds or is the end. -/
theorem Follows.of_command {script : Script} {t a b : Transcript T} {mode : Mode} {c : Command}
    {response : Response} {v : Verdict} (h : Follows script t v)
    (ht : t = a ++ .command mode c response :: b) (hc : ∀ step ∈ script, ¬step.Tolerates c) :
    response.verdict c = .ok true ∨ b = [] ∧ v = response.verdict c := by
  obtain ⟨A, step, B, a₁, a₂, b₁, b₂, w, rfl, -, rfl, -, htakes, hend⟩ := h.locate ht
  obtain ⟨rfl, rfl⟩ := htakes.of_command
    (hc step (List.mem_append_right A List.mem_cons_self))
  obtain ⟨-, rfl, rfl⟩ | ⟨hok, -⟩ := hend
  · exact .inr ⟨rfl, rfl⟩
  · exact .inl hok

/-- A failure that no step tolerates is the end. -/
theorem Follows.of_failed {script : Script} {t a b : Transcript T} {mode : Mode} {c : Command}
    {code : Int} {out err : String} {v : Verdict} (h : Follows script t v)
    (ht : t = a ++ .command mode c (.exited code out err) :: b) (hcode : code ≠ 0)
    (hc : ∀ step ∈ script, ¬step.Tolerates c) : b = [] ∧ v = .error (.exited c code) := by
  have hlast := h.of_command ht hc
  rw [Response.verdict_of_ne out err hcode] at hlast
  rcases hlast with hok | hend
  · cases hok
  · exact hend

theorem Follows.of_question {script : Script} {t a b : Transcript T} {text : String} {reply : Reply}
    {v : Verdict} (h : Follows script t v) (ht : t = a ++ .question text reply :: b)
    (htext : .drain ∈ script → ¬IsDrainQuestion text) :
    reply.result = .ok true ∨ b = [] ∧ v = reply.result := by
  obtain ⟨A, step, B, a₁, a₂, b₁, b₂, w, rfl, -, rfl, -, htakes, hend⟩ := h.locate ht
  obtain ⟨rfl, rfl⟩ := htakes.of_question fun hstep =>
    htext (List.mem_append_right A (hstep ▸ List.mem_cons_self))
  obtain ⟨-, rfl, rfl⟩ | ⟨hok, -⟩ := hend
  · exact .inr ⟨rfl, rfl⟩
  · exact .inl hok

/-- And so is a refusal. -/
theorem Follows.of_refused {script : Script} {t a b : Transcript T} {text : String}
    {typed : List String} {v : Verdict} (h : Follows script t v)
    (ht : t = a ++ .question text ⟨typed, some false⟩ :: b)
    (htext : .drain ∈ script → ¬IsDrainQuestion text) : b = [] ∧ v = .ok false := by
  rcases h.of_question ht htext with hok | hend
  · cases hok
  · exact hend

/-- A command that only one step may run is that of this step.  Everything in front has
passed, and what comes behind is there only if it has succeeded. -/
theorem Follows.of_require {front back : Script} {t a b : Transcript T} {mode mode' : Mode}
    {args : List String} {c : Command} {response : Response} {v : Verdict} {p : Command → Prop}
    (h : Follows (front ++ .require mode args :: back) t v)
    (ht : t = a ++ .command mode' c response :: b) (hc : p c)
    (hfront : ∀ step ∈ front, ∀ c, step.MayRun c → ¬p c)
    (hback : ∀ step ∈ back, ∀ c, step.MayRun c → ¬p c) :
    c = "terraform" :: args ∧ Follows front a (.ok true) ∧
      (response.verdict c = .ok true ∧ Follows back b v ∨
        response.verdict c ≠ .ok true ∧ b = [] ∧ v = response.verdict c) := by
  obtain ⟨A, step, B, a₁, a₂, b₁, b₂, w, hscript, rfl, rfl, hA, htakes, hend⟩ := h.locate ht
  have hrun : step.MayRun c := htakes.mayRun
  have hnone : ∀ {part : Script}, (∀ step ∈ part, ∀ c, step.MayRun c → ¬p c) →
      ∀ step ∈ part, ¬∃ c, step.MayRun c ∧ p c := by
    intro part hpart step hstep hmay
    obtain ⟨c, hc, hp⟩ := hmay
    exact hpart step hstep c hc hp
  obtain ⟨rfl, rfl, rfl⟩ := eq_of_append_cons hscript (hnone hfront) (hnone hback) ⟨c, hrun, hc⟩
  obtain ⟨response', hu, hw⟩ := htakes
  obtain ⟨rfl, he, rfl⟩ := of_append_cons_eq_singleton hu
  cases he
  rw [List.append_nil, List.nil_append, ← hw]
  refine ⟨rfl, hA, ?_⟩
  rcases hend with ⟨hne, hb, hv⟩ | hok
  · exact .inr ⟨hne, hb, hv⟩
  · exact .inl hok

/-- What has been run up to the end of a script that has passed has succeeded, if it had to. -/
theorem Follows.succeeded {script : Script} {t : Transcript T} {mode : Mode} {c : Command}
    {response : Response} (h : Follows script t (.ok true)) (he : .command mode c response ∈ t)
    (hc : ∀ step ∈ script, ¬step.Tolerates c) : ∃ out err, response = .exited 0 out err := by
  obtain ⟨a, b, ht⟩ := List.append_of_mem he
  rcases h.of_command ht hc with hok | ⟨-, hok⟩
  · exact Response.verdict_eq_ok hok
  · exact Response.verdict_eq_ok hok.symm

/-- Behind a script that has passed every command that had to succeed has. -/
theorem Follows.exited_of_mem {script : Script} {t : Transcript T} {mode : Mode}
    {args : List String} (h : Follows script t (.ok true)) (hmem : .require mode args ∈ script) :
    ∃ e ∈ t, e.Exited ("terraform" :: args) 0 := by
  obtain ⟨a, u, b, rfl, response, rfl, hv⟩ := h.takes_of_mem hmem
  obtain ⟨out, err, rfl⟩ := Response.verdict_eq_ok hv.symm
  refine ⟨_, List.mem_append_left b (List.mem_append_right a List.mem_cons_self), ?_⟩
  exact ⟨mode, out, err, rfl⟩

/-- Behind a script that has passed every question has been answered with yes. -/
theorem Follows.agreed_of_mem {script : Script} {t : Transcript T} {question : String}
    (h : Follows script t (.ok true)) (hmem : .consent question ∈ script) :
    ∃ typed, .question question ⟨typed, some true⟩ ∈ t := by
  obtain ⟨a, u, b, rfl, ⟨typed, decision⟩, rfl, hv⟩ := h.takes_of_mem hmem
  cases decision with
  | none => cases hv
  | some yes =>
    cases hv
    exact ⟨typed, List.mem_append_left b (List.mem_append_right a List.mem_cons_self)⟩

/-- Only a command that has failed makes a script stop with its code. -/
theorem Step.Takes.of_exited {step : Step} {t : Transcript T} {c : Command} {code : Int}
    (h : step.Takes t (.error (.exited c code))) :
    code ≠ 0 ∧ ∃ before e, t = before ++ [e] ∧ e.Exited c code := by
  have hresponse : ∀ {c' : Command} {response : Response},
      Except.error (.exited c code) = response.verdict c' →
        c = c' ∧ code ≠ 0 ∧ ∃ out err, response = .exited code out err := by
    intro c' response hv
    cases response with
    | missing => cases hv
    | exited code' out err =>
      rw [Response.verdict] at hv
      split at hv
      · cases hv
      · rename_i hcode
        cases hv
        exact ⟨rfl, hcode, out, err, rfl⟩
  cases step with
  | look =>
    obtain ⟨-, hv | ⟨f, hf, hnone⟩⟩ := h
    · cases hv
    · cases hf
      cases hnone
  | require mode args =>
    obtain ⟨response, rfl, hv⟩ := h
    obtain ⟨rfl, hcode, out, err, rfl⟩ := hresponse hv
    exact ⟨hcode, [], _, rfl, mode, out, err, rfl⟩
  | attempt mode args =>
    obtain ⟨response, -, hv⟩ := h
    cases response with
    | missing => cases hv
    | exited code out err => cases mode <;> cases hv
  | select name =>
    obtain ⟨response, -, hv, hne⟩ | ⟨code', out', err', response, -, rfl, hv⟩ := h
    · obtain ⟨rfl, -, -⟩ := hresponse hv
      exact absurd rfl (hne code)
    · obtain ⟨rfl, hcode, out, err, rfl⟩ := hresponse hv
      exact ⟨hcode, [_], _, rfl, .stream, out, err, rfl⟩
  | drain =>
    obtain ⟨-, hv | ⟨f, hf, hnone⟩⟩ := h
    · cases hv
    · cases hf
      cases hnone
  | consent question =>
    obtain ⟨⟨typed, decision⟩, -, hv⟩ := h
    cases decision <;> cases hv

theorem Follows.of_exited {script : Script} {t : Transcript T} {c : Command} {code : Int}
    (h : Follows script t (.error (.exited c code))) :
    code ≠ 0 ∧ ∃ before e, t = before ++ [e] ∧ e.Exited c code := by
  induction script generalizing t with
  | nil => cases h
  | cons step rest ih =>
    cases h with
    | stop hstep _ => exact hstep.of_exited
    | next _ hrest =>
      rename_i u w _
      obtain ⟨hcode, before, e, rfl, he⟩ := ih hrest
      exact ⟨hcode, u ++ before, e, (List.append_assoc _ _ _).symm, he⟩

/-- Only a refusal makes a script stop without a failure. -/
theorem Step.Takes.of_declined {step : Step} {t : Transcript T} (h : step.Takes t (.ok false)) :
    ∃ text typed, t = [.question text ⟨typed, some false⟩] := by
  have hresponse : ∀ (c : Command) (response : Response), Except.ok false ≠ response.verdict c := by
    intro c response hv
    cases response with
    | missing => cases hv
    | exited code out err =>
      rw [Response.verdict] at hv
      split at hv <;> cases hv
  cases step with
  | look =>
    obtain ⟨-, hv | ⟨f, hf, -⟩⟩ := h
    · cases hv
    · cases hf
  | require mode args =>
    obtain ⟨response, -, hv⟩ := h
    exact absurd hv (hresponse _ response)
  | attempt mode args =>
    obtain ⟨response, -, hv⟩ := h
    cases response with
    | missing => cases hv
    | exited code out err => cases mode <;> cases hv
  | select name =>
    obtain ⟨response, -, hv, -⟩ | ⟨-, -, -, response, -, -, hv⟩ := h
    · exact absurd hv (hresponse _ response)
    · exact absurd hv (hresponse _ response)
  | drain =>
    obtain ⟨-, hv | ⟨f, hf, -⟩⟩ := h
    · cases hv
    · cases hf
  | consent question =>
    obtain ⟨⟨typed, decision⟩, rfl, hv⟩ := h
    cases decision with
    | none => cases hv
    | some b =>
      cases hv
      exact ⟨question, typed, rfl⟩

theorem Follows.of_declined {script : Script} {t : Transcript T}
    (h : Follows script t (.ok false)) :
    ∃ before text typed, t = before ++ [.question text ⟨typed, some false⟩] := by
  induction script generalizing t with
  | nil => cases h
  | cons step rest ih =>
    cases h with
    | stop hstep _ =>
      obtain ⟨text, typed, rfl⟩ := hstep.of_declined
      exact ⟨[], text, typed, rfl⟩
    | next _ hrest =>
      rename_i u w _
      obtain ⟨before, text, typed, rfl⟩ := ih hrest
      exact ⟨u ++ before, text, typed, (List.append_assoc _ _ _).symm⟩

/-! ## Workspaces -/

theorem createCommand_ne (name other : String) : createCommand name ≠ selectCommand other := by
  intro h
  simp [createCommand, selectCommand] at h

/-- A workspace is made if and only if it could not be selected, provided that nothing but
its selection touches it. -/
theorem Follows.created_iff {script : Script} {t : Transcript T} {v : Verdict}
    (h : Follows script t v) {name : String}
    (hscript : ∀ step ∈ script, step.MayRun (selectCommand name) ∨ step.MayRun (createCommand name) →
      step = .select name) :
    createCommand name ∈ t.commands ↔
      ∃ e ∈ t, ∃ code, code ≠ 0 ∧ e.Exited (selectCommand name) code := by
  constructor
  · intro hmem
    obtain ⟨mode, response, he⟩ := mem_commands.mp hmem
    obtain ⟨a, b, ht⟩ := List.append_of_mem he
    obtain ⟨A, step, B, a₁, a₂, b₁, b₂, w, rfl, rfl, -, -, htakes, -⟩ := h.locate ht
    have hrun : step.MayRun (createCommand name) := htakes.mayRun
    obtain rfl := hscript step (List.mem_append_right A List.mem_cons_self) (.inr hrun)
    obtain ⟨response', hu, -⟩ | ⟨code, out, err, response', hcode, hu, -⟩ := htakes
    · obtain ⟨-, he, -⟩ := of_append_cons_eq_singleton hu
      exact absurd (Exchange.command.inj he).2.1 (createCommand_ne name name)
    · cases a₂ with
      | nil =>
        obtain ⟨he, -⟩ := List.cons.inj hu
        exact absurd (Exchange.command.inj he).2.1 (createCommand_ne name name)
      | cons e a₂ =>
        obtain ⟨rfl, -⟩ := List.cons.inj hu
        refine ⟨_, ?_, code, hcode, .capture, out, err, rfl⟩
        rw [ht]
        exact List.mem_append_left _ (List.mem_append_right a₁ List.mem_cons_self)
  · intro hfailed
    obtain ⟨e, he, code, hcode, mode, out, err, rfl⟩ := hfailed
    obtain ⟨a, b, ht⟩ := List.append_of_mem he
    obtain ⟨A, step, B, a₁, a₂, b₁, b₂, w, rfl, rfl, rfl, -, htakes, -⟩ := h.locate ht
    have hrun : step.MayRun (selectCommand name) := htakes.mayRun
    obtain rfl := hscript step (List.mem_append_right A List.mem_cons_self) (.inl hrun)
    obtain ⟨response', hu, hv, hne⟩ | ⟨code', out', err', response', -, hu, -⟩ := htakes
    · obtain ⟨-, he, -⟩ := of_append_cons_eq_singleton hu
      cases he
      rw [Response.verdict_of_ne out err hcode] at hv
      exact absurd hv (hne code)
    · refine mem_commands.mpr ⟨.stream, response', ?_⟩
      have hmem : Exchange.command .stream (createCommand name) response' ∈
          a₂ ++ Exchange.command mode (selectCommand name) (.exited code out err) :: b₁ := by
        rw [hu]
        exact List.mem_cons_of_mem _ List.mem_cons_self
      rw [ht, List.append_assoc]
      refine List.mem_append_right a₁ ?_
      rcases List.mem_append.mp hmem with hleft | hright
      · exact List.mem_append_left _ hleft
      · refine List.mem_append_right a₂ ?_
        rw [← List.cons_append]
        exact List.mem_append_left b₂ hright

end Rollout
end Groundplan
