/-
What provisioning does, whatever its commands and the user answer.

The script of provisioning ends with the command whose output is saved, and saving is
what is beyond it.  Every property of `IsProvisioning` is read off the place that an
exchange has in the script: `Follows.locate` gives the step, the steps in front of it
have passed, and the script is written down.
-/
import Groundplan.Proofs.Rollout.Verdict
import Groundplan.Proofs.Storage.Frame

namespace Groundplan
namespace Rollout

open Storage

variable {T S : Type}

/-! ## What is claimed -/

namespace Setup

variable (s : Setup T S)

def planCommand : Command := ["terraform", "plan", "-out=tfplan"]

def applyCommand : Command :=
  if s.autoApprove then ["terraform", "apply", "-auto-approve", "tfplan"]
  else ["terraform", "apply", "tfplan"]

def outputCommand : Command := ["terraform", "output"]

def resultsCommand : Command := ["terraform", "output", "-json"]

def applyQuestion : String := "Do you want to perform these actions?"

/-- The whole course of provisioning. -/
def provisioningCommands (made : Bool) : List Command :=
  s.preparationCommands made ++ [planCommand, s.applyCommand, outputCommand, resultsCommand]

/-- The whole course has been gone through, no command but a selection has failed, and
the last one has printed the results. -/
def HasResults (t : Transcript T) (results : String) : Prop :=
  (∃ made, t.commands = s.provisioningCommands made) ∧
    (∀ mode c response, .command mode c response ∈ t →
      (∃ name, c = selectCommand name) ∨ ∃ out err, response = .exited 0 out err) ∧
    ∃ before mode err, t = before ++ [.command mode resultsCommand (.exited 0 results err)]

structure IsProvisioning (d : Disk) (t : Transcript T) (res : Except Failure Int) (d' : Disk) :
    Prop where
  order : ∃ made, t.commands <+: s.provisioningCommands made
  /-- A workspace is made if and only if it could not be selected. -/
  creation : ∀ name, createCommand name ∈ t.commands ↔
    ∃ e ∈ t, ∃ code, code ≠ 0 ∧ e.Exited (selectCommand name) code
  /-- Nothing comes after a command that fails, and its code is the result. -/
  stops : ∀ before e after c code, t = before ++ e :: after → e.Exited c code → code ≠ 0 →
    (∀ name, c ≠ selectCommand name) → after = [] ∧ res = .ok code
  once : (t.commands.filter isApply).length ≤ 1
  /-- What is deployed only changes after everything before has succeeded and there is
  consent. -/
  approval : ∀ before mode c response after, t = before ++ .command mode c response :: after →
    isApply c = true → c = s.applyCommand ∧
      (∀ mode c response, .command mode c response ∈ before →
        (∃ name, c = selectCommand name) ∨ ∃ out err, response = .exited 0 out err) ∧
      (s.autoApprove = true ∨ ∃ first plan typed,
        before = first ++ [plan, .question applyQuestion ⟨typed, some true⟩] ∧
          plan.Exited planCommand 0)
  /-- An exit code is zero after a complete course or a refusal, and otherwise that of the
  last command. -/
  code : ∀ code, res = .ok code →
    code = 0 ∧ ((∃ results, s.HasResults t results) ∨
      ∃ before text typed, t = before ++ [.question text ⟨typed, some false⟩]) ∨
    code ≠ 0 ∧ ∃ before e c, t = before ++ [e] ∧ e.Exited c code
  /-- Refusing consent is no failure. -/
  declined : ∀ before text typed after, t = before ++ .question text ⟨typed, some false⟩ :: after →
    after = [] ∧ res = .ok 0 ∧ d' = d
  /-- The results are saved if and only if there are any and the file can be written. -/
  saved : (∃ results, s.HasResults t results ∧ Disk.Wrote s.outputs results d d' ∧ res = .ok 0) ∨
    d' = d ∧ ∀ results, s.HasResults t results →
      ∃ e, d.writeText s.outputs results = .error e ∧ res = .error (.storage ⟨e, s.outputs⟩)

/-! ## The script -/

/-- Consent to the plan is asked for unless it was given in advance. -/
def approval (question : String) : Script := if s.autoApprove then [] else [.consent question]

def applyArguments : List String :=
  if s.autoApprove then ["apply", "-auto-approve", "tfplan"] else ["apply", "tfplan"]

/-- Everything up to the first printing of the results. -/
def planning : Script :=
  s.preparation ++ ([.require .stream ["plan", "-out=tfplan"]] ++ ((s.approval applyQuestion ++
    [.require .stream s.applyArguments]) ++ [.require .stream ["output"]]))

/-- What is beyond the planning: the results are asked for and saved. -/
def Saves : Assertion T Bool := fun d t v d' =>
  ∃ response, t = [.command .capture resultsCommand response] ∧
    ((∃ e, response.verdict resultsCommand = .error e ∧ v = .error e ∧ d' = d) ∨
      ∃ out err, response = .exited 0 out err ∧
        (d.writeText s.outputs out = .ok d' ∧ v = .ok true ∨
          ∃ e, d.writeText s.outputs out = .error e ∧ d' = d ∧
            v = .error (.storage ⟨e, s.outputs⟩)))

theorem apply_carries : Carries s s.apply id
    (s.approval applyQuestion ++ [.require .stream s.applyArguments]) := by
  have happly : ∀ args, Carries s (do
      let _ ← s.require .stream args
      notice .success "Terraform deployment completed successfully!"
      pure true) id ([.require .stream args] ++ []) :=
    fun args => .bind (.require .stream args) fun _ => .silent_bind (.notice _ _) fun _ => .pure rfl
  refine .silent_bind (.title _) fun _ => ?_
  rw [approval, applyArguments]
  dsimp only
  split
  · exact happly ["apply", "-auto-approve", planFile]
  · refine Carries.consent_bind (.ok false) (.consent applyQuestion)
      (happly ["apply", planFile]) ?_ ?_ ?_ ?_
    · exact (IsSilent.info _).bind_keeps fun _ => .pure fun d => ⟨rfl, rfl, rfl⟩
    · intro d t e ht
      exact ⟨rfl, ht.append_of_ne _ error_ne_ok⟩
    · intro d t ht
      exact ⟨rfl, ht.append_of_ne _ refused_ne⟩
    · intro d t u res d' ht hu
      exact ⟨hu.1, ht.append hu.2⟩

theorem write_keeps (text message : String) :
    Keeps s (do
        onDisk s.outputs fun d => d.writeText s.outputs text
        info message
        pure true)
      fun d t v d' => t = [] ∧ (d.writeText s.outputs text = .ok d' ∧ v = .ok true ∨
        ∃ e, d.writeText s.outputs text = .error e ∧ d' = d ∧
          v = .error (.storage ⟨e, s.outputs⟩)) := by
  refine Keeps.bind (P := fun d t res d' => t = [] ∧
      (d.writeText s.outputs text = .ok d' ∧ res = .ok () ∨
        ∃ e, d.writeText s.outputs text = .error e ∧ d' = d ∧
          res = .error (.storage ⟨e, s.outputs⟩)))
    (R := fun _ d t v d' => t = [] ∧ v = .ok true ∧ d' = d) ?_ ?_ ?_ ?_
  · exact .onDisk (fun d d' h => ⟨rfl, .inl ⟨h, rfl⟩⟩) fun d e h => ⟨rfl, .inr ⟨e, h, rfl, rfl⟩⟩
  · intro _
    exact (IsSilent.info _).bind_keeps fun _ => .pure fun d => ⟨rfl, rfl, rfl⟩
  · intro d t e d' hfailed
    obtain ⟨ht, ⟨-, h⟩ | ⟨e', he, hd, h⟩⟩ := hfailed
    · cases h
    · cases h
      exact ⟨ht, .inr ⟨e', he, hd, rfl⟩⟩
  · intro d t a d₁ u v d' hfirst hsecond
    obtain ⟨rfl, ⟨hwrite, -⟩ | ⟨e, -, -, h⟩⟩ := hfirst
    obtain ⟨rfl, rfl, rfl⟩ := hsecond
    · exact ⟨rfl, .inl ⟨hwrite, rfl⟩⟩
    · cases h

theorem saveOutputs_keeps :
    Keeps s (do s.saveOutputs; pure true) (Beyond [.require .stream ["output"]] s.Saves) := by
  rw [saveOutputs]
  simp only [bind_assoc]
  refine (IsSilent.title _).bind_keeps fun _ => ?_
  refine Carries.bind_beyond (B := []) (.require .stream ["output"]) fun _ => ?_
  refine Keeps.bind (Keeps.require s .capture ["output", "-json"])
    (fun results => write_keeps s results.out _) ?_ ?_
  · intro d t e d' hfailed
    obtain ⟨response, ht, hres, hd⟩ := hfailed
    refine .inr ⟨[], t, rfl, .done, response, ht, .inl ⟨e, ?_, rfl, hd⟩⟩
    rw [← Response.map_checked .capture, resultsCommand, ← hres]
    rfl
  · intro d t o d₁ u v d' hfirst hsecond
    obtain ⟨response, rfl, hres, rfl⟩ := hfirst
    obtain ⟨rfl, hwrite⟩ := hsecond
    obtain ⟨err, rfl⟩ := Response.exited_of_checked hres.symm
    exact .inr ⟨[], _, rfl, .done, _, rfl, .inr ⟨o.out, err, rfl, hwrite⟩⟩

theorem provision_keeps : Keeps s s.provision (Beyond s.planning s.Saves) := by
  refine Carries.bind_beyond (.prepare s) fun _ => (IsSilent.title _).bind_keeps fun _ => ?_
  refine Carries.bind_beyond (.require .stream _) fun _ => ?_
  refine Carries.consent_bind_beyond (apply_carries s) (saveOutputs_keeps s) ?_
  exact .pure fun d => ⟨rfl, rfl, rfl⟩

/-- Provisioning keeps to its script, and its exit code is what the verdict settles to. -/
theorem deploy_keeps_script :
    Keeps s s.deploy (Settled (Beyond ([.look] ++ s.planning) s.Saves)) := by
  refine Carries.checkPreconditions_bind ?_
  refine Keeps.orExitCode_bind _ (provision_keeps s) (fun _ => rfl)
    (R := fun _ d t res d' => t = [] ∧ res = .ok 0 ∧ d' = d) ?_ ?_ ?_
  · intro b
    cases b with
    | false => exact .pure fun d => ⟨rfl, rfl, rfl⟩
    | true =>
      refine (IsSilent.title _).bind_keeps fun _ => (IsSilent.info _).bind_keeps fun _ => ?_
      refine (IsSilent.info _).bind_keeps fun _ => (IsSilent.info _).bind_keeps fun _ => ?_
      exact .pure fun d => ⟨rfl, rfl, rfl⟩
  · intro d t e d' h
    exact ⟨.error e, rfl, h⟩
  · intro d t b d₁ u res d' h hsecond
    obtain ⟨rfl, rfl, rfl⟩ := hsecond
    rw [List.append_nil]
    exact ⟨.ok b, rfl, h⟩

/-! ## Places in the script -/

/-- Everything before what is deployed changes. -/
def planned : Script :=
  ([.look] ++ (s.preparation ++ [.require .stream ["plan", "-out=tfplan"]])) ++
    s.approval applyQuestion

/-- The whole script, with the command whose output is saved. -/
def provisioning : Script :=
  s.planned ++ (.require .stream s.applyArguments ::
    [.require .stream ["output"], .require .capture ["output", "-json"]])

theorem provisioning_eq : s.provisioning =
    ([.look] ++ s.planning) ++ [.require .capture ["output", "-json"]] := by
  simp only [provisioning, planned, planning, List.append_assoc, List.cons_append, List.nil_append]

theorem applyCommand_eq : s.applyCommand = "terraform" :: s.applyArguments := by
  rw [applyCommand, applyArguments]
  split <;> rfl

theorem mem_approval {question : String} {step : Step} (h : step ∈ s.approval question) :
    step = .consent question := by
  rw [approval] at h
  split at h
  · cases h
  · exact List.mem_singleton.mp h

theorem mem_planned {step : Step} (h : step ∈ s.planned) :
    step = .look ∨ step ∈ s.preparation ∨ step = .require .stream ["plan", "-out=tfplan"] ∨
      step = .consent applyQuestion := by
  rcases List.mem_append.mp h with h | h
  · rcases List.mem_append.mp h with h | h
    · exact .inl (List.mem_singleton.mp h)
    · rcases List.mem_append.mp h with h | h
      · exact .inr (.inl h)
      · exact .inr (.inr (.inl (List.mem_singleton.mp h)))
  · exact .inr (.inr (.inr (s.mem_approval h)))

theorem mem_provisioning {step : Step} (h : step ∈ s.provisioning) :
    step ∈ s.planned ∨ ∃ mode args, step = .require mode args ∧
      args ∈ [s.applyArguments, ["output"], ["output", "-json"]] := by
  rcases List.mem_append.mp h with h | h
  · exact .inl h
  · simp only [List.mem_cons, List.not_mem_nil, or_false] at h
    rcases h with rfl | rfl | rfl <;> exact .inr ⟨_, _, rfl, by simp⟩

theorem tolerated_of_mem_provisioning {step : Step} {c : Command} (h : step ∈ s.provisioning)
    (hc : step.Tolerates c) : ∃ name, c = selectCommand name := by
  rcases s.mem_provisioning h with h | ⟨mode, args, rfl, -⟩
  · rcases s.mem_planned h with rfl | h | rfl | rfl
    · exact hc.elim
    · exact s.tolerated_of_mem_preparation h hc
    · exact hc.elim
    · exact hc.elim
  · exact hc.elim

theorem eq_select_of_mem_provisioning {step : Step} {name : String} (h : step ∈ s.provisioning)
    (hrun : step.MayRun (selectCommand name) ∨ step.MayRun (createCommand name)) :
    step = .select name := by
  rcases s.mem_provisioning h with h | ⟨mode, args, rfl, hargs⟩
  · rcases s.mem_planned h with rfl | h | rfl | rfl
    · exact (or_self_iff.mp hrun).elim
    · exact s.eq_select_of_mem_preparation h hrun
    · simp [Step.MayRun, selectCommand, createCommand] at hrun
    · exact (or_self_iff.mp hrun).elim
  · have hhead : args.head? ≠ some "workspace" := by
      simp only [List.mem_cons, List.not_mem_nil, or_false, applyArguments] at hargs
      rcases hargs with rfl | rfl | rfl
      · split <;> decide
      · decide
      · decide
    simp only [Step.MayRun, selectCommand, createCommand, List.cons.injEq, true_and] at hrun
    rcases hrun with rfl | rfl <;> exact absurd rfl hhead

theorem drain_not_mem_provisioning : .drain ∉ s.provisioning := by
  intro h
  rcases s.mem_provisioning h with h | ⟨mode, args, h, -⟩
  · rcases s.mem_planned h with h | h | h | h
    · cases h
    · exact s.drain_not_mem_preparation h
    · cases h
    · cases h
  · cases h

theorem subcommand_of_mem_planned {step : Step} {c : Command} (h : step ∈ s.planned)
    (hc : step.MayRun c) :
    subcommand c ∈ ["init", "workspace", "validate", "plan"] := by
  rcases s.mem_planned h with rfl | h | rfl | rfl
  · exact hc.elim
  · have hmem := s.subcommand_of_mem_preparation h hc
    exact List.mem_append_left ["plan"] hmem
  · cases hc
    decide
  · exact hc.elim

theorem spells_approval {question : String} {cs : List Command}
    (h : (s.approval question).Spells cs) : cs = [] := by
  rw [approval] at h
  split at h
  · exact h
  · obtain ⟨first, others, rfl, rfl, rfl⟩ := h
    rfl

theorem spells_provisioning {cs : List Command} (h : s.provisioning.Spells cs) :
    ∃ made, cs = s.provisioningCommands made := by
  obtain ⟨front, last, rfl, hfront, hlast⟩ := Script.spells_append h
  obtain ⟨front, asked, rfl, hfront, hasked⟩ := Script.spells_append hfront
  obtain ⟨first, front, rfl, hfirst, hfront⟩ := Script.spells_append hfront
  obtain ⟨prepared, plan, rfl, hprepared, hplan⟩ := Script.spells_append hfront
  obtain ⟨made, rfl⟩ := s.spells_preparation hprepared
  obtain ⟨_, _, rfl, rfl, rfl⟩ := hfirst
  obtain ⟨_, _, rfl, rfl, rfl⟩ := hplan
  obtain ⟨_, _, rfl, rfl, _, _, rfl, rfl, _, _, rfl, rfl, rfl⟩ := hlast
  rw [s.spells_approval hasked, ← applyCommand_eq]
  refine ⟨made, ?_⟩
  simp only [provisioningCommands, planCommand, outputCommand, resultsCommand, List.nil_append,
    List.append_nil, List.append_assoc, List.cons_append]

/-! ## Consequences -/

/-- Before what is deployed changes, there is consent to the plan. -/
theorem consent_of_follows {s : Setup T S} {t : Transcript T} (h : Follows s.planned t (.ok true)) :
    s.autoApprove = true ∨ ∃ first plan typed,
      t = first ++ [plan, .question applyQuestion ⟨typed, some true⟩] ∧ plan.Exited planCommand 0 := by
  by_cases hauto : s.autoApprove = true
  · exact .inl hauto
  · obtain ⟨front, asked, rfl, hfront, hasked⟩ := h.of_append
    rw [approval, if_neg hauto] at hasked
    obtain ⟨⟨typed, decision⟩, rfl, hreply⟩ := hasked.takes
    obtain ⟨first, rest, rfl, -, hrest⟩ := hfront.of_append
    obtain ⟨prepared, plan, rfl, -, hplan⟩ := hrest.of_append
    obtain ⟨response, rfl, hresponse⟩ := hplan.takes
    obtain ⟨out, err, rfl⟩ := Response.verdict_eq_ok hresponse.symm
    have hdecision : decision = some true := by
      cases decision with
      | none => cases hreply
      | some b =>
        cases hreply
        rfl
    rw [hdecision]
    refine .inr ⟨first ++ prepared, _, typed, ?_, .stream, out, err, rfl⟩
    simp only [List.append_assoc, List.cons_append, List.nil_append, planCommand]

section

variable {s} {t : Transcript T} {w : Verdict} (h : Follows s.provisioning t w)

include h

theorem order_of_follows : ∃ made, t.commands <+: s.provisioningCommands made := by
  obtain ⟨cs, hcs, hle⟩ := h.commands
  obtain ⟨made, rfl⟩ := s.spells_provisioning hcs
  exact ⟨made, hle⟩

theorem once_of_follows : (t.commands.filter isApply).length ≤ 1 := by
  obtain ⟨made, hle⟩ := order_of_follows h
  have hall : (s.provisioningCommands made).filter isApply = [s.applyCommand] := by
    rw [provisioningCommands, List.filter_append, filter_preparationCommands, applyCommand]
    split <;> decide
  have hlength := (hle.filter isApply).length_le
  rw [hall] at hlength
  exact hlength

theorem succeeded_of_follows {before after : Transcript T} {e : Exchange T}
    (ht : t = before ++ e :: after) {mode : Mode} {c : Command} {response : Response}
    (hmem : .command mode c response ∈ before) :
    (∃ name, c = selectCommand name) ∨ ∃ out err, response = .exited 0 out err := by
  by_cases hc : ∃ name, c = selectCommand name
  · exact .inl hc
  · obtain ⟨a, b, rfl⟩ := List.append_of_mem hmem
    rw [List.append_assoc, List.cons_append] at ht
    have htolerated : ∀ step ∈ s.provisioning, ¬step.Tolerates c :=
      fun step hstep htolerated => hc (s.tolerated_of_mem_provisioning hstep htolerated)
    rcases h.of_command ht htolerated with hok | ⟨hnil, -⟩
    · exact .inr (Response.verdict_eq_ok hok)
    · exact absurd hnil (List.append_ne_nil_of_right_ne_nil b (List.cons_ne_nil e after))

theorem approval_of_follows {before after : Transcript T} {mode : Mode} {c : Command}
    {response : Response} (ht : t = before ++ .command mode c response :: after)
    (hc : isApply c = true) : c = s.applyCommand ∧ (s.autoApprove = true ∨ ∃ first plan typed,
      before = first ++ [plan, .question applyQuestion ⟨typed, some true⟩] ∧
        plan.Exited planCommand 0) := by
  have hfront : ∀ step ∈ s.planned, ∀ c, step.MayRun c → ¬isApply c = true := by
    intro step hstep c hc happly
    have hmem := s.subcommand_of_mem_planned hstep hc
    rw [subcommand_of_isApply happly] at hmem
    exact absurd hmem (by decide)
  have hback : ∀ step ∈ [Step.require .stream ["output"], .require .capture ["output", "-json"]],
      ∀ c, step.MayRun c → ¬isApply c = true := by
    intro step hstep c hc happly
    simp only [List.mem_cons, List.not_mem_nil, or_false] at hstep
    rcases hstep with rfl | rfl <;> cases hc <;> exact absurd happly (by decide)
  obtain ⟨hcommand, hplanned, -⟩ := h.of_require ht hc hfront hback
  exact ⟨hcommand.trans s.applyCommand_eq.symm, consent_of_follows hplanned⟩

theorem results_of_follows {before : Transcript T} {mode : Mode} {out err : String}
    (ht : t = before ++ [.command mode resultsCommand (.exited 0 out err)]) : w = .ok true := by
  have hsplit : s.provisioning =
      (s.planned ++ [.require .stream s.applyArguments, .require .stream ["output"]]) ++
        [.require .capture ["output", "-json"]] := by
    rw [provisioning, List.append_assoc]
    rfl
  have hfront : ∀ step ∈ s.planned ++ [.require .stream s.applyArguments, .require .stream ["output"]],
      ∀ c, step.MayRun c → c ≠ resultsCommand := by
    intro step hstep c hrun hc
    rw [hc] at hrun
    rcases List.mem_append.mp hstep with hstep | hstep
    · exact absurd (s.subcommand_of_mem_planned hstep hrun) (by decide)
    · simp only [List.mem_cons, List.not_mem_nil, or_false] at hstep
      rcases hstep with rfl | rfl
      · rw [Step.MayRun, ← applyCommand_eq, applyCommand] at hrun
        split at hrun <;> exact absurd hrun (by decide)
      · have heq : resultsCommand = outputCommand := hrun
        exact absurd heq (by decide)
  rw [hsplit] at h
  obtain ⟨-, -, ⟨-, hend⟩ | ⟨hne, -⟩⟩ := h.of_require ht (p := (· = resultsCommand)) rfl hfront
    fun step hstep => absurd hstep List.not_mem_nil
  · cases hend
    rfl
  · exact absurd rfl hne

end

theorem hasResults_of_follows {s : Setup T S} {t before : Transcript T} {mode : Mode}
    {out err : String} (h : Follows s.provisioning t (.ok true))
    (ht : t = before ++ [.command mode resultsCommand (.exited 0 out err)]) :
    s.HasResults t out := by
  refine ⟨s.spells_provisioning h.commands_of_ok, ?_, before, mode, err, ht⟩
  intro mode c response hmem
  by_cases hc : ∃ name, c = selectCommand name
  · exact .inl hc
  · refine .inr (h.succeeded hmem fun step hstep htolerated => hc ?_)
    exact s.tolerated_of_mem_provisioning hstep htolerated

/-- Beyond its script provisioning only saves what the last command has printed. -/
theorem follows_of_beyond {s : Setup T S} {d d' : Disk} {t : Transcript T} {v : Verdict}
    (h : Beyond ([.look] ++ s.planning) s.Saves d t v d') : ∃ w, Follows s.provisioning t w ∧
      ((w ≠ .ok true ∧ v = w ∧ d' = d) ∨ w = .ok true ∧ ∃ before out err,
        t = before ++ [.command .capture resultsCommand (.exited 0 out err)] ∧
          (d.writeText s.outputs out = .ok d' ∧ v = .ok true ∨
            ∃ e, d.writeText s.outputs out = .error e ∧ d' = d ∧
              v = .error (.storage ⟨e, s.outputs⟩))) := by
  rw [provisioning_eq]
  obtain ⟨hv, ht, hd⟩ | ⟨t₁, t₂, rfl, ht₁, response, rfl, hsaves⟩ := h
  · exact ⟨v, ht.append_of_ne _ hv, .inl ⟨hv, rfl, hd⟩⟩
  · refine ⟨response.verdict resultsCommand, ht₁.append (.of_takes ⟨response, rfl, rfl⟩), ?_⟩
    obtain ⟨e, hresponse, hv, hd⟩ | ⟨out, err, rfl, hwrite⟩ := hsaves
    · rw [hresponse, hv]
      exact .inl ⟨error_ne_ok, rfl, hd⟩
    · exact .inr ⟨rfl, t₁, out, err, rfl, hwrite⟩

/-- Whatever is answered, provisioning goes through its commands in order, stops at the
first that fails, changes what is deployed only with consent, and saves the results of a
complete course and of no other. -/
theorem deploy_isProvisioning : Keeps s s.deploy s.IsProvisioning := by
  refine (deploy_keeps_script s).mono ?_
  intro d t res d' hkept
  obtain ⟨v, rfl, hbeyond⟩ := hkept
  obtain ⟨w, h, hend⟩ := follows_of_beyond hbeyond
  refine
    { order := order_of_follows h
      creation := fun name => h.created_iff fun step hstep => s.eq_select_of_mem_provisioning hstep
      stops := ?stops
      once := once_of_follows h
      approval := ?approval
      code := ?code
      declined := ?declined
      saved := ?saved }
  case stops =>
    intro before e after c code ht hexited hcode hc
    obtain ⟨mode, out, err, rfl⟩ := hexited
    have htolerated : ∀ step ∈ s.provisioning, ¬step.Tolerates c := by
      intro step hstep htolerated
      obtain ⟨name, hname⟩ := s.tolerated_of_mem_provisioning hstep htolerated
      exact hc name hname
    obtain ⟨hafter, rfl⟩ := h.of_failed ht hcode htolerated
    obtain ⟨-, rfl, -⟩ | ⟨hok, -⟩ := hend
    · exact ⟨hafter, rfl⟩
    · cases hok
  case approval =>
    intro before mode c response after ht hc
    obtain ⟨hcommand, hconsent⟩ := approval_of_follows h ht hc
    exact ⟨hcommand, fun mode c response hmem => succeeded_of_follows h ht hmem, hconsent⟩
  case code =>
    intro code hcode
    obtain ⟨hne, rfl, -⟩ | ⟨rfl, before, out, err, ht, ⟨-, rfl⟩ | ⟨e, -, -, rfl⟩⟩ := hend
    · exact (h.of_settle hne hcode).imp_left fun hzero => ⟨hzero.1, .inr hzero.2⟩
    · cases hcode
      exact .inl ⟨rfl, .inl ⟨out, hasResults_of_follows h ht⟩⟩
    · cases hcode
  case declined =>
    intro before text typed after ht
    obtain ⟨hafter, rfl⟩ := h.of_refused ht fun hdrain => absurd hdrain s.drain_not_mem_provisioning
    obtain ⟨-, rfl, hd⟩ | ⟨hok, -⟩ := hend
    · exact ⟨hafter, rfl, hd⟩
    · cases hok
  case saved =>
    obtain ⟨hne, -, hd⟩ | ⟨rfl, before, out, err, ht, ⟨hwrite, rfl⟩ | ⟨e, hwrite, hd, rfl⟩⟩ := hend
    · right
      refine ⟨hd, fun results hresults => ?_⟩
      obtain ⟨-, -, before, mode, err, ht⟩ := hresults
      exact absurd (results_of_follows h ht) hne
    · left
      exact ⟨out, hasResults_of_follows h ht, Disk.wrote_of_writeText hwrite, rfl⟩
    · right
      refine ⟨hd, fun results hresults => ?_⟩
      obtain ⟨-, -, before', mode, err', ht'⟩ := hresults
      rw [ht] at ht'
      obtain ⟨-, hlast⟩ := List.append_inj' ht' rfl
      cases hlast
      exact ⟨e, hwrite, rfl⟩

end Setup

end Rollout
end Groundplan
