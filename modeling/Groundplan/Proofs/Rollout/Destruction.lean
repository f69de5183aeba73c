/-
What destroying does, whatever its commands and the user answer.

Losing the state of a deployment that still exists is the worst that a rollout can do.
The script of a destruction ends with the command that applies the plan, and every
removal is beyond it.  So a disk that has changed at all means that this command was
reached, hence everything before it, and that it has succeeded.
-/
import Groundplan.Proofs.Rollout.Draining
import Groundplan.Proofs.Rollout.Verdict
import Groundplan.Proofs.Storage.Frame

namespace Groundplan
namespace Rollout

open Storage

variable {T S : Type}

namespace Setup

variable (s : Setup T S)

/-! ## What is claimed -/

def planDestroyCommand : Command := ["terraform", "plan", "-destroy", "-out=destroy.tfplan"]

def showPlanCommand : Command := ["terraform", "show", "-no-color", "destroy.tfplan"]

def destroyCommand : Command :=
  if s.autoApprove then ["terraform", "apply", "-auto-approve", "destroy.tfplan"]
  else ["terraform", "apply", "destroy.tfplan"]

def destroyQuestion : String := "Are you sure you want to continue with destruction?"

def stateQuestion : String := "Do you want to remove Terraform state files as well?"

/-- The whole course of a destruction.  What is run to drain services depends on what
there is. -/
def destructionCommands (made : Bool) (drained : List Command) : List Command :=
  s.preparationCommands made ++ drained ++ [planDestroyCommand] ++
    (if s.autoApprove then [] else [showPlanCommand]) ++ [s.destroyCommand]

/-- The plan has been applied with success. -/
def HasDestroyed (t : Transcript T) : Prop := ∃ e ∈ t, e.Exited s.destroyCommand 0

/-- A location is that of one of some files in the generated directory. -/
def IsAt (names : List String) (d : Disk) (l : Location) : Prop :=
  ∃ name ∈ names, d.locate (s.directory.child name) = .ok l

/-- A location is that of one of some files or directories in the generated directory, or
below it. -/
def IsBelow (names : List String) (d : Disk) (l : Location) : Prop :=
  ∃ name ∈ names, ∃ root, d.locate (s.directory.child name) = .ok root ∧ root <+: l

/-- After the plan has been applied with success, the removal of the state was asked for
and agreed to. -/
def HasAgreed (t : Transcript T) : Prop :=
  s.autoApprove = false ∧ ∃ before typed,
    t = before ++ [.question stateQuestion ⟨typed, some true⟩] ∧ s.HasDestroyed before

structure IsDestruction (d : Disk) (t : Transcript T) (res : Except Failure Int) (d' : Disk) :
    Prop where
  order : ∃ made drained, (∀ c ∈ drained, IsDrainCommand c) ∧
    t.commands <+: s.destructionCommands made drained
  once : (t.commands.filter isApply).length ≤ 1
  /-- Nothing is destroyed unless this run has prepared and planned it and there is
  consent. -/
  approval : ∀ before mode c response after, t = before ++ .command mode c response :: after →
    isApply c = true → c = s.destroyCommand ∧
      (∀ c ∈ [initCommand, showCommand, validateCommand, planDestroyCommand],
        ∃ e ∈ before, e.Exited c 0) ∧
      (s.autoApprove = true ∨ ∃ typed, .question destroyQuestion ⟨typed, some true⟩ ∈ before)
  /-- What has changed on the disk is gone, after the plan has been applied with success.
  It is a plan, or the user has agreed to the removal of the state and it is part of
  that. -/
  frame : d'.cwd = d.cwd ∧ ∀ l, d'.entry? l ≠ d.entry? l → d'.entry? l = none ∧ s.HasDestroyed t ∧
    (s.IsAt [destroyPlanFile, planFile] d l ∨ s.HasAgreed t ∧ s.IsBelow stateFiles d l)
  /-- Refusing consent is no failure and changes nothing. -/
  declined : ∀ before typed after,
    t = before ++ .question destroyQuestion ⟨typed, some false⟩ :: after →
      after = [] ∧ res = .ok 0 ∧ d' = d
  /-- A command that has to succeed, such as all of the preparation but a selection, the
  plan and its application, is the end if it fails.  Its code is the result, nothing is
  removed, and nothing is destroyed unless that is what has failed. -/
  stops : ∀ before e after c code, t = before ++ e :: after → e.Exited c code → code ≠ 0 →
    (∀ name, c ≠ selectCommand name) → ¬IsDrainCommand c → c ≠ showPlanCommand →
      after = [] ∧ res = .ok code ∧ d' = d ∧ (isApply c = false → t.commands.filter isApply = [])
  /-- An exit code is zero after a destruction or a refusal, and otherwise that of the last
  command. -/
  code : ∀ code, res = .ok code →
    code = 0 ∧ (s.HasDestroyed t ∨
      ∃ before text typed, t = before ++ [.question text ⟨typed, some false⟩]) ∨
    code ≠ 0 ∧ ∃ before e c, t = before ++ [e] ∧ e.Exited c code

/-! ## Removals -/

/-- An action that talks to nobody and only removes, from a region of the disk. -/
def Removes (region : Disk → Location → Prop) (x : Action T S Unit) : Prop :=
  Keeps s x fun d t res d' =>
    t = [] ∧ Disk.Shrinks (region d) d d' ∧ (res = .ok () ∨ ∃ f, res = .error (.storage f))

variable {s}

theorem Removes.pure (region : Disk → Location → Prop) : s.Removes region (Pure.pure ()) :=
  Keeps.pure fun d => ⟨rfl, .refl d, .inl rfl⟩

theorem Removes.onDisk {region : Disk → Location → Prop} {path : Path}
    {f : Disk → Except Fault Disk} (hf : ∀ d d', f d = .ok d' → Disk.Shrinks (region d) d d') :
    s.Removes region (onDisk path f) :=
  Keeps.onDisk (fun d d' h => ⟨rfl, hf d d' h, .inl rfl⟩) fun d _ _ => ⟨rfl, .refl d, .inr ⟨_, rfl⟩⟩

/-- The second region is looked up on what the first removal has left. -/
theorem Removes.bind {p q r : Disk → Location → Prop} {x y : Action T S Unit}
    (hx : s.Removes p x) (hy : s.Removes q y) (hp : ∀ d l, p d l → r d l)
    (hq : ∀ d d₁ l, Disk.Shrinks (p d) d d₁ → q d₁ l → r d l) :
    s.Removes r (x >>= fun _ => y) := by
  refine Keeps.bind hx (fun _ => hy) ?_ ?_
  · intro d t e d' hfailed
    obtain ⟨ht, hd, hres⟩ := hfailed
    refine ⟨ht, hd.mono (hp d), .inr ?_⟩
    obtain hres | ⟨f, hres⟩ := hres
    · cases hres
    · cases hres
      exact ⟨f, rfl⟩
  · intro d t a d₁ u res d' hfirst hsecond
    obtain ⟨rfl, hd, -⟩ := hfirst
    obtain ⟨rfl, hd', hres⟩ := hsecond
    exact ⟨rfl, (hd.mono (hp d)).trans (hd'.mono fun l => hq d d₁ l hd), hres⟩

variable (s)

theorem removes_removeFiles (names : List String) :
    s.Removes (s.IsAt names) (s.removeFiles names) := by
  induction names with
  | nil => exact .pure _
  | cons name names ih =>
    refine Removes.bind (p := fun d l => d.locate (s.directory.child name) = .ok l)
      (.onDisk fun d d' h => Disk.shrinks_of_removeIfPresent h) ih ?_ ?_
    · intro d l hl
      exact ⟨name, List.mem_cons_self, hl⟩
    · intro d d₁ l hd hat
      obtain ⟨other, hother, hl⟩ := hat
      exact ⟨other, List.mem_cons_of_mem name hother, hd.locate hl⟩

theorem removes_removeAll (names : List String) :
    s.Removes (s.IsBelow names) (s.removeAll names) := by
  induction names with
  | nil => exact .pure _
  | cons name names ih =>
    refine Removes.bind
      (p := fun d l => ∃ root, d.locate (s.directory.child name) = .ok root ∧ root <+: l)
      (.onDisk fun d d' h => ?_) ih ?_ ?_
    · split at h
      · exact Disk.shrinks_of_removeTree h
      · exact (Disk.shrinks_of_removeIfPresent h).mono fun l hl => ⟨l, hl, List.prefix_rfl⟩
    · intro d l hl
      exact ⟨name, List.mem_cons_self, hl⟩
    · intro d d₁ l hd hbelow
      obtain ⟨other, hother, root, hroot, hl⟩ := hbelow
      exact ⟨other, List.mem_cons_of_mem name hother, root, hd.locate hroot, hl⟩

/-! ## The script -/

def destroyArguments : List String :=
  ["apply"] ++ (if s.autoApprove then ["-auto-approve"] else []) ++ ["destroy.tfplan"]

/-- Consent to the destruction is asked for, after a look at what it is, unless it was given
in advance. -/
def destroyApproval : Script :=
  if s.autoApprove then []
  else [.attempt .capture ["show", "-no-color", "destroy.tfplan"], .consent destroyQuestion]

/-- Everything up to the plan. -/
def destroyPlanning : Script :=
  s.preparation ++ ([.drain] ++ [.require .stream ["plan", "-destroy", "-out=destroy.tfplan"]])

/-- Everything before the destruction. -/
def destroyPlanned : Script := [.look] ++ (s.destroyPlanning ++ s.destroyApproval)

/-- The whole script. -/
def destruction : Script := s.destroyPlanned ++ [.require .tee s.destroyArguments]

theorem destruction_eq : s.destruction = [.look] ++ (s.destroyPlanning ++ (s.destroyApproval ++
    [.require .tee s.destroyArguments])) := by
  simp only [destruction, destroyPlanned, List.append_assoc]

/-- What is beyond the script: plans are removed, and the state if that is agreed to. -/
def CleansUp (plans : List String) : Assertion T Bool := fun d t v d' =>
  (t = [] ∨ ∃ reply, t = [.question stateQuestion reply]) ∧
    Disk.Shrinks (fun l => s.IsAt plans d l ∨ (s.autoApprove = false ∧
      ∃ typed, t = [.question stateQuestion ⟨typed, some true⟩]) ∧ s.IsBelow stateFiles d l) d d' ∧
    (v = .ok true ∨ ∃ f, v = .error f ∧ f.exitCode? = none)

theorem planDestruction_carries [Timescale T] :
    Carries s s.planDestruction always s.destroyPlanning := by
  refine Carries.bind (.prepare s) fun _ => .silent_bind (.title _) fun _ => ?_
  refine Carries.bind (.drain s) fun _ => .silent_bind (.info _) fun _ => ?_
  exact Carries.bind (B := []) (.require .stream _) fun _ => .pure rfl

theorem mayExit_of_mem_destroyApproval : ∀ step ∈ s.destroyApproval, step.mayExit = false := by
  rw [destroyApproval]
  split <;> decide

theorem silent_infoAll (lines : List String) : IsSilent s (infoAll lines) := by
  induction lines with
  | nil => exact .pure ()
  | cons line lines ih => exact .bind (.info _) fun _ => ih

theorem plannedDeletions_carries : Carries s s.plannedDeletions always
    [.attempt .capture ["show", "-no-color", "destroy.tfplan"]] :=
  Carries.bind (B := []) (.attempt .capture _) fun _ => .pure rfl

theorem approveDestruction_carries (current : String) :
    Carries s (s.approveDestruction current) id s.destroyApproval := by
  rw [approveDestruction, destroyApproval]
  split
  · exact .pure rfl
  · refine .silent_bind (.warn _) fun _ => ?_
    have hconsent : Carries s (s.confirm destroyQuestion) id [.consent destroyQuestion] :=
      .consent destroyQuestion
    refine Carries.bind (B := [.consent destroyQuestion]) (plannedDeletions_carries s) ?_
    intro deletions
    dsimp only
    split
    · exact .silent_bind (.warn _) fun _ => .silent_bind (silent_infoAll s _) fun _ => hconsent
    · exact hconsent

/-- What is asked last, and what is done about it. -/
theorem removeState_keeps (hauto : s.autoApprove = false) :
    Keeps s (do
        if ← s.confirm stateQuestion then
          s.removeState
          info "Terraform state files removed"
        return (0 : Int))
      (Settled (s.CleansUp [])) := by
  have hremove : Keeps s (do s.removeState; info "Terraform state files removed"; pure (0 : Int))
      fun d t res d' => t = [] ∧ Disk.Shrinks (s.IsBelow stateFiles d) d d' ∧
        (res = .ok 0 ∨ ∃ f, res = .error (.storage f)) := by
    refine Keeps.bind (removes_removeAll s stateFiles)
      (R := fun _ d t res d' => t = [] ∧ res = .ok 0 ∧ d' = d) ?_ ?_ ?_
    · intro _
      exact (IsSilent.info _).bind_keeps fun _ => .pure fun d => ⟨rfl, rfl, rfl⟩
    · intro d t e d' hfailed
      obtain ⟨ht, hd, hres | ⟨f, hres⟩⟩ := hfailed
      · cases hres
      · cases hres
        exact ⟨ht, hd, .inr ⟨f, rfl⟩⟩
    · intro d t a d₁ u res d' hfirst hsecond
      obtain ⟨rfl, hd, -⟩ := hfirst
      obtain ⟨rfl, rfl, rfl⟩ := hsecond
      exact ⟨rfl, hd, .inl rfl⟩
  refine (Keeps.confirm s stateQuestion).bind (R := fun b d t res d' => t = [] ∧
    (b = true ∧ Disk.Shrinks (s.IsBelow stateFiles d) d d' ∧
        (res = .ok 0 ∨ ∃ f, res = .error (.storage f)) ∨
      b = false ∧ res = .ok 0 ∧ d' = d)) ?_ ?_ ?_
  · intro b
    cases b with
    | true => exact hremove.mono fun _ _ _ _ h => ⟨h.1, .inl ⟨rfl, h.2⟩⟩
    | false => exact .pure fun d => ⟨rfl, .inr ⟨rfl, rfl, rfl⟩⟩
  · intro d t e d' hfailed
    obtain ⟨⟨typed, decision⟩, rfl, hres, rfl⟩ := hfailed
    cases decision with
    | none =>
      cases hres
      exact ⟨.error .unanswered, rfl, .inr ⟨_, rfl⟩, .refl d', .inr ⟨_, rfl, rfl⟩⟩
    | some b => cases hres
  · intro d t b d₁ u res d' hfirst hsecond
    obtain ⟨⟨typed, decision⟩, rfl, hb, rfl⟩ := hfirst
    obtain ⟨rfl, hnext⟩ := hsecond
    cases decision with
    | none => cases hb
    | some b =>
      cases hb
      obtain ⟨rfl, hd, hres⟩ | ⟨-, rfl, rfl⟩ := hnext
      · obtain ⟨v, hv, hresult⟩ : ∃ v, res = settle v ∧
            (v = .ok true ∨ ∃ f, v = .error f ∧ f.exitCode? = none) := by
          obtain rfl | ⟨f, rfl⟩ := hres
          · exact ⟨.ok true, rfl, .inl rfl⟩
          · exact ⟨.error (.storage f), rfl, .inr ⟨_, rfl, rfl⟩⟩
        exact ⟨v, hv, .inr ⟨_, rfl⟩, hd.mono fun l hl => .inr ⟨⟨hauto, typed, rfl⟩, hl⟩, hresult⟩
      · exact ⟨.ok true, rfl, .inr ⟨_, rfl⟩, .refl d', .inl rfl⟩

theorem cleanUp_keeps : Keeps s (do
      s.removeFiles [destroyPlanFile, planFile]
      if !s.autoApprove then
        if ← s.confirm stateQuestion then
          s.removeState
          info "Terraform state files removed"
      return (0 : Int))
    (Settled (s.CleansUp [destroyPlanFile, planFile])) := by
  refine Keeps.bind (removes_removeFiles s _) (R := fun _ => Settled (s.CleansUp [])) ?_ ?_ ?_
  · intro _
    cases hauto : s.autoApprove with
    | true => exact .pure fun d => ⟨.ok true, rfl, .inl rfl, .refl d, .inl rfl⟩
    | false => exact removeState_keeps s hauto
  · intro d t e d' hfailed
    obtain ⟨ht, hd, hres | ⟨f, hres⟩⟩ := hfailed
    · cases hres
    · cases hres
      exact ⟨.error (.storage f), rfl, .inl ht, hd.mono fun l hl => .inl hl, .inr ⟨_, rfl, rfl⟩⟩
  · intro d t a d₁ u res d' hfirst hsecond
    obtain ⟨rfl, hd, -⟩ := hfirst
    obtain ⟨v, hv, ht, hd', hresult⟩ := hsecond
    refine ⟨v, hv, ht, (hd.mono fun l hl => .inl hl).trans (hd'.mono ?_), hresult⟩
    intro l hregion
    obtain ⟨name, hname, -⟩ | ⟨hagreed, name, hname, root, hroot, hl⟩ := hregion
    · cases hname
    · exact .inr ⟨hagreed, name, hname, root, hd.locate hroot, hl⟩

theorem applyDestruction_keeps : Keeps s s.applyDestruction (Settled (Beyond
    [.require .tee s.destroyArguments] (s.CleansUp [destroyPlanFile, planFile]))) := by
  refine (IsSilent.info _).bind_keeps fun _ => ?_
  refine (Keeps.run s .tee ("terraform" :: s.destroyArguments)).bind (R := fun o d t res d' =>
    (o.succeeded = true ∧ Settled (s.CleansUp [destroyPlanFile, planFile]) d t res d') ∨
      o.succeeded = false ∧ t = [] ∧ res = .ok o.code ∧ d' = d) ?_ ?_ ?_
  · intro o
    cases ho : o.succeeded with
    | true =>
      refine (IsSilent.notice _ _).bind_keeps fun _ => ?_
      exact (cleanUp_keeps s).mono fun _ _ _ _ h => .inl ⟨rfl, h⟩
    | false =>
      refine (IsSilent.notice _ _).bind_keeps fun _ => (silent_infoAll s _).bind_keeps fun _ => ?_
      exact .pure fun d => .inr ⟨rfl, rfl, rfl, rfl⟩
  · intro d t e d' hfailed
    obtain ⟨response, rfl, hres, rfl⟩ := hfailed
    cases response with
    | missing =>
      cases hres
      exact ⟨.error (.noTool "terraform" none), rfl,
        .inl ⟨error_ne_ok, .of_takes ⟨.missing, rfl, rfl⟩, rfl⟩⟩
    | exited code out err => cases hres
  · intro d t o d₁ u res d' hfirst hnext
    obtain ⟨response, rfl, hres, rfl⟩ := hfirst
    cases response with
    | missing => cases hres
    | exited code out err =>
      cases hres
      obtain ⟨hcode, v, hv, hclean⟩ | ⟨hcode, rfl, rfl, rfl⟩ := hnext
      · have hzero : code = 0 := eq_of_beq hcode
        subst hzero
        exact ⟨v, hv, .inr ⟨[_], u, rfl, .of_takes ⟨.exited 0 out err, rfl, rfl⟩, hclean⟩⟩
      · have hne : code ≠ 0 := ne_of_beq_false hcode
        refine ⟨.error (.exited ("terraform" :: s.destroyArguments) code), rfl, .inl
          ⟨error_ne_ok, .of_takes ⟨.exited code out err, rfl, ?_⟩, rfl⟩⟩
        exact (Response.verdict_of_ne out err hne).symm

theorem destroy_keeps_script [Timescale T] :
    Keeps s s.destroy (Settled (Beyond s.destruction (s.CleansUp [destroyPlanFile, planFile]))) := by
  have happrove : ∀ current, Keeps s (do
      if ← s.approveDestruction current then s.applyDestruction
      else
        info "Destruction cancelled"
        return (0 : Int)) (Settled (Beyond (s.destroyApproval ++ [.require .tee s.destroyArguments])
          (s.CleansUp [destroyPlanFile, planFile]))) := by
    intro current
    refine Carries.consent_bind (.ok 0) (approveDestruction_carries s current)
      (applyDestruction_keeps s) ?_ ?_ ?_ ?_
    · exact (IsSilent.info _).bind_keeps fun _ => .pure fun d => ⟨rfl, rfl, rfl⟩
    · intro d t e ht
      have hnone : e.exitCode? = none := ht.exitCode?_eq_none s.mayExit_of_mem_destroyApproval
      rw [← settle_of_none hnone]
      exact .of_error _ ht
    · intro d t ht
      exact ⟨.ok false, rfl, .of_ne _ ht refused_ne⟩
    · intro d t u res d' ht hu
      exact .append ht hu
  rw [destruction_eq]
  refine Carries.checkPreconditions_bind ?_
  refine Keeps.orExitCode_bind _ (planDestruction_carries s) (fun _ => rfl) happrove ?_ ?_
  · intro d t e d' hfailed
    obtain ⟨rfl, ht⟩ := hfailed
    exact .of_error _ ht
  · intro d t a d₁ u res d' hfirst hu
    obtain ⟨rfl, ht⟩ := hfirst
    exact .append ht hu

/-! ## Places in the script -/

theorem destroyCommand_eq : s.destroyCommand = "terraform" :: s.destroyArguments := by
  rw [destroyCommand, destroyArguments]
  split <;> rfl

theorem isApply_destroyCommand : isApply s.destroyCommand = true := by
  rw [destroyCommand]
  split <;> rfl

theorem mem_destroyApproval {step : Step} (h : step ∈ s.destroyApproval) :
    step = .attempt .capture ["show", "-no-color", "destroy.tfplan"] ∨
      step = .consent destroyQuestion := by
  rw [destroyApproval] at h
  split at h
  · cases h
  · simpa only [List.mem_cons, List.not_mem_nil, or_false] using h

theorem mem_destroyPlanned {step : Step} (h : step ∈ s.destroyPlanned) :
    step = .look ∨ step ∈ s.preparation ∨ step = .drain ∨
      step = .require .stream ["plan", "-destroy", "-out=destroy.tfplan"] ∨
        step ∈ s.destroyApproval := by
  rcases List.mem_append.mp h with h | h
  · exact .inl (List.mem_singleton.mp h)
  · rcases List.mem_append.mp h with h | h
    · rcases List.mem_append.mp h with h | h
      · exact .inr (.inl h)
      · rcases List.mem_append.mp h with h | h
        · exact .inr (.inr (.inl (List.mem_singleton.mp h)))
        · exact .inr (.inr (.inr (.inl (List.mem_singleton.mp h))))
    · exact .inr (.inr (.inr (.inr h)))

theorem isApply_of_isDrainCommand {c : Command} (h : IsDrainCommand c) : isApply c = false := by
  obtain ⟨args, rfl⟩ | ⟨args, rfl⟩ := h
  · rfl
  · rfl

theorem isApply_of_mem_destroyPlanned {step : Step} {c : Command} (h : step ∈ s.destroyPlanned)
    (hc : step.MayRun c) : isApply c = false := by
  rcases s.mem_destroyPlanned h with rfl | h | rfl | rfl | h
  · exact hc.elim
  · rw [Bool.eq_false_iff]
    intro happly
    have hmem := s.subcommand_of_mem_preparation h hc
    rw [subcommand_of_isApply happly] at hmem
    exact absurd hmem (by decide)
  · exact isApply_of_isDrainCommand hc
  · cases hc
    decide
  · rcases s.mem_destroyApproval h with rfl | rfl
    · cases hc
      decide
    · exact hc.elim

theorem tolerated_of_mem_destruction {step : Step} {c : Command} (h : step ∈ s.destruction)
    (hc : step.Tolerates c) :
    (∃ name, c = selectCommand name) ∨ IsDrainCommand c ∨ c = showPlanCommand := by
  rcases List.mem_append.mp h with h | h
  · rcases s.mem_destroyPlanned h with rfl | h | rfl | rfl | h
    · exact hc.elim
    · exact .inl (s.tolerated_of_mem_preparation h hc)
    · exact .inr (.inl hc)
    · exact hc.elim
    · rcases s.mem_destroyApproval h with rfl | rfl
      · exact .inr (.inr hc)
      · exact hc.elim
  · rw [List.mem_singleton.mp h] at hc
    exact hc.elim

theorem spells_destroyApproval {cs : List Command} (h : s.destroyApproval.Spells cs) :
    cs = if s.autoApprove then [] else [showPlanCommand] := by
  rw [destroyApproval] at h
  split at h
  · rename_i hauto
    rw [if_pos hauto]
    exact h
  · rename_i hauto
    rw [if_neg hauto]
    obtain ⟨_, _, rfl, rfl, _, _, rfl, rfl, rfl⟩ := h
    rfl

theorem spells_destruction {cs : List Command} (h : s.destruction.Spells cs) :
    ∃ made drained, (∀ c ∈ drained, IsDrainCommand c) ∧ cs = s.destructionCommands made drained := by
  obtain ⟨front, last, rfl, hfront, hlast⟩ := Script.spells_append h
  obtain ⟨first, front, rfl, hfirst, hfront⟩ := Script.spells_append hfront
  obtain ⟨front, approved, rfl, hfront, happroved⟩ := Script.spells_append hfront
  obtain ⟨prepared, front, rfl, hprepared, hfront⟩ := Script.spells_append hfront
  obtain ⟨drained, plan, rfl, hdrained, hplan⟩ := Script.spells_append hfront
  obtain ⟨made, rfl⟩ := s.spells_preparation hprepared
  obtain ⟨_, _, rfl, rfl, rfl⟩ := hfirst
  obtain ⟨drained, _, rfl, hdrain, rfl⟩ := hdrained
  obtain ⟨_, _, rfl, rfl, rfl⟩ := hplan
  obtain ⟨_, _, rfl, rfl, rfl⟩ := hlast
  refine ⟨made, drained, hdrain, ?_⟩
  rw [s.spells_destroyApproval happroved, ← destroyCommand_eq]
  simp only [destructionCommands, planDestroyCommand, List.nil_append, List.append_nil,
    List.append_assoc, List.cons_append]

/-- The plan is applied by the last command and by no other. -/
theorem filter_destructionCommands (made : Bool) {drained : List Command}
    (hdrained : ∀ c ∈ drained, IsDrainCommand c) :
    ∃ front, s.destructionCommands made drained = front ++ [s.destroyCommand] ∧
      front.filter isApply = [] := by
  refine ⟨_, rfl, ?_⟩
  have hnone : drained.filter isApply = [] := by
    refine List.filter_eq_nil_iff.mpr fun c hc => ?_
    rw [isApply_of_isDrainCommand (hdrained c hc)]
    decide
  rw [List.filter_append, List.filter_append, List.filter_append, hnone, filter_preparationCommands]
  split <;> decide

/-! ## Consequences -/

/-- Before the destruction everything has been prepared and there is consent. -/
theorem consent_of_follows_destroyPlanned {s : Setup T S} {t : Transcript T}
    (h : Follows s.destroyPlanned t (.ok true)) :
    (∀ c ∈ [initCommand, showCommand, validateCommand, planDestroyCommand],
      ∃ e ∈ t, e.Exited c 0) ∧
      (s.autoApprove = true ∨ ∃ typed, .question destroyQuestion ⟨typed, some true⟩ ∈ t) := by
  have hprepared : ∀ step ∈ s.preparation, step ∈ s.destroyPlanned := fun step hstep =>
    List.mem_append_right _ (List.mem_append_left _ (List.mem_append_left _ hstep))
  have hinit : .require .stream ["init", "-upgrade"] ∈ s.preparation := List.mem_cons_self
  have hshow : .require .capture ["workspace", "show"] ∈ s.preparation :=
    List.mem_cons_of_mem _ (List.mem_append_right _ List.mem_cons_self)
  have hvalidate : .require .stream ["validate"] ∈ s.preparation :=
    List.mem_cons_of_mem _ (List.mem_append_right _ (List.mem_cons_of_mem _ List.mem_cons_self))
  have hplan : .require .stream ["plan", "-destroy", "-out=destroy.tfplan"] ∈ s.destroyPlanned :=
    List.mem_append_right _ (List.mem_append_left _ (List.mem_append_right _
      (List.mem_cons_of_mem _ List.mem_cons_self)))
  constructor
  · intro c hc
    simp only [List.mem_cons, List.not_mem_nil, or_false] at hc
    rcases hc with rfl | rfl | rfl | rfl
    · exact h.exited_of_mem (hprepared _ hinit)
    · exact h.exited_of_mem (hprepared _ hshow)
    · exact h.exited_of_mem (hprepared _ hvalidate)
    · exact h.exited_of_mem hplan
  · by_cases hauto : s.autoApprove = true
    · exact .inl hauto
    · refine .inr (h.agreed_of_mem (List.mem_append_right _ (List.mem_append_right _ ?_)))
      rw [destroyApproval, if_neg hauto]
      exact List.mem_cons_of_mem _ List.mem_cons_self

section

variable {s} {t : Transcript T} {w : Verdict} (h : Follows s.destruction t w)

include h

theorem order_of_follows_destruction : ∃ made drained, (∀ c ∈ drained, IsDrainCommand c) ∧
    t.commands <+: s.destructionCommands made drained := by
  obtain ⟨cs, hcs, hle⟩ := h.commands
  obtain ⟨made, drained, hdrained, rfl⟩ := s.spells_destruction hcs
  exact ⟨made, drained, hdrained, hle⟩

theorem approval_of_follows_destruction {before after : Transcript T} {mode : Mode} {c : Command}
    {response : Response} (ht : t = before ++ .command mode c response :: after)
    (hc : isApply c = true) : c = s.destroyCommand ∧
      (∀ c ∈ [initCommand, showCommand, validateCommand, planDestroyCommand],
        ∃ e ∈ before, e.Exited c 0) ∧
      (s.autoApprove = true ∨ ∃ typed, .question destroyQuestion ⟨typed, some true⟩ ∈ before) := by
  have hfront : ∀ step ∈ s.destroyPlanned, ∀ c, step.MayRun c → ¬isApply c = true := by
    intro step hstep c hc happly
    rw [s.isApply_of_mem_destroyPlanned hstep hc] at happly
    cases happly
  obtain ⟨hcommand, hplanned, -⟩ := h.of_require ht hc hfront
    fun step hstep => absurd hstep List.not_mem_nil
  exact ⟨hcommand.trans s.destroyCommand_eq.symm, consent_of_follows_destroyPlanned hplanned⟩

/-- If the last command is another, the plan has not been applied. -/
theorem unapplied_of_follows_destruction {front : List Command} {c : Command}
    (ht : t.commands = front ++ [c]) (hc : isApply c = false) : t.commands.filter isApply = [] := by
  obtain ⟨made, drained, hdrained, hle⟩ := order_of_follows_destruction h
  obtain ⟨others, hall, hothers⟩ := s.filter_destructionCommands made hdrained
  rw [hall, List.prefix_concat_iff] at hle
  obtain heq | hle := hle
  · rw [heq] at ht
    obtain ⟨-, hlast⟩ := List.append_inj' ht rfl
    cases hlast
    rw [isApply_destroyCommand] at hc
    cases hc
  · have hprefix := hle.filter isApply
    rw [hothers] at hprefix
    exact List.prefix_nil.mp hprefix

theorem once_of_follows_destruction : (t.commands.filter isApply).length ≤ 1 := by
  obtain ⟨made, drained, hdrained, hle⟩ := order_of_follows_destruction h
  obtain ⟨others, hall, hothers⟩ := s.filter_destructionCommands made hdrained
  have hlength := (hle.filter isApply).length_le
  rw [hall, List.filter_append, hothers, List.filter_singleton, isApply_destroyCommand] at hlength
  exact hlength

end

/-- What is beyond the script is a question at most, and none for consent. -/
theorem not_mem_cleansUp {s : Setup T S} {plans : List String} {d d' : Disk} {t : Transcript T}
    {v : Verdict} (h : s.CleansUp plans d t v d') {e : Exchange T}
    (he : ∀ reply, e ≠ .question stateQuestion reply) : e ∉ t := by
  intro hmem
  obtain ⟨rfl | ⟨reply, rfl⟩, -⟩ := h
  · cases hmem
  · exact he reply (List.mem_singleton.mp hmem)

theorem not_isDrainQuestion_destroyQuestion : ¬IsDrainQuestion destroyQuestion := by
  intro hdrain
  obtain ⟨service, h⟩ := hdrain
  have hstart := congrArg (fun text => text.toList.take 2) h
  simp [destroyQuestion, String.toList_append] at hstart

/-- Whatever is answered, a destruction is applied only once it has been prepared, planned
and agreed to, and nothing is removed unless that has succeeded. -/
theorem destroy_isDestruction [Timescale T] : Keeps s s.destroy s.IsDestruction := by
  refine (destroy_keeps_script s).mono ?_
  intro d t res d' hkept
  obtain ⟨v, rfl, hbeyond⟩ := hkept
  obtain ⟨t₁, t₂, w, rfl, h, hend⟩ := hbeyond.exists_follows
  -- Only the last question may be beyond the script.
  have hlast : ∀ {e : Exchange T}, (∀ reply, e ≠ .question stateQuestion reply) → e ∉ t₂ := by
    intro e he
    obtain ⟨-, rfl, -⟩ | ⟨-, hclean⟩ := hend
    · exact List.not_mem_nil
    · exact not_mem_cleansUp hclean he
  have hcommand : ∀ mode c response, .command mode c response ∉ t₂ := by
    intro mode c response
    refine hlast fun reply heq => ?_
    cases heq
  have hcommands : (t₁ ++ t₂).commands = t₁.commands := by
    have hnil : t₂.commands = [] := by
      refine List.eq_nil_iff_forall_not_mem.mpr fun c hc => ?_
      obtain ⟨mode, response, hmem⟩ := mem_commands.mp hc
      exact hcommand mode c response hmem
    rw [commands_append, hnil, List.append_nil]
  have hdestroyed : Follows s.destruction t₁ (.ok true) → s.HasDestroyed t₁ := by
    intro hpassed
    have hmem : .require .tee s.destroyArguments ∈ s.destruction :=
      List.mem_append_right _ List.mem_cons_self
    rw [HasDestroyed, destroyCommand_eq]
    exact hpassed.exited_of_mem hmem
  refine
    { order := ?order
      once := ?once
      approval := ?approval
      frame := ?frame
      declined := ?declined
      stops := ?stops
      code := ?code }
  case order =>
    rw [hcommands]
    exact order_of_follows_destruction h
  case once =>
    rw [hcommands]
    exact once_of_follows_destruction h
  case approval =>
    intro before mode c response after ht hc
    obtain ⟨after, ht, -⟩ := append_cons_of_not_mem ht (hcommand _ _ _)
    exact approval_of_follows_destruction h ht hc
  case frame =>
    obtain ⟨-, -, -, rfl⟩ | ⟨rfl, -, hshrinks, -⟩ := hend
    · exact ⟨rfl, fun l hl => absurd rfl hl⟩
    · refine ⟨hshrinks.cwd, fun l hl => ?_⟩
      obtain hsame | ⟨hregion, hnone⟩ := hshrinks.entry l
      · exact absurd hsame hl
      · obtain ⟨e, he, hexited⟩ := hdestroyed h
        refine ⟨hnone, ⟨e, List.mem_append_left t₂ he, hexited⟩, hregion.imp_right ?_⟩
        intro hstate
        obtain ⟨⟨hauto, typed, rfl⟩, hbelow⟩ := hstate
        exact ⟨⟨hauto, t₁, typed, rfl, e, he, hexited⟩, hbelow⟩
  case declined =>
    intro before typed after ht
    have hother : ∀ reply, Exchange.question (T := T) destroyQuestion ⟨typed, some false⟩ ≠
        .question stateQuestion reply := by
      intro reply heq
      exact absurd (Exchange.question.inj heq).1 (by decide)
    obtain ⟨after₁, ht₁, rfl⟩ := append_cons_of_not_mem ht (hlast hother)
    obtain ⟨rfl, rfl⟩ := h.of_refused ht₁ fun _ => not_isDrainQuestion_destroyQuestion
    obtain ⟨-, rfl, rfl, hd⟩ | ⟨hok, -⟩ := hend
    · exact ⟨rfl, rfl, hd⟩
    · cases hok
  case stops =>
    intro before e after c code ht hexited hcode hselect hdrain hshow
    obtain ⟨mode, out, err, rfl⟩ := hexited
    obtain ⟨after₁, ht₁, rfl⟩ := append_cons_of_not_mem ht (hcommand _ _ _)
    have htolerated : ∀ step ∈ s.destruction, ¬step.Tolerates c := by
      intro step hstep htolerated
      obtain ⟨name, hc⟩ | hc | hc := s.tolerated_of_mem_destruction hstep htolerated
      · exact hselect name hc
      · exact hdrain hc
      · exact hshow hc
    obtain ⟨rfl, rfl⟩ := h.of_failed ht₁ hcode htolerated
    obtain ⟨-, rfl, rfl, hd⟩ | ⟨hok, -⟩ := hend
    · refine ⟨rfl, rfl, hd, fun hc => ?_⟩
      rw [hcommands]
      have hfront : t₁.commands = Transcript.commands before ++ [c] := by
        rw [ht₁, commands_append]
        rfl
      exact unapplied_of_follows_destruction h hfront hc
    · cases hok
  case code =>
    intro code hcode
    obtain ⟨hne, rfl, rfl, -⟩ | ⟨rfl, hclean⟩ := hend
    · rw [List.append_nil]
      exact (h.of_settle hne hcode).imp_left fun hzero => ⟨hzero.1, .inr hzero.2⟩
    · obtain ⟨-, -, rfl | ⟨f, rfl, hnone⟩⟩ := hclean
      · cases hcode
        obtain ⟨e, he, hexited⟩ := hdestroyed h
        exact .inl ⟨rfl, .inl ⟨e, List.mem_append_left t₂ he, hexited⟩⟩
      · rw [settle_of_none hnone] at hcode
        cases hcode

end Setup

end Rollout
end Groundplan
