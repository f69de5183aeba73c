/-
The common start of both kinds of rollout, as a script.

`Carries` ties an action to a script.  An action is taken apart along its binds, so its
script is put together from the scripts of its parts by list append; messages add
nothing.  Up to the end of the script the disk is what it was.
-/
import Groundplan.Proofs.Rollout.Order

namespace Groundplan
namespace Rollout

variable {T S α β : Type}

/-! ## Commands that must succeed -/

/-- What an action gets for the response of a command that must succeed. -/
def Response.checked (mode : Mode) (c : Command) (response : Response) : Except Failure Output :=
  response.output mode c >>= fun o =>
    if o.succeeded then .ok o else .error (.exited o.command o.code)

/-- The verdict of an action that cannot be declined. -/
def always (_ : α) : Bool := true

theorem Response.map_checked (mode : Mode) (c : Command) (response : Response) :
    (response.checked mode c).map always = response.verdict c := by
  cases response with
  | missing => rfl
  | exited code out err =>
    have hcode : (code == 0) = true ↔ code = 0 := beq_iff_eq
    cases mode <;>
      simp only [checked, output, verdict, bind, Except.bind, Output.succeeded, hcode] <;>
      split <;> rfl

/-- A command that must succeed gives what it printed. -/
theorem Response.exited_of_checked {c : Command} {response : Response} {o : Output}
    (h : response.checked .capture c = .ok o) : ∃ err, response = .exited 0 o.out err := by
  cases response with
  | missing => cases h
  | exited code out err =>
    have hchecked : checked .capture c (.exited code out err) =
        if code == 0 then .ok { command := c, code, out, err } else .error (.exited c code) := rfl
    rw [hchecked] at h
    by_cases hcode : code = 0
    · subst hcode
      cases h
      exact ⟨err, rfl⟩
    · rw [if_neg fun hbeq => hcode (eq_of_beq hbeq)] at h
      cases h

theorem Keeps.check (s : Setup T S) (o : Output) :
    Keeps s (Setup.check o) fun d t res d' =>
      t = [] ∧ res = (if o.succeeded then .ok o else .error (.exited o.command o.code)) ∧ d' = d := by
  rw [Setup.check]
  split
  · exact .pure fun d => ⟨rfl, rfl, rfl⟩
  · exact .throw fun d => ⟨rfl, rfl, rfl⟩

theorem Keeps.require (s : Setup T S) (mode : Mode) (args : List String) :
    Keeps s (s.require mode args) fun d t res d' =>
      ∃ response, t = [.command mode ("terraform" :: args) response] ∧
        res = response.checked mode ("terraform" :: args) ∧ d' = d := by
  refine (Keeps.run s mode ("terraform" :: args)).bind (Keeps.check s) ?_ ?_
  · intro d t e d' hfailed
    obtain ⟨response, ht, hres, hd⟩ := hfailed
    refine ⟨response, ht, ?_, hd⟩
    rw [Response.checked, ← hres]
    rfl
  · intro d t o d₁ u res d' hfirst hsecond
    obtain ⟨response, rfl, hres, rfl⟩ := hfirst
    obtain ⟨rfl, hcheck, hd⟩ := hsecond
    refine ⟨response, rfl, ?_, hd⟩
    rw [Response.checked, ← hres]
    exact hcheck

/-! ## Actions with a script -/

/-- In every run the action keeps to a script and leaves the disk alone.  Its verdict is
read off its result. -/
def Carries (s : Setup T S) (x : Action T S α) (consents : α → Bool) (script : Script) : Prop :=
  Keeps s x fun d t res d' => d' = d ∧ Follows script t (res.map consents)

namespace Carries

variable {s : Setup T S}

theorem pure {consents : α → Bool} {a : α} (h : consents a = true) :
    Carries s (Pure.pure a) consents [] := by
  refine Keeps.pure fun d => ⟨rfl, ?_⟩
  show Follows [] [] (.ok (consents a))
  rw [h]
  exact .done

theorem bind {x : Action T S α} {f : α → Action T S β} {consents : β → Bool} {A B : Script}
    (hx : Carries s x always A) (hf : ∀ a, Carries s (f a) consents B) :
    Carries s (x >>= f) consents (A ++ B) := by
  refine Keeps.bind hx hf ?_ ?_
  · intro d t e d' hfailed
    obtain ⟨hd, ht⟩ := hfailed
    exact ⟨hd, ht.append_of_ne B error_ne_ok⟩
  · intro d t a d₁ u res d' hfirst hsecond
    obtain ⟨rfl, ht⟩ := hfirst
    obtain ⟨hd, hu⟩ := hsecond
    exact ⟨hd, ht.append hu⟩

theorem silent_bind {x : Action T S α} {f : α → Action T S β} {consents : β → Bool}
    {script : Script} (hx : IsSilent s x) (hf : ∀ a, Carries s (f a) consents script) :
    Carries s (x >>= f) consents script :=
  hx.bind_keeps hf

theorem of_takes {x : Action T S α} {consents : α → Bool} {step : Step}
    (h : Keeps s x fun d t res d' => d' = d ∧ step.Takes t (res.map consents)) :
    Carries s x consents [step] :=
  h.mono fun _ _ _ _ h => ⟨h.1, .of_takes h.2⟩

/-- Consent decides between two continuations, and the one without it asks nobody. -/
theorem consent_bind {x : Action T S Bool} {f : Bool → Action T S β} {A : Script}
    {P Q : Assertion T β} (refused : Except Failure β) (hx : Carries s x id A)
    (hyes : Keeps s (f true) P)
    (hno : Keeps s (f false) fun d t res d' => t = [] ∧ res = refused ∧ d' = d)
    (hfail : ∀ d t e, Follows A t (.error e) → Q d t (.error e) d)
    (hdeclined : ∀ d t, Follows A t (.ok false) → Q d t refused d)
    (hnext : ∀ d t u res d', Follows A t (.ok true) → P d u res d' → Q d (t ++ u) res d') :
    Keeps s (x >>= f) Q := by
  refine Keeps.bind hx (R := fun b d t res d' => (b = true ∧ P d t res d') ∨
    b = false ∧ t = [] ∧ res = refused ∧ d' = d) ?_ ?_ ?_
  · intro b
    cases b with
    | true => exact hyes.mono fun _ _ _ _ h => .inl ⟨rfl, h⟩
    | false => exact hno.mono fun _ _ _ _ h => .inr ⟨rfl, h⟩
  · intro d t e d' hfailed
    obtain ⟨rfl, ht⟩ := hfailed
    exact hfail _ _ _ ht
  · intro d t b d₁ u res d' hfirst hsecond
    obtain ⟨rfl, ht⟩ := hfirst
    obtain ⟨rfl, hu⟩ | ⟨rfl, rfl, rfl, rfl⟩ := hsecond
    · exact hnext _ _ _ _ _ ht hu
    · rw [List.append_nil]
      exact hdeclined _ _ ht

/-! ## Single steps -/

theorem require (mode : Mode) (args : List String) :
    Carries s (s.require mode args) always [.require mode args] := by
  refine of_takes ((Keeps.require s mode args).mono ?_)
  intro d t res d' hkept
  obtain ⟨response, ht, rfl, hd⟩ := hkept
  exact ⟨hd, response, ht, Response.map_checked _ _ _⟩

theorem attempt (mode : Mode) (args : List String) :
    Carries s (s.terraform mode args) always [.attempt mode args] := by
  refine of_takes ((Keeps.run s mode ("terraform" :: args)).mono ?_)
  intro d t res d' hkept
  obtain ⟨response, ht, rfl, hd⟩ := hkept
  exact ⟨hd, response, ht, rfl⟩

theorem consent (question : String) :
    Carries s (s.confirm question) id [.consent question] := by
  refine of_takes ((Keeps.confirm s question).mono ?_)
  intro d t res d' hkept
  obtain ⟨reply, ht, rfl, hd⟩ := hkept
  refine ⟨hd, reply, ht, ?_⟩
  cases reply.result <;> rfl

end Carries

/-! ## Preparation -/

namespace Setup

variable (s : Setup T S)

/-- The workspace that is asked for.  An empty name asks for none. -/
def wantedWorkspace : Option String := s.workspace.filter fun name => !name.isEmpty

/-- The part of a script in which the workspace is selected. -/
def selection : Script := s.wantedWorkspace.toList.map .select

/-- The common start of both kinds of rollout. -/
def preparation : Script :=
  .require .stream ["init", "-upgrade"] :: (s.selection ++
    [.require .capture ["workspace", "show"], .require .stream ["validate"], .look])

def initCommand : Command := ["terraform", "init", "-upgrade"]

def showCommand : Command := ["terraform", "workspace", "show"]

def validateCommand : Command := ["terraform", "validate"]

/-- The commands that select the workspace, which may have to be made. -/
def workspaceCommands (made : Bool) : List Command :=
  s.wantedWorkspace.toList.flatMap fun name =>
    if made then [selectCommand name, createCommand name] else [selectCommand name]

/-- The commands of the preparation. -/
def preparationCommands (made : Bool) : List Command :=
  initCommand :: (s.workspaceCommands made ++ [showCommand, validateCommand])

theorem spells_selection {cs : List Command} (h : s.selection.Spells cs) :
    ∃ made, cs = s.workspaceCommands made := by
  rw [selection] at h
  unfold workspaceCommands
  cases hname : s.wantedWorkspace with
  | none =>
    rw [hname] at h
    exact ⟨false, h⟩
  | some name =>
    rw [hname] at h
    obtain ⟨first, others, rfl, hfirst, hothers⟩ := h
    cases hothers
    rcases hfirst with rfl | rfl
    · exact ⟨false, rfl⟩
    · exact ⟨true, rfl⟩

theorem spells_preparation {cs : List Command} (h : s.preparation.Spells cs) :
    ∃ made, cs = s.preparationCommands made := by
  obtain ⟨first, others, rfl, rfl, h⟩ := h
  obtain ⟨as, bs, rfl, has, hbs⟩ := Script.spells_append h
  obtain ⟨made, rfl⟩ := s.spells_selection has
  obtain ⟨_, _, rfl, rfl, _, _, rfl, rfl, _, _, rfl, rfl, rfl⟩ := hbs
  exact ⟨made, rfl⟩

/-- Only the selection of the workspace touches workspaces. -/
theorem eq_select_of_mem_preparation {step : Step} {name : String} (h : step ∈ s.preparation)
    (hrun : step.MayRun (selectCommand name) ∨ step.MayRun (createCommand name)) :
    step = .select name := by
  rcases List.mem_cons.mp h with rfl | h
  · simp [Step.MayRun, selectCommand, createCommand] at hrun
  · rcases List.mem_append.mp h with h | h
    · obtain ⟨other, -, rfl⟩ := List.mem_map.mp h
      simp only [Step.MayRun, selectCommand, createCommand, List.cons.injEq] at hrun
      have hname : name = other := by simpa using hrun
      rw [hname]
    · simp only [List.mem_cons, List.not_mem_nil, or_false] at h
      rcases h with rfl | rfl | rfl <;> simp [Step.MayRun, selectCommand, createCommand] at hrun

/-- In the preparation only selecting the workspace may fail. -/
theorem tolerated_of_mem_preparation {step : Step} {c : Command} (h : step ∈ s.preparation)
    (hc : step.Tolerates c) : ∃ name, c = selectCommand name := by
  rcases List.mem_cons.mp h with rfl | h
  · exact hc.elim
  · rcases List.mem_append.mp h with h | h
    · obtain ⟨name, -, rfl⟩ := List.mem_map.mp h
      exact ⟨name, hc⟩
    · simp only [List.mem_cons, List.not_mem_nil, or_false] at h
      rcases h with rfl | rfl | rfl <;> exact hc.elim

theorem subcommand_of_mem_preparation {step : Step} {c : Command} (h : step ∈ s.preparation)
    (hc : step.MayRun c) : subcommand c ∈ ["init", "workspace", "validate"] := by
  rcases List.mem_cons.mp h with rfl | h
  · cases hc
    decide
  · rcases List.mem_append.mp h with h | h
    · obtain ⟨name, -, rfl⟩ := List.mem_map.mp h
      rcases hc with rfl | rfl
      · exact List.mem_cons_of_mem _ List.mem_cons_self
      · exact List.mem_cons_of_mem _ List.mem_cons_self
    · simp only [List.mem_cons, List.not_mem_nil, or_false] at h
      rcases h with rfl | rfl | rfl
      · cases hc
        decide
      · cases hc
        decide
      · exact hc.elim

theorem drain_not_mem_preparation : .drain ∉ s.preparation := by
  intro h
  rcases List.mem_cons.mp h with h | h
  · cases h
  · rcases List.mem_append.mp h with h | h
    · obtain ⟨name, -, h⟩ := List.mem_map.mp h
      cases h
    · simp at h

theorem filter_preparationCommands (made : Bool) :
    (s.preparationCommands made).filter isApply = [] := by
  unfold preparationCommands workspaceCommands
  cases s.wantedWorkspace with
  | none => rfl
  | some name => cases made <;> rfl

end Setup

namespace Carries

variable (s : Setup T S)

theorem checkPreconditions : Carries s s.checkPreconditions always [.look] := by
  refine of_takes (Keeps.get_bind fun r => ?_)
  dsimp only
  split
  · exact .throw_bind fun d _ => ⟨rfl, rfl, .inr ⟨_, rfl, rfl⟩⟩
  · split
    · exact .throw fun d _ => ⟨rfl, rfl, .inr ⟨_, rfl, rfl⟩⟩
    · exact .pure fun d _ => ⟨rfl, rfl, .inl rfl⟩

theorem reportAll (refs : List Reference) : IsSilent s (Setup.reportAll refs) := by
  induction refs with
  | nil => exact .pure ()
  | cons r refs ih => exact .bind (.info _) fun _ => ih

theorem reportReferences : Carries s s.reportReferences always [.look] := by
  refine of_takes (Keeps.get_bind fun r => ?_)
  split
  · exact .throw fun d _ => ⟨rfl, rfl, .inr ⟨_, rfl, rfl⟩⟩
  · rename_i refs _
    have hlast : Keeps s (Pure.pure refs) fun d t res d' =>
        d = r.disk → d' = d ∧ Step.look.Takes t (res.map always) :=
      .pure fun d _ => ⟨rfl, rfl, .inl rfl⟩
    dsimp only
    split
    · exact (IsSilent.info _).bind_keeps fun _ => (reportAll s refs).bind_keeps fun _ => hlast
    · exact hlast

/-- Either the workspace is there, or what decides is whether it can be made. -/
theorem selectOrCreate (name : String) :
    Keeps s (do
        let selected ← s.terraform .capture ["workspace", "select", name]
        if !selected.succeeded then
          let _ ← s.require .stream ["workspace", "new", name])
      fun d t res d' => d' = d ∧ (Step.select name).Takes t (res.map always) := by
  refine (Keeps.run s .capture (selectCommand name)).bind (R := fun o d t res d' => d' = d ∧
    (o.succeeded = true ∧ t = [] ∧ res = .ok () ∨
      o.succeeded = false ∧ ∃ response, t = [.command .stream (createCommand name) response] ∧
        res.map always = response.verdict (createCommand name))) ?_ ?_ ?_
  · intro o
    cases ho : o.succeeded with
    | true => exact .pure fun d => ⟨rfl, .inl ⟨rfl, rfl, rfl⟩⟩
    | false =>
      refine (Keeps.require s .stream ["workspace", "new", name]).bind
        (R := fun _ d t res d' => t = [] ∧ res = .ok () ∧ d' = d)
        (fun _ => .pure fun d => ⟨rfl, rfl, rfl⟩) ?_ ?_
      · intro d t e d' hfailed
        obtain ⟨response, ht, hres, hd⟩ := hfailed
        refine ⟨hd, .inr ⟨rfl, response, ht, ?_⟩⟩
        rw [← Response.map_checked .stream, createCommand, ← hres]
        rfl
      · intro d t o d₁ u res d' hfirst hsecond
        obtain ⟨response, rfl, hres, rfl⟩ := hfirst
        obtain ⟨rfl, rfl, hd⟩ := hsecond
        refine ⟨hd, .inr ⟨rfl, response, rfl, ?_⟩⟩
        rw [← Response.map_checked .stream, createCommand, ← hres]
        rfl
  · intro d t e d' hfailed
    obtain ⟨response, ht, hres, hd⟩ := hfailed
    cases response with
    | missing =>
      cases hres
      exact ⟨hd, .inl ⟨.missing, ht, rfl, fun _ h => by cases h⟩⟩
    | exited code out err => cases hres
  · intro d t o d₁ u res d' hfirst hsecond
    obtain ⟨response, rfl, hres, rfl⟩ := hfirst
    obtain ⟨hd, hnext⟩ := hsecond
    cases response with
    | missing => cases hres
    | exited code out err =>
      cases hres
      refine ⟨hd, ?_⟩
      obtain ⟨hcode, rfl, rfl⟩ | ⟨hcode, response, rfl, hverdict⟩ := hnext
      · have hzero : code = 0 := eq_of_beq hcode
        subst hzero
        exact .inl ⟨.exited 0 out err, rfl, rfl, fun _ h => by cases h⟩
      · have hne : code ≠ 0 := ne_of_beq_false hcode
        exact .inr ⟨code, out, err, response, hne, rfl, hverdict⟩

theorem selectWorkspace : Carries s s.selectWorkspace always s.selection := by
  rw [Setup.selectWorkspace, Setup.selection, Setup.wantedWorkspace]
  cases s.workspace with
  | none => exact pure rfl
  | some name =>
    by_cases hname : name.isEmpty = true
    · rw [Option.filter_some_neg (by rw [hname]; decide)]
      dsimp only
      rw [if_pos hname]
      exact pure rfl
    · rw [Option.filter_some_pos (by simpa using hname)]
      dsimp only
      rw [if_neg hname]
      exact silent_bind (.info _) fun _ => of_takes (selectOrCreate s name)

theorem prepare : Carries s s.prepare always s.preparation := by
  show Carries s s.prepare always ([.require .stream ["init", "-upgrade"]] ++ (s.selection ++
    ([.require .capture ["workspace", "show"]] ++ ([.require .stream ["validate"]] ++
      ([.look] ++ [])))))
  refine silent_bind (.title _) fun _ => silent_bind (.info _) fun _ => ?_
  refine silent_bind (.title _) fun _ => bind (require .stream ["init", "-upgrade"]) fun _ => ?_
  refine bind (selectWorkspace s) fun _ => bind (require .capture ["workspace", "show"]) fun _ => ?_
  refine silent_bind (.info _) fun _ => silent_bind (.title _) fun _ => ?_
  exact bind (require .stream ["validate"]) fun _ => bind (reportReferences s) fun _ => pure rfl

end Carries

end Rollout
end Groundplan
