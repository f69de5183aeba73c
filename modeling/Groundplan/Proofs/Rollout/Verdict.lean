/-
How rollouts end.

A verdict becomes an exit code in one way for both kinds of rollout: a command that had
to succeed gives its own code, consent that is refused gives zero, and every other
failure stays one.  `Beyond` is the assertion for a script with something behind it that
needs the whole script to have passed.
-/
import Groundplan.Proofs.Rollout.Preparation

namespace Groundplan
namespace Rollout

variable {T S α β : Type}

/-! ## Exit codes -/

/-- What a rollout gives for a verdict: the code of the command that has failed, if that
is what it was. -/
def settle (v : Verdict) : Except Failure Int :=
  match v with
  | .ok _ => .ok 0
  | .error f =>
    match f.exitCode? with
    | some code => .ok code
    | none => .error f

theorem settle_of_none {f : Failure} (h : f.exitCode? = none) : settle (.error f) = .error f := by
  rw [settle, h]

theorem settle_of_some {f : Failure} {code : Int} (h : f.exitCode? = some code) :
    settle (.error f) = .ok code := by
  rw [settle, h]

/-- A result whose failure may have become an exit code. -/
def handled (res : Except Failure α) : Except Failure (Except Int α) :=
  match res with
  | .ok a => .ok (.ok a)
  | .error f =>
    match f.exitCode? with
    | some code => .ok (.error code)
    | none => .error f

theorem Keeps.orExitCode {s : Setup T S} {P : Assertion T α} (problem : String) {x : Action T S α}
    (hx : Keeps s x P) :
    Keeps s (Setup.orExitCode problem x) fun d t r d' => ∃ res, r = handled res ∧ P d t res d' := by
  have hmap : Keeps s (Except.ok <$> x : Action T S (Except Int α)) fun d t r d' =>
      ∃ res, r = res.map Except.ok ∧ P d t res d' :=
    .map (hx.mono fun d t res d' h => ⟨res, rfl, h⟩)
  refine hmap.tryCatch (R := fun f d t r d' => t = [] ∧ d' = d ∧ r = handled (.error f)) ?_ ?_ ?_
  · intro f
    cases f with
    | exited c code => exact (IsSilent.notice _ _).bind_keeps fun _ => .pure fun d => ⟨rfl, rfl, rfl⟩
    | _ => exact .throw fun d => ⟨rfl, rfl, rfl⟩
  · intro d t r d' hfailed
    obtain ⟨res, hr, h⟩ := hfailed
    cases res with
    | ok a =>
      cases hr
      exact ⟨.ok a, rfl, h⟩
    | error f => cases hr
  · intro d t f d₁ u r d' hfirst hsecond
    obtain ⟨res, hr, h⟩ := hfirst
    obtain ⟨rfl, rfl, rfl⟩ := hsecond
    cases res with
    | ok a => cases hr
    | error f' =>
      cases hr
      rw [List.append_nil]
      exact ⟨.error f, rfl, h⟩

/-- A first part that fails is the end, with an exit code if it has one. -/
theorem Keeps.orExitCode_bind {s : Setup T S} {P : Assertion T α} {Q : Assertion T Int}
    {R : α → Assertion T Int} (problem : String) {x : Action T S α}
    {f : Except Int α → Action T S Int} (hx : Keeps s x P)
    (hcode : ∀ code, f (.error code) = Pure.pure code) (hf : ∀ a, Keeps s (f (.ok a)) (R a))
    (hfail : ∀ d t e d', P d t (.error e) d' → Q d t (settle (.error e)) d')
    (hnext : ∀ d t a d₁ u res d', P d t (.ok a) d₁ → R a d₁ u res d' → Q d (t ++ u) res d') :
    Keeps s (Setup.orExitCode problem x >>= f) Q := by
  refine Keeps.bind (.orExitCode problem hx) (R := fun r d t res d' =>
    (∃ a, r = .ok a ∧ R a d t res d') ∨
      ∃ code, r = .error code ∧ t = [] ∧ res = .ok code ∧ d' = d) ?_ ?_ ?_
  · intro r
    cases r with
    | ok a => exact (hf a).mono fun _ _ _ _ h => .inl ⟨a, rfl, h⟩
    | error code =>
      rw [hcode]
      exact .pure fun d => .inr ⟨code, rfl, rfl, rfl, rfl⟩
  · intro d t e d' hfailed
    obtain ⟨res, hr, h⟩ := hfailed
    cases res with
    | ok a => cases hr
    | error e' =>
      have hsettle := hfail _ _ _ _ h
      rw [handled] at hr
      split at hr
      · cases hr
      · rename_i hnone
        cases hr
        rw [settle_of_none hnone] at hsettle
        exact hsettle
  · intro d t r d₁ u res d' hfirst hnext'
    obtain ⟨res₁, hr, h⟩ := hfirst
    cases res₁ with
    | ok a =>
      cases hr
      obtain ⟨a', ha, hR⟩ | ⟨code, hcode', -⟩ := hnext'
      · cases ha
        exact hnext _ _ _ _ _ _ _ h hR
      · cases hcode'
    | error e =>
      have hsettle := hfail _ _ _ _ h
      rw [handled] at hr
      split at hr
      · rename_i code hsome
        cases hr
        obtain ⟨a, ha, -⟩ | ⟨code', hcode', rfl, rfl, rfl⟩ := hnext'
        · cases ha
        · cases hcode'
          rw [settle_of_some hsome] at hsettle
          rw [List.append_nil]
          exact hsettle
      · cases hr

/-- Whether what a step fails with may be an exit code. -/
def Step.mayExit : Step → Bool
  | .require .. | .select _ => true
  | _ => false

theorem Step.Takes.exitCode?_eq_none {step : Step} {t : Transcript T} {f : Failure}
    (h : step.Takes t (.error f)) (hstep : step.mayExit = false) : f.exitCode? = none := by
  cases step with
  | look =>
    obtain ⟨-, hv | ⟨f', hf, hnone⟩⟩ := h
    · cases hv
    · cases hf
      exact hnone
  | require mode args => cases hstep
  | attempt mode args =>
    obtain ⟨response, -, hv⟩ := h
    cases response with
    | missing =>
      cases hv
      rfl
    | exited code out err => cases mode <;> cases hv
  | select name => cases hstep
  | drain =>
    obtain ⟨-, hv | ⟨f', hf, hnone⟩⟩ := h
    · cases hv
    · cases hf
      exact hnone
  | consent question =>
    obtain ⟨⟨typed, decision⟩, -, hv⟩ := h
    cases decision with
    | none =>
      cases hv
      rfl
    | some b => cases hv

theorem Follows.exitCode?_eq_none {script : Script} {t : Transcript T} {f : Failure}
    (h : Follows script t (.error f)) (hscript : ∀ step ∈ script, step.mayExit = false) :
    f.exitCode? = none := by
  induction script generalizing t with
  | nil => cases h
  | cons step rest ih =>
    cases h with
    | stop hstep _ => exact hstep.exitCode?_eq_none (hscript _ List.mem_cons_self)
    | next _ hrest => exact ih hrest fun step hmem => hscript step (List.mem_cons_of_mem _ hmem)

/-- A script that has not passed gives zero for a refusal, and otherwise the code of its
last command. -/
theorem Follows.of_settle {script : Script} {t : Transcript T} {v : Verdict} {code : Int}
    (h : Follows script t v) (hv : v ≠ .ok true) (hcode : settle v = .ok code) :
    code = 0 ∧ (∃ before text typed, t = before ++ [.question text ⟨typed, some false⟩]) ∨
      code ≠ 0 ∧ ∃ before e c, t = before ++ [e] ∧ e.Exited c code := by
  cases v with
  | ok b =>
    cases b with
    | true => exact absurd rfl hv
    | false =>
      cases hcode
      exact .inl ⟨rfl, h.of_declined⟩
  | error f =>
    cases f with
    | exited c k =>
      cases hcode
      obtain ⟨hk, before, e, ht, he⟩ := h.of_exited
      exact .inr ⟨hk, before, e, c, ht, he⟩
    | _ => cases hcode

/-! ## Beyond a script -/

/-- A script that does not pass is the end; what is beyond it follows only if it does. -/
def Beyond (script : Script) (P : Assertion T Bool) : Assertion T Bool := fun d t v d' =>
  (v ≠ .ok true ∧ Follows script t v ∧ d' = d) ∨
    ∃ t₁ t₂, t = t₁ ++ t₂ ∧ Follows script t₁ (.ok true) ∧ P d t₂ v d'

theorem Beyond.of_ne {A : Script} (B : Script) {P : Assertion T Bool} {d : Storage.Disk}
    {t : Transcript T} {v : Verdict} (h : Follows A t v) (hv : v ≠ .ok true) :
    Beyond (A ++ B) P d t v d :=
  .inl ⟨hv, h.append_of_ne B hv, rfl⟩

theorem Beyond.append {A B : Script} {P : Assertion T Bool} {d d' : Storage.Disk}
    {t u : Transcript T} {v : Verdict} (hA : Follows A t (.ok true)) (hB : Beyond B P d u v d') :
    Beyond (A ++ B) P d (t ++ u) v d' := by
  obtain ⟨hv, hu, hd⟩ | ⟨u₁, u₂, rfl, hu, hP⟩ := hB
  · exact .inl ⟨hv, hA.append hu, hd⟩
  · exact .inr ⟨t ++ u₁, u₂, (List.append_assoc _ _ _).symm, hA.append hu, hP⟩

theorem Beyond.exists_follows {script : Script} {P : Assertion T Bool} {d d' : Storage.Disk}
    {t : Transcript T} {v : Verdict} (h : Beyond script P d t v d') :
    ∃ t₁ t₂ w, t = t₁ ++ t₂ ∧ Follows script t₁ w ∧
      (w ≠ .ok true ∧ t₂ = [] ∧ v = w ∧ d' = d ∨ w = .ok true ∧ P d t₂ v d') := by
  obtain ⟨hv, ht, hd⟩ | ⟨t₁, t₂, ht, ht₁, hP⟩ := h
  · exact ⟨t, [], v, (List.append_nil t).symm, ht, .inl ⟨hv, rfl, rfl, hd⟩⟩
  · exact ⟨t₁, t₂, .ok true, ht, ht₁, .inr ⟨rfl, hP⟩⟩

/-- What an assertion on a verdict comes to for the exit code. -/
def Settled (P : Assertion T Bool) : Assertion T Int := fun d t res d' =>
  ∃ v, res = settle v ∧ P d t v d'

theorem Settled.of_error {A : Script} (B : Script) {P : Assertion T Bool} {d : Storage.Disk}
    {t : Transcript T} {f : Failure} (h : Follows A t (.error f)) :
    Settled (Beyond (A ++ B) P) d t (settle (.error f)) d :=
  ⟨.error f, rfl, .of_ne B h error_ne_ok⟩

theorem Settled.append {A B : Script} {P : Assertion T Bool} {d d' : Storage.Disk}
    {t u : Transcript T} {res : Except Failure Int} (hA : Follows A t (.ok true))
    (hB : Settled (Beyond B P) d u res d') : Settled (Beyond (A ++ B) P) d (t ++ u) res d' := by
  obtain ⟨v, hv, hB⟩ := hB
  exact ⟨v, hv, .append hA hB⟩

namespace Carries

variable {s : Setup T S} {P : Assertion T Bool} {A B : Script}

theorem bind_beyond {x : Action T S α} {f : α → Action T S Bool} (hx : Carries s x always A)
    (hf : ∀ a, Keeps s (f a) (Beyond B P)) : Keeps s (x >>= f) (Beyond (A ++ B) P) := by
  refine Keeps.bind hx hf ?_ ?_
  · intro d t e d' hfailed
    obtain ⟨rfl, ht⟩ := hfailed
    exact .of_ne B ht error_ne_ok
  · intro d t a d₁ u res d' hfirst hu
    obtain ⟨rfl, ht⟩ := hfirst
    exact .append ht hu

theorem consent_bind_beyond {x : Action T S Bool} {f : Bool → Action T S Bool}
    (hx : Carries s x id A) (hyes : Keeps s (f true) (Beyond B P))
    (hno : Keeps s (f false) fun d t v d' => t = [] ∧ v = .ok false ∧ d' = d) :
    Keeps s (x >>= f) (Beyond (A ++ B) P) := by
  refine consent_bind (.ok false) hx hyes hno ?_ ?_ ?_
  · intro d t e ht
    exact .of_ne B ht error_ne_ok
  · intro d t ht
    exact .of_ne B ht refused_ne
  · intro d t u v d' ht hu
    exact .append ht hu

/-- What is checked first never fails with an exit code, so nothing has to handle it. -/
theorem checkPreconditions_bind {x : Action T S Int} (hx : Keeps s x (Settled (Beyond A P))) :
    Keeps s (s.checkPreconditions >>= fun _ => x) (Settled (Beyond ([.look] ++ A) P)) := by
  refine Keeps.bind (checkPreconditions s) (fun _ => hx) ?_ ?_
  · intro d t f d' hfailed
    obtain ⟨rfl, ht⟩ := hfailed
    have hnone : f.exitCode? = none := ht.exitCode?_eq_none (by decide)
    rw [← settle_of_none hnone]
    exact .of_error A ht
  · intro d t a d₁ u res d' hfirst hu
    obtain ⟨rfl, ht⟩ := hfirst
    exact .append ht hu

end Carries

end Rollout
end Groundplan
