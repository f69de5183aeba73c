/-
What the report on placeholders has no say in.

A rollout looks at the generated files only to report on the placeholders in them, and
nothing is done with the report.  So from two disks that differ in such files alone it
takes the same course, provided that every one of them can be read.  The proviso cannot be
left out: the report gives up at the first file that is not text, and the rollout with it.

`Mirrors` is the program logic for this.  It speaks of two runs of one action from disks
that are related, and its rules follow what an action is built from.
-/
import Groundplan.Proofs.Rollout.Destruction
import Groundplan.Proofs.Rollout.Sources
import Groundplan.Proofs.Storage.Agreement

namespace Groundplan
namespace Rollout

open Storage

variable {T S α β : Type}

/-! ## Two runs -/

/-- Two outcomes, each from a state of its own, that come to the same thing after the same
contact with the outside. -/
structure SameCourse (r r' : Run T S) (p p' : Except Failure α × Run T S) : Prop where
  result : p'.1 = p.1
  outside : p'.2.outside = p.2.outside
  effects : ∃ added added', p.2.trace = r.trace ++ added ∧ p'.2.trace = r'.trace ++ added' ∧
    added'.filter Effect.isContact = added.filter Effect.isContact

theorem SameCourse.trans {r r' : Run T S} {p p' : Except Failure α × Run T S}
    {q q' : Except Failure β × Run T S} (h : SameCourse r r' p p') (h' : SameCourse p.2 p'.2 q q') :
    SameCourse r r' q q' := by
  obtain ⟨first, first', htrace, htrace', hcontact⟩ := h.effects
  obtain ⟨second, second', hsecond, hsecond', hcontact₂⟩ := h'.effects
  refine ⟨h'.result, h'.outside, first ++ second, first' ++ second', ?_, ?_, ?_⟩
  · rw [hsecond, htrace, List.append_assoc]
  · rw [hsecond', htrace', List.append_assoc]
  · rw [List.filter_append, List.filter_append, hcontact, hcontact₂]

/-- Nothing is done. -/
theorem SameCourse.still {r r₁ r' r₁' : Run T S} (res : Except Failure α)
    (houtside : r₁'.outside = r₁.outside) (htrace : r₁.trace = r.trace)
    (htrace' : r₁'.trace = r'.trace) : SameCourse r r' (res, r₁) (res, r₁') :=
  ⟨rfl, houtside, [], [], by rw [htrace, List.append_nil], by rw [htrace', List.append_nil], rfl⟩

/-- From disks that are related an action takes the same course, and the disks that it
leaves are related. -/
def Mirrors (R R' : Disk → Disk → Prop) (x : Action T S α) : Prop :=
  ∀ r r', r'.outside = r.outside → R r.disk r'.disk →
    SameCourse r r' (outcome x r) (outcome x r') ∧
      R' (outcome x r).2.disk (outcome x r').2.disk

theorem outcome_onDisk (path : Path) (f : Disk → Except Fault Disk) (r : Run T S) :
    outcome (onDisk path f) r = match f r.disk with
      | .ok d => (.ok (), { r with disk := d })
      | .error e => (.error (.storage ⟨e, path⟩), r) := by
  have hget : outcome (MonadState.get : Action T S (Run T S)) r = (.ok r, r) := rfl
  rw [onDisk, outcome_bind_ok hget]
  cases f r.disk <;> rfl

namespace Mirrors

variable {R R₁ R' : Disk → Disk → Prop}

theorem mono {Q Q' : Disk → Disk → Prop} {x : Action T S α} (hx : Mirrors R R' x)
    (h : ∀ d d', Q d d' → R d d') (h' : ∀ d d', R' d d' → Q' d d') : Mirrors Q Q' x := by
  intro r r' houtside hdisk
  obtain ⟨hcourse, hleft⟩ := hx r r' houtside (h _ _ hdisk)
  exact ⟨hcourse, h' _ _ hleft⟩

theorem pure (a : α) : Mirrors R R (Pure.pure a : Action T S α) :=
  fun _ _ houtside hdisk => ⟨.still (.ok a) houtside rfl rfl, hdisk⟩

theorem throw (f : Failure) : Mirrors R R (MonadExcept.throw f : Action T S α) :=
  fun _ _ houtside hdisk => ⟨.still (.error f) houtside rfl rfl, hdisk⟩

theorem effect (e : Effect T) : Mirrors R R (effect e : Action T S Unit) :=
  fun _ _ houtside hdisk => ⟨⟨rfl, houtside, [e], [e], rfl, rfl, rfl⟩, hdisk⟩

theorem consult (f : S → α × S) : Mirrors R R (consult f : Action T S α) := by
  intro r r' houtside hdisk
  rw [outcome_consult, outcome_consult, houtside]
  exact ⟨.still _ rfl rfl rfl, hdisk⟩

theorem bind {x : Action T S α} {f : α → Action T S β} (hx : Mirrors R R₁ x)
    (hf : ∀ a, Mirrors R₁ R' (f a)) (hfail : ∀ d d', R₁ d d' → R' d d') :
    Mirrors R R' (x >>= f) := by
  intro r r' houtside hdisk
  obtain ⟨hcourse, hleft⟩ := hx r r' houtside hdisk
  generalize hp : outcome x r = p at hcourse hleft
  generalize hp' : outcome x r' = p' at hcourse hleft
  obtain ⟨res, r₁⟩ := p
  obtain ⟨res', r₁'⟩ := p'
  cases hcourse.result
  cases res with
  | error f =>
    rw [outcome_bind_error hp, outcome_bind_error hp']
    exact ⟨hcourse.trans (.still (.error f) hcourse.outside rfl rfl), hfail _ _ hleft⟩
  | ok a =>
    rw [outcome_bind_ok hp, outcome_bind_ok hp']
    obtain ⟨hnext, hlast⟩ := hf a r₁ r₁' hcourse.outside hleft
    exact ⟨hcourse.trans hnext, hlast⟩

theorem tryCatch {x : Action T S α} {h : Failure → Action T S α} (hx : Mirrors R R₁ x)
    (hh : ∀ e, Mirrors R₁ R' (h e)) (hok : ∀ d d', R₁ d d' → R' d d') :
    Mirrors R R' (MonadExcept.tryCatch x h) := by
  intro r r' houtside hdisk
  obtain ⟨hcourse, hleft⟩ := hx r r' houtside hdisk
  generalize hp : outcome x r = p at hcourse hleft
  generalize hp' : outcome x r' = p' at hcourse hleft
  obtain ⟨res, r₁⟩ := p
  obtain ⟨res', r₁'⟩ := p'
  cases hcourse.result
  cases res with
  | error f =>
    rw [outcome_tryCatch_error hp, outcome_tryCatch_error hp']
    obtain ⟨hnext, hlast⟩ := hh f r₁ r₁' hcourse.outside hleft
    exact ⟨hcourse.trans hnext, hlast⟩
  | ok a =>
    rw [outcome_tryCatch_ok hp, outcome_tryCatch_ok hp']
    exact ⟨hcourse, hok _ _ hleft⟩

theorem ite {p : Prop} [Decidable p] {x y : Action T S α} (hx : Mirrors R R' x)
    (hy : Mirrors R R' y) : Mirrors R R' (if p then x else y) := by
  split
  · exact hx
  · exact hy

/-- A part that leaves the relation as it is. -/
theorem seq {x : Action T S α} {f : α → Action T S β} (hx : Mirrors R R x)
    (hf : ∀ a, Mirrors R R (f a)) : Mirrors R R (x >>= f) :=
  bind hx hf fun _ _ h => h

theorem notice (kind : Notice) (text : String) : Mirrors R R (notice kind text : Action T S Unit) :=
  effect _

theorem title (text : String) : Mirrors R R (title text : Action T S Unit) := effect _

theorem info (text : String) : Mirrors R R (info text : Action T S Unit) := effect _

theorem warn (text : String) : Mirrors R R (warn text : Action T S Unit) := effect _

theorem log (record : LogRecord) : Mirrors R R (log record : Action T S Unit) := effect _

theorem forIn {γ : Type} (xs : List γ) {f : γ → Unit → Action T S (ForInStep Unit)}
    (hf : ∀ x a, Mirrors R R (f x a)) : Mirrors R R (forIn xs () f) := by
  induction xs with
  | nil =>
    rw [List.forIn_nil]
    exact pure ()
  | cons x xs ih =>
    rw [List.forIn_cons]
    refine seq (hf x ()) fun a => ?_
    cases a with
    | done a => exact pure a
    | yield a => exact ih

theorem ofAnswer (x : Except AnswerFault α) : Mirrors R R (ofAnswer x : Action T S α) := by
  cases x with
  | ok a => exact pure a
  | error e => exact throw _

/-- A step that comes to the same on both disks. -/
theorem onDisk {path : Path} {f : Disk → Except Fault Disk} {region : Location → Prop}
    {cwd : Location}
    (hf : ∀ d d', Disk.AgreeOff region cwd d d' → Disk.AgreeOn region cwd (f d) (f d')) :
    Mirrors (Disk.AgreeOff region cwd) (Disk.AgreeOff region cwd)
      (onDisk path f : Action T S Unit) := by
  intro r r' houtside hdisk
  have hstep := hf _ _ hdisk
  rw [outcome_onDisk, outcome_onDisk]
  generalize f r.disk = x at hstep
  generalize f r'.disk = x' at hstep
  cases hstep with
  | ok hagree => exact ⟨.still (.ok ()) houtside rfl rfl, hagree⟩
  | error e => exact ⟨.still (.error _) houtside rfl rfl, hdisk⟩

section Talking

variable (s : Setup T S)

theorem run (mode : Mode) (c : Command) : Mirrors R R (s.run mode c) := by
  refine seq (log _) fun _ => seq (effect _) fun _ => seq (consult _) fun response => ?_
  cases response with
  | missing => exact throw _
  | exited code out err =>
    cases mode with
    | stream => exact pure _
    | capture => exact pure _
    | tee => exact seq (forIn _ fun line _ => seq (effect _) fun _ => pure _) fun _ => pure _

theorem check (o : Output) : Mirrors R R (Setup.check o : Action T S Output) :=
  ite (pure _) (throw _)

theorem require (mode : Mode) (args : List String) : Mirrors R R (s.require mode args) :=
  seq (run s mode _) fun o => check o

theorem confirm (question : String) : Mirrors R R (s.confirm question) := by
  refine seq (consult _) fun reply => seq (effect _) fun _ => ?_
  cases reply.decision with
  | some b => exact pure b
  | none => exact throw _

theorem now : Mirrors R R s.now := consult _

theorem wait (span : T) : Mirrors R R (s.wait span) := seq (effect _) fun _ => consult _

end Talking

/-! ## Draining -/

section Draining

variable (s : Setup T S)

theorem isDrained (o : Output) : Mirrors R R (Setup.isDrained o : Action T S Bool) :=
  ite (seq (ofAnswer _) fun _ => pure _) (pure _)

theorem warnOnFailure (o : Output) : Mirrors R R (Setup.warnOnFailure o : Action T S Unit) :=
  ite (pure ()) (warn _)

theorem mayDelete (service : String) : Mirrors R R (s.mayDelete service) :=
  ite (seq (info _) fun _ => pure _) <|
    seq (confirm s _) fun _ => ite (seq (info _) fun _ => pure _) (pure _)

theorem clusterName (address : String) : Mirrors R R (s.clusterName address) :=
  seq (run s .capture _) fun _ => pure _

theorem listServices (cluster : String) : Mirrors R R (s.listServices cluster) := by
  refine seq (run s .capture _) fun o => ite (seq (ofAnswer _) fun ids => ?_) ?_
  · cases ids with
    | some ids => exact pure ids
    | none => exact seq (log _) fun _ => pure _
  · exact seq (log _) fun _ => pure _

variable [Timescale T]

theorem poll (cluster service : String) (deadline : T) (n : Nat) :
    Mirrors R R (s.poll cluster service deadline n) := by
  induction n with
  | zero => exact throw _
  | succ n ih =>
    refine seq (run s .capture _) fun answer => seq (isDrained answer) fun rests => ite (pure _) ?_
    exact seq (now s) fun _ => ite (pure _) (seq (wait s _) fun _ => ih)

theorem drainService (cluster service : String) : Mirrors R R (s.drainService cluster service) := by
  have hdelete : Mirrors R R (do
      if ← s.mayDelete service then
        Setup.warnOnFailure (← s.aws
          ["ecs", "delete-service", "--cluster", cluster, "--service", service, "--force"])) :=
    seq (mayDelete s service) fun _ =>
      ite (seq (run s .capture _) fun _ => warnOnFailure _) (pure _)
  refine seq (info _) fun _ => seq (run s .capture _) fun _ => seq (warnOnFailure _) fun _ => ?_
  refine seq (info _) fun _ => seq (seq (now s) fun _ => poll s cluster service _ _) fun rests => ?_
  exact ite (seq (warn _) fun _ => hdelete) hdelete

theorem drainServices (cluster : String) (ids : List Datum) :
    Mirrors R R (s.drainServices cluster ids) := by
  induction ids with
  | nil => exact pure ()
  | cons id ids ih =>
    exact seq (ofAnswer _) fun service => seq (drainService s cluster service) fun _ => ih

theorem drainCluster (address : String) : Mirrors R R (s.drainCluster address) := by
  refine seq (clusterName s address) fun name => ?_
  cases name with
  | none => exact pure ()
  | some cluster =>
    refine ite (pure ()) (seq (info _) fun _ => seq (listServices s cluster) fun services => ?_)
    exact ite (pure ()) (seq (info _) fun _ => drainServices s cluster services)

theorem drainClusters (addresses : List String) : Mirrors R R (s.drainClusters addresses) := by
  induction addresses with
  | nil => exact pure ()
  | cons address addresses ih => exact seq (drainCluster s address) fun _ => ih

theorem drain : Mirrors R R s.drain :=
  ite (seq (info _) fun _ => seq (run s .capture _) fun _ => ite (drainClusters s _) (log _))
    (warn _)

end Draining

/-! ## The parts of a rollout -/

section Parts

variable (s : Setup T S)

theorem orExitCode (problem : String) {x : Action T S α} (hx : Mirrors R R₁ x) :
    Mirrors R R₁ (Setup.orExitCode problem x) := by
  have hmap : Mirrors R R₁ (Except.ok <$> x : Action T S (Except Int α)) := by
    rw [← bind_pure_comp]
    exact bind hx (fun a => pure _) fun _ _ h => h
  refine tryCatch hmap (fun f => ?_) fun _ _ h => h
  cases f with
  | exited c code => exact seq (notice _ _) fun _ => pure _
  | _ => exact throw _

theorem selectWorkspace : Mirrors R R s.selectWorkspace := by
  rw [Setup.selectWorkspace]
  cases s.workspace with
  | none => exact pure ()
  | some name =>
    refine ite (pure ()) (seq (info _) fun _ => seq (run s .capture _) fun selected => ?_)
    exact ite (seq (require s .stream _) fun _ => pure _) (pure ())

theorem apply : Mirrors R R s.apply := by
  have hdone : Mirrors R R (do
      Rollout.notice .success "Terraform deployment completed successfully!"
      Pure.pure true : Action T S Bool) := seq (notice _ _) fun _ => pure _
  refine seq (title _) fun _ => ite (seq (require s .stream _) fun _ => hdone) ?_
  refine seq (confirm s _) fun granted => ite (seq (info _) fun _ => pure _) ?_
  exact seq (require s .stream _) fun _ => hdone

theorem infoAll (lines : List String) : Mirrors R R (Setup.infoAll lines : Action T S Unit) := by
  induction lines with
  | nil => exact pure ()
  | cons line lines ih => exact seq (info _) fun _ => ih

theorem approveDestruction (current : String) : Mirrors R R (s.approveDestruction current) := by
  refine ite (pure _) (seq (warn _) fun _ => ?_)
  refine seq (seq (run s .capture _) fun _ => pure _) fun deletions => ?_
  exact ite (seq (warn _) fun _ => seq (infoAll _) fun _ => confirm s _) (confirm s _)

end Parts

end Mirrors

/-! ## Generated files -/

/-- A location below a directory with a component that is named like a generated file. -/
def IsSource (root l : Location) : Prop :=
  ∃ parts, l = root ++ parts ∧ ∃ name ∈ parts, isSourceName name = true

theorem avoids_child {cwd : Location} {directory : Path} {name : String}
    (h : Disk.Avoids (IsSource (Disk.place cwd directory)) cwd directory)
    (hname : isSourceName name = false) (hdots : name ≠ "..") :
    Disk.Avoids (IsSource (Disk.place cwd directory)) cwd (directory.child name) := by
  intro parts hparts hsource
  rcases List.prefix_concat_iff.mp hparts with rfl | hparts
  · obtain ⟨parts, hplace, other, hother, hsource⟩ := hsource
    rw [List.foldl_append] at hplace
    have hlast : Disk.place cwd directory ++ [name] = Disk.place cwd directory ++ parts := by
      rw [← hplace, List.foldl_cons, List.foldl_nil, Disk.enter, if_neg hdots]
      rfl
    rw [← List.append_cancel_left hlast, List.mem_singleton] at hother
    rw [hother, hname] at hsource
    cases hsource
  · exact h parts hparts hsource

namespace Setup

variable (s : Setup T S)

/-- Two disks differ in nothing but what stands, in the generated directory, at places that
are named like generated files. -/
abbrev AgreeBesideSources (cwd : Location) : Disk → Disk → Prop :=
  Disk.AgreeOff (IsSource (Disk.place cwd s.directory)) cwd

/-- A path does not lead to or through such a place. -/
abbrev AvoidsSources (cwd : Location) (p : Path) : Prop :=
  Disk.Avoids (IsSource (Disk.place cwd s.directory)) cwd p

/-- Everything that the report reads is a file with a text. -/
def HasReadableSources (d : Disk) : Prop :=
  ∀ p ∈ sourcePaths d s.directory, ∃ text, d.readText p = .ok text

end Setup

namespace Mirrors

section Report

variable {s : Setup T S}

/-- What only shows or logs something leaves everything else as it is. -/
theorem outcome_of_silent {x : Action T S α} (hx : IsSilent s x) (r : Run T S) :
    ∃ a added, outcome x r = (.ok a, { r with trace := r.trace ++ added }) ∧
      added.filter Effect.isContact = [] := by
  obtain ⟨t, haccounts, ht, hdisk, a, ha⟩ := hx r
  subst ht
  obtain ⟨added, htrace, hcontact⟩ := haccounts.effects
  have houtside : (outcome x r).2.outside = r.outside := haccounts.answers
  refine ⟨a, added, Prod.ext ha ?_, hcontact⟩
  rw [← hdisk, ← houtside, ← htrace]

theorem silent_tell (refs : List Reference) : IsSilent s (do
    if !refs.isEmpty then
      Rollout.info "The following SCORE placeholders were copied literally and may need values:"
      Setup.reportAll refs
    return refs) := by
  dsimp only
  split
  · exact .bind (.info _) fun _ => .bind (Carries.reportAll s refs) fun _ => .pure refs
  · exact .pure refs

/-- A report that can be made is a message and nothing else. -/
theorem outcome_report {r : Run T S} (h : s.HasReadableSources r.disk) (current : String) :
    ∃ added, outcome (do let _ ← s.reportReferences; return current) r =
      (.ok current, { r with trace := r.trace ++ added }) ∧
        added.filter Effect.isContact = [] := by
  obtain ⟨texts, htexts⟩ := exists_readAll h
  have hrefs : references s.environment r.disk s.directory =
      .ok (referencesIn s.environment texts) := by
    rw [references, htexts]
    rfl
  have hget : outcome (MonadState.get : Action T S (Run T S)) r = (.ok r, r) := rfl
  obtain ⟨refs, added, htold, hcontact⟩ :=
    outcome_of_silent (s := s) (silent_tell (referencesIn s.environment texts)) r
  have hreport : outcome s.reportReferences r =
      (.ok refs, { r with trace := r.trace ++ added }) := by
    rw [Setup.reportReferences, outcome_bind_ok hget, hrefs]
    exact htold
  exact ⟨added, by rw [outcome_bind_ok hreport]; rfl, hcontact⟩

/-- Disks on which the report can be made. -/
def Readable (s : Setup T S) (R : Disk → Disk → Prop) (d d' : Disk) : Prop :=
  R d d' ∧ s.HasReadableSources d ∧ s.HasReadableSources d'

theorem report (current : String) :
    Mirrors (Readable s R) (Readable s R) (do let _ ← s.reportReferences; return current) := by
  intro r r' houtside hdisk
  obtain ⟨added, hreport, hcontact⟩ := outcome_report hdisk.2.1 current
  obtain ⟨added', hreport', hcontact'⟩ := outcome_report hdisk.2.2 current
  rw [hreport, hreport']
  exact ⟨⟨rfl, houtside, added, added', rfl, rfl, by rw [hcontact, hcontact']⟩, hdisk⟩

theorem prepare : Mirrors (Readable s R) (Readable s R) s.prepare := by
  refine seq (title _) fun _ => seq (info _) fun _ => seq (title _) fun _ => ?_
  refine seq (require s .stream _) fun _ => seq (selectWorkspace s) fun _ => ?_
  refine seq (require s .capture _) fun shown => seq (info _) fun _ => seq (title _) fun _ => ?_
  exact seq (require s .stream _) fun _ => report _

end Report

/-! ## Both kinds of rollout -/

section Rollouts

variable {s : Setup T S} {cwd : Location}

theorem checkPreconditions (hdirectory : s.AvoidsSources cwd s.directory) :
    Mirrors (Readable s (s.AgreeBesideSources cwd)) (Readable s (s.AgreeBesideSources cwd))
      s.checkPreconditions := by
  have hget : ∀ r, outcome (MonadState.get : Action T S (Run T S)) r = (.ok r, r) := fun _ => rfl
  intro r r' houtside hdisk
  rw [Setup.checkPreconditions, outcome_bind_ok (hget r), outcome_bind_ok (hget r'),
    hdisk.1.isDirectory hdirectory]
  -- What is looked at is the same from here on, so both runs go on in the same way.
  have hrest : Mirrors (Readable s (s.AgreeBesideSources cwd))
      (Readable s (s.AgreeBesideSources cwd)) (do
        if !r.disk.isDirectory s.directory then MonadExcept.throw (.noDirectory s.directory)
        if !s.isInstalled "terraform" then
          MonadExcept.throw (.noTool "terraform" (some "Please install Terraform and try again."))
        : Action T S Unit) :=
    ite (seq (throw _) fun _ => ite (throw _) (pure _)) (ite (throw _) (pure _))
  exact hrest r r' houtside hdisk

theorem saveOutputs (houtputs : s.AvoidsSources cwd s.outputs) :
    Mirrors (s.AgreeBesideSources cwd) (s.AgreeBesideSources cwd) s.saveOutputs := by
  refine seq (title _) fun _ => seq (require s .stream _) fun _ => ?_
  refine seq (require s .capture _) fun results => seq (onDisk fun d d' h => ?_) fun _ => info _
  exact h.writeText houtputs results.out

theorem provision (houtputs : s.AvoidsSources cwd s.outputs) :
    Mirrors (Readable s (s.AgreeBesideSources cwd)) (s.AgreeBesideSources cwd) s.provision := by
  refine bind (prepare.mono (fun _ _ h => h) fun _ _ h => h.1) (fun _ => ?_) fun _ _ h => h
  refine seq (title _) fun _ => seq (require s .stream _) fun _ => seq (apply s) fun granted => ?_
  exact ite (seq (saveOutputs houtputs) fun _ => pure _) (pure _)

theorem deploy (hdirectory : s.AvoidsSources cwd s.directory)
    (houtputs : s.AvoidsSources cwd s.outputs) :
    Mirrors (Readable s (s.AgreeBesideSources cwd)) (s.AgreeBesideSources cwd) s.deploy := by
  refine bind (checkPreconditions hdirectory) (fun _ => ?_) fun _ _ h => h.1
  refine bind (orExitCode _ (provision houtputs)) (fun done => ?_) fun _ _ h => h
  cases done with
  | error code => exact pure code
  | ok granted =>
    cases granted with
    | false => exact pure _
    | true =>
      refine seq (title _) fun _ => seq (info _) fun _ => seq (info _) fun _ => ?_
      exact seq (info _) fun _ => pure _

theorem removeFiles (hdirectory : s.AvoidsSources cwd s.directory) {names : List String}
    (hnames : ∀ name ∈ names, isSourceName name = false ∧ name ≠ "..") :
    Mirrors (s.AgreeBesideSources cwd) (s.AgreeBesideSources cwd) (s.removeFiles names) := by
  induction names with
  | nil => exact pure ()
  | cons name names ih =>
    have hname := hnames name List.mem_cons_self
    refine seq (onDisk fun d d' h => ?_) fun _ =>
      ih fun other hother => hnames other (List.mem_cons_of_mem name hother)
    exact h.removeIfPresent (avoids_child hdirectory hname.1 hname.2)

theorem removeAll (hdirectory : s.AvoidsSources cwd s.directory) {names : List String}
    (hnames : ∀ name ∈ names, isSourceName name = false ∧ name ≠ "..") :
    Mirrors (s.AgreeBesideSources cwd) (s.AgreeBesideSources cwd) (s.removeAll names) := by
  induction names with
  | nil => exact pure ()
  | cons name names ih =>
    have hname := hnames name List.mem_cons_self
    have hpath := avoids_child hdirectory hname.1 hname.2
    refine seq (onDisk fun d d' h => ?_) fun _ =>
      ih fun other hother => hnames other (List.mem_cons_of_mem name hother)
    rw [h.isDirectory hpath]
    split
    · exact h.removeTree hpath
    · exact h.removeIfPresent hpath

theorem applyDestruction (hdirectory : s.AvoidsSources cwd s.directory) :
    Mirrors (s.AgreeBesideSources cwd) (s.AgreeBesideSources cwd) s.applyDestruction := by
  have hplans : ∀ name ∈ [Setup.destroyPlanFile, Setup.planFile],
      isSourceName name = false ∧ name ≠ ".." := by decide
  have hstate : ∀ name ∈ Setup.stateFiles, isSourceName name = false ∧ name ≠ ".." := by decide
  refine seq (info _) fun _ => seq (run s .tee _) fun result => ite ?_ ?_
  · refine seq (notice _ _) fun _ => seq (removeFiles hdirectory hplans) fun _ => ite ?_ (pure _)
    refine seq (confirm s _) fun agreed => ite ?_ (pure _)
    exact seq (removeAll hdirectory hstate) fun _ => seq (info _) fun _ => pure _
  · exact seq (notice _ _) fun _ => seq (infoAll _) fun _ => pure _

theorem destroy [Timescale T] (hdirectory : s.AvoidsSources cwd s.directory) :
    Mirrors (Readable s (s.AgreeBesideSources cwd)) (s.AgreeBesideSources cwd) s.destroy := by
  have hplan : Mirrors (Readable s (s.AgreeBesideSources cwd)) (s.AgreeBesideSources cwd)
      s.planDestruction := by
    refine bind (prepare.mono (fun _ _ h => h) fun _ _ h => h.1) (fun _ => ?_) fun _ _ h => h
    refine seq (title _) fun _ => seq (drain s) fun _ => seq (info _) fun _ => ?_
    exact seq (require s .stream _) fun _ => pure _
  refine bind (checkPreconditions hdirectory) (fun _ => ?_) fun _ _ h => h.1
  refine bind (orExitCode _ hplan) (fun planned => ?_) fun _ _ h => h
  cases planned with
  | error code => exact pure code
  | ok current =>
    refine seq (approveDestruction s current) fun granted => ite (applyDestruction hdirectory) ?_
    exact seq (info _) fun _ => pure _

end Rollouts

end Mirrors

theorem Setup.hasReadableSources_of_all {s : Setup T S} {d : Disk}
    (h : ((sourcePaths d s.directory).all fun p => (d.readText p).isOk) = true) :
    s.HasReadableSources d := by
  intro p hp
  exact exists_of_isOk (List.all_eq_true.mp h p hp)

/-- The way to a directory without double dots is not below it. -/
theorem Setup.avoidsSources_directory {s : Setup T S} (cwd : Location)
    (h : ".." ∉ s.directory.parts) : s.AvoidsSources cwd s.directory := by
  intro parts hparts hsource
  obtain ⟨below, hplace, name, hname, -⟩ := hsource
  have hfront : ".." ∉ parts := fun hmem => h (hparts.subset hmem)
  rw [Disk.place, Disk.foldl_enter hfront, Disk.foldl_enter h] at hplace
  have hlength := congrArg List.length hplace
  have hbelow := List.length_pos_of_mem hname
  have hle := hparts.length_le
  simp only [List.length_append] at hlength
  omega

/-- What stands at places that are named like generated files, has no say in a rollout, as
long as it can be read. -/
theorem Setup.sameCourse_of_readable [Timescale T] (s : Setup T S) (r r' : Run T S)
    (houtside : r'.outside = r.outside)
    (hagree : s.AgreeBesideSources r.disk.cwd r.disk r'.disk)
    (hreadable : s.HasReadableSources r.disk) (hreadable' : s.HasReadableSources r'.disk)
    (hdirectory : s.AvoidsSources r.disk.cwd s.directory) :
    (s.AvoidsSources r.disk.cwd s.outputs →
      SameCourse r r' (outcome s.deploy r) (outcome s.deploy r')) ∧
    SameCourse r r' (outcome s.destroy r) (outcome s.destroy r') := by
  have hdisk : Mirrors.Readable s (s.AgreeBesideSources r.disk.cwd) r.disk r'.disk :=
    ⟨hagree, hreadable, hreadable'⟩
  constructor
  · intro houtputs
    exact (Mirrors.deploy hdirectory houtputs r r' houtside hdisk).1
  · exact (Mirrors.destroy hdirectory r r' houtside hdisk).1

/-! ## Sources that cannot be read -/

/-- An action that only succeeds on disks with a property. -/
def Needs (s : Setup T S) (x : Action T S α) (P : Disk → Prop) : Prop :=
  Keeps s x fun d _ res _ => ∀ a, res = .ok a → P d

theorem Carries.needs_bind {s : Setup T S} {x : Action T S α} {f : α → Action T S β}
    {P : Disk → Prop} {script : Script} (hx : Carries s x always script)
    (hf : ∀ a, Needs s (f a) P) : Needs s (x >>= f) P := by
  refine Keeps.bind hx hf ?_ ?_
  · intro d t f d' _ a ha
    cases ha
  · intro d t a d₁ u res d' hfirst hnext
    rw [← hfirst.1]
    exact hnext

namespace Setup

variable (s : Setup T S)

theorem needs_report (current : String) :
    Needs s (do let _ ← s.reportReferences; return current) s.HasReadableSources := by
  have hreport : Needs s s.reportReferences s.HasReadableSources := by
    refine Keeps.get_bind fun r => ?_
    cases hrefs : references s.environment r.disk s.directory with
    | error e => exact .throw fun d _ a ha => by cases ha
    | ok refs =>
      have hreadable : s.HasReadableSources r.disk := by
        rw [references] at hrefs
        cases htexts : readAll r.disk (sourcePaths r.disk s.directory) with
        | error e =>
          rw [htexts] at hrefs
          cases hrefs
        | ok texts =>
          intro p hp
          obtain ⟨text, -, htext⟩ := (mem_of_readAll htexts).1 p hp
          exact ⟨text, htext⟩
      refine Keeps.mono (Mirrors.silent_tell (s := s) refs) fun d t res d' _ hd a _ => ?_
      rw [hd]
      exact hreadable
  refine Keeps.bind hreport (R := fun _ _ _ _ _ => True) (fun _ => .pure fun _ => trivial) ?_ ?_
  · intro d t f d' _ a ha
    cases ha
  · intro d t refs d₁ u res d' hfirst _ a _
    exact hfirst refs rfl

/-- A preparation that comes to its end has read everything.  So what cannot be read is the
end of both kinds of rollout, whatever the commands answer. -/
theorem hasReadableSources_of_prepare {r : Run T S} {current : String}
    (h : (outcome s.prepare r).1 = .ok current) : s.HasReadableSources r.disk := by
  have hprepare : Needs s s.prepare s.HasReadableSources := by
    refine (IsSilent.title _).bind_keeps fun _ => (IsSilent.info _).bind_keeps fun _ => ?_
    refine (IsSilent.title _).bind_keeps fun _ => ?_
    refine (Carries.require .stream _).needs_bind fun _ => ?_
    refine (Carries.selectWorkspace s).needs_bind fun _ => ?_
    refine (Carries.require .capture _).needs_bind fun shown => ?_
    refine (IsSilent.info _).bind_keeps fun _ => (IsSilent.title _).bind_keeps fun _ => ?_
    exact (Carries.require .stream _).needs_bind fun _ => needs_report s _
  obtain ⟨t, -, hneeds⟩ := hprepare r
  exact hneeds current h

end Setup

/-! ## One source of several kinds -/

theorem agreeOff_put {region : Location → Prop} {l : Location} (d : Disk) (hl : region l)
    (e e' : Entry) : Disk.AgreeOff region d.cwd (d.put l e) (d.put l e') := by
  refine ⟨rfl, rfl, fun k hk => ?_⟩
  have hkl : k ≠ l := fun hkl => hk (hkl ▸ hl)
  rw [Disk.entry?_put_of_ne d hkl, Disk.entry?_put_of_ne d hkl]

namespace Setup

/-- Every command succeeds, and nobody is asked. -/
def obliging : Setup Binary64 Unit where
  directory := ⟨"/", ["work"]⟩
  autoApprove := true
  outputs := ⟨"/", ["outputs.json"]⟩
  drainTimeout := .zero
  pollInterval := .zero
  isInstalled _ := true
  surroundings :=
    { respond := fun _ _ => (.exited 0 "" "", ())
      reply := fun _ _ => (⟨["y"], some true⟩, ())
      now := fun _ => (.zero, ())
      pass := fun _ _ => () }

/-- A generated directory with one entry. -/
def withSource (e : Entry) : Run Binary64 Unit :=
  ⟨(), Disk.put { entries := [(["work"], .directory)] } ["work", "main.tf"] e, []⟩

/-- A file with an escaped interpolation of a variable `X`. -/
def placeholderFile : Entry := .file [0x24, 0x24, 0x7b, 0x58, 0x7d]

theorem agreeBesideSources_withSource (e e' : Entry) :
    obliging.AgreeBesideSources [] (withSource e).disk (withSource e').disk := by
  have hsource : IsSource ["work"] ["work", "main.tf"] :=
    ⟨["main.tf"], rfl, "main.tf", List.mem_singleton_self _, rfl⟩
  exact agreeOff_put { entries := [(["work"], .directory)] } hsource e e'

theorem sameCourse_placeholder :
    SameCourse (withSource (.file [])) (withSource placeholderFile)
      (outcome obliging.deploy (withSource (.file [])))
      (outcome obliging.deploy (withSource placeholderFile)) ∧
    SameCourse (withSource (.file [])) (withSource placeholderFile)
      (outcome obliging.destroy (withSource (.file [])))
      (outcome obliging.destroy (withSource placeholderFile)) := by
  have hreadable : obliging.HasReadableSources (withSource (.file [])).disk :=
    hasReadableSources_of_all (by decide +kernel)
  have hreadable' : obliging.HasReadableSources (withSource placeholderFile).disk :=
    hasReadableSources_of_all (by decide +kernel)
  have hdirectory : obliging.AvoidsSources [] obliging.directory :=
    avoidsSources_directory [] (by decide)
  have houtputs : obliging.AvoidsSources [] obliging.outputs := by
    intro parts hparts hsource
    obtain ⟨below, hplace, -⟩ := hsource
    rcases List.prefix_cons_iff.mp hparts with rfl | ⟨rest, rfl, hrest⟩
    · cases hplace
    · rw [List.prefix_nil.mp hrest] at hplace
      exact absurd hplace (by simp [Disk.enter, Disk.start, Disk.place, obliging, Path.isAbsolute])
  have h := sameCourse_of_readable obliging (withSource (.file [])) (withSource placeholderFile) rfl
    (agreeBesideSources_withSource (.file []) placeholderFile) hreadable hreadable' hdirectory
  exact ⟨h.1 houtputs, h.2⟩

/-- A file with a byte that no text has, and a directory that is named like a file, each stop
the rollout in front of its plan. -/
theorem deploy_stops_at_unreadable :
    (∀ e, obliging.AgreeBesideSources [] (withSource (.file [])).disk (withSource e).disk) ∧
    (outcome obliging.deploy (withSource (.file []))).1 = .ok 0 ∧
    (outcome obliging.deploy (withSource (.file [0xff]))).1 =
      .error (.storage ⟨.notUtf8 ⟨0, [0xff], .lead⟩, ⟨"/", ["work", "main.tf"]⟩⟩) ∧
    (outcome obliging.deploy (withSource .directory)).1 =
      .error (.storage ⟨.isDirectory, ⟨"/", ["work", "main.tf"]⟩⟩) :=
  ⟨agreeBesideSources_withSource _, by decide +kernel, by decide +kernel, by decide +kernel⟩

end Setup

end Rollout
end Groundplan
