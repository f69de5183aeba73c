/-
The course of a drain: which services it goes through, and what it does about each.

A drain is three loops in one another, over clusters, over the services of a cluster and
over the questions about a service, and every answer decides what comes next.  Its course
is described by a grammar of transcripts with one level for each loop.  At every level the
answer that lists the items stands at the front, and the rest is a concatenation with
exactly one part for each item, in order.

One pass over the program proves more than that.  `Yields` also says what is wrong with a
run that fails: some answer in its transcript could not be understood, or the bound on the
questions was met.
-/
import Groundplan.Proofs.Rollout.Answer
import Groundplan.Proofs.Rollout.Printout
import Groundplan.Proofs.Rollout.Transcript
import Groundplan.Rollout.Drain

namespace Groundplan
namespace Rollout

variable {T S α β : Type}

/-! ## Answers -/

namespace Response

/-- What a command has printed, if it has succeeded. -/
def printed : Response → Option String
  | .missing => none
  | .exited code out _ => if code = 0 then some out else none

/-- The addresses of clusters in a listing of what is deployed. -/
def addresses (response : Response) : List String :=
  ((Text.lines (response.printed.getD "")).filter fun line =>
    decide ("aws_ecs_cluster".toList <:+: line.toList)).map Text.strip

/-- A command has succeeded and shown the name of a cluster. -/
def Shows (response : Response) (cluster : String) : Prop :=
  ∃ out err, response = .exited 0 out err ∧ HasName out.toList cluster.toList ∧ cluster ≠ ""

/-- The identifiers of services that a command lists.  One that fails and an answer that is no
document list none. -/
inductive Lists : Response → List Datum → Prop
  | failed {code : Int} {out err : String} : code ≠ 0 → Lists (.exited code out err) []
  | unreadable {out err : String} {fault : Json.Fault} :
      Json.parse out = .error (.malformed fault) → Lists (.exited 0 out err) []
  | listed {out err : String} {document : Datum} {ids : List Datum} :
      Json.parse out = .ok document → ListsIds document ids → Lists (.exited 0 out err) ids

/-- A command has succeeded, and its answer says that nothing is running. -/
def SaysIdle (response : Response) : Prop :=
  ∃ answer err document, response = .exited 0 answer err ∧ Json.parse answer = .ok document ∧
    Rollout.SaysIdle document

theorem printed_eq_some_iff {response : Response} {answer : String} :
    response.printed = some answer ↔ ∃ err, response = .exited 0 answer err := by
  cases response with
  | missing => simp [printed]
  | exited code out err => simp [printed]

theorem shows_iff {response : Response} {cluster : String} : response.Shows cluster ↔
    response.printed.bind resourceName = some cluster ∧ cluster ≠ "" := by
  rw [Option.bind_eq_some_iff]
  constructor
  · rintro ⟨out, err, rfl, hname, hne⟩
    exact ⟨⟨out, rfl, resourceName_eq_some_iff.mpr hname⟩, hne⟩
  · rintro ⟨⟨out, hprinted, hname⟩, hne⟩
    obtain ⟨err, rfl⟩ := printed_eq_some_iff.mp hprinted
    exact ⟨out, err, rfl, resourceName_eq_some_iff.mp hname, hne⟩

theorem Shows.unique {response : Response} {cluster cluster' : String} (h : response.Shows cluster)
    (h' : response.Shows cluster') : cluster = cluster' :=
  Option.some_inj.mp ((shows_iff.mp h).1.symm.trans (shows_iff.mp h').1)

theorem saysIdle_iff {response : Response} : response.SaysIdle ↔
    ∃ answer, response.printed = some answer ∧ runningCount answer = .ok (some 0) := by
  constructor
  · rintro ⟨answer, err, document, rfl, hparse, hidle⟩
    exact ⟨answer, rfl,
      runningCount_eq_some_iff.mpr ⟨document, hparse, Rollout.saysIdle_iff.mp hidle⟩⟩
  · rintro ⟨answer, hprinted, hcount⟩
    obtain ⟨err, rfl⟩ := printed_eq_some_iff.mp hprinted
    obtain ⟨document, hparse, hreports⟩ := runningCount_eq_some_iff.mp hcount
    exact ⟨answer, err, document, rfl, hparse, Rollout.saysIdle_iff.mpr hreports⟩

theorem lists_of_serviceIds {answer err : String} {found : Option (List Datum)}
    (h : serviceIds answer = .ok found) : Lists (.exited 0 answer err) (found.getD []) := by
  cases found with
  | none =>
    obtain ⟨fault, hparse⟩ := serviceIds_eq_none_iff.mp h
    exact .unreadable hparse
  | some ids =>
    obtain ⟨document, hparse, hids⟩ := serviceIds_eq_some_iff.mp h
    exact .listed hparse hids

/-- What an action gets for a command is what the command has printed. -/
theorem printed_of_output {response : Response} {c : Command} {o : Output}
    (h : response.output .capture c = .ok o) :
    response.printed = if o.succeeded then some o.out else none := by
  cases response with
  | missing => cases h
  | exited code out err =>
    cases h
    simp [printed, Output.succeeded]

theorem lists_of_output {response : Response} {c : Command} {o : Output}
    {found : Option (List Datum)} (h : response.output .capture c = .ok o)
    (hsome : o.succeeded = true → serviceIds o.out = .ok found)
    (hnone : o.succeeded = false → found = none) : response.Lists (found.getD []) := by
  cases response with
  | missing => cases h
  | exited code out err =>
    cases h
    by_cases hcode : code = 0
    · subst hcode
      exact lists_of_serviceIds (hsome rfl)
    · rw [hnone (beq_false_of_ne hcode)]
      exact .failed hcode

/-- What has to be clear of a command is only what has been printed in the end. -/
theorem understood_iff {response : Response} {c : Command} {o : Output}
    {IsClear : String → Prop} (h : response.output .capture c = .ok o) :
    (response ≠ .missing ∧ ∀ answer, response.printed = some answer → IsClear answer) ↔
      (o.succeeded = true → IsClear o.out) := by
  have hpresent : response ≠ .missing := by
    rintro rfl
    cases h
  rw [printed_of_output h]
  by_cases ho : o.succeeded = true
  · simp [ho, hpresent]
  · simp [ho, hpresent]

theorem addresses_of_output (response : Response) {c : Command} {o : Output}
    (h : response.output .capture c = .ok o) :
    response.addresses = if o.succeeded then Setup.clusterAddresses o.out else [] := by
  rw [addresses, printed_of_output h, Setup.clusterAddresses]
  by_cases ho : o.succeeded = true
  · rw [if_pos ho, if_pos ho, Option.getD_some]
    congr 2
    funext line
    rw [Bool.eq_iff_iff, decide_eq_true_iff, contains_iff]
  · rw [if_neg ho, if_neg ho]
    rfl

end Response

/-! ## Commands -/

def stateListCommand : Command := ["terraform", "state", "list"]

def stateShowCommand (address : String) : Command :=
  ["terraform", "state", "show", "-no-color", address]

def listServicesCommand (cluster : String) : Command :=
  ["aws", "ecs", "list-services", "--cluster", cluster, "--output", "json"]

def scaleDownCommand (cluster service : String) : Command :=
  ["aws", "ecs", "update-service", "--cluster", cluster, "--service", service,
    "--desired-count", "0", "--output", "json"]

def describeCommand (cluster service : String) : Command :=
  ["aws", "ecs", "describe-services", "--cluster", cluster, "--services", service,
    "--output", "json"]

def deleteCommand (cluster service : String) : Command :=
  ["aws", "ecs", "delete-service", "--cluster", cluster, "--service", service, "--force",
    "--output", "json"]

def deleteQuestion (service : String) : String :=
  "Attempt to delete service " ++ service ++ " manually?"

def isScaleDown (c : Command) : Bool := c.take 3 == ["aws", "ecs", "update-service"]

def isDeletion (c : Command) : Bool := c.take 3 == ["aws", "ecs", "delete-service"]

def isServiceListing (c : Command) : Bool := c.take 3 == ["aws", "ecs", "list-services"]

namespace Exchange

/-- The cluster that is found, if its name is asked for and shown. -/
inductive FindsClusters : Exchange T → List String → Prop
  | shown {mode : Mode} {address cluster : String} {response : Response} : response.Shows cluster →
      FindsClusters (.command mode (stateShowCommand address) response) [cluster]
  | unnamed {mode : Mode} {address : String} {response : Response} :
      (∀ cluster, ¬response.Shows cluster) →
      FindsClusters (.command mode (stateShowCommand address) response) []
  | other {e : Exchange T} :
      (∀ mode address response, e ≠ .command mode (stateShowCommand address) response) →
      FindsClusters e []

/-- The services that are found, each with its cluster, if they are listed. -/
inductive FindsServices : Exchange T → List (String × Datum) → Prop
  | listed {mode : Mode} {cluster : String} {response : Response} {ids : List Datum} :
      response.Lists ids → FindsServices (.command mode (listServicesCommand cluster) response)
        (ids.map fun id => (cluster, id))
  | other {e : Exchange T} :
      (∀ mode cluster response, e ≠ .command mode (listServicesCommand cluster) response) →
      FindsServices e []

/-- A drain can go on from what comes back. -/
def IsSound : Exchange T → Prop
  | .command _ c response => response ≠ .missing ∧ ∀ answer, response.printed = some answer →
      (∀ cluster service, c = describeCommand cluster service → DescribesService answer) ∧
      ∀ cluster, c = listServicesCommand cluster → ListsServices answer
  | .question _ reply => reply.decision ≠ none
  | .clock _ | .pause _ => True

end Exchange

/-- What is found in a transcript is what its exchanges find, one after the other. -/
def Transcript.Finds (Q : Exchange T → List α → Prop) (t : Transcript T) (found : List α) : Prop :=
  ∃ parts, List.Forall₂ Q t parts ∧ found = parts.flatten

/-! ## The grammar -/

namespace Setup

variable (s : Setup T S)

/-- The questions about a service, up to its being at rest or the deadline. -/
inductive IsPolling [Timescale T] (cluster service : String) (deadline : T) :
    Transcript T → Bool → Prop
  | rests {response : Response} : response.SaysIdle →
      IsPolling cluster service deadline
        [.command .capture (describeCommand cluster service) response] true
  | late {response : Response} {now : T} : ¬response.SaysIdle →
      Timescale.reached deadline now = true →
      IsPolling cluster service deadline
        [.command .capture (describeCommand cluster service) response, .clock now] false
  | again {response : Response} {now : T} {t : Transcript T} {b : Bool} : ¬response.SaysIdle →
      Timescale.reached deadline now = false → IsPolling cluster service deadline t b →
      IsPolling cluster service deadline
        (.command .capture (describeCommand cluster service) response :: .clock now ::
          .pause s.pollInterval :: t) b

/-- A service is deleted if that is approved in advance or agreed to, and else is not. -/
inductive IsDeletion (cluster service : String) : Transcript T → Prop
  | automatic {response : Response} : s.autoApprove = true →
      IsDeletion cluster service [.command .capture (deleteCommand cluster service) response]
  | agreed {typed : List String} {response : Response} : s.autoApprove = false →
      IsDeletion cluster service [.question (deleteQuestion service) ⟨typed, some true⟩,
        .command .capture (deleteCommand cluster service) response]
  | declined {typed : List String} : s.autoApprove = false →
      IsDeletion cluster service [.question (deleteQuestion service) ⟨typed, some false⟩]

/-- A service is scaled down, waited for and, with consent, deleted. -/
def IsServiceCourse [Timescale T] (cluster service : String) (t : Transcript T) : Prop :=
  ∃ scaled start polls rests deletion,
    t = .command .capture (scaleDownCommand cluster service) scaled :: .clock start ::
      (polls ++ deletion) ∧
    s.IsPolling cluster service (Timescale.later start s.drainTimeout) polls rests ∧
    s.IsDeletion cluster service deletion

/-- The service that an identifier stands for is drained. -/
def DrainsService [Timescale T] (cluster : String) (id : Datum) (t : Transcript T) : Prop :=
  ∃ identifier service, id = .text identifier ∧ IsLastPart service identifier ∧
    s.IsServiceCourse cluster service t

/-- The services of a cluster are drained in the order in which they are listed. -/
inductive IsClusterCourse [Timescale T] (address : String) : Transcript T → Prop
  | unnamed {shown : Response} : (∀ cluster, ¬shown.Shows cluster) →
      IsClusterCourse address [.command .capture (stateShowCommand address) shown]
  | named {shown listed : Response} {cluster : String} {ids : List Datum}
      {courses : List (Transcript T)} : shown.Shows cluster → listed.Lists ids →
      List.Forall₂ (s.DrainsService cluster) ids courses →
      IsClusterCourse address (.command .capture (stateShowCommand address) shown ::
        .command .capture (listServicesCommand cluster) listed :: courses.flatten)

/-- A command scales down the service that has been found in a cluster. -/
def ScalesDown (found : String × Datum) (c : Command) : Prop :=
  ∃ identifier service, found.2 = .text identifier ∧ IsLastPart service identifier ∧
    c = scaleDownCommand found.1 service

structure IsDrainage [Timescale T] (t : Transcript T) : Prop where
  skipped : s.isInstalled "aws" = false → t = []
  course : s.isInstalled "aws" = true → ∃ listed courses,
    t = .command .capture stateListCommand listed :: courses.flatten ∧
      List.Forall₂ s.IsClusterCourse listed.addresses courses
  /-- Every cluster that is found is asked for its services, once and in order. -/
  asked : ∃ clusters, t.Finds Exchange.FindsClusters clusters ∧
    t.commands.filter isServiceListing = clusters.map listServicesCommand
  /-- Every service that is found is scaled down, once and in order. -/
  scaled : ∃ services, t.Finds Exchange.FindsServices services ∧
    List.Forall₂ ScalesDown services (t.commands.filter isScaleDown)

end Setup

/-! ## Questions without end -/

namespace Setup

variable (s : Setup T S)

/-- As many questions about a service as a bound allows, without a decision. -/
inductive IsStalled [Timescale T] (cluster service : String) (deadline : T) :
    Nat → Transcript T → Prop
  | zero : IsStalled cluster service deadline 0 []
  | succ {n : Nat} {response : Response} {now : T} {t : Transcript T} :
      Timescale.reached deadline now = false → IsStalled cluster service deadline n t →
      IsStalled cluster service deadline (n + 1)
        (.command .capture (describeCommand cluster service) response :: .clock now ::
          .pause s.pollInterval :: t)

/-- A transcript ends in questions about a service that have met the bound. -/
def Stalls [Timescale T] (t : Transcript T) : Prop :=
  ∃ before cluster service start polls, t = before ++ .clock start :: polls ∧
    s.IsStalled cluster service (Timescale.later start s.drainTimeout) s.maxPolls polls

variable {s}

theorem Stalls.append [Timescale T] (t : Transcript T) {u : Transcript T} (hu : s.Stalls u) :
    s.Stalls (t ++ u) := by
  obtain ⟨before, cluster, service, start, polls, rfl, hpolls⟩ := hu
  exact ⟨t ++ before, cluster, service, start, polls, (List.append_assoc _ _ _).symm, hpolls⟩

end Setup

/-! ## Sound exchanges -/

namespace Exchange

/-- A command of which only the exit code matters. -/
theorem isSound_command {mode : Mode} {c : Command} {response : Response}
    (hdescribe : ∀ cluster service, c ≠ describeCommand cluster service)
    (hlist : ∀ cluster, c ≠ listServicesCommand cluster) :
    (Exchange.command mode c response : Exchange T).IsSound ↔ response ≠ .missing := by
  refine ⟨And.left, fun hpresent => ⟨hpresent, fun answer _ => ⟨?_, ?_⟩⟩⟩
  · intro cluster service hc
    exact absurd hc (hdescribe cluster service)
  · intro cluster hc
    exact absurd hc (hlist cluster)

theorem isSound_describe {mode : Mode} {cluster service : String} {response : Response} :
    (Exchange.command mode (describeCommand cluster service) response : Exchange T).IsSound ↔
      response ≠ .missing ∧ ∀ answer, response.printed = some answer → DescribesService answer := by
  refine and_congr_right fun _ => forall_congr' fun answer => imp_congr_right fun _ => ?_
  constructor
  · intro h
    exact h.1 cluster service rfl
  · intro h
    refine ⟨fun _ _ _ => h, fun cluster' hc => ?_⟩
    simp [describeCommand, listServicesCommand] at hc

theorem isSound_listing {mode : Mode} {cluster : String} {response : Response} :
    (Exchange.command mode (listServicesCommand cluster) response : Exchange T).IsSound ↔
      response ≠ .missing ∧ ∀ answer, response.printed = some answer → ListsServices answer := by
  refine and_congr_right fun _ => forall_congr' fun answer => imp_congr_right fun _ => ?_
  constructor
  · intro h
    exact h.2 cluster rfl
  · intro h
    refine ⟨fun cluster' service hc => ?_, fun _ _ => h⟩
    simp [describeCommand, listServicesCommand] at hc

end Exchange

/-! ## Actions that give something -/

/-- What an action gives has a property together with the transcript, which is sound.  If
it fails, the transcript is not sound or there is another reason. -/
def Yields (s : Setup T S) (x : Action T S α) (reason : Transcript T → Prop)
    (P : Transcript T → α → Prop) : Prop :=
  Keeps s x fun _ t res _ => match res with
    | .ok a => P t a ∧ ∀ e ∈ t, e.IsSound
    | .error _ => reason t ∨ ∃ e ∈ t, ¬e.IsSound

namespace Yields

variable {s : Setup T S} {reason reason' : Transcript T → Prop} {P : Transcript T → α → Prop}

theorem mono {P' : Transcript T → α → Prop} {x : Action T S α} (hx : Yields s x reason P)
    (hreason : ∀ t, reason t → reason' t) (hP : ∀ t a, P t a → P' t a) :
    Yields s x reason' P' := by
  refine Keeps.mono hx ?_
  intro d t res d' h
  cases res with
  | ok a => exact ⟨hP t a h.1, h.2⟩
  | error f => exact h.imp_left (hreason t)

theorem pure {a : α} (h : P [] a) : Yields s (Pure.pure a) reason P :=
  Keeps.pure fun _ => ⟨h, fun _ he => absurd he List.not_mem_nil⟩

/-- The second part goes on from what the first has given. -/
theorem bind {Q : Transcript T → β → Prop} {x : Action T S α} {f : α → Action T S β}
    (hx : Yields s x reason P)
    (hf : ∀ t a, P t a → Yields s (f a) (fun u => reason (t ++ u)) fun u b => Q (t ++ u) b) :
    Yields s (x >>= f) reason Q := by
  refine Keeps.seq hx (fun _ _ _ _ hfailed => hfailed) ?_
  intro d t a d₁ hok
  refine Keeps.mono (hf t a hok.1) ?_
  intro d₁' u res d' h _
  cases res with
  | ok b =>
    refine ⟨h.1, fun e he => ?_⟩
    rcases List.mem_append.mp he with he | he
    · exact hok.2 e he
    · exact h.2 e he
  | error f =>
    rcases h with h | ⟨e, he, hunsound⟩
    · exact .inl h
    · exact .inr ⟨e, List.mem_append_right t he, hunsound⟩

theorem silent_bind {Q : Transcript T → β → Prop} {x : Action T S α} {f : α → Action T S β}
    (hx : IsSilent s x) (hf : ∀ a, Yields s (f a) reason Q) : Yields s (x >>= f) reason Q :=
  hx.bind_keeps hf

theorem silent {x : Action T S α} (hx : IsSilent s x) : Yields s x reason fun t _ => t = [] := by
  refine Keeps.mono hx ?_
  intro d t res d' h
  obtain ⟨rfl, -, a, rfl⟩ := h
  exact ⟨rfl, fun _ he => absurd he List.not_mem_nil⟩

/-! ## Contact -/

/-- A command that is run for its effect or read without fail. -/
theorem run {c : Command} (hdescribe : ∀ cluster service, c ≠ describeCommand cluster service)
    (hlist : ∀ cluster, c ≠ listServicesCommand cluster) :
    Yields s (s.run .capture c) reason fun t o =>
      ∃ response, t = [.command .capture c response] ∧ response.output .capture c = .ok o := by
  refine (Keeps.run s .capture c).mono ?_
  intro d t res d' hkept
  obtain ⟨response, rfl, rfl, -⟩ := hkept
  have hsound : (Exchange.command .capture c response : Exchange T).IsSound ↔ response ≠ .missing :=
    Exchange.isSound_command hdescribe hlist
  cases response with
  | missing => exact .inr ⟨_, List.mem_singleton_self _, fun h => hsound.mp h rfl⟩
  | exited code out err =>
    refine ⟨⟨_, rfl, rfl⟩, fun e he => ?_⟩
    rw [List.mem_singleton.mp he]
    exact hsound.mpr fun h => by cases h

theorem confirm (question : String) : Yields s (s.confirm question) reason fun t b =>
    ∃ typed, t = [.question question ⟨typed, some b⟩] := by
  refine (Keeps.confirm s question).mono ?_
  intro d t res d' hkept
  obtain ⟨⟨typed, decision⟩, rfl, rfl, -⟩ := hkept
  cases decision with
  | none => exact .inr ⟨_, List.mem_singleton_self _, fun h => h rfl⟩
  | some b =>
    refine ⟨⟨typed, rfl⟩, fun e he => ?_⟩
    rw [List.mem_singleton.mp he]
    exact Option.some_ne_none b

theorem now : Yields s s.now reason fun t reading => t = [.clock reading] := by
  refine (Keeps.now s).mono ?_
  intro d t res d' hkept
  obtain ⟨reading, rfl, rfl, -⟩ := hkept
  refine ⟨rfl, fun e he => ?_⟩
  rw [List.mem_singleton.mp he]
  trivial

theorem wait (span : T) : Yields s (s.wait span) reason fun t _ => t = [.pause span] := by
  refine (Keeps.wait s span).mono ?_
  intro d t res d' hkept
  obtain ⟨rfl, rfl, -⟩ := hkept
  refine ⟨rfl, fun e he => ?_⟩
  rw [List.mem_singleton.mp he]
  trivial

/-- A command that is there and what is done with its output. -/
theorem output_bind {c : Command} {f : Output → Action T S β}
    {R : Output → Assertion T β} {Q : Assertion T β} (hf : ∀ o, Keeps s (f o) (R o))
    (hmissing : ∀ d e, Q d [.command .capture c .missing] (.error e) d)
    (houtput : ∀ d response o u res d', response.output .capture c = .ok o → R o d u res d' →
      Q d (.command .capture c response :: u) res d') :
    Keeps s (s.run .capture c >>= f) Q := by
  refine Keeps.bind (Keeps.run s .capture c) hf ?_ ?_
  · intro d t e d' hfailed
    obtain ⟨response, rfl, hres, rfl⟩ := hfailed
    cases response with
    | missing => exact hmissing _ e
    | exited code out err => cases hres
  · intro d t o d₁ u res d' hfirst hsecond
    obtain ⟨response, rfl, hres, rfl⟩ := hfirst
    exact houtput _ response o u res d' hres.symm hsecond

/-- A command whose answer has to be understood is sound if it is. -/
theorem read {c : Command} {f : Output → Action T S β} {IsClear : String → Prop}
    {R : Output → β → Prop} {Q : Transcript T → β → Prop}
    (hsound : ∀ response, (Exchange.command .capture c response : Exchange T).IsSound ↔
      response ≠ .missing ∧ ∀ answer, response.printed = some answer → IsClear answer)
    (hf : ∀ o, Keeps s (f o) fun _ t res _ => t = [] ∧ match res with
      | .ok b => (o.succeeded = true → IsClear o.out) ∧ R o b
      | .error _ => o.succeeded = true ∧ ¬IsClear o.out)
    (hnext : ∀ response o b, response.output .capture c = .ok o → R o b →
      Q [.command .capture c response] b) :
    Yields s (s.run .capture c >>= f) reason Q := by
  refine output_bind hf ?_ ?_
  · intro d e
    exact .inr ⟨_, List.mem_singleton_self _, fun h => ((hsound _).mp h).1 rfl⟩
  · intro d response o u res d' hres hsecond
    obtain ⟨rfl, hsecond⟩ := hsecond
    have hunderstood := (hsound response).trans (Response.understood_iff hres)
    cases res with
    | ok b =>
      refine ⟨hnext response o b hres hsecond.2, fun e he => ?_⟩
      rw [List.mem_singleton.mp he]
      exact hunderstood.mpr hsecond.1
    | error f =>
      refine .inr ⟨_, List.mem_singleton_self _, fun h => ?_⟩
      exact hsecond.2 (hunderstood.mp h hsecond.1)

/-! ## Answers about services -/

theorem look (cluster service : String) :
    Yields s (do Setup.isDrained (← s.run .capture (describeCommand cluster service))) reason
      fun t b => ∃ response, t = [.command .capture (describeCommand cluster service) response] ∧
        (b = true ↔ response.SaysIdle) := by
  refine read (R := fun o b => b = true ↔ o.succeeded = true ∧ runningCount o.out = .ok (some 0))
    (fun _ => Exchange.isSound_describe) ?_ ?_
  · intro o
    rw [Setup.isDrained]
    by_cases ho : o.succeeded = true
    · rw [if_pos ho]
      cases hcount : runningCount o.out with
      | ok count =>
        refine Keeps.pure fun d => ⟨rfl, fun _ => runningCount_ok_iff.mp ⟨count, hcount⟩, ?_⟩
        simp [ho]
      | error fault =>
        refine Keeps.throw_bind fun d => ⟨rfl, ho, fun hdescribes => ?_⟩
        obtain ⟨count, hok⟩ := runningCount_ok_iff.mpr hdescribes
        rw [hcount] at hok
        cases hok
    · rw [if_neg ho]
      exact Keeps.pure fun d => ⟨rfl, fun h => absurd h ho, by simp [ho]⟩
  · intro response o b hres hb
    refine ⟨response, rfl, hb.trans ?_⟩
    rw [Response.saysIdle_iff, Response.printed_of_output hres]
    by_cases ho : o.succeeded = true
    · simp [ho]
    · simp [ho]

/-- The services of a cluster.  Some may not be identified by a text, which only comes out
when it is their turn. -/
theorem listServices (cluster : String) : Keeps s (s.listServices cluster) fun _ t res _ =>
    ∃ response, t = [.command .capture (listServicesCommand cluster) response] ∧ match res with
      | .ok ids => response.Lists ids ∧ ((∀ id ∈ ids, ∃ identifier, id = .text identifier) ↔
          ∀ e ∈ t, e.IsSound)
      | .error _ => ∃ e ∈ t, ¬e.IsSound := by
  refine output_bind (c := listServicesCommand cluster)
    (R := fun o _ u res _ => u = [] ∧ match res with
      | .ok ids => ∃ found, (o.succeeded = true → serviceIds o.out = .ok found) ∧
          (o.succeeded = false → found = none) ∧ ids = found.getD []
      | .error _ => o.succeeded = true ∧ ∀ found, serviceIds o.out ≠ .ok found) ?_ ?_ ?_
  · intro o
    by_cases ho : o.succeeded = true
    · rw [if_pos ho]
      cases hids : serviceIds o.out with
      | ok found =>
        rw [ofAnswer, pure_bind]
        cases found with
        | some ids => exact Keeps.pure fun d => ⟨rfl, some ids, fun _ => rfl, by simp [ho], rfl⟩
        | none =>
          refine (IsSilent.log _).bind_keeps fun _ => ?_
          exact Keeps.pure fun d => ⟨rfl, none, fun _ => rfl, fun _ => rfl, rfl⟩
      | error fault =>
        exact Keeps.throw_bind fun d => ⟨rfl, ho, fun found h => by simp at h⟩
    · rw [if_neg ho]
      refine (IsSilent.log _).bind_keeps fun _ => ?_
      exact Keeps.pure fun d => ⟨rfl, none, fun h => absurd h ho, fun _ => rfl, rfl⟩
  · intro d e
    refine ⟨.missing, rfl, _, List.mem_singleton_self _, fun h => ?_⟩
    exact (Exchange.isSound_listing.mp h).1 rfl
  · intro d response o u res d' hres hsecond
    obtain ⟨rfl, hsecond⟩ := hsecond
    have hunderstood : (Exchange.command .capture (listServicesCommand cluster) response :
        Exchange T).IsSound ↔ (o.succeeded = true → ListsServices o.out) :=
      Exchange.isSound_listing.trans (Response.understood_iff hres)
    refine ⟨response, rfl, ?_⟩
    cases res with
    | ok ids =>
      obtain ⟨found, hsome, hnone, rfl⟩ := hsecond
      refine ⟨Response.lists_of_output hres hsome hnone, ?_⟩
      rw [List.forall_mem_singleton, hunderstood]
      by_cases ho : o.succeeded = true
      · have hlists : ListsServices o.out ↔
            ∀ id ∈ found.getD [], ∃ identifier, id = .text identifier := by
          rw [← serviceIds_ok_iff, hsome ho]
          simp
        simp [ho, hlists]
      · simp [ho, hnone (Bool.eq_false_iff.mpr ho)]
    | error f =>
      obtain ⟨ho, hids⟩ := hsecond
      refine ⟨_, List.mem_singleton_self _, fun hsound => ?_⟩
      obtain ⟨found, hok, -⟩ := serviceIds_ok_iff.mpr (hunderstood.mp hsound ho)
      exact hids found hok

theorem clusterName (address : String) : Yields s (s.clusterName address) reason fun t name =>
    ∃ shown, t = [.command .capture (stateShowCommand address) shown] ∧
      name = shown.printed.bind resourceName := by
  refine bind (run (c := stateShowCommand address) ?_ ?_) fun t o hshown => ?_
  · simp [stateShowCommand, describeCommand]
  · simp [stateShowCommand, listServicesCommand]
  obtain ⟨shown, rfl, hres⟩ := hshown
  refine pure ⟨shown, rfl, ?_⟩
  rw [Response.printed_of_output hres]
  split <;> rfl

theorem mayDelete (service : String) : Yields s (s.mayDelete service) reason fun t granted =>
    s.autoApprove = true ∧ t = [] ∧ granted = true ∨
      s.autoApprove = false ∧
        ∃ typed, t = [.question (deleteQuestion service) ⟨typed, some granted⟩] := by
  rw [Setup.mayDelete]
  by_cases hauto : s.autoApprove = true
  · rw [if_pos hauto]
    exact silent_bind (.info _) fun _ => pure (.inl ⟨hauto, rfl, rfl⟩)
  · rw [if_neg hauto]
    refine bind (confirm _) fun t consent hasked => ?_
    obtain ⟨typed, rfl⟩ := hasked
    cases consent with
    | true =>
      exact silent_bind (.info _) fun _ => pure (.inr ⟨Bool.eq_false_iff.mpr hauto, typed, rfl⟩)
    | false => exact pure (.inr ⟨Bool.eq_false_iff.mpr hauto, typed, rfl⟩)

/-- A command of which a failure is only told. -/
theorem tell {c : Command} (hdescribe : ∀ cluster service, c ≠ describeCommand cluster service)
    (hlist : ∀ cluster, c ≠ listServicesCommand cluster) :
    Yields s (do Setup.warnOnFailure (← s.run .capture c)) reason fun t _ =>
      ∃ response, t = [.command .capture c response] := by
  refine bind (run hdescribe hlist) fun t o hrun => ?_
  obtain ⟨response, rfl, -⟩ := hrun
  rw [Setup.warnOnFailure]
  split
  · exact pure ⟨response, rfl⟩
  · exact (silent (.warn _)).mono (fun _ h => h) fun u _ hu => ⟨response, by rw [hu]; rfl⟩

theorem delete (cluster service : String) : Yields s (do
      if ← s.mayDelete service then
        Setup.warnOnFailure (← s.run .capture (deleteCommand cluster service))) reason
    fun t _ => s.IsDeletion cluster service t := by
  refine bind (mayDelete service) fun t granted hgranted => ?_
  have hdelete : Yields s (do
      Setup.warnOnFailure (← s.run .capture (deleteCommand cluster service)))
      (fun u => reason (t ++ u)) fun u _ =>
        ∃ response, u = [.command .capture (deleteCommand cluster service) response] :=
    tell (by simp [deleteCommand, describeCommand]) (by simp [deleteCommand, listServicesCommand])
  obtain ⟨hauto, rfl, rfl⟩ | ⟨hauto, typed, rfl⟩ := hgranted
  · refine hdelete.mono (fun _ h => h) fun u _ hu => ?_
    obtain ⟨response, rfl⟩ := hu
    exact .automatic hauto
  · cases granted with
    | true =>
      refine hdelete.mono (fun _ h => h) fun u _ hu => ?_
      obtain ⟨response, rfl⟩ := hu
      exact .agreed hauto
    | false => exact pure (.declined hauto)

variable [Timescale T]

/-- Questions without end stay so behind something else. -/
theorem behind {x : Action T S α} (t : Transcript T) (hx : Yields s x s.Stalls P) :
    Yields s x (fun u => s.Stalls (t ++ u)) P :=
  hx.mono (fun _ hu => hu.append t) fun _ _ h => h

theorem poll (cluster service : String) (deadline : T) (n : Nat) :
    Yields s (s.poll cluster service deadline n) (s.IsStalled cluster service deadline n)
      (s.IsPolling cluster service deadline) := by
  induction n with
  | zero => exact Keeps.throw fun d => .inl .zero
  | succ n ih =>
    show Yields s (do
      let o ← s.run .capture (describeCommand cluster service)
      let rests ← Setup.isDrained o
      if rests then return true
      if Timescale.reached deadline (← s.now) then return false
      s.wait s.pollInterval
      s.poll cluster service deadline n) _ _
    -- A question and what is made of its answer are one step of the grammar.
    rw [← bind_assoc]
    refine bind (look cluster service) fun t rests hlook => ?_
    obtain ⟨response, rfl, hrests⟩ := hlook
    cases rests with
    | true => exact pure (.rests (hrests.mp rfl))
    | false =>
      have hbusy : ¬response.SaysIdle := fun h => Bool.false_ne_true (hrests.mpr h)
      refine bind now fun t reading hnow => ?_
      subst hnow
      cases hreached : Timescale.reached deadline reading with
      | true => exact pure (.late hbusy hreached)
      | false =>
        refine bind (wait s.pollInterval) fun t _ hwait => ?_
        subst hwait
        exact ih.mono (fun u hu => .succ hreached hu) fun u b hu => .again hbusy hreached hu

theorem waitForDrain (cluster service : String) :
    Yields s (s.waitForDrain cluster service) s.Stalls fun t rests => ∃ start polls,
      t = .clock start :: polls ∧
        s.IsPolling cluster service (Timescale.later start s.drainTimeout) polls rests := by
  refine bind now fun t start hnow => ?_
  subst hnow
  exact (poll cluster service _ s.maxPolls).mono
    (fun u hu => ⟨[], cluster, service, start, u, rfl, hu⟩) fun u rests hu => ⟨start, u, rfl, hu⟩

theorem drainService (cluster service : String) : Yields s (s.drainService cluster service) s.Stalls
    fun t _ => s.IsServiceCourse cluster service t := by
  refine silent_bind (.info _) fun _ => ?_
  show Yields s (do
    let o ← s.run .capture (scaleDownCommand cluster service)
    Setup.warnOnFailure o
    info "Waiting for service tasks to terminate..."
    let rests ← s.waitForDrain cluster service
    if !rests then
      warn (s!"Service {service} still has running tasks after " ++
        s!"{Timescale.secondsText s.drainTimeout}s; continuing")
    if ← s.mayDelete service then
      Setup.warnOnFailure (← s.run .capture (deleteCommand cluster service))) _ _
  rw [← bind_assoc]
  refine bind (tell (by simp [scaleDownCommand, describeCommand])
    (by simp [scaleDownCommand, listServicesCommand])) fun t _ hscaled => ?_
  obtain ⟨scaled, rfl⟩ := hscaled
  refine silent_bind (.info _) fun _ => bind ((waitForDrain cluster service).behind _) ?_
  intro t rests hwait
  obtain ⟨start, polls, rfl, hpolls⟩ := hwait
  refine Yields.mono (P := fun u _ => s.IsDeletion cluster service u) ?_ (fun _ h => h) ?_
  · split
    · exact silent_bind (.warn _) fun _ => delete cluster service
    · exact delete cluster service
  · intro u _ hu
    exact ⟨scaled, start, polls, rests, u, rfl, hpolls, hu⟩

theorem drainServices (cluster : String) (ids : List Datum) :
    Yields s (s.drainServices cluster ids)
      (fun t => s.Stalls t ∨ ∃ id ∈ ids, ∀ identifier, id ≠ .text identifier) fun t _ =>
      ∃ courses, t = courses.flatten ∧ List.Forall₂ (s.DrainsService cluster) ids courses := by
  induction ids with
  | nil => exact pure ⟨[], rfl, .nil⟩
  | cons id ids ih =>
    rw [Setup.drainServices]
    cases hname : serviceName id with
    | error fault =>
      refine Keeps.throw_bind fun d => .inl (.inr ⟨id, List.mem_cons_self, ?_⟩)
      intro identifier hid
      rw [hid] at hname
      cases hname
    | ok service =>
      rw [ofAnswer, pure_bind]
      obtain ⟨identifier, rfl⟩ := exists_text_of_serviceName hname
      refine bind ((drainService cluster service).mono (fun _ h => .inl h) fun _ _ h => h) ?_
      intro t _ hcourse
      refine ih.mono (fun u hu => ?_) fun u _ hu => ?_
      · rcases hu with hu | ⟨id, hid, hother⟩
        · exact .inl (hu.append t)
        · exact .inr ⟨id, List.mem_cons_of_mem _ hid, hother⟩
      · obtain ⟨courses, rfl, hcourses⟩ := hu
        exact ⟨t :: courses, rfl,
          .cons ⟨identifier, service, rfl, isLastPart_of_serviceName hname, hcourse⟩ hcourses⟩

/-- The services of a cluster, if it has any. -/
theorem drainListed (cluster : String) : Yields s (do
      let services ← s.listServices cluster
      if services.isEmpty then return
      info "Cluster has active services. Will attempt to remove them first."
      s.drainServices cluster services) s.Stalls fun t _ => ∃ listed ids courses,
    t = .command .capture (listServicesCommand cluster) listed :: courses.flatten ∧
      listed.Lists ids ∧ List.Forall₂ (s.DrainsService cluster) ids courses := by
  refine Keeps.seq (listServices cluster) ?_ ?_
  · intro d t f d' hfailed
    obtain ⟨response, rfl, hunsound⟩ := hfailed
    exact .inr hunsound
  · intro d t ids d₁ hlisted
    obtain ⟨response, rfl, hlists, htexts⟩ := hlisted
    have hdrain : Yields s (do
        if ids.isEmpty then return
        info "Cluster has active services. Will attempt to remove them first."
        s.drainServices cluster ids)
        (fun t => s.Stalls t ∨ ∃ id ∈ ids, ∀ identifier, id ≠ .text identifier) fun t _ =>
        ∃ courses, t = courses.flatten ∧ List.Forall₂ (s.DrainsService cluster) ids courses := by
      by_cases hempty : ids.isEmpty = true
      · rw [if_pos hempty, List.isEmpty_iff.mp hempty]
        exact pure ⟨[], rfl, .nil⟩
      · rw [if_neg hempty]
        exact silent_bind (.info _) fun _ => drainServices cluster ids
    refine Keeps.mono hdrain ?_
    intro d₁' u res d' h _
    cases res with
    | ok a =>
      obtain ⟨⟨courses, rfl, hcourses⟩, hsound⟩ := h
      refine ⟨⟨response, ids, courses, rfl, hlists, hcourses⟩, fun e he => ?_⟩
      rcases List.mem_append.mp he with he | he
      · -- Every identifier has had its turn, so all of them are texts.
        refine htexts.mp (fun id hid => ?_) e he
        obtain ⟨course, -, identifier, -, hid, -⟩ := exists_of_mem_forall₂ hcourses.flip hid
        exact ⟨identifier, hid⟩
      · exact hsound e he
    | error f =>
      rcases h with (hstalls | ⟨id, hid, hother⟩) | ⟨e, he, hunsound⟩
      · exact .inl (hstalls.append _)
      · -- It is the listing that is to blame for an identifier that is no text.
        refine .inr ⟨_, List.mem_append_left u (List.mem_singleton_self _), fun hsound => ?_⟩
        obtain ⟨identifier, htext⟩ := htexts.mpr (by simpa using hsound) id hid
        exact hother identifier htext
      · exact .inr ⟨e, List.mem_append_right _ he, hunsound⟩

theorem drainCluster (address : String) : Yields s (s.drainCluster address) s.Stalls
    fun t _ => s.IsClusterCourse address t := by
  refine bind (clusterName address) fun t name hname => ?_
  obtain ⟨shown, rfl, rfl⟩ := hname
  cases hname : shown.printed.bind resourceName with
  | none =>
    refine pure (.unnamed fun cluster hshows => ?_)
    rw [(Response.shows_iff.mp hshows).1] at hname
    cases hname
  | some cluster =>
    dsimp only
    by_cases hempty : cluster.isEmpty = true
    · rw [if_pos hempty]
      refine pure (.unnamed fun cluster' hshows => ?_)
      obtain ⟨hshown, hne⟩ := Response.shows_iff.mp hshows
      rw [hname, Option.some_inj] at hshown
      exact hne (hshown ▸ String.isEmpty_iff.mp hempty)
    · rw [if_neg hempty]
      refine silent_bind (.info _) fun _ => ?_
      refine ((drainListed cluster).behind _).mono (fun _ h => h) fun u _ hu => ?_
      obtain ⟨listed, ids, courses, rfl, hlists, hcourses⟩ := hu
      exact .named (Response.shows_iff.mpr ⟨hname, mt String.isEmpty_iff.mpr hempty⟩) hlists hcourses

theorem drainClusters (addresses : List String) : Yields s (s.drainClusters addresses) s.Stalls
    fun t _ => ∃ courses, t = courses.flatten ∧
      List.Forall₂ s.IsClusterCourse addresses courses := by
  induction addresses with
  | nil => exact pure ⟨[], rfl, .nil⟩
  | cons address addresses ih =>
    refine bind (drainCluster address) fun t _ hcourse => ?_
    refine (ih.behind t).mono (fun _ h => h) fun u _ hu => ?_
    obtain ⟨courses, rfl, hcourses⟩ := hu
    exact ⟨t :: courses, rfl, .cons hcourse hcourses⟩

theorem drain : Yields s s.drain s.Stalls fun t _ =>
    s.isInstalled "aws" = false ∧ t = [] ∨
      s.isInstalled "aws" = true ∧ ∃ listed courses,
        t = .command .capture stateListCommand listed :: courses.flatten ∧
          List.Forall₂ s.IsClusterCourse listed.addresses courses := by
  rw [Setup.drain]
  by_cases haws : s.isInstalled "aws" = true
  · rw [if_pos haws]
    refine silent_bind (.info _) fun _ => bind (run ?_ ?_) fun t o hlisted => ?_
    · simp [describeCommand]
    · simp [listServicesCommand]
    obtain ⟨listed, rfl, hres⟩ := hlisted
    have haddresses := listed.addresses_of_output hres
    by_cases ho : o.succeeded = true
    · rw [if_pos ho] at haddresses ⊢
      refine ((drainClusters _).behind _).mono (fun _ h => h) fun u _ hu => ?_
      rw [← haddresses] at hu
      obtain ⟨courses, rfl, hcourses⟩ := hu
      exact .inr ⟨haws, listed, courses, rfl, hcourses⟩
    · rw [if_neg ho] at haddresses ⊢
      refine (silent (.log _)).mono (fun _ h => h) fun u _ hu => ?_
      refine .inr ⟨haws, listed, [], by rw [hu]; rfl, ?_⟩
      rw [haddresses]
      exact .nil
  · rw [if_neg haws]
    exact (silent (.warn _)).mono (fun _ h => h) fun t _ ht => .inl ⟨Bool.eq_false_iff.mpr haws, ht⟩

end Yields

/-! ## What is found and what is done about it -/

theorem Transcript.Finds.append {Q : Exchange T → List α → Prop} {t u : Transcript T}
    {found found' : List α} (ht : t.Finds Q found) (hu : u.Finds Q found') :
    Transcript.Finds Q (t ++ u) (found ++ found') := by
  obtain ⟨parts, hparts, rfl⟩ := ht
  obtain ⟨parts', hparts', rfl⟩ := hu
  exact ⟨parts ++ parts', List.rel_append hparts hparts', List.flatten_append.symm⟩

theorem Transcript.Finds.single {Q : Exchange T → List α → Prop} {e : Exchange T} {found : List α}
    (he : Q e found) : Transcript.Finds Q [e] found :=
  ⟨[found], .cons he .nil, (List.append_nil found).symm⟩

/-- The clusters and services that a transcript finds, and the commands that go out once for
each of them. -/
structure Tally where
  clusters : List String := []
  listings : List Command := []
  services : List (String × Datum) := []
  scaleDowns : List Command := []

instance : Append Tally where
  append a b := ⟨a.clusters ++ b.clusters, a.listings ++ b.listings, a.services ++ b.services,
    a.scaleDowns ++ b.scaleDowns⟩

/-- The tally of a transcript. -/
structure Transcript.HasTally (t : Transcript T) (tally : Tally) : Prop where
  clusters : t.Finds Exchange.FindsClusters tally.clusters
  listings : t.commands.filter isServiceListing = tally.listings
  services : t.Finds Exchange.FindsServices tally.services
  scaleDowns : t.commands.filter isScaleDown = tally.scaleDowns

namespace Transcript.HasTally

theorem nil : Transcript.HasTally ([] : Transcript T) {} :=
  ⟨⟨[], .nil, rfl⟩, rfl, ⟨[], .nil, rfl⟩, rfl⟩

theorem append {t u : Transcript T} {a b : Tally} (ht : t.HasTally a) (hu : u.HasTally b) :
    Transcript.HasTally (t ++ u) (a ++ b) where
  clusters := ht.clusters.append hu.clusters
  listings := by
    rw [commands_append, List.filter_append, ht.listings, hu.listings]
    rfl
  services := ht.services.append hu.services
  scaleDowns := by
    rw [commands_append, List.filter_append, ht.scaleDowns, hu.scaleDowns]
    rfl

/-- Something that neither finds anything nor is done about what is found. -/
def IsAside (e : Exchange T) : Prop :=
  ∀ c ∈ e.command?, (∀ address, c ≠ stateShowCommand address) ∧ isServiceListing c = false ∧
    isScaleDown c = false

theorem findsClusters_of_command? {e : Exchange T}
    (h : ∀ c ∈ e.command?, ∀ address, c ≠ stateShowCommand address) : e.FindsClusters [] := by
  refine .other fun mode address response he => ?_
  exact h (stateShowCommand address) (by rw [he]; rfl) address rfl

theorem findsServices_of_command? {e : Exchange T}
    (h : ∀ c ∈ e.command?, ∀ cluster, c ≠ listServicesCommand cluster) : e.FindsServices [] := by
  refine .other fun mode cluster response he => ?_
  exact h (listServicesCommand cluster) (by rw [he]; rfl) cluster rfl

theorem ne_listServicesCommand {c : Command} (h : isServiceListing c = false) (cluster : String) :
    c ≠ listServicesCommand cluster := by
  rintro rfl
  cases h

theorem cons_aside {e : Exchange T} {t : Transcript T} {tally : Tally} (he : IsAside e)
    (ht : t.HasTally tally) : Transcript.HasTally (e :: t) tally := by
  have hcommands : ∀ p : Command → Bool, (∀ c ∈ e.command?, p c = false) →
      (Transcript.commands [e]).filter p = [] := by
    intro p hp
    refine List.filter_eq_nil_iff.mpr fun c hc => ?_
    obtain ⟨e', he', hc⟩ := List.mem_filterMap.mp hc
    cases List.mem_singleton.mp he'
    rw [hp c hc]
    exact Bool.false_ne_true
  have hfirst : Transcript.HasTally [e] {} :=
    ⟨.single (findsClusters_of_command? fun c hc => (he c hc).1),
      hcommands _ fun c hc => (he c hc).2.1,
      .single (findsServices_of_command? fun c hc => ne_listServicesCommand (he c hc).2.1),
      hcommands _ fun c hc => (he c hc).2.2⟩
  exact hfirst.append ht

theorem isAside_command {mode : Mode} {c : Command} {response : Response}
    (hshow : ∀ address, c ≠ stateShowCommand address) (hlisting : isServiceListing c = false)
    (hscale : isScaleDown c = false) : IsAside (Exchange.command mode c response : Exchange T) := by
  rintro _ ⟨⟩
  exact ⟨hshow, hlisting, hscale⟩

theorem isAside_describe {mode : Mode} {cluster service : String} {response : Response} :
    IsAside (Exchange.command mode (describeCommand cluster service) response : Exchange T) :=
  isAside_command (by simp [describeCommand, stateShowCommand]) rfl rfl

theorem isAside_delete {mode : Mode} {cluster service : String} {response : Response} :
    IsAside (Exchange.command mode (deleteCommand cluster service) response : Exchange T) :=
  isAside_command (by simp [deleteCommand, stateShowCommand]) rfl rfl

theorem isAside_question {text : String} {reply : Reply} :
    IsAside (Exchange.question text reply : Exchange T) := fun _ h => nomatch h

theorem isAside_clock {reading : T} : IsAside (Exchange.clock reading) := fun _ h => nomatch h

theorem isAside_pause {span : T} : IsAside (Exchange.pause span) := fun _ h => nomatch h

theorem scaleDown {mode : Mode} {cluster service : String} {response : Response} :
    Transcript.HasTally ([.command mode (scaleDownCommand cluster service) response] : Transcript T)
      { scaleDowns := [scaleDownCommand cluster service] } where
  clusters := .single (findsClusters_of_command? (by
    rintro _ ⟨⟩
    simp [scaleDownCommand, stateShowCommand]))
  listings := rfl
  services := .single (findsServices_of_command? (by
    rintro _ ⟨⟩
    exact ne_listServicesCommand rfl))
  scaleDowns := rfl

/-- A state in which no cluster is shown. -/
theorem unnamed {mode : Mode} {address : String} {response : Response}
    (h : ∀ cluster, ¬response.Shows cluster) :
    Transcript.HasTally ([.command mode (stateShowCommand address) response] : Transcript T) {} where
  clusters := .single (.unnamed h)
  listings := rfl
  services := .single (findsServices_of_command? (by
    rintro _ ⟨⟩
    exact ne_listServicesCommand rfl))
  scaleDowns := rfl

theorem shown {mode : Mode} {address cluster : String} {response : Response}
    (h : response.Shows cluster) :
    Transcript.HasTally ([.command mode (stateShowCommand address) response] : Transcript T)
      { clusters := [cluster] } where
  clusters := .single (.shown h)
  listings := rfl
  services := .single (findsServices_of_command? (by
    rintro _ ⟨⟩
    exact ne_listServicesCommand rfl))
  scaleDowns := rfl

theorem listed {mode : Mode} {cluster : String} {response : Response} {ids : List Datum}
    (h : response.Lists ids) :
    Transcript.HasTally ([.command mode (listServicesCommand cluster) response] : Transcript T)
      { listings := [listServicesCommand cluster], services := ids.map fun id => (cluster, id) } where
  clusters := .single (findsClusters_of_command? (by
    rintro _ ⟨⟩
    simp [listServicesCommand, stateShowCommand]))
  listings := rfl
  services := .single (.listed h)
  scaleDowns := rfl

end Transcript.HasTally

namespace Setup

open Transcript.HasTally

/-- Whoever is found is asked or scaled down, once and in order. -/
structure IsBalanced (tally : Tally) : Prop where
  asked : tally.listings = tally.clusters.map listServicesCommand
  scaled : List.Forall₂ ScalesDown tally.services tally.scaleDowns

theorem IsBalanced.append {a b : Tally} (ha : IsBalanced a) (hb : IsBalanced b) :
    IsBalanced (a ++ b) := by
  refine ⟨?_, List.rel_append ha.scaled hb.scaled⟩
  show a.listings ++ b.listings = (a.clusters ++ b.clusters).map listServicesCommand
  rw [ha.asked, hb.asked, List.map_append]

variable {s : Setup T S} {cluster service : String}

theorem IsDeletion.hasTally {t : Transcript T} (h : s.IsDeletion cluster service t) :
    t.HasTally {} := by
  cases h with
  | automatic => exact cons_aside isAside_delete .nil
  | agreed => exact cons_aside isAside_question (cons_aside isAside_delete .nil)
  | declined => exact cons_aside isAside_question .nil

variable [Timescale T]

theorem IsPolling.hasTally {deadline : T} {t : Transcript T} {rests : Bool}
    (h : s.IsPolling cluster service deadline t rests) : t.HasTally {} := by
  induction h with
  | rests _ => exact cons_aside isAside_describe .nil
  | late _ _ => exact cons_aside isAside_describe (cons_aside isAside_clock .nil)
  | again _ _ _ ih =>
    exact cons_aside isAside_describe (cons_aside isAside_clock (cons_aside isAside_pause ih))

theorem IsServiceCourse.hasTally {t : Transcript T} (h : s.IsServiceCourse cluster service t) :
    t.HasTally { scaleDowns := [scaleDownCommand cluster service] } := by
  obtain ⟨scaled, start, polls, rests, deletion, rfl, hpolls, hdeletion⟩ := h
  exact scaleDown.append (cons_aside isAside_clock (hpolls.hasTally.append hdeletion.hasTally))

theorem hasTally_of_drainsService {ids : List Datum} {courses : List (Transcript T)}
    (h : List.Forall₂ (s.DrainsService cluster) ids courses) :
    ∃ scaleDowns, Transcript.HasTally courses.flatten { scaleDowns } ∧
      List.Forall₂ ScalesDown (ids.map fun id => (cluster, id)) scaleDowns := by
  induction h with
  | nil => exact ⟨[], .nil, .nil⟩
  | cons hcourse _ ih =>
    obtain ⟨identifier, service, rfl, hpart, hcourse⟩ := hcourse
    obtain ⟨scaleDowns, htally, hscaled⟩ := ih
    exact ⟨scaleDownCommand cluster service :: scaleDowns, hcourse.hasTally.append htally,
      .cons ⟨identifier, service, rfl, hpart, rfl⟩ hscaled⟩

theorem IsClusterCourse.exists_tally {address : String} {t : Transcript T}
    (h : s.IsClusterCourse address t) : ∃ tally, t.HasTally tally ∧ IsBalanced tally := by
  cases h with
  | unnamed hshown => exact ⟨{}, .unnamed hshown, rfl, .nil⟩
  | @named shown listed cluster ids courses hshown hlists hcourses =>
    -- The services found are all in the listing, the commands about them all in the rest.
    obtain ⟨scaleDowns, hrest, hscaled⟩ := hasTally_of_drainsService hcourses
    refine ⟨_, (Transcript.HasTally.shown hshown).append ((Transcript.HasTally.listed hlists).append hrest),
      rfl, ?_⟩
    show List.Forall₂ ScalesDown ((ids.map fun id => (cluster, id)) ++ []) scaleDowns
    rw [List.append_nil]
    exact hscaled

theorem exists_tally_of_forall₂ {addresses : List String} {courses : List (Transcript T)}
    (h : List.Forall₂ s.IsClusterCourse addresses courses) :
    ∃ tally, Transcript.HasTally courses.flatten tally ∧ IsBalanced tally := by
  induction h with
  | nil => exact ⟨{}, .nil, rfl, .nil⟩
  | cons hcourse _ ih =>
    obtain ⟨first, hfirst, hbalanced⟩ := hcourse.exists_tally
    obtain ⟨rest, hrest, hbalanced'⟩ := ih
    exact ⟨first ++ rest, hfirst.append hrest, hbalanced.append hbalanced'⟩

/-! ## The course of a drain -/

/-- A drain that comes to an end goes through every service that is found, in order, and
deletes what it may. -/
theorem drain_isDrainage (s : Setup T S) (r : Run T S) (h : (outcome s.drain r).1 = .ok ()) :
    ∃ t, s.Accounts r t (outcome s.drain r).2 ∧ s.IsDrainage t := by
  obtain ⟨t, haccounts, hyields⟩ := Yields.drain (s := s) r
  rw [h] at hyields
  refine ⟨t, haccounts, ?_⟩
  obtain ⟨⟨haws, rfl⟩ | ⟨haws, listed, courses, rfl, hcourses⟩, -⟩ := hyields
  · refine ⟨fun _ => rfl, fun h => ?_, ⟨[], ⟨[], .nil, rfl⟩, rfl⟩, ⟨[], ⟨[], .nil, rfl⟩, .nil⟩⟩
    rw [haws] at h
    cases h
  · obtain ⟨tally, htally, hbalanced⟩ := exists_tally_of_forall₂ hcourses
    have hlisted : IsAside (.command .capture stateListCommand listed : Exchange T) :=
      isAside_command (by simp [stateListCommand, stateShowCommand]) rfl rfl
    have hall := cons_aside hlisted htally
    refine ⟨fun h => ?_, fun _ => ⟨listed, courses, rfl, hcourses⟩,
      ⟨_, hall.clusters, hall.listings.trans hbalanced.asked⟩,
      ⟨_, hall.services, hall.scaleDowns ▸ hbalanced.scaled⟩⟩
    rw [haws] at h
    cases h

/-- Commands that find one cluster, list its services with a given answer, and say of every
service that it is gone. -/
def oneCluster (listing : String) : Command → Response
  | ["terraform", "state", "list"] => .exited 0 "aws_ecs_cluster.web\n" ""
  | "terraform" :: "state" :: "show" :: _ => .exited 0 "  name = \"web\"\n" ""
  | "aws" :: "ecs" :: "list-services" :: _ => .exited 0 listing ""
  | "aws" :: "ecs" :: "describe-services" :: _ => .exited 0 "\x7b\"services\": []\x7d" ""
  | _ => .exited 0 "" ""

/-- A cluster with two services, of which one has an identifier with a slash. -/
def twoServices : Setup Binary64 Unit where
  directory := ⟨"/", ["work"]⟩
  outputs := ⟨"/", ["outputs.json"]⟩
  drainTimeout := .zero
  pollInterval := .zero
  isInstalled _ := true
  surroundings :=
    { respond := fun c _ => (oneCluster "\x7b\"serviceArns\": [\"arn/api\", \"job\"]\x7d" c, ())
      reply := fun _ _ => (⟨["y"], some true⟩, ())
      now := fun _ => (.zero, ())
      pass := fun _ _ => () }

theorem drain_isDrainage_twoServices :
    (outcome twoServices.drain ⟨(), {}, []⟩).1 = .ok () ∧
      ∃ t, twoServices.Accounts ⟨(), {}, []⟩ t (outcome twoServices.drain ⟨(), {}, []⟩).2 ∧
        (t.commands.filter fun c => isScaleDown c || isDeletion c) =
          [scaleDownCommand "web" "api", deleteCommand "web" "api",
            scaleDownCommand "web" "job", deleteCommand "web" "job"] ∧
        twoServices.IsDrainage t := by
  have hok : (outcome twoServices.drain ⟨(), {}, []⟩).1.isOk = true := by decide +kernel
  have hcommands : (((outcome twoServices.drain ⟨(), {}, []⟩).2.trace.filterMap
      Effect.command?).filter fun c => isScaleDown c || isDeletion c) =
        [scaleDownCommand "web" "api", deleteCommand "web" "api",
          scaleDownCommand "web" "job", deleteCommand "web" "job"] := by decide +kernel
  obtain ⟨a, ha⟩ := exists_of_isOk hok
  obtain ⟨t, haccounts, hdrainage⟩ := drain_isDrainage twoServices _ ha
  refine ⟨ha, t, haccounts, ?_, hdrainage⟩
  rw [haccounts.commands] at hcommands
  exact hcommands

end Setup

end Rollout
end Groundplan
