import Cerbix.Domain.Alert
import Cerbix.Lib.Announce

/-!
# The alerting tables of a service

The rows of one service's alerts and every transaction that writes them, except delivery: the
evaluators (`internal/store/servicealerteval.go`, `serviceburneval.go`), the lifecycle closes
(`servicealertlifecycle.go`), the writes of the paging declaration and of the burn targets
(`servicealertpolicy.go`, `fileapply_alerting.go`, `servicereport.go`), the auto-incident
(`serviceincidents.go`) and the deletion of the service (`services.go`).

An evaluation fails on a row written since its snapshot, so each transaction is one step; what it
reads from elsewhere is its input. A target's id is its position, an episode's the number of
episodes before it.
-/

namespace Cerbix.Alerting

open Cerbix.Lib Cerbix.Domain

/-! ## Rows -/

/-- What an announcement is about: the live signal of the service, or a rule of one of its burn
targets. -/
inductive AlertKey
  | health
  | burn (target : Nat) (rule : RuleKey)
  deriving DecidableEq, Repr

/-- The row of the health signal: its latch, and the streak of the candidate state. -/
structure LiveState extends Latch where
  observedState : AlertState
  candidateState : AlertState
  streak : Int
  emittedState : Option AlertState
  configGeneration : Nat
  revisionID : Option Nat
  evaluatedAt : Int
  leaseUntil : Int
  lastError : Option String
  deriving DecidableEq, Repr

/-- The latch of one burn rule of a target. -/
structure BurnLatch extends Latch where
  target : Nat
  rule : RuleKey
  lastVerdict : BurnVerdict
  lastReason : Option ReportReason
  targetGeneration : Nat
  configGeneration : Nat
  evaluatedAt : Int
  leaseUntil : Int
  lastError : Option String
  deriving DecidableEq, Repr

/-- The windows that a service can have an objective for. -/
inductive TargetWindow
  | day | week | month | quarter
  deriving DecidableEq, Repr

/-- An objective of the service, with its burn rules. -/
structure BurnTarget where
  window : TargetWindow
  objective : Rat
  enabled : Bool
  rules : List BurnRule
  alertGeneration : Nat
  deriving DecidableEq, Repr

/-- A row of `service_alert_episodes`; `state` is the state a health episode announced. -/
structure Episode where
  id : Nat
  key : AlertKey
  state : Option AlertState
  startedAt : Int
  recipients : List Nat
  emittedSeq : Nat
  closed : Option (Int × CloseReason)
  deriving DecidableEq, Repr

def Episode.isOpen (e : Episode) : Bool := e.closed = none

/-- The payload of a `service_alert` event. A close with no open episode carries no id. -/
structure ServiceAlert where
  key : AlertKey
  firing : Bool
  closeReason : Option CloseReason
  episodeID : Option Nat
  seq : Nat
  recipients : List Nat
  state : Option AlertState
  deriving DecidableEq, Repr

/-- An incident that the service's paging opened. -/
structure Incident where
  state : AlertState
  confirmedOver : Int
  revision : Option Nat
  resolution : Option String
  deriving DecidableEq, Repr

def Incident.isOpen (i : Incident) : Bool := i.resolution = none

inductive OutboxStatus
  | pending | delivered | dead
  deriving DecidableEq, Repr

/-- An announcement on its way to the deliverer. -/
structure OutboxEvent where
  id : Nat
  alert : ServiceAlert
  status : OutboxStatus
  attempts : Nat
  nextAttemptAt : Int
  claimToken : Option Nat
  updatedAt : Int
  deriving DecidableEq, Repr

/-- How far an attempt of a worker has come. -/
inductive Stage
  | claimed
  | sending
  | unreached
  /-- It was attempted, with this many sends that succeeded. -/
  | sent (delivered : Nat) (failed : Bool)
  | settling (failed : Bool)
  /-- The row is dead, and the announcement not condemned yet. -/
  | dying
  deriving DecidableEq, Repr

/-- A worker's attempt at an event it claimed. -/
structure Delivery where
  id : Nat
  alert : ServiceAlert
  attempts : Nat
  claimToken : Nat
  stage : Stage
  deriving DecidableEq, Repr

/-- The rows of one service and the workers that hold its events. `log` has every alert enqueued,
`heard` every one that reached a recipient. -/
structure AlertTables where
  fileManaged : Bool
  deleted : Bool
  policy : AlertPolicy
  configGeneration : Nat
  targets : List BurnTarget
  live : Option LiveState
  latches : List BurnLatch
  episodes : List Episode
  incidents : List Incident
  outbox : List OutboxEvent
  workers : List Delivery
  nextID : Nat
  log : List ServiceAlert
  heard : List ServiceAlert
  deriving DecidableEq, Repr

namespace AlertTables

def empty (fileManaged : Bool) : AlertTables where
  fileManaged := fileManaged
  deleted := false
  policy := defaultServiceAlertPolicy
  configGeneration := 0
  targets := []
  live := none
  latches := []
  episodes := []
  incidents := []
  outbox := []
  workers := []
  nextID := 0
  log := []
  heard := []

end AlertTables

def BurnLatch.key (l : BurnLatch) : AlertKey := .burn l.target l.rule

namespace AlertTables

variable (s : AlertTables) (k : AlertKey)

/-- The latch of a signal, if its row exists. -/
def latch : Option Latch :=
  match k with
  | .health => s.live.map LiveState.toLatch
  | .burn _ _ => (s.latches.find? fun l => l.key = k).map BurnLatch.toLatch

/-- The latch of a signal; without a row that of one that never fired. -/
def latchAt : Latch := (s.latch k).getD .new

/-- Write the latch of a signal. -/
def modifyLatch (f : Latch → Latch) : AlertTables :=
  match k with
  | .health => { s with live := s.live.map fun r => { r with toLatch := f r.toLatch } }
  | .burn _ _ =>
    { s with
      latches := s.latches.map fun l => if l.key = k then { l with toLatch := f l.toLatch } else l }

/-- The episode of a signal that was not closed. -/
def openEpisode : Option Episode := s.episodes.find? fun e => e.isOpen && e.key = k

/-- Close the open episode of a signal. -/
def closeOpen (asOf : Int) (reason : CloseReason) : AlertTables :=
  { s with
    episodes := s.episodes.map fun e =>
      if e.isOpen && e.key = k then { e with closed := some (asOf, reason) } else e }

/-- Queue an announcement under a new id. -/
def enqueueOutbox (a : ServiceAlert) (now : Int) : AlertTables :=
  { s with
    outbox := s.outbox ++ [⟨s.nextID, a, .pending, 0, now, none, now⟩]
    nextID := s.nextID + 1
    log := s.log ++ [a] }

/-- A service has at most one open incident. -/
def openServiceIncident (i : Incident) : AlertTables :=
  if s.incidents.any Incident.isOpen then s else { s with incidents := s.incidents ++ [i] }

/-- Resolve the open incident. -/
def resolveServiceIncident (body : String) : AlertTables :=
  { s with
    incidents := s.incidents.map fun i =>
      if i.isOpen then { i with resolution := some body } else i }

end AlertTables

/-- Whom a schedule names: a channel, or a text that is no channel id. -/
inductive Participant
  | channel (id : Nat)
  | other (text : String)
  deriving DecidableEq, Repr

/-- An on-call schedule. -/
structure Schedule where
  participants : List Participant
  onCall : Option Participant
  deriving DecidableEq, Repr

/-- The project's channels and its schedule, at one evaluation. -/
structure Routing where
  enabled : List Nat
  schedule : Option Schedule
  deriving DecidableEq, Repr

/-- `resolveServiceRecipientsTx`: the on-call channel if it is live, or the channels of the project;
a name that is no channel id is an error. -/
def resolveServiceRecipients (r : Routing) : Except Participant (List Nat) :=
  match r.schedule.bind Schedule.onCall with
  | some (.other text) => .error (.other text)
  | some (.channel c) => if c ∈ r.enabled then .ok [c] else .ok r.enabled
  | none => .ok r.enabled

/-- A channel is enabled, or one on the schedule is. -/
def routable (r : Routing) : Bool :=
  (r.schedule.any fun sc => sc.participants.any fun p => r.enabled.any fun c => p = .channel c) ||
    !r.enabled.isEmpty

/-- What an evaluation announces: an onset, or the close of an episode. -/
structure Emission where
  key : AlertKey
  close : Option CloseReason
  state : Option AlertState
  seq : Nat
  asOf : Int
  supersede : CloseReason
  deriving DecidableEq, Repr

namespace AlertTables

/-- Open an episode in the place of the signal's former one, and queue its announcement. -/
def emitOnset (s : AlertTables) (e : Emission) (recipients : List Nat) : AlertTables :=
  let id := s.episodes.length
  let s' := s.closeOpen e.key e.asOf e.supersede
  let episode : Episode := ⟨id, e.key, e.state, e.asOf, recipients, e.seq, none⟩
  let opened : AlertTables := { s' with episodes := s'.episodes ++ [episode] }
  opened.enqueueOutbox ⟨e.key, true, none, some id, e.seq, recipients, e.state⟩ e.asOf

/-- `emitServiceAlertTx`. -/
def emitServiceAlert (s : AlertTables) (e : Emission) (r : Routing) :
    Except Participant AlertTables :=
  match e.close with
  | some reason =>
    match s.openEpisode e.key with
    | some ep =>
      .ok ((s.closeOpen e.key e.asOf reason).enqueueOutbox
        ⟨e.key, false, some reason, some ep.id, e.seq, ep.recipients, e.state⟩ e.asOf)
    | none =>
      match resolveServiceRecipients r with
      | .error p => .error p
      | .ok recipients =>
        .ok (s.enqueueOutbox ⟨e.key, false, some reason, none, e.seq, recipients, e.state⟩ e.asOf)
  | none =>
    match resolveServiceRecipients r with
    | .error p => .error p
    | .ok recipients => .ok (s.emitOnset e recipients)

end AlertTables

/-! ## The live evaluator -/

/-- The level of a service at an instant. -/
inductive SLILevel
  | healthy | degraded | down | unknown
  deriving DecidableEq, Repr

/-- What an evaluation reads of the service. -/
structure Projection where
  sli : SLILevel
  excluded : Bool
  deriving DecidableEq, Repr

def alertStateOf (p : Projection) : AlertState :=
  if p.excluded then .excluded
  else
    match p.sli with
    | .down => .down
    | .degraded => .degraded
    | .healthy => .healthy
    | .unknown => .unknown

/-- Why an evaluation's transaction rolls back. -/
inductive EvaluationError
  | notInSlice
  | notAChannel (p : Participant)
  | lostToNewer
  deriving DecidableEq, Repr

/-- What one pass of the live evaluator finds for the service. -/
structure LiveEvaluation where
  asOf : Int
  cadence : Int
  projection : Option Projection
  revision : Option Nat
  routing : Routing
  deriving DecidableEq, Repr

def serviceAlertLeaseMultiplier : Int := 3

namespace AlertTables

variable (s : AlertTables)

/-- `writeAlertErrorTx`: the lease collapses and the level stays. -/
def writeAlertError (asOf : Int) (reason : String) : AlertTables :=
  match s.live with
  | none =>
    let row : LiveState :=
      { toLatch := .new, observedState := .unknown, candidateState := .unknown, streak := 1
        emittedState := none, configGeneration := s.configGeneration, revisionID := none
        evaluatedAt := asOf, leaseUntil := asOf, lastError := some reason }
    { s with live := some row }
  | some r =>
    let row := { r with evaluatedAt := asOf, leaseUntil := asOf, lastError := some reason }
    { s with live := some row }

/-- How many evaluations in a row saw the state, this one counted. -/
def nextStreak (observed : AlertState) : Int :=
  match s.live with
  | some r => if r.candidateState = observed then r.streak + 1 else 1
  | none => 1

/-- The state that the health signal last announced. -/
def emittedState : Option AlertState := s.live.bind LiveState.emittedState

/-- The announcement of the present state was lost and is repeated. -/
def reannounces (d : AlertDecision) (candidate : AlertState) : Bool :=
  let l := s.latchAt .health
  !d.notify && l.firing && 0 < l.emittedSeq && l.undeliveredSeq = l.emittedSeq &&
    s.emittedState = some candidate && s.policy.pages candidate

/-- The decision about the health signal, and whether it repeats an announcement. -/
def liveDecision (candidate : AlertState) : AlertDecision × Bool :=
  let d := decideServiceAlert s.policy candidate (s.nextStreak candidate)
    (s.latchAt .health).firing s.emittedState
  if s.reannounces d candidate then
    ({ d with notify := true, close := false, nextEmitted := some candidate, nextFiring := true },
      true)
  else (d, false)

end AlertTables

/-- An onset needs a governing declaration and somebody to tell; a close is never withheld. -/
def LiveEvaluation.armed (e : LiveEvaluation) (d : AlertDecision) : Except Participant Bool :=
  if d.notify && !d.close then
    match e.revision with
    | none => .ok false
    | some _ =>
      match resolveServiceRecipients e.routing with
      | .error p => .error p
      | .ok route => .ok !route.isEmpty
  else .ok true

namespace AlertTables

variable (s : AlertTables) (e : LiveEvaluation)

/-- Write the health row, unless a newer evaluation has. -/
def writeLive (observed : AlertState) (streak : Int) (l : Latch)
    (emitted : Option AlertState) : Except EvaluationError AlertTables :=
  if s.live.any fun r => e.asOf < r.evaluatedAt then .error .lostToNewer
  else
    let row : LiveState :=
      { toLatch := l, observedState := observed, candidateState := observed, streak := streak
        emittedState := emitted, configGeneration := s.configGeneration, revisionID := e.revision
        evaluatedAt := e.asOf, leaseUntil := e.asOf + serviceAlertLeaseMultiplier * e.cadence
        lastError := none }
    .ok { s with live := some row }

/-- Open or resolve the incident, as the decision says. -/
def liveIncident (observed : AlertState) (streak : Int) (close : Bool) : AlertTables :=
  if close then
    s.resolveServiceIncident "Resolved automatically: the service is no longer in a pageable state."
  else s.openServiceIncident ⟨observed, streak, e.revision, none⟩

def liveEmission (observed : AlertState) (d : AlertDecision) (reannounce : Bool) : Emission where
  key := .health
  close := if d.close then d.closeReason else none
  state := some observed
  seq := (s.latchAt .health).emittedSeq + 1
  asOf := e.asOf
  supersede := if reannounce then .undelivered else .policyChanged

/-- Emit what was decided about the health signal, then write its row. -/
def announceLive (observed : AlertState) (d : AlertDecision)
    (reannounce : Bool) : Except EvaluationError AlertTables :=
  let l := s.latchAt .health
  match s.emitServiceAlert (s.liveEmission e observed d reannounce) e.routing with
  | .error p => .error (.notAChannel p)
  | .ok s' =>
    (s'.liveIncident e observed (s.nextStreak observed) d.close).writeLive e observed
      (s.nextStreak observed) { l with firing := d.nextFiring, emittedSeq := l.emittedSeq + 1 }
        d.nextEmitted

/-- One evaluation of the health signal of a service. -/
def evaluateServiceAlerts : Except EvaluationError AlertTables :=
  if s.deleted || !s.policy.ownsPaging then .error .notInSlice
  else
    match e.projection with
    | none => .ok (s.writeAlertError e.asOf "projection returned no row")
    | some p =>
      let observed := alertStateOf p
      let (d, reannounce) := s.liveDecision observed
      match e.armed d with
      | .error p => .error (.notAChannel p)
      | .ok armed =>
        if d.notify && armed then s.announceLive e observed d reannounce
        else s.writeLive e observed (s.nextStreak observed) (s.latchAt .health) s.emittedState

end AlertTables

/-! ## The burn evaluator -/

/-- What a pass of the burn evaluator finds: the targets it takes, whether anything is sealed, and
the two windows of every rule. -/
structure BurnEvaluation where
  asOf : Int
  cadence : Int
  slice : List Nat
  hasSealed : Bool
  windows : Nat → RuleKey → BurnWindow × BurnWindow
  routing : Routing

namespace AlertTables

variable (s : AlertTables)

def newBurnLatch (t : BurnTarget) (asOf : Int) (k : Nat × RuleKey) : BurnLatch where
  toLatch := .new
  target := k.1
  rule := k.2
  lastVerdict := .hold
  lastReason := none
  targetGeneration := t.alertGeneration
  configGeneration := s.configGeneration
  evaluatedAt := asOf
  leaseUntil := asOf
  lastError := none

/-- Write the latch of a rule, which is new if there is none. -/
def upsertBurnLatch (t : BurnTarget) (asOf : Int) (k : Nat × RuleKey) (f : BurnLatch → BurnLatch) :
    AlertTables :=
  { s with latches := upsert (fun l => (l.target, l.rule)) (s.newBurnLatch t asOf) k f s.latches }

/-- `disarmBurnTargetTx` for one rule: a hold with an error and no lease, unless a newer verdict is
stored; the level stays. -/
def disarmBurnRule (e : BurnEvaluation) (i : Nat) (t : BurnTarget) (rule : RuleKey) : AlertTables :=
  s.upsertBurnLatch t e.asOf (i, rule) fun l =>
    if l.evaluatedAt ≤ e.asOf then
      { l with
        lastVerdict := .hold, lastReason := some .nothingSealed, evaluatedAt := e.asOf
        leaseUntil := e.asOf
        lastError := some "the service has sealed nothing, so no window can be quoted" }
    else l

/-- The decision about a rule, and whether it repeats an announcement. -/
def burnDecision (e : BurnEvaluation) (i : Nat) (rule : RuleKey) : BurnDecision × Bool :=
  let prev := s.latchAt (.burn i rule)
  let (long, short) := e.windows i rule
  let d := decideBurnRule long short rule.threshold prev.firing
  if !d.edge && prev.firing && 0 < prev.emittedSeq && prev.undeliveredSeq = prev.emittedSeq then
    ({ d with edge := true, firing := true }, true)
  else (d, false)

end AlertTables

/-- A fire edge nobody can receive is withheld, and a clear never is. -/
def BurnEvaluation.withhold (e : BurnEvaluation) (d : BurnDecision) (firing : Bool) :
    Except Participant BurnDecision :=
  if d.edge && d.firing then
    match resolveServiceRecipients e.routing with
    | .error p => .error p
    | .ok route => .ok (if route.isEmpty then { d with edge := false, firing := firing } else d)
  else .ok d

namespace AlertTables

variable (s : AlertTables) (e : BurnEvaluation)

/-- Write the latch of a rule, unless a newer evaluation has. -/
def writeBurn (i : Nat) (t : BurnTarget) (rule : RuleKey) (d : BurnDecision)
    (latch : Latch) : Except EvaluationError AlertTables :=
  if s.latches.any fun l => l.key = .burn i rule && e.asOf < l.evaluatedAt then .error .lostToNewer
  else .ok (s.upsertBurnLatch t e.asOf (i, rule) fun l =>
    { l with
      toLatch := latch, lastVerdict := d.verdict, lastReason := d.holdReason
      targetGeneration := t.alertGeneration, configGeneration := s.configGeneration
      evaluatedAt := e.asOf, leaseUntil := e.asOf + serviceAlertLeaseMultiplier * e.cadence
      lastError := none })

def burnEmission (i : Nat) (rule : RuleKey) (d : BurnDecision) (reannounce : Bool) : Emission where
  key := .burn i rule
  close := if d.firing then none else some .recovered
  state := none
  seq := (s.latchAt (.burn i rule)).emittedSeq + 1
  asOf := e.asOf
  supersede := if reannounce then .undelivered else .policyChanged

/-- Emit what was decided about a rule, then write its latch. -/
def announceBurn (i : Nat) (t : BurnTarget) (rule : RuleKey) (d : BurnDecision)
    (reannounce : Bool) : Except EvaluationError AlertTables :=
  let prev := s.latchAt (.burn i rule)
  match s.emitServiceAlert (s.burnEmission e i rule d reannounce) e.routing with
  | .error p => .error (.notAChannel p)
  | .ok s' => s'.writeBurn e i t rule d
      { prev with firing := d.firing, emittedSeq := prev.emittedSeq + 1 }

/-- One evaluation of one rule. -/
def evaluateBurnRule (i : Nat) (t : BurnTarget) (rule : RuleKey) :
    Except EvaluationError AlertTables :=
  let prev := s.latchAt (.burn i rule)
  let (d, reannounce) := s.burnDecision e i rule
  match e.withhold d prev.firing with
  | .error p => .error (.notAChannel p)
  | .ok d =>
    if d.edge then s.announceBurn e i t rule d reannounce
    else s.writeBurn e i t rule d { prev with firing := d.firing }

/-- One evaluation of each rule of a target. -/
def evaluateBurnTarget (i : Nat) : Except EvaluationError AlertTables :=
  match s.targets[i]? with
  | none => .error .notInSlice
  | some t =>
    if s.policy.ownsPaging && t.enabled && !t.rules.isEmpty then
      if e.hasSealed then
        (burnRuleKeys t.rules).foldlM (fun s rule => s.evaluateBurnRule e i t rule) s
      else .ok ((burnRuleKeys t.rules).foldl (fun s rule => s.disarmBurnRule e i t rule) s)
    else .error .notInSlice

/-- One evaluation of the targets of a slice, in one transaction. -/
def evaluateServiceBurnAlerts : Except EvaluationError AlertTables :=
  e.slice.foldlM (fun s i => s.evaluateBurnTarget e i) s

end AlertTables

inductive AlertSignal
  | health | burn
  deriving DecidableEq, Repr

/-- `episodeCloseFilter`: `keepRuleKeys` ends the burn episodes of the rules that are not kept. -/
structure EpisodeCloseFilter where
  signal : Option AlertSignal
  target : Option Nat
  keepRuleKeys : Option (List RuleKey)
  deriving DecidableEq, Repr

/-- The filter names the signal. -/
def EpisodeCloseFilter.ends (f : EpisodeCloseFilter) : AlertKey → Bool
  | .health => f.signal ≠ some .burn ∧ f.target = none
  | .burn i rule =>
    f.signal ≠ some .health ∧ (f.target = none ∨ f.target = some i) ∧
      ∀ keys ∈ f.keepRuleKeys, rule ∉ keys

namespace AlertTables

/-- End one announcement: its close goes to whom its onset went, and the level follows it. -/
def endEpisode (asOf : Int) (reason : CloseReason) (s : AlertTables) (e : Episode) : AlertTables :=
  ((s.closeOpen e.key asOf reason).enqueueOutbox
    ⟨e.key, false, some reason, some e.id, e.emittedSeq + 1, e.recipients, e.state⟩
    asOf).modifyLatch e.key (·.lowerTo (e.emittedSeq + 1))

def lifecycleResolutionBody (reason : CloseReason) : String :=
  match reason with
  | .ownershipDisabled =>
    "Resolved automatically: paging ownership was turned off for this service, so nothing " ++
      "evaluates it any more. This is not a statement that the service recovered."
  | .policyChanged =>
    "Resolved automatically: the paging policy no longer covers the state this incident " ++
      "was opened for. This is not a statement that the service recovered."
  | .serviceDeleted =>
    "Resolved automatically: the service was deleted. This is not a statement that it recovered."
  | reason =>
    "Resolved automatically: " ++ reason.text ++
      ". This is not a statement that the service recovered."

/-- `closeServiceEpisodesTx`: with the live episode its incident ends. -/
def closeServiceEpisodes (s : AlertTables) (f : EpisodeCloseFilter) (asOf : Int)
    (reason : CloseReason) : AlertTables :=
  let endings := s.episodes.filter fun e => e.isOpen && f.ends e.key
  let s' := endings.foldl (endEpisode asOf reason) s
  if endings.any fun e => e.key = .health then
    s'.resolveServiceIncident (lifecycleResolutionBody reason)
  else s'

end AlertTables

/-! ## The declarations -/

/-- Why a write is refused. -/
inductive AlertError
  | notFound
  | fileManaged
  | pinned
  | policy (e : AlertPolicyError)
  | rules (e : BurnRuleError)
  deriving DecidableEq, Repr

/-- `ServiceAlertPolicyPatch`: an omitted field is left alone. -/
structure AlertPolicyPatch where
  ownsPaging : Option Bool
  pageOn : Option (List AlertState)
  pageOnUnknown : Option Bool
  confirmEvaluations : Option Int
  renotifySeconds : Option Int
  deriving DecidableEq, Repr

/-- What a patch leaves out stays as it is. -/
def AlertPolicyPatch.merged (p : AlertPolicyPatch) (base : AlertPolicy) : AlertPolicy where
  ownsPaging := p.ownsPaging.getD base.ownsPaging
  pageOn := p.pageOn.getD base.pageOn
  pageOnUnknown := p.pageOnUnknown.getD base.pageOnUnknown
  confirmEvaluations := p.confirmEvaluations.getD base.confirmEvaluations
  renotifySeconds := p.renotifySeconds.getD base.renotifySeconds

/-- Another set of states pages. -/
def pagingStatesChanged (before next : AlertPolicy) : Bool :=
  before.pageOnUnknown ≠ next.pageOnUnknown ∨ before.pageOn ≠ next.pageOn

def Severity.rank : Severity → Nat
  | .page => 0 | .ticket => 1 | .other _ => 2

/-- The order in which rules are stored. -/
def RuleKey.before (a b : RuleKey) : Bool :=
  if Severity.rank a.severity ≠ Severity.rank b.severity then
    Severity.rank a.severity < Severity.rank b.severity
  else if a.longWindowSeconds ≠ b.longWindowSeconds then a.longWindowSeconds < b.longWindowSeconds
  else if a.shortWindowSeconds ≠ b.shortWindowSeconds then
    a.shortWindowSeconds < b.shortWindowSeconds
  else a.threshold ≤ b.threshold

/-- The rules as they are stored: in order, and none firing. -/
def canonicalRules (rules : List BurnRule) : List BurnRule :=
  (rules.map fun r => { r with firing := false }).insertionSort fun a b =>
    RuleKey.before a.key b.key

/-- A write of the burn rules of a target. -/
structure BurnWrite where
  window : TargetWindow
  enabled : Bool
  rules : List BurnRule
  asOf : Int
  deriving DecidableEq, Repr

/-- The write leaves the latch alone. -/
def BurnWrite.keeps (w : BurnWrite) (i : Nat) (l : BurnLatch) : Bool :=
  l.target ≠ i ∨ (w.enabled ∧ l.rule ∈ burnRuleKeys w.rules)

namespace AlertTables

variable (s : AlertTables)

/-- What a new declaration ends, judged by the old one. -/
def closeUncovered (before next : AlertPolicy) (asOf : Int) : AlertTables :=
  if before.ownsPaging && !next.ownsPaging then
    s.closeServiceEpisodes ⟨none, none, none⟩ asOf .ownershipDisabled
  else if pagingStatesChanged before next then
    match s.openEpisode .health with
    | some e =>
      if e.state.any fun st => !next.pages st then
        s.closeServiceEpisodes ⟨some .health, none, none⟩ asOf .policyChanged
      else s
    | none => s
  else s

/-- Store a policy; the episodes that it no longer covers are closed. -/
def writePolicy (next : AlertPolicy) (asOf : Int) : AlertTables :=
  let before := s.policy.canonical
  if before = next then s
  else
    let s' := s.closeUncovered before next asOf
    let changed : Bool := s.policy.ownsPaging ≠ next.ownsPaging ∨ s.policy.pageOn ≠ next.pageOn ∨
      s.policy.pageOnUnknown ≠ next.pageOnUnknown ∨
      s.policy.confirmEvaluations ≠ next.confirmEvaluations
    { s' with
      policy := next
      configGeneration := if changed then s.configGeneration + 1 else s.configGeneration }

def updateServiceAlertPolicy (patch : AlertPolicyPatch) (asOf : Int) :
    Except AlertError AlertTables :=
  if s.deleted then .error .notFound
  else if s.fileManaged then .error .fileManaged
  else
    let next := (patch.merged s.policy.canonical).canonical
    match next.validate with
    | .error e => .error (.policy e)
    | .ok () => .ok (s.writePolicy next asOf)

/-- `applyServiceAlertingTx`: a bundle that says nothing about paging changes nothing. -/
def applyServiceAlerting (declared : Option AlertPolicy) (asOf : Int) :
    Except AlertError AlertTables :=
  if s.deleted then .error .notFound
  else
    match declared with
    | none => .ok s
    | some p =>
      match p.canonical.validate with
      | .error e => .error (.policy e)
      | .ok () => .ok (s.writePolicy p.canonical asOf)

/-- Close the episodes of the rules that a write takes away. -/
def closeUndeclared (i : Nat) (t : BurnTarget) (w : BurnWrite) : AlertTables :=
  if t.enabled && !w.enabled then
    s.closeServiceEpisodes ⟨some .burn, some i, none⟩ w.asOf .burnDisabled
  else if w.enabled then
    s.closeServiceEpisodes ⟨some .burn, some i, some (burnRuleKeys w.rules)⟩ w.asOf .ruleRemoved
  else s

/-- The body of `SetServiceBurnAlerting` on its target: end what is no longer declared, delete its
latches, write. -/
def writeBurnAlerting (i : Nat) (t : BurnTarget) (w : BurnWrite) : AlertTables :=
  let stored := canonicalRules w.rules
  if w.enabled = t.enabled ∧ stored = canonicalRules t.rules then s
  else
    let s' := s.closeUndeclared i t w
    let changed : Bool := t.enabled ≠ w.enabled ∨ t.rules ≠ stored
    let generation := if changed then t.alertGeneration + 1 else t.alertGeneration
    let t' := { t with enabled := w.enabled, rules := stored, alertGeneration := generation }
    { s' with
      latches := s'.latches.filter (w.keeps i)
      targets := s.targets.set i t' }

def setServiceBurnAlerting (w : BurnWrite) : Except AlertError AlertTables :=
  match validateServiceBurnRules w.rules with
  | .error e => .error (.rules e)
  | .ok () =>
    if s.fileManaged then .error .fileManaged
    else
      match s.targets.zipIdx.find? fun (t, _) => t.window = w.window with
      | none => .error .notFound
      | some (t, i) => .ok (s.writeBurnAlerting i t w)

def upsertServiceSLATarget (window : TargetWindow) (objective : Rat) :
    Except AlertError AlertTables :=
  if s.deleted then .error .notFound
  else
    match s.targets.zipIdx.find? fun (t, _) => t.window = window with
    | none => .ok { s with targets := s.targets ++ [⟨window, objective, false, [], 0⟩] }
    | some (t, i) =>
      let generation := if t.objective ≠ objective then t.alertGeneration + 1 else t.alertGeneration
      let t' := { t with objective := objective, alertGeneration := generation }
      .ok { s with targets := s.targets.set i t' }

/-- `DeleteService`, with whether a file edge or a rendered page pins the service: all announcements
end, and its rows go. -/
def deleteService (pinned : Bool) (asOf : Int) : Except AlertError AlertTables :=
  if s.deleted then .error .notFound
  else if s.fileManaged then .error .fileManaged
  else if pinned then .error .pinned
  else
    let s' := s.closeServiceEpisodes ⟨none, none, none⟩ asOf .serviceDeleted
    .ok { s' with deleted := true, targets := [], live := none, latches := [] }

end AlertTables

end Cerbix.Alerting
