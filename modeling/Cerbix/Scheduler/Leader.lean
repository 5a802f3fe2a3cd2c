import Cerbix.Ledger.Events
import Cerbix.Lib.Run
import Cerbix.Scheduler.Dispatch

/-!
# The leader's tick

The dispatch part of `lead` and `publishPending` (`internal/scheduler/scheduler.go`) as a transition
system: a tick loads the standing expectations, decides every due monitor, submits the advances as
one statement, publishes what it proved durable and confirms it. Every statement is a step, so
configuration writes, executors' reports and the ingest of results come between any two; a leader
may step down, or die, before any step. How a statement or a publish ended is an input.
-/

namespace Cerbix.Scheduler

open Cerbix.Lib Cerbix.Domain Cerbix.Ledger Function DueExpectation

/-- A tick that is deciding, monitor by monitor. -/
structure Tick where
  now : Int
  expectations : List DueExpectation
  rest : List Monitor
  nominated : List Monitor
  items : List MaterializedExecution
  pending : List PendingDispatch
  advances : List ExpectationAdvance

/-- A tick that hands over what it decided. -/
structure Publishing where
  now : Int
  pending : List PendingDispatch
  reserveFailed : Bool
  /-- The windows the store proved durable this tick, by monitor. -/
  reserved : MonitorID → Option Int
  held : List PendingDispatch
  confirms : List ExpectationConfirm

/-- What the leader is at. -/
inductive Phase
  | idle
  | loading (now : Int)
  | deciding (t : Tick)
  | publishing (p : Publishing)

/-- What a leader keeps in memory. -/
structure Leader where
  monitors : List Monitor
  nextRun : MonitorID → Option Int
  confirmFast : MonitorID → Option Int
  credentialFailures : MonitorID → Nat
  publishFailures : MonitorID → Nat
  deferredDispatch : List PendingDispatch
  phase : Phase

/-- A leader that has just taken over. -/
def Leader.fresh : Leader where
  monitors := []
  nextRun := fun _ => none
  confirmFast := fun _ => none
  credentialFailures := fun _ => 0
  publishFailures := fun _ => 0
  deferredDispatch := []
  phase := .idle

/-- A job that was handed to the transport. -/
structure Handed where
  dispatch : PendingDispatch
  accepted : Bool
  publishedAt : Int
  windows : List ExpectedRun
  answered : Bool

/-- The ledger, the in-flight canaries, the leader and the transport. -/
structure System where
  ledger : LedgerTables
  inflight : CanaryInflight
  clock : Int
  nextJob : JobID
  leader : Leader
  handed : List Handed

def System.start (ledger : LedgerTables) (inflight : CanaryInflight) : System :=
  ⟨ledger, inflight, 0, 0, .fresh, []⟩

/-- The settings of the scheduler. -/
structure Settings where
  policy : ExpectedRunPolicy
  credentialEnvelopes : Bool

namespace Leader

variable (l : Leader)

/-- `enterConfirm`: pull the next probe closer, within the region's cap. -/
def enterConfirm (now : Int) (l : Leader) (m : Monitor) : Leader :=
  if (l.confirmFast m.id).isNone ∧ confirmCapPerRegion ≤
      (l.monitors.filter fun o => (l.confirmFast o.id).isSome ∧ o.region = m.region).length then l
  else
    let fast := now + m.confirmInterval
    { l with
      confirmFast := update l.confirmFast m.id (some (now + m.interval))
      nextRun :=
        if (l.nextRun m.id).all (fast < ·) then update l.nextRun m.id (some fast)
        else l.nextRun }

/-- Load the enabled monitors, and forget the others. -/
def refresh (tables : LedgerTables) (now : Int) : Leader :=
  let monitors := tables.monitors.rows.filter Monitor.enabled
  let known (id : MonitorID) : Bool := monitors.any fun m => m.id = id
  let confirming (id : MonitorID) : Bool := monitors.any fun m => m.id = id && m.inConfirmPhase
  let pruned : Leader :=
    { l with
      monitors := monitors
      nextRun := fun id => if known id then l.nextRun id else none
      credentialFailures := fun id => if known id then l.credentialFailures id else 0
      confirmFast := fun id => if confirming id then l.confirmFast id else none }
  (monitors.filter Monitor.inConfirmPhase).foldl (enterConfirm now) pruned

def setNextRun (id : MonitorID) (at' : Int) : Leader :=
  { l with nextRun := update l.nextRun id (some at') }

end Leader

/-! ## Deciding -/

namespace Tick

variable (t : Tick)

/-- The window that the ledger expects next. -/
def expectation (id : MonitorID) : Option DueExpectation :=
  t.expectations.find? fun e => e.monitorID = id

/-- The window is passed without a run. A monitor without an expectation records nothing. -/
def recordSkip (m : Monitor) (exp : Option DueExpectation) (reason : SkipReason)
    (iv : EffectiveInterval) : Tick :=
  match exp with
  | none => t
  | some exp =>
    { t with
      advances := t.advances ++
        [recordAdvance m exp none (some reason) 0 (t.now + iv.interval) iv.interval iv.confirming] }

/-- A dispatch as the tick decided it. -/
def decided (m : Monitor) (exp : Option DueExpectation) (job : CheckJob) (carrier : Int)
    (iv : EffectiveInterval) (credentialed : Bool) (lease : Option Int) : PendingDispatch where
  monitor := m
  job := job
  interval := iv.interval
  nextRun := t.now + iv.interval
  ledgered := exp.isSome
  credentialed := credentialed
  advance :=
    match exp with
    | none => noAdvance
    | some exp => recordAdvance m exp job.jobID none carrier (t.now + iv.interval) iv.interval
        iv.confirming
  lease := lease

/-- Note a dispatch, and its advance if the ledger knows the monitor. -/
def recordRun (pd : PendingDispatch) : Tick :=
  { t with
    pending := t.pending ++ [pd]
    advances := if pd.ledgered then t.advances ++ [pd.advance] else t.advances }

end Tick

/-- A failed credential resolution: retry later, and say that the window was passed. -/
def backOff (reason : SkipReason) : Leader × Tick → Monitor → Leader × Tick
  | (l, t), m =>
    let failures := l.credentialFailures m.id + 1
    let delay := credentialFailureRetry m.interval failures
    ({ l.setNextRun m.id (t.now + delay) with
        credentialFailures := update l.credentialFailures m.id failures },
      t.recordSkip m (t.expectation m.id) reason ⟨delay, false⟩)

def plainJob (m : Monitor) (exp : Option DueExpectation) (carrier : Int) : CheckJob :=
  withCarrier ⟨m, 0, exp.map jobID, exp.map issuedAt, exp.map dueAt⟩ carrier

/-- On the credentialed branch the expectation is the one the job itself carries, if it kept it. -/
def carriedExpectation (t : Tick) (job : CheckJob) : Option DueExpectation :=
  match job.dueAt, job.jobID, job.issuedAt with
  | some due, some id, some issued => some ⟨job.monitor.id, due, id, issued⟩
  | _, _, _ => t.expectation job.monitor.id

namespace System

variable (s : System)

def inPhase (phase : Phase) : System := { s with leader := { s.leader with phase := phase } }

/-- The part both dispatch branches share: the interval in force, the canary admission, and the
dispatch or its skip. -/
def dispatch (t : Tick) (m : Monitor) (exp : Option DueExpectation) (job : Monitor → CheckJob)
    (carrier : Int) (credentialed : Bool) (canary : CanaryAnswer) : System :=
  let (iv, confirmFast) := effectiveInterval m s.leader.confirmFast t.now
  let a := admitCanary s.inflight m t.now s.clock canary
  let leader := { s.leader with confirmFast := confirmFast }
  match a.skip with
  | some reason =>
    { s with
      inflight := a.slots
      leader := { leader.setNextRun m.id (t.now + iv.interval) with
        phase := .deciding (t.recordSkip a.monitor exp reason iv) } }
  | none =>
    let pd := t.decided a.monitor exp (job a.monitor) carrier iv credentialed a.lease
    { s with
      inflight := a.slots
      leader := { leader with phase := .deciding (t.recordRun pd) } }

/-- What the capability record answers for the plain branch. -/
structure PlainAnswer where
  regionGeneration : Int
  canary : CanaryAnswer
  deriving DecidableEq, Repr

/-- Decide about a monitor without credentials. -/
def decidePlain (cfg : Settings) (t : Tick) (m : Monitor) (e : PlainAnswer) : System :=
  if !dueForDispatch s.leader.nextRun t.now m then s.inPhase (.deciding t)
  else if s.leader.deferredDispatch.any fun pd => pd.monitor.id = m.id then
    -- its identity is minted and its payload built already
    s.inPhase (.deciding t)
  else if cfg.credentialEnvelopes && m.requiresExecutionEnvelope then
    s.inPhase (.deciding { t with nominated := t.nominated ++ [m] })
  else
    let exp := t.expectation m.id
    let generation := if exp.isSome then e.regionGeneration else 0
    let carrier := carrierFor generation false exp.isSome m.type
    s.dispatch t m exp (fun admitted => { plainJob m exp carrier with monitor := admitted })
      carrier false e.canary

/-- Load a batch of monitors with credentials; if the read fails, they back off. -/
def materialize (t : Tick) (region : Region) (read : Option MaterializeRead) : System :=
  let batch := (t.nominated.filter fun m => m.region = region).take 64
  let t := { t with nominated := t.nominated.filter fun m => m ∉ batch }
  match read with
  | none =>
    let (leader, t) := batch.foldl (backOff .credentialUnresolved) (s.leader, t)
    { s with leader := { leader with phase := .deciding t } }
  | some read =>
    let items := materializeExecutionConfigs s.ledger s.nextJob s.clock read (batch.map Monitor.id)
    { s with
      nextJob := s.nextJob + batch.length
      leader := { s.leader with phase := .deciding { t with items := items } } }

/-- What the world answers about a monitor with credentials. -/
structure CredentialAnswer where
  credentialReady : Bool
  carrier : Int
  canary : CanaryAnswer
  deriving DecidableEq, Repr

/-- The region can open the envelope of the job's own carrier. -/
def CredentialAnswer.ready (e : CredentialAnswer) (job : CheckJob) : Bool :=
  job.protocolVersion < protocolV2 ||
    (e.credentialReady && (job.protocolVersion < protocolV3 || e.carrier ≥ job.protocolVersion))

def backOffWith (t : Tick) (m : Monitor) (reason : SkipReason) : System :=
  let (leader, t) := backOff reason (s.leader, t) m
  { s with leader := { leader with phase := .deciding t } }

/-- Decide about a monitor whose credentials were loaded. -/
def decideCredentialed (t : Tick) (item : MaterializedExecution) (e : CredentialAnswer) : System :=
  match item.result with
  | .error .skippedCurrentState =>
    { s with leader := { s.leader with
        credentialFailures := update s.leader.credentialFailures item.monitorID 0
        phase := .deciding t } }
  | .error _ =>
    match s.leader.monitors.find? fun m => m.id = item.monitorID with
    | none => s.inPhase (.deciding t)
    | some snap => s.backOffWith t snap .credentialUnresolved
  | .ok ⟨job, carrier⟩ =>
    if !e.ready job then s.backOffWith t job.monitor .noCapableExecutor
    else s.dispatch t job.monitor (carriedExpectation t job) (fun _ => job) carrier true e.canary

/-! ## Reserving and publishing -/

end System

def reservedWindows (written : List ExpectationReservation) : MonitorID → Option Int :=
  written.foldl (fun f w => update f w.monitorID (some w.dueAt)) fun _ => none

/-- A reserve that failed may still have committed. -/
inductive ReserveOutcome
  | ok
  | failed (committed : Bool)
  deriving DecidableEq, Repr

def ReserveOutcome.commits : ReserveOutcome → Bool
  | .ok => true
  | .failed committed => committed

/-- Whether the transport took the job, and whether a refused canary was released. -/
structure PublishAttempt where
  accepted : Bool
  released : Bool
  deriving DecidableEq, Repr

/-- The gate: this dispatch's own window, proven durable by the statement that wrote it. -/
def Publishing.passes (p : Publishing) (pd : PendingDispatch) : Bool :=
  !pd.ledgered || (p.reserved pd.monitor.id).any fun due => pd.advance.expectedDue = some due

def PendingDispatch.confirm (pd : PendingDispatch) (outcome : PublishOutcome) :
    List ExpectationConfirm :=
  match pd.ledgered, pd.advance.expectedDue, pd.job.jobID with
  | true, some due, some job => [⟨pd.monitor.id, due, job, outcome⟩]
  | _, _, _ => []

namespace Leader

variable (l : Leader) (pd : PendingDispatch)

/-- What the leader remembers of a job that was taken. -/
def published : Leader :=
  let l := l.setNextRun pd.monitor.id pd.nextRun
  if pd.credentialed then
    { l with
      credentialFailures := update l.credentialFailures pd.monitor.id 0
      publishFailures := update l.publishFailures pd.monitor.id 0 }
  else l

/-- The bookkeeping of a failed one: the credentialed branch backs off, the plain one follows the
instant the ledger already wrote. -/
def notPublished (now : Int) : Leader :=
  if pd.credentialed then
    let failures := l.publishFailures pd.monitor.id + 1
    { l.setNextRun pd.monitor.id (now + credentialFailureRetry pd.interval failures) with
      publishFailures := update l.publishFailures pd.monitor.id failures }
  else l.setNextRun pd.monitor.id pd.nextRun

end Leader

namespace System

variable (s : System)

/-- The reserve of the tick's advances. -/
def reserve (cfg : Settings) (t : Tick) (outcome : ReserveOutcome) (tie : Nat) : System :=
  let (written, returned, _) := s.ledger.reserveExpectations cfg.policy t.now tie t.advances
  let publishing : Publishing :=
    { now := t.now
      pending := t.pending
      reserveFailed := outcome ≠ .ok
      reserved := if outcome = .ok then reservedWindows returned else fun _ => none
      held := []
      confirms := [] }
  { s with
    ledger := if outcome.commits then written else s.ledger
    leader := { s.leader with phase := .publishing publishing } }

def release (pd : PendingDispatch) (released : Bool) : CanaryInflight :=
  if pd.monitor.type = .asyncCanary ∧ released then
    s.inflight.releaseCanaryInflight pd.monitor.id pd.monitor.canaryRunKey
  else s.inflight

def windowsOf (pd : PendingDispatch) : List ExpectedRun :=
  s.ledger.runs.rows.filter fun r => some r.key = pd.window

/-- Hand over one dispatch. -/
def publish (p : Publishing) (pd : PendingDispatch) (attempt : PublishAttempt) : System :=
  if !p.passes pd then
    -- a fenced payload is dropped, one whose reserve failed is held
    let held := if p.reserveFailed then p.held ++ [pd] else p.held
    { s with
      inflight := s.release pd attempt.released
      leader := { s.leader with phase := .publishing { p with held := held } } }
  else
    let handed := s.handed ++ [⟨pd, attempt.accepted, s.clock, s.windowsOf pd, false⟩]
    if attempt.accepted then
      let confirms := p.confirms ++ pd.confirm (.issued s.clock)
      { s with
        handed := handed
        leader :=
          { s.leader.published pd with phase := .publishing { p with confirms := confirms } } }
    else
      let confirms := p.confirms ++ pd.confirm (.withheld .publishFailed)
      { s with
        handed := handed
        inflight := s.release pd attempt.released
        leader :=
          { s.leader.notPublished pd p.now with
            phase := .publishing { p with confirms := confirms } } }

/-- The end of `publishPending`: the confirm, and the dispatches held for the next tick. -/
def finish (p : Publishing) (stored : Bool) : System :=
  { s with
    ledger := if stored then s.ledger.confirmExpectations p.confirms else s.ledger
    leader := { s.leader with deferredDispatch := p.held, phase := .idle } }

/-- The ingest of a result frees the canary slot of the run its job carries
(`RecordScheduledResult`), before every gate. -/
def ingest (i : Nat) (h : Handed) : System :=
  { s with
    inflight := s.inflight.releaseCanaryInflight h.dispatch.job.monitor.id
      h.dispatch.job.monitor.canaryRunKey
    handed := s.handed.set i { h with answered := true } }

end System

/-! ## Steps -/

/-- The actions of the leader and of the world. -/
inductive Op
  | refresh
  | confirmSignal (id : MonitorID)
  | tick
  | load (loaded : Bool)
  | decide (e : System.PlainAnswer)
  | materialize (region : Region) (read : Option MaterializeRead)
  | decideCredentialed (e : System.CredentialAnswer)
  | reserve (outcome : ReserveOutcome) (tie : Nat)
  | publish (attempt : PublishAttempt)
  | finish (stored : Bool)
  | stepDown
  | configWrite (w : ConfigWrite)
  | observe (id : MonitorID) (status : MonitorStatus) (failures : Int)
  | report (e : RunEvent)
  | ingest (i : Nat)

namespace System

/-- A result changes the status of a monitor. -/
def observe (s : System) (id : MonitorID) (status : MonitorStatus) (failures : Int) : System :=
  { s with
    ledger := s.ledger.writeMonitors [id]
      (fun m => { m with status := status, consecutiveFailures := failures }) fun _ => rfl }

/-- One action of the leader or of the world around it. -/
def act (cfg : Settings) (s : System) : Op → Option System
  | .refresh =>
    match s.leader.phase with
    | .idle => some { s with leader := s.leader.refresh s.ledger s.clock }
    | _ => none
  | .confirmSignal id =>
    match s.leader.phase, s.leader.monitors.find? fun m => m.id = id with
    | .idle, some m =>
      if m.confirmConfigured then some { s with leader := s.leader.enterConfirm s.clock m }
      else some s
    | .idle, none => some s
    | _, _ => none
  | .tick =>
    match s.leader.phase with
    | .idle => some (s.inPhase (.loading s.clock))
    | _ => none
  | .load loaded =>
    match s.leader.phase with
    | .loading now =>
      let due := (s.leader.monitors.filter (dueForDispatch s.leader.nextRun now)).map Monitor.id
      let expectations := if loaded then loadDueExpectations s.ledger s.nextJob s.clock due else []
      let held := s.leader.deferredDispatch
      some ({ s with nextJob := s.nextJob + expectations.length }.inPhase <| .deciding
        ⟨now, expectations, s.leader.monitors, [], [], held, held.map PendingDispatch.advance⟩)
    | _ => none
  | .decide e =>
    match s.leader.phase with
    | .deciding t =>
      match t.rest with
      | m :: rest => some (s.decidePlain cfg { t with rest := rest } m e)
      | [] => none
    | _ => none
  | .materialize region read =>
    match s.leader.phase with
    | .deciding t =>
      if t.rest = [] ∧ t.items.isEmpty then some (s.materialize t region read) else none
    | _ => none
  | .decideCredentialed e =>
    match s.leader.phase with
    | .deciding t =>
      match t.items with
      | item :: items => some (s.decideCredentialed { t with items := items } item e)
      | [] => none
    | _ => none
  | .reserve outcome tie =>
    match s.leader.phase with
    | .deciding t =>
      if t.rest = [] ∧ t.nominated = [] ∧ t.items.isEmpty then some (s.reserve cfg t outcome tie)
      else none
    | _ => none
  | .publish attempt =>
    match s.leader.phase with
    | .publishing p =>
      match p.pending with
      | pd :: rest => some (s.publish { p with pending := rest } pd attempt)
      | [] => none
    | _ => none
  | .finish stored =>
    match s.leader.phase with
    | .publishing p => if p.pending = [] then some (s.finish p stored) else none
    | _ => none
  | .stepDown => some { s with leader := .fresh }
  | .configWrite w =>
    (s.ledger.configWrite cfg.policy s.clock w).map fun ledger => { s with ledger := ledger }
  | .observe id status failures => some (s.observe id status failures)
  | .report e => some { s with ledger := s.ledger.event e }
  | .ingest i =>
    match s.handed[i]? with
    | some h => some (s.ingest i h)
    | none => none

/-- An operation with the instant it happens at; the clock never runs backwards. -/
def step (cfg : Settings) (s : System) : Int × Op → Option System
  | (at', op) => if at' < s.clock then none else act cfg { s with clock := at' } op

end System

end Cerbix.Scheduler
