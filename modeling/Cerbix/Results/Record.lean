import Cerbix.Ledger.Events
import Cerbix.Scheduler.Canary

/-!
# Recording results

The transactions that record what probes found (`internal/store/monitors.go`): the result of a
scheduled probe, the ping of a push monitor, and the dead-man's DOWN of a silent one. Each locks its
monitor's row first, so those of one monitor, whose tables these are, run one after the other. The
clock of a statement and whether a maintenance window is open are inputs.

A success is up, and the failure that makes the count of consecutive failures reach the threshold is
down. `flips` are the changes of the status along a sequence of observations, `numbered` the events
that announce them: `recordCheckStatus` announces exactly its flip (`recordCheckStatus_eq`).
-/

namespace Cerbix.Results

open Cerbix.Lib Cerbix.Domain List Cerbix.Ledger Cerbix.Scheduler

/-- A stored result. -/
structure Heartbeat where
  ts : Int
  up : Bool
  latencyMS : Int
  code : Int
  msg : String
  observedAt : Option Int
  deriving DecidableEq, Repr

/-- A change of status, numbered per monitor. -/
structure MonitorTransition where
  monitorID : MonitorID
  prev : MonitorStatus
  cur : MonitorStatus
  seq : Int
  deriving DecidableEq, Repr

/-- A monitor with what its results left in its row. -/
structure LiveRow where
  monitor : Monitor
  lastResultTs : Option Int
  stateSequence : Int
  pushArmedAt : Option Int
  createdAt : Int
  lastProbeErrorAt : Option Int
  deriving DecidableEq, Repr

/-- The row of a monitor and its stored results. -/
structure ResultTables where
  row : LiveRow
  heartbeats : Table Heartbeat.ts
  outbox : List MonitorTransition
  slots : CanaryInflight

/-- What became of a result. -/
structure ResultOutcome where
  applied : Bool := false
  inserted : Bool := false
  transition : Option (MonitorStatus × MonitorStatus) := none
  suppressed : Bool := false
  reason : Option ResultReason := none
  missingRevisionObserved : Bool := false
  deriving DecidableEq, Repr

namespace ResultTables

/-- `recordCheckStatusTx`: a success is believed at once, a failure after the threshold; a flip is
numbered and enqueued. -/
def recordCheckStatus (t : ResultTables) (up : Bool) : ResultTables :=
  let m := t.row.monitor
  let failures := if up then 0 else m.consecutiveFailures + 1
  let status :=
    if up then .up
    else if m.consecutiveFailures + 1 ≥ m.failureThreshold then .down
    else m.status
  let row := { t.row with monitor := { m with consecutiveFailures := failures, status := status } }
  if m.status = status then { t with row := row }
  else
    let seq := row.stateSequence + 1
    { t with
      row := { row with stateSequence := seq }
      outbox := t.outbox ++ [⟨m.id, m.status, status, seq⟩] }

def observedResult (t : ResultTables) (ts clearedUntil : Int) : ResultTables :=
  { t with
    row := { t.row with
      lastResultTs := some ts
      lastProbeErrorAt := t.row.lastProbeErrorAt.filter fun at' => clearedUntil < at' } }

def appliedOutcome (before after : ResultTables) (inMaintenance : Bool) : ResultOutcome where
  applied := true
  inserted := true
  transition := some (before.row.monitor.status, after.row.monitor.status)
  suppressed := inMaintenance

end ResultTables

/-! ## Scheduled results -/

/-- Whether a result of another revision is refused. -/
inductive RevisionMode
  | enforce | observe
  deriving DecidableEq, Repr

/-- What the server takes and for how long it keeps it. -/
structure ResultSettings where
  revisionMode : RevisionMode
  allowedSkew : Int
  retention : Int
  policy : ExpectedRunPolicy

def ResultSettings.skew (cfg : ResultSettings) : Int :=
  if cfg.allowedSkew ≤ 0 then seconds 300 else cfg.allowedSkew

/-- A probe's result on the wire; what an executor does not carry is `none`, the revision 0. -/
structure ScheduledResult where
  ts : Option Int
  up : Bool
  latencyMS : Int
  code : Int
  msg : String
  executionRevision : Int
  jobID : Option JobID
  jobIssuedAt : Option Int
  dueAt : Option Int
  canaryRunKey : Option Int
  deriving DecidableEq, Repr

variable (hb : ScheduledResult)

namespace ScheduledResult

def heartbeat (ts : Int) : Heartbeat :=
  ⟨ts, hb.up, hb.latencyMS, hb.code, hb.msg, some ts⟩

/-- The window that a result answers. -/
structure ExpectedRunRef where
  dueAt : Int
  jobID : JobID
  issuedAt : Int
  deriving DecidableEq, Repr

/-- A result that names its job, its window and when it was issued. -/
def correlateExpectedRun (policy : ExpectedRunPolicy) (dbNow : Int) : Option ExpectedRunRef :=
  match hb.jobID, hb.dueAt, hb.jobIssuedAt with
  | some jobID, some dueAt, some issuedAt =>
    if dueAt < policy.retentionCutoff dbNow then none else some ⟨dueAt, jobID, issuedAt⟩
  | _, _, _ => none

/-- The monitor does not take the result as it is now. -/
def stateRefusal (mode : RevisionMode) (m : Monitor) : Option ResultReason :=
  if !m.enabled then some .skippedCurrentState
  else if hb.executionRevision = 0 then
    if mode = .observe then none else some .missingRevision
  else if hb.executionRevision ≠ m.executionRevision then some .staleRevision
  else none

/-- The result is too new or too old. -/
def timestampRefusal (cfg : ResultSettings) (ts dbNow : Int) : Option ResultReason :=
  if dbNow + cfg.skew < ts then some .futureTimestamp
  else if 0 < cfg.retention ∧ ts < dbNow - cfg.retention then some .outsideRetention
  else if hb.jobIssuedAt.any fun issuedAt => ts < issuedAt ∧ ts < issuedAt - cfg.skew then
    some .observedBeforeIssue
  else none

end ScheduledResult

/-- What the transaction leaves. -/
structure Recorded where
  tables : ResultTables
  outcome : ResultOutcome
  ledger : Option RunEvent

namespace ResultTables

/-- `RecordScheduledResult`. -/
def recordScheduledResult (cfg : ResultSettings) (t : ResultTables) (hb : ScheduledResult)
    (dbNow : Int) (inMaintenance : Bool) : Recorded :=
  match hb.ts with
  | none => ⟨t, { reason := some .missingTimestamp }, none⟩
  | some ts =>
    let m := t.row.monitor
    let t := { t with slots := t.slots.releaseCanaryInflight m.id hb.canaryRunKey }
    let ref := hb.correlateExpectedRun cfg.policy dbNow
    -- a refused result annotates its own window
    let refuse (reason : ResultReason) (missing : Bool) : Recorded :=
      ⟨t, { reason := some reason, missingRevisionObserved := missing },
        ref.map fun w => .refusal m.id w.dueAt w.jobID hb.executionRevision dbNow reason⟩
    match hb.stateRefusal cfg.revisionMode m with
    | some reason => refuse reason false
    | none =>
      let missing : Bool := hb.executionRevision = 0
      match hb.timestampRefusal cfg ts dbNow with
      | some reason => refuse reason missing
      | none =>
        let event := ref.map fun w =>
          .terminal ⟨m.id, w.dueAt, w.jobID, hb.executionRevision, dbNow, w.issuedAt, .result⟩
        if (t.heartbeats.get ts).isSome then
          ⟨t, { reason := some .duplicate, missingRevisionObserved := missing }, event⟩
        else
          let t := { t with heartbeats := t.heartbeats.insertNew (hb.heartbeat ts) }
          if t.row.lastResultTs.any fun last => ts ≤ last then
            -- kept as a sample, and the live state stays
            ⟨t,
              { inserted := true, reason := some .outOfOrder, missingRevisionObserved := missing },
              event⟩
          else
            let after := (t.recordCheckStatus hb.up).observedResult ts dbNow
            ⟨after, { appliedOutcome t after inMaintenance with
              missingRevisionObserved := missing },
              event⟩

end ResultTables

/-- A push, as it arrives. -/
structure Ping where
  up : Bool
  msg : String
  receivedAt : Int
  observedAt : Option Int
  deriving DecidableEq, Repr

namespace ResultTables

variable (t : ResultTables)

/-- `RecordPushResult`. The clock of the client never refuses a ping. -/
def recordPushResult (p : Ping) (inMaintenance : Bool) : ResultTables × ResultOutcome :=
  if t.row.monitor.type ≠ .push ∨ !t.row.monitor.enabled then (t, {})
  else
    let inserted := { t with
      heartbeats := t.heartbeats.insertNew ⟨p.receivedAt, p.up, 0, 0, p.msg, p.observedAt⟩ }
    let after := (inserted.recordCheckStatus p.up).observedResult p.receivedAt p.receivedAt
    (after, appliedOutcome t after inMaintenance)

/-- What a push monitor is measured from: the later of its last observation and the start of its
liveness epoch, or its creation. -/
def freshness : Int :=
  match t.row.pushArmedAt, t.row.lastResultTs with
  | some armed, some last => max armed last
  | some armed, none => armed
  | none, some last => last
  | none, none => t.row.createdAt

/-- A push monitor that was not heard of since the cutoff. -/
def deadmanStale (revision cutoff : Int) : Bool :=
  t.row.monitor.type = .push && t.row.monitor.enabled &&
    t.row.monitor.executionRevision = revision && t.freshness < cutoff

/-- `RecordDeadmanResult` at a statement's instant. The watermark of real observations stays. -/
def recordDeadmanResult (revision cutoff at' : Int) (inMaintenance : Bool) :
    ResultTables × ResultOutcome :=
  if !t.deadmanStale revision cutoff then (t, {})
  else
    let inserted := { t with
      heartbeats := t.heartbeats.insertNew
        ⟨at', false, 0, 0, "push timeout: no heartbeat within interval", none⟩ }
    let after := inserted.recordCheckStatus false
    (after, appliedOutcome t after inMaintenance)

end ResultTables

/-- The status of a monitor and its failures in a row. -/
structure Standing where
  status : MonitorStatus
  failures : Int
  deriving DecidableEq, Repr

namespace Standing

/-- One result; the monitor is down once the failures reach the threshold. -/
def observe (threshold : Int) (s : Standing) (up : Bool) : Standing :=
  if up then ⟨.up, 0⟩
  else ⟨if threshold ≤ s.failures + 1 then .down else s.status, s.failures + 1⟩

def after (threshold : Int) (s : Standing) (ups : List Bool) : Standing :=
  ups.foldl (observe threshold) s

def flip (s s' : Standing) : List (MonitorStatus × MonitorStatus) :=
  if s.status = s'.status then [] else [(s.status, s'.status)]

/-- The changes of status along a list of results. -/
def flips (threshold : Int) (s : Standing) (ups : List Bool) :
    List (MonitorStatus × MonitorStatus) :=
  (List.range ups.length).flatMap fun i =>
    flip (s.after threshold (ups.take i)) (s.after threshold (ups.take (i + 1)))

variable (threshold : Int) (s : Standing)

@[simp] theorem after_nil : s.after threshold [] = s := rfl

@[simp] theorem after_concat (ups : List Bool) (up : Bool) :
    s.after threshold (ups ++ [up]) = (s.after threshold ups).observe threshold up := by
  rw [after, foldl_append]
  rfl

@[simp] theorem flips_nil : s.flips threshold [] = [] := rfl

theorem flips_concat (ups : List Bool) (up : Bool) :
    s.flips threshold (ups ++ [up]) = s.flips threshold ups ++
      flip (s.after threshold ups) ((s.after threshold ups).observe threshold up) := by
  have hold : (List.range ups.length).flatMap (fun i =>
      flip (s.after threshold ((ups ++ [up]).take i))
        (s.after threshold ((ups ++ [up]).take (i + 1))))
      = s.flips threshold ups := by
    refine flatMap_congr fun i hi => ?_
    have hlt := mem_range.1 hi
    rw [take_append_of_le_length (Nat.le_of_lt hlt), take_append_of_le_length hlt]
  rw [flips, length_append, length_singleton, range_succ, flatMap_append, hold,
    flatMap_singleton, take_left, take_of_length_le (by simp), after_concat]

end Standing

/-- The transitions that the changes are recorded as. -/
def numbered (id : MonitorID) (seq : Int) (changes : List (MonitorStatus × MonitorStatus)) :
    List MonitorTransition :=
  changes.zipIdx.map fun ((prev, cur), i) => ⟨id, prev, cur, seq + 1 + i⟩

theorem numbered_append (id : MonitorID) (seq : Int)
    (changes more : List (MonitorStatus × MonitorStatus)) : numbered id seq (changes ++ more) =
      numbered id seq changes ++ numbered id (seq + changes.length) more := by
  unfold numbered
  rw [zipIdx_append, map_append]
  congr 1
  rw [zipIdx_eq_map_add, map_map]
  refine map_congr_left fun ⟨⟨prev, cur⟩, i⟩ _ => ?_
  simp only [Function.comp_apply, MonitorTransition.mk.injEq, true_and]
  omega

def LiveRow.standing (r : LiveRow) : Standing := ⟨r.monitor.status, r.monitor.consecutiveFailures⟩

def withStanding (m : Monitor) (s : Standing) : Monitor :=
  { m with status := s.status, consecutiveFailures := s.failures }

variable (t : ResultTables) (up : Bool)

def LiveRow.observed (r : LiveRow) (up : Bool) : Standing :=
  r.standing.observe r.monitor.failureThreshold up

theorem recordCheckStatus_eq : t.recordCheckStatus up =
      let changes := t.row.standing.flip (t.row.observed up)
      { t with
        row := { t.row with
          monitor := withStanding t.row.monitor (t.row.observed up)
          stateSequence := t.row.stateSequence + changes.length }
        outbox := t.outbox ++ numbered t.row.monitor.id t.row.stateSequence changes } := by
  let next := t.row.observed up
  -- the columns the statement writes are those of the machine
  have hrec : t.recordCheckStatus up =
      let row := { t.row with monitor := withStanding t.row.monitor next }
      if t.row.monitor.status = next.status then { t with row := row }
      else { t with
        row := { row with stateSequence := row.stateSequence + 1 }
        outbox := t.outbox ++
          [⟨t.row.monitor.id, t.row.monitor.status, next.status, row.stateSequence + 1⟩] } := by
    cases up <;> rfl
  rw [hrec]
  split
  · next hsame =>
    have hflip : t.row.standing.flip next = [] := if_pos hsame
    rw [hflip]
    simp [numbered, next]
  · next hne =>
    have hflip : t.row.standing.flip next = [(t.row.monitor.status, next.status)] := if_neg hne
    rw [hflip]
    simp [numbered, next]

end Cerbix.Results
