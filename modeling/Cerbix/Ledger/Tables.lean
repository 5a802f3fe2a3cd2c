import Cerbix.Lib.Grid
import Cerbix.Lib.Table
import Cerbix.Domain.Monitor

/-!
# The expected-run ledger

The tables `monitor_schedule` and `expected_runs` and the statements that move an expectation:
`reserveExpectations` (`internal/store/expectedruns.go`), the configuration writes with
`syncMonitorSchedule` (`monitorschedule.go`) and the retention purge (`expectedrunretention.go`).
Both movers materialize the windows they pass by `gapWindows`, and fence what they cut off by
`fence`.
-/

namespace Cerbix.Ledger

open Cerbix.Lib Cerbix.Domain List Table

def minExpectedRunRetentionDays : Int := 2
def maxExpectedRunRetentionDays : Int := 90
def defaultExpectedRunRetentionDays : Int := 14

def minExpectedRunGapWindowsMax : Nat := 100
def maxExpectedRunGapWindowsMax : Nat := 100000
def defaultExpectedRunGapWindowsMax : Nat := 10000

/-- How long windows are kept, and how many missed ones are written at once. -/
structure ExpectedRunPolicy where
  retentionDays : Int
  gapWindowsMax : Nat
  retention_ge : minExpectedRunRetentionDays ≤ retentionDays
  cap_ge : minExpectedRunGapWindowsMax ≤ gapWindowsMax

def withExpectedRunPolicy (retentionDays : Int) (gapWindowsMax : Nat) : ExpectedRunPolicy where
  retentionDays :=
    if minExpectedRunRetentionDays ≤ retentionDays ∧ retentionDays ≤ maxExpectedRunRetentionDays
    then retentionDays else defaultExpectedRunRetentionDays
  gapWindowsMax :=
    if minExpectedRunGapWindowsMax ≤ gapWindowsMax ∧ gapWindowsMax ≤ maxExpectedRunGapWindowsMax
    then gapWindowsMax else defaultExpectedRunGapWindowsMax
  retention_ge := by
    split
    · next h => exact h.1
    · decide
  cap_ge := by
    split
    · next h => exact h.1
    · decide

namespace ExpectedRunPolicy

variable (p : ExpectedRunPolicy) {now : Int}

/-- How far back the ledger reaches: midnight-aligned, as the purge is. -/
def retentionCutoff (now : Int) : Int := now - now % days 1 - days p.retentionDays

/-- No missed window before it is written. -/
def rollingFloor (now : Int) : Int := now - days p.retentionDays

theorem cap_pos : 0 < p.gapWindowsMax := by
  have := p.cap_ge
  unfold minExpectedRunGapWindowsMax at this
  omega

theorem retentionCutoff_le_rollingFloor : p.retentionCutoff now ≤ p.rollingFloor now := by
  have : 0 ≤ now % days 1 := Int.emod_nonneg _ (by decide)
  unfold retentionCutoff rollingFloor
  omega

theorem rollingFloor_le : p.rollingFloor now ≤ now - days 2 := by
  have := p.retention_ge
  unfold rollingFloor days seconds
  unfold minExpectedRunRetentionDays at this
  omega

theorem retentionCutoff_mono {now' : Int} (h : now ≤ now') :
    p.retentionCutoff now ≤ p.retentionCutoff now' := by
  have hday : 0 < days 1 := by decide
  have : now - now % days 1 ≤ now' - now' % days 1 := by
    rw [show now - now % days 1 = days 1 * (now / days 1) by
        have := Int.mul_ediv_add_emod now (days 1); omega,
      show now' - now' % days 1 = days 1 * (now' / days 1) by
        have := Int.mul_ediv_add_emod now' (days 1); omega]
    exact Int.mul_le_mul_of_nonneg_left (Int.ediv_le_ediv hday h) hday.le
  unfold retentionCutoff
  omega

end ExpectedRunPolicy

/-! ## Rows -/

/-- A row of `monitor_schedule`: the standing expectation of a participating monitor. -/
structure ScheduleRow where
  monitorID : MonitorID
  nextDueAt : Int
  intervalInForce : Int
  confirmPhase : Bool
  executionRevision : Int
  scheduleCreatedAt : Int
  /-- Windows strictly before this were not materialized. -/
  gapTruncatedBefore : Option Int
  interval_pos : 0 < intervalInForce
  deriving DecidableEq

/-- One monitor's forward move, as the scheduler submits it; `none` is the source's zero value. -/
structure ExpectationAdvance where
  monitorID : Option MonitorID
  jobID : Option JobID
  skipReason : Option SkipReason
  confirming : Bool
  nextDue : Option Int
  intervalInForce : Int
  carrierGeneration : Int
  expectedDue : Option Int
  expectedRevision : Int
  reservedAt : Option Int
  region : Option Region
  deriving DecidableEq, Repr

/-- Run the window, or skip it. -/
inductive Action
  | run (job : JobID) (carrier : Int) (reservedAt : Int)
  | skip (reason : SkipReason)
  deriving DecidableEq, Repr

def Action.jobID : Action → Option JobID
  | .run job _ _ => some job
  | .skip _ => none

/-- A schedule advance that passed its validation. -/
structure Advance where
  monitorID : MonitorID
  action : Action
  confirming : Bool
  nextDue : Int
  interval : Int
  expectedDue : Int
  expectedRevision : Int
  region : Region
  interval_pos : 0 < interval
  deriving DecidableEq

/-- What is wrong with an advance. -/
inductive AdvanceError
  | noMonitor | jobAndSkip | carrierWithoutJob | nonPositiveInterval | missingInstant
  | noExpectedRevision | noRegion | noMintedInstant
  deriving DecidableEq, Repr

/-- The texts of `ExpectationAdvance.Validate`, which name the monitor where there is one. -/
def AdvanceError.text (monitor : String) : AdvanceError → String
  | .noMonitor => "store: expectation advance without a monitor"
  | .jobAndSkip => "store: expectation advance for " ++ monitor ++
      " must carry exactly one of job_id and skip_reason"
  | .carrierWithoutJob => "store: expectation advance for " ++ monitor ++
      " must carry a carrier generation exactly when it carries a job"
  | .nonPositiveInterval => "store: expectation advance for " ++ monitor ++
      " has a non-positive interval"
  | .missingInstant => "store: expectation advance for " ++ monitor ++ " is missing an instant"
  | .noExpectedRevision => "store: expectation advance for " ++ monitor ++
      " has no expected revision"
  | .noRegion => "store: expectation advance for " ++ monitor ++ " has no region"
  | .noMintedInstant => "store: expectation advance for " ++ monitor ++
      " carries a job with no minted instant"

/-- `Validate`, which hands on the advance in the form the statement takes. -/
def ExpectationAdvance.validate (a : ExpectationAdvance) : Except AdvanceError Advance :=
  match a.monitorID with
  | none => .error .noMonitor
  | some monitor =>
  if a.jobID.isNone = a.skipReason.isNone then .error .jobAndSkip
  else if a.jobID.isSome ≠ decide (a.carrierGeneration > 0) then .error .carrierWithoutJob
  else if hi : a.intervalInForce ≤ 0 then .error .nonPositiveInterval
  else match a.nextDue, a.expectedDue with
  | some nextDue, some expectedDue =>
    if a.expectedRevision < 1 then .error .noExpectedRevision
    else match a.region with
    | none => .error .noRegion
    | some region =>
      let advance (action : Action) : Advance :=
        ⟨monitor, action, a.confirming, nextDue, a.intervalInForce, expectedDue,
          a.expectedRevision, region, Int.not_le.1 hi⟩
      match a.jobID, a.skipReason, a.reservedAt with
      | some job, _, some reservedAt => .ok (advance (.run job a.carrierGeneration reservedAt))
      | some _, _, none => .error .noMintedInstant
      | none, some reason, _ => .ok (advance (.skip reason))
      | none, none, _ => .error .jobAndSkip
  | _, _ => .error .missingInstant

theorem ExpectationAdvance.validate_eq_ok {a : ExpectationAdvance} {v : Advance}
    (h : a.validate = .ok v) : a.monitorID = some v.monitorID ∧ a.expectedDue = some v.expectedDue ∧
      a.intervalInForce = v.interval ∧ a.jobID = v.action.jobID ∧
      ∀ job carrier reservedAt, v.action = .run job carrier reservedAt →
        a.reservedAt = some reservedAt := by
  unfold validate at h
  split at h
  · cases h
  rename_i hm
  split at h
  · cases h
  split at h
  · cases h
  split at h
  · cases h
  split at h
  · next hn hd =>
    split at h
    · cases h
    split at h
    · cases h
    split at h
    · next hj hr =>
      cases h
      refine ⟨hm, hd, rfl, hj, ?_⟩
      rintro _ _ _ ⟨⟩
      exact hr
    · cases h
    · next hj _ =>
      cases h
      refine ⟨hm, hd, rfl, hj, ?_⟩
      rintro _ _ _ ⟨⟩
    · cases h
  · cases h

/-- The monitors, their schedules and the windows. -/
structure LedgerTables where
  monitors : Table Monitor.id
  schedule : Table ScheduleRow.monitorID
  runs : Table ExpectedRun.key

/-- `GREATEST`, which ignores NULL. -/
def greatest : Option Int → Option Int → Option Int
  | none, b => b
  | a, none => a
  | some a, some b => some (max a b)

namespace ScheduleRow

variable (s : ScheduleRow)

/-- The due instant after the next one. -/
def firstExpected : Int := s.nextDueAt + seconds s.intervalInForce

/-- `expectedRunGapCTESQL`: the windows after the standing one and before `upper`, clipped at
`floor`, and of these the newest `cap`, numbered over all copies of a monitor in the batch. -/
def gapWindows (copies : Nat) (upper floor : Int) (cap : Nat) : List Int :=
  newest copies cap <| instants s.firstExpected (seconds s.intervalInForce)
    (max floor (upper - seconds (s.intervalInForce * cap))) upper

/-- The oldest window that is written, if the gap began before it. -/
def fence (windows : List Int) : Option Int :=
  windows.min?.filter fun d => s.firstExpected < d

/-- The rows of the missed windows, attributed to the configuration in force while nothing ran. -/
def missed (region : Region) (windows : List Int) : List ExpectedRun :=
  windows.map fun d => .blank s.monitorID d s.executionRevision region s.intervalInForce

end ScheduleRow

/-! ## The reserve -/

/-- A schedule row joined with its monitor and the advances that match its fence, of which there is
at least one. -/
structure Picked where
  monitor : Monitor
  first : Advance
  rest : List Advance

def Picked.advances (p : Picked) : List Advance := p.first :: p.rest

/-- A window that a reserve wrote. -/
structure ExpectationReservation where
  monitorID : MonitorID
  dueAt : Int
  deriving DecidableEq, Repr

variable (policy : ExpectedRunPolicy)

namespace LedgerTables

variable (l : LedgerTables) (items : List Advance)

/-- `picked`: the advances for a schedule row whose expected instant and revision still stand. -/
def picked (s : ScheduleRow) : Option Picked :=
  match l.monitors.get s.monitorID with
  | none => none
  | some m =>
    match items.filter fun v => v.monitorID = s.monitorID ∧ s.nextDueAt = v.expectedDue ∧
        m.executionRevision = v.expectedRevision with
    | [] => none
    | v :: vs => some ⟨m, v, vs⟩

/-- `current_window`: the row of the window an advance answers, its own facts from the schedule,
those of the run from the advance. -/
def currentWindow (s : ScheduleRow) (v : Advance) : ExpectedRun :=
  let window := ExpectedRun.blank s.monitorID s.nextDueAt v.expectedRevision v.region
    s.intervalInForce
  match v.action with
  | .run job carrier reservedAt =>
    { window with jobID := some job, carrierGeneration := carrier, reservedAt := some reservedAt }
  | .skip reason => { window with skipReason := some reason }

/-- The windows an advance passes, with the retention floor and cap of the store. -/
def reserveGap (now : Int) (s : ScheduleRow) (p : Picked) : List Int :=
  s.gapWindows p.advances.length now (policy.retentionCutoff now) policy.gapWindowsMax

/-- The advanced row. Of several joined rows the statement uses one that is not specified: `tie`
names it. -/
def advanced (now : Int) (tie : Nat) (s : ScheduleRow) (p : Picked) : ScheduleRow :=
  let v := p.rest[tie]?.getD p.first
  { s with
    nextDueAt := v.nextDue
    intervalInForce := v.interval
    confirmPhase := v.confirming
    gapTruncatedBefore :=
      greatest s.gapTruncatedBefore (s.fence (reserveGap policy now s p))
    interval_pos := v.interval_pos }

/-- The windows that the picked advances reserve. -/
def currentWindows : List ExpectedRun :=
  l.schedule.rows.flatMap fun s =>
    match l.picked items s with
    | none => []
    | some p => p.advances.map (currentWindow s)

/-- The windows that passed since the last advance. -/
def missedWindows (policy : ExpectedRunPolicy) (now : Int) (items : List Advance) :
    List ExpectedRun :=
  l.schedule.rows.flatMap fun s =>
    match l.picked items s with
    | none => []
    | some p => s.missed p.monitor.region (reserveGap policy now s p)

/-- `reserveExpectationsSQL`: write the window each advance answers, the windows it skips past and
the fence, and move the schedule. -/
def reserve (policy : ExpectedRunPolicy) (now : Int) (tie : Nat) (items : List Advance) :
    LedgerTables where
  monitors := l.monitors
  schedule := l.schedule.update (fun _ => true)
    (fun s => match l.picked items s with
      | none => s
      | some p => advanced policy now tie s p)
    (fun s => by split <;> rfl)
  runs := (l.runs.insertAll (l.currentWindows items)).insertAll (l.missedWindows policy now items)

/-- The windows that a reserve adds. -/
def reserved : List ExpectationReservation :=
  (l.runs.inserted (l.currentWindows items)).map fun r => ⟨r.monitorID, r.dueAt⟩

end LedgerTables

def validAdvances (items : List ExpectationAdvance) : List Advance :=
  items.filterMap fun a => a.validate.toOption

/-- An advance that was refused. -/
structure ExpectationRejection where
  monitorID : Option MonitorID
  reason : AdvanceError
  deriving DecidableEq, Repr

/-- The advances that fail validation, with what is wrong. -/
def rejectedAdvances (items : List ExpectationAdvance) : List ExpectationRejection :=
  items.filterMap fun a =>
    match a.validate with
    | .error e => some ⟨a.monitorID, e⟩
    | .ok _ => none

/-- `ReserveExpectations`, when its statement commits and its rows are read. -/
def LedgerTables.reserveExpectations (l : LedgerTables) (policy : ExpectedRunPolicy) (now : Int)
    (tie : Nat) (items : List ExpectationAdvance) :
    LedgerTables × List ExpectationReservation × List ExpectationRejection :=
  (l.reserve policy now tie (validAdvances items), l.reserved (validAdvances items),
    rejectedAdvances items)

/-! ## The configuration boundary -/

namespace LedgerTables

variable (l : LedgerTables)

/-- The windows that a close of a segment still writes. -/
def closeGap (now : Int) (s : ScheduleRow) : List Int :=
  s.gapWindows 1 now (policy.rollingFloor now) policy.gapWindowsMax

/-- The row after its segment was closed: neither the standing instant nor the interval that
produced it is touched. -/
def closed (now : Int) (m : Monitor) (s : ScheduleRow) : ScheduleRow :=
  { s with
    confirmPhase := s.confirmPhase && m.confirmIntervalSeconds > 0 && m.failureThreshold > 1
    executionRevision := m.executionRevision
    gapTruncatedBefore := greatest s.gapTruncatedBefore (s.fence (closeGap policy now s)) }

variable (ids : List MonitorID)

/-- The monitor of a schedule that is being closed. -/
def closing (s : ScheduleRow) : Option Monitor :=
  if s.monitorID ∈ ids then l.monitors.get s.monitorID else none

/-- Write the missed windows and start the schedules of the monitors anew. -/
def closeScheduleSegment (policy : ExpectedRunPolicy) (now : Int) (ids : List MonitorID) :
    LedgerTables where
  monitors := l.monitors
  schedule := l.schedule.update (fun _ => true)
    (fun s => match l.closing ids s with
      | none => s
      | some m => closed policy now m s)
    (fun s => by split <;> rfl)
  runs := l.runs.insertAll <| l.schedule.rows.flatMap fun s =>
    match l.closing ids s with
    | none => []
    | some m => s.missed m.region (closeGap policy now s)

/-- The schedule of a monitor that does not take part any more. -/
def dropped (s : ScheduleRow) : Bool :=
  match l.closing ids s with
  | none => false
  | some m => !m.participant

def deleteSchedules : LedgerTables :=
  { l with schedule := l.schedule.delete (l.dropped ids) }

/-- A monitor that newly participates starts expecting from now. -/
def ensureSchedules (now : Int) (ids : List MonitorID) : LedgerTables :=
  { l with
    schedule := l.schedule.insertAll <| l.monitors.rows.filterMap fun m =>
      if h : m.id ∈ ids ∧ m.participant ∧ 0 < m.intervalSeconds then
        some ⟨m.id, now, m.intervalSeconds, false, m.executionRevision, now, none, h.2.2⟩
      else none }

/-- `syncMonitorScheduleTx`: close the open segments, drop the expectations of monitors that stopped
participating, create those of new ones. -/
def syncMonitorSchedule (policy : ExpectedRunPolicy) (now : Int) (ids : List MonitorID) :
    LedgerTables :=
  ((l.closeScheduleSegment policy now ids).deleteSchedules ids).ensureSchedules now ids

def writeMonitors (f : Monitor → Monitor) (hf : ∀ m, (f m).id = m.id) : LedgerTables :=
  { l with monitors := l.monitors.update (fun m => m.id ∈ ids) f hf }

end LedgerTables

/-- The part of a monitor that a write can change. -/
structure MonitorConfig where
  enabled : Bool
  region : Region
  intervalSeconds : Int
  timeoutSeconds : Int
  confirmIntervalSeconds : Int
  graceSeconds : Int
  failureThreshold : Int
  requiresExecutionEnvelope : Bool
  deriving DecidableEq, Repr

/-- `UpdateMonitor`'s row: the generation is bumped, and enabling starts a new liveness epoch. -/
def configure (c : MonitorConfig) (m : Monitor) : Monitor :=
  { m with
    enabled := c.enabled
    region := c.region
    intervalSeconds := c.intervalSeconds
    timeoutSeconds := c.timeoutSeconds
    confirmIntervalSeconds := c.confirmIntervalSeconds
    graceSeconds := c.graceSeconds
    failureThreshold := c.failureThreshold
    requiresExecutionEnvelope := c.requiresExecutionEnvelope
    executionRevision := m.executionRevision + 1
    status := if !m.enabled && c.enabled then .pending else m.status
    consecutiveFailures := if !m.enabled && c.enabled then 0 else m.consecutiveFailures }

def setRetired (retired : Bool) (m : Monitor) : Monitor :=
  { m with
    retired := retired
    enabled := !retired
    status := .pending
    consecutiveFailures := 0
    executionRevision := m.executionRevision + 1 }

/-- The rotation fence bumps the generation and nothing else. -/
def bumpRevision (m : Monitor) : Monitor :=
  { m with executionRevision := m.executionRevision + 1 }

def newMonitor (id : MonitorID) (type : MonitorType) (c : MonitorConfig) : Monitor where
  id := id
  type := type
  enabled := c.enabled
  retired := false
  region := c.region
  intervalSeconds := c.intervalSeconds
  timeoutSeconds := c.timeoutSeconds
  confirmIntervalSeconds := c.confirmIntervalSeconds
  graceSeconds := c.graceSeconds
  failureThreshold := c.failureThreshold
  requiresExecutionEnvelope := c.requiresExecutionEnvelope
  executionRevision := 1
  status := .pending
  consecutiveFailures := 0
  canaryRunKey := none

/-- The writes of a monitor. -/
inductive ConfigWrite
  | create (id : MonitorID) (type : MonitorType) (config : MonitorConfig)
  | update (id : MonitorID) (config : MonitorConfig)
  | retire (id : MonitorID)
  | restore (id : MonitorID)
  | rotate (ids : List MonitorID)
  deriving DecidableEq, Repr

namespace LedgerTables

variable (l : LedgerTables) (policy : ExpectedRunPolicy) (now : Int)

/-- The new generation's rows of `monitors`, with the monitors it is for; `none` when the write is
refused. -/
def writeGeneration : ConfigWrite → Option (LedgerTables × List MonitorID)
  | .create id type config =>
    match l.monitors.get id with
    | some _ => none
    | none => some ({ l with monitors := l.monitors.insertNew (newMonitor id type config) }, [id])
  | .update id config =>
    match l.monitors.get id with
    | none => none
    | some _ => some (l.writeMonitors [id] (configure config) fun _ => rfl, [id])
  | .retire id =>
    match l.monitors.get id with
    | none => none
    | some m =>
      if m.retired then none
      else some (l.writeMonitors [id] (setRetired true) fun _ => rfl, [id])
  | .restore id =>
    match l.monitors.get id with
    | none => none
    | some m =>
      if m.retired then some (l.writeMonitors [id] (setRetired false) fun _ => rfl, [id])
      else none
  | .rotate ids => some (l.writeMonitors ids bumpRevision fun _ => rfl, ids)

/-- A configuration write: the rows of `monitors`, and the ledger's half in the same transaction. -/
def configWrite (w : ConfigWrite) : Option LedgerTables :=
  (l.writeGeneration w).map fun (written, ids) => written.syncMonitorSchedule policy now ids

/-- The windows before the cutoff go. -/
def purgeOldExpectedRuns : LedgerTables :=
  { l with runs := l.runs.delete fun r => r.dueAt < policy.retentionCutoff now }

/-! ## What a reserve does -/

section

variable {l policy now} {tie : Nat} {items : List Advance} {s : ScheduleRow} {p : Picked}

theorem picked_congr {items' : List Advance}
    (h : items.filter (·.monitorID = s.monitorID) = items'.filter (·.monitorID = s.monitorID)) :
    l.picked items s = l.picked items' s := by
  have hsplit : ∀ (xs : List Advance) (m : Monitor),
      xs.filter (fun v => v.monitorID = s.monitorID ∧ s.nextDueAt = v.expectedDue ∧
        m.executionRevision = v.expectedRevision) =
      (xs.filter (·.monitorID = s.monitorID)).filter fun v =>
        s.nextDueAt = v.expectedDue ∧ m.executionRevision = v.expectedRevision := by
    intro xs m
    rw [filter_filter]
    exact filter_congr fun v _ => by simp [and_comm]
  unfold picked
  split
  · rfl
  · rw [hsplit items, hsplit items', h]

theorem picked_spec (h : l.picked items s = some p) :
    l.monitors.get s.monitorID = some p.monitor ∧ ∀ v ∈ p.advances, v ∈ items ∧
      v.monitorID = s.monitorID ∧ s.nextDueAt = v.expectedDue ∧
      p.monitor.executionRevision = v.expectedRevision := by
  unfold picked at h
  split at h
  · cases h
  rename_i m hm
  split at h
  · cases h
  rename_i v vs hvs
  cases h
  refine ⟨hm, fun u hu => ?_⟩
  have hmem : u ∈ items.filter fun v => v.monitorID = s.monitorID ∧
      s.nextDueAt = v.expectedDue ∧ m.executionRevision = v.expectedRevision := hvs ▸ hu
  simpa using mem_filter.1 hmem

theorem advances_sublist (h : l.picked items s = some p) : p.advances.Sublist items := by
  unfold picked at h
  split at h
  · cases h
  split at h
  · cases h
  rename_i v vs hvs
  cases h
  rw [Picked.advances, ← hvs]
  exact filter_sublist

theorem get_schedule_reserve (m : MonitorID) :
    (l.reserve policy now tie items).schedule.get m = (l.schedule.get m).map fun s =>
      match l.picked items s with
      | none => s
      | some p => advanced policy now tie s p := by
  simp [reserve, get_update]

@[simp] theorem key_currentWindow (s : ScheduleRow) (v : Advance) :
    (currentWindow s v).key = (s.monitorID, s.nextDueAt) := by
  unfold currentWindow
  cases v.action <;> rfl

variable {r : ExpectedRun}

theorem mem_currentWindows : r ∈ l.currentWindows items ↔
    ∃ s ∈ l.schedule.rows, ∃ p, l.picked items s = some p ∧
      ∃ v ∈ p.advances, r = currentWindow s v := by
  simp only [currentWindows, mem_flatMap]
  constructor
  · rintro ⟨s, hs, hr⟩
    cases hp : l.picked items s with
    | none => simp [hp] at hr
    | some p =>
      rw [hp] at hr
      obtain ⟨v, hv, rfl⟩ := mem_map.1 hr
      exact ⟨s, hs, p, hp, v, hv, rfl⟩
  · rintro ⟨s, hs, p, hp, v, hv, rfl⟩
    refine ⟨s, hs, ?_⟩
    rw [hp]
    exact mem_map_of_mem hv

theorem mem_missedWindows : r ∈ l.missedWindows policy now items ↔
    ∃ s ∈ l.schedule.rows, ∃ p, l.picked items s = some p ∧
      r ∈ s.missed p.monitor.region (reserveGap policy now s p) := by
  simp only [missedWindows, mem_flatMap]
  constructor
  · rintro ⟨s, hs, hr⟩
    cases hp : l.picked items s with
    | none => simp [hp] at hr
    | some p =>
      rw [hp] at hr
      exact ⟨s, hs, p, hp, hr⟩
  · rintro ⟨s, hs, p, hp, hr⟩
    refine ⟨s, hs, ?_⟩
    rw [hp]
    exact hr

theorem runs_reserve_of_some {k : MonitorID × Int}
    (h : l.runs.get k = some r) : (l.reserve policy now tie items).runs.get k = some r :=
  get_insertAll_of_some (get_insertAll_of_some h _) _

theorem reserve_writes_window (hs : s ∈ l.schedule.rows) (hp : l.picked items s = some p) :
    ∃ r, (l.reserve policy now tie items).runs.get (s.monitorID, s.nextDueAt) = some r := by
  have hmem : currentWindow s p.first ∈ l.currentWindows items :=
    mem_currentWindows.2 ⟨s, hs, p, hp, p.first, mem_cons_self, rfl⟩
  obtain ⟨r, hr⟩ := get_insertAll_of_mem hmem l.runs
  rw [key_currentWindow] at hr
  exact ⟨r, get_insertAll_of_some hr _⟩

theorem reserve_writes_gap (hs : s ∈ l.schedule.rows) (hp : l.picked items s = some p) {d : Int}
    (hd : d ∈ reserveGap policy now s p) :
    ∃ r, (l.reserve policy now tie items).runs.get (s.monitorID, d) = some r :=
  get_insertAll_of_mem (mem_missedWindows.2 ⟨s, hs, p, hp, mem_map.2 ⟨d, hd, rfl⟩⟩) _

end

/-! ## What a configuration write does -/

section

variable {l policy now} {ids : List MonitorID} {s : ScheduleRow} {m : Monitor} {w : ConfigWrite}
  {l' : LedgerTables}

theorem writeGeneration_cases (h : l.writeGeneration w = some (l', ids)) :
    (∃ id type c, w = .create id type c ∧ ids = [id] ∧ l.monitors.get id = none ∧
      l' = { l with monitors := l.monitors.insertNew (newMonitor id type c) }) ∨
    ∃ f hf, l' = l.writeMonitors ids f hf ∧ ∀ m, (f m).intervalSeconds = m.intervalSeconds ∨
      ∃ id c, w = .update id c ∧ (f m).intervalSeconds = c.intervalSeconds := by
  cases w with
  | create id type c =>
    simp only [writeGeneration] at h
    split at h
    · cases h
    rename_i hnone
    cases h
    exact .inl ⟨id, type, c, rfl, rfl, hnone, rfl⟩
  | update id c =>
    simp only [writeGeneration] at h
    split at h
    · cases h
    · cases h
      exact .inr ⟨_, _, rfl, fun m => .inr ⟨id, c, rfl, rfl⟩⟩
  | retire id =>
    simp only [writeGeneration] at h
    split at h
    · cases h
    split at h
    · cases h
    · cases h
      exact .inr ⟨_, _, rfl, fun m => .inl rfl⟩
  | restore id =>
    simp only [writeGeneration] at h
    split at h
    · cases h
    split at h
    · cases h
      exact .inr ⟨_, _, rfl, fun m => .inl rfl⟩
    · cases h
  | rotate ids =>
    cases h
    exact .inr ⟨_, _, rfl, fun m => .inl rfl⟩

theorem writeGeneration_ledger
    (h : l.writeGeneration w = some (l', ids)) : l'.schedule = l.schedule ∧ l'.runs = l.runs := by
  rcases writeGeneration_cases h with ⟨_, _, _, _, _, _, rfl⟩ | ⟨_, _, rfl, _⟩ <;> exact ⟨rfl, rfl⟩

/-- A schedule after the close of its segment. -/
def closedRow (l : LedgerTables) (policy : ExpectedRunPolicy) (now : Int) (ids : List MonitorID)
    (s : ScheduleRow) : ScheduleRow :=
  match l.closing ids s with
  | none => s
  | some m => closed policy now m s

theorem closedRow_monitorID : (closedRow l policy now ids s).monitorID = s.monitorID := by
  unfold closedRow
  split <;> rfl

theorem get_schedule_close (id : MonitorID) :
    (l.closeScheduleSegment policy now ids).schedule.get id =
      (l.schedule.get id).map (closedRow l policy now ids) := by
  simp only [closeScheduleSegment, get_update]
  rfl

theorem runs_sync_of_some {k : MonitorID × Int} {r : ExpectedRun} (h : l.runs.get k = some r) :
    (l.syncMonitorSchedule policy now ids).runs.get k = some r :=
  get_insertAll_of_some h _

theorem sync_writes_gap (hs : s ∈ l.schedule.rows) (hm : l.closing ids s = some m) {d : Int}
    (hd : d ∈ closeGap policy now s) :
    ∃ r, (l.syncMonitorSchedule policy now ids).runs.get (s.monitorID, d) = some r := by
  let row : ExpectedRun := .blank s.monitorID d s.executionRevision m.region s.intervalInForce
  have hmem : row ∈ l.schedule.rows.flatMap fun s => match l.closing ids s with
      | none => []
      | some m => s.missed m.region (closeGap policy now s) := by
    refine mem_flatMap.2 ⟨s, hs, ?_⟩
    rw [hm]
    exact mem_map.2 ⟨d, hd, rfl⟩
  exact get_insertAll_of_mem hmem _

variable {id : MonitorID} {row : ScheduleRow}

theorem mem_ensure (h : (l.ensureSchedules now ids).schedule.get id = some row)
    (hnone : l.schedule.get id = none) : ∃ m, l.monitors.get id = some m ∧ id ∈ ids ∧
      m.participant ∧ row.scheduleCreatedAt = now ∧ row.intervalInForce = m.intervalSeconds := by
  obtain ⟨hmem, hid⟩ := mem_of_get_insertAll h hnone
  obtain ⟨m, hm, hrow⟩ := mem_filterMap.1 hmem
  split at hrow
  · next hc =>
    cases hrow
    cases hid
    exact ⟨m, get_of_mem hm, hc.1, hc.2.1, rfl, rfl⟩
  · cases hrow

theorem sync_schedule_of_some (h : l.schedule.get id = some s)
    (hrow : (l.syncMonitorSchedule policy now ids).schedule.get id = some row) :
    row = closedRow l policy now ids s := by
  let c := l.closeScheduleSegment policy now ids
  have hid : s.monitorID = id := key_of_get h
  have hclose : c.schedule.get id = some (closedRow l policy now ids s) := by
    rw [get_schedule_close, h]
    rfl
  have hdelete : (c.deleteSchedules ids).schedule.get id =
      (some (closedRow l policy now ids s)).filter fun s => !c.dropped ids s := by
    rw [← hclose]
    exact get_delete _ _ _
  cases hd : (c.deleteSchedules ids).schedule.get id with
  | some kept =>
    obtain ⟨hsame, -⟩ := Option.filter_eq_some_iff.1 (hdelete.symm.trans hd)
    have hkeep : (l.syncMonitorSchedule policy now ids).schedule.get id = some kept :=
      get_insertAll_of_some hd _
    rw [hkeep] at hrow
    exact (Option.some.inj hrow).symm.trans (Option.some.inj hsame).symm
  | none =>
    -- the row was dropped because its monitor does not participate, so none is created for it
    exfalso
    obtain ⟨m, hm, hids, hpart, -⟩ := mem_ensure (l := c.deleteSchedules ids) hrow hd
    have hdropped : c.dropped ids (closedRow l policy now ids s) = false := by
      unfold dropped closing
      rw [closedRow_monitorID, hid, if_pos hids, show c.monitors.get id = some m from hm]
      simp [hpart]
    rw [hdelete, Option.filter_some, hdropped] at hd
    cases hd

theorem sync_schedule_of_none (h : l.schedule.get id = none)
    (hrow : (l.syncMonitorSchedule policy now ids).schedule.get id = some row) :
    ∃ m, l.monitors.get id = some m ∧ id ∈ ids ∧ m.participant ∧ row.scheduleCreatedAt = now ∧
      row.intervalInForce = m.intervalSeconds := by
  have hclose : (l.closeScheduleSegment policy now ids).schedule.get id = none := by
    rw [get_schedule_close, h]
    rfl
  have hdelete : ((l.closeScheduleSegment policy now ids).deleteSchedules ids).schedule.get id =
      none := by
    rw [deleteSchedules, get_delete, hclose]
    rfl
  exact mem_ensure (l := (l.closeScheduleSegment policy now ids).deleteSchedules ids) hrow hdelete

end

end LedgerTables

end Cerbix.Ledger
