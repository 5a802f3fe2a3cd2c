import Cerbix.Ledger.Tables
import Cerbix.Scheduler.Canary

/-!
# Deciding a dispatch

What a leader's tick decides from: the job and its carrier (`internal/dispatch/dispatch.go`), the
standing expectation it answers, the authoritative read of a credentialed monitor
(`internal/store/materialize.go`), the canary admission and the rhythm of a monitor
(`internal/scheduler/scheduler.go`). What executors announced, what the secret store resolved and
how a statement ended are inputs. `PendingDispatch.Consistent`: a ledgered dispatch and its advance
name one monitor, one job and one window.
-/

namespace Cerbix.Scheduler

open Cerbix.Lib Cerbix.Domain Cerbix.Ledger CanaryInflight

def protocolV1 : Int := 1
def protocolV2 : Int := 2
def protocolV3 : Int := 3
def protocolV4 : Int := 4

/-- The job as the scheduler sees it. -/
structure CheckJob where
  monitor : Monitor
  protocolVersion : Int
  jobID : Option JobID
  issuedAt : Option Int
  dueAt : Option Int
  deriving DecidableEq, Repr

/-- `CarrierFor`: there is no generation-4 canary carrier, generation 4 carries a window, and
generations 2 and 3 carry an envelope. -/
def carrierFor (regionGeneration : Int) (hasEnvelope hasWindow : Bool) (type : MonitorType) : Int :=
  let regionGeneration :=
    if type = .asyncCanary ∧ regionGeneration > protocolV3 then protocolV3 else regionGeneration
  if hasWindow ∧ regionGeneration ≥ protocolV4 then protocolV4
  else if !hasEnvelope then protocolV1
  else if regionGeneration > protocolV3 then protocolV3
  else if regionGeneration < protocolV2 then protocolV2
  else regionGeneration

/-- `WithCarrier` stamps the generation and strips what it does not carry. -/
def withCarrier (job : CheckJob) (generation : Int) : CheckJob :=
  { job with
    protocolVersion := generation
    dueAt := if generation < protocolV4 then none else job.dueAt }

/-- The standing expectation of a monitor and the identity minted for the job that will
answer it. -/
structure DueExpectation where
  monitorID : MonitorID
  dueAt : Int
  jobID : JobID
  issuedAt : Int
  deriving DecidableEq, Repr

/-- `LoadDueExpectations` at a statement's instant, with the job ids from `nextJob` on. -/
def loadDueExpectations (l : LedgerTables) (nextJob : JobID) (at' : Int) (ids : List MonitorID) :
    List DueExpectation :=
  ((l.schedule.rows.filter fun s => s.monitorID ∈ ids).zipIdx nextJob).map
    fun (s, job) => ⟨s.monitorID, s.nextDueAt, job, at'⟩

inductive MaterializeReason
  | skippedCurrentState | missingReference | decryptFailed | noDispatchKey | payloadTooLarge
  | carrierTooOld
  deriving DecidableEq, Repr

structure StampedJob where
  job : CheckJob
  generation : Int
  deriving DecidableEq, Repr

def stampJob (job : CheckJob) (generation : Int) : StampedJob :=
  ⟨withCarrier job generation, generation⟩

/-- What became of a monitor in a batch. -/
structure MaterializedExecution where
  monitorID : MonitorID
  result : Except MaterializeReason StampedJob

/-- What a batch reads of the world. -/
structure MaterializeRead where
  regionGeneration : Region → Int
  resolved : MonitorID → Except MaterializeReason Bool
  stampedAt : Int

/-- The row of a batch; secrets are resolved or not. -/
def materializeRow (m : Monitor) (read : MaterializeRead) (jobID : JobID) (issuedAt : Int)
    (dueAt : Option Int) : Except MaterializeReason StampedJob :=
  if !m.enabled || !m.type.active then .error .skippedCurrentState
  else
    let m := if m.type = .asyncCanary ∧ 0 < m.intervalSeconds then
        { m with canaryRunKey := canaryRunKeyAt m.intervalSeconds read.stampedAt }
      else m
    match read.resolved m.id with
    | .error reason => .error reason
    | .ok hasEnvelope =>
      .ok <| stampJob ⟨m, protocolV1, some jobID, some issuedAt, dueAt⟩ <|
        carrierFor (read.regionGeneration m.region) hasEnvelope dueAt.isSome m.type

/-- `MaterializeExecutionConfigs`: one statement mints the identity, reads the monitor's row and the
window its dispatch answers. -/
def materializeExecutionConfigs (l : LedgerTables) (nextJob : JobID) (at' : Int)
    (read : MaterializeRead) (ids : List MonitorID) : List MaterializedExecution :=
  (ids.zipIdx nextJob).map fun (id, job) =>
    match l.monitors.get id with
    | none => ⟨id, .error .skippedCurrentState⟩
    | some m => ⟨id, materializeRow m read job at' ((l.schedule.get id).map ScheduleRow.nextDueAt)⟩

def refreshEvery : Int := seconds 15

def confirmCapPerRegion : Nat := 50

/-- The delay doubles with every failure. -/
def doubled (capDelay : Int) : Nat → Int → Int
  | 0, delay => delay
  | failures + 1, delay =>
    if capDelay ≤ delay then delay
    else if capDelay.tdiv 2 < delay then capDelay
    else doubled capDelay failures (delay * 2)

/-- `credentialFailureRetry`: the monitor's interval, doubled with each failure up to the cap. -/
def credentialFailureRetry (interval : Int) (failures : Nat) : Int :=
  let interval := if interval ≤ 0 then seconds 1 else interval
  let capDelay := max refreshEvery interval
  min capDelay (doubled capDelay (failures - 1) interval)

/-- The monitor is to be probed now. -/
def dueForDispatch (nextRun : MonitorID → Option Int) (now : Int) (m : Monitor) : Bool :=
  m.type != .push && m.type.active && (nextRun m.id).all (· ≤ now)

/-- The interval in force, and whether it is the fast one. -/
structure EffectiveInterval where
  interval : Int
  confirming : Bool
  deriving DecidableEq, Repr

/-- `effectiveInterval`, which also forgets an acceleration that has expired. -/
def effectiveInterval (m : Monitor) (confirmFast : MonitorID → Option Int) (now : Int) :
    EffectiveInterval × (MonitorID → Option Int) :=
  match confirmFast m.id with
  | none => (⟨m.interval, false⟩, confirmFast)
  | some expiry =>
    if expiry < now then (⟨m.interval, false⟩, Function.update confirmFast m.id none)
    else if m.inConfirmPhase then (⟨m.confirmInterval, true⟩, confirmFast)
    else (⟨m.interval, false⟩, confirmFast)

def noAdvance : ExpectationAdvance where
  monitorID := none
  jobID := none
  skipReason := none
  confirming := false
  nextDue := none
  intervalInForce := 0
  carrierGeneration := 0
  expectedDue := none
  expectedRevision := 0
  reservedAt := none
  region := none

/-- The advance for a window that is run or skipped. -/
def recordAdvance (m : Monitor) (exp : DueExpectation) (jobID : Option JobID)
    (skipReason : Option SkipReason) (carrier : Int) (nextDue interval : Int) (confirming : Bool) :
    ExpectationAdvance where
  monitorID := some m.id
  jobID := jobID
  skipReason := skipReason
  confirming := confirming
  nextDue := some nextDue
  intervalInForce := interval.tdiv (seconds 1)
  carrierGeneration := carrier
  expectedDue := some exp.dueAt
  expectedRevision := m.executionRevision
  -- the instant the identity was minted, which is the value the job carries
  reservedAt := if jobID.isSome then some exp.issuedAt else none
  region := some m.region

/-- A job that waits for its reserve. -/
structure PendingDispatch where
  monitor : Monitor
  job : CheckJob
  interval : Int
  nextRun : Int
  ledgered : Bool
  credentialed : Bool
  advance : ExpectationAdvance
  lease : Option Int
  deriving DecidableEq, Repr

/-- The advance is that of the job. -/
structure PendingDispatch.Consistent (pd : PendingDispatch) : Prop where
  monitorID : pd.advance.monitorID = some pd.monitor.id
  jobID : pd.advance.jobID = pd.job.jobID
  hasJob : pd.job.jobID.isSome
  expected : pd.advance.expectedDue.isSome
  reserved : pd.advance.reservedAt.isSome
  dueAt : pd.job.dueAt.isSome → pd.job.dueAt = pd.advance.expectedDue

def PendingDispatch.window (pd : PendingDispatch) : Option (MonitorID × Int) :=
  pd.advance.expectedDue.map fun due => (pd.monitor.id, due)

/-! ## Canary admission -/

/-- What the world answers about a canary. -/
structure CanaryAnswer where
  runnerAvailable : Bool
  /-- `some committed`: the claim's transaction ended in an error. -/
  claimError : Option Bool
  deriving DecidableEq, Repr

/-- A canary that got its slot. -/
structure Admission where
  slots : CanaryInflight
  monitor : Monitor
  skip : Option SkipReason
  lease : Option Int

/-- `admitCanary`: the capability, the run key, the slot. A monitor of any other type passes. -/
def admitCanary (slots : CanaryInflight) (m : Monitor) (now claimedAt : Int) (c : CanaryAnswer) :
    Admission :=
  if m.type ≠ .asyncCanary then ⟨slots, m, none, none⟩
  else if !c.runnerAvailable then ⟨slots, m, some .noCapableRunner, none⟩
  else
    let m := withCanaryRunKey m now
    let ttl := m.timeout + canaryInflightSlack
    match slots.claimCanaryInflight claimedAt m.id m.region m.canaryRunKey ttl with
    | .error _ => ⟨slots, m, some .noInflightSlot, none⟩
    | .ok claimed =>
      match c.claimError with
      | none => ⟨claimed, m, none, some (claimedAt + ttl)⟩
      | some committed => ⟨if committed then claimed else slots, m, some .noInflightSlot, none⟩

/-- What an admission hands on: the monitor, stamped if it is a canary, and the expiry of the claim
of a canary. -/
structure Admitted (m admitted : Monitor) (lease : Option Int) : Prop where
  id : admitted.id = m.id
  leased : lease.isSome ↔ admitted.type = .asyncCanary
  stamped : admitted = m ∨ ∃ at', admitted = withCanaryRunKey m at' ∧ admitted.canaryRunKey.isSome

@[simp] theorem admitCanary_id (slots : CanaryInflight) (m : Monitor) (now claimedAt : Int)
    (c : CanaryAnswer) : (admitCanary slots m now claimedAt c).monitor.id = m.id := by
  unfold admitCanary
  split
  · rfl
  split
  · rfl
  · dsimp only
    split
    · exact withCanaryRunKey_id m now
    · split <;> exact withCanaryRunKey_id m now

variable {slots : CanaryInflight} {m : Monitor} {now claimedAt : Int} {c : CanaryAnswer}

theorem admitCanary_of_skip_none (h : (admitCanary slots m now claimedAt c).skip = none) :
    (m.type ≠ .asyncCanary ∧ admitCanary slots m now claimedAt c = ⟨slots, m, none, none⟩) ∨
      let stamped := withCanaryRunKey m now
      let ttl := stamped.timeout + canaryInflightSlack
      m.type = .asyncCanary ∧ ∃ claimed, slots.claimCanaryInflight claimedAt stamped.id
          stamped.region stamped.canaryRunKey ttl = .ok claimed ∧
        admitCanary slots m now claimedAt c = ⟨claimed, stamped, none, some (claimedAt + ttl)⟩ := by
  unfold admitCanary at h ⊢
  split at h
  · next htype => exact .inl ⟨htype, by rw [if_pos htype]⟩
  · next htype =>
    split at h
    · cases h
    rename_i hrun
    dsimp only at h
    split at h
    · cases h
    rename_i claimed hclaim
    split at h
    · next herr =>
      refine .inr ⟨by simpa using htype, claimed, hclaim, ?_⟩
      rw [if_neg htype, if_neg hrun]
      simp only [hclaim]
    · cases h

theorem admitCanary_admitted (h : (admitCanary slots m now claimedAt c).skip = none) :
    Admitted m (admitCanary slots m now claimedAt c).monitor
      (admitCanary slots m now claimedAt c).lease := by
  refine ⟨admitCanary_id .., ?_, ?_⟩
  · rcases admitCanary_of_skip_none h with ⟨htype, heq⟩ | ⟨htype, claimed, -, heq⟩
    · simp [heq, htype]
    · simp [heq, htype]
  · rcases admitCanary_of_skip_none h with ⟨-, heq⟩ | ⟨-, claimed, hclaim, heq⟩
    · exact .inl (by rw [heq])
    · obtain ⟨⟨key, hkey, -⟩, -⟩ := claimCanaryInflight_eq_ok hclaim
      rw [heq]
      exact .inr ⟨now, rfl, by rw [hkey]; rfl⟩

theorem admitCanary_keeps {id : MonitorID} {r : CanarySlot} (hr : slots.get id = some r)
    (hlive : claimedAt < r.expiresAt) :
    (admitCanary slots m now claimedAt c).slots.get id = some r := by
  have hclaim {region : Region} {runKey : Option Int} {ttl : Int} {m' : MonitorID}
      {claimed : CanaryInflight}
      (h : slots.claimCanaryInflight claimedAt m' region runKey ttl = .ok claimed) :
      claimed.get id = some r := by
    obtain ⟨-, hexpired, hothers⟩ := claimCanaryInflight_eq_ok h
    apply hothers id r _ hr hlive
    rintro rfl
    exact absurd (hexpired r hr) (Int.not_le.2 hlive)
  unfold admitCanary
  split
  · exact hr
  split
  · exact hr
  dsimp only
  split
  · exact hr
  rename_i claimed h
  split
  · exact hclaim h
  · split
    · exact hclaim h
    · exact hr

theorem admitCanary_claims (h : (admitCanary slots m now claimedAt c).skip = none)
    (hlease : (admitCanary slots m now claimedAt c).lease.isSome) :
    let a := admitCanary slots m now claimedAt c
    (∃ key lease, a.monitor.canaryRunKey = some key ∧ a.lease = some lease ∧
        a.slots.get m.id = some ⟨m.id, a.monitor.region, key, lease⟩) ∧
      ∀ r, slots.get m.id = some r → r.expiresAt ≤ claimedAt := by
  rcases admitCanary_of_skip_none h with ⟨-, heq⟩ | ⟨-, claimed, hclaim, heq⟩
  · simp [heq] at hlease
  obtain ⟨⟨key, hkey, hget⟩, hexpired, -⟩ := claimCanaryInflight_eq_ok hclaim
  rw [withCanaryRunKey_id] at hget hexpired
  rw [heq]
  exact ⟨⟨key, _, hkey, rfl, hget⟩, hexpired⟩

end Cerbix.Scheduler
