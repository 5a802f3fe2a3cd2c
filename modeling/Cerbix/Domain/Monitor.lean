/-!
# Monitors and their due windows

The columns of `monitors` that the scheduler, the expected-run ledger and the result ingest use
(`internal/domain/monitor.go`). Instants are microseconds since the epoch, the resolution of
`timestamptz`. `ExpectedRun` is one stored window of `expected_runs`, and `verdict` what it reads as
(`expectedrun.go`), computed from the instants that are there.
-/

namespace Cerbix.Domain

/-- Instants and durations are in microseconds. -/
def seconds (n : Int) : Int := n * 1000000

def days (n : Int) : Int := seconds (n * 86400)

theorem seconds_pos {n : Int} (h : 0 < n) : 0 < seconds n := by
  unfold seconds
  omega

abbrev MonitorID := Nat

abbrev JobID := Nat

abbrev Region := Nat

/-- The kinds of monitors. -/
inductive MonitorType
  | push | http | tcp | icmp | dns | tls | grpc | composite | postgres | mysql | redis | promql
  | rabbitmq | websocket | ssh | synthetic | asyncCanary
  deriving DecidableEq, Repr

def MonitorType.text : MonitorType → String
  | .push => "push"
  | .http => "http"
  | .tcp => "tcp"
  | .icmp => "icmp"
  | .dns => "dns"
  | .tls => "tls"
  | .grpc => "grpc"
  | .composite => "composite"
  | .postgres => "postgres"
  | .mysql => "mysql"
  | .redis => "redis"
  | .promql => "promql"
  | .rabbitmq => "rabbitmq"
  | .websocket => "websocket"
  | .ssh => "ssh"
  | .synthetic => "synthetic"
  | .asyncCanary => "async_canary"

theorem MonitorType.text_injective : Function.Injective MonitorType.text := by
  intro s t h
  cases s <;> cases t <;> first | rfl | exact absurd h (by decide)

/-- Somebody has to probe it. -/
def MonitorType.active : MonitorType → Bool
  | .push => false
  | _ => true

inductive MonitorStatus
  | pending | up | down
  deriving DecidableEq, Repr

/-- A monitor, as far as scheduling and results read it. -/
structure Monitor where
  id : MonitorID
  type : MonitorType
  enabled : Bool
  retired : Bool
  region : Region
  intervalSeconds : Int
  timeoutSeconds : Int
  confirmIntervalSeconds : Int
  graceSeconds : Int
  failureThreshold : Int
  requiresExecutionEnvelope : Bool
  executionRevision : Int
  status : MonitorStatus
  consecutiveFailures : Int
  canaryRunKey : Option Int
  deriving DecidableEq, Repr

namespace Monitor

def interval (m : Monitor) : Int := seconds m.intervalSeconds

def timeout (m : Monitor) : Int := seconds m.timeoutSeconds

def confirmInterval (m : Monitor) : Int := seconds m.confirmIntervalSeconds

/-- A failure is confirmed at a faster pace. -/
def confirmConfigured (m : Monitor) : Bool :=
  m.confirmIntervalSeconds > 0 && m.failureThreshold > 1 && m.type != .push &&
    m.type != .composite && m.type.active

/-- It has failed, and not yet often enough. -/
def inConfirmPhase (m : Monitor) : Bool :=
  m.confirmConfigured && m.status == .up && m.consecutiveFailures > 0 &&
    m.consecutiveFailures < m.failureThreshold

/-- `scheduleParticipantSQL`: whether the monitor expects runs. -/
def participant (m : Monitor) : Bool := m.enabled && m.type != .push && m.intervalSeconds > 0

end Monitor

/-- The first generation that carries a window's identity. -/
def ledgerMinCarrier : Int := 4

/-- What a window reads as. -/
inductive ExpectedRunVerdict
  | covered | coveredLate | expectedNeverIssued | issuedNeverClaimed | claimedNeverFinished
  | unknown | reserved
  deriving DecidableEq, Repr

/-- Why a window was not run. -/
inductive SkipReason
  | noCapableRunner | noInflightSlot | credentialUnresolved | noCapableExecutor | transportBackoff
  deriving DecidableEq, Repr

/-- Why a reserved job was not handed over. -/
inductive WithheldReason
  | publishFailed
  deriving DecidableEq, Repr

/-- How a job ended. -/
inductive ExpectedRunOutcome
  | result | probeError
  deriving DecidableEq, Repr

/-- Why a result was refused. -/
inductive ResultReason
  | missingTimestamp | futureTimestamp | outsideRetention | observedBeforeIssue | outOfOrder
  | duplicate | staleRevision | missingRevision | skippedCurrentState
  deriving DecidableEq, Repr

/-- A window: when a run was due, and what became of it. -/
structure ExpectedRun where
  monitorID : MonitorID
  dueAt : Int
  /-- `none`: no job was ever issued for the window. -/
  jobID : Option JobID
  carrierGeneration : Int
  executionRevision : Int
  region : Region
  intervalSeconds : Int
  intervalAssumed : Bool
  reservedAt : Option Int
  withheldReason : Option WithheldReason
  issuedAt : Option Int
  claimedAt : Option Int
  terminalAt : Option Int
  outcome : Option ExpectedRunOutcome
  refusedAt : Option Int
  refusedReason : Option ResultReason
  skipReason : Option SkipReason
  deriving DecidableEq, Repr

namespace ExpectedRun

/-- A window about which nothing is known. -/
def blank (monitorID : MonitorID) (dueAt : Int) (executionRevision : Int) (region : Region)
    (intervalSeconds : Int) : ExpectedRun where
  monitorID := monitorID
  dueAt := dueAt
  jobID := none
  carrierGeneration := 0
  executionRevision := executionRevision
  region := region
  intervalSeconds := intervalSeconds
  intervalAssumed := false
  reservedAt := none
  withheldReason := none
  issuedAt := none
  claimedAt := none
  terminalAt := none
  outcome := none
  refusedAt := none
  refusedReason := none
  skipReason := none

def key (r : ExpectedRun) : MonitorID × Int := (r.monitorID, r.dueAt)

/-- More than an interval after the window was due. -/
def late (r : ExpectedRun) (at' : Int) : Bool := at' - r.dueAt > seconds r.intervalSeconds

/-- What a window reads as; the first evidence that decides does. -/
def verdict (r : ExpectedRun) : ExpectedRunVerdict :=
  if r.jobID.isSome && r.carrierGeneration < ledgerMinCarrier then .unknown
  else if r.terminalAt.isSome then
    match r.issuedAt with
    | none => .covered
    | some issued => if r.late issued then .coveredLate else .covered
  else if r.reservedAt.isSome && r.issuedAt.isNone && r.claimedAt.isNone then .reserved
  else if r.jobID.isNone then .expectedNeverIssued
  else if r.claimedAt.isNone then .issuedNeverClaimed
  else .claimedNeverFinished

theorem verdict_eq_covered_iff (r : ExpectedRun) : r.verdict = .covered ↔
    (r.jobID.isSome → ledgerMinCarrier ≤ r.carrierGeneration) ∧ r.terminalAt.isSome ∧
      ∀ issued, r.issuedAt = some issued → r.late issued = false := by
  unfold verdict
  split
  · next h =>
    simp only [Bool.and_eq_true, decide_eq_true_eq] at h
    simp only [reduceCtorEq, false_iff, not_and]
    intro hc
    have := hc h.1
    omega
  · next h =>
    have hc : r.jobID.isSome → ledgerMinCarrier ≤ r.carrierGeneration := by
      intro hj
      simp only [hj, Bool.true_and, decide_eq_true_eq] at h
      omega
    split
    · next ht =>
      cases hi : r.issuedAt with
      | none => exact iff_of_true rfl ⟨hc, ht, by simp⟩
      | some issued =>
        cases hl : r.late issued with
        | false => exact iff_of_true (by simp [hl]) ⟨hc, ht, by simp [hl]⟩
        | true => exact iff_of_false (by simp [hl]) fun h => by simp [h.2.2 issued rfl] at hl
    · next ht =>
      refine iff_of_false ?_ fun h => ht h.2.1
      split
      · simp
      · split
        · simp
        · split <;> simp

end ExpectedRun

end Cerbix.Domain
