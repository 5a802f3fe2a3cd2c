import Cerbix.Alerting.Tables
import Cerbix.Domain.Gate
import Cerbix.Lib.Query
import Cerbix.Lib.Table
import Cerbix.Service.Materialize

/-!
# The reliability reports a gate decision reads

`serviceReliabilityReportTx` builds the report of one window, `gateAllWindowReportsTx` those of
every target with one grouped query (`internal/store/servicereport.go`, `gateallwindowsreport.go`),
in one snapshot of a service that exists. The batched segments and reports are those of each window
alone (`gateAllWindowSegments_eq`, `gateAllWindowReports_eq`). Of the burn card only the decision
for one window is here (`decideBurnWindow`), which withholds what the report withholds
(`withholding_agrees`).
-/

namespace Cerbix.Gate

open Cerbix.Lib Cerbix.Domain Cerbix.Alerting Cerbix.Service List

/-- An execution epoch of a revision. -/
structure EpochRow where
  id : Nat
  epochSeq : Nat
  revisionID : Nat
  deriving DecidableEq, Repr

/-- A revision of the declaration. -/
structure RevisionRow where
  id : Nat
  revision : Nat
  effective : Bool
  createdAt : Int
  effectiveAt : Int
  deriving DecidableEq, Repr

/-- An objective of the service with its burn rules. -/
structure GateTarget where
  id : Nat
  window : TargetWindow
  objective : Rat
  objectiveUpdatedAt : Int
  rules : List BurnRule
  deriving DecidableEq, Repr

/-- The rows of one service at one instant, with the clock, the number of SLI members and the open
auto-incident. A service has one target for a window and one latch for a rule of a target. -/
structure Snapshot where
  evaluatedAt : Int
  sliMembers : Nat
  materialization : Option Materialization
  facts : List Fact
  epochs : List EpochRow
  revisions : List RevisionRow
  repairRanges : List RepairRange
  targets : Table GateTarget.window
  latches : Table fun l : BurnLatch => (l.target, l.rule)
  incident : Option Nat

def windowDuration : TargetWindow → Int
  | .day => 24 * 60 * Go.minute
  | .week => 7 * 24 * 60 * Go.minute
  | .month => 30 * 24 * 60 * Go.minute
  | .quarter => 90 * 24 * 60 * Go.minute

/-! ## Segments -/

/-- How long a window was in each state, in microseconds. -/
structure ReliabilityDurations where
  goodUs : Int
  badUs : Int
  unknownUs : Int
  excludedUs : Int
  healthyUs : Int
  degradedUs : Int
  downUs : Int
  healthUnknownUs : Int
  deriving DecidableEq, Repr

def ReliabilityDurations.zero : ReliabilityDurations := ⟨0, 0, 0, 0, 0, 0, 0, 0⟩

def addDurations (a b : ReliabilityDurations) : ReliabilityDurations where
  goodUs := a.goodUs + b.goodUs
  badUs := a.badUs + b.badUs
  unknownUs := a.unknownUs + b.unknownUs
  excludedUs := a.excludedUs + b.excludedUs
  healthyUs := a.healthyUs + b.healthyUs
  degradedUs := a.degradedUs + b.degradedUs
  downUs := a.downUs + b.downUs
  healthUnknownUs := a.healthUnknownUs + b.healthUnknownUs

variable (d : ReliabilityDurations)

/-- The good part of what was measured; none if nothing was. -/
def availabilityPercent : Option Rat :=
  let measured := d.goodUs + d.badUs
  if measured ≤ 0 then none else some (d.goodUs / measured * 100)

/-- The part of the time that was measured. -/
def decidableCoverage : Rat :=
  let total := d.goodUs + d.badUs + d.unknownUs
  if total ≤ 0 then 0 else ((d.goodUs + d.badUs : Int) : Rat) / total

/-- A sealed bucket joined with its epoch and its revision. -/
structure SealedRow where
  fact : Fact
  epoch : EpochRow
  revision : RevisionRow
  deriving DecidableEq, Repr

/-- What the buckets of one segment have in common. -/
structure SegmentKey where
  epochID : Nat
  epochSeq : Nat
  revisionID : Nat
  revision : Nat
  recon : Bool
  deriving DecidableEq, Repr

/-- The sums over the buckets of one segment. -/
structure FactSums where
  key : SegmentKey
  buckets : Int
  minBucket : Int
  maxBucket : Int
  d : ReliabilityDurations
  deriving DecidableEq, Repr

section Segments

variable (s : Snapshot)

/-- The bucket before which the facts of revision 1 are a declared reconstruction. -/
def reconBoundary : Option Int :=
  match s.revisions.find? fun r => r.revision = 1 && r.effective with
  | none => none
  | some r => if r.effectiveAt < r.createdAt then some (ceilToBucket r.createdAt) else none

/-- The sealed buckets that start in the window. -/
def sealedRows (start stop : Int) : List SealedRow :=
  (s.facts.filter fun b => start ≤ b.bucketStart && b.bucketStart < stop &&
    b.state = .sealed).flatMap
    fun b => (s.epochs.filter fun e => e.id = b.content.epoch).flatMap
      fun e => (s.revisions.filter fun r => r.id = e.revisionID).map fun r => ⟨b, e, r⟩

/-- The segment of a bucket; reconstructed ones are apart. -/
def segmentKey (recon : Option Int) (row : SealedRow) : SegmentKey where
  epochID := row.epoch.id
  epochSeq := row.epoch.epochSeq
  revisionID := row.epoch.revisionID
  revision := row.revision.revision
  recon := match recon with
    | none => false
    | some boundary => row.revision.revision = 1 && row.fact.bucketStart < boundary

def factSums (key : SegmentKey) (rows : List SealedRow) : FactSums where
  key := key
  buckets := rows.length
  minBucket := (rows.map fun r => r.fact.bucketStart).min?.getD 0
  maxBucket := (rows.map fun r => r.fact.bucketStart).max?.getD 0
  d :=
    { goodUs := (rows.map fun r => r.fact.content.row.goodUs).sum
      badUs := (rows.map fun r => r.fact.content.row.badUs).sum
      unknownUs := (rows.map fun r => r.fact.content.row.unknownUs).sum
      excludedUs := (rows.map fun r => r.fact.content.row.excludedUs).sum
      healthyUs := (rows.map fun r => r.fact.content.row.healthyUs).sum
      degradedUs := (rows.map fun r => r.fact.content.row.degradedUs).sum
      downUs := (rows.map fun r => r.fact.content.row.downUs).sum
      healthUnknownUs := (rows.map fun r => r.fact.content.row.healthUnknownUs).sum }

/-- The segments of a window, in the order of their first buckets. -/
def reportSegments (start stop : Int) : List FactSums :=
  orderBy FactSums.minBucket
    ((groupBy (segmentKey (reconBoundary s)) (sealedRows s start stop)).map fun g =>
      factSums g.1 g.2)

/-- The rows of `gateAllWindowSegmentsTx`'s query, each under the window it was wanted for. -/
def wantedRows (targets : List GateTarget) (sealed : Int) : List (TargetWindow × SealedRow) :=
  targets.flatMap fun t =>
    (sealedRows s (sealed - windowDuration t.window) sealed).map fun row => (t.window, row)

/-- `gateAllWindowSegmentsTx`: one grouping for every window, then each window's groups by first
bucket. -/
def gateAllWindowSegments (targets : List GateTarget) (sealed : Int) (window : TargetWindow) :
    List FactSums :=
  let recon := reconBoundary s
  let groups := groupBy (fun x => (x.1, segmentKey recon x.2)) (wantedRows s targets sealed)
  orderBy FactSums.minBucket
    ((groups.filter fun g => g.1.1 = window).map fun g => factSums g.1.2 (g.2.map Prod.snd))

/-- **The batched query** gives each wanted window the segments of its own query. -/
theorem gateAllWindowSegments_eq {targets : List GateTarget}
    (hn : (targets.map GateTarget.window).Nodup) {t : GateTarget} (ht : t ∈ targets)
    (sealed : Int) : gateAllWindowSegments s targets sealed t.window =
      reportSegments s (sealed - windowDuration t.window) sealed := by
  have hwanted : wantedRows s targets sealed = tagged (targets.map GateTarget.window)
      fun w => sealedRows s (sealed - windowDuration w) sealed := by
    unfold wantedRows tagged
    rw [flatMap_map]
  have hgroups := groupBy_tagged hn (fun w => sealedRows s (sealed - windowDuration w) sealed)
    (segmentKey (reconBoundary s)) (mem_map_of_mem ht)
  unfold gateAllWindowSegments reportSegments
  rw [← hgroups, map_map, hwanted]
  rfl

end Segments

/-- What a report may say about its window. -/
structure ServiceWindowVerdict where
  status : ReportStatus
  reason : Option ReportReason
  aggregateWithheld : Option ReportReason
  availability : Option Rat
  deriving DecidableEq, Repr

def minDecidableCoverage : Rat := 95 / 100

/-- `decideServiceWindow`, the owner of the withholding rule. -/
def decideServiceWindow (sealedBuckets expectedBuckets : Int)
    (revisions : Nat) (start era : Int) : ServiceWindowVerdict :=
  let continuity : Bool := sealedBuckets = expectedBuckets
  let measured := d.goodUs + d.badUs
  let (status, reason) : ReportStatus × Option ReportReason :=
    if start < era then (.insufficientHistory, some .eraShort)
    else if !continuity then (.partially, some .storageGap)
    else if measured = 0 then (.unavailable, some .zeroDecidable)
    else if decidableCoverage d < minDecidableCoverage then (.partially, some .lowCoverage)
    else (.ok, none)
  let quotable : Bool := revisions = 1 && continuity && 0 < measured &&
    (status = .ok || (status = .partially && reason = some .lowCoverage))
  { status := status
    reason := reason
    aggregateWithheld := if 1 < revisions then some .spansRevisions else none
    availability := if quotable then availabilityPercent d else none }

/-- The error budget of a window. -/
structure ServiceBudget where
  objective : Rat
  objectiveUpdatedAt : Int
  allowedDowntimeRatio : Rat
  actualDowntimeRatio : Rat
  remainingRatio : Rat
  burnedPercent : Rat
  met : Bool
  deriving DecidableEq, Repr

def uptime (up total : Int) : Rat := if total ≤ 0 then 0 else up / total * 100

/-- The budget that an objective allows, and how much is used. -/
def errorBudget (objective : Rat) (objectiveUpdatedAt up total : Int) : ServiceBudget :=
  let allowed := 1 - objective / 100
  let actual := if total ≤ 0 then 0 else 1 - uptime up total / 100
  { objective := objective
    objectiveUpdatedAt := objectiveUpdatedAt
    allowedDowntimeRatio := allowed
    actualDowntimeRatio := actual
    remainingRatio := allowed - actual
    burnedPercent := if 0 < allowed then actual / allowed * 100 else 0
    met := 0 < total && objective ≤ uptime up total }

/-! ## Reports -/

/-- A segment as a report shows it. -/
structure ReliabilitySegment where
  revisionID : Nat
  revision : Nat
  epochID : Nat
  epochSeq : Nat
  start : Int
  stop : Int
  buckets : Int
  durations : ReliabilityDurations
  availability : Option Rat
  coverage : Rat
  declaredReconstruction : Bool
  deriving DecidableEq, Repr

def FactSums.segment (sums : FactSums) : ReliabilitySegment where
  revisionID := sums.key.revisionID
  revision := sums.key.revision
  epochID := sums.key.epochID
  epochSeq := sums.key.epochSeq
  start := sums.minBucket
  stop := sums.maxBucket + canonicalBucket
  buckets := sums.buckets
  durations := sums.d
  availability := availabilityPercent sums.d
  coverage := decidableCoverage sums.d
  declaredReconstruction := sums.key.recon

/-- Time that is being computed again. -/
structure RepairingInterval where
  start : Int
  stop : Int
  deriving DecidableEq, Repr

/-- The reliability of a service in one window. -/
structure ServiceWindowReport where
  window : TargetWindow
  asOf : Int
  sealedThrough : Option Int
  start : Int
  stop : Int
  status : ReportStatus
  reason : Option ReportReason
  storageContinuity : Bool
  expectedBuckets : Int
  sealedBuckets : Int
  coverage : Rat
  durations : ReliabilityDurations
  availability : Option Rat
  aggregateWithheld : Option ReportReason
  objective : Option (Rat × Int)
  budget : Option ServiceBudget
  segments : List ReliabilitySegment
  repairing : List RepairingInterval
  deriving DecidableEq, Repr

/-- A report before anything was read. -/
def ServiceWindowReport.init (window : TargetWindow) (asOf : Int) : ServiceWindowReport where
  window := window
  asOf := asOf
  sealedThrough := none
  start := 0
  stop := 0
  status := .ok
  reason := none
  storageContinuity := false
  expectedBuckets := 0
  sealedBuckets := 0
  coverage := 0
  durations := .zero
  availability := none
  aggregateWithheld := none
  objective := none
  budget := none
  segments := []
  repairing := []

/-- How far the sealed data is behind. -/
def ServiceWindowReport.sealLag (r : ServiceWindowReport) : Option Int :=
  r.sealedThrough.map fun sealed => Go.sub r.asOf sealed

/-- The revisions of the segments. -/
def revisionIDs (segments : List FactSums) : List Nat :=
  firstSeen [] (segments.map fun seg => seg.key.revisionID)

variable (rep : ServiceWindowReport) (segments : List FactSums)

/-- The loop over the segments: the report with their buckets, durations and views. -/
def ServiceWindowReport.addSegments : ServiceWindowReport :=
  segments.foldl (fun rep seg =>
    { rep with
      sealedBuckets := rep.sealedBuckets + seg.buckets
      durations := addDurations rep.durations seg.d
      segments := rep.segments ++ [seg.segment] }) rep

def RepairRange.repairing (r : RepairRange) : Bool := r.state = .pending || r.state = .running

variable (s : Snapshot)

/-- The ranges of the window that are being repaired. -/
def repairRangesIn (start stop : Int) : List RepairingInterval :=
  (orderBy RepairRange.start
    (s.repairRanges.filter fun r => RepairRange.repairing r && start < r.stop &&
      r.start < stop)).map
    fun r => ⟨r.start, r.stop⟩

def RepairingInterval.clip (iv : RepairingInterval) (start stop : Int) : RepairingInterval where
  start := if iv.start < start then start else iv.start
  stop := if stop < iv.stop then stop else iv.stop

/-- The objective of a window and when it was set. -/
def reportObjective (window : TargetWindow) : Option (Rat × Int) :=
  (s.targets.get window).map fun t => (t.objective, t.objectiveUpdatedAt)

open ServiceWindowReport

/-- `ServiceReliabilityReport`. -/
def serviceReliabilityReport (window : TargetWindow) : ServiceWindowReport :=
  let rep := init window s.evaluatedAt
  match s.materialization with
  | none =>
    if s.sliMembers = 0 then { rep with status := .unavailable, reason := some .noSLI }
    else { rep with status := .insufficientSealed, reason := some .nothingSealed }
  | some m =>
    match m.sealedThrough with
    | none =>
      { rep with
        status := .insufficientSealed
        reason := some .nothingSealed
        objective := reportObjective s window }
    | some sealed =>
      let start := sealed - windowDuration window
      let rep :=
        { rep with
          sealedThrough := some sealed
          start := start
          stop := sealed
          expectedBuckets := windowDuration window / canonicalBucket }
      let segments := reportSegments s start sealed
      let rep := rep.addSegments segments
      let verdict := decideServiceWindow rep.durations rep.sealedBuckets rep.expectedBuckets
        (revisionIDs segments).length start m.eraStart
      let objective := reportObjective s window
      let measured := rep.durations.goodUs + rep.durations.badUs
      { rep with
        storageContinuity := rep.sealedBuckets = rep.expectedBuckets
        coverage := decidableCoverage rep.durations
        status := verdict.status
        reason := verdict.reason
        aggregateWithheld := verdict.aggregateWithheld
        availability := verdict.availability
        objective := objective
        budget := match objective with
          | none => none
          | some (objective, updatedAt) =>
            if verdict.availability.isSome then
              some (errorBudget objective updatedAt rep.durations.goodUs measured)
            else none
        repairing := (repairRangesIn s start sealed).map fun iv => iv.clip start sealed }

/-- Fill in a report whose segments were read for all windows at once. -/
def populateGateWindowReport (era : Int) : ServiceWindowReport :=
  let rep := rep.addSegments segments
  let verdict := decideServiceWindow rep.durations rep.sealedBuckets rep.expectedBuckets
    (revisionIDs segments).length rep.start era
  let rep :=
    { rep with
      storageContinuity := rep.sealedBuckets = rep.expectedBuckets
      coverage := decidableCoverage rep.durations
      status := verdict.status
      reason := verdict.reason
      aggregateWithheld := verdict.aggregateWithheld }
  match verdict.availability with
  | none => rep
  | some availability =>
    { rep with
      availability := some availability
      budget := rep.objective.map fun (objective, updatedAt) =>
        errorBudget objective updatedAt rep.durations.goodUs
          (rep.durations.goodUs + rep.durations.badUs) }

/-- `gateAllWindowRepairingTx`: the intervals of the span of all reports, given to each report they
overlap. -/
def gateAllWindowRepairing (reports : List ServiceWindowReport) : List ServiceWindowReport :=
  let start := (reports.map start).min?.getD 0
  let stop := (reports.map stop).max?.getD 0
  let intervals := repairRangesIn s start stop
  reports.map fun rep =>
    { rep with
      repairing := (intervals.filter fun iv => rep.start < iv.stop && iv.start < rep.stop).map
        fun iv => iv.clip rep.start rep.stop }

/-- The reports of all targets from one read of the facts. -/
def gateAllWindowReports (targets : List GateTarget) : List ServiceWindowReport :=
  let reports := targets.map fun t =>
    { init t.window s.evaluatedAt with
      objective := some (t.objective, t.objectiveUpdatedAt) }
  match s.materialization.bind fun m => m.sealedThrough.map fun sealed => (m.eraStart, sealed) with
  | none =>
    reports.map fun rep =>
      { rep with status := .insufficientSealed, reason := some .nothingSealed }
  | some (era, sealed) =>
    let segments := gateAllWindowSegments s targets sealed
    gateAllWindowRepairing s (reports.map fun rep =>
      populateGateWindowReport
        { rep with
          sealedThrough := some sealed
          start := sealed - windowDuration rep.window
          stop := sealed
          expectedBuckets := windowDuration rep.window / canonicalBucket }
        (segments rep.window) era)

/-! ## Agreement of the two reports -/

/-- The part of a report that the gate reads. -/
structure GateReads where
  sealedThrough : Option Int
  sealLag : Option Int
  budget : Option ServiceBudget
  revisions : List Nat
  deriving DecidableEq, Repr

/-- The distinct revisions of a report's facts, in order; the source keeps their number, their ends
and a digest. -/
def factRevisionsOf : List Nat :=
  (firstSeen [] (rep.segments.map ReliabilitySegment.revisionID)).insertionSort fun a b => a ≤ b

def ServiceWindowReport.gateReads : GateReads where
  sealedThrough := rep.sealedThrough
  sealLag := rep.sealLag
  budget := rep.budget
  revisions := factRevisionsOf rep

theorem ServiceWindowReport.addSegments_eq : rep.addSegments segments =
      { rep with
        sealedBuckets := segments.foldl (fun n seg => n + seg.buckets) rep.sealedBuckets
        durations := segments.foldl (fun d seg => addDurations d seg.d) rep.durations
        segments := rep.segments ++ segments.map FactSums.segment } := by
  unfold addSegments
  induction segments generalizing rep with
  | nil => rw [map_nil, append_nil]; rfl
  | cons seg rest ih =>
    rw [foldl_cons, ih]
    simp

theorem repairRangesIn_narrow {start stop start' stop' : Int} (h : start ≤ start')
    (h' : stop' ≤ stop) :
    ((repairRangesIn s start stop).filter fun iv => start' < iv.stop && iv.start < stop') =
      repairRangesIn s start' stop' := by
  unfold repairRangesIn
  rw [filter_map, filter_orderBy, filter_filter]
  congr 2
  refine filter_congr fun r _ => ?_
  simp only [Function.comp_apply]
  rw [Bool.eq_iff_iff]
  simp only [Bool.and_eq_true, decide_eq_true_eq]
  constructor
  · rintro ⟨hin, ⟨hr, _⟩, _⟩
    exact ⟨⟨hr, hin.1⟩, hin.2⟩
  · rintro ⟨⟨hr, h₁⟩, h₂⟩
    exact ⟨⟨h₁, h₂⟩, ⟨hr, by omega⟩, by omega⟩

section Agreement

variable {s : Snapshot} {targets : List GateTarget}

def windowBase (s : Snapshot) (sealed : Int) (t : GateTarget) : ServiceWindowReport :=
  { init t.window s.evaluatedAt with
    objective := some (t.objective, t.objectiveUpdatedAt)
    sealedThrough := some sealed
    start := sealed - windowDuration t.window
    stop := sealed
    expectedBuckets := windowDuration t.window / canonicalBucket }

theorem populateGateWindowReport_span (era : Int) :
    (populateGateWindowReport rep segments era).start = rep.start ∧
      (populateGateWindowReport rep segments era).stop = rep.stop := by
  unfold populateGateWindowReport
  rw [addSegments_eq]
  dsimp only
  split <;> exact ⟨rfl, rfl⟩

variable {m : Materialization} {sealed : Int}

theorem populated_eq (hm : s.materialization = some m)
    (hsealed : m.sealedThrough = some sealed) {t : GateTarget} (ht : t ∈ s.targets.rows) :
    { populateGateWindowReport (windowBase s sealed t)
        (reportSegments s (sealed - windowDuration t.window) sealed) m.eraStart with
      repairing := (repairRangesIn s (sealed - windowDuration t.window) sealed).map
        fun iv => iv.clip (sealed - windowDuration t.window) sealed } =
      serviceReliabilityReport s t.window := by
  have hobj : reportObjective s t.window = some (t.objective, t.objectiveUpdatedAt) := by
    unfold reportObjective
    rw [Table.get_of_mem ht, Option.map_some]
  unfold populateGateWindowReport serviceReliabilityReport
  simp only [hm, hsealed, hobj, addSegments_eq, windowBase]
  split
  · next hnone => rw [hnone]; rfl
  · next a hsome => rw [hsome]; rfl

/-- **The batched reports** of a sealed service are the reports of its targets' windows. -/
theorem gateAllWindowReports_eq
    (hm : s.materialization = some m) (hsealed : m.sealedThrough = some sealed)
    (hn : (targets.map GateTarget.window).Nodup) (hin : ∀ t ∈ targets, t ∈ s.targets.rows) :
    gateAllWindowReports s targets = targets.map fun t => serviceReliabilityReport s t.window := by
  have hbatch : gateAllWindowReports s targets = gateAllWindowRepairing s (targets.map fun t =>
      populateGateWindowReport (windowBase s sealed t)
        (reportSegments s (sealed - windowDuration t.window) sealed) m.eraStart) := by
    unfold gateAllWindowReports
    simp only [hm, hsealed, Option.bind_some, Option.map_some, map_map]
    refine congrArg _ (map_congr_left fun t ht => ?_)
    exact congrArg (populateGateWindowReport (windowBase s sealed t) · m.eraStart)
      (gateAllWindowSegments_eq s hn ht sealed)
  rw [hbatch]
  unfold gateAllWindowRepairing
  rw [map_map]
  refine map_congr_left fun t ht => ?_
  rw [← populated_eq hm hsealed (hin t ht)]
  simp only [Function.comp_apply, map_map, populateGateWindowReport_span]
  rw [repairRangesIn_narrow s]
  · rfl
  · exact min?_getD_le (mem_map.2 ⟨t, ht, (populateGateWindowReport_span ..).1⟩) _
  · exact le_max?_getD (mem_map.2 ⟨t, ht, (populateGateWindowReport_span ..).2⟩) _

/-- **The two report paths agree** on everything a decision reads, for every target. -/
theorem gateReads_gateAllWindowReports (hn : (targets.map GateTarget.window).Nodup)
    (hin : ∀ t ∈ targets, t ∈ s.targets.rows) : (gateAllWindowReports s targets).map gateReads =
      targets.map fun t => (serviceReliabilityReport s t.window).gateReads := by
  have hunsealed (hm : (s.materialization.bind fun m =>
      m.sealedThrough.map fun sealed => (m.eraStart, sealed)) = none) :
      (gateAllWindowReports s targets).map gateReads =
        targets.map fun _ => ⟨none, none, none, []⟩ := by
    unfold gateAllWindowReports
    rw [hm]
    simp only [map_map]
    exact map_congr_left fun t _ => rfl
  cases hm : s.materialization with
  | none =>
    rw [hunsealed (by rw [hm]; rfl)]
    refine map_congr_left fun t _ => ?_
    unfold serviceReliabilityReport
    rw [hm]
    dsimp only
    split <;> rfl
  | some m =>
    cases hsealed : m.sealedThrough with
    | none =>
      rw [hunsealed (by rw [hm, Option.bind_some, hsealed]; rfl)]
      refine map_congr_left fun t _ => ?_
      unfold serviceReliabilityReport
      simp only [hm, hsealed]
      rfl
    | some sealed =>
      rw [gateAllWindowReports_eq hm hsealed hn hin, map_map]
      rfl

end Agreement

/-! ## Burn windows -/

/-- A window that ends at the watermark, with its objective. -/
structure BurnWindowRequest where
  label : String
  duration : Int
  objective : Rat
  era : Int
  sealed : Int
  deriving DecidableEq, Repr

/-- What the query sums up in such a window. -/
structure BurnWindowAggregate where
  sealedBuckets : Int
  revisions : Nat
  durations : ReliabilityDurations
  deriving DecidableEq, Repr

/-- The burn of a window and what it was computed from. -/
structure ServiceBurnWindow extends BurnWindow where
  window : String
  expectedBuckets : Int
  sealedBuckets : Int
  storageContinuity : Bool
  coverage : Rat
  deriving DecidableEq, Repr

/-- `sla.BurnRate`. -/
def burnRate (objective : Rat) (up total : Int) : Rat :=
  let allowed := 1 - objective / 100
  if allowed ≤ 0 ∨ total ≤ 0 then 0 else (1 - up / total) / allowed

/-- `decideBurnWindow`: the first reason to withhold the rate wins. -/
def decideBurnWindow (r : BurnWindowRequest) (a : BurnWindowAggregate) (asOf : Int) :
    ServiceBurnWindow :=
  let expected := r.duration.tdiv canonicalBucket
  let continuity : Bool := a.sealedBuckets = expected
  let coverage := decidableCoverage a.durations
  let measured := a.durations.goodUs + a.durations.badUs
  let verdict : BurnWindow :=
    if r.sealed ≤ asOf - r.duration then ⟨.insufficientSealed, some .staleWatermark, none⟩
    else if r.sealed - r.duration < r.era then ⟨.insufficientHistory, some .eraShort, none⟩
    else if !continuity then ⟨.partially, some .storageGap, none⟩
    else if 1 < a.revisions then ⟨.unavailable, some .spansRevisions, none⟩
    else if measured = 0 then ⟨.unavailable, some .zeroDecidable, none⟩
    else
      let rate := burnRate r.objective a.durations.goodUs measured
      if coverage < minDecidableCoverage then ⟨.partially, some .lowCoverage, some rate⟩
      else ⟨.ok, none, some rate⟩
  { verdict with
    window := r.label
    expectedBuckets := expected
    sealedBuckets := a.sealedBuckets
    storageContinuity := continuity
    coverage := coverage }

section Withholding

variable {r : BurnWindowRequest} {a : BurnWindowAggregate} {asOf : Int}

/-- The report's verdict about the window of a request. -/
def BurnWindowRequest.report (r : BurnWindowRequest) (a : BurnWindowAggregate) :
    ServiceWindowVerdict :=
  decideServiceWindow a.durations a.sealedBuckets (r.duration.tdiv canonicalBucket) a.revisions
    (r.sealed - r.duration) r.era

/-- The window lies in the era, is stored without a gap, and something of it was measured. -/
def BurnWindowRequest.Vouched (r : BurnWindowRequest) (a : BurnWindowAggregate) : Prop :=
  r.era ≤ r.sealed - r.duration ∧ a.sealedBuckets = r.duration.tdiv canonicalBucket ∧
    0 < a.durations.goodUs + a.durations.badUs

open BurnWindowRequest

theorem decideBurnWindow_iff (hgood : 0 ≤ a.durations.goodUs) (hbad : 0 ≤ a.durations.badUs)
    (hfresh : asOf - r.duration < r.sealed) :
    ((decideBurnWindow r a asOf).rate.isSome ↔ r.Vouched a ∧ a.revisions ≤ 1) ∧
    ((decideBurnWindow r a asOf).reason = some .lowCoverage ↔
      (r.Vouched a ∧ decidableCoverage a.durations < minDecidableCoverage) ∧ a.revisions ≤ 1) ∧
    ((decideBurnWindow r a asOf).status = .ok ↔
      (r.Vouched a ∧ minDecidableCoverage ≤ decidableCoverage a.durations) ∧ a.revisions ≤ 1) := by
  have hstale : ¬r.sealed ≤ asOf - r.duration := by omega
  simp only [decideBurnWindow, Vouched, if_neg hstale]
  refine ⟨?_, ?_, ?_⟩ <;> split_ifs <;> simp_all <;> omega

theorem report_iff (hgood : 0 ≤ a.durations.goodUs) (hbad : 0 ≤ a.durations.badUs) :
    ((r.report a).availability.isSome ↔ r.Vouched a ∧ a.revisions = 1) ∧
    ((r.report a).reason = some .lowCoverage ↔
      r.Vouched a ∧ decidableCoverage a.durations < minDecidableCoverage) ∧
    ((r.report a).status = .ok ↔
      r.Vouched a ∧ minDecidableCoverage ≤ decidableCoverage a.durations) := by
  simp only [report, decideServiceWindow, availabilityPercent, Vouched]
  refine ⟨?_, ?_, ?_⟩ <;> split_ifs <;> simp_all <;> omega

theorem firing_of_hold {w : BurnWindow × BurnWindow × Rat} {firing : Bool}
    (h : (decideBurnRule w.1 w.2.1 w.2.2 firing).firing ≠ firing) :
    (w.1.status = .ok ∧ w.1.rate.isSome) ∧ w.2.1.status = .ok ∧ w.2.1.rate.isSome := by
  have hquotable : ∀ {b : BurnWindow} {rate : Rat}, b.quotable = some rate →
      b.status = .ok ∧ b.rate.isSome := by
    intro b rate hb
    unfold BurnWindow.quotable at hb
    split at hb
    · next hok => exact ⟨hok, by rw [hb]; rfl⟩
    · cases hb
  unfold decideBurnRule at h
  split at h
  · exact absurd rfl h
  rename_i hlong
  split at h
  · exact absurd rfl h
  · next hshort => exact ⟨hquotable hlong, hquotable hshort⟩

theorem level_of_held {windows : List (BurnWindow × BurnWindow × Rat)} {level : Bool}
    (h : windows.foldl (fun firing w => (decideBurnRule w.1 w.2.1 w.2.2 firing).firing) level ≠
      level) :
    ∃ w ∈ windows, (w.1.status = .ok ∧ w.1.rate.isSome) ∧ w.2.1.status = .ok ∧
      w.2.1.rate.isSome := by
  induction windows generalizing level with
  | nil => exact absurd rfl h
  | cons w windows ih =>
    by_cases hw : (decideBurnRule w.1 w.2.1 w.2.2 level).firing = level
    · rw [foldl_cons, hw] at h
      obtain ⟨w', hw', hok⟩ := ih h
      exact ⟨w', mem_cons_of_mem w hw', hok⟩
    · exact ⟨w, mem_cons_self, firing_of_hold hw⟩

/-- **One withholding rule.** Where the watermark is not stale, a burn window is quoted exactly if
its report is; of one revision at most, the two agree on low coverage and on `ok`. Held windows
never change a rule's level. -/
theorem withholding_agrees (hgood : 0 ≤ a.durations.goodUs) (hbad : 0 ≤ a.durations.badUs)
    (hrevisions : 0 < a.durations.goodUs + a.durations.badUs → 1 ≤ a.revisions)
    (hfresh : asOf - r.duration < r.sealed) :
    ((decideBurnWindow r a asOf).rate.isSome ↔ (r.report a).availability.isSome) ∧
    ((decideBurnWindow r a asOf).reason = some .lowCoverage ↔
      (r.report a).reason = some .lowCoverage ∧ a.revisions ≤ 1) ∧
    ((decideBurnWindow r a asOf).status = .ok ↔ (r.report a).status = .ok ∧ a.revisions ≤ 1) ∧
    (1 < a.revisions → (decideBurnWindow r a asOf).rate = none ∧ (r.report a).availability = none) ∧
    ∀ (level : Bool) (windows : List (BurnWindow × BurnWindow × Rat)),
      windows.foldl (fun firing w => (decideBurnRule w.1 w.2.1 w.2.2 firing).firing) level ≠ level →
      ∃ w ∈ windows, (w.1.status = .ok ∧ w.1.rate.isSome) ∧ w.2.1.status = .ok ∧
        w.2.1.rate.isSome := by
  obtain ⟨hrate, hlow, hok⟩ := decideBurnWindow_iff hgood hbad hfresh
  obtain ⟨havailability, hlow', hok'⟩ := @report_iff r a hgood hbad
  have hquoted : (decideBurnWindow r a asOf).rate.isSome ↔ (r.report a).availability.isSome := by
    rw [hrate, havailability]
    refine and_congr_right fun h => ?_
    have := hrevisions h.2.2
    omega
  refine ⟨hquoted, hlow.trans (and_congr_left' hlow'.symm), hok.trans (and_congr_left' hok'.symm),
    fun hspan => ?_, fun _ _ => level_of_held⟩
  have hnone : ¬(decideBurnWindow r a asOf).rate.isSome := fun h => by
    have := (hrate.1 h).2
    omega
  exact ⟨Option.not_isSome_iff_eq_none.1 hnone,
    Option.not_isSome_iff_eq_none.1 fun h => hnone (hquoted.2 h)⟩

/-- Five minutes of two revisions, of which one second was measured. -/
def spanningWindow : BurnWindowRequest × BurnWindowAggregate :=
  (⟨"5m", 5 * canonicalBucket, 99, 0, 5 * canonicalBucket⟩,
    ⟨5, 2, ⟨1000000, 0, 299000000, 0, 1000000, 0, 0, 299000000⟩⟩)

/-- The report names the low coverage of a window that spans revisions, the burn window does not. -/
theorem lowCoverage_differs :
    (spanningWindow.1.report spanningWindow.2).reason = some .lowCoverage ∧
      (decideBurnWindow spanningWindow.1 spanningWindow.2 (5 * canonicalBucket)).reason =
        some .spansRevisions := by
  decide +kernel

theorem withholding_agrees_spanning :
    (decideBurnWindow spanningWindow.1 spanningWindow.2 (5 * canonicalBucket)).rate = none ∧
      (spanningWindow.1.report spanningWindow.2).availability = none :=
  (withholding_agrees (by decide) (by decide) (fun _ => by decide) (by decide)).2.2.2.1 (by decide)

end Withholding

end Cerbix.Gate
