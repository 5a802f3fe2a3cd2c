import Cerbix.Lib.Except
import Cerbix.Lib.Timeline
import Cerbix.Service.Repair

/-!
# Declarations and evaluation epochs

The two axes of a service's history (`putServiceDeclarationTx` in `internal/store/services.go`,
`bumpEpochForService` in `serviceepochs.go`): definition revisions say what was declared, evaluation
epochs what was measured. Both are timelines, and a write that lands on a boundary displaces the row
that had claimed it. A row's id is its number within the service.

`Declarations.Coherent` holds in every run. That numbers increase along the timeline needs the first
revision not to be declared for the future (`declarations_ordered_of_retroactive`,
`futureBackfill_not_ordered`).
-/

namespace Cerbix.Service

open Cerbix.Lib Cerbix.Domain List Go

/-! ## Snapshots -/

/-- What a snapshot reads of a monitor row. `canonical` is the form of its evaluation semantics,
which a credentialed monitor with unreadable settings lacks. -/
structure Monitor where
  id : String
  type : MonitorType
  region : String
  enabled : Bool
  intervalSeconds : Int
  graceSeconds : Int
  armedAt : Int
  canonical : Option String
  deriving DecidableEq, Repr

/-- What an epoch fixes of a monitor. -/
structure EvaluationSemantics where
  type : MonitorType
  region : String
  enabled : Bool
  canonical : String
  deriving DecidableEq, Repr

/-- A member of an epoch, with when its evidence goes stale. -/
structure EpochMember where
  monitorID : String
  semantics : EvaluationSemantics
  staleAfter : Int
  armedAt : Int
  deriving DecidableEq, Repr

/-- Why a declaration is refused. -/
inductive DeclarationError
  | sliNotInContext
  | revisionConflict
  | tooManyMembers (declared limit : Nat)
  | monitorInTooManyServices (id : String) (services limit : Nat)
  | unreadableSettings (id : String)
  | notAMonitor (id : String)
  | policies (e : PolicyError)
  | retroactiveNotFirstRevision
  deriving DecidableEq, Repr

def DeclarationError.message : DeclarationError → String
  | .sliNotInContext => "store: every sli member must also be in monitors"
  | .revisionConflict => "store: service declaration changed since it was read"
  | .tooManyMembers n limit =>
    "store: too many members in one declaration: " ++ toString n ++ " declared, cap " ++
      toString limit
  | .monitorInTooManyServices id n limit =>
    "store: monitor is a reliability input for too many services: " ++ id ++
      " would be an input for " ++ toString n ++ " services, cap " ++ toString limit
  | .unreadableSettings id => "domain: evaluation semantics: " ++ id
  | .notAMonitor id =>
    "store: declared sli member " ++ id ++ " is not a monitor in this project"
  | .policies e => e.message
  | .retroactiveNotFirstRevision => "store: only the first revision may be retroactive"

/-- The member that a monitor is now. -/
def Monitor.snapshot (f : FreshnessPolicy) (m : Monitor) : Except DeclarationError EpochMember :=
  match m.canonical with
  | none => .error (.unreadableSettings m.id)
  | some canonical => .ok
    { monitorID := m.id
      semantics := ⟨m.type, m.region, m.enabled, canonical⟩
      staleAfter := resolveStaleAfter f m.type (wrap64 (m.intervalSeconds * second))
        (wrap64 (m.graceSeconds * second))
      armedAt := m.armedAt }

def findMember (rows : List EpochMember) (id : String) : Except DeclarationError EpochMember :=
  match rows.find? fun m => m.monitorID = id with
  | some m => .ok m
  | none => .error (.notAMonitor id)

/-- The members of an epoch, as the project's monitors are now. -/
def loadEpochMembers (project : List Monitor) (sli : List String) (p : ServicePolicies) :
    Except DeclarationError (List EpochMember) :=
  if sli = [] then .ok []
  else do
    let rows ← (project.filter fun m => m.id ∈ sli).mapM (Monitor.snapshot p.freshness.orDefault)
    sli.mapM (findMember rows)

/-- A revision or an epoch that another replaced at its boundary never took effect. -/
inductive RevisionState
  | effective | supersededBeforeEffect
  deriving DecidableEq, Repr

/-- A revision of a service's declaration. -/
structure Revision where
  revision : Nat
  effectiveAt : Int
  state : RevisionState
  monitors : List String
  sli : List String
  policies : ServicePolicies
  deriving DecidableEq, Repr

/-- An execution epoch: the monitors of a revision as they were. -/
structure Epoch where
  seq : Nat
  revision : Nat
  effectiveAt : Int
  state : RevisionState
  members : List EpochMember
  snapshotHash : String
  deriving DecidableEq, Repr

/-- All that was declared of one service. -/
structure Declarations where
  revisions : List Revision
  epochs : List Epoch
  clock : Int
  deriving DecidableEq, Repr

variable (d : Declarations)

namespace Declarations

def empty (clock : Int) : Declarations := ⟨[], [], clock⟩

def effectiveRevisions : List Revision :=
  d.revisions.filter fun r => r.state = .effective

def effectiveEpochs : List Epoch :=
  d.epochs.filter fun e => e.state = .effective

/-- The revision in force. -/
def governing (t : Int) : Option Revision :=
  inForce Revision.effectiveAt Revision.revision d.effectiveRevisions t

/-- The epoch in force. -/
def epochAt (t : Int) : Option Epoch :=
  inForce Epoch.effectiveAt Epoch.seq d.effectiveEpochs t

/-- `COALESCE(MAX(revision), 0)` over the effective revisions. -/
def currentRevision : Nat :=
  (d.effectiveRevisions.map Revision.revision).foldr max 0

/-- `COALESCE(MAX(epoch_seq), 0) + 1` over all epochs. -/
def nextSeq : Nat := (d.epochs.map Epoch.seq).foldr max 0 + 1

def policiesOf (revision : Nat) : Option ServicePolicies :=
  (d.revisions.find? fun r => r.revision = revision).map Revision.policies

end Declarations

/-! ## Writes -/

/-- How many monitors a service may name, and services a monitor. -/
structure ServiceLimits where
  membersPerRevision : Int
  servicesPerMonitor : Int
  deriving DecidableEq, Repr

def pickLimit (v default hard : Int) : Int := min (if v ≤ 0 then default else v) hard

/-- A limit that is not set has a default, and none goes beyond its maximum. -/
def capServiceLimits (l : ServiceLimits) : ServiceLimits where
  membersPerRevision := pickLimit l.membersPerRevision 50 200
  servicesPerMonitor := pickLimit l.servicesPerMonitor 10 25

/-- The hash of an epoch and the limits. -/
structure Config where
  hash : List EpochMember → String
  limits : ServiceLimits

/-- A declaration write with what its transaction reads: the project's monitors, how many other
services declare each, and the clock. -/
structure DeclarationWrite where
  monitors : List String
  sli : List String
  policies : ServicePolicies
  expectedRevision : Int
  backfillFrom : Int
  project : List Monitor
  otherServices : String → Nat
  now : Int

/-- The named ids, sorted and without repetition. -/
def dedupeIDs (ids : List String) : List String :=
  (ids.filter fun id => id ≠ "").dedup.insertionSort (· ≤ ·)

variable (cfg : Config)

/-- The limits on members and on services per monitor. -/
def enforceDeclarationBounds (otherServices : String → Nat)
    (monitors sli : List String) : Except DeclarationError Unit :=
  let limits := capServiceLimits cfg.limits
  if (monitors.length : Int) > limits.membersPerRevision then
    .error (.tooManyMembers monitors.length limits.membersPerRevision.toNat)
  else
    match sli.find? fun id =>
        0 < otherServices id ∧ (otherServices id : Int) + 1 > limits.servicesPerMonitor with
    | some id =>
      .error (.monitorInTooManyServices id (otherServices id + 1) limits.servicesPerMonitor.toNat)
    | none => .ok ()

/-- A revision at the boundary never takes effect. -/
def supersedeRevisions (rs : List Revision) (boundary : Int) : List Revision :=
  rs.map fun r =>
    if r.effectiveAt = boundary ∧ r.state = .effective then
      { r with state := .supersededBeforeEffect }
    else r

/-- An epoch at the boundary never takes effect. -/
def supersedeEpochs (es : List Epoch) (boundary : Int) : List Epoch :=
  es.map fun e =>
    if e.effectiveAt = boundary ∧ e.state = .effective then
      { e with state := .supersededBeforeEffect }
    else e

namespace Declarations

/-- The epochs that a write at the boundary replaces. -/
def displacedEpochs (boundary : Int) : List Origin :=
  (d.effectiveEpochs.filter fun e => e.effectiveAt = boundary).map fun e => .epoch e.seq

/-- The revisions that a write at the boundary replaces. -/
def displacedRevisions (boundary : Int) : List Origin :=
  (d.effectiveRevisions.filter fun r => r.effectiveAt = boundary).map fun r =>
    .revision r.revision

/-- Open an epoch in the place of one at the same boundary. -/
def insertEpoch (cfg : Config) (revision : Nat) (effectiveAt : Int)
    (members : List EpochMember) : Declarations :=
  { d with
    epochs := supersedeEpochs d.epochs effectiveAt ++
      [⟨d.nextSeq, revision, effectiveAt, .effective, members, cfg.hash members⟩] }

/-- Any revision that claims the boundary yields to the new one, whose reliability inputs are stored
as roles of its monitors. -/
def insertRevision (effectiveAt : Int) (monitors sli : List String)
    (policies : ServicePolicies) : Declarations :=
  { d with
    revisions := supersedeRevisions d.revisions effectiveAt ++
      [⟨d.currentRevision + 1, effectiveAt, .effective, monitors,
        monitors.filter fun id => id ∈ sli, policies⟩] }

/-- The boundary a write claims: the next one, or for a first revision that adopts history the one
at or before the backfill instant. -/
def boundaryOf (w : DeclarationWrite) : Except DeclarationError Int :=
  if isZero w.backfillFrom then .ok (ceilToBucket w.now)
  else if d.currentRevision ≠ 0 then .error .retroactiveNotFirstRevision
  else .ok (floorToBucket w.backfillFrom)

/-- What a declaration write leaves. -/
structure Declared where
  decls : Declarations
  effectiveAt : Int
  sli : List String
  displaced : List Origin

/-- Policies are defaulted and validated against the members; a service without inputs keeps what it
was given. -/
def policiesFor (raw : ServicePolicies) (members : List EpochMember) :
    Except DeclarationError ServicePolicies :=
  if members = [] then .ok raw
  else (acceptPolicies raw (members.map (·.semantics.region))).mapError .policies

/-- The transaction of a declaration write. -/
def putTx (d : Declarations) (w : DeclarationWrite) (monitors sli : List String) :
    Except DeclarationError Declared :=
  if (d.currentRevision : Int) ≠ w.expectedRevision then .error .revisionConflict
  else do
    enforceDeclarationBounds cfg w.otherServices monitors sli
    let members ← loadEpochMembers w.project sli w.policies
    let policies ← policiesFor w.policies members
    let effectiveAt ← d.boundaryOf w
    let declared := d.insertRevision effectiveAt monitors sli policies
    return {
      decls := { declared.insertEpoch cfg (d.currentRevision + 1) effectiveAt members with
        clock := w.now }
      effectiveAt := effectiveAt
      sli := sli
      displaced := d.displacedRevisions effectiveAt ++ d.displacedEpochs effectiveAt }

/-- A declaration write; every SLI member is one of the monitors. -/
def put (d : Declarations) (w : DeclarationWrite) : Except DeclarationError Declared :=
  let monitors := dedupeIDs w.monitors
  let sli := dedupeIDs w.sli
  if ∀ id ∈ sli, id ∈ monitors then putTx cfg d w monitors sli else .error .sliNotInContext

/-- The hash of the latest epoch. -/
def currentHash : String :=
  match firstBy (newer Epoch.effectiveAt Epoch.seq) d.effectiveEpochs with
  | some e => e.snapshotHash
  | none => ""

/-- `bumpEpochForService`: an execution write snapshots the declaration in force at its boundary,
unless the evaluator's inputs are the same. -/
def bump (d : Declarations) (project : List Monitor) (now : Int) :
    Except DeclarationError (Declarations × List Origin) :=
  let effectiveAt := ceilToBucket now
  let d := { d with clock := now }
  match d.governing effectiveAt with
  | none => .ok (d, [])
  | some r =>
    let sli := r.sli.insertionSort (· ≤ ·)
    if sli = [] then .ok (d, [])
    else do
      let members ← loadEpochMembers project sli r.policies
      if d.currentHash = cfg.hash members then return (d, [])
      return (d.insertEpoch cfg r.revision effectiveAt members, d.displacedEpochs effectiveAt)

end Declarations

/-- What happens to the declarations of a service. -/
inductive DeclarationOp
  | put (w : DeclarationWrite)
  | bump (project : List Monitor) (now : Int)
  | tick (now : Int)

def DeclarationOp.now : DeclarationOp → Int
  | .put w => w.now
  | .bump _ now => now
  | .tick now => now

/-- One transaction; the database clock does not run backwards. -/
def Declarations.step (d : Declarations) (op : DeclarationOp) : Option Declarations :=
  if op.now < d.clock then none
  else
    match op with
    | .put w => (d.put cfg w).toOption.map (·.decls)
    | .bump project now => (d.bump cfg project now).toOption.map (·.1)
    | .tick now => some { d with clock := now }

/-! ## What a write does to the effective rows -/

theorem filter_effective_supersedeRevisions (rs : List Revision) (boundary : Int) :
    (supersedeRevisions rs boundary).filter (fun r => r.state = .effective) =
      (rs.filter fun r => r.state = .effective).filter fun r => r.effectiveAt ≠ boundary := by
  induction rs with
  | nil => rfl
  | cons r rs ih =>
    rw [supersedeRevisions] at ih ⊢
    by_cases hs : r.state = .effective <;> by_cases hb : r.effectiveAt = boundary <;>
      simp [hs, hb, ih]

theorem filter_effective_supersedeEpochs (es : List Epoch) (boundary : Int) :
    (supersedeEpochs es boundary).filter (fun e => e.state = .effective) =
      (es.filter fun e => e.state = .effective).filter fun e => e.effectiveAt ≠ boundary := by
  induction es with
  | nil => rfl
  | cons e es ih =>
    rw [supersedeEpochs] at ih ⊢
    by_cases hs : e.state = .effective <;> by_cases hb : e.effectiveAt = boundary <;>
      simp [hs, hb, ih]

theorem findMember_id {rows : List EpochMember} {id : String} {m : EpochMember}
    (h : findMember rows id = .ok m) : m.monitorID = id := by
  unfold findMember at h
  split at h
  · next hf =>
    cases h
    simpa using List.find?_some hf
  · cases h

theorem loadEpochMembers_ids {project : List Monitor} {sli : List String} {p : ServicePolicies}
    {members : List EpochMember} (h : loadEpochMembers project sli p = .ok members) :
    members.map (·.monitorID) = sli := by
  unfold loadEpochMembers at h
  split at h
  · next hs =>
    cases h
    exact hs.symm
  · obtain ⟨rows, -, h⟩ := bind_eq_ok.1 h
    have := (mapM_eq_ok h).imp fun _ _ => findMember_id
    rw [← map_id sli]
    exact (forall₂_eq_eq_eq ▸ (forall₂_map_left_iff.2 (forall₂_map_right_iff.2 this.flip)))

namespace Declarations

variable {cfg : Config} {d d' : Declarations}

@[simp]
theorem effectiveRevisions_insertRevision (b : Int) (monitors sli : List String)
    (p : ServicePolicies) : (d.insertRevision b monitors sli p).effectiveRevisions =
      place Revision.effectiveAt d.effectiveRevisions
        ⟨d.currentRevision + 1, b, .effective, monitors,
          monitors.filter fun id => id ∈ sli, p⟩ := by
  simp [effectiveRevisions, insertRevision, filter_effective_supersedeRevisions, place]

@[simp]
theorem effectiveEpochs_insertEpoch (revision : Nat) (b : Int) (members : List EpochMember) :
    (d.insertEpoch cfg revision b members).effectiveEpochs =
      place Epoch.effectiveAt d.effectiveEpochs
        ⟨d.nextSeq, revision, b, .effective, members, cfg.hash members⟩ := by
  simp [effectiveEpochs, insertEpoch, filter_effective_supersedeEpochs, place]

theorem le_currentRevision {r : Revision} (h : r ∈ d.effectiveRevisions) :
    r.revision ≤ d.currentRevision :=
  le_max_of_le (mem_map_of_mem h) le_rfl

theorem lt_nextSeq {e : Epoch} (h : e ∈ d.epochs) : e.seq < d.nextSeq :=
  Nat.lt_succ_of_le (le_max_of_le (mem_map_of_mem h) le_rfl)

theorem lt_nextSeq_of_effective {e : Epoch} (h : e ∈ d.effectiveEpochs) : e.seq < d.nextSeq :=
  lt_nextSeq (mem_filter.1 h).1

/-- What a declaration write that succeeds has checked and written. -/
structure PutSpec (cfg : Config) (d : Declarations) (w : DeclarationWrite)
    (r : Declared) : Prop where
  sli : r.sli = dedupeIDs w.sli
  context : ∀ id ∈ r.sli, id ∈ dedupeIDs w.monitors
  boundary : d.boundaryOf w = .ok r.effectiveAt
  displaced : r.displaced = d.displacedRevisions r.effectiveAt ++ d.displacedEpochs r.effectiveAt
  decls : ∃ policies members, members.map EpochMember.monitorID = r.sli ∧
    r.decls = { (d.insertRevision r.effectiveAt (dedupeIDs w.monitors) r.sli policies).insertEpoch
      cfg (d.currentRevision + 1) r.effectiveAt members with clock := w.now }

theorem put_spec {w : DeclarationWrite} {r : Declared} (h : d.put cfg w = .ok r) :
    PutSpec cfg d w r := by
  unfold put at h
  simp only at h
  split at h
  · next hctx =>
    unfold putTx at h
    split at h
    · cases h
    obtain ⟨_, -, h⟩ := bind_eq_ok.1 h
    obtain ⟨members, hm, h⟩ := bind_eq_ok.1 h
    obtain ⟨policies, -, h⟩ := bind_eq_ok.1 h
    obtain ⟨b, hb, h⟩ := bind_eq_ok.1 h
    cases h
    exact ⟨rfl, hctx, hb, rfl, policies, members, loadEpochMembers_ids hm, rfl⟩
  · cases h

theorem bump_cases {project : List Monitor} {now : Int} {o : List Origin}
    (h : d.bump cfg project now = .ok (d', o)) : (d' = { d with clock := now } ∧ o = []) ∨
    ∃ r members, d.governing (ceilToBucket now) = some r ∧
      members.map EpochMember.monitorID = r.sli.insertionSort (· ≤ ·) ∧
      d' = { d with clock := now }.insertEpoch cfg r.revision (ceilToBucket now) members ∧
      o = d.displacedEpochs (ceilToBucket now) := by
  unfold bump at h
  simp only at h
  split at h
  · cases h
    exact .inl ⟨rfl, rfl⟩
  · next r hr =>
    split at h
    · cases h
      exact .inl ⟨rfl, rfl⟩
    · obtain ⟨members, hm, h⟩ := bind_eq_ok.1 h
      split at h
      · cases h
        exact .inl ⟨rfl, rfl⟩
      · cases h
        exact .inr ⟨r, members, hr, loadEpochMembers_ids hm, rfl, rfl⟩

end Declarations

/-! ## The invariant of the two axes -/

/-- The epoch snapshots the revision in force where it starts; beyond the next boundary it is the
one its own revision brought. -/
structure Epoch.Snapshots (e : Epoch) (d : Declarations) (r : Revision) : Prop where
  governs : Governs Revision.effectiveAt d.effectiveRevisions e.effectiveAt r
  revision : e.revision = r.revision
  members : ∀ id, id ∈ e.members.map EpochMember.monitorID ↔ id ∈ r.sli
  future : ceilToBucket d.clock < e.effectiveAt → r.effectiveAt = e.effectiveAt

/-- No two effective revisions, or epochs, begin at one instant. -/
structure Declarations.Inv (d : Declarations) : Prop where
  revisionStarts : Distinct Revision.effectiveAt d.effectiveRevisions
  epochStarts : Distinct Epoch.effectiveAt d.effectiveEpochs
  numbered : ∀ r ∈ d.revisions, 1 ≤ r.revision ∧ r.revision ≤ d.currentRevision
  numbers : (d.revisions.map Revision.revision).Nodup
  aligned : ∀ r ∈ d.revisions, Aligned r.effectiveAt
  answered : ∀ r ∈ d.effectiveRevisions, ∃ e ∈ d.effectiveEpochs, e.effectiveAt = r.effectiveAt
  snapshots : ∀ e ∈ d.effectiveEpochs, ∃ r, e.Snapshots d r

namespace Declarations

variable {cfg : Config} {d d' : Declarations}

theorem empty_inv (clock : Int) : (empty clock).Inv := by
  constructor <;> simp [empty, effectiveRevisions, effectiveEpochs, Distinct]

variable {r : Revision} {w : DeclarationWrite} {b : Int}

theorem mem_revisions_of_effective (h : r ∈ d.effectiveRevisions) : r ∈ d.revisions :=
  (mem_filter.1 h).1

theorem Inv.effectiveRevisions_eq_nil (h : d.Inv) (hc : d.currentRevision = 0) :
    d.effectiveRevisions = [] := by
  refine eq_nil_iff_forall_not_mem.2 fun r hr => ?_
  have := h.numbered r (mem_revisions_of_effective hr)
  omega

theorem Inv.effectiveEpochs_eq_nil (h : d.Inv) (hc : d.currentRevision = 0) :
    d.effectiveEpochs = [] := by
  refine eq_nil_iff_forall_not_mem.2 fun e he => ?_
  obtain ⟨r, hr⟩ := h.snapshots e he
  have := hr.governs.mem
  simp [h.effectiveRevisions_eq_nil hc] at this

theorem Inv.tick (h : d.Inv) {now : Int} (hnow : d.clock ≤ now) : { d with clock := now }.Inv where
  revisionStarts := h.revisionStarts
  epochStarts := h.epochStarts
  numbered := h.numbered
  numbers := h.numbers
  aligned := h.aligned
  answered := h.answered
  snapshots := by
    intro e he
    obtain ⟨r, hg, hrev, hm, hf⟩ := h.snapshots e he
    exact ⟨r, hg, hrev, hm, fun hlt => hf (lt_of_le_of_lt (ceilToBucket_mono hnow) hlt)⟩

theorem boundaryOf_cases (h : d.boundaryOf w = .ok b) :
    b = ceilToBucket w.now ∧ isZero w.backfillFrom ∨
      d.currentRevision = 0 ∧ ¬ isZero w.backfillFrom ∧ b = floorToBucket w.backfillFrom := by
  unfold boundaryOf at h
  split at h
  · next hz =>
    cases h
    exact .inl ⟨rfl, hz⟩
  · next hz =>
    split at h
    · cases h
    rename_i hc
    cases h
    exact .inr ⟨not_not.1 hc, hz, rfl⟩

theorem boundaryOf_aligned (h : d.boundaryOf w = .ok b) : Aligned b := by
  rcases boundaryOf_cases h with ⟨rfl, -⟩ | ⟨-, -, rfl⟩
  · exact ceilToBucket_aligned _
  · exact floorToBucket_aligned _

theorem Inv.snapshot_before (h : d.Inv)
    (hb : d.boundaryOf w = .ok b) (hnow : d.clock ≤ w.now) {e : Epoch}
    (hr : e.Snapshots d r) (hlt : b < e.effectiveAt) : r.effectiveAt = e.effectiveAt := by
  rcases boundaryOf_cases hb with ⟨rfl, -⟩ | ⟨hc, -⟩
  · exact hr.future (lt_of_le_of_lt (ceilToBucket_mono hnow) hlt)
  · have := hr.governs.mem
    simp [h.effectiveRevisions_eq_nil hc] at this

theorem currentRevision_insertRevision (h : d.Inv) (b : Int) (monitors sli : List String)
    (p : ServicePolicies) :
    (d.insertRevision b monitors sli p).currentRevision = d.currentRevision + 1 := by
  apply le_antisymm
  · refine max_le_of_forall_le _ _ fun n hn => ?_
    obtain ⟨r, hr, rfl⟩ := mem_map.1 hn
    rw [effectiveRevisions_insertRevision] at hr
    rcases mem_place.1 hr with ⟨hr, -⟩ | rfl
    · have := h.numbered r (mem_revisions_of_effective hr)
      omega
    · exact le_rfl
  · refine le_max_of_le (mem_map.2 ⟨⟨d.currentRevision + 1, b, .effective, monitors,
      monitors.filter fun id => id ∈ sli, p⟩, ?_, rfl⟩) le_rfl
    rw [effectiveRevisions_insertRevision]
    exact mem_place.2 (.inr rfl)

theorem supersedeRevisions_map_revision (rs : List Revision) (b : Int) :
    (supersedeRevisions rs b).map Revision.revision = rs.map Revision.revision := by
  rw [supersedeRevisions, map_map]
  refine map_congr_left fun r _ => ?_
  simp only [Function.comp_apply]
  split <;> rfl

theorem mem_supersedeRevisions {rs : List Revision} (h : r ∈ supersedeRevisions rs b) :
    ∃ r₀ ∈ rs, r.revision = r₀.revision ∧ r.effectiveAt = r₀.effectiveAt := by
  obtain ⟨r₀, hr₀, rfl⟩ := mem_map.1 h
  refine ⟨r₀, hr₀, ?_⟩
  split <;> exact ⟨rfl, rfl⟩

end Declarations

namespace Declarations

variable {cfg : Config} {d d' : Declarations}

theorem answered_place {rs : List Revision} {es : List Epoch} {x : Epoch}
    (h : ∀ r ∈ rs, r.effectiveAt ≠ x.effectiveAt → ∃ e ∈ es, e.effectiveAt = r.effectiveAt) :
    ∀ r ∈ rs, ∃ e ∈ place Epoch.effectiveAt es x, e.effectiveAt = r.effectiveAt := by
  intro r hr
  by_cases hx : r.effectiveAt = x.effectiveAt
  · exact ⟨x, mem_place.2 (.inr rfl), hx.symm⟩
  · obtain ⟨e, he, hat⟩ := h r hr hx
    exact ⟨e, mem_place.2 (.inl ⟨he, by rwa [hat]⟩), hat⟩

theorem Inv.put (h : d.Inv) {w : DeclarationWrite} {r : Declared} (hnow : d.clock ≤ w.now)
    (hput : d.put cfg w = .ok r) : r.decls.Inv := by
  obtain ⟨-, hctx, hb, -, policies, members, hids, hd⟩ := put_spec hput
  have hcur := currentRevision_insertRevision h r.effectiveAt (dedupeIDs w.monitors) r.sli policies
  rw [hd]
  refine ⟨?_, ?_, ?_, ?_, ?_, ?_, ?_⟩
  · show Distinct _ (d.insertRevision _ _ _ _).effectiveRevisions
    rw [effectiveRevisions_insertRevision]
    exact h.revisionStarts.place
  · show Distinct _ (insertEpoch _ _ _ _ _).effectiveEpochs
    rw [effectiveEpochs_insertEpoch]
    exact h.epochStarts.place
  · intro r' hr'
    show _ ∧ _ ≤ (d.insertRevision _ _ _ _).currentRevision
    rw [hcur]
    rcases mem_concat.1 hr' with hr' | rfl
    · obtain ⟨r₀, hr₀, hn, -⟩ := mem_supersedeRevisions hr'
      have := h.numbered r₀ hr₀
      omega
    · exact ⟨by simp, le_rfl⟩
  · show ((supersedeRevisions d.revisions _ ++ _).map _).Nodup
    rw [map_append, supersedeRevisions_map_revision, nodup_append]
    refine ⟨h.numbers, by simp, ?_⟩
    intro n hn m hm
    obtain ⟨r₀, hr₀, rfl⟩ := mem_map.1 hn
    have := h.numbered r₀ hr₀
    simp only [map_cons, map_nil, mem_singleton] at hm
    omega
  · intro r' hr'
    rcases mem_concat.1 hr' with hr' | rfl
    · obtain ⟨r₀, hr₀, -, hat⟩ := mem_supersedeRevisions hr'
      rw [hat]
      exact h.aligned r₀ hr₀
    · exact boundaryOf_aligned hb
  · show ∀ r' ∈ (d.insertRevision _ _ _ _).effectiveRevisions,
      ∃ e ∈ (insertEpoch _ _ _ _ _).effectiveEpochs, _
    rw [effectiveEpochs_insertEpoch, effectiveRevisions_insertRevision]
    refine answered_place fun r' hr' hne => ?_
    rcases mem_place.1 hr' with ⟨hr', -⟩ | rfl
    · exact h.answered r' hr'
    · exact absurd rfl hne
  · show ∀ e ∈ (insertEpoch _ _ _ _ _).effectiveEpochs, _
    rw [effectiveEpochs_insertEpoch]
    intro e he
    rcases mem_place.1 he with ⟨he, hne⟩ | rfl
    · -- an epoch that stays: its revision is on the same side of the boundary as it is
      obtain ⟨r', hr'⟩ := h.snapshots e he
      refine ⟨r', ?_, hr'.revision, hr'.members, fun hlt => hr'.future
        (lt_of_le_of_lt (ceilToBucket_mono hnow) hlt)⟩
      show Governs _ (d.insertRevision _ _ _ _).effectiveRevisions _ _
      rw [effectiveRevisions_insertRevision]
      rcases lt_or_gt_of_ne hne with hlt | hgt
      · exact (governs_place_of_lt (by exact hlt)).2 hr'.governs
      · refine hr'.governs.place_of_lt ?_
        rw [h.snapshot_before hb hnow hr' hgt]
        exact hgt
    · refine ⟨⟨d.currentRevision + 1, r.effectiveAt, .effective, dedupeIDs w.monitors,
        (dedupeIDs w.monitors).filter fun id => id ∈ r.sli, policies⟩, ?_, rfl, ?_, fun _ => rfl⟩
      · show Governs _ (d.insertRevision _ _ _ _).effectiveRevisions _ _
        rw [effectiveRevisions_insertRevision]
        exact governs_place_self le_rfl fun _ _ hle => hle
      · intro id
        rw [hids]
        simp only [mem_filter, decide_eq_true_eq]
        exact ⟨fun hid => ⟨hctx id hid, hid⟩, fun hid => hid.2⟩

theorem Inv.bump (h : d.Inv) {project : List Monitor} {now : Int} {o : List Origin}
    (hnow : d.clock ≤ now) (hbump : d.bump cfg project now = .ok (d', o)) : d'.Inv := by
  have ht := h.tick hnow
  rcases bump_cases hbump with ⟨rfl, -⟩ | ⟨r, members, hr, hids, rfl, -⟩
  · exact ht
  refine ⟨ht.revisionStarts, ?_, ht.numbered, ht.numbers, ht.aligned, ?_, ?_⟩
  · rw [effectiveEpochs_insertEpoch]
    exact ht.epochStarts.place
  · rw [effectiveEpochs_insertEpoch]
    exact answered_place fun r' hr' _ => ht.answered r' hr'
  · rw [effectiveEpochs_insertEpoch]
    intro e he
    rcases mem_place.1 he with ⟨he, -⟩ | rfl
    · obtain ⟨r', hr'⟩ := ht.snapshots e he
      exact ⟨r', hr'.governs, hr'.revision, hr'.members, hr'.future⟩
    · refine ⟨r, governs_of_inForce hr, rfl, ?_, fun hlt => absurd hlt (lt_irrefl _)⟩
      intro id
      rw [hids]
      exact mem_insertionSort _

theorem step_cases {op : DeclarationOp} (h : d.step cfg op = some d') : d.clock ≤ op.now ∧
      ((∃ w r, op = .put w ∧ d.put cfg w = .ok r ∧ d' = r.decls) ∨
       (∃ project o, op = .bump project op.now ∧ d.bump cfg project op.now = .ok (d', o)) ∨
       d' = { d with clock := op.now }) := by
  unfold step at h
  split at h
  · cases h
  rename_i hnow
  refine ⟨not_lt.1 hnow, ?_⟩
  cases op with
  | put w =>
    cases hp : d.put cfg w with
    | error e => simp [hp, Except.toOption] at h
    | ok r => exact .inl ⟨w, r, rfl, hp, by simpa [hp, Except.toOption] using h.symm⟩
  | bump project now =>
    cases hp : d.bump cfg project now with
    | error e => simp [hp, Except.toOption] at h
    | ok r =>
      obtain rfl : r.1 = d' := by simpa [hp, Except.toOption] using h
      exact .inr (.inl ⟨project, r.2, rfl, hp⟩)
  | tick now => exact .inr (.inr (Option.some.inj h).symm)

theorem Inv.step (h : d.Inv) {op : DeclarationOp} (hs : d.step cfg op = some d') : d'.Inv := by
  obtain ⟨hnow, ⟨w, r, rfl, hp, rfl⟩ | ⟨project, o, -, hb⟩ | rfl⟩ := step_cases hs
  · exact h.put hnow hp
  · exact h.bump hnow hb
  · exact h.tick hnow

end Declarations

/-! ## Coherence and order -/

/-- The two axes agree: the epoch of an instant refers to the revision in force there, and no two
effective rows of an axis claim one boundary. -/
structure Declarations.Coherent (d : Declarations) : Prop where
  agree : ∀ t r e, d.governing t = some r → d.epochAt t = some e → e.revision = r.revision
  revisions : Distinct Revision.effectiveAt d.effectiveRevisions
  epochs : Distinct Epoch.effectiveAt d.effectiveEpochs

/-- Later revisions and epochs begin later. -/
structure Declarations.Ordered (d : Declarations) : Prop where
  revisions : Increasing Revision.effectiveAt Revision.revision d.effectiveRevisions
  epochs : Increasing Epoch.effectiveAt Epoch.seq d.effectiveEpochs

/-- A first revision that backfills reaches back, not forward. -/
def Retroactive (_ : Declarations) : DeclarationOp → Prop
  | .put w => isZero w.backfillFrom ∨ floorToBucket w.backfillFrom ≤ ceilToBucket w.now
  | _ => True

instance (d : Declarations) : DecidablePred (Retroactive d)
  | .put _ => inferInstanceAs (Decidable (_ ∨ _))
  | .bump _ _ => .isTrue trivial
  | .tick _ => .isTrue trivial

namespace Declarations

variable {cfg : Config} {d d' : Declarations} {t : Int}

theorem Inv.coherent (h : d.Inv) : d.Coherent where
  revisions := h.revisionStarts
  epochs := h.epochStarts
  agree := by
    intro t r e hr he
    have hgr := governs_of_inForce hr
    have hge := governs_of_inForce he
    -- the epoch in force is at or after the one that came with the revision in force
    obtain ⟨e₀, he₀, hat⟩ := h.answered r hgr.mem
    have hle : r.effectiveAt ≤ e.effectiveAt := by
      have := hge.latest e₀ he₀ (hat ▸ hgr.start_le)
      omega
    obtain ⟨r', hr'⟩ := h.snapshots e hge.mem
    rw [hr'.revision, hr'.governs.eq h.revisionStarts (hgr.of_le hle hge.start_le)]

theorem inv_of_reach {ok : Declarations → DeclarationOp → Prop} {clock : Int}
    (h : Reach (step cfg) ok (empty clock) d) : d.Inv :=
  h.invariant (empty_inv clock) fun _ _ _ hi _ hs => hi.step hs

/-- Nothing effective starts after the next boundary, so the timeline is written in order. -/
structure Settled (d : Declarations) : Prop where
  ordered : d.Ordered
  revisions : ∀ r ∈ d.effectiveRevisions, r.effectiveAt ≤ ceilToBucket d.clock
  epochs : ∀ e ∈ d.effectiveEpochs, e.effectiveAt ≤ ceilToBucket d.clock

theorem Settled.tick (h : d.Settled) {now : Int} (hnow : d.clock ≤ now) :
    { d with clock := now }.Settled where
  ordered := ⟨h.ordered.revisions, h.ordered.epochs⟩
  revisions r hr := (h.revisions r hr).trans (ceilToBucket_mono hnow)
  epochs e he := (h.epochs e he).trans (ceilToBucket_mono hnow)

theorem Settled.put (h : d.Settled) (hi : d.Inv) {w : DeclarationWrite} {r : Declared}
    (hnow : d.clock ≤ w.now) (hok : Retroactive d (.put w)) (hput : d.put cfg w = .ok r) :
    r.decls.Settled := by
  obtain ⟨-, -, hb, -, policies, members, -, hd⟩ := put_spec hput
  -- the boundary is after everything effective, and not after the next boundary
  have hlast : (∀ r' ∈ d.effectiveRevisions, r'.effectiveAt ≤ r.effectiveAt) ∧
      (∀ e ∈ d.effectiveEpochs, e.effectiveAt ≤ r.effectiveAt) ∧
      r.effectiveAt ≤ ceilToBucket w.now := by
    rcases boundaryOf_cases hb with ⟨he, -⟩ | ⟨hc, hz, he⟩
    · rw [he]
      have hmono := ceilToBucket_mono hnow
      exact ⟨fun r' hr' => (h.revisions r' hr').trans hmono,
        fun e he => (h.epochs e he).trans hmono, le_rfl⟩
    · rw [hi.effectiveRevisions_eq_nil hc, hi.effectiveEpochs_eq_nil hc, he]
      exact ⟨by simp, by simp, hok.resolve_left hz⟩
  obtain ⟨hr, he, hle⟩ := hlast
  rw [hd]
  refine ⟨⟨?_, ?_⟩, ?_, ?_⟩
  · show Increasing _ _ (d.insertRevision _ _ _ _).effectiveRevisions
    rw [effectiveRevisions_insertRevision]
    exact h.ordered.revisions.place hr fun r' hr' => Nat.lt_succ_of_le (le_currentRevision hr')
  · show Increasing _ _ (insertEpoch _ _ _ _ _).effectiveEpochs
    rw [effectiveEpochs_insertEpoch]
    exact h.ordered.epochs.place he fun e' he' => lt_nextSeq_of_effective he'
  · show ∀ r' ∈ (d.insertRevision _ _ _ _).effectiveRevisions, _
    rw [effectiveRevisions_insertRevision]
    intro r' hr'
    rcases mem_place.1 hr' with ⟨hr', -⟩ | rfl
    · exact (hr r' hr').trans hle
    · exact hle
  · show ∀ e' ∈ (insertEpoch _ _ _ _ _).effectiveEpochs, _
    rw [effectiveEpochs_insertEpoch]
    intro e' he'
    rcases mem_place.1 he' with ⟨he', -⟩ | rfl
    · exact (he e' he').trans hle
    · exact hle

theorem Settled.bump (h : d.Settled) {project : List Monitor} {now : Int} {o : List Origin}
    (hnow : d.clock ≤ now) (hbump : d.bump cfg project now = .ok (d', o)) : d'.Settled := by
  have ht := h.tick hnow
  rcases bump_cases hbump with ⟨rfl, -⟩ | ⟨r, members, -, -, rfl, -⟩
  · exact ht
  refine ⟨⟨ht.ordered.revisions, ?_⟩, ht.revisions, ?_⟩
  · rw [effectiveEpochs_insertEpoch]
    exact ht.ordered.epochs.place ht.epochs fun e he => lt_nextSeq_of_effective he
  · rw [effectiveEpochs_insertEpoch]
    intro e he
    rcases mem_place.1 he with ⟨he, -⟩ | rfl
    · exact ht.epochs e he
    · exact le_rfl

theorem Settled.step (h : d.Settled) (hi : d.Inv) {op : DeclarationOp} (hok : Retroactive d op)
    (hs : d.step cfg op = some d') : d'.Settled := by
  obtain ⟨hnow, ⟨w, r, rfl, hp, rfl⟩ | ⟨project, o, -, hb⟩ | rfl⟩ := step_cases hs
  · exact h.put hi hnow hok hp
  · exact h.bump hnow hb
  · exact h.tick hnow

theorem empty_settled (clock : Int) : (empty clock).Settled := by
  refine ⟨⟨?_, ?_⟩, ?_, ?_⟩ <;> simp [empty, effectiveRevisions, effectiveEpochs, Increasing]

end Declarations

open Declarations

/-- **The two axes agree and are written in order** in every run whose first revision does not
declare itself for the future. -/
theorem declarations_ordered_of_retroactive (cfg : Config) (clock : Int) (d : Declarations)
    (h : Reach (step cfg) Retroactive (.empty clock) d) : d.Coherent ∧ d.Ordered := by
  refine ⟨(inv_of_reach h).coherent, ?_⟩
  have hs : d.Settled := h.invariant' (empty_settled clock) fun s a s' hr hset hok hst =>
    hset.step (inv_of_reach hr) hok hst
  exact hs.ordered

/-- A declaration that leaves every policy to its default. -/
def omittedPolicies : ServicePolicies :=
  ⟨⟨.unset, 0, 0⟩, ⟨.unset, 0, 0⟩, .unset, .unset, ⟨0, 0⟩⟩

/-- A hash that tells settings apart, and the default limits. -/
def plainConfig : Config where
  hash ms := ms.foldl (fun s m => s ++ m.monitorID ++ m.semantics.canonical) ""
  limits := ⟨0, 0⟩

def webProbe (settings : String) : Monitor := ⟨"web", .http, "eu", true, 30, 0, 1, some settings⟩

/-- Declare the web probe, as an input or only as context. -/
def declareWeb (sli : List String) (expectedRevision backfillFrom now : Int) :
    DeclarationWrite where
  monitors := ["web"]
  sli := sli
  policies := omittedPolicies
  expectedRevision := expectedRevision
  backfillFrom := backfillFrom
  project := [webProbe "get"]
  otherServices := fun _ => 0
  now := now

/-- Adopt an hour of history, then within one minute edit the declaration, edit the monitor and edit
the declaration again. -/
def adoptedService : List DeclarationOp :=
  [.put (declareWeb ["web"] 0 (40 * minute) (100 * minute)),
    .put (declareWeb [] 1 0 (110 * minute + 5)),
    .put (declareWeb ["web"] 2 0 (110 * minute + 10)),
    .bump [webProbe "head"] (110 * minute + 20)]

theorem declarations_ordered_adoptedService :
    ∃ d, runOps (step plainConfig) (.empty 0) adoptedService = some d ∧
      d.effectiveRevisions.length = 2 ∧ d.epochs.length = 4 ∧ d.Coherent ∧ d.Ordered :=
  ⟨_, rfl, by decide, by decide, declarations_ordered_of_retroactive plainConfig 0 _
    (reach_of_runOps adoptedService
      (fun a ha _ => (by decide : ∀ a ∈ adoptedService, Retroactive (.empty 0) a) a ha) rfl)⟩

/-- The first revision backfills from an instant that has not come. -/
def futureBackfill : List DeclarationOp :=
  [.put (declareWeb ["web"] 0 (200 * minute) (100 * minute)),
    .put (declareWeb ["web"] 1 0 (110 * minute))]

/-- Revision 1 then takes force after revision 2, and displaces it when its time comes. -/
theorem futureBackfill_not_ordered :
    ∃ d, Reach (step plainConfig) anyStep (.empty 0) d ∧ ¬ d.Ordered ∧
      (d.governing (110 * minute)).map Revision.revision = some 2 ∧
      (d.governing (200 * minute)).map Revision.revision = some 1 := by
  refine ⟨_, reach_of_runOps futureBackfill (fun _ _ _ => trivial) rfl, ?_, by decide, by decide⟩
  exact fun h => absurd h.revisions (by decide)

end Cerbix.Service
