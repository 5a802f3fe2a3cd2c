import Cerbix.Reliability.Storage
import Cerbix.Service.Declaration

/-!
# Materialization

The tables of one service and what materialization does to them
(`internal/store/servicematerialize.go`): reading the evidence of a bucket, computing and sealing
its fact, the contiguity watermark, and the slice of the forward driver. A transaction reads the
clock once. `Tables.recomputed` is the fact the reducer gives for a bucket from the tables as they
are; `materializeBucket` writes exactly that (`materializeBucket_written`).
-/

namespace Cerbix.Service

open Cerbix.Lib Cerbix.Domain Cerbix.Reliability

/-- The row of `service_materialization`. It is created with its cursor and its era, and neither is
ever cleared. -/
structure Materialization where
  materializationStart : Int
  materializedThrough : Int
  eraStart : Int
  sealedThrough : Option Int
  deriving DecidableEq, Repr

/-- A sealed fact is not written again by the forward driver. -/
inductive FactState
  | provisional | sealed
  deriving DecidableEq, Repr

/-- What was computed for a bucket. -/
structure FactContent where
  epoch : Nat
  row : BucketRow
  provenance : Provenance
  deriving DecidableEq, Repr

/-- The stored fact of a bucket. -/
structure Fact where
  bucketStart : Int
  content : FactContent
  state : FactState
  deriving DecidableEq, Repr

/-- A declared window of maintenance. -/
structure MaintenanceWindow where
  id : Nat
  monitorID : String
  startsAt : Int
  endsAt : Int
  cancelEffectiveAt : Option Int
  archived : Bool
  deriving DecidableEq, Repr

/-- What the database holds for one service: its own rows, its project's maintenance windows and
monitors, and the heartbeats. -/
structure Tables where
  decls : Declarations
  materialization : Option Materialization
  facts : List Fact
  queue : Queue
  heartbeats : List Observation
  windows : List MaintenanceWindow
  monitors : List String
  deriving DecidableEq, Repr

def writeFact (facts : List Fact) (f : Fact) : List Fact := place Fact.bucketStart facts f

/-- The heartbeats of a bucket, and for each member the last one before it. -/
def observationsFor (heartbeats : List Observation) (ids : List String) (start stop : Int) :
    List Observation :=
  heartbeats.filter (fun o => o.monitorID ∈ ids ∧ start ≤ o.ts ∧ o.ts < stop) ++
    ids.filterMap fun id =>
      firstBy (fun x y => y.ts < x.ts) (heartbeats.filter fun o => o.monitorID = id ∧ o.ts < start)

/-- `LEAST(ends_at, COALESCE(cancel_effective_at, ends_at))`. -/
def MaintenanceWindow.effectiveEnd (w : MaintenanceWindow) : Int :=
  min w.endsAt (w.cancelEffectiveAt.getD w.endsAt)

/-- The exclusions in force over a bucket; the windows are kept in the order of their ids. -/
def maintenanceSpansFor (windows : List MaintenanceWindow) (ids : List String) (start stop : Int) :
    List MaintenanceSpan :=
  (windows.filter fun w =>
    (w.monitorID = "" ∨ w.monitorID ∈ ids) ∧ w.startsAt < stop ∧ start < w.effectiveEnd).map
    fun w => ⟨toString w.id, w.monitorID, w.startsAt, w.effectiveEnd⟩

def EpochMember.toMember (m : EpochMember) : Member where
  monitorID := m.monitorID
  type := m.semantics.type
  region := m.semantics.region
  enabled := m.semantics.enabled
  staleAfter := m.staleAfter
  armedAt := m.armedAt

def Epoch.ids (e : Epoch) : List String := e.members.map EpochMember.monitorID

variable (s : Tables)

namespace Tables

/-- What the reducer is given for a bucket. -/
def inputFor (e : Epoch) (p : ServicePolicies) (start : Int) : Input where
  start := start
  stop := start + canonicalBucket
  members := e.members.map EpochMember.toMember
  observations := observationsFor s.heartbeats e.ids start (start + canonicalBucket)
  maintenance := maintenanceSpansFor s.windows e.ids start (start + canonicalBucket)
  policies := p

/-- The epoch and the policies in force. -/
def evaluationAt (start : Int) : Option (Epoch × ServicePolicies) :=
  (s.decls.epochAt start).bind fun e => (s.decls.policiesOf e.revision).map fun p => (e, p)

def contentUnder (e : Epoch) (p : ServicePolicies) (start : Int) : Except ReduceError FactContent :=
  (reduce (s.inputFor e p start)).map fun b => ⟨e.seq, b.row, b.provenance⟩

/-- What the reducer gives for a bucket now. -/
def recomputed (start : Int) : Option FactContent :=
  (s.evaluationAt start).bind fun ep => (s.contentUnder ep.1 ep.2 start).toOption

def isSealed (b : Int) : Bool :=
  s.facts.any fun f => f.bucketStart = b ∧ f.state = .sealed

/-- The evidence of a member was deleted with its monitor. -/
def anyMemberMonitorGone (e : Epoch) : Bool :=
  (s.monitors.filter fun id => id ∈ e.ids).length ≠ e.ids.length

end Tables

/-- Whether sealed buckets are computed again. -/
inductive MaterializeMode
  | ordinary | recompute
  deriving DecidableEq, Repr

/-- Why a bucket is not computed. -/
inductive MaterializeError
  | evidenceGone (bucket : Int)
  | reduce (e : ReduceError)
  | conservation (bucket : Int)
  deriving DecidableEq, Repr

/-- The row's CHECK constraints. -/
def FactContent.accepted (c : FactContent) : Bool :=
  c.row.AvailabilityConserves ∧ c.row.HealthConserves

namespace Tables

/-- `materializeBucketTx`: the fact it writes, if it writes one. -/
def materializeBucket (start : Int) (mode : MaterializeMode) (now : Int) :
    Except MaterializeError (Option Fact) :=
  let stop := start + canonicalBucket
  let wasSealed := s.isSealed start
  if wasSealed ∧ mode = .ordinary then .ok none
  else
    match s.evaluationAt start with
    | none => .ok none
    | some (e, p) =>
      if e.members = [] then .ok none
      else if mode = .recompute ∧ wasSealed ∧ s.anyMemberMonitorGone e then
        .error (.evidenceGone start)
      else
        match s.contentUnder e p start with
        | .error e => .error (.reduce e)
        | .ok c =>
          -- a bucket is sealed once its accounting is over, and a recompute keeps it sealed
          let state := if stop + lateArrivalGrace ≤ now ∨ wasSealed then .sealed else .provisional
          if c.accepted then .ok (some ⟨start, c, state⟩) else .error (.conservation start)

def write : Option Fact → Tables
  | none => s
  | some f => { s with facts := writeFact s.facts f }

/-- Compute buckets one after the other. -/
def materializeRange (mode : MaterializeMode) (now : Int) :
    Nat → Int → Tables → Except MaterializeError Tables
  | 0, _, s => .ok s
  | n + 1, start, s => do
    let f ← s.materializeBucket start mode now
    materializeRange mode now n (start + canonicalBucket) (s.write f)

/-- The end of the unbroken chain of sealed buckets from `t`, at most `n` of them. -/
def sealedRun (s : Tables) : Nat → Int → Int
  | 0, t => t
  | n + 1, t => if s.isSealed t then s.sealedRun n (t + canonicalBucket) else t

def watermarkScanBuckets : Nat := 1440

/-- Where the walk of the watermark begins: at the watermark, or at the start of its era. -/
def walkStart (m : Materialization) : Int :=
  match m.sealedThrough with
  | some t => max m.eraStart t
  | none => m.eraStart

def setMaterialization (m : Materialization) : Tables :=
  { s with materialization := some m }

/-- `advanceSealedThrough`. The chain stops at the first bucket that is missing or unsealed; where
the scan window holds no row the query returns NULL and nothing is written. -/
def advanceSealedThrough : Tables :=
  match s.materialization with
  | none => s
  | some m =>
    let start := walkStart m
    let limit := start + watermarkScanBuckets * canonicalBucket
    if s.facts.any fun f => start ≤ f.bucketStart ∧ f.bucketStart < limit then
      s.setMaterialization { m with sealedThrough := some (s.sealedRun watermarkScanBuckets start) }
    else s

def maxBucketsPerAdvance : Nat := 240

/-- `AdvanceServiceMaterializationOn` for this service, on a slice whose deadline lets it walk
`buckets` buckets whose accounting is over. -/
def advance (buckets : Nat) (now : Int) : Option Tables :=
  match s.materialization with
  | none => none
  | some m =>
    let horizon := floorToBucket (now - lateArrivalGrace)
    let cursor := m.materializedThrough
    let stop := min (cursor + maxBucketsPerAdvance * canonicalBucket) horizon
    if cursor < horizon ∧ 0 < buckets ∧ cursor + (buckets - 1) * canonicalBucket < stop then
      match s.materializeRange .ordinary now buckets cursor with
      | .error _ => none
      | .ok s' =>
        some (s'.setMaterialization
          { m with materializedThrough := cursor + buckets * canonicalBucket }).advanceSealedThrough
    else none

end Tables

/-! ## What a range of buckets leaves behind -/

namespace Tables

variable {s s' : Tables} {mode : MaterializeMode} {now start b : Int}

theorem isSealed_iff : s.isSealed b ↔ ∃ f ∈ s.facts, f.bucketStart = b ∧ f.state = .sealed := by
  simp [isSealed]

/-- No epoch with members is in force. -/
def Unmeasured (s : Tables) (b : Int) : Prop :=
  ∀ e p, s.evaluationAt b = some (e, p) → e.members = []

/-- The fact is what the reducer gives for its bucket, sealed if its accounting is over or it was
sealed before. -/
structure Wrote (s : Tables) (now : Int) (f : Fact) : Prop where
  measured : ¬ s.Unmeasured f.bucketStart
  content : s.recomputed f.bucketStart = some f.content
  state : f.state = .sealed ↔
    f.bucketStart + canonicalBucket + lateArrivalGrace ≤ now ∨ s.isSealed f.bucketStart

/-- The bucket is passed without a write. -/
def Skips (s : Tables) (mode : MaterializeMode) (b : Int) : Prop :=
  (s.isSealed b ∧ mode = .ordinary) ∨ s.Unmeasured b

theorem materializeBucket_written {f : Fact}
    (h : s.materializeBucket start mode now = .ok (some f)) :
    f.bucketStart = start ∧ s.Wrote now f := by
  unfold materializeBucket at h
  simp only at h
  split at h
  · cases h
  split at h
  · cases h
  rename_i e p he
  split at h
  · cases h
  rename_i hm
  split at h
  · cases h
  split at h
  · cases h
  rename_i c hc
  split at h
  · cases h
    refine ⟨rfl, fun hu => hm (hu e p he), ?_, ?_⟩
    · simp [recomputed, he, hc, Except.toOption]
    · split <;> simp_all
  · cases h

theorem materializeBucket_skipped (h : s.materializeBucket start mode now = .ok none) :
    s.Skips mode start := by
  unfold materializeBucket at h
  simp only at h
  split at h
  · next hs => exact .inl hs
  · split at h
    · next he => exact .inr fun e p hep => by simp [he] at hep
    · next e p he =>
      split at h
      · next hm =>
        refine .inr fun e' p' hep => ?_
        obtain ⟨rfl, rfl⟩ : e = e' ∧ p = p' := by simpa [he] using hep
        exact hm
      · split at h
        · cases h
        split at h
        · cases h
        · split at h <;> cases h

@[simp] theorem recomputed_write (f : Option Fact) : (s.write f).recomputed b = s.recomputed b := by
  cases f <;> rfl

@[simp] theorem unmeasured_write (f : Option Fact) : (s.write f).Unmeasured b ↔ s.Unmeasured b := by
  cases f <;> rfl

variable {f : Option Fact}

theorem isSealed_write (hf : ∀ g, f = some g → g.bucketStart ≠ b) :
    (s.write f).isSealed b = s.isSealed b := by
  cases f with
  | none => rfl
  | some g =>
    have hne := hf g rfl
    rw [Bool.eq_iff_iff, isSealed_iff, isSealed_iff]
    constructor
    · rintro ⟨x, hx, hb, hs⟩
      rcases mem_place.1 hx with ⟨hx, -⟩ | rfl
      · exact ⟨x, hx, hb, hs⟩
      · exact absurd hb hne
    · rintro ⟨x, hx, hb, hs⟩
      exact ⟨x, mem_place.2 (.inl ⟨hx, fun h => hne (h.symm.trans hb)⟩), hb, hs⟩

theorem advanceSealedThrough_cases (s : Tables) : s.advanceSealedThrough = s ∨
      ∃ m, s.materialization = some m ∧ s.advanceSealedThrough = s.setMaterialization
        { m with sealedThrough := some (s.sealedRun watermarkScanBuckets (walkStart m)) } := by
  unfold advanceSealedThrough
  split
  · exact .inl rfl
  · next m hm =>
    simp only
    split
    · exact .inr ⟨m, hm, rfl⟩
    · exact .inl rfl

theorem advanceSealedThrough_frame (s : Tables) :
    s.advanceSealedThrough = { s with materialization :=
      s.advanceSealedThrough.materialization } := by
  rcases advanceSealedThrough_cases s with h | ⟨m, -, h⟩
  · rw [h]
  · rw [h]
    rfl

@[simp] theorem advanceSealedThrough_facts (s : Tables) :
    s.advanceSealedThrough.facts = s.facts := by
  rw [advanceSealedThrough_frame]

theorem advanceSealedThrough_through {m : Materialization} (h : s.materialization = some m) :
    ∃ m', s.advanceSealedThrough.materialization = some m' ∧
      m'.materializedThrough = m.materializedThrough := by
  rcases advanceSealedThrough_cases s with he | ⟨m₀, hm₀, he⟩ <;> rw [he]
  · exact ⟨m, h, rfl⟩
  · obtain rfl : m = m₀ := Option.some.inj (h.symm.trans hm₀)
    exact ⟨_, rfl, rfl⟩

def InRange (start : Int) (n : Nat) (b : Int) : Prop := ∃ k < n, b = start + k * canonicalBucket

/-- What materializing the range did: only facts changed, each is an old one outside the buckets
written or a new one of the range, and every bucket of the range was written or skipped. -/
structure RangeSpec (s s' : Tables) (mode : MaterializeMode) (now start : Int)
    (n : Nat) : Prop where
  frame : s' = { s with facts := s'.facts }
  keys : Distinct Fact.bucketStart s.facts → Distinct Fact.bucketStart s'.facts
  facts : ∀ f ∈ s'.facts, (f ∈ s.facts ∧ (InRange start n f.bucketStart →
    s.Skips mode f.bucketStart))
    ∨ (InRange start n f.bucketStart ∧ s.Wrote now f)
  kept : ∀ f ∈ s.facts, f ∈ s'.facts ∨ ∃ g ∈ s'.facts, g.bucketStart = f.bucketStart ∧
    InRange start n g.bucketStart ∧ s.Wrote now g

variable {n : Nat}

theorem InRange.tail (h : InRange (start + canonicalBucket) n b) :
    b ≠ start ∧ InRange start (n + 1) b := by
  obtain ⟨k, hk, rfl⟩ := h
  have hpos := canonicalBucket_pos
  have hk0 := Int.mul_nonneg (Int.natCast_nonneg k) hpos.le
  refine ⟨by omega, k + 1, by omega, ?_⟩
  push_cast
  ring

theorem InRange.bounds (h : InRange start n b) : start ≤ b ∧ b < start + n * canonicalBucket := by
  obtain ⟨k, hk, rfl⟩ := h
  have hpos := canonicalBucket_pos
  have hk0 := Int.mul_nonneg (Int.natCast_nonneg k) hpos.le
  have hkn : (k : Int) * canonicalBucket < n * canonicalBucket :=
    Int.mul_lt_mul_of_pos_right (by omega) hpos
  omega

theorem InRange.cases (h : InRange start (n + 1) b) :
    b = start ∨ InRange (start + canonicalBucket) n b := by
  obtain ⟨k, hk, rfl⟩ := h
  cases k with
  | zero => exact .inl (by simp)
  | succ k =>
    refine .inr ⟨k, by omega, ?_⟩
    push_cast
    ring

theorem wrote_write {g : Fact} (hf : ∀ x, f = some x → x.bucketStart ≠ g.bucketStart) :
    (s.write f).Wrote now g ↔ s.Wrote now g := by
  constructor
  · rintro ⟨hm, hc, hs⟩
    rw [isSealed_write hf] at hs
    exact ⟨by simpa using hm, by simpa using hc, hs⟩
  · rintro ⟨hm, hc, hs⟩
    rw [← isSealed_write hf] at hs
    exact ⟨by simpa using hm, by simpa using hc, hs⟩

theorem skips_write (hf : ∀ x, f = some x → x.bucketStart ≠ b) :
    (s.write f).Skips mode b ↔ s.Skips mode b := by
  simp [Skips, isSealed_write hf]

/-- **A range is materialized bucket by bucket**: the facts it leaves are old ones and the reducer's
facts for the tables it started from. -/
theorem materializeRange_spec (h : s.materializeRange mode now n start = .ok s') :
    RangeSpec s s' mode now start n := by
  induction n generalizing s start with
  | zero =>
    cases h
    exact ⟨rfl, id, fun f hf => .inl ⟨hf, by rintro ⟨k, hk, -⟩; omega⟩, fun f hf => .inl hf⟩
  | succ n ih =>
    obtain ⟨f, hf, h⟩ := bind_eq_ok.1 h
    obtain ⟨hframe, hkeys, hfacts, hkept⟩ := ih h
    have hstart : ∀ x, f = some x → x.bucketStart = start := by
      rintro x rfl
      exact (materializeBucket_written hf).1
    have hother : ∀ {b}, b ≠ start → ∀ x, f = some x → x.bucketStart ≠ b := by
      intro b hb x hx
      rw [hstart x hx]
      exact hb.symm
    refine ⟨?_, ?_, ?_, ?_⟩
    · rw [hframe]
      cases f <;> rfl
    · intro hd
      refine hkeys ?_
      cases f with
      | none => exact hd
      | some x => exact hd.place
    · intro g hg
      rcases hfacts g hg with ⟨hg, hskip⟩ | ⟨hin, hw⟩
      · cases f with
        | none =>
          refine .inl ⟨hg, fun hin => ?_⟩
          rcases hin.cases with hb | hin
          · rw [hb]
            exact materializeBucket_skipped hf
          · exact hskip hin
        | some x =>
          rcases mem_place.1 hg with ⟨hg, hne⟩ | rfl
          · rw [hstart x rfl] at hne
            refine .inl ⟨hg, fun hin => ?_⟩
            exact (skips_write (hother hne)).1 (hskip (hin.cases.resolve_left hne))
          · obtain ⟨hb, hw⟩ := materializeBucket_written hf
            exact .inr ⟨⟨0, by omega, by simp [hb]⟩, hw⟩
      · exact .inr ⟨hin.tail.2, (wrote_write (hother hin.tail.1)).1 hw⟩
    · intro g hg
      have htail : ∀ {x : Fact}, x.bucketStart = g.bucketStart → x ∈ (s.write f).facts →
          x ∈ s'.facts ∨ ∃ y ∈ s'.facts, y.bucketStart = g.bucketStart ∧
            InRange start (n + 1) y.bucketStart ∧ s.Wrote now y := by
        intro x hxg hx
        rcases hkept x hx with hx | ⟨y, hy, hyx, hin, hw⟩
        · exact .inl hx
        · exact .inr ⟨y, hy, hyx.trans hxg, hin.tail.2, (wrote_write (hother hin.tail.1)).1 hw⟩
      cases f with
      | none => exact htail rfl hg
      | some x =>
        by_cases hb : g.bucketStart = x.bucketStart
        · -- the old fact of the first bucket was replaced by the one just computed
          obtain ⟨hxb, hw⟩ := materializeBucket_written hf
          rcases htail hb.symm (mem_place.2 (.inr rfl)) with hx | hy
          · exact .inr ⟨x, hx, hb.symm, ⟨0, by omega, by simp [hxb]⟩, hw⟩
          · exact .inr hy
        · exact htail rfl (mem_place.2 (.inl ⟨hg, hb⟩))

end Tables

end Cerbix.Service
