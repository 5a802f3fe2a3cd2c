import Cerbix.Service.Materialize

/-!
# The service as a system

Every transaction on the tables of one service: declaration writes and epoch bumps with what they do
to the materialization row, heartbeat ingest (`internal/store/serviceingest.go`), slices of the
forward driver, the life of a repair range, and maintenance mutations (`servicemaintenance.go`). A
run of `Tables.step` is a run of its parts (`step_decls`, `step_queue`), so their invariants hold
here (`Tables.Base`).
-/

namespace Cerbix.Service

open Cerbix.Lib Cerbix.Domain Cerbix.Reliability Option Declarations

/-- The revision with the current number declared reliability inputs; whether it ever took effect is
not asked. -/
def Declarations.prevHadInputs (d : Declarations) : Bool :=
  d.revisions.any fun r => r.revision = d.currentRevision ∧ r.sli ≠ []

/-- `ON CONFLICT (service_id) DO NOTHING`. -/
def ensureMaterializationRow (m : Option Materialization) (start : Int) : Materialization :=
  m.getD ⟨start, start, start, none⟩

variable (m : Materialization)

/-- The watermark is dropped and the cursor moves to the boundary. -/
def Materialization.startEra (effectiveAt : Int) : Materialization :=
  { m with
    eraStart := effectiveAt
    sealedThrough := none
    materializedThrough := max m.materializedThrough effectiveAt }

/-- What a declaration write does to the materialization row. -/
def trackDeclaration (d : Declarations) (r : Declared) (m : Option Materialization) :
    Option Materialization :=
  if r.sli = [] then m
  else
    let row := ensureMaterializationRow m r.effectiveAt
    if 0 < d.currentRevision ∧ ¬ d.prevHadInputs then some (row.startEra r.effectiveAt)
    else some row

variable (s : Tables)

namespace Tables

/-- A declaration write. -/
def put (cfg : Config) (s : Tables) (w : DeclarationWrite) : Except DeclarationError Tables := do
  let r ← s.decls.put cfg w
  return { s with
    decls := r.decls
    materialization := trackDeclaration s.decls r s.materialization
    queue := s.queue.cancelRangesOfOrigin r.displaced }

/-- The monitors of the service have changed. -/
def bump (cfg : Config) (s : Tables) (project : List Monitor) (now : Int) :
    Except DeclarationError Tables := do
  let r ← s.decls.bump cfg project now
  return { s with decls := r.1, queue := s.queue.cancelRangesOfOrigin r.2 }

/-- `servicesDeclaringMonitorAt`, for this service: the revision governing the instant declares the
monitor as an input. -/
def declaresMonitorAt (monitorID : String) (t : Int) : Bool :=
  (s.decls.governing t).any fun r => monitorID ∈ r.sli

/-- The materialization frontier, behind which the forward driver corrects nothing. -/
def frontier : Int :=
  match m.sealedThrough with
  | some t => max t m.materializedThrough
  | none => m.materializedThrough

def nextObservation (heartbeats : List Observation) (monitorID : String) (ts frontier : Int) :
    Option Int :=
  ((heartbeats.filter fun o => o.monitorID = monitorID ∧ ts < o.ts ∧ o.ts < frontier).map
    Observation.ts).min?

/-- How far a late observation is the latest one. -/
def lateObservationReachEnd (heartbeats : List Observation) (monitorID : String)
    (ts frontier : Int) : Int :=
  match nextObservation heartbeats monitorID ts frontier with
  | none => frontier
  | some next => ceilToBucket next

/-- Buckets that are already behind are queued for repair. -/
def repairIfBehindWatermark (hb : Observation) (now : Int) : Option Tables :=
  match s.materialization with
  | none => some s
  | some m =>
    let bucketStart := floorToBucket hb.ts
    if bucketStart < frontier m then
      (s.queue.enqueue bucketStart
        (lateObservationReachEnd s.heartbeats hb.monitorID hb.ts (frontier m)) .lateData none
        now).map fun q => { s with queue := q }
    else some s

/-- A service declares the monitor at that time. -/
def routes (hb : Observation) : Bool :=
  hb.monitorID ≠ "" ∧ ¬ Go.isZero hb.ts ∧ s.declaresMonitorAt hb.monitorID (floorToBucket hb.ts)

/-- There is a result of the monitor at that instant. -/
def isDuplicate (hb : Observation) : Bool :=
  s.heartbeats.any fun o => o.monitorID = hb.monitorID ∧ o.ts = hb.ts

/-- Insert a heartbeat and note it: the mark and the repair commit with it. -/
def ingest (hb : Observation) (now : Int) : Option Tables :=
  if s.isDuplicate hb then some s
  else
    let s' := { s with heartbeats := s.heartbeats ++ [hb] }
    if s'.routes hb then s'.repairIfBehindWatermark hb now else some s'

def bucketCount (start stop : Int) : Nat :=
  ((stop - start + canonicalBucket - 1) / canonicalBucket).toNat

/-- One repair batch: recompute the buckets after the worker's cursor and the watermark, and move
the cursor, in one transaction. -/
def repairBatch (i size : Nat) (now : Int) : Option Tables :=
  match s.queue.workers[i]?, s.queue.runBatch i size now with
  | some w, some q =>
    let stop := min (w.cursor + size * canonicalBucket) w.stop
    match s.materializeRange .recompute now (bucketCount w.cursor stop) w.cursor with
    | .error _ => none
    | .ok s' => some { s'.advanceSealedThrough with queue := q }
  | _, _ => none

/-! ## Maintenance -/

end Tables

def MaintenanceWindow.archive (w : MaintenanceWindow) (now : Int) : MaintenanceWindow :=
  { w with
    archived := true
    cancelEffectiveAt :=
      if w.startsAt ≤ now ∧ now < w.endsAt then some now
      else if now < w.startsAt then some w.startsAt
      else w.cancelEffectiveAt }

namespace Tables

def nextStart (d : Declarations) (r : Revision) : Option Int :=
  ((d.effectiveRevisions.filter fun r' => r.effectiveAt < r'.effectiveAt).map
    Revision.effectiveAt).min?

/-- The window meets a revision that names the monitor. -/
def affectedByWindow (monitorID : String) (start stop : Int) : Bool :=
  s.decls.effectiveRevisions.any fun r =>
    r.effectiveAt < stop ∧ (∀ n ∈ nextStart s.decls r, start < n) ∧
      (monitorID = "" ∨ monitorID ∈ r.sli)

/-- The window meets a sealed bucket. -/
def rangeIntersectsSealed (start stop : Int) : Bool :=
  s.facts.any fun f =>
    f.state = .sealed ∧ f.bucketStart < stop ∧ start < f.bucketStart + canonicalBucket

/-- The watermark goes back to the start of the mutated range; one that was never set is set
there. -/
def rewind (t : Int) : Materialization :=
  match m.sealedThrough with
  | none => { m with sealedThrough := some t }
  | some st => if t < st then { m with sealedThrough := some (min st t) } else m

/-- Queue what a window touches, and rewind the watermark. -/
def invalidate (window : Nat) (monitorID : String) (start stop now : Int) : Option Tables :=
  let q := s.queue.bumpGeneration
  if s.affectedByWindow monitorID start stop then
    (q.enqueue (floorToBucket start) (ceilToBucket stop) .maintenance (some (.window window))
      now).map fun q =>
      { s with
        queue := q
        materialization := s.materialization.map fun m => rewind m (floorToBucket start) }
  else some { s with queue := q }

/-- A mutation over sealed time needs a confirmed preview. -/
def mayMutate (monitorID : String) (start stop : Int) (confirmed : Bool) : Bool :=
  ¬ (s.affectedByWindow monitorID start stop ∧ s.rangeIntersectsSealed start stop) ∨ confirmed

/-- Declare maintenance. -/
def createWindow (w : MaintenanceWindow) (confirmed : Bool) (now : Int) : Option Tables :=
  if w.startsAt < w.endsAt ∧ s.mayMutate w.monitorID w.startsAt w.endsAt confirmed then
    { s with windows := s.windows ++ [w] }.invalidate w.id w.monitorID w.startsAt w.endsAt now
  else none

/-- Take back declared maintenance. -/
def annulWindow (id : Nat) (confirmed : Bool) (now : Int) : Option Tables :=
  match s.windows.find? fun w => w.id = id with
  | none => none
  | some w =>
    if s.mayMutate w.monitorID w.startsAt w.effectiveEnd confirmed then
      { s with windows := s.windows.filter fun w => w.id ≠ id }.invalidate id w.monitorID
        w.startsAt w.effectiveEnd now
    else none

/-- `ArchiveMaintenanceWindow`: no sealed history changes, but the generation does. -/
def archiveWindow (id : Nat) (now : Int) : Option Tables :=
  if s.windows.any fun w => w.id = id ∧ w.archived = false then
    some { s with
      windows := s.windows.map fun w =>
        if w.id = id ∧ w.archived = false then w.archive now else w
      queue := s.queue.bumpGeneration }
  else none

end Tables

/-- What happens to a service. -/
inductive ServiceOp
  | put (w : DeclarationWrite)
  | bump (project : List Monitor) (now : Int)
  | ingest (hb : Observation) (now : Int)
  | advance (buckets : Nat) (now : Int)
  | claim (id : Nat) (now : Int)
  | batch (worker size : Nat) (now : Int)
  | close (worker : Nat) (how : Closing) (now : Int)
  | createWindow (w : MaintenanceWindow) (confirmed : Bool) (now : Int)
  | annulWindow (id : Nat) (confirmed : Bool) (now : Int)
  | archiveWindow (id : Nat) (now : Int)
  | enqueueAdmin (start stop : Int) (now : Int)

def ServiceOp.now : ServiceOp → Int
  | .put w => w.now
  | .bump _ now | .ingest _ now | .advance _ now | .claim _ now | .batch _ _ now
  | .close _ _ now | .createWindow _ _ now | .annulWindow _ _ now | .archiveWindow _ now
  | .enqueueAdmin _ _ now => now

namespace Tables

def tick (now : Int) : Tables := { s with decls := { s.decls with clock := now } }

def setQueue (q : Queue) : Tables := { s with queue := q }

/-- A transaction that is not a declaration write, on tables whose clock it has read. -/
def act : ServiceOp → Option Tables
  | .put _ | .bump _ _ => none
  | .ingest hb now => s.ingest hb now
  | .advance buckets now => s.advance buckets now
  | .claim id now => (s.queue.claim id now).map s.setQueue
  | .batch i size now => s.repairBatch i size now
  | .close i how _ => (s.queue.close i how).map s.setQueue
  | .createWindow w confirmed now => s.createWindow w confirmed now
  | .annulWindow id confirmed now => s.annulWindow id confirmed now
  | .archiveWindow id now => s.archiveWindow id now
  | .enqueueAdmin start stop now => (s.queue.enqueue start stop .admin none now).map s.setQueue

/-- One transaction of the system; the database clock does not run backwards. -/
def step (cfg : Config) (s : Tables) (op : ServiceOp) : Option Tables :=
  if op.now < s.decls.clock then none
  else
    match op with
    | .put w => (s.put cfg w).toOption
    | .bump project now => (s.bump cfg project now).toOption
    | op => (s.tick op.now).act op

def empty (clock : Int) (monitors : List String) : Tables :=
  ⟨.empty clock, none, [], .empty, [], [], monitors⟩

/-! ## The parts of a transaction -/

variable {cfg : Config} {s s' : Tables} {op : ServiceOp} {now : Int} {buckets size : Nat}
  {start stop : Int} {confirmed : Bool}

theorem advance_cases (h : s.advance buckets now = some s') :
    ∃ m s₁, s.materialization = some m ∧
      s.materializeRange .ordinary now buckets m.materializedThrough = .ok s₁ ∧
      s' = (s₁.setMaterialization { m with
        materializedThrough := m.materializedThrough + buckets * canonicalBucket
        }).advanceSealedThrough := by
  unfold advance at h
  split at h
  · cases h
  rename_i m hm
  simp only at h
  split at h
  · split at h
    · cases h
    rename_i s₁ hs₁
    cases h
    exact ⟨m, s₁, hm, hs₁, rfl⟩
  · cases h

theorem repairBatch_cases {i : Nat} (h : s.repairBatch i size now = some s') :
    ∃ w q s₁, s.queue.workers[i]? = some w ∧ s.queue.runBatch i size now = some q ∧
      s.materializeRange .recompute now
        (bucketCount w.cursor (min (w.cursor + size * canonicalBucket) w.stop)) w.cursor = .ok s₁ ∧
      s' = { s₁.advanceSealedThrough with queue := q } := by
  unfold repairBatch at h
  split at h
  · next w q hw hq =>
    simp only at h
    split at h
    · cases h
    rename_i s₁ hs₁
    cases h
    exact ⟨w, q, s₁, hw, hq, hs₁, rfl⟩
  · cases h

theorem inRange_bucketCount {b : Int} (hs : Aligned start) :
    InRange start (bucketCount start stop) b ↔ Aligned b ∧ start ≤ b ∧ b < stop := by
  have hB := canonicalBucket_eq
  constructor
  · rintro ⟨k, hk, rfl⟩
    refine ⟨hs.add k, ?_⟩
    rw [bucketCount, hB] at hk
    rw [hB]
    omega
  · rintro ⟨hb, hle, hlt⟩
    refine ⟨((b - start) / canonicalBucket).toNat, ?_⟩
    rw [Aligned, hB] at hs hb
    rw [bucketCount, hB]
    omega

theorem ingest_cases {hb : Observation} (h : s.ingest hb now = some s') :
    (s.isDuplicate hb ∧ s' = s) ∨ (¬ s.isDuplicate hb ∧
      ∃ q, s' = { s with heartbeats := s.heartbeats ++ [hb], queue := q } ∧
        ((q = s.queue ∧ (s.routes hb → ∀ m, s.materialization = some m →
            frontier m ≤ floorToBucket hb.ts)) ∨
          (s.routes hb ∧ ∃ m, s.materialization = some m ∧ floorToBucket hb.ts < frontier m ∧
            s.queue.enqueue (floorToBucket hb.ts)
              (lateObservationReachEnd (s.heartbeats ++ [hb]) hb.monitorID hb.ts (frontier m))
              .lateData none now = some q))) := by
  unfold ingest at h
  split at h
  · next hd =>
    cases h
    exact .inl ⟨hd, rfl⟩
  · next hd =>
    refine .inr ⟨hd, ?_⟩
    simp only at h
    split at h
    · next hr =>
      unfold repairIfBehindWatermark at h
      split at h
      · next hm =>
        cases h
        exact ⟨s.queue, rfl, .inl ⟨rfl, fun _ m hm' => by simp_all⟩⟩
      · next m hm =>
        simp only at h
        split at h
        · next hlt =>
          obtain ⟨q, hq, rfl⟩ := map_eq_some_iff.1 h
          exact ⟨q, rfl, .inr ⟨hr, m, hm, hlt, hq⟩⟩
        · next hge =>
          cases h
          refine ⟨s.queue, rfl, .inl ⟨rfl, fun _ m' hm' => ?_⟩⟩
          obtain rfl : m = m' := Option.some.inj (hm.symm.trans hm')
          exact not_lt.1 hge
    · next hr =>
      cases h
      exact ⟨s.queue, rfl, .inl ⟨rfl, fun hr' => absurd hr' hr⟩⟩

theorem invalidate_cases {window : Nat} {monitorID : String}
    (h : s.invalidate window monitorID start stop now = some s') :
    (∃ q, s.queue.bumpGeneration.enqueue (floorToBucket start) (ceilToBucket stop) .maintenance
        (some (.window window)) now = some q ∧
      s' = { s with
        queue := q
        materialization := s.materialization.map fun m => rewind m (floorToBucket start) }) ∨
    s' = { s with queue := s.queue.bumpGeneration } := by
  unfold invalidate at h
  split at h
  · obtain ⟨q, hq, rfl⟩ := map_eq_some_iff.1 h
    exact .inl ⟨q, hq, rfl⟩
  · cases h
    exact .inr rfl

theorem createWindow_cases {w : MaintenanceWindow} (h : s.createWindow w confirmed now = some s') :
    { s with windows := s.windows ++ [w] }.invalidate w.id w.monitorID w.startsAt w.endsAt now =
      some s' := by
  unfold createWindow at h
  split at h
  · exact h
  · cases h

theorem annulWindow_cases {id : Nat} (h : s.annulWindow id confirmed now = some s') :
    ∃ w, (s.windows.find? fun w => w.id = id) = some w ∧
      { s with windows := s.windows.filter fun w => w.id ≠ id }.invalidate id w.monitorID
        w.startsAt w.effectiveEnd now = some s' := by
  unfold annulWindow at h
  split at h
  · cases h
  rename_i w hw
  split at h
  · exact ⟨w, hw, h⟩
  · cases h

theorem archiveWindow_cases {id : Nat} (h : s.archiveWindow id now = some s') :
    s' = { s with windows := s'.windows, queue := s.queue.bumpGeneration } := by
  unfold archiveWindow at h
  split at h
  · cases h
    rfl
  · cases h

theorem advance_frame (h : s.advance buckets now = some s') :
    s' = { s with facts := s'.facts, materialization := s'.materialization } := by
  obtain ⟨m, s₁, -, hr, rfl⟩ := advance_cases h
  rw [advanceSealedThrough_frame, (materializeRange_spec hr).frame]
  rfl

theorem repairBatch_frame {i : Nat} (h : s.repairBatch i size now = some s') : s' = { s with
      facts := s'.facts, materialization := s'.materialization, queue := s'.queue } := by
  obtain ⟨w, q, s₁, -, -, hr, rfl⟩ := repairBatch_cases h
  rw [advanceSealedThrough_frame, (materializeRange_spec hr).frame]

theorem act_decls (h : s.act op = some s') : s'.decls = s.decls := by
  cases op with
  | put w => cases h
  | bump project now => cases h
  | ingest hb now =>
    rcases ingest_cases h with ⟨-, rfl⟩ | ⟨-, q, rfl, -⟩ <;> rfl
  | advance buckets now => rw [advance_frame h]
  | claim id now =>
    obtain ⟨q, -, rfl⟩ := map_eq_some_iff.1 h
    rfl
  | batch i size now => rw [repairBatch_frame h]
  | close i how now =>
    obtain ⟨q, -, rfl⟩ := map_eq_some_iff.1 h
    rfl
  | createWindow w confirmed now =>
    rcases invalidate_cases (createWindow_cases h) with ⟨q, -, rfl⟩ | rfl <;> rfl
  | annulWindow id confirmed now =>
    obtain ⟨w, -, h⟩ := annulWindow_cases h
    rcases invalidate_cases h with ⟨q, -, rfl⟩ | rfl <;> rfl
  | archiveWindow id now => rw [archiveWindow_cases h]
  | enqueueAdmin start stop now =>
    obtain ⟨q, -, rfl⟩ := map_eq_some_iff.1 h
    rfl

theorem act_queue (h : s.act op = some s') :
    ∃ ops, runOps Queue.step s.queue ops = some s'.queue := by
  cases op with
  | put w => cases h
  | bump project now => cases h
  | ingest hb now =>
    rcases ingest_cases h with ⟨-, rfl⟩ | ⟨-, q, rfl, ⟨rfl, -⟩ | ⟨-, m, -, -, hq⟩⟩
    · exact ⟨[], rfl⟩
    · exact ⟨[], rfl⟩
    · exact ⟨[.enqueue _ _ _ _ _], runOps_cons hq rfl⟩
  | advance buckets now =>
    rw [advance_frame h]
    exact ⟨[], rfl⟩
  | claim id now =>
    obtain ⟨q, hq, rfl⟩ := map_eq_some_iff.1 h
    exact ⟨[.claim id now], runOps_cons hq rfl⟩
  | batch i size now =>
    obtain ⟨w, q, s₁, -, hq, -, rfl⟩ := repairBatch_cases h
    exact ⟨[.batch i size now], runOps_cons hq rfl⟩
  | close i how now =>
    obtain ⟨q, hq, rfl⟩ := map_eq_some_iff.1 h
    exact ⟨[.close i how], runOps_cons hq rfl⟩
  | createWindow w confirmed now =>
    rcases invalidate_cases (createWindow_cases h) with ⟨q, hq, rfl⟩ | rfl
    · exact ⟨[.bump, .enqueue _ _ _ _ _], runOps_cons rfl (runOps_cons hq rfl)⟩
    · exact ⟨[.bump], rfl⟩
  | annulWindow id confirmed now =>
    obtain ⟨w, -, h⟩ := annulWindow_cases h
    rcases invalidate_cases h with ⟨q, hq, rfl⟩ | rfl
    · exact ⟨[.bump, .enqueue _ _ _ _ _], runOps_cons rfl (runOps_cons hq rfl)⟩
    · exact ⟨[.bump], rfl⟩
  | archiveWindow id now =>
    rw [archiveWindow_cases h]
    exact ⟨[.bump], rfl⟩
  | enqueueAdmin start stop now =>
    obtain ⟨q, hq, rfl⟩ := map_eq_some_iff.1 h
    exact ⟨[.enqueue start stop .admin none now], runOps_cons hq rfl⟩

theorem step_cases (h : s.step cfg op = some s') : s.decls.clock ≤ op.now ∧
      ((∃ w r, op = .put w ∧ s.decls.put cfg w = .ok r ∧
          s' = { s with
            decls := r.decls
            materialization := trackDeclaration s.decls r s.materialization
            queue := s.queue.cancelRangesOfOrigin r.displaced }) ∨
       (∃ project r, op = .bump project op.now ∧ s.decls.bump cfg project op.now = .ok r ∧
          s' = { s with decls := r.1, queue := s.queue.cancelRangesOfOrigin r.2 }) ∨
       (s.tick op.now).act op = some s') := by
  unfold step at h
  split at h
  · cases h
  rename_i hnow
  refine ⟨not_lt.1 hnow, ?_⟩
  split at h
  · next w =>
    unfold put at h
    cases hp : s.decls.put cfg w with
    | error e => simp [hp, Except.toOption] at h
    | ok r =>
      refine .inl ⟨w, r, rfl, hp, ?_⟩
      simpa [hp, bind, Except.bind, Except.toOption, pure, Except.pure] using h.symm
  · next project now =>
    unfold bump at h
    cases hp : s.decls.bump cfg project now with
    | error e => simp [hp, Except.toOption] at h
    | ok r =>
      refine .inr (.inl ⟨project, r, rfl, hp, ?_⟩)
      simpa [hp, bind, Except.bind, Except.toOption, pure, Except.pure] using h.symm
  · exact .inr (.inr h)

/-- **The declarations of the system run as declarations do.** -/
theorem step_decls (h : s.step cfg op = some s') :
    ∃ dop : DeclarationOp, s.decls.step cfg dop = some s'.decls := by
  obtain ⟨hnow, ⟨w, r, rfl, hp, rfl⟩ | ⟨project, r, hop, hp, rfl⟩ | hact⟩ := step_cases h
  · refine ⟨.put w, ?_⟩
    rw [Declarations.step, if_neg (by exact not_lt.2 hnow)]
    simp [hp, Except.toOption]
  · refine ⟨.bump project op.now, ?_⟩
    rw [Declarations.step, if_neg (by exact not_lt.2 hnow)]
    simp [hp, Except.toOption]
  · refine ⟨.tick op.now, ?_⟩
    rw [Declarations.step, if_neg (by exact not_lt.2 hnow), act_decls hact]
    rfl

/-- **The queue of the system runs as queues do.** -/
theorem step_queue (h : s.step cfg op = some s') :
    ∃ ops, runOps Queue.step s.queue ops = some s'.queue := by
  obtain ⟨-, ⟨w, r, -, -, rfl⟩ | ⟨project, r, -, -, rfl⟩ | hact⟩ := step_cases h
  · exact ⟨[.cancel r.displaced], rfl⟩
  · exact ⟨[.cancel r.2], rfl⟩
  · obtain ⟨ops, hops⟩ := act_queue hact
    exact ⟨ops, hops⟩

/-! ## The base invariant -/

end Tables

/-- The cursor and the era are boundaries, and the cursor is not behind its era. -/
structure Materialization.Ok (m : Materialization) : Prop where
  cursor : Aligned m.materializedThrough
  era : Aligned m.eraStart
  le : m.eraStart ≤ m.materializedThrough

namespace Tables

variable {cfg : Config} {s s' : Tables} {op : ServiceOp}

/-- The invariants of the parts, which fit together. -/
structure Base (s : Tables) : Prop where
  decls : s.decls.Inv
  queue : s.queue.Reachable
  row : ∀ m, s.materialization = some m → m.Ok
  keys : Distinct Fact.bucketStart s.facts
  buckets : ∀ f ∈ s.facts, Aligned f.bucketStart
  heartbeats : UniqueObservations s.heartbeats

theorem empty_base (clock : Int) (monitors : List String) : (empty clock monitors).Base where
  decls := empty_inv clock
  queue := .init
  row := by simp [empty]
  keys := by simp [empty, Distinct]
  buckets := by simp [empty]
  heartbeats := by simp [empty, UniqueObservations]

variable {d : Declarations} {r : Declared} {m : Materialization} {now : Int}

theorem trackDeclaration_ok
    {m : Option Materialization} (hm : ∀ m', m = some m' → m'.Ok) (hr : Aligned r.effectiveAt) :
    ∀ m', trackDeclaration d r m = some m' → m'.Ok := by
  have hrow : (ensureMaterializationRow m r.effectiveAt).Ok := by
    cases m with
    | none => exact ⟨hr, hr, le_rfl⟩
    | some m => exact hm m rfl
  intro m' h
  unfold trackDeclaration at h
  split at h
  · exact hm m' h
  split at h
  · cases h
    refine ⟨?_, hr, le_max_right _ _⟩
    rcases max_choice (ensureMaterializationRow m r.effectiveAt).materializedThrough
      r.effectiveAt with he | he
    · simpa only [Materialization.startEra, he] using hrow.cursor
    · simpa only [Materialization.startEra, he] using hr
  · cases h
    exact hrow

theorem trackDeclaration_sealedThrough {row : Option Materialization} {t : Int}
    (h : trackDeclaration d r row = some m) (ht : m.sealedThrough = some t) : row = some m := by
  unfold trackDeclaration at h
  split at h
  · exact h
  split at h
  · cases h
    cases ht
  · cases row with
    | none =>
      cases h
      cases ht
    | some m₀ => exact h

theorem advanceSealedThrough_ok (hm : ∀ m, s.materialization = some m → m.Ok) :
    ∀ m, s.advanceSealedThrough.materialization = some m → m.Ok := by
  intro m h
  rcases advanceSealedThrough_cases s with he | ⟨m₀, hm₀, he⟩
  · exact hm m (he ▸ h)
  · rw [he] at h
    cases h
    exact ⟨(hm m₀ hm₀).cursor, (hm m₀ hm₀).era, (hm m₀ hm₀).le⟩

theorem rewind_ok (h : m.Ok) (t : Int) : (rewind m t).Ok := by
  unfold rewind
  split
  · exact ⟨h.cursor, h.era, h.le⟩
  · split
    · exact ⟨h.cursor, h.era, h.le⟩
    · exact h

theorem invalidate_ok {window : Nat} {monitorID : String} {start stop : Int}
    (h : s.invalidate window monitorID start stop now = some s')
    (hm : ∀ m, s.materialization = some m → m.Ok) : ∀ m, s'.materialization = some m → m.Ok := by
  intro m h'
  rcases invalidate_cases h with ⟨q, -, rfl⟩ | rfl
  · obtain ⟨m₀, hm₀, rfl⟩ := map_eq_some_iff.1 h'
    exact rewind_ok (hm m₀ hm₀) _
  · exact hm m h'

theorem advanceSealedThrough_heartbeats (s : Tables) :
    s.advanceSealedThrough.heartbeats = s.heartbeats := by
  rw [advanceSealedThrough_frame]

theorem unique_append {hb : Observation} (h : UniqueObservations s.heartbeats)
    (hnew : ¬ s.isDuplicate hb) : UniqueObservations (s.heartbeats ++ [hb]) := by
  have hother : ∀ o ∈ s.heartbeats, o.monitorID = hb.monitorID → o.ts ≠ hb.ts := by
    simpa [isDuplicate] using hnew
  intro o ho o' ho' hid hts
  rcases mem_concat.1 ho with hold | rfl <;> rcases mem_concat.1 ho' with hold' | rfl
  · exact h o hold o' hold' hid hts
  · exact absurd hts (hother o hold hid)
  · exact absurd hts.symm (hother o' hold' hid.symm)
  · rfl

theorem Base.act (h : s.Base) (hact : s.act op = some s') :
    (∀ m, s'.materialization = some m → m.Ok) ∧ Distinct Fact.bucketStart s'.facts ∧
      (∀ f ∈ s'.facts, Aligned f.bucketStart) ∧ UniqueObservations s'.heartbeats := by
  have hgrid := h.queue.onGrid
  -- the facts of a range that starts on the grid are on the grid
  have hrange : ∀ {mode now n start s₁}, Aligned start →
      s.materializeRange mode now n start = .ok s₁ →
      Distinct Fact.bucketStart s₁.facts ∧ (∀ f ∈ s₁.facts, Aligned f.bucketStart) ∧
        UniqueObservations s₁.heartbeats := by
    intro mode now n start s₁ hs hr
    have hspec := materializeRange_spec hr
    refine ⟨hspec.keys h.keys, fun f hf => ?_, by rw [hspec.frame]; exact h.heartbeats⟩
    rcases hspec.facts f hf with ⟨hf, -⟩ | ⟨⟨k, -, hk⟩, -⟩
    · exact h.buckets f hf
    · rw [hk]
      exact hs.add k
  cases op with
  | put w => cases hact
  | bump project now => cases hact
  | ingest hb now =>
    rcases ingest_cases hact with ⟨-, rfl⟩ | ⟨hnew, q, rfl, -⟩
    · exact ⟨h.row, h.keys, h.buckets, h.heartbeats⟩
    · exact ⟨h.row, h.keys, h.buckets, unique_append h.heartbeats hnew⟩
  | advance buckets now =>
    obtain ⟨m, s₁, hm, hr, rfl⟩ := advance_cases hact
    have hok := h.row m hm
    refine ⟨advanceSealedThrough_ok ?_, ?_⟩
    · intro m' hm'
      cases hm'
      refine ⟨hok.cursor.add buckets, hok.era, ?_⟩
      have := Int.mul_nonneg (Int.natCast_nonneg buckets) canonicalBucket_pos.le
      exact hok.le.trans (Int.le_add_of_nonneg_right this)
    · rw [advanceSealedThrough_facts, advanceSealedThrough_heartbeats]
      have hfacts := hrange hok.cursor hr
      exact hfacts
  | batch i size now =>
    obtain ⟨w, q, s₁, hw, -, hr, rfl⟩ := repairBatch_cases hact
    refine ⟨advanceSealedThrough_ok ?_, ?_⟩
    · rw [(materializeRange_spec hr).frame]
      exact h.row
    · show Distinct _ s₁.advanceSealedThrough.facts ∧ (∀ f ∈ s₁.advanceSealedThrough.facts, _) ∧
        UniqueObservations s₁.advanceSealedThrough.heartbeats
      rw [advanceSealedThrough_facts, advanceSealedThrough_heartbeats]
      exact hrange (hgrid.workers w (List.mem_of_getElem? hw)).2.2 hr
  | claim id now =>
    obtain ⟨q, -, rfl⟩ := map_eq_some_iff.1 hact
    exact ⟨h.row, h.keys, h.buckets, h.heartbeats⟩
  | close i how now =>
    obtain ⟨q, -, rfl⟩ := map_eq_some_iff.1 hact
    exact ⟨h.row, h.keys, h.buckets, h.heartbeats⟩
  | enqueueAdmin start stop now =>
    obtain ⟨q, -, rfl⟩ := map_eq_some_iff.1 hact
    exact ⟨h.row, h.keys, h.buckets, h.heartbeats⟩
  | archiveWindow id now =>
    rw [archiveWindow_cases hact]
    exact ⟨h.row, h.keys, h.buckets, h.heartbeats⟩
  | createWindow w confirmed now =>
    have hinv := createWindow_cases hact
    refine ⟨invalidate_ok hinv h.row, ?_⟩
    rcases invalidate_cases hinv with ⟨q, -, rfl⟩ | rfl <;> exact ⟨h.keys, h.buckets, h.heartbeats⟩
  | annulWindow id confirmed now =>
    obtain ⟨w, -, hinv⟩ := annulWindow_cases hact
    refine ⟨invalidate_ok hinv h.row, ?_⟩
    rcases invalidate_cases hinv with ⟨q, -, rfl⟩ | rfl <;> exact ⟨h.keys, h.buckets, h.heartbeats⟩

theorem Base.tick (h : s.Base) (hnow : s.decls.clock ≤ now) : (s.tick now).Base :=
  ⟨h.decls.tick hnow, h.queue, h.row, h.keys, h.buckets, h.heartbeats⟩

theorem Base.step (h : s.Base) (hs : s.step cfg op = some s') : s'.Base := by
  obtain ⟨dop, hd⟩ := step_decls hs
  obtain ⟨ops, hq⟩ := step_queue hs
  have hdecls := h.decls.step hd
  have hqueue := reach_append_runOps (fun _ _ _ => trivial) h.queue hq
  obtain ⟨hnow, ⟨w, r, rfl, hp, rfl⟩ | ⟨project, r, -, -, rfl⟩ | hact⟩ := step_cases hs
  · have hb := boundaryOf_aligned (put_spec hp).boundary
    exact ⟨hdecls, hqueue, trackDeclaration_ok h.row hb, h.keys, h.buckets, h.heartbeats⟩
  · exact ⟨hdecls, hqueue, h.row, h.keys, h.buckets, h.heartbeats⟩
  · obtain ⟨hrow, hkeys, hbuckets, hheartbeats⟩ := (h.tick hnow).act hact
    exact ⟨hdecls, hqueue, hrow, hkeys, hbuckets, hheartbeats⟩

theorem base_of_reach {ok : Tables → ServiceOp → Prop} {clock : Int} {monitors : List String}
    (h : Reach (step cfg) ok (empty clock monitors) s) : s.Base :=
  h.invariant (empty_base clock monitors) fun _ _ _ hb _ hs => hb.step hs

/-- **The tables of a service fit together in every run**: its axes agree, repair alone could reach
its queue, a bucket has at most one fact, and the cursor is a boundary within the era. -/
theorem fit_of_reach {clock : Int} {monitors : List String}
    (h : Reach (step cfg) anyStep (empty clock monitors) s) :
    s.decls.Coherent ∧ s.queue.Reachable ∧ Distinct Fact.bucketStart s.facts ∧
      (∀ f ∈ s.facts, Aligned f.bucketStart) ∧ ∀ m, s.materialization = some m → m.Ok := by
  have hb := base_of_reach h
  exact ⟨hb.decls.coherent, hb.queue, hb.keys, hb.buckets, hb.row⟩

end Tables

def webService (ops : List ServiceOp) : Tables :=
  finalState (Tables.step plainConfig) (.empty 0 ["web"]) ops

theorem webService_reach (ops : List ServiceOp) :
    Reach (Tables.step plainConfig) anyStep (.empty 0 ["web"]) (webService ops) :=
  reach_finalState fun _ _ _ => trivial

theorem webService_fits :
    let s := webService [.put (declareWeb ["web"] 0 0 (60 * Go.minute)),
        .advance 2 (70 * Go.minute)]
    s.facts.length = 2 ∧ Distinct Fact.bucketStart s.facts :=
  ⟨by decide, (Tables.fit_of_reach (webService_reach _)).2.2.1⟩

end Cerbix.Service
