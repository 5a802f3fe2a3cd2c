import Cerbix.Service.Sealed

/-!
# The handshake between ingest and the forward driver

One ingest transaction and one slice of the forward driver, statement by statement. A statement
reads what is committed when it starts and its own transaction's writes; it waits only for row
locks. Ingest takes the row of `service_bucket_ingest` of the heartbeat's bucket, the slice that of
every bucket it walks, so they race only when the heartbeat's bucket lies behind the slice
(`handshake_iff`, `carryInRace_inconsistent`).
-/

namespace Cerbix.Service

open Cerbix.Lib Cerbix.Domain Cerbix.Reliability List Option
open Tables hiding frontier

/-! ## The two transactions -/

/-- The statement that ingest is at. -/
inductive IngestPc
  | insert | mark | readFrontier | enqueue | commit | committed
  deriving DecidableEq, Repr

/-- The statement that the slice is at. -/
inductive ForwardPc
  | claim | lock | read | persist | commit | committed
  deriving DecidableEq, Repr

/-- A heartbeat on its way into the tables. `frontier` is what the transaction has read, `queue`
what it will commit, `early` that it read before the slice had committed. -/
structure IngestTx where
  hb : Observation
  now : Int
  pc : IngestPc
  frontier : Option Int
  queue : Option Queue
  early : Bool
  deriving DecidableEq, Repr

/-- A slice on its way. `locked` are the ingest rows it holds, `written` and `row` what it will
commit, `saw` the buckets whose evidence it read after the heartbeat was committed. -/
structure ForwardTx where
  now : Int
  left : Nat
  pc : ForwardPc
  cursor : Int
  bucket : Int
  locked : List Int
  written : List Fact
  row : Option Materialization
  saw : List Int
  deriving DecidableEq, Repr

/-- The committed data and the two transactions. -/
structure Concurrent where
  db : Tables
  ingest : IngestTx
  forward : ForwardTx
  deriving DecidableEq, Repr

def IngestTx.holds (t : IngestTx) (b : Int) : Bool :=
  b = floorToBucket t.hb.ts ∧ (t.pc = .readFrontier ∨ t.pc = .enqueue ∨ t.pc = .commit)

def ForwardTx.holds (t : ForwardTx) (b : Int) : Bool := b ∈ t.locked ∧ t.pc ≠ .committed

def ForwardTx.lock (t : ForwardTx) : ForwardTx :=
  { t with pc := .read, locked := t.bucket :: t.locked }

def ForwardTx.walk (t : ForwardTx) (f : Option Fact) (sees : Bool) : ForwardTx :=
  { t with
    pc := if t.left ≤ 1 then .persist else .lock
    left := t.left - 1
    bucket := t.bucket + canonicalBucket
    written := t.written ++ f.toList
    saw := if sees then t.bucket :: t.saw else t.saw }

def overlay (facts written : List Fact) : List Fact :=
  facts.filter (fun f => f.bucketStart ∉ written.map Fact.bucketStart) ++ written

variable (w : Concurrent)

namespace Concurrent

/-- What the slice reads: its own writes over the committed ones. -/
def view : Tables :=
  { w.db with facts := overlay w.db.facts w.forward.written }

/-- The queue ingest leaves: unchanged without a row or at the frontier, behind it with the reach of
the observation. -/
def enqueued : Option Queue :=
  let t := w.ingest
  match t.frontier with
  | none => some w.db.queue
  | some frontier =>
    if floorToBucket t.hb.ts < frontier then
      w.db.queue.enqueue (floorToBucket t.hb.ts)
        (lateObservationReachEnd (w.db.heartbeats ++ [t.hb]) t.hb.monitorID t.hb.ts frontier)
        .lateData none t.now
    else some w.db.queue

/-- The next statement of ingest. A duplicate leaves nothing, and a heartbeat that the service does
not count is committed without a mark: neither takes a lock. -/
def ingestStep : Option Concurrent :=
  let t := w.ingest
  match t.pc with
  | .insert =>
    if w.db.isDuplicate t.hb then some { w with ingest := { t with pc := .committed } }
    else if w.db.routes t.hb then some { w with ingest := { t with pc := .mark } }
    else some { w with
      db := { w.db with heartbeats := w.db.heartbeats ++ [t.hb] }
      ingest := { t with pc := .committed } }
  | .mark =>
    if w.forward.holds (floorToBucket t.hb.ts) then none
    else some { w with ingest := { t with pc := .readFrontier } }
  | .readFrontier =>
    some { w with ingest := { t with
      pc := .enqueue
      frontier := w.db.materialization.map Tables.frontier
      early := w.forward.pc ≠ .committed } }
  | .enqueue => w.enqueued.map fun q =>
    { w with ingest := { t with pc := .commit, queue := some q } }
  | .commit =>
    some { w with
      db := { w.db with heartbeats := w.db.heartbeats ++ [t.hb], queue := t.queue.getD w.db.queue }
      ingest := { t with pc := .committed } }
  | .committed => none

/-- The next statement of the slice. -/
def forwardStep : Option Concurrent :=
  let t := w.forward
  match t.pc with
  | .claim =>
    match w.db.materialization with
    | none => none
    | some m =>
      let horizon := floorToBucket (t.now - lateArrivalGrace)
      let cursor := m.materializedThrough
      let stop := min (cursor + maxBucketsPerAdvance * canonicalBucket) horizon
      if cursor < horizon ∧ 0 < t.left ∧ cursor + (t.left - 1) * canonicalBucket < stop then
        some { w with forward := { t with pc := .lock, cursor := cursor, bucket := cursor } }
      else none
  | .lock =>
    if w.ingest.holds t.bucket then none
    else some { w with forward := t.lock }
  | .read =>
    match w.view.materializeBucket t.bucket .ordinary t.now with
    | .error _ => none
    | .ok f => some { w with forward := t.walk f (w.ingest.pc = .committed) }
  | .persist =>
    match w.db.materialization with
    | none => none
    | some m =>
      let reached := { m with materializedThrough := t.bucket }
      some { w with forward := { t with
        pc := .commit
        row := (w.view.setMaterialization reached).advanceSealedThrough.materialization } }
  | .commit =>
    some { w with
      db := { w.view with materialization := t.row }
      forward := { t with pc := .committed } }
  | .committed => none

end Concurrent

inductive Actor
  | ingest | forward
  deriving DecidableEq, Repr

namespace Concurrent

/-- One statement of one of the transactions; a statement that waits for a lock does not run. -/
def step : Actor → Option Concurrent
  | .ingest => w.ingestStep
  | .forward => w.forwardStep

def start (s : Tables) (hb : Observation) (ingestNow : Int) (buckets : Nat) (forwardNow : Int) :
    Concurrent where
  db := s
  ingest := ⟨hb, ingestNow, .insert, none, none, false⟩
  forward := ⟨forwardNow, buckets, .claim, 0, 0, [], [], none, []⟩

end Concurrent

section Overlay

variable {facts written : List Fact} {f : Fact}

theorem mem_overlay : f ∈ overlay facts written ↔
    (f ∈ facts ∧ f.bucketStart ∉ written.map Fact.bucketStart) ∨ f ∈ written := by
  simp [overlay]

end Overlay

/-! ## The statements -/

/-- The statements of ingest for a heartbeat that is new and counted. -/
inductive IngestStep (w : Concurrent) : Concurrent → Prop
  | insert (h : w.ingest.pc = .insert) :
    IngestStep w { w with ingest := { w.ingest with pc := .mark } }
  | mark (h : w.ingest.pc = .mark)
    (hfree : w.forward.holds (floorToBucket w.ingest.hb.ts) = false) :
    IngestStep w { w with ingest := { w.ingest with pc := .readFrontier } }
  | readFrontier (h : w.ingest.pc = .readFrontier) :
    IngestStep w { w with ingest := { w.ingest with
      pc := .enqueue
      frontier := w.db.materialization.map Tables.frontier
      early := w.forward.pc ≠ .committed } }
  | enqueue (q : Queue) (h : w.ingest.pc = .enqueue) (hq : w.enqueued = some q) :
    IngestStep w { w with ingest := { w.ingest with pc := .commit, queue := some q } }
  | commit (h : w.ingest.pc = .commit) :
    IngestStep w { w with
      db := { w.db with
        heartbeats := w.db.heartbeats ++ [w.ingest.hb], queue := w.ingest.queue.getD w.db.queue }
      ingest := { w.ingest with pc := .committed } }

/-- The statements of the slice, one by one. -/
inductive ForwardStep (w : Concurrent) : Concurrent → Prop
  | claim (m : Materialization) (h : w.forward.pc = .claim) (hm : w.db.materialization = some m) :
    ForwardStep w { w with forward := { w.forward with
      pc := .lock, cursor := m.materializedThrough, bucket := m.materializedThrough } }
  | lock (h : w.forward.pc = .lock) (hfree : w.ingest.holds w.forward.bucket = false) :
    ForwardStep w { w with forward := w.forward.lock }
  | read (f : Option Fact) (h : w.forward.pc = .read)
    (hf : w.view.materializeBucket w.forward.bucket .ordinary w.forward.now = .ok f) :
    ForwardStep w { w with forward := w.forward.walk f (w.ingest.pc = .committed) }
  | persist (m : Materialization) (h : w.forward.pc = .persist)
    (hm : w.db.materialization = some m) :
    ForwardStep w { w with forward := { w.forward with
      pc := .commit
      row := (w.view.setMaterialization { m with
        materializedThrough := w.forward.bucket }).advanceSealedThrough.materialization } }
  | commit (h : w.forward.pc = .commit) :
    ForwardStep w { w with
      db := { w.view with materialization := w.forward.row }
      forward := { w.forward with pc := .committed } }

namespace Concurrent

variable {w w' : Concurrent} {s : Tables} {hb : Observation}

/-- The committed tables are the old ones with what each transaction has committed. -/
structure Published (s : Tables) (hb : Observation) (w : Concurrent) : Prop where
  heartbeat : w.ingest.hb = hb
  decls : w.db.decls = s.decls
  facts : w.db.facts =
    if w.forward.pc = .committed then overlay s.facts w.forward.written else s.facts
  row : w.db.materialization =
    if w.forward.pc = .committed then w.forward.row else s.materialization
  heartbeats : w.db.heartbeats =
    if w.ingest.pc = .committed then s.heartbeats ++ [hb] else s.heartbeats
  queue : w.db.queue = if w.ingest.pc = .committed then w.ingest.queue.getD s.queue else s.queue

theorem ingestStep_cases (hp : Published s hb w) (hroutes : s.routes hb)
    (hnew : s.isDuplicate hb = false) (h : w.step .ingest = some w') : IngestStep w w' := by
  simp only [step, ingestStep] at h
  split at h
  · next hpc =>
    have hd : w.db.isDuplicate w.ingest.hb = false := by
      simpa [isDuplicate, hp.heartbeat, hp.heartbeats, hpc] using hnew
    have hr : w.db.routes w.ingest.hb := by
      simpa [routes, declaresMonitorAt, hp.heartbeat, hp.decls] using hroutes
    rw [hd, hr] at h
    cases h
    exact .insert hpc
  · next hpc =>
    split at h
    · cases h
    rename_i hfree
    cases h
    exact .mark hpc (by simpa using hfree)
  · next hpc =>
    cases h
    exact .readFrontier hpc
  · next hpc =>
    obtain ⟨q, hq, rfl⟩ := map_eq_some_iff.1 h
    exact .enqueue q hpc hq
  · next hpc =>
    cases h
    exact .commit hpc
  · cases h

theorem forwardStep_cases (h : w.step .forward = some w') : ForwardStep w w' := by
  simp only [step, forwardStep] at h
  split at h
  · next hpc =>
    split at h
    · cases h
    rename_i m hm
    split at h
    · cases h
      exact .claim m hpc hm
    · cases h
  · next hpc =>
    split at h
    · cases h
    rename_i hfree
    cases h
    exact .lock hpc (by simpa using hfree)
  · next hpc =>
    split at h
    · cases h
    rename_i f hf
    cases h
    exact .read f hpc hf
  · next hpc =>
    split at h
    · cases h
    rename_i m hm
    cases h
    exact .persist m hpc hm
  · next hpc =>
    cases h
    exact .commit hpc
  · cases h

theorem Published.ingest (h : Published s hb w) (hs : IngestStep w w') : Published s hb w' := by
  obtain ⟨hhb, hdecls, hfacts, hrow, hbeats, hqueue⟩ := h
  cases hs with
  | commit hpc => exact ⟨hhb, hdecls, hfacts, hrow, by simp [hbeats, hpc, hhb],
    by simp [hqueue, hpc]⟩
  | enqueue q hpc _ => exact ⟨hhb, hdecls, hfacts, hrow, by simp [hbeats, hpc],
    by simp [hqueue, hpc]⟩
  | _ hpc => exact ⟨hhb, hdecls, hfacts, hrow, by simp [hbeats, hpc], by simp [hqueue, hpc]⟩

open ForwardTx

theorem Published.forward (h : Published s hb w) (hs : ForwardStep w w') : Published s hb w' := by
  obtain ⟨hhb, hdecls, hfacts, hrow, hbeats, hqueue⟩ := h
  cases hs with
  | commit hpc => exact ⟨hhb, hdecls, by simp [view, hfacts, hpc], by simp, hbeats, hqueue⟩
  | claim m hpc _ => exact ⟨hhb, hdecls, by simp [hfacts, hpc], by simp [hrow, hpc], hbeats, hqueue⟩
  | lock hpc _ =>
    exact ⟨hhb, hdecls, by simp [hfacts, hpc, lock],
      by simp [hrow, hpc, lock], hbeats, hqueue⟩
  | read f hpc _ =>
    have hnot : (w.forward.walk f (w.ingest.pc = .committed)).pc ≠ .committed := by
      simp only [walk]
      split <;> simp
    exact ⟨hhb, hdecls, by simp [hfacts, hpc, hnot], by simp [hrow, hpc, hnot], hbeats, hqueue⟩
  | persist m hpc _ =>
    exact ⟨hhb, hdecls, by simp [hfacts, hpc], by simp [hrow, hpc], hbeats, hqueue⟩

/-! ## How far the slice is -/

/-- The slice walks the grid from the cursor on: every bucket passed is locked, its facts lie
between the cursor and its next bucket, and the row it leaves ends there. -/
structure Walked (s : Tables) (w : Concurrent) : Prop where
  claimed : w.forward.pc ≠ .claim →
    ∃ m, s.materialization = some m ∧ w.forward.cursor = m.materializedThrough
  bucket : Aligned w.forward.bucket
  le : w.forward.cursor ≤ w.forward.bucket
  written : ∀ f ∈ w.forward.written, w.forward.cursor ≤ f.bucketStart ∧
    f.bucketStart < w.forward.bucket ∧ Aligned f.bucketStart
  locked : ∀ b, Aligned b → w.forward.cursor ≤ b → b < w.forward.bucket → b ∈ w.forward.locked
  reading : w.forward.pc = .read → w.forward.bucket ∈ w.forward.locked
  untouched : w.forward.pc = .claim → w.forward.written = [] ∧ w.forward.locked = []
  row : w.forward.pc = .commit ∨ w.forward.pc = .committed →
    ∃ m, w.forward.row = some m ∧ m.materializedThrough = w.forward.bucket

theorem start_walked (ingestNow : Int) (buckets : Nat) (forwardNow : Int) :
    Walked s (start s hb ingestNow buckets forwardNow) where
  claimed h := absurd rfl h
  bucket := by
    show Aligned 0
    decide
  le := le_rfl
  written := by simp [start]
  locked b _ h₁ h₂ := by
    simp only [start] at h₁ h₂
    omega
  reading h := by cases h
  untouched _ := ⟨rfl, rfl⟩
  row h := by rcases h with h | h <;> cases h

theorem Walked.forward (h : Walked s w) (hbase : s.Base) (hp : Published s hb w)
    (hs : ForwardStep w w') : Walked s w' := by
  obtain ⟨hclaimed, hal, hle, hwritten, hlocked, hreading, huntouched, hrow⟩ := h
  have hpos := canonicalBucket_pos
  cases hs with
  | claim m hpc hm =>
    have hm' : s.materialization = some m := by
      rw [← hm, hp.row, if_neg (by simp [hpc])]
    obtain ⟨hw, hl⟩ := huntouched hpc
    refine ⟨fun _ => ⟨m, hm', rfl⟩, (hbase.row m hm').cursor, le_rfl, by simp [hw], ?_, ?_, ?_, ?_⟩
    · intro b _ h₁ h₂
      simp only at h₁ h₂
      omega
    all_goals simp
  | lock hpc _ =>
    have hc := hclaimed (by simp [hpc])
    refine ⟨fun _ => hc, hal, hle, hwritten, ?_, fun _ => mem_cons_self, ?_, ?_⟩
    · exact fun b hb h₁ h₂ => mem_cons_of_mem _ (hlocked b hb h₁ h₂)
    all_goals simp [lock]
  | read f hpc hf =>
    have hc := hclaimed (by simp [hpc])
    have hnext : Aligned (w.forward.bucket + canonicalBucket) := by simpa using hal.add 1
    refine ⟨fun _ => hc, hnext, by simp only [walk]; omega, ?_, ?_, ?_, ?_, ?_⟩
    · intro x hx
      simp only [walk]
      rcases mem_append.1 hx with hx | hx
      · have := hwritten x hx
        exact ⟨this.1, by omega, this.2.2⟩
      · rw [mem_toList] at hx
        obtain rfl := mem_def.1 hx
        have hb := (materializeBucket_written hf).1
        rw [hb]
        exact ⟨hle, by omega, hal⟩
    · intro b hb h₁ h₂
      simp only [walk] at h₁ h₂ ⊢
      rcases lt_or_ge b w.forward.bucket with hlt | hge
      · exact hlocked b hb h₁ hlt
      -- the only grid point between a bucket and the next is the bucket
      have : ¬ w.forward.bucket < b := fun hgt => by
        have := hal.add_le_of_lt hb hgt
        omega
      rw [show b = w.forward.bucket by omega]
      exact hreading hpc
    all_goals
      simp only [walk]
      split <;> simp
  | persist m hpc hm =>
    have hc := hclaimed (by simp [hpc])
    refine ⟨fun _ => hc, hal, hle, hwritten, hlocked, by simp, by simp, fun _ => ?_⟩
    have hset : (w.view.setMaterialization { m with
        materializedThrough := w.forward.bucket }).materialization = some _ := rfl
    exact advanceSealedThrough_through hset
  | commit hpc =>
    have hc := hclaimed (by simp [hpc])
    exact ⟨fun _ => hc, hal, hle, hwritten, hlocked, by simp, by simp, fun _ => hrow (.inl hpc)⟩

/-- Ingest reads the frontier of the old row, early, or of the row the slice has committed, and
queues from what it has read. -/
structure Noted (s : Tables) (w : Concurrent) : Prop where
  unread : w.ingest.pc = .insert ∨ w.ingest.pc = .mark ∨ w.ingest.pc = .readFrontier →
    w.ingest.early = false
  frontier : w.ingest.pc = .enqueue ∨ w.ingest.pc = .commit ∨ w.ingest.pc = .committed →
    ∃ row, w.ingest.frontier = row.map Tables.frontier ∧
      ((w.ingest.early = true ∧ row = s.materialization) ∨
        (w.ingest.early = false ∧ w.forward.pc = .committed ∧ row = w.forward.row))
  queue : w.ingest.pc = .commit ∨ w.ingest.pc = .committed →
    ∃ q, w.ingest.queue = some q ∧ ({ w with db := s } : Concurrent).enqueued = some q

theorem Noted.ingest (h : Noted s w) (hp : Published s hb w) (hs : IngestStep w w') :
    Noted s w' := by
  obtain ⟨hunread, hfrontier, hqueue⟩ := h
  cases hs with
  | insert hpc => exact ⟨fun _ => hunread (by simp [hpc]), by simp, by simp⟩
  | mark hpc _ => exact ⟨fun _ => hunread (by simp [hpc]), by simp, by simp⟩
  | readFrontier hpc =>
    refine ⟨by simp, fun _ => ⟨w.db.materialization, rfl, ?_⟩, by simp⟩
    by_cases hc : w.forward.pc = .committed
    · exact .inr ⟨by simp [hc], hc, by rw [hp.row, if_pos hc]⟩
    · exact .inl ⟨by simp [hc], by rw [hp.row, if_neg hc]⟩
  | enqueue q hpc hq =>
    refine ⟨by simp, fun _ => hfrontier (by simp [hpc]), fun _ => ⟨q, rfl, ?_⟩⟩
    rw [← hq]
    unfold enqueued
    simp only [hp.queue, hp.heartbeats, hpc, reduceCtorEq, if_false]
  | commit hpc =>
    refine ⟨by simp, fun _ => hfrontier (by simp [hpc]), fun _ => ?_⟩
    exact hqueue (.inl hpc)

theorem ForwardStep.ne_committed (hs : ForwardStep w w') :
    w.forward.pc ≠ .committed ∧ w'.ingest = w.ingest := by
  cases hs <;> simp_all

theorem Noted.forward (h : Noted s w) (hs : ForwardStep w w') : Noted s w' := by
  obtain ⟨hne, hi⟩ := ForwardStep.ne_committed hs
  refine ⟨by rw [hi]; exact h.unread, ?_, ?_⟩
  · rw [hi]
    intro hpc
    obtain ⟨row, hrow, ⟨he, hs⟩ | ⟨-, hc, -⟩⟩ := h.frontier hpc
    · exact ⟨row, hrow, .inl ⟨he, hs⟩⟩
    · exact absurd hc hne
  · intro hpc
    rw [hi] at hpc
    obtain ⟨q, hq, he⟩ := h.queue hpc
    refine ⟨q, by rw [hi]; exact hq, ?_⟩
    rw [← he]
    unfold enqueued
    simp [hi]

/-! ## The lock of the heartbeat's bucket -/

/-- If the slice walks the heartbeat's bucket, ingest waits for it, or the slice has waited for
ingest. -/
def Excluded (hb : Observation) (w : Concurrent) : Prop :=
  floorToBucket hb.ts ∈ w.forward.locked → (w.ingest.pc = .insert ∨ w.ingest.pc = .mark) ∨
    (w.forward.pc = .committed ∧ w.ingest.early = false) ∨
    (w.ingest.pc = .committed ∧
      ∀ f ∈ w.forward.written, floorToBucket hb.ts ≤ f.bucketStart → f.bucketStart ∈ w.forward.saw)

theorem Excluded.ingest (h : Excluded hb w) (hp : Published s hb w) (hn : Noted s w)
    (hs : IngestStep w w') : Excluded hb w' := by
  cases hs with
  | insert hpc => exact fun hl => .inl (.inr rfl)
  | mark hpc hfree =>
    intro hl
    -- the lock is free although the slice took it, so the slice has committed
    rw [hp.heartbeat] at hfree
    have hc : w.forward.pc = .committed := by
      by_contra hne
      simp [holds, show floorToBucket hb.ts ∈ w.forward.locked from hl, hne] at hfree
    exact .inr (.inl ⟨hc, hn.unread (by simp [hpc])⟩)
  | readFrontier hpc =>
    intro hl
    rcases h hl with h | ⟨hc, -⟩ | ⟨h, -⟩
    · simp [hpc] at h
    · exact .inr (.inl ⟨hc, by simp [hc]⟩)
    · simp [hpc] at h
  | enqueue q hpc hq =>
    intro hl
    rcases h hl with h | h | ⟨h, -⟩
    · simp [hpc] at h
    · exact .inr (.inl h)
    · simp [hpc] at h
  | commit hpc =>
    intro hl
    rcases h hl with h | h | ⟨h, -⟩
    · simp [hpc] at h
    · exact .inr (.inl h)
    · simp [hpc] at h

theorem Excluded.forward (h : Excluded hb w) (hp : Published s hb w) (hw : Walked s w)
    (hs : ForwardStep w w') : Excluded hb w' := by
  have hne := (ForwardStep.ne_committed hs).1
  -- a slice that goes on keeps what held of the old locks, if it saw the heartbeat where it reads
  have hold : ∀ {t : ForwardTx},
      (floorToBucket hb.ts ∈ t.locked → floorToBucket hb.ts ∈ w.forward.locked) →
      (w.ingest.pc = .committed → ∀ f ∈ t.written, f ∈ w.forward.written ∨ f.bucketStart ∈ t.saw) →
      (∀ b ∈ w.forward.saw, b ∈ t.saw) → Excluded hb { w with forward := t } := by
    intro t hl hwritten hsaw hmem
    rcases h (hl hmem) with h | ⟨hc, -⟩ | ⟨hc, h⟩
    · exact .inl h
    · exact absurd hc hne
    · refine .inr (.inr ⟨hc, fun f hf hle => ?_⟩)
      rcases hwritten hc f hf with hf | hf
      · exact hsaw _ (h f hf hle)
      · exact hf
  cases hs with
  | claim m hpc hm => exact hold id (fun _ f hf => .inl hf) fun b hb => hb
  | lock hpc hfree =>
    intro hl
    rcases mem_cons.1 hl with heq | hl
    · -- the lock was free, so ingest has not marked yet or has committed
      have hpc' : (w.ingest.pc = .insert ∨ w.ingest.pc = .mark) ∨ w.ingest.pc = .committed := by
        simp only [IngestTx.holds, hp.heartbeat] at hfree
        cases hpc : w.ingest.pc <;> simp_all
      refine hpc'.imp_right fun hc => .inr ⟨hc, fun f hf hle => ?_⟩
      have := (hw.written f hf).2.1
      omega
    · exact hold (fun _ => hl) (fun _ f hf => .inl hf) (fun b hb => hb) (mem_cons_of_mem _ hl)
  | read f hpc hf =>
    refine hold id (fun hc x hx => ?_) fun b hb => ?_
    · rcases mem_append.1 hx with hx | hx
      · exact .inl hx
      · obtain rfl := mem_toList.1 hx
        refine .inr ?_
        rw [(materializeBucket_written hf).1]
        simp [walk, hc]
    · simp only [walk]
      split
      · exact mem_cons_of_mem _ hb
      · exact hb
  | persist m hpc hm => exact hold id (fun _ f hf => .inl hf) fun b hb => hb
  | commit hpc =>
    intro hl
    rcases h hl with h | ⟨hc, -⟩ | h
    · exact .inl h
    · exact absurd hc hne
    · exact .inr (.inr h)

/-! ## Every interleaving -/

end Concurrent

def Queue.Awaits (q : Queue) (b : Int) : Prop :=
  ∃ r ∈ q.ranges, r.state = .pending ∧ r.cursor ≤ b ∧ b < r.stop

instance (q : Queue) (b : Int) : Decidable (q.Awaits b) :=
  inferInstanceAs (Decidable (∃ r ∈ q.ranges, _))

theorem Queue.awaits_of_enqueue {q q' : Queue} {start stop now b : Int} {reason : RepairReason}
    {origin : Option Origin} (hq : q.enqueue start stop reason origin now = some q')
    (h₁ : floorToBucket start ≤ b) (h₂ : b < ceilToBucket stop) : q'.Awaits b := by
  unfold Queue.enqueue at hq
  split at hq
  · cases hq
  cases hq
  refine ⟨_, mem_concat.2 (.inr rfl), rfl, ?_, ?_⟩
  · exact le_trans (mergedStart_le _ _).1 h₁
  · exact lt_of_lt_of_le h₂ (le_mergedStop _ _).1

namespace Concurrent

variable {w w' : Concurrent} {s : Tables} {hb : Observation}

theorem IngestStep.forward_eq (hs : IngestStep w w') : w'.forward = w.forward := by
  cases hs <;> rfl

theorem Walked.ingest (h : Walked s w) (hs : IngestStep w w') : Walked s w' := by
  have he := IngestStep.forward_eq hs
  constructor <;> rw [he]
  · exact h.claimed
  · exact h.bucket
  · exact h.le
  · exact h.written
  · exact h.locked
  · exact h.reading
  · exact h.untouched
  · exact h.row

/-- What ties the two transactions to the state they began in. -/
structure Inv (s : Tables) (hb : Observation) (w : Concurrent) : Prop where
  published : Published s hb w
  walked : Walked s w
  noted : Noted s w
  excluded : Excluded hb w

theorem inv_of_reach (hbase : s.Base) (hroutes : s.routes hb) (hnew : s.isDuplicate hb = false)
    {ingestNow forwardNow : Int} {buckets : Nat}
    (h : Reach step anyStep (start s hb ingestNow buckets forwardNow) w) : Inv s hb w := by
  refine Reach.invariant (I := Inv s hb) ?_ (fun w a w' hi _ hs => ?_) h
  · refine ⟨⟨rfl, rfl, rfl, rfl, rfl, rfl⟩, start_walked _ _ _, ⟨fun _ => rfl, ?_, ?_⟩, ?_⟩
    · simp [start]
    · simp [start]
    · simp [Excluded, start]
  · obtain ⟨hp, hw, hn, he⟩ := hi
    cases a with
    | ingest =>
      have hc := ingestStep_cases hp hroutes hnew hs
      exact ⟨hp.ingest hc, hw.ingest hc, hn.ingest hp hc, he.ingest hp hn hc⟩
    | forward =>
      have hc := forwardStep_cases hs
      exact ⟨hp.forward hc, hw.forward hbase hp hc, hn.forward hc, he.forward hp hw hc⟩

/-- Every sealed bucket was computed with the heartbeat, does not depend on it, or is covered by a
pending range. -/
def Consistent (w : Concurrent) : Prop :=
  ∀ f ∈ w.db.facts, f.state = .sealed →
    f.bucketStart ∈ w.forward.saw ∨ ¬ w.db.feeds w.ingest.hb f.bucketStart ∨
      w.db.queue.Awaits f.bucketStart

/-- Ingest read the frontier before the slice committed, and the slice sealed a bucket that the
heartbeat feeds from evidence read before ingest committed. -/
def Raced (w : Concurrent) : Prop :=
  w.ingest.early = true ∧ ∃ f ∈ w.forward.written, f.state = .sealed ∧
    f.bucketStart ∉ w.forward.saw ∧ w.db.feeds w.ingest.hb f.bucketStart

instance (w : Concurrent) : Decidable w.Consistent :=
  inferInstanceAs (Decidable (∀ f ∈ w.db.facts, _ → _))

instance (w : Concurrent) : Decidable w.Raced := inferInstanceAs (Decidable (_ ∧ _))

theorem le_frontier (m : Materialization) : m.materializedThrough ≤ Tables.frontier m := by
  unfold Tables.frontier
  split
  · exact le_max_right _ _
  · exact le_rfl

section Committed

variable (h : Inv s hb w) (hi : w.ingest.pc = .committed) (hf : w.forward.pc = .committed)

include h hi

theorem Inv.enqueued_eq : ({ w with db := s } : Concurrent).enqueued = some w.db.queue := by
  obtain ⟨q, hq, he⟩ := h.noted.queue (.inr hi)
  rw [he, h.published.queue, if_pos hi, hq, getD_some]

theorem Inv.feeds {b : Int} (hfeeds : w.db.feeds w.ingest.hb b) :
    Feeds s.heartbeats hb b (b + canonicalBucket) := by
  simp only [Tables.feeds, decide_eq_true_eq, h.published.heartbeat, h.published.heartbeats,
    hi] at hfeeds
  exact ⟨hfeeds.2.1, fun o ho => hfeeds.2.2 o (mem_append_left _ ho)⟩

theorem Inv.awaits {b limit : Int} (hal : Aligned b) (hfeeds : w.db.feeds w.ingest.hb b)
    (hlimit : w.ingest.frontier = some limit) (hlt : b < limit) : w.db.queue.Awaits b := by
  obtain ⟨hle, hreach⟩ := reach_of_feeds hal (h.feeds hi hfeeds) hlt
  have he := h.enqueued_eq hi
  simp only [enqueued, hlimit, h.published.heartbeat] at he
  rw [if_pos (by omega)] at he
  refine Queue.awaits_of_enqueue he ?_ (lt_of_lt_of_le hreach (le_ceilToBucket _))
  rw [floorToBucket_of_aligned (floorToBucket_aligned _)]
  exact hle

theorem Inv.endsBy (hbase : s.Base) (hbounds : s.Bounds) (hearly : w.ingest.early) :
    w.db.queue.Holds (EndsBy s.materialization) := by
  have he := h.enqueued_eq hi
  obtain ⟨row, hrow, ⟨-, rfl⟩ | ⟨hlate, -⟩⟩ := h.noted.frontier (.inr (.inr hi))
  · simp only [enqueued, hrow] at he
    cases hm : s.materialization with
    | none =>
      simp only [hm, map_none, some.injEq] at he
      rw [← he, ← hm]
      exact hbounds.ranges
    | some m =>
      simp only [hm, map_some] at he
      rw [← hm]
      split at he
      · have hstep : s.queue.step (.enqueue _ _ .lateData none w.ingest.now) = some w.db.queue := he
        refine hbounds.ranges.step (endsBy_rule _) hbase.queue.inv ?_ hstep
        intro start stop reason origin now heq
        cases heq
        refine ⟨m, hm, ?_⟩
        rw [frontier_eq (hbounds.watermark m hm)]
        exact lateObservationReachEnd_le (hbase.row m hm).cursor
      · rw [← some.inj he]
        exact hbounds.ranges
  · simp [hearly] at hlate

theorem Inv.behind (hrace : w.Raced) : floorToBucket hb.ts < w.forward.cursor := by
  obtain ⟨hearly, f, hnew, -, hsaw, hfeeds⟩ := hrace
  obtain ⟨-, hlt, hal⟩ := h.walked.written f hnew
  obtain ⟨hle, -⟩ := reach_of_feeds hal (h.feeds hi hfeeds) (lt_add_one _)
  by_contra hge
  have hlocked := h.walked.locked _ (floorToBucket_aligned hb.ts) (by omega) (by omega)
  rcases h.excluded hlocked with hpc | ⟨-, hlate⟩ | ⟨-, hall⟩
  · simp [hi] at hpc
  · simp [hearly] at hlate
  · exact hsaw (hall f hnew hle)

include hf

theorem Inv.le_limit : ∃ limit, w.ingest.frontier = some limit ∧ w.forward.cursor ≤ limit ∧
    (w.ingest.early = false → w.forward.bucket ≤ limit) := by
  obtain ⟨row, hrow, ⟨hearly, rfl⟩ | ⟨-, -, rfl⟩⟩ := h.noted.frontier (.inr (.inr hi))
  · obtain ⟨m, hm, hcursor⟩ := h.walked.claimed (by simp [hf])
    refine ⟨Tables.frontier m, by rw [hrow, hm, map_some], ?_, by simp [hearly]⟩
    rw [hcursor]
    exact le_frontier m
  · obtain ⟨m, hm, hbucket⟩ := h.walked.row (.inr hf)
    have hle : w.forward.bucket ≤ Tables.frontier m := hbucket ▸ le_frontier m
    exact ⟨Tables.frontier m, by rw [hrow, hm, map_some], h.walked.le.trans hle, fun _ => hle⟩

omit hi in
theorem Inv.facts_eq : w.db.facts = overlay s.facts w.forward.written := by
  rw [h.published.facts, if_pos hf]

theorem Inv.consistent (hbase : s.Base) (hbounds : s.Bounds) (hrace : ¬ w.Raced) :
    w.Consistent := by
  intro f hmem hsealed
  by_cases hsaw : f.bucketStart ∈ w.forward.saw
  · exact .inl hsaw
  by_cases hfeeds : w.db.feeds w.ingest.hb f.bucketStart
  · refine .inr (.inr ?_)
    obtain ⟨limit, hlimit, hcursor, hbucket⟩ := h.le_limit hi hf
    rw [h.facts_eq hf] at hmem
    rcases mem_overlay.1 hmem with ⟨hold, -⟩ | hnew
    · -- a fact of before lies behind the slice
      obtain ⟨m, hm, hc⟩ := h.walked.claimed (by simp [hf])
      obtain ⟨m', hm', hlt⟩ := hbounds.facts f hold
      obtain rfl : m = m' := some.inj (hm.symm.trans hm')
      exact h.awaits hi (hbase.buckets f hold) hfeeds hlimit (by omega)
    · -- a fact of the slice without the heartbeat: ingest must have read the new frontier
      obtain ⟨-, hlt, hal⟩ := h.walked.written f hnew
      have hlate : w.ingest.early = false :=
        Bool.eq_false_iff.2 fun he => hrace ⟨he, f, hnew, hsealed, hsaw, hfeeds⟩
      exact h.awaits hi hal hfeeds hlimit (lt_of_lt_of_le hlt (hbucket hlate))
  · exact .inr (.inl hfeeds)

theorem Inv.not_consistent (hbase : s.Base) (hbounds : s.Bounds) (hrace : w.Raced) :
    ¬ w.Consistent := by
  obtain ⟨hearly, f, hnew, hsealed, hsaw, hfeeds⟩ := hrace
  intro hcons
  have hmem : f ∈ w.db.facts := by
    rw [h.facts_eq hf]
    exact mem_overlay.2 (.inr hnew)
  rcases hcons f hmem hsealed with hs | hs | ⟨r, hr, -, -, hlt⟩
  · exact hsaw hs
  · exact hs hfeeds
  · obtain ⟨m, hm, hstop⟩ := (h.endsBy hi hbase hbounds hearly).ranges r hr
    obtain ⟨m', hm', hcursor⟩ := h.walked.claimed (by simp [hf])
    obtain rfl : m = m' := some.inj (hm.symm.trans hm')
    have := (h.walked.written f hnew).1
    omega

end Committed

end Concurrent

open Concurrent

/-- **The handshake.** In every interleaving of the ingest of a new heartbeat that the service
counts and a slice that commits both, every sealed bucket was computed with the heartbeat, does not
depend on it or is covered by a pending range, exactly if the two have not raced. -/
theorem handshake_iff (cfg : Config) (clock : Int) (monitors : List String) (s : Tables)
    (hs : Reach (step cfg) (fun _ op => op.measures) (.empty clock monitors) s)
    (hb : Observation) (hroutes : s.routes hb) (hnew : s.isDuplicate hb = false)
    (ingestNow : Int) (buckets : Nat) (forwardNow : Int) (w : Concurrent)
    (hw : Reach step anyStep (.start s hb ingestNow buckets forwardNow) w)
    (hi : w.ingest.pc = .committed) (hf : w.forward.pc = .committed) :
    (w.Consistent ↔ ¬ w.Raced) ∧ (w.Raced → floorToBucket hb.ts < w.forward.cursor) := by
  have hbase := base_of_reach hs
  have hbounds := bounds_of_reach (fun _ _ ho => ho) hs
  have hinv := inv_of_reach hbase hroutes hnew hw
  refine ⟨⟨fun hc hr => ?_, ?_⟩, ?_⟩
  · exact hinv.not_consistent hi hf hbase hbounds hr hc
  · exact hinv.consistent hi hf hbase hbounds
  · exact hinv.behind hi

/-- Minutes 100 to 110 of the web probe are sealed when its heartbeat of minute 110 arrives late,
and a slice of one bucket is due. -/
def carryIn110 : Concurrent :=
  .start (webService [.put (declareWeb ["web"] 0 0 (100 * Go.minute)),
    .advance 11 (120 * Go.minute)])
    ⟨"web", 110 * Go.minute + 30 * Go.second, true⟩ (122 * Go.minute) 1 (122 * Go.minute)

/-- Ingest commits between the slice's claim and its first lock: minute 110 is queued and minute 111
sealed with the heartbeat. -/
theorem handshake_ingestFirst : (finalState step carryIn110
      [.forward, .ingest, .ingest, .ingest, .ingest, .ingest, .forward, .forward, .forward,
        .forward]).Consistent ∧ (finalState step carryIn110
      [.forward, .ingest, .ingest, .ingest, .ingest, .ingest, .forward, .forward, .forward,
        .forward]).forward.saw = [111 * Go.minute] :=
  ⟨(handshake_iff plainConfig 0 ["web"] _ (reach_of_allowedRun (by decide)) _
    (by decide) (by decide) _ _ _ _ (reach_finalState fun _ _ _ => trivial) (by decide)
      (by decide)).1.2 (by decide), by decide⟩

/-- **The race.** The slice reads the evidence of minute 111, the whole ingest runs, and the slice
commits without the carry-in. -/
theorem carryInRace_inconsistent : ∃ w, Reach step anyStep carryIn110 w ∧
      w.ingest.pc = .committed ∧ w.forward.pc = .committed ∧ ¬ w.Consistent ∧
      ∃ f ∈ w.db.facts, f.bucketStart = 111 * Go.minute ∧ f.state = .sealed ∧
        w.db.recomputed (111 * Go.minute) ≠ some f.content :=
  ⟨finalState step carryIn110
    [.forward, .forward, .forward, .ingest, .ingest, .ingest, .ingest, .ingest, .forward, .forward],
    reach_finalState fun _ _ _ => trivial, by decide, by decide, by decide, by decide⟩

end Cerbix.Service
