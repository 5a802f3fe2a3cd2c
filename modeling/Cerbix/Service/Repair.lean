import Cerbix.Domain.Policy
import Cerbix.Lib.Run

/-!
# Durable repair ranges

The repair queue of one service (`internal/store/servicerepair.go`, `cancelRangesOfOrigin`): the
table of ranges, the claims workers hold, and every write to it. A worker's writes check only the id
of the row, and a lease can expire under a live worker, so several may hold one range.

`Queue.log` records what was requested, recomputed and cancelled; a row's id is the position of the
request that created it. `Queue.Inv`: what lies before a cursor was recomputed after the row was
born, and every request is served by a row born no earlier (`Queue.Inv.covers`).
-/

namespace Cerbix.Service

open Cerbix.Lib Cerbix.Domain List

/-- Why a range is computed again. -/
inductive RepairReason
  | declaration | epoch | lateData | maintenance | admin | backfill
  deriving DecidableEq, Repr

/-- How far the repair of a range is. -/
inductive RangeState
  | pending | running | complete | error | superseded
  deriving DecidableEq, Repr

/-- The row that asked for a range: a definition revision, an evaluation epoch or a maintenance
window. -/
inductive Origin
  | revision (id : Nat)
  | epoch (id : Nat)
  | window (id : Nat)
  deriving DecidableEq, Repr

/-- One row of `service_repair_ranges`; `origin = none` is the empty origin. -/
structure RepairRange where
  id : Nat
  start : Int
  stop : Int
  reason : RepairReason
  state : RangeState
  cursor : Int
  generation : Nat
  attempts : Nat
  nextAttemptAt : Int
  leaseExpiresAt : Option Int
  origin : Option Origin
  deriving DecidableEq, Repr

/-- A claimed range in the hands of a worker: what the claim returned, and how far it has got. -/
structure Worker where
  id : Nat
  start : Int
  stop : Int
  cursor : Int
  generation : Nat
  attempts : Nat
  deriving DecidableEq, Repr

/-- What the queue was asked and what was done. -/
inductive QueueEvent
  | requested (start stop : Int) (origin : Option Origin)
  | recomputed (start stop : Int)
  | cancelled (origins : List Origin)
  deriving DecidableEq, Repr

/-- The ranges to repair, the workers at them, and all that happened. -/
structure Queue where
  ranges : List RepairRange
  workers : List Worker
  generation : Nat
  log : List QueueEvent
  deriving DecidableEq, Repr

def Queue.empty : Queue := ⟨[], [], 0, []⟩

variable (r : RepairRange)

/-- A pending range that a new one is merged with. -/
def RepairRange.touches (reason : RepairReason) (start stop : Int) : Bool :=
  r.reason = reason ∧ r.state = .pending ∧ r.start ≤ stop ∧ start ≤ r.stop

variable (absorbed : List RepairRange)

/-- The merged row keeps an origin only when every absorbed row had the same one. -/
def mergedOrigin (origin : Option Origin) : Option Origin :=
  if absorbed.all fun r => r.origin = origin then origin else none

def mergedStart (start : Int) : Int :=
  absorbed.foldl (fun m r => min m r.start) start

def mergedStop (stop : Int) : Int :=
  absorbed.foldl (fun m r => max m r.stop) stop

variable (q : Queue)

/-- One range in the place of those it touches. -/
def Queue.absorb (start stop : Int) (reason : RepairReason)
    (origin : Option Origin) (now : Int) : Queue :=
  let absorbed := q.ranges.filter fun r => r.touches reason start stop
  { q with
    ranges := (q.ranges.filter fun r => !r.touches reason start stop) ++
      [{ id := q.log.length
         start := mergedStart absorbed start
         stop := mergedStop absorbed stop
         reason := reason
         state := .pending
         cursor := mergedStart absorbed start
         generation := q.generation
         attempts := 0
         nextAttemptAt := now
         leaseExpiresAt := none
         origin := mergedOrigin absorbed origin }]
    log := q.log ++ [.requested start stop origin] }

/-- Ask for a range; it is widened to whole buckets. -/
def Queue.enqueue (start stop : Int) (reason : RepairReason)
    (origin : Option Origin) (now : Int) : Option Queue :=
  if stop ≤ start then none
  else some (q.absorb (floorToBucket start) (ceilToBucket stop) reason origin now)

/-! ## Claims and lifecycle writes -/

def Queue.updateRange (id : Nat) (f : RepairRange → RepairRange) : Queue :=
  { q with ranges := q.ranges.map fun r => if r.id = id then f r else r }

def repairLease : Int := 60 * Go.second

/-- The range waits, or the lease of its worker has run out. -/
def RepairRange.claimable (now : Int) : Bool :=
  (r.state = .pending ∧ r.nextAttemptAt ≤ now) ∨
    (r.state = .running ∧ ∃ t ∈ r.leaseExpiresAt, t < now)

/-- Claim a runnable range: mark it running and hand it to a new worker, which resumes at the
durable cursor. -/
def Queue.claim (id : Nat) (now : Int) : Option Queue :=
  match q.ranges.find? fun r => r.id = id && r.claimable now with
  | none => none
  | some r =>
    let q' := q.updateRange id fun r =>
      { r with state := .running, leaseExpiresAt := some (now + repairLease) }
    let w : Worker := ⟨r.id, r.start, r.stop, max r.cursor r.start, r.generation, r.attempts⟩
    some { q' with workers := q.workers ++ [w] }

/-- `runRepairBatch` on `batch` buckets: under the claim's generation, recompute and advance cursor
and lease in one transaction. -/
def Queue.runBatch (i batch : Nat) (now : Int) : Option Queue :=
  match q.workers[i]? with
  | none => none
  | some w =>
    if w.cursor < w.stop ∧ 0 < batch ∧ w.generation = q.generation then
      let stop := min (w.cursor + batch * canonicalBucket) w.stop
      let q' := q.updateRange w.id fun r =>
        { r with cursor := stop, leaseExpiresAt := some (now + repairLease) }
      some { q' with
        workers := q.workers.set i { w with cursor := stop }
        log := q.log ++ [.recomputed w.cursor stop] }
    else none

/-- Twice as long after each failure, up to five minutes. -/
def repairBackoff (attempts : Nat) : Int :=
  min (5 * Go.second * 2 ^ (attempts - 1)) (5 * Go.minute)

/-- How a worker leaves its range. -/
inductive Closing
  | release
  | complete
  | fail (now : Int)
  | unrecomputable
  /-- The lifecycle write was refused or the worker died: the row is left to its lease. -/
  | lost
  deriving DecidableEq, Repr

/-- What the worker writes to the row. -/
def Closing.write (c : Closing) (w : Worker) (generation : Nat) (r : RepairRange) : RepairRange :=
  match c with
  | .release => { r with state := .pending, cursor := w.cursor, generation := generation }
  | .complete => { r with state := .complete, cursor := w.cursor }
  | .fail now =>
    { r with
      state := .pending, cursor := w.cursor, attempts := r.attempts + 1
      nextAttemptAt := now + repairBackoff (w.attempts + 1) }
  | .unrecomputable => { r with state := .error, cursor := w.cursor }
  | .lost => r

/-- A range is only complete when the worker has reached its end. -/
def Closing.allowed (c : Closing) (w : Worker) : Bool :=
  match c with
  | .complete => w.stop ≤ w.cursor
  | .lost => true
  | _ => w.cursor < w.stop

/-- A worker leaves its range. -/
def Queue.close (i : Nat) (c : Closing) : Option Queue :=
  match q.workers[i]? with
  | none => none
  | some w =>
    if c.allowed w then
      let q' := q.updateRange w.id fun r => c.write w q.generation r
      some { q' with workers := q.workers.eraseIdx i }
    else none

/-- The ranges that the origins asked for are no longer wanted. -/
def Queue.cancelRangesOfOrigin (origins : List Origin) : Queue :=
  { q with
    ranges := q.ranges.map fun r =>
      if (∃ o ∈ r.origin, o ∈ origins) ∧ (r.state = .pending ∨ r.state = .running) then
        { r with state := .superseded }
      else r
    log := q.log ++ [.cancelled origins] }

def Queue.bumpGeneration : Queue := { q with generation := q.generation + 1 }

/-- What happens to the queue. -/
inductive QueueOp
  | enqueue (start stop : Int) (reason : RepairReason) (origin : Option Origin) (now : Int)
  | claim (id : Nat) (now : Int)
  | batch (worker size : Nat) (now : Int)
  | close (worker : Nat) (how : Closing)
  | cancel (origins : List Origin)
  | bump
  deriving DecidableEq, Repr

def Queue.step : QueueOp → Option Queue
  | .enqueue start stop reason origin now => q.enqueue start stop reason origin now
  | .claim id now => q.claim id now
  | .batch i size now => q.runBatch i size now
  | .close i how => q.close i how
  | .cancel origins => some (q.cancelRangesOfOrigin origins)
  | .bump => some q.bumpGeneration

section

variable {β : Type} [LinearOrder β] (f : RepairRange → β) (absorbed : List RepairRange)

theorem foldl_min_le : ∀ b, absorbed.foldl (fun acc r => min acc (f r)) b ≤ b ∧
    ∀ r ∈ absorbed, absorbed.foldl (fun acc r => min acc (f r)) b ≤ f r := by
  induction absorbed with
  | nil => intro b; exact ⟨le_rfl, by simp⟩
  | cons r rs ih =>
    intro b
    obtain ⟨h₁, h₂⟩ := ih (min b (f r))
    refine ⟨le_trans h₁ (min_le_left _ _), ?_⟩
    intro r' hr'
    rcases mem_cons.1 hr' with rfl | hr'
    · exact le_trans h₁ (min_le_right _ _)
    · exact h₂ r' hr'

theorem foldl_min_mem : ∀ b, absorbed.foldl (fun acc r => min acc (f r)) b = b ∨
    ∃ r ∈ absorbed, absorbed.foldl (fun acc r => min acc (f r)) b = f r := by
  induction absorbed with
  | nil => intro b; exact .inl rfl
  | cons r rs ih =>
    intro b
    rcases ih (min b (f r)) with h | ⟨r', hr', h⟩
    · rcases min_choice b (f r) with hm | hm
      · exact .inl (h.trans hm)
      · exact .inr ⟨r, by simp, h.trans hm⟩
    · exact .inr ⟨r', by simp [hr'], h⟩

end

variable (absorbed : List RepairRange)

theorem mergedStart_le (start : Int) :
    mergedStart absorbed start ≤ start ∧ ∀ r ∈ absorbed, mergedStart absorbed start ≤ r.start :=
  foldl_min_le RepairRange.start absorbed start

theorem mergedStart_mem (start : Int) :
    mergedStart absorbed start = start ∨ ∃ r ∈ absorbed, mergedStart absorbed start = r.start :=
  foldl_min_mem RepairRange.start absorbed start

-- a greatest stop is a least one in the dual order
theorem le_mergedStop (stop : Int) :
    stop ≤ mergedStop absorbed stop ∧ ∀ r ∈ absorbed, r.stop ≤ mergedStop absorbed stop :=
  foldl_min_le (β := ℤᵒᵈ) RepairRange.stop absorbed stop

theorem mergedStop_mem (stop : Int) :
    mergedStop absorbed stop = stop ∨ ∃ r ∈ absorbed, mergedStop absorbed stop = r.stop :=
  foldl_min_mem (β := ℤᵒᵈ) RepairRange.stop absorbed stop

/-- The instant lies in the range. -/
def RepairRange.Contains (t : Int) : Prop := r.start ≤ t ∧ t < r.stop

theorem merged_eq_union (start stop : Int)
    (htouch : ∀ r ∈ absorbed, r.start < r.stop ∧ r.start ≤ stop ∧ start ≤ r.stop) (t : Int) :
    (mergedStart absorbed start ≤ t ∧ t < mergedStop absorbed stop) ↔
      (start ≤ t ∧ t < stop) ∨ ∃ r ∈ absorbed, r.Contains t := by
  have h₁ := mergedStart_le absorbed start
  have h₂ := le_mergedStop absorbed stop
  constructor
  · rintro ⟨hs, ht⟩
    by_contra hnot
    obtain ⟨hin, hnone⟩ := not_or.1 hnot
    -- outside `[start, stop)` the instant is on one side, where some absorbed range reaches it
    rcases lt_or_ge t start with hlow | hhigh
    · rcases mergedStart_mem absorbed start with he | ⟨r, hr, he⟩
      · omega
      · have := htouch r hr
        exact hnone ⟨r, hr, by omega, by omega⟩
    · rcases mergedStop_mem absorbed stop with he | ⟨r, hr, he⟩
      · omega
      · have := htouch r hr
        exact hnone ⟨r, hr, by omega, by omega⟩
  · rintro (⟨hs, ht⟩ | ⟨r, hr, hs, ht⟩)
    · omega
    · have := h₁.2 r hr
      have := h₂.2 r hr
      omega

/-! ## The invariant -/

/-- The event computed the bucket. -/
def QueueEvent.Recomputes (b : Int) : QueueEvent → Prop
  | .recomputed start stop => start ≤ b ∧ b < stop
  | _ => False

/-- The origin was cancelled; the empty origin never is. -/
def QueueEvent.Cancels (o : Option Origin) : QueueEvent → Prop
  | .cancelled origins => ∃ x ∈ o, x ∈ origins
  | _ => False

/-- The event at `i` asked for `b` on behalf of `o`. -/
def Queue.Requested (i : Nat) (b : Int) (o : Option Origin) : Prop :=
  ∃ start stop, q.log[i]? = some (.requested start stop o) ∧ start ≤ b ∧ b < stop

/-- A row born at or after the request that still answers for it. -/
def RepairRange.Serves (i : Nat) (b : Int) (o : Option Origin) : Prop :=
  i ≤ r.id ∧ r.Contains b ∧ (r.origin = none ∨ r.origin = o) ∧ r.state ≠ .superseded

open QueueEvent

/-- What a row promises: its cursor only passes buckets recomputed since it was born, and a complete
row had all of them recomputed, wherever a stale worker has put its cursor. -/
structure RepairRange.Ok (r : RepairRange) (log : List QueueEvent) : Prop where
  born : r.id < log.length
  bounds : r.start < r.stop
  cursor : r.start ≤ r.cursor
  done : ∀ b, r.start ≤ b → b < r.cursor → After log r.id (Recomputes b)
  complete : r.state = .complete → ∀ b, r.start ≤ b → b < r.stop → After log r.id (Recomputes b)

/-- What the worker has passed was computed since its range was made. -/
structure Worker.Ok (w : Worker) (ranges : List RepairRange) (log : List QueueEvent) : Prop where
  born : w.id < log.length
  cursor : w.start ≤ w.cursor
  done : ∀ b, w.start ≤ b → b < w.cursor → After log w.id (Recomputes b)
  range : ∀ r ∈ ranges, r.id = w.id → r.start = w.start ∧ r.stop = w.stop

/-- Ids are unique, and ranges and workers agree with the log. -/
structure Queue.Inv (q : Queue) : Prop where
  ids : (q.ranges.map (·.id)).Nodup
  ranges : ∀ r ∈ q.ranges, r.Ok q.log
  workers : ∀ w ∈ q.workers, w.Ok q.ranges q.log
  requests : ∀ i b o, q.Requested i b o → After q.log i (Recomputes b) ∨ After q.log i (Cancels o) ∨
      ∃ r ∈ q.ranges, r.Serves i b o

open Queue

theorem Queue.empty_inv : empty.Inv where
  ids := nodup_nil
  ranges := by simp [empty]
  workers := by simp [empty]
  requests := by
    rintro i b o ⟨start, stop, h, -⟩
    simp [empty] at h

variable {log : List QueueEvent}

theorem RepairRange.Ok.append {r : RepairRange} (h : r.Ok log)
    (more : List QueueEvent) : r.Ok (log ++ more) where
  born := by
    have := h.born
    simp only [length_append]
    omega
  bounds := h.bounds
  cursor := h.cursor
  done b h₁ h₂ := (h.done b h₁ h₂).append more
  complete hc b h₁ h₂ := (h.complete hc b h₁ h₂).append more

theorem Worker.Ok.append {w : Worker} {ranges : List RepairRange}
    (h : w.Ok ranges log) (more : List QueueEvent) : w.Ok ranges (log ++ more) where
  born := by
    have := h.born
    simp only [length_append]
    omega
  cursor := h.cursor
  done b h₁ h₂ := (h.done b h₁ h₂).append more
  range := h.range

/-- An update that moves no range. -/
structure KeepsRange (f : RepairRange → RepairRange) : Prop where
  id : ∀ r, (f r).id = r.id
  start : ∀ r, (f r).start = r.start
  stop : ∀ r, (f r).stop = r.stop
  origin : ∀ r, (f r).origin = r.origin

variable {q : Queue} {i : Nat} {b : Int} {o : Option Origin}

theorem Queue.Requested.of_append {more : List QueueEvent}
    (hmore : ∀ start stop o, requested start stop o ∉ more)
    (h : ∃ start stop, (q.log ++ more)[i]? = some (.requested start stop o) ∧
      start ≤ b ∧ b < stop) :
    q.Requested i b o := by
  obtain ⟨start, stop, he, hb⟩ := h
  rcases Nat.lt_or_ge i q.log.length with hi | hi
  · rw [List.getElem?_append_left hi] at he
    exact ⟨start, stop, he, hb⟩
  · rw [List.getElem?_append_right hi] at he
    exact absurd (mem_of_getElem? he) (hmore _ _ _)

/-- **Every write to existing rows keeps the invariant** if rows and workers keep theirs and a row
is superseded only when its origin is cancelled. -/
theorem Queue.Inv.write (h : q.Inv) {f : RepairRange → RepairRange} (hf : KeepsRange f)
    (workers : List Worker) (generation : Nat) (more : List QueueEvent)
    (hmore : ∀ start stop o, requested start stop o ∉ more)
    (hranges : ∀ r ∈ q.ranges, (f r).Ok (q.log ++ more))
    (hworkers : ∀ w ∈ workers, w.Ok q.ranges (q.log ++ more))
    (hsup : ∀ r ∈ q.ranges, (f r).state = .superseded → r.state = .superseded ∨
      ∀ o, r.origin = o → ∃ e ∈ more, Cancels o e) :
    Inv ⟨q.ranges.map f, workers, generation, q.log ++ more⟩ where
  ids := by
    rw [map_map, show ((·.id) ∘ f) = fun r : RepairRange => r.id from funext hf.id]
    exact h.ids
  ranges := by
    intro r hr
    obtain ⟨r₀, hr₀, rfl⟩ := mem_map.1 hr
    exact hranges r₀ hr₀
  workers := by
    intro w hw
    have hok := hworkers w hw
    refine ⟨hok.born, hok.cursor, hok.done, ?_⟩
    intro r hr hid
    obtain ⟨r₀, hr₀, rfl⟩ := mem_map.1 hr
    rw [hf.id] at hid
    rw [hf.start, hf.stop]
    exact hok.range r₀ hr₀ hid
  requests := by
    intro i b o hreq
    have hreq' := Requested.of_append hmore hreq
    have hlt : i < q.log.length := by
      obtain ⟨_, _, hi, -⟩ := hreq'
      exact (List.getElem?_eq_some_iff.1 hi).1
    rcases h.requests i b o hreq' with hre | hca | ⟨r, hr, hid, hb, ho, hs⟩
    · exact .inl (hre.append more)
    · exact .inr (.inl (hca.append more))
    have hb' : (f r).Contains b := by
      unfold RepairRange.Contains
      rw [hf.start, hf.stop]
      exact hb
    by_cases hs' : (f r).state = .superseded
    · -- the row was cancelled, so it had an origin, and that origin is the request's
      rcases hsup r hr hs' with hold | hnew
      · exact absurd hold hs
      obtain ⟨e, he, hc⟩ := hnew r.origin rfl
      have hor : r.origin = o := by
        rcases ho with hnone | hor
        · rw [hnone] at hc
          cases e <;> simp [Cancels] at hc
        · exact hor
      obtain ⟨k, hk⟩ := mem_iff_getElem?.1 he
      refine .inr (.inl ⟨q.log.length + k, e, by omega, ?_, hor ▸ hc⟩)
      rw [List.getElem?_append_right (by omega)]
      simpa using hk
    · exact .inr (.inr ⟨f r, mem_map_of_mem hr, by rw [hf.id]; exact hid, hb',
        by rw [hf.origin]; exact ho, hs'⟩)

/-! ## Each operation keeps it -/

section

variable {q : Queue} {start stop : Int}

theorem Queue.Inv.bounds_of_touches (h : q.Inv) {reason : RepairReason} {r : RepairRange}
    (hr : r ∈ q.ranges.filter fun r => r.touches reason start stop) :
    r.start < r.stop ∧ r.start ≤ stop ∧ start ≤ r.stop := by
  obtain ⟨hr, ht⟩ := mem_filter.1 hr
  simp only [RepairRange.touches, decide_eq_true_eq] at ht
  exact ⟨(h.ranges r hr).bounds, ht.2.2.1, ht.2.2.2⟩

theorem Queue.Inv.absorb (h : q.Inv) (hlt : start < stop)
    (reason : RepairReason) (origin : Option Origin) (now : Int) :
    (q.absorb start stop reason origin now).Inv := by
  have hunion := merged_eq_union (q.ranges.filter fun r => r.touches reason start stop) start stop
    fun _ hr => h.bounds_of_touches hr
  have hkeep : ∀ r ∈ q.ranges.filter fun r => !r.touches reason start stop, r ∈ q.ranges :=
    fun r hr => (mem_filter.1 hr).1
  have hs := (mergedStart_le (q.ranges.filter fun r => r.touches reason start stop) start).1
  have ht := (le_mergedStop (q.ranges.filter fun r => r.touches reason start stop) stop).1
  refine ⟨?_, ?_, ?_, ?_⟩
  · change (List.map _ (_ ++ [_])).Nodup
    rw [map_append]
    refine List.Nodup.append (h.ids.sublist (filter_sublist.map _)) (by simp) ?_
    rw [map_singleton, disjoint_singleton]
    intro hid
    obtain ⟨r, hr, he⟩ := mem_map.1 hid
    exact (h.ranges r (hkeep r hr)).born.ne he
  · intro r hr
    rcases mem_concat.1 hr with hr | rfl
    · exact (h.ranges r (hkeep r hr)).append _
    · refine ⟨by simp [Queue.absorb], by simp only; omega, le_rfl, ?_, by simp⟩
      intro b h₁ h₂
      simp only at h₁ h₂
      omega
  · intro w hw
    have hok := (h.workers w hw).append [requested start stop origin]
    refine ⟨hok.born, hok.cursor, hok.done, ?_⟩
    intro r hr hid
    rcases mem_concat.1 hr with hr | rfl
    · exact hok.range r (hkeep r hr) hid
    · have := (h.workers w hw).born
      simp only at hid
      omega
  · rintro i b o ⟨start', stop', hi, hb⟩
    rcases getElem?_concat hi with hi | ⟨rfl, he⟩
    · have hlt : i < q.log.length := (List.getElem?_eq_some_iff.1 hi).1
      rcases h.requests i b o ⟨start', stop', hi, hb⟩ with hre | hca | ⟨r, hr, hid, hrb, ho, hst⟩
      · exact .inl (hre.append _)
      · exact .inr (.inl (hca.append _))
      refine .inr (.inr ?_)
      by_cases htr : r.touches reason start stop = true
      · -- the row that served the request was absorbed: the merged one takes over
        have hmem : r ∈ q.ranges.filter fun r => r.touches reason start stop :=
          mem_filter.2 ⟨hr, htr⟩
        refine ⟨_, mem_concat.2 (.inr rfl), hlt.le, ?_, ?_, by simp⟩
        · exact (hunion b).2 (.inr ⟨r, hmem, hrb⟩)
        simp only [mergedOrigin]
        split
        · next hall =>
          have : r.origin = origin := by simpa using all_eq_true.1 hall r hmem
          rw [← this]
          exact ho
        · exact .inl rfl
      · exact ⟨r, mem_append_left _ (mem_filter.2 ⟨hr, by simpa using htr⟩), hid, hrb, ho, hst⟩
    · cases he
      refine .inr (.inr ⟨_, mem_concat.2 (.inr rfl), le_rfl, ?_, ?_,
        by simp⟩)
      · exact (hunion b).2 (.inl hb)
      · simp only [mergedOrigin]
        split
        · exact .inr rfl
        · exact .inl rfl

variable {q' : Queue} {now : Int}

theorem Queue.Inv.enqueue (h : q.Inv) {reason : RepairReason}
    {origin : Option Origin} (hq : q.enqueue start stop reason origin now = some q') : q'.Inv := by
  unfold Queue.enqueue at hq
  split at hq
  · simp at hq
  rename_i hlt
  cases hq
  exact h.absorb (floorToBucket_lt_ceilToBucket (by omega)) reason origin now

theorem keepsRange_at (id : Nat) {f : RepairRange → RepairRange} (hf : KeepsRange f) :
    KeepsRange fun r => if r.id = id then f r else r where
  id r := by split <;> simp [hf.id]
  start r := by split <;> simp [hf.start]
  stop r := by split <;> simp [hf.stop]
  origin r := by split <;> simp [hf.origin]

theorem Queue.Inv.claim (h : q.Inv) {id : Nat} (hq : q.claim id now = some q') : q'.Inv := by
  unfold Queue.claim at hq
  split at hq
  · simp at hq
  rename_i r hfind
  have hmem : r ∈ q.ranges := mem_of_find?_eq_some hfind
  cases hq
  have hf : KeepsRange fun r : RepairRange =>
      { r with state := .running, leaseExpiresAt := some (now + repairLease) } :=
    ⟨fun _ => rfl, fun _ => rfl, fun _ => rfl, fun _ => rfl⟩
  have hwrite := h.write (keepsRange_at id hf)
    (q.workers ++ [⟨r.id, r.start, r.stop, max r.cursor r.start, r.generation, r.attempts⟩])
    q.generation [] (by simp) ?_ ?_ ?_
  · simpa [Queue.updateRange] using hwrite
  · intro r' hr'
    have hok := h.ranges r' hr'
    split
    · exact ⟨by simpa using hok.born, hok.bounds, hok.cursor, by simpa using hok.done, by simp⟩
    · simpa using hok
  · intro w hw
    rcases mem_concat.1 hw with hw | rfl
    · simpa using h.workers w hw
    have hok := h.ranges r hmem
    refine ⟨by simpa using hok.born, le_max_right _ _, ?_, ?_⟩
    · intro b h₁ h₂
      simp only [lt_max_iff] at h₂
      have := hok.cursor
      simpa using hok.done b h₁ (by omega)
    · intro r' hr' hid
      -- ids are distinct, so it is the claimed row itself
      obtain rfl : r' = r := inj_on_of_nodup_map h.ids hr' hmem hid
      exact ⟨rfl, rfl⟩
  · intro r' hr' hs
    split at hs
    · simp at hs
    · exact .inl hs

theorem RepairRange.Ok.moveCursor {r r' : RepairRange} {w : Worker} {ranges : List RepairRange}
    {log : List QueueEvent} (hr : r.Ok log) (hw : w.Ok ranges log) (hmem : r ∈ ranges)
    (hid : r.id = w.id) (hkeep : r'.id = r.id ∧ r'.start = r.start ∧ r'.stop = r.stop)
    (hcur : r'.cursor = w.cursor)
    (hcomplete : r'.state = .complete → r.state = .complete ∨ w.stop ≤ w.cursor) : r'.Ok log := by
  obtain ⟨hk₁, hk₂, hk₃⟩ := hkeep
  obtain ⟨hs, ht⟩ := hw.range r hmem hid
  refine ⟨hk₁ ▸ hr.born, by rw [hk₂, hk₃]; exact hr.bounds, ?_, ?_, ?_⟩
  · rw [hk₂, hcur, hs]
    exact hw.cursor
  · intro b h₁ h₂
    rw [hk₁, hid]
    exact hw.done b (by rw [← hs, ← hk₂]; exact h₁) (by rw [← hcur]; exact h₂)
  · intro hc b h₁ h₂
    rw [hk₂] at h₁
    rw [hk₃] at h₂
    rw [hk₁]
    rcases hcomplete hc with hc | hc
    · exact hr.complete hc b h₁ h₂
    · rw [hid]
      exact hw.done b (by omega) (by omega)

theorem Queue.Inv.runBatch (h : q.Inv) {i batch : Nat} (hq : q.runBatch i batch now = some q') :
    q'.Inv := by
  unfold Queue.runBatch at hq
  split at hq
  · simp at hq
  rename_i w hw
  split at hq
  · next hg =>
    have hmem : w ∈ q.workers := mem_of_getElem? hw
    set stop := min (w.cursor + batch * canonicalBucket) w.stop with hstop
    have hlt : w.cursor < stop := by
      have := canonicalBucket_pos
      have : 0 < (batch : Int) * canonicalBucket := by
        have : (0 : Int) < batch := by omega
        positivity
      omega
    -- after the batch, everything before the new cursor was recomputed since the row was born
    have hw' : ({ w with cursor := stop } : Worker).Ok q.ranges
        (q.log ++ [recomputed w.cursor stop]) := by
      have hok := h.workers w hmem
      have hok' := hok.append [recomputed w.cursor stop]
      refine ⟨hok'.born, le_trans hok.cursor hlt.le, ?_, hok'.range⟩
      intro b h₁ h₂
      rcases lt_or_ge b w.cursor with hb | hb
      · exact hok'.done b h₁ hb
      · exact After.last hok.born ⟨hb, h₂⟩
    cases hq
    have hf : KeepsRange fun r : RepairRange =>
        { r with cursor := stop, leaseExpiresAt := some (now + repairLease) } :=
      ⟨fun _ => rfl, fun _ => rfl, fun _ => rfl, fun _ => rfl⟩
    refine h.write (keepsRange_at w.id hf) _ q.generation _ (by simp) ?_ ?_ ?_
    · intro r hr
      have hok := (h.ranges r hr).append [recomputed w.cursor stop]
      split
      · next hid =>
        exact hok.moveCursor hw' hr hid ⟨rfl, rfl, rfl⟩ rfl .inl
      · exact hok
    · intro w₁ hw₁
      rcases mem_or_eq_of_mem_set hw₁ with hw₁ | rfl
      · exact (h.workers w₁ hw₁).append _
      · exact hw'
    · intro r _ hs
      split at hs
      · exact .inl hs
      · exact .inl hs
  · simp at hq

theorem Closing.write_keeps (c : Closing) (w : Worker) (generation : Nat) :
    KeepsRange (c.write w generation) where
  id r := by cases c <;> rfl
  start r := by cases c <;> rfl
  stop r := by cases c <;> rfl
  origin r := by cases c <;> rfl

theorem Queue.Inv.close (h : q.Inv) {i : Nat} {c : Closing} (hq : q.close i c = some q') :
    q'.Inv := by
  unfold Queue.close at hq
  split at hq
  · simp at hq
  rename_i w hw
  split at hq
  · next hallowed =>
    have hmem : w ∈ q.workers := mem_of_getElem? hw
    have hwok := h.workers w hmem
    cases hq
    have hwrite := h.write (keepsRange_at w.id (c.write_keeps w q.generation))
      (q.workers.eraseIdx i) q.generation [] (by simp) ?_ ?_ ?_
    · simpa [Queue.updateRange] using hwrite
    · intro r hr
      have hok := h.ranges r hr
      rw [append_nil]
      split
      · next hid =>
        cases c with
        | lost => exact hok
        | release => exact hok.moveCursor hwok hr hid ⟨rfl, rfl, rfl⟩ rfl (by simp [Closing.write])
        | fail now =>
          exact hok.moveCursor hwok hr hid ⟨rfl, rfl, rfl⟩ rfl (by simp [Closing.write])
        | unrecomputable =>
          exact hok.moveCursor hwok hr hid ⟨rfl, rfl, rfl⟩ rfl (by simp [Closing.write])
        | complete =>
          exact hok.moveCursor hwok hr hid ⟨rfl, rfl, rfl⟩ rfl fun _ =>
            .inr (by simpa [Closing.allowed] using hallowed)
      · exact hok
    · intro w₁ hw₁
      rw [append_nil]
      exact h.workers w₁ (mem_of_mem_eraseIdx hw₁)
    · intro r _ hs
      split at hs
      · cases c <;> simp_all [Closing.write]
      · exact .inl hs
  · simp at hq

theorem Queue.Inv.cancel (h : q.Inv) (origins : List Origin) :
    (q.cancelRangesOfOrigin origins).Inv := by
  have hf : KeepsRange fun r : RepairRange =>
      if (∃ o ∈ r.origin, o ∈ origins) ∧ (r.state = .pending ∨ r.state = .running) then
        { r with state := .superseded }
      else r := by
    refine ⟨?_, ?_, ?_, ?_⟩ <;> intro r <;> split <;> rfl
  refine h.write hf q.workers q.generation [.cancelled origins] (by simp) ?_ ?_ ?_
  · intro r hr
    have hok := (h.ranges r hr).append [cancelled origins]
    split
    · exact ⟨hok.born, hok.bounds, hok.cursor, hok.done, by simp⟩
    · exact hok
  · exact fun w hw => (h.workers w hw).append _
  · intro r _ hs
    split at hs
    · next hc =>
      obtain ⟨⟨o, ho, hmem⟩, -⟩ := hc
      refine .inr fun o' ho' => ⟨.cancelled origins, by simp, ?_⟩
      exact ⟨o, by rw [← ho']; exact ho, hmem⟩
    · exact .inl hs

theorem Queue.Inv.bump (h : q.Inv) : q.bumpGeneration.Inv :=
  ⟨h.ids, h.ranges, h.workers, h.requests⟩

theorem Queue.Inv.step (h : q.Inv) {op : QueueOp} (hq : q.step op = some q') : q'.Inv := by
  cases op with
  | enqueue => exact h.enqueue hq
  | claim => exact h.claim hq
  | batch => exact h.runBatch hq
  | close => exact h.close hq
  | cancel => cases hq; exact h.cancel _
  | bump => cases hq; exact h.bump

end

/-! ## Bounds of rows and workers -/

/-- The bounds and the cursor of every row and every worker satisfy `R`. -/
structure Queue.Holds (q : Queue) (R : Int → Int → Int → Prop) : Prop where
  ranges : ∀ r ∈ q.ranges, R r.start r.stop r.cursor
  workers : ∀ w ∈ q.workers, R w.start w.stop w.cursor

/-- What `R` has to survive: claims, batches and merges. -/
structure RangeRule (R : Int → Int → Int → Prop) : Prop where
  claim : ∀ {a b c}, R a b c → R a b (max c a)
  batch : ∀ {a b c} (n : Nat), R a b c → R a b (min (c + n * canonicalBucket) b)
  merge : ∀ {start stop} (absorbed : List RepairRange), R start stop start →
    (∀ r ∈ absorbed, R r.start r.stop r.cursor) →
    R (mergedStart absorbed start) (mergedStop absorbed stop) (mergedStart absorbed start)

section Holds

variable {q q' : Queue} {R : Int → Int → Int → Prop}

theorem Queue.Holds.updateRange (h : q.Holds R) {id : Nat} {f : RepairRange → RepairRange}
    {workers : List Worker} {log : List QueueEvent} (hf : ∀ r ∈ q.ranges, r.id = id →
      R (f r).start (f r).stop (f r).cursor) (hw : ∀ w ∈ workers, R w.start w.stop w.cursor) :
    Holds { q.updateRange id f with workers := workers, log := log } R where
  ranges := by
    intro r hr
    obtain ⟨r₀, hr₀, rfl⟩ := mem_map.1 hr
    split
    · next hid => exact hf r₀ hr₀ hid
    · exact h.ranges r₀ hr₀
  workers := hw

theorem Queue.Holds.workerCursor (hi : q.Inv) {w : Worker} (hw : w ∈ q.workers) {c : Int}
    (hR : R w.start w.stop c) {r : RepairRange} (hr : r ∈ q.ranges) (hid : r.id = w.id) :
    R r.start r.stop c := by
  obtain ⟨hs, ht⟩ := (hi.workers w hw).range r hr hid
  rw [hs, ht]
  exact hR

theorem Queue.Holds.step (hR : RangeRule R) (hi : q.Inv) (h : q.Holds R) {op : QueueOp}
    (hnew : ∀ start stop reason origin now, op = .enqueue start stop reason origin now →
      R (floorToBucket start) (ceilToBucket stop) (floorToBucket start))
    (hq : q.step op = some q') : q'.Holds R := by
  cases op with
  | enqueue start stop reason origin now =>
    simp only [Queue.step, Queue.enqueue] at hq
    split at hq
    · cases hq
    cases hq
    refine ⟨?_, h.workers⟩
    intro r hr
    rcases mem_concat.1 hr with hr | rfl
    · exact h.ranges r (mem_filter.1 hr).1
    · exact hR.merge _ (hnew _ _ _ _ _ rfl) fun r hr => h.ranges r (mem_filter.1 hr).1
  | claim id now =>
    simp only [Queue.step, Queue.claim] at hq
    split at hq
    · cases hq
    rename_i r hf
    cases hq
    have hr : r ∈ q.ranges := mem_of_find?_eq_some hf
    refine h.updateRange (fun r hr _ => h.ranges r hr) ?_
    intro w hw
    rcases mem_concat.1 hw with hw | rfl
    · exact h.workers w hw
    · exact hR.claim (h.ranges r hr)
  | batch i size now =>
    simp only [Queue.step, Queue.runBatch] at hq
    split at hq
    · cases hq
    rename_i w hw
    split at hq
    · cases hq
      have hmem : w ∈ q.workers := mem_of_getElem? hw
      have hnew := hR.batch size (h.workers w hmem)
      have hrow := fun r hr hid => Queue.Holds.workerCursor hi hmem hnew (r := r) hr hid
      refine h.updateRange hrow ?_
      intro w₁ hw₁
      rcases mem_or_eq_of_mem_set hw₁ with hw₁ | rfl
      · exact h.workers w₁ hw₁
      · exact hnew
    · cases hq
  | close i how =>
    simp only [Queue.step, Queue.close] at hq
    split at hq
    · cases hq
    rename_i w hw
    split at hq
    · cases hq
      have hmem : w ∈ q.workers := mem_of_getElem? hw
      refine h.updateRange ?_ fun w₁ hw₁ => h.workers w₁ (mem_of_mem_eraseIdx hw₁)
      intro r hr hid
      have hrow := Queue.Holds.workerCursor hi hmem (h.workers w hmem) hr hid
      cases how with
      | lost => exact h.ranges r hr
      | _ => exact hrow
    · cases hq
  | cancel origins =>
    cases hq
    refine ⟨?_, h.workers⟩
    intro r hr
    obtain ⟨r₀, hr₀, rfl⟩ := mem_map.1 hr
    split <;> exact h.ranges r₀ hr₀
  | bump =>
    cases hq
    exact ⟨h.ranges, h.workers⟩

theorem Queue.empty_holds : empty.Holds R where
  ranges := by simp [empty]
  workers := by simp [empty]

def OnGrid (start stop cursor : Int) : Prop := Aligned start ∧ Aligned stop ∧ Aligned cursor

theorem onGrid_rule : RangeRule OnGrid where
  claim := by
    rintro a b c ⟨ha, hb, hc⟩
    refine ⟨ha, hb, ?_⟩
    rcases max_choice c a with h | h <;> rw [h] <;> assumption
  batch := by
    rintro a b c n ⟨ha, hb, hc⟩
    refine ⟨ha, hb, ?_⟩
    rcases min_choice (c + n * canonicalBucket) b with h | h <;> rw [h]
    · exact hc.add n
    · exact hb
  merge := by
    rintro start stop absorbed ⟨hs, ht, -⟩ hall
    have hstart : Aligned (mergedStart absorbed start) := by
      rcases mergedStart_mem absorbed start with h | ⟨r, hr, h⟩ <;> rw [h]
      · exact hs
      · exact (hall r hr).1
    refine ⟨hstart, ?_, hstart⟩
    rcases mergedStop_mem absorbed stop with h | ⟨r, hr, h⟩ <;> rw [h]
    · exact ht
    · exact (hall r hr).2.1

end Holds

/-! ## Nothing asked for is lost -/

/-- A range that is not done has the bucket ahead of it. -/
def Queue.Covers (q : Queue) (b : Int) : Prop :=
  ∃ r ∈ q.ranges, (r.state = .pending ∨ r.state = .running ∨ r.state = .error) ∧
    r.cursor ≤ b ∧ b < r.stop

theorem Queue.Inv.covers (h : q.Inv) (hreq : q.Requested i b o) :
    After q.log i (Recomputes b) ∨ After q.log i (Cancels o) ∨ q.Covers b := by
  rcases h.requests i b o hreq with hre | hca | ⟨r, hr, hid, hb, -, hs⟩
  · exact .inl hre
  · exact .inr (.inl hca)
  have hok := h.ranges r hr
  rcases lt_or_ge b r.cursor with hlt | hge
  · exact .inl ((hok.done b hb.1 hlt).earlier hid)
  cases hstate : r.state with
  | complete => exact .inl ((hok.complete hstate b hb.1 hb.2).earlier hid)
  | superseded => exact absurd hstate hs
  | pending => exact .inr (.inr ⟨r, hr, .inl hstate, hge, hb.2⟩)
  | running => exact .inr (.inr ⟨r, hr, .inr (.inl hstate), hge, hb.2⟩)
  | error => exact .inr (.inr ⟨r, hr, .inr (.inr hstate), hge, hb.2⟩)

def Queue.Reachable (q : Queue) : Prop := Reach step anyStep empty q

theorem Queue.Reachable.inv (h : q.Reachable) : q.Inv :=
  Reach.invariant empty_inv (fun _ _ _ hi _ hs => hi.step hs) h

theorem Queue.Reachable.onGrid (h : q.Reachable) : q.Holds OnGrid := by
  refine Reach.invariant' (I := fun q => q.Holds OnGrid) empty_holds
    (fun q op q' hr hh _ hs => ?_) h
  refine hh.step onGrid_rule (Reachable.inv hr) (fun start stop _ _ _ _ => ?_) hs
  exact ⟨floorToBucket_aligned _, ceilToBucket_aligned _, floorToBucket_aligned _⟩

/-- What enqueueing `[start, stop)` does: one pending range, of exactly the instants of the absorbed
ranges and of the rounded request, takes the place of the absorbed ones. -/
def Queue.MergesExactly (q q' : Queue) (start stop : Int) (reason : RepairReason) : Prop :=
  ∃ r, q'.ranges = (q.ranges.filter fun a =>
        !a.touches reason (floorToBucket start) (ceilToBucket stop)) ++ [r] ∧
    r.state = .pending ∧ r.reason = reason ∧ r.cursor = r.start ∧
    ∀ t, r.Contains t ↔ (floorToBucket start ≤ t ∧ t < ceilToBucket stop) ∨
      ∃ a ∈ q.ranges, a.touches reason (floorToBucket start) (ceilToBucket stop) ∧ a.Contains t

theorem Queue.Inv.mergesExactly (h : q.Inv) {start stop : Int} (hlt : start < stop)
    (reason : RepairReason) (origin : Option Origin) (now : Int) :
    ∃ q', q.enqueue start stop reason origin now = some q' ∧
      q.MergesExactly q' start stop reason := by
  refine ⟨_, if_neg (by omega), _, rfl, rfl, rfl, rfl, fun t => ?_⟩
  have hunion := merged_eq_union
    (q.ranges.filter fun r => r.touches reason (floorToBucket start) (ceilToBucket stop))
    (floorToBucket start) (ceilToBucket stop) (fun _ hr => h.bounds_of_touches hr) t
  simp only [mem_filter, and_assoc] at hunion
  exact hunion

theorem Queue.Inv.covers_cancel (h : q.Inv) (origins : List Origin) (hreq : q.Requested i b o)
    (hre : ¬ After q.log i (Recomputes b)) (hca : ¬ After q.log i (Cancels o))
    (ho : ∀ x ∈ o, x ∉ origins) : (q.cancelRangesOfOrigin origins).Covers b := by
  have hreq' : (q.cancelRangesOfOrigin origins).Requested i b o := by
    obtain ⟨start, stop, hi, hb⟩ := hreq
    refine ⟨start, stop, ?_, hb⟩
    change (q.log ++ [_])[i]? = _
    rw [List.getElem?_append_left (List.getElem?_eq_some_iff.1 hi).1, hi]
  rcases (h.cancel origins).covers hreq' with h' | h' | h'
  · exact absurd (h'.of_concat.resolve_right (by simp [Recomputes])) hre
  · rcases h'.of_concat with h' | ⟨x, hx, hmem⟩
    · exact absurd h' hca
    · exact absurd hmem (ho x hx)
  · exact h'

/-- **The repair queue loses nothing it was asked for.** In every reachable state an enqueue
replaces the touching pending ranges of its reason by their union with the rounded request; a
requested bucket was recomputed or its origin cancelled since, or an unfinished range still covers
it; and cancelling other origins leaves it there. -/
theorem repair_queue_preserves_requests (q : Queue) (hq : q.Reachable) :
    (∀ start stop reason origin now, start < stop →
      ∃ q', q.enqueue start stop reason origin now = some q' ∧
        q.MergesExactly q' start stop reason) ∧ (∀ i b o, q.Requested i b o →
      After q.log i (Recomputes b) ∨ After q.log i (Cancels o) ∨ q.Covers b) ∧
    ∀ origins i b o, q.Requested i b o → ¬ After q.log i (Recomputes b) →
      ¬ After q.log i (Cancels o) → (∀ x ∈ o, x ∉ origins) →
        (q.cancelRangesOfOrigin origins).Covers b :=
  ⟨fun _ _ reason origin now hlt => hq.inv.mergesExactly hlt reason origin now,
    fun _ _ _ hreq => hq.inv.covers hreq,
    fun origins _ _ _ hreq hre hca ho => hq.inv.covers_cancel origins hreq hre hca ho⟩

/-- Two windows ask for abutting hours, a worker starts on their union, and one window is
cancelled. -/
def mergedWindows : List QueueOp :=
  [.enqueue 0 (60 * Go.minute) .maintenance (some (.window 1)) 0,
    .enqueue (60 * Go.minute) (120 * Go.minute) .maintenance (some (.window 2)) 0,
    .claim 1 0,
    .batch 0 10 0,
    .cancel [.window 2]]

theorem repair_queue_preserves_mergedWindows : ∃ q, runOps step empty mergedWindows = some q ∧
      (∀ start stop reason origin now, start < stop →
        ∃ q', q.enqueue start stop reason origin now = some q' ∧
          q.MergesExactly q' start stop reason) ∧
      (∀ i b o, q.Requested i b o → After q.log i (Recomputes b) ∨ After q.log i (Cancels o) ∨
          q.Covers b) ∧
      ∀ origins i b o, q.Requested i b o → ¬ After q.log i (Recomputes b) →
        ¬ After q.log i (Cancels o) → (∀ x ∈ o, x ∉ origins) →
          (q.cancelRangesOfOrigin origins).Covers b :=
  ⟨_, rfl, repair_queue_preserves_requests _ (reach_of_runOps mergedWindows
    (fun _ _ _ => trivial) rfl)⟩

end Cerbix.Service
