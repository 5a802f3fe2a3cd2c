import Cerbix.Domain.Monitor
import Cerbix.Lib.Run
import Cerbix.Lib.Table

/-!
# Canary slots

A canary's journey runs in another system, so its dispatch takes a row of `canary_inflight` first
(`internal/store/canaryinflight.go`): one per monitor, and at most `canaryRegionLimit` in a region,
given back by its run key or expiring. The bound of a region is a field of the table; what an
operation does to one monitor's row is `claimCanaryInflight_eq_ok` and `get_release_of_ne`.

The key a run sends to the other system (`internal/domain/canaryexec.go`) is that of the interval in
which its job was stamped, not of the window it answers. However often a job is held, submitted,
delivered or retried its key stays; two jobs have different keys exactly if an interval begins
between their stampings (`idempotencyKeys_of_run`).
-/

namespace Cerbix.Scheduler

open Cerbix.Lib Cerbix.Domain List

def canaryRegionLimit : Nat := 4

def canaryInflightSlack : Int := seconds 60

/-- A run that is under way. -/
structure CanarySlot where
  monitorID : MonitorID
  region : Region
  runKey : Int
  expiresAt : Int
  deriving DecidableEq, Repr

def slotsIn (slots : Table CanarySlot.monitorID) (region : Region) : List CanarySlot :=
  slots.rows.filter fun r => r.region = region

/-- The runs under way, of which a region has only so many. -/
structure CanaryInflight where
  slots : Table CanarySlot.monitorID
  bounded : ∀ region, (slotsIn slots region).length ≤ canaryRegionLimit

/-- Why a canary gets no slot. -/
inductive ClaimError
  | ttlNotPositive | noRunKey | monitorInFlight | regionSaturated
  deriving DecidableEq, Repr

namespace CanaryInflight

def empty : CanaryInflight := ⟨.empty, fun _ => Nat.zero_le _⟩

variable (t : CanaryInflight)

def get (monitorID : MonitorID) : Option CanarySlot := t.slots.get monitorID

def delete (p : CanarySlot → Bool) : CanaryInflight where
  slots := t.slots.delete p
  bounded region := by
    have hsub : (slotsIn (t.slots.delete p) region).Sublist (slotsIn t.slots region) :=
      filter_sublist.filter _
    exact Nat.le_trans hsub.length_le (t.bounded region)

def insert (slot : CanarySlot) (h : (slotsIn t.slots slot.region).length < canaryRegionLimit) :
    CanaryInflight where
  slots := t.slots.insertNew slot
  bounded region := by
    unfold Table.insertNew
    split
    · by_cases hr : slot.region = region
      · subst hr
        simpa [slotsIn, filter_append] using Nat.succ_le_of_lt h
      · simpa [slotsIn, filter_append, hr] using t.bounded region
    · exact t.bounded region

/-- `ClaimCanaryInflight`. Expired rows are cleared in the same transaction, which a refusal rolls
back. -/
def claimCanaryInflight (now : Int) (monitorID : MonitorID) (region : Region)
    (runKey : Option Int) (ttl : Int) : Except ClaimError CanaryInflight :=
  if ttl ≤ 0 then .error .ttlNotPositive
  else match runKey with
  | none => .error .noRunKey
  | some key =>
    let live := t.delete fun r => r.expiresAt ≤ now
    if (live.get monitorID).isSome then .error .monitorInFlight
    else if h : (slotsIn live.slots region).length < canaryRegionLimit then
      .ok (live.insert ⟨monitorID, region, key, now + ttl⟩ h)
    else .error .regionSaturated

/-- A run is over; another run of the monitor keeps its slot. -/
def releaseCanaryInflight (monitorID : MonitorID) (runKey : Option Int) : CanaryInflight :=
  match runKey with
  | none => t
  | some key => t.delete fun r => r.monitorID = monitorID && r.runKey = key

variable {t} {now ttl : Int} {m : MonitorID} {region : Region} {runKey : Option Int}

theorem get_delete (p : CanarySlot → Bool) (id : MonitorID) :
    (t.delete p).get id = (t.get id).filter fun r => !p r :=
  Table.get_delete _ _ _

theorem get_insert (slot : CanarySlot)
    (h : (slotsIn t.slots slot.region).length < canaryRegionLimit) (id : MonitorID) :
    (t.insert slot h).get id = (t.get id).or (if slot.monitorID = id then some slot else none) :=
  Table.get_insertNew _ _ _

/-- A claim succeeds only where the monitor's last slot has expired; its row is then the new one,
and other monitors keep theirs until it expires. -/
theorem claimCanaryInflight_eq_ok {t' : CanaryInflight}
    (h : t.claimCanaryInflight now m region runKey ttl = .ok t') :
    (∃ key, runKey = some key ∧ t'.get m = some ⟨m, region, key, now + ttl⟩) ∧
      (∀ r, t.get m = some r → r.expiresAt ≤ now) ∧
      ∀ id r, id ≠ m → t.get id = some r → now < r.expiresAt → t'.get id = some r := by
  unfold claimCanaryInflight at h
  split at h
  · cases h
  split at h
  · cases h
  rename_i key
  dsimp only at h
  split at h
  · cases h
  rename_i hfree
  split at h
  · cases h
    have hnone : (t.delete fun r => r.expiresAt ≤ now).get m = none := by
      simpa using hfree
    refine ⟨⟨key, rfl, ?_⟩, ?_, ?_⟩
    · rw [get_insert, hnone]
      simp
    · intro r hr
      rw [get_delete, hr] at hnone
      simpa using hnone
    · intro id r hid hr hlive
      rw [get_insert, get_delete, hr]
      simp [Int.not_le.2 hlive]
  · cases h

theorem get_release_of_ne {id : MonitorID} {r : CanarySlot} (hr : t.get id = some r)
    (hne : id = m → runKey ≠ some r.runKey) :
    (t.releaseCanaryInflight m runKey).get id = some r := by
  cases runKey with
  | none => exact hr
  | some key =>
    have hid : r.monitorID = id := Table.key_of_get hr
    rw [releaseCanaryInflight, get_delete, hr, Option.filter_some, if_pos]
    simp only [Bool.not_eq_true', Bool.and_eq_false_iff, decide_eq_false_iff_not]
    by_cases he : r.monitorID = m
    · exact .inr fun hk => hne (hid.symm.trans he) (congrArg some hk.symm)
    · exact .inl he

theorem delete_delete_comm (p q : CanarySlot → Bool) :
    (t.delete p).delete q = (t.delete q).delete p := by
  simp only [delete, Table.delete, filter_filter, Bool.and_comm]

theorem delete_delete_self (p : CanarySlot → Bool) : (t.delete p).delete p = t.delete p := by
  simp [delete, Table.delete]

theorem release_comm (runKey' : Option Int) :
    (t.releaseCanaryInflight m runKey).releaseCanaryInflight m runKey' =
      (t.releaseCanaryInflight m runKey').releaseCanaryInflight m runKey := by
  cases runKey with
  | none => rfl
  | some key =>
    cases runKey' with
    | none => rfl
    | some key' => exact delete_delete_comm _ _

theorem release_release : (t.releaseCanaryInflight m runKey).releaseCanaryInflight m runKey =
      t.releaseCanaryInflight m runKey := by
  cases runKey with
  | none => rfl
  | some key => exact delete_delete_self _

end CanaryInflight

/-- The number of the interval since the epoch. -/
def canaryRunKeyAt (intervalSeconds : Int) (at' : Int) : Option Int :=
  if intervalSeconds ≤ 0 then none else some ((at' / seconds 1).tdiv intervalSeconds)

variable (m : Monitor)

/-- A canary without a run is given one. -/
def withCanaryRunKey (at' : Int) : Monitor :=
  if m.type ≠ .asyncCanary ∨ m.canaryRunKey.isSome then m
  else { m with canaryRunKey := canaryRunKeyAt m.intervalSeconds at' }

@[simp] theorem withCanaryRunKey_type (at' : Int) : (withCanaryRunKey m at').type = m.type := by
  unfold withCanaryRunKey
  split <;> rfl

@[simp] theorem withCanaryRunKey_id (at' : Int) : (withCanaryRunKey m at').id = m.id := by
  unfold withCanaryRunKey
  split <;> rfl

/-! ## The idempotency key -/

section

variable {κ : Type} (digest : MonitorID → Int → Int → κ)

/-- `CanaryIdempotencyKey`, with the digest left open; without a run no key is sent. -/
def canaryIdempotencyKey (m : Monitor) : Option κ :=
  m.canaryRunKey.map (digest m.id m.executionRevision)

/-- A job of a canary: the window that it answers, its path, and the clocks of the credential
materializer and of the tick. -/
structure CanaryDispatch where
  dueAt : Int
  credentialed : Bool
  stampedAt : Int
  dispatchedAt : Int
  deriving DecidableEq

namespace CanaryDispatch

/-- The monitor of the job, stamped on the path it takes. -/
def job (d : CanaryDispatch) : Monitor :=
  withCanaryRunKey (if d.credentialed ∧ 0 < m.intervalSeconds then
      { m with canaryRunKey := canaryRunKeyAt m.intervalSeconds d.stampedAt } else m) d.dispatchedAt

/-- The clock that the run key is read off. -/
def stamp (d : CanaryDispatch) : Int := if d.credentialed then d.stampedAt else d.dispatchedAt

/-- An interval since the epoch begins between the two stampings. -/
def Apart (d d' : CanaryDispatch) : Prop :=
  0 < m.intervalSeconds ∧ ∃ k, min d.stamp d'.stamp < k * seconds m.intervalSeconds ∧
    k * seconds m.intervalSeconds ≤ max d.stamp d'.stamp

end CanaryDispatch

/-- A decided dispatch. Its payload is what the leader holds and the transport carries. -/
structure CanaryJob where
  jobID : JobID
  dispatch : CanaryDispatch
  monitor : Monitor
  deriving DecidableEq

/-- The jobs that the leader holds, those on the transport, and the submits of the executors, each
with its key. -/
structure CanaryTransport (κ : Type) where
  nextJob : JobID
  held : List CanaryJob
  queue : List CanaryJob
  submits : List (CanaryJob × Option κ)

/-- What happens to the jobs of a canary. -/
inductive CanaryOp
  | decide (d : CanaryDispatch) (reserved : Bool)
  /-- The next tick submits a held dispatch again, unchanged. -/
  | resubmit (i : Nat) (reserved : Bool)
  /-- An executor takes a message and submits the run. A message that is not acknowledged stays: it
  is redelivered, claimed again or retried. -/
  | submit (i : Nat) (acknowledged : Bool)

/-- A dispatch is decided, submitted again, or run. -/
def canaryStep (m : Monitor) (st : CanaryTransport κ) : CanaryOp → Option (CanaryTransport κ)
  | .decide d reserved =>
    let job : CanaryJob := ⟨st.nextJob, d, d.job m⟩
    let st := { st with nextJob := st.nextJob + 1 }
    some (if reserved then { st with queue := st.queue ++ [job] }
      else { st with held := st.held ++ [job] })
  | .resubmit i reserved => st.held[i]?.map fun job =>
    if reserved then { st with held := st.held.eraseIdx i, queue := st.queue ++ [job] } else st
  | .submit i acknowledged => st.queue[i]?.map fun job =>
    { st with
      queue := if acknowledged then st.queue.eraseIdx i else st.queue
      submits := st.submits ++ [(job, canaryIdempotencyKey digest job.monitor)] }

/-- Clocks are after the epoch. -/
def CanaryOp.afterEpoch : CanaryOp → Bool
  | .decide d _ => 0 ≤ d.stamp
  | .resubmit _ _ | .submit _ _ => true

namespace CanaryTransport

def empty : CanaryTransport κ := ⟨0, [], [], []⟩

def jobs (st : CanaryTransport κ) : List CanaryJob :=
  st.held ++ st.queue ++ st.submits.map Prod.fst

/-- Every job is as it was decided, its id is its own, and a submit has the key of its job. -/
structure Carried (m : Monitor) (st : CanaryTransport κ) : Prop where
  minted : ∀ j ∈ st.jobs, j.jobID < st.nextJob ∧ j.monitor = j.dispatch.job m ∧ 0 ≤ j.dispatch.stamp
  unique : ∀ j ∈ st.jobs, ∀ j' ∈ st.jobs, j.jobID = j'.jobID → j = j'
  keys : ∀ x ∈ st.submits, x.2 = canaryIdempotencyKey digest x.1.monitor

variable {digest} {m : Monitor} {st st' : CanaryTransport κ}

theorem Carried.of_jobs (h : Carried digest m st) (hjobs : ∀ j ∈ st'.jobs, j ∈ st.jobs)
    (hnext : st'.nextJob = st.nextJob)
    (hkeys : ∀ x ∈ st'.submits, x.2 = canaryIdempotencyKey digest x.1.monitor) :
    Carried digest m st' :=
  ⟨fun j hj => hnext ▸ h.minted j (hjobs j hj),
    fun j hj j' hj' => h.unique j (hjobs j hj) j' (hjobs j' hj'), hkeys⟩

theorem Carried.mint (h : Carried digest m st) {d : CanaryDispatch} (hd : 0 ≤ d.stamp)
    (hjobs : ∀ j ∈ st'.jobs, j ∈ st.jobs ∨ j = ⟨st.nextJob, d, d.job m⟩)
    (hnext : st'.nextJob = st.nextJob + 1) (hsubmits : st'.submits = st.submits) :
    Carried digest m st' := by
  refine ⟨fun j hj => ?_, fun j hj j' hj' hid => ?_, hsubmits ▸ h.keys⟩
  · rw [hnext]
    rcases hjobs j hj with hj | rfl
    · exact ⟨Nat.lt_succ_of_lt (h.minted j hj).1, (h.minted j hj).2⟩
    · exact ⟨Nat.lt_succ_self _, rfl, hd⟩
  · rcases hjobs j hj with hj | rfl <;> rcases hjobs j' hj' with hj' | rfl
    · exact h.unique j hj j' hj' hid
    · exact absurd hid (Nat.ne_of_lt (h.minted j hj).1)
    · exact absurd hid.symm (Nat.ne_of_lt (h.minted j' hj').1)
    · rfl

theorem Carried.step (h : Carried digest m st) {op : CanaryOp} (hop : op.afterEpoch)
    (hst : canaryStep digest m st op = some st') : Carried digest m st' := by
  cases op with
  | decide d reserved =>
    cases hst
    refine h.mint (of_decide_eq_true hop) (fun j hj => ?_) ?_ ?_
    · cases reserved <;> simp [jobs] at hj ⊢ <;> tauto
    all_goals cases reserved <;> rfl
  | resubmit i reserved =>
    obtain ⟨job, hjob, rfl⟩ := Option.map_eq_some_iff.1 hst
    have hmem := mem_of_getElem? hjob
    cases reserved with
    | false => exact h
    | true =>
      refine h.of_jobs (fun j hj => ?_) rfl h.keys
      simp only [jobs, if_true, mem_append, mem_singleton] at hj ⊢
      rcases hj with (hj | hj | rfl) | hj
      · exact .inl (.inl (mem_of_mem_eraseIdx hj))
      · exact .inl (.inr hj)
      · exact .inl (.inl hmem)
      · exact .inr hj
  | submit i acknowledged =>
    obtain ⟨job, hjob, rfl⟩ := Option.map_eq_some_iff.1 hst
    have hmem := mem_of_getElem? hjob
    refine h.of_jobs (fun j hj => ?_) rfl (forall_mem_concat h.keys rfl)
    simp only [jobs, map_append, map_cons, map_nil, mem_append, mem_singleton] at hj ⊢
    rcases hj with (hj | hj) | hj | rfl
    · exact .inl (.inl hj)
    · refine .inl (.inr ?_)
      split at hj
      · exact mem_of_mem_eraseIdx hj
      · exact hj
    · exact .inr hj
    · exact .inl (.inr hmem)

theorem carried_of_reach
    (h : Reach (canaryStep digest m) (fun _ op => op.afterEpoch) empty st) : Carried digest m st :=
  h.invariant ⟨by simp [jobs, empty], by simp [jobs, empty], by simp [empty]⟩
    fun _ _ _ hs hop hst => hs.step hop hst

end CanaryTransport

variable {digest} {m : Monitor} {d d' : CanaryDispatch}

theorem CanaryDispatch.canaryRunKey_job (hm : m.type = .asyncCanary) (hrun : m.canaryRunKey = none)
    (d : CanaryDispatch) :
    (d.job m).canaryRunKey = canaryRunKeyAt m.intervalSeconds d.stamp := by
  obtain ⟨due, credentialed, stamped, dispatched⟩ := d
  by_cases hpos : 0 < m.intervalSeconds <;> cases credentialed <;>
    simp [job, stamp, withCanaryRunKey, canaryRunKeyAt, hm, hrun, hpos, Int.not_le.2, Int.not_lt.1]

theorem CanaryDispatch.job_keeps (d : CanaryDispatch) :
    (d.job m).id = m.id ∧ (d.job m).executionRevision = m.executionRevision := by
  unfold job withCanaryRunKey
  split <;> split <;> exact ⟨rfl, rfl⟩

/-- **Two run keys differ** where an interval begins between the two instants. -/
theorem canaryRunKeyAt_ne_iff {i a b : Int} (ha : 0 ≤ a) (hb : 0 ≤ b) :
    canaryRunKeyAt i a ≠ canaryRunKeyAt i b ↔
      0 < i ∧ ∃ k, min a b < k * seconds i ∧ k * seconds i ≤ max a b := by
  by_cases hi : i ≤ 0
  · simp [canaryRunKeyAt, hi, Int.not_lt.2 hi]
  have hpos : 0 < seconds i := by unfold seconds; omega
  have hdiv {x : Int} (hx : 0 ≤ x) : (x / seconds 1).tdiv i = x / seconds i := by
    rw [Int.tdiv_eq_ediv_of_nonneg (Int.ediv_nonneg hx (by decide)),
      Int.ediv_ediv_of_nonneg (by decide)]
    congr 1
    unfold seconds
    omega
  have hlt {x y : Int} : x / seconds i < y / seconds i ↔
      ∃ k, x < k * seconds i ∧ k * seconds i ≤ y := by
    constructor
    · intro h
      refine ⟨y / seconds i, ?_, Int.ediv_mul_le y (Int.ne_of_gt hpos)⟩
      exact (Int.ediv_lt_iff_lt_mul hpos).1 h
    · rintro ⟨k, hx, hy⟩
      have := (Int.ediv_lt_iff_lt_mul hpos).2 hx
      have := (Int.le_ediv_iff_mul_le hpos).2 hy
      omega
  rw [canaryRunKeyAt, canaryRunKeyAt, if_neg hi, if_neg hi, hdiv ha, hdiv hb,
    and_iff_right (Int.not_le.1 hi), Ne, Option.some.injEq, ← hlt]
  rcases Int.le_total a b with hab | hab
  · rw [Int.min_eq_left hab, Int.max_eq_right hab]
    have := Int.ediv_le_ediv hpos hab
    omega
  · rw [Int.min_eq_right hab, Int.max_eq_left hab]
    have := Int.ediv_le_ediv hpos hab
    omega

open CanaryTransport CanaryDispatch

/-- **The idempotency key names the interval in which a job was stamped.** In every run the submits
of one job, held, redelivered, claimed again or retried, have one key; those of jobs of different
windows have different keys exactly if an interval begins between their stampings. -/
theorem idempotencyKeys_of_run (hm : m.type = .asyncCanary) (hrun : m.canaryRunKey = none)
    (hdigest : ∀ run run', digest m.id m.executionRevision run =
      digest m.id m.executionRevision run' → run = run') {st : CanaryTransport κ}
    (h : Reach (canaryStep digest m) (fun _ op => op.afterEpoch) empty st) :
    ∀ x ∈ st.submits, ∀ y ∈ st.submits, (x.1.jobID = y.1.jobID → x.2 = y.2) ∧
      (x.1.dispatch.dueAt ≠ y.1.dispatch.dueAt →
        (x.2 ≠ y.2 ↔ x.1.dispatch.Apart m y.1.dispatch)) := by
  have hc := carried_of_reach h
  intro x hx y hy
  have hjob {x : CanaryJob × Option κ} (hx : x ∈ st.submits) : x.1 ∈ st.jobs :=
    mem_append_right _ (mem_map_of_mem hx)
  refine ⟨fun hid => ?_, fun _ => ?_⟩
  · rw [hc.keys x hx, hc.keys y hy, hc.unique _ (hjob hx) _ (hjob hy) hid]
  obtain ⟨-, hmx, hsx⟩ := hc.minted _ (hjob hx)
  obtain ⟨-, hmy, hsy⟩ := hc.minted _ (hjob hy)
  have hkey (d : CanaryDispatch) : canaryIdempotencyKey digest (d.job m) =
      (canaryRunKeyAt m.intervalSeconds d.stamp).map (digest m.id m.executionRevision) := by
    rw [canaryIdempotencyKey, canaryRunKey_job hm hrun, (job_keeps d).1, (job_keeps d).2]
  rw [hc.keys x hx, hc.keys y hy, hmx, hmy, hkey, hkey, Apart, ← canaryRunKeyAt_ne_iff hsx hsy]
  exact (Option.map_injective fun run run' => hdigest run run').ne_iff

/-- A canary of a minute that is confirmed every ten seconds. -/
def minuteCanary : Monitor :=
  ⟨1, .asyncCanary, true, false, 0, 60, 20, 10, 0, 3, false, 3, .up, 1, none⟩

def exactDigest (id : MonitorID) (revision run : Int) : MonitorID × Int × Int := (id, revision, run)

def minuteRun (ops : List CanaryOp) : CanaryTransport (MonitorID × Int × Int) :=
  finalState (canaryStep exactDigest minuteCanary) empty ops

/-- The windows that the submits of a run answer, with their keys. -/
def windowKeys (st : CanaryTransport κ) : List (Int × Option κ) :=
  st.submits.map fun x => (x.1.dispatch.dueAt, x.2)

/-- The confirming run ten seconds after a failed one, and a run that was dispatched after the next
window had opened. -/
theorem windows_share_key :
    windowKeys (minuteRun [.decide ⟨seconds 60, false, 0, seconds 60⟩ true,
        .decide ⟨seconds 70, false, 0, seconds 70⟩ true, .submit 0 true, .submit 0 true]) =
      [(seconds 60, some (1, 3, 1)), (seconds 70, some (1, 3, 1))] ∧
    windowKeys (minuteRun [.decide ⟨seconds 60, true, seconds 125, seconds 126⟩ true,
        .decide ⟨seconds 120, true, seconds 130, seconds 131⟩ true, .submit 0 true,
        .submit 0 true]) =
      [(seconds 60, some (1, 3, 2)), (seconds 120, some (1, 3, 2))] := by
  decide

/-- A job that was held and then delivered twice, and the run of the next window. -/
theorem idempotencyKeys_onTime :
    ∃ x y z, (minuteRun [.decide ⟨seconds 60, false, 0, seconds 61⟩ false, .resubmit 0 true,
        .decide ⟨seconds 120, false, 0, seconds 122⟩ true, .submit 0 false, .submit 0 true,
        .submit 0 true]).submits = [x, y, z] ∧ x.2 = y.2 ∧ x.2 ≠ z.2 := by
  have hreach : Reach (canaryStep exactDigest minuteCanary) (fun _ op => op.afterEpoch) empty
      (minuteRun [.decide ⟨seconds 60, false, 0, seconds 61⟩ false, .resubmit 0 true,
        .decide ⟨seconds 120, false, 0, seconds 122⟩ true, .submit 0 false, .submit 0 true,
        .submit 0 true]) := reach_of_allowedRun (by decide)
  have hkeys := idempotencyKeys_of_run rfl rfl
    (fun _ _ h => (Prod.mk.inj (Prod.mk.inj h).2).2) hreach
  refine ⟨_, _, _, rfl, (hkeys _ mem_cons_self _ (by decide)).1 rfl,
    ((hkeys _ mem_cons_self _ (by decide)).2 (by decide)).2 ⟨by decide, 2, by decide, by decide⟩⟩

end

end Cerbix.Scheduler
