import Cerbix.Domain.Monitor
import Cerbix.Lib.Run

/-!
# The daily rollup and the purge of raw heartbeats

The leader recomputes the daily rows of the retained days (`RollupDailyAvailability` in
`internal/store/rollup.go`) and drops the raw heartbeats of older ones (`PurgeOldHeartbeats` in
`retention.go`). Both ranges come from the retention the leader was started with, and neither pass
looks at what the other has done: `history_kept`, `history_lost`.
-/

namespace Cerbix.Store

open Cerbix.Lib Cerbix.Domain List

/-- A stored result. -/
structure RawHeartbeat where
  monitor : MonitorID
  ts : Int
  up : Bool
  stray : Bool
  deriving DecidableEq

/-- A window of maintenance. -/
structure MaintenanceInterval where
  monitor : MonitorID
  startsAt : Int
  endsAt : Int

/-- The results of a day. -/
structure DailyCounts where
  up : Nat
  total : Nat
  deriving DecidableEq

def dayOf (ts : Int) : Int := ts / days 1

def RawHeartbeat.key (h : RawHeartbeat) : MonitorID × Int := (h.monitor, dayOf h.ts)

variable (mwin : List MaintenanceInterval)

def RawHeartbeat.excluded (h : RawHeartbeat) : Bool :=
  mwin.any fun w => w.monitor = h.monitor && w.startsAt ≤ h.ts && h.ts < w.endsAt

/-- One group of `rollupDailySQL`; a group without rows is none. -/
def dailyCounts (hs : List RawHeartbeat) (k : MonitorID × Int) : Option DailyCounts :=
  let group := hs.filter fun h => h.key = k && !h.excluded mwin
  if group = [] then none else some ⟨group.countP (·.up), group.length⟩

/-- What was known of a monitor's day when heartbeats of it were purged: its row, and the counts of
all its heartbeats. -/
structure PurgedDay where
  key : MonitorID × Int
  row : Option DailyCounts
  due : Option DailyCounts

/-- The tables with the leader's setting. `inserted` are all heartbeats so far, `uncounted` the days
with one since they were last rolled up, `purged` the purges. -/
structure RollupStore where
  retentionDays : Int
  raw : List RawHeartbeat
  daily : MonitorID × Int → Option DailyCounts
  inserted : List RawHeartbeat
  uncounted : List (MonitorID × Int)
  purged : List PurgedDay

/-- What happens to results and their daily counts. -/
inductive RollupOp
  | restart (retentionDays : Int)
  | insert (h : RawHeartbeat)
  /-- A rollup pass that commits. -/
  | rollup (now : Int)
  /-- A purge that got to drop the partitions of `dropped` and, at last, the stray rows. -/
  | purge (now : Int) (dropped : List Int) (strays : Bool)

/-- `PurgeOldHeartbeats`, as far as it came: whether the row is removed. -/
def purges (cutoff : Int) (dropped : List Int) (strays : Bool) (h : RawHeartbeat) : Bool :=
  dayOf h.ts < cutoff && (if h.stray then strays else dropped.contains (dayOf h.ts))

/-- The days that a rollup computes. -/
def RollupStore.rolledUp (st : RollupStore) (now : Int) (day : Int) : Bool :=
  dayOf now - st.retentionDays ≤ day && day < dayOf now

def rollupStep (st : RollupStore) : RollupOp → Option RollupStore
  | .restart r => if 2 ≤ r then some { st with retentionDays := r } else none
  | .insert h => some { st with
      raw := st.raw ++ [h], inserted := st.inserted ++ [h], uncounted := h.key :: st.uncounted }
  | .rollup now => some { st with
      daily := fun k => if st.rolledUp now k.2 then dailyCounts mwin st.raw k else st.daily k
      uncounted := st.uncounted.filter fun k => !st.rolledUp now k.2 }
  | .purge now dropped strays =>
    let gone := purges (dayOf now - st.retentionDays) dropped strays
    some { st with
      raw := st.raw.filter fun h => !gone h
      purged := (st.raw.filter gone).map (fun h =>
        ⟨h.key, st.daily h.key, dailyCounts mwin st.inserted h.key⟩) ++ st.purged }

def emptyRollup (retentionDays : Int) : RollupStore :=
  ⟨retentionDays, [], fun _ => none, [], [], []⟩

/-- Every purged day had, when it was purged, the row that counts its heartbeats, and has
it still. -/
def HistoryKept (st : RollupStore) : Prop :=
  ∀ p ∈ st.purged, p.row = p.due ∧ st.daily p.key = p.row

/-- A rollup does not reach back to a purged day, and a purge drops only days that were rolled up
after their last heartbeat. -/
def rangesAgree (st : RollupStore) : RollupOp → Prop
  | .rollup now => ∀ p ∈ st.purged, st.rolledUp now p.key.2 = false
  | .purge now dropped strays =>
    ∀ h ∈ st.raw, purges (dayOf now - st.retentionDays) dropped strays h = true →
      h.key ∉ st.uncounted
  | _ => True

instance (st : RollupStore) (op : RollupOp) : Decidable (rangesAgree st op) :=
  match op with
  | .rollup now => inferInstanceAs (Decidable (∀ p ∈ st.purged, st.rolledUp now p.key.2 = false))
  | .purge now dropped strays => inferInstanceAs (Decidable (∀ h ∈ st.raw,
      purges (dayOf now - st.retentionDays) dropped strays h = true → h.key ∉ st.uncounted))
  | .restart _ => .isTrue trivial
  | .insert _ => .isTrue trivial

/-- A day that no purge has touched is still there, and its row counts it unless a heartbeat came
since. -/
structure RollupInv (mwin : List MaintenanceInterval) (st : RollupStore) : Prop where
  kept : HistoryKept st
  counted : ∀ k, k ∉ st.uncounted → st.daily k = dailyCounts mwin st.inserted k
  whole : ∀ k, (∀ p ∈ st.purged, p.key ≠ k) →
    (st.raw.filter fun h => h.key = k) = st.inserted.filter fun h => h.key = k

section Inv

variable {mwin : List MaintenanceInterval} {st st' : RollupStore} {hs : List RawHeartbeat}
  {k : MonitorID × Int} {now : Int}

theorem dailyCounts_congr {hs' : List RawHeartbeat}
    (h : (hs.filter fun h => h.key = k) = hs'.filter fun h => h.key = k) :
    dailyCounts mwin hs k = dailyCounts mwin hs' k := by
  have hgroup (l : List RawHeartbeat) : (l.filter fun h => h.key = k && !h.excluded mwin) =
      (l.filter fun h => h.key = k).filter fun h => !h.excluded mwin := by
    simp [Bool.and_comm]
  rw [dailyCounts, dailyCounts, hgroup, hgroup, h]

theorem filter_key_append_of_ne {h : RawHeartbeat}
    (hne : h.key ≠ k) : ((hs ++ [h]).filter fun h => h.key = k) = hs.filter fun h => h.key = k := by
  simp [hne]

theorem RollupInv.insert (inv : RollupInv mwin st) (h : RawHeartbeat) :
    RollupInv mwin { st with
      raw := st.raw ++ [h]
      inserted := st.inserted ++ [h]
      uncounted := h.key :: st.uncounted } where
  kept := inv.kept
  counted k hk := by
    obtain ⟨hne, hk⟩ : k ≠ h.key ∧ k ∉ st.uncounted := by simpa using hk
    rw [dailyCounts_congr (filter_key_append_of_ne hne.symm)]
    exact inv.counted k hk
  whole k hk := by
    rw [filter_append, filter_append, inv.whole k hk]

theorem RollupInv.rollup (inv : RollupInv mwin st) (hok : rangesAgree st (.rollup now))
    (hst : rollupStep mwin st (.rollup now) = some st') : RollupInv mwin st' := by
  cases hst
  refine ⟨fun p hp => ⟨(inv.kept p hp).1, ?_⟩, fun k hk => ?_, inv.whole⟩
  · dsimp only
    rw [hok p hp]
    exact (inv.kept p hp).2
  · dsimp only at hk ⊢
    split
    · next hrolled =>
      -- the day is recomputed from the raw rows, of which none was purged
      apply dailyCounts_congr
      apply inv.whole
      rintro p hp rfl
      rw [hok p hp] at hrolled
      cases hrolled
    · next hrolled => exact inv.counted k fun hmem => hk (by simp [hmem, hrolled])

theorem RollupInv.purge (inv : RollupInv mwin st) {dropped : List Int} {strays : Bool}
    (hok : rangesAgree st (.purge now dropped strays))
    (hst : rollupStep mwin st (.purge now dropped strays) = some st') : RollupInv mwin st' := by
  cases hst
  refine ⟨fun p hp => ?_, inv.counted, fun k hk => ?_⟩
  · rcases mem_append.1 hp with hp | hp
    · obtain ⟨h, hh, rfl⟩ := mem_map.1 hp
      obtain ⟨hraw, hgone⟩ := mem_filter.1 hh
      exact ⟨inv.counted _ (hok h hraw hgone), rfl⟩
    · exact inv.kept p hp
  · rw [← inv.whole k fun p hp => hk p (mem_append_right _ hp), filter_filter]
    refine filter_congr fun h hh => ?_
    by_cases hkey : h.key = k
    · have hstays : purges (dayOf now - st.retentionDays) dropped strays h = false := by
        by_contra hgone
        refine hk _ (mem_append_left _ (mem_map.2 ⟨h, ?_, rfl⟩)) hkey
        exact mem_filter.2 ⟨hh, by simpa using hgone⟩
      simp [hstays]
    · simp [hkey]

theorem rollupStep_inv {op : RollupOp} (inv : RollupInv mwin st) (hok : rangesAgree st op)
    (hst : rollupStep mwin st op = some st') : RollupInv mwin st' := by
  cases op with
  | restart r =>
    unfold rollupStep at hst
    dsimp only at hst
    split at hst
    · cases hst
      exact ⟨inv.kept, inv.counted, inv.whole⟩
    · cases hst
  | insert h =>
    cases hst
    exact inv.insert h
  | rollup now => exact inv.rollup hok hst
  | purge now dropped strays => exact inv.purge hok hst

end Inv

/-- **Rolled-up history is kept** in every run in which a rollup does not reach back to a purged day
and a purge drops only days rolled up after their last heartbeat. -/
theorem history_kept {mwin : List MaintenanceInterval} {retentionDays : Int} {st : RollupStore}
    (h : Reach (rollupStep mwin) rangesAgree (emptyRollup retentionDays) st) : HistoryKept st := by
  have inv : RollupInv mwin st := by
    refine h.invariant ⟨?_, fun k _ => rfl, fun k _ => rfl⟩
      fun st op st' inv hok hst => rollupStep_inv inv hok hst
    rintro p ⟨⟩
  exact inv.kept

/-- The first day has one heartbeat, is rolled up and purged; then the leader is started with a
longer retention. -/
def longerRetention : RollupStore :=
  finalState (rollupStep []) (emptyRollup 2)
    [.insert ⟨1, 5, true, false⟩, .rollup (days 1), .purge (days 3) [0] true, .restart 30,
      .rollup (days 3)]

/-- No rollup succeeds before the day is purged. -/
def failedRollups : RollupStore :=
  finalState (rollupStep []) (emptyRollup 2) [.insert ⟨1, 5, true, false⟩, .purge (days 3) [0] true]

/-- **History is lost** in either run: the row of the purged day is deleted, or was never there. -/
theorem history_lost : (Reach (rollupStep []) anyStep (emptyRollup 2) longerRetention ∧
      longerRetention.purged.map (·.row) = [some ⟨1, 1⟩] ∧ longerRetention.daily (1, 0) = none) ∧
    (Reach (rollupStep []) anyStep (emptyRollup 2) failedRollups ∧
      failedRollups.purged.map (fun p => (p.row, p.due)) = [(none, some ⟨1, 1⟩)]) := by
  refine ⟨⟨reach_finalState fun _ _ _ => trivial, ?_, ?_⟩,
    ⟨reach_finalState fun _ _ _ => trivial, ?_⟩⟩ <;> decide +kernel

def sameRetention : List RollupOp :=
  [.insert ⟨1, 5, true, false⟩, .rollup (days 1), .insert ⟨1, days 1, false, true⟩,
    .purge (days 3) [0] true, .rollup (days 3)]

theorem history_kept_sameRetention :
    HistoryKept (finalState (rollupStep []) (emptyRollup 2) sameRetention) := by
  have hrun : AllowedRun (rollupStep []) rangesAgree (emptyRollup 2) sameRetention := by
    decide +kernel
  exact history_kept (reach_of_allowedRun hrun)

end Cerbix.Store
