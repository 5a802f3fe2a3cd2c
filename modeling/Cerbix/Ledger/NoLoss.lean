import Cerbix.Lib.Run
import Cerbix.Ledger.Tables

/-!
# No expectation is lost

An advance replaces `next_due_at`, and what it passed can only be read from `expected_runs`
afterwards. A run of the ledger's statements is watched with a record of all the schedule has passed
(`Pass`); each such instant has a row, unless the row was created later, the fence is later, or
retention has dropped it (`noExpectationLost`).
-/

namespace Cerbix.Ledger

open Cerbix.Lib Cerbix.Domain List Option LedgerTables Table ScheduleRow

/-- A schedule row was passed at `upto`: by an advance, which also answers the standing window, or
by a segment close. -/
structure Pass where
  monitorID : MonitorID
  due : Int
  interval : Int
  upto : Int
  advance : Bool
  deriving DecidableEq, Repr

/-- The instants a pass leaves behind: the former `next_due_at` of an advance, and later instants of
its grid before the pass. -/
def Pass.Passed (p : Pass) (t : Int) : Prop :=
  (p.advance ∧ t = p.due) ∨ ∃ k : Int, 1 ≤ k ∧ t = p.due + seconds p.interval * k ∧ t < p.upto

/-- The tables with every pass over a due instant. -/
structure Audit where
  tables : LedgerTables
  clock : Int
  passes : List Pass

namespace Audit

def empty (clock : Int) : Audit := ⟨⟨.empty, .empty, .empty⟩, clock, []⟩

inductive Op
  | reserve (now : Int) (tie : Nat) (items : List ExpectationAdvance)
  | configWrite (now : Int) (write : ConfigWrite)
  | purge (now : Int)

def Op.now : Op → Int
  | .reserve now _ _ => now
  | .configWrite now _ => now
  | .purge now => now

/-- The due instants that a reserve moves on from. -/
def reservePasses (l : LedgerTables) (now : Int) (items : List Advance) : List Pass :=
  l.schedule.rows.filterMap fun s => (l.picked items s).map fun _ =>
    ⟨s.monitorID, s.nextDueAt, s.intervalInForce, now, true⟩

/-- The due instants that a close moves on from. -/
def closePasses (l : LedgerTables) (now : Int) (ids : List MonitorID) : List Pass :=
  l.schedule.rows.filterMap fun s => (l.closing ids s).map fun _ =>
    ⟨s.monitorID, s.nextDueAt, s.intervalInForce, now, false⟩

def step (policy : ExpectedRunPolicy) (a : Audit) : Op → Option Audit
  | .reserve now tie items =>
    some ⟨(a.tables.reserveExpectations policy now tie items).1, now,
      a.passes ++ reservePasses a.tables now (validAdvances items)⟩
  | .configWrite now write =>
    (a.tables.writeGeneration write).map fun (written, ids) =>
      ⟨written.syncMonitorSchedule policy now ids, now, a.passes ++ closePasses written now ids⟩
  | .purge now => some { a with tables := a.tables.purgeOldExpectedRuns policy now, clock := now }

def dayCap : Int := 86400

def ConfigWrite.intervalLe : ConfigWrite → Prop
  | .create _ _ c => c.intervalSeconds ≤ dayCap
  | .update _ c => c.intervalSeconds ≤ dayCap
  | _ => True

/-- The clock does not run backwards, and no interval is longer than a day. -/
def Allowed (a : Audit) (op : Op) : Prop :=
  a.clock ≤ op.now ∧ match op with
    | .reserve _ _ items => ∀ v ∈ items, v.intervalInForce ≤ dayCap
    | .configWrite _ write => ConfigWrite.intervalLe write
    | .purge _ => True

instance (a : Audit) : ∀ op, Decidable (Allowed a op)
  | .reserve _ _ items =>
    inferInstanceAs (Decidable (_ ∧ ∀ v ∈ items, v.intervalInForce ≤ dayCap))
  | .configWrite _ (.create ..) => inferInstanceAs (Decidable (_ ∧ _ ≤ dayCap))
  | .configWrite _ (.update ..) => inferInstanceAs (Decidable (_ ∧ _ ≤ dayCap))
  | .configWrite _ (.retire _) => inferInstanceAs (Decidable (_ ∧ True))
  | .configWrite _ (.restore _) => inferInstanceAs (Decidable (_ ∧ True))
  | .configWrite _ (.rotate _) => inferInstanceAs (Decidable (_ ∧ True))
  | .purge _ => inferInstanceAs (Decidable (_ ∧ True))

/-- Every instant the schedule has passed, within the three bounds a reader is told, has a row. -/
def NothingLost (policy : ExpectedRunPolicy) (a : Audit) : Prop :=
  ∀ p ∈ a.passes, ∀ t, p.Passed t → ∀ row, a.tables.schedule.get p.monitorID = some row →
    row.scheduleCreatedAt ≤ t → (∀ g, row.gapTruncatedBefore = some g → g ≤ t) →
    policy.retentionCutoff a.clock ≤ t → ∃ r, a.tables.runs.get (p.monitorID, t) = some r

def FenceKept (l l' : LedgerTables) : Prop :=
  ∀ m row row', l.schedule.get m = some row → l'.schedule.get m = some row' →
    ∀ g, row.gapTruncatedBefore = some g → ∃ g', row'.gapTruncatedBefore = some g' ∧ g ≤ g'

/-! ## What is passed is materialized or fenced -/

section

variable {s : ScheduleRow} {copies cap : Nat} {upper floor t : Int} {b : Option Int}
  {l : LedgerTables} {now : Int} {items : List Advance}

theorem greatest_ge_left {a : Option Int} {x : Int} (h : a = some x) :
    ∃ y, greatest a b = some y ∧ x ≤ y := by
  subst h
  cases b with
  | none => exact ⟨x, rfl, le_rfl⟩
  | some b => exact ⟨max x b, rfl, le_max_left _ _⟩

theorem greatest_ge_right {a : Option Int} {x : Int} (h : b = some x) :
    ∃ y, greatest a b = some y ∧ x ≤ y := by
  subst h
  cases a with
  | none => exact ⟨x, rfl, le_rfl⟩
  | some a => exact ⟨max a x, rfl, le_max_right _ _⟩

theorem lower_add_step_le (hcap : 0 < cap) (hfloor : seconds s.intervalInForce ≤ upper - floor) :
    max floor (upper - seconds (s.intervalInForce * cap)) + seconds s.intervalInForce ≤ upper := by
  have hone : seconds s.intervalInForce ≤ seconds (s.intervalInForce * cap) := by
    have : s.intervalInForce * 1 ≤ s.intervalInForce * cap :=
      Int.mul_le_mul_of_nonneg_left (by omega) s.interval_pos.le
    unfold seconds
    omega
  rcases max_choice floor (upper - seconds (s.intervalInForce * cap)) with h | h <;>
    rw [h] <;> omega

/-- An instant of the grid before the bound is materialized, or the fence is later. -/
theorem mem_gapWindows_or_fence (hcopies : 0 < copies) (hcap : 0 < cap)
    (hfloor : seconds s.intervalInForce ≤ upper - floor)
    (ht : OnGrid s.firstExpected (seconds s.intervalInForce) t) (hupper : t < upper) :
    t ∈ s.gapWindows copies upper floor cap ∨
      ∃ g, s.fence (s.gapWindows copies upper floor cap) = some g ∧ t < g := by
  have hstep : 0 < seconds s.intervalInForce := seconds_pos s.interval_pos
  rcases mem_newest_or_lt_min hstep (lower_add_step_le hcap hfloor) hcopies hcap ht hupper with
    hmem | ⟨g, hg, hlt⟩
  · exact .inl hmem
  · refine .inr ⟨g, ?_, hlt⟩
    have hfirst := ht.first_le hstep
    unfold fence gapWindows
    rw [hg, filter_some, if_pos (by simp; omega)]

theorem step_le_of_dayCap (hiv : s.intervalInForce ≤ dayCap) (hfloor : floor ≤ upper - days 2) :
    seconds s.intervalInForce ≤ upper - floor := by
  unfold days seconds at hfloor
  unfold dayCap at hiv
  unfold seconds
  omega

theorem onGrid_of_index {k : Int} (hk : 1 ≤ k)
    (ht : t = s.nextDueAt + seconds s.intervalInForce * k) :
    OnGrid s.firstExpected (seconds s.intervalInForce) t := by
  refine ⟨k - 1, by omega, ?_⟩
  rw [firstExpected, Int.mul_sub]
  omega

theorem gapWindows_one : s.gapWindows 1 upper floor cap =
    (instants s.firstExpected (seconds s.intervalInForce)
      (max floor (upper - seconds s.intervalInForce * cap)) upper).reverse := by
  have hcap : seconds (s.intervalInForce * cap) = seconds s.intervalInForce * cap := by
    unfold seconds
    rw [mul_right_comm]
  rw [gapWindows, hcap]
  exact newest_one (length_instants_le (seconds_pos s.interval_pos) (le_max_right _ _))

theorem mem_gapWindows : t ∈ s.gapWindows 1 upper floor cap ↔
    OnGrid s.firstExpected (seconds s.intervalInForce) t ∧ t < upper ∧
      max floor (upper - seconds s.intervalInForce * cap) ≤ t := by
  rw [gapWindows_one, mem_reverse, mem_instants (seconds_pos s.interval_pos)]
  tauto

theorem fence_spec {windows : List Int} {g : Int} (h : s.fence windows = some g) :
    g ∈ windows ∧ (∀ t ∈ windows, g ≤ t) ∧ s.firstExpected < g := by
  obtain ⟨hg, hlt⟩ := filter_eq_some_iff.1 h
  exact ⟨List.min?_mem hg, fun t ht => (List.min?_eq_some_iff.1 hg).2 t ht, of_decide_eq_true hlt⟩

theorem fence_isSome_iff (hcap : 0 < cap) (hfloor : seconds s.intervalInForce < upper - floor) :
    (s.fence (s.gapWindows 1 upper floor cap)).isSome ↔
      ∃ t, OnGrid s.firstExpected (seconds s.intervalInForce) t ∧ t < upper ∧
        t ∉ s.gapWindows 1 upper floor cap := by
  constructor
  · intro h
    obtain ⟨g, hg⟩ := isSome_iff_exists.1 h
    obtain ⟨hmem, hle, hlt⟩ := fence_spec hg
    have hupper := (mem_gapWindows.1 hmem).2.1
    -- the first expected window itself lies before the oldest one materialized
    refine ⟨s.firstExpected, ⟨0, le_rfl, by omega⟩, by omega, fun hfirst => ?_⟩
    have := hle _ hfirst
    omega
  · rintro ⟨t, ht, hupper, hnot⟩
    obtain hmem | ⟨g, hg, -⟩ := mem_gapWindows_or_fence one_pos hcap hfloor.le ht hupper
    · exact absurd hmem hnot
    · rw [hg]
      rfl

theorem reserveGap_of_nodup {policy : ExpectedRunPolicy}
    {p : Picked} (hitems : (items.map Advance.monitorID).Nodup)
    (hp : l.picked items s = some p) : reserveGap policy now s p =
      s.gapWindows 1 now (policy.retentionCutoff now) policy.gapWindowsMax := by
  have hnodup : (p.advances.map Advance.monitorID).Nodup :=
    hitems.sublist ((advances_sublist hp).map _)
  have hone : p.rest = [] := by
    refine eq_nil_iff_forall_not_mem.2 fun v hv => ?_
    have hid : ∀ u ∈ p.advances, u.monitorID = s.monitorID := fun u hu =>
      ((picked_spec hp).2 u hu).2.1
    refine (nodup_cons.1 hnodup).1 (mem_map.2 ⟨v, hv, ?_⟩)
    rw [hid v (mem_cons_of_mem _ hv), hid p.first mem_cons_self]
  rw [reserveGap, Picked.advances, hone]
  rfl

theorem mem_missedWindows_congr {policy : ExpectedRunPolicy}
    {items' : List Advance} {r : ExpectedRun}
    (h : items.filter (·.monitorID = r.monitorID) = items'.filter (·.monitorID = r.monitorID))
    (hr : r ∈ l.missedWindows policy now items) : r ∈ l.missedWindows policy now items' := by
  obtain ⟨s, hs, p, hp, hmem⟩ := mem_missedWindows.1 hr
  obtain ⟨d, hd, rfl⟩ := mem_map.1 hmem
  exact mem_missedWindows.2 ⟨s, hs, p, picked_congr h ▸ hp, hmem⟩

/-- **The gap is exact.** The windows materialized for a schedule row are those of its grid that
neither floor nor cap cuts off. There is a fence exactly if one is missing, and it is the oldest
materialized. Other monitors of the batch do not matter. -/
theorem gap_exact (s : ScheduleRow) (upper floor : Int) {cap : Nat} (hcap : 0 < cap) :
    (∀ t, t ∈ s.gapWindows 1 upper floor cap ↔
      OnGrid s.firstExpected (seconds s.intervalInForce) t ∧ t < upper ∧
        max floor (upper - seconds s.intervalInForce * cap) ≤ t) ∧
    (s.gapWindows 1 upper floor cap).length ≤ cap ∧
    s.gapWindows 1 upper floor cap = (instants s.firstExpected (seconds s.intervalInForce)
      (max floor (upper - seconds s.intervalInForce * cap)) upper).reverse ∧
    (seconds s.intervalInForce < upper - floor →
      ((s.fence (s.gapWindows 1 upper floor cap)).isSome ↔
        ∃ t, OnGrid s.firstExpected (seconds s.intervalInForce) t ∧ t < upper ∧
          t ∉ s.gapWindows 1 upper floor cap) ∧
      ∀ g, s.fence (s.gapWindows 1 upper floor cap) = some g →
        g ∈ s.gapWindows 1 upper floor cap ∧ ∀ t ∈ s.gapWindows 1 upper floor cap, g ≤ t) ∧
    ∀ (l : LedgerTables) (policy : ExpectedRunPolicy) (now : Int),
      (∀ tie items items', (items.map Advance.monitorID).Nodup →
        items.filter (·.monitorID = s.monitorID) = items'.filter (·.monitorID = s.monitorID) →
        (∀ p, l.picked items s = some p → reserveGap policy now s p =
          s.gapWindows 1 now (policy.retentionCutoff now) policy.gapWindowsMax) ∧
        (l.reserve policy now tie items).schedule.get s.monitorID =
          (l.reserve policy now tie items').schedule.get s.monitorID ∧
        ∀ r, r.monitorID = s.monitorID → (r ∈ l.missedWindows policy now items ↔
          r ∈ l.missedWindows policy now items')) ∧
      ∀ ids ids', (s.monitorID ∈ ids ↔ s.monitorID ∈ ids') →
        (l.closeScheduleSegment policy now ids).schedule.get s.monitorID =
          (l.closeScheduleSegment policy now ids').schedule.get s.monitorID := by
  refine ⟨fun t => mem_gapWindows, ?_, gapWindows_one, fun hfloor =>
    ⟨fence_isSome_iff hcap hfloor, fun g hg => ⟨(fence_spec hg).1, (fence_spec hg).2.1⟩⟩,
    fun l policy now => ⟨?_, ?_⟩⟩
  · rw [gapWindows_one, length_reverse]
    exact length_instants_le (seconds_pos s.interval_pos) (le_max_right _ _)
  · intro tie items items' hitems h
    refine ⟨fun p hp => reserveGap_of_nodup hitems hp, ?_, ?_⟩
    · rw [get_schedule_reserve, get_schedule_reserve]
      cases hs : l.schedule.get s.monitorID with
      | none => rfl
      | some row =>
        rw [← key_of_get hs] at h
        rw [map_some, map_some, picked_congr h]
    · rintro r hr
      rw [← hr] at h
      exact ⟨mem_missedWindows_congr h, mem_missedWindows_congr h.symm⟩
  · intro ids ids' h
    simp only [closeScheduleSegment, get_update]
    cases hs : l.schedule.get s.monitorID with
    | none => rfl
    | some row => simp only [map_some, closing, key_of_get hs, h]

/-- A row that is due at 0, every two minutes. -/
def everyTwoMinutes : ScheduleRow := ⟨1, 0, 120, false, 1, 0, none, by decide⟩

/-- Of four missed windows the cap keeps two, and the older one of them is the fence. -/
theorem gap_exact_capped :
    everyTwoMinutes.fence (everyTwoMinutes.gapWindows 1 (seconds 600) 0 2) = some (seconds 360) ∧
      ∃ t, OnGrid everyTwoMinutes.firstExpected (seconds everyTwoMinutes.intervalInForce) t ∧
        t < seconds 600 ∧ t ∉ everyTwoMinutes.gapWindows 1 (seconds 600) 0 2 := by
  have hfence : everyTwoMinutes.fence (everyTwoMinutes.gapWindows 1 (seconds 600) 0 2) =
      some (seconds 360) := by decide
  have hexact := (@gap_exact everyTwoMinutes (seconds 600) 0 2 (by decide)).2.2.2.1 (by decide)
  exact ⟨hfence, hexact.1.1 (by rw [hfence]; rfl)⟩

end

variable {policy : ExpectedRunPolicy} {a a' : Audit}

/-- Beside `NothingLost`, what keeps it: nothing is passed ahead of the clock, an answered window
keeps its row, and no interval is longer than a day. -/
structure Inv (policy : ExpectedRunPolicy) (a : Audit) : Prop where
  nothingLost : NothingLost policy a
  upto_le : ∀ p ∈ a.passes, p.upto ≤ a.clock
  answered : ∀ p ∈ a.passes, p.advance → policy.retentionCutoff a.clock ≤ p.due →
    ∃ r, a.tables.runs.get (p.monitorID, p.due) = some r
  monitors_le : ∀ m ∈ a.tables.monitors.rows, m.intervalSeconds ≤ dayCap
  schedule_le : ∀ id row, a.tables.schedule.get id = some row → row.intervalInForce ≤ dayCap

theorem inv_empty (clock : Int) : Inv policy (empty clock) where
  nothingLost := fun p hp => by cases hp
  upto_le := fun p hp => by cases hp
  answered := fun p hp => by cases hp
  monitors_le := fun m hm => by cases hm
  schedule_le := fun id row h => by cases h

variable {now : Int}

/-- The windows of old passes stay: rows are purged only behind the cutoff, and a row created anew
starts after everything passed. -/
theorem Inv.keep {l' : LedgerTables} (h : Inv policy a) (hnow : a.clock ≤ now)
    (hruns : ∀ m t r, a.tables.runs.get (m, t) = some r → policy.retentionCutoff now ≤ t →
      ∃ r', l'.runs.get (m, t) = some r')
    (hrow : ∀ m row', l'.schedule.get m = some row' → row'.scheduleCreatedAt = now ∨
      ∃ row, a.tables.schedule.get m = some row ∧ row'.scheduleCreatedAt = row.scheduleCreatedAt ∧
        ∀ g, row.gapTruncatedBefore = some g → ∃ g', row'.gapTruncatedBefore = some g' ∧ g ≤ g') :
    ∀ p ∈ a.passes, ∀ t, p.Passed t → ∀ row', l'.schedule.get p.monitorID = some row' →
      row'.scheduleCreatedAt ≤ t → (∀ g, row'.gapTruncatedBefore = some g → g ≤ t) →
      policy.retentionCutoff now ≤ t → ∃ r, l'.runs.get (p.monitorID, t) = some r := by
  intro p hp t hpassed row' hrow' hcreated hfence hcut
  have hcut' : policy.retentionCutoff a.clock ≤ t :=
    (policy.retentionCutoff_mono hnow).trans hcut
  rcases hrow _ _ hrow' with hnew | ⟨row, hold, hsame, hmono⟩
  · -- created now: only a window answered ahead of its time can still be in bounds
    rcases hpassed with ⟨hadv, rfl⟩ | ⟨k, -, -, hlt⟩
    · obtain ⟨r, hr⟩ := h.answered p hp hadv hcut'
      exact hruns _ _ r hr hcut
    · have := h.upto_le p hp
      omega
  · obtain ⟨r, hr⟩ := h.nothingLost p hp t hpassed row hold (hsame ▸ hcreated) (fun g hg => by
        obtain ⟨g', hg', hle⟩ := hmono g hg
        exact hle.trans (hfence g' hg')) hcut'
    exact hruns _ _ r hr hcut

/-! ## A reserve -/

section

variable {now : Int} {tie : Nat} {items : List Advance} {s row' : ScheduleRow} {l : LedgerTables}

theorem reserve_fence {p : Picked} {g : Int} (hg : s.gapTruncatedBefore = some g) : ∃ g',
      (advanced policy now tie s p).gapTruncatedBefore = some g' ∧ g ≤ g' :=
  greatest_ge_left hg

theorem reserve_row {m : MonitorID}
    (h : (l.reserve policy now tie items).schedule.get m = some row') :
    ∃ row, l.schedule.get m = some row ∧ row'.scheduleCreatedAt = row.scheduleCreatedAt ∧
      (∀ g, row.gapTruncatedBefore = some g → ∃ g', row'.gapTruncatedBefore = some g' ∧ g ≤ g') ∧
      (row' = row ∨ ∃ p, l.picked items row = some p ∧ row' = advanced policy now tie row p) := by
  rw [get_schedule_reserve, map_eq_some_iff] at h
  obtain ⟨row, hrow, rfl⟩ := h
  refine ⟨row, hrow, ?_⟩
  split
  · exact ⟨rfl, fun g hg => ⟨g, hg, le_rfl⟩, .inl rfl⟩
  · next p hp => exact ⟨rfl, fun g hg => reserve_fence hg, .inr ⟨p, hp, rfl⟩⟩

theorem mem_reservePasses {p : Pass} (h : p ∈ reservePasses l now items) :
    ∃ s ∈ l.schedule.rows, ∃ picked, l.picked items s = some picked ∧
      p = ⟨s.monitorID, s.nextDueAt, s.intervalInForce, now, true⟩ := by
  obtain ⟨s, hs, hp⟩ := mem_filterMap.1 h
  obtain ⟨picked, hpicked, rfl⟩ := map_eq_some_iff.1 hp
  exact ⟨s, hs, picked, hpicked, rfl⟩

theorem reserve_covers {picked : Picked}
    (hs : s ∈ l.schedule.rows) (hp : l.picked items s = some picked)
    (hiv : s.intervalInForce ≤ dayCap) {t : Int}
    (ht : Pass.Passed ⟨s.monitorID, s.nextDueAt, s.intervalInForce, now, true⟩ t)
    (hrow' : (l.reserve policy now tie items).schedule.get s.monitorID =
      some row') (hfence : ∀ g, row'.gapTruncatedBefore = some g → g ≤ t) :
    ∃ r, (l.reserve policy now tie items).runs.get (s.monitorID, t) = some r := by
  rcases ht with ⟨-, rfl⟩ | ⟨k, hk, ht, hlt⟩
  · exact reserve_writes_window hs hp
  have hfloor : policy.retentionCutoff now ≤ now - days 2 :=
    policy.retentionCutoff_le_rollingFloor.trans policy.rollingFloor_le
  have hcopies : 0 < picked.advances.length := Nat.succ_pos _
  rcases mem_gapWindows_or_fence hcopies policy.cap_pos (step_le_of_dayCap hiv hfloor)
    (onGrid_of_index hk ht) hlt with hmem | ⟨g, hg, hlt'⟩
  · exact reserve_writes_gap hs hp hmem
  · -- the fence of this very advance is later than the instant
    exfalso
    rw [get_schedule_reserve, Table.get_of_mem hs, map_some, hp] at hrow'
    obtain ⟨g', hg', hle⟩ := greatest_ge_right (a := s.gapTruncatedBefore) hg
    cases hrow'
    have := hfence g' hg'
    omega

theorem mem_validAdvances {items : List ExpectationAdvance} {v : Advance} :
    v ∈ validAdvances items ↔ ∃ raw ∈ items, raw.validate = .ok v := by
  unfold validAdvances
  rw [mem_filterMap]
  refine exists_congr fun raw => and_congr_right fun _ => ?_
  cases raw.validate <;> simp [Except.toOption]

theorem Inv.reserve (h : Inv policy a) (hnow : a.clock ≤ now) {items : List ExpectationAdvance}
    (hiv : ∀ v ∈ items, v.intervalInForce ≤ dayCap) :
    Inv policy ⟨(a.tables.reserveExpectations policy now tie items).1, now,
      a.passes ++ reservePasses a.tables now (validAdvances items)⟩ where
  nothingLost := by
    intro p hp t ht row' hrow' hcreated hfence hcut
    rcases mem_append.1 hp with hp | hp
    · refine h.keep hnow (fun m t r hr _ => ⟨r, runs_reserve_of_some hr⟩) ?_ p hp t ht
        row' hrow' hcreated hfence hcut
      intro m row' hrow'
      obtain ⟨row, hrow, hsame, hmono, -⟩ := reserve_row hrow'
      exact .inr ⟨row, hrow, hsame, hmono⟩
    · obtain ⟨s, hs, picked, hpicked, rfl⟩ := mem_reservePasses hp
      exact reserve_covers hs hpicked (h.schedule_le _ s (get_of_mem hs)) ht hrow' hfence
  upto_le := by
    intro p hp
    rcases mem_append.1 hp with hp | hp
    · exact (h.upto_le p hp).trans hnow
    · obtain ⟨s, -, picked, -, rfl⟩ := mem_reservePasses hp
      exact le_rfl
  answered := by
    intro p hp hadv hcut
    rcases mem_append.1 hp with hp | hp
    · obtain ⟨r, hr⟩ := h.answered p hp hadv ((policy.retentionCutoff_mono hnow).trans hcut)
      exact ⟨r, runs_reserve_of_some hr⟩
    · obtain ⟨s, hs, picked, hpicked, rfl⟩ := mem_reservePasses hp
      exact reserve_writes_window hs hpicked
  monitors_le := h.monitors_le
  schedule_le := by
    intro id row' hrow'
    obtain ⟨row, hrow, -, -, rfl | ⟨p, hp, rfl⟩⟩ := reserve_row hrow'
    · exact h.schedule_le id _ hrow
    have hmem : p.rest[tie]?.getD p.first ∈ p.advances := by
      cases hr : p.rest[tie]? with
      | none => exact mem_cons_self
      | some v => exact mem_cons_of_mem _ (mem_of_getElem? hr)
    obtain ⟨raw, hraw, hval⟩ :=
      mem_validAdvances.1 ((picked_spec hp).2 _ hmem).1
    have hsame := (ExpectationAdvance.validate_eq_ok hval).2.2.1
    have := hiv raw hraw
    rw [hsame] at this
    exact this

end

/-! ## A configuration write -/

section

variable {now : Int} {l : LedgerTables} {ids : List MonitorID}

theorem mem_closePasses {p : Pass} (h : p ∈ closePasses l now ids) :
    ∃ s ∈ l.schedule.rows, ∃ m, l.closing ids s = some m ∧
      p = ⟨s.monitorID, s.nextDueAt, s.intervalInForce, now, false⟩ := by
  obtain ⟨s, hs, hp⟩ := mem_filterMap.1 h
  obtain ⟨m, hm, rfl⟩ := map_eq_some_iff.1 hp
  exact ⟨s, hs, m, hm, rfl⟩

theorem closedRow_spec (s : ScheduleRow) :
    (l.closedRow policy now ids s).scheduleCreatedAt = s.scheduleCreatedAt ∧
      (l.closedRow policy now ids s).intervalInForce = s.intervalInForce ∧
      ∀ g, s.gapTruncatedBefore = some g →
        ∃ g', (l.closedRow policy now ids s).gapTruncatedBefore = some g' ∧ g ≤ g' := by
  unfold closedRow
  split
  · exact ⟨rfl, rfl, fun g hg => ⟨g, hg, le_rfl⟩⟩
  · exact ⟨rfl, rfl, fun g hg => greatest_ge_left hg⟩

variable {row' : ScheduleRow} {w : ConfigWrite}

theorem sync_row {id : MonitorID}
    (h : (l.syncMonitorSchedule policy now ids).schedule.get id = some row') :
    (row'.scheduleCreatedAt = now ∧ ∃ m, l.monitors.get id = some m ∧
        row'.intervalInForce = m.intervalSeconds) ∨
      ∃ row, l.schedule.get id = some row ∧ row' = l.closedRow policy now ids row := by
  cases hs : l.schedule.get id with
  | none =>
    obtain ⟨m, hm, -, -, hcreated, hinterval⟩ := sync_schedule_of_none hs h
    exact .inl ⟨hcreated, m, hm, hinterval⟩
  | some row => exact .inr ⟨row, rfl, sync_schedule_of_some hs h⟩

theorem close_covers {s : ScheduleRow} {m : Monitor} (hs : s ∈ l.schedule.rows)
    (hm : l.closing ids s = some m) (hiv : s.intervalInForce ≤ dayCap) {t : Int}
    (ht : Pass.Passed ⟨s.monitorID, s.nextDueAt, s.intervalInForce, now, false⟩ t)
    (hrow' : (l.syncMonitorSchedule policy now ids).schedule.get s.monitorID = some row')
    (hfence : ∀ g, row'.gapTruncatedBefore = some g → g ≤ t) :
    ∃ r, (l.syncMonitorSchedule policy now ids).runs.get (s.monitorID, t) = some r := by
  rcases ht with ⟨hadv, -⟩ | ⟨k, hk, ht, hlt⟩
  · cases hadv
  rcases mem_gapWindows_or_fence one_pos policy.cap_pos
    (step_le_of_dayCap hiv policy.rollingFloor_le) (onGrid_of_index hk ht) hlt with
    hmem | ⟨g, hg, hlt'⟩
  · exact sync_writes_gap hs hm hmem
  · have hclosed := sync_schedule_of_some (get_of_mem hs) hrow'
    rw [closedRow, hm] at hclosed
    subst hclosed
    obtain ⟨g', hg', hle⟩ := greatest_ge_right (a := s.gapTruncatedBefore) hg
    have := hfence g' hg'
    omega

theorem writeGeneration_interval {a : LedgerTables}
    (h : a.writeGeneration w = some (l, ids)) (hw : ConfigWrite.intervalLe w)
    (hm : ∀ m ∈ a.monitors.rows, m.intervalSeconds ≤ dayCap) :
    ∀ m ∈ l.monitors.rows, m.intervalSeconds ≤ dayCap := by
  intro m hmem
  rcases writeGeneration_cases h with ⟨id, type, c, rfl, -, -, rfl⟩ | ⟨f, hf, rfl, hiv⟩
  · simp only [Table.insertNew] at hmem
    split at hmem
    · rcases mem_concat.1 hmem with hmem | rfl
      · exact hm m hmem
      · exact hw
    · exact hm m hmem
  · obtain ⟨m₀, hm₀, rfl⟩ := mem_map.1 hmem
    split
    · rcases hiv m₀ with heq | ⟨id, c, rfl, heq⟩ <;> rw [heq]
      · exact hm m₀ hm₀
      · exact hw
    · exact hm m₀ hm₀

theorem Inv.configWrite (h : Inv policy a) (hnow : a.clock ≤ now)
    (hw : ConfigWrite.intervalLe w) (hl : a.tables.writeGeneration w = some (l, ids)) :
    Inv policy ⟨l.syncMonitorSchedule policy now ids, now, a.passes ++ closePasses l now ids⟩ := by
  obtain ⟨hschedule, hruns⟩ := writeGeneration_ledger hl
  have hmonitors := writeGeneration_interval hl hw h.monitors_le
  refine ⟨?_, ?_, ?_, hmonitors, ?_⟩
  · intro p hp t ht row' hrow' hcreated hfence hcut
    rcases mem_append.1 hp with hp | hp
    · refine h.keep hnow (fun m t r hr _ => ⟨r, runs_sync_of_some (hruns ▸ hr)⟩) ?_ p hp t ht
        row' hrow' hcreated hfence hcut
      intro m row' hrow'
      rcases sync_row hrow' with ⟨hnew, -⟩ | ⟨row, hrow, rfl⟩
      · exact .inl hnew
      · obtain ⟨hsame, -, hmono⟩ := closedRow_spec (l := l) row
        exact .inr ⟨row, hschedule ▸ hrow, hsame, hmono⟩
    · obtain ⟨s, hs, m, hm, rfl⟩ := mem_closePasses hp
      have hiv := h.schedule_le _ s (hschedule ▸ Table.get_of_mem hs)
      exact close_covers hs hm hiv ht hrow' hfence
  · intro p hp
    rcases mem_append.1 hp with hp | hp
    · exact (h.upto_le p hp).trans hnow
    · obtain ⟨s, -, m, -, rfl⟩ := mem_closePasses hp
      exact le_rfl
  · intro p hp hadv hcut
    rcases mem_append.1 hp with hp | hp
    · obtain ⟨r, hr⟩ := h.answered p hp hadv ((policy.retentionCutoff_mono hnow).trans hcut)
      exact ⟨r, runs_sync_of_some (hruns ▸ hr)⟩
    · obtain ⟨s, -, m, -, rfl⟩ := mem_closePasses hp
      cases hadv
  · intro id row' hrow'
    rcases sync_row hrow' with ⟨-, m, hm, hiv⟩ | ⟨row, hrow, rfl⟩
    · rw [hiv]
      exact hmonitors m (get_eq_some_iff.1 hm).1
    · rw [(closedRow_spec row).2.1]
      exact h.schedule_le id row (hschedule ▸ hrow)

end

theorem Inv.purge (h : Inv policy a) (hnow : a.clock ≤ now) :
    Inv policy { a with tables := a.tables.purgeOldExpectedRuns policy now, clock := now } := by
  have hruns : ∀ m t r, a.tables.runs.get (m, t) = some r → policy.retentionCutoff now ≤ t →
      ∃ r', (a.tables.purgeOldExpectedRuns policy now).runs.get (m, t) = some r' := by
    intro m t r hr hcut
    have hdue : r.dueAt = t := congrArg Prod.snd (key_of_get hr)
    refine ⟨r, ?_⟩
    rw [purgeOldExpectedRuns, get_delete, hr, filter_some, if_pos (by simp; omega)]
  refine ⟨?_, fun p hp => (h.upto_le p hp).trans hnow, ?_, h.monitors_le, h.schedule_le⟩
  · exact h.keep hnow hruns fun m row hrow =>
      .inr ⟨row, hrow, rfl, fun g hg => ⟨g, hg, le_rfl⟩⟩
  · intro p hp hadv hcut
    obtain ⟨r, hr⟩ := h.answered p hp hadv ((policy.retentionCutoff_mono hnow).trans hcut)
    exact hruns _ _ r hr hcut

theorem Inv.step (h : Inv policy a) {op : Op} (hop : Allowed a op)
    (hstep : Audit.step policy a op = some a') : Inv policy a' := by
  obtain ⟨hnow, hiv⟩ := hop
  cases op with
  | reserve now tie items =>
    cases hstep
    exact h.reserve hnow hiv
  | configWrite now w =>
    simp only [Audit.step, map_eq_some_iff] at hstep
    obtain ⟨⟨l, ids⟩, hl, rfl⟩ := hstep
    exact h.configWrite hnow hiv hl
  | purge now =>
    cases hstep
    exact h.purge hnow

theorem fenceKept_step {op : Op} (hstep : Audit.step policy a op = some a') :
    FenceKept a.tables a'.tables := by
  intro m row row' hrow hrow' g hg
  cases op with
  | reserve now tie items =>
    cases hstep
    obtain ⟨row₀, hrow₀, -, hmono, -⟩ := reserve_row hrow'
    cases hrow.symm.trans hrow₀
    exact hmono g hg
  | configWrite now w =>
    simp only [Audit.step, map_eq_some_iff] at hstep
    obtain ⟨⟨l, ids⟩, hl, rfl⟩ := hstep
    have hschedule := (writeGeneration_ledger hl).1
    have hclosed := sync_schedule_of_some (hschedule ▸ hrow) hrow'
    subst hclosed
    exact (closedRow_spec row).2.2 g hg
  | purge now =>
    cases hstep
    cases hrow.symm.trans hrow'
    exact ⟨g, hg, le_rfl⟩

/-- **No expectation is lost**, in every state of every run, and no fence moves backwards. -/
theorem noExpectationLost {clock : Int} (h : Reach (Audit.step policy) Allowed (empty clock) a) :
    NothingLost policy a ∧
      ∀ op a', Audit.step policy a op = some a' → FenceKept a.tables a'.tables :=
  ⟨(h.invariant (inv_empty clock) fun _ _ _ hi hok hst => hi.step hok hst).nothingLost,
    fun _ _ hstep => fenceKept_step hstep⟩

/-- A monitor probed every minute is created, its leader is absent, its interval is changed in the
middle, and the next leader dispatches it. -/
def absence : List Op :=
  let config : MonitorConfig := ⟨true, 1, 60, 10, 0, 0, 1, false⟩
  let run (due now : Int) (revision : Int) (job : JobID) : ExpectationAdvance :=
    ⟨some 1, some job, none, false, some (now + seconds 60), 60, 4, some due, revision,
      some now, some 1⟩
  [.configWrite 0 (.create 1 .http config), .reserve 0 0 [run 0 0 1 10],
    .configWrite (seconds 150) (.update 1 { config with intervalSeconds := 300 }),
    .reserve (seconds 200) 0 [run (seconds 60) (seconds 200) 2 11]]

theorem absence_nothingLost : let policy := withExpectedRunPolicy 14 10000
    let a := finalState (Audit.step policy) (empty 0) absence
    NothingLost policy a ∧ a.tables.runs.rows.map (fun r => (r.dueAt, r.jobID)) =
        [(0, some 10), (seconds 120, none), (seconds 60, some 11), (seconds 180, none)] :=
  ⟨(noExpectationLost (reach_of_allowedRun (by decide))).1, by decide⟩

end Audit

end Cerbix.Ledger
