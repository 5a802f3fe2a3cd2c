import Cerbix.Service.System

/-!
# The watermark and unrepaired maintenance

A maintenance mutation queues a range for repair and rewinds the watermark to its start, so that no
report quotes the old numbers as sealed. But the facts of the range stay sealed, and the next slice
or batch walks back over it before it is repaired (`recrossed_not_honest`). `honest_of_guarded` says
when the watermark stays honest (`Tables.walkStops`, `Tables.rewindsFar`, `Queue.stillHolds`); the
code checks none of the three.
-/

namespace Cerbix.Service

open Cerbix.Lib Cerbix.Domain List Option Go Materialization

/-- A maintenance range that somebody still has to work on. -/
def RepairRange.unfinished (r : RepairRange) : Bool :=
  r.reason = .maintenance ∧ (r.state = .pending ∨ r.state = .running) ∧ r.cursor < r.stop

/-- The bucket lies at or after the cursor of a pending or running maintenance range. -/
def Queue.Unrepaired (q : Queue) (b : Int) : Prop :=
  ∃ r ∈ q.ranges, r.reason = .maintenance ∧ (r.state = .pending ∨ r.state = .running) ∧
    r.cursor ≤ b ∧ b < r.stop

/-- No sealed bucket strictly before the watermark is unrepaired. -/
def Tables.Honest (s : Tables) : Prop :=
  ∀ m, s.materialization = some m → ∀ t, m.sealedThrough = some t →
    ∀ f ∈ s.facts, f.state = .sealed → f.bucketStart < t → ¬ s.queue.Unrepaired f.bucketStart

section Walk

variable {s : Tables} {t : Int} {n : Nat}

theorem Tables.le_sealedRun : t ≤ s.sealedRun n t := by
  induction n generalizing t with
  | zero => exact le_rfl
  | succ n ih =>
    rw [sealedRun]
    split
    · have := canonicalBucket_pos
      exact le_trans (by omega) ih
    · exact le_rfl

theorem Tables.sealedRun_le_of_open {k : Nat} (h : s.isSealed (t + k * canonicalBucket) = false) :
    s.sealedRun n t ≤ t + k * canonicalBucket := by
  have hle (t : Int) (k : Nat) : t ≤ t + k * canonicalBucket :=
    le_add_of_nonneg_right (mul_nonneg (Int.natCast_nonneg k) canonicalBucket_pos.le)
  induction n generalizing t k with
  | zero => exact hle t k
  | succ n ih =>
    rw [sealedRun]
    split
    · next hs =>
      cases k with
      | zero => simp [hs] at h
      | succ k =>
        have heq : t + ((k + 1 : Nat) : Int) * canonicalBucket =
            t + canonicalBucket + k * canonicalBucket := by
          push_cast
          ring
        rw [heq] at h ⊢
        exact ih h
    · exact hle t k

end Walk

/-- A walk from `t` is stopped at or before the cursor: a bucket between them is not sealed and does
not lie in `[start, stop)`. -/
def Tables.stopped (s : Tables) (start stop t cursor : Int) : Bool :=
  (range (bucketCount t cursor + 1)).any fun k =>
    let b := t + k * canonicalBucket
    b ≤ cursor ∧ s.isSealed b = false ∧ ¬ (start ≤ b ∧ b < stop)

/-- A transaction that computes `[start, stop)` finds the walk of the watermark stopped before the
cursor of each unfinished maintenance range. -/
def Tables.walkStops (s : Tables) (start stop : Int) (ranges : List RepairRange) : Bool :=
  ∀ m ∈ s.materialization, ∀ r ∈ ranges, r.unfinished →
    s.stopped start stop (walkStart m) r.cursor

def Worker.batchEnd (w : Worker) (size : Nat) : Int :=
  min (w.cursor + size * canonicalBucket) w.stop

/-- The range with the cursor that the worker's batch is to bring it to. -/
def Worker.brings (w : Worker) (size : Nat) (r : RepairRange) : RepairRange :=
  if r.id = w.id then { r with cursor := w.batchEnd size } else r

/-- Each pending maintenance range the mutation absorbs starts at or after the mutation, or at or
after the watermark; without a watermark the unfinished ranges lie after the mutation's start. -/
def Tables.rewindsFar (s : Tables) (start stop : Int) : Bool :=
  ∀ m ∈ s.materialization,
    (∀ r ∈ s.queue.ranges, r.touches .maintenance (floorToBucket start) (ceilToBucket stop) →
      floorToBucket start ≤ r.start ∨ ∃ t ∈ m.sealedThrough, t ≤ r.start) ∧
    (m.sealedThrough = none → ∀ r ∈ s.queue.ranges, r.unfinished → floorToBucket start ≤ r.cursor)

/-- The worker's range is running, and nobody is ahead of the worker. -/
def Queue.stillHolds (q : Queue) (w : Worker) : Bool :=
  ∀ r ∈ q.ranges, r.id = w.id → r.state = .running ∧ r.cursor ≤ w.cursor

/-- The worker's write would not put back a range that is not its own any more. -/
def Queue.mayClose (q : Queue) (i : Nat) : Closing → Bool
  | .release | .fail _ => ∀ w ∈ q.workers[i]?, q.stillHolds w
  | .complete | .unrecomputable | .lost => true

/-- The step meets the condition for its kind, read off the state before it. -/
def Tables.guarded (s : Tables) : ServiceOp → Bool
  | .advance buckets _ => ∀ m ∈ s.materialization,
    s.walkStops m.materializedThrough (m.materializedThrough + buckets * canonicalBucket)
      s.queue.ranges
  | .batch i size _ => ∀ w ∈ s.queue.workers[i]?,
    s.walkStops w.cursor (w.batchEnd size) (s.queue.ranges.map (w.brings size))
  | .close i how _ => s.queue.mayClose i how
  | .createWindow w _ _ => s.rewindsFar w.startsAt w.endsAt
  | .annulWindow id _ _ =>
    (s.windows.find? fun w => w.id = id).all fun w => s.rewindsFar w.startsAt w.effectiveEnd
  | .put _ | .bump _ _ | .ingest _ _ | .claim _ _ | .archiveWindow _ _ | .enqueueAdmin _ _ _ => true

namespace Queue

variable {q q' : Queue} {b : Int}

theorem Unrepaired.of_cancel {origins : List Origin}
    (h : (q.cancelRangesOfOrigin origins).Unrepaired b) : q.Unrepaired b := by
  obtain ⟨r, hr, hreason, hstate, hb⟩ := h
  obtain ⟨r₀, hr₀, rfl⟩ := mem_map.1 hr
  split at hreason
  · next hc =>
    rw [if_pos hc] at hstate
    simp at hstate
  · next hc =>
    rw [if_neg hc] at hstate hb
    exact ⟨r₀, hr₀, hreason, hstate, hb⟩

variable {now : Int}

theorem Unrepaired.of_enqueue {start stop : Int} {reason : RepairReason}
    {origin : Option Origin} (hreason : reason ≠ .maintenance)
    (hq : q.enqueue start stop reason origin now = some q') (h : q'.Unrepaired b) :
    q.Unrepaired b := by
  unfold enqueue at hq
  split at hq
  · cases hq
  cases hq
  obtain ⟨r, hr, hm, h⟩ := h
  rcases mem_concat.1 hr with hr | rfl
  · exact ⟨r, (mem_filter.1 hr).1, hm, h⟩
  · exact absurd hm hreason

theorem Unrepaired.of_claim (hi : q.Inv) {id : Nat} (hq : q.claim id now = some q')
    (h : q'.Unrepaired b) : q.Unrepaired b := by
  unfold claim at hq
  split at hq
  · cases hq
  rename_i c hfind
  cases hq
  obtain ⟨r, hr, hreason, hstate, hb⟩ := h
  obtain ⟨r₀, hr₀, rfl⟩ := mem_map.1 hr
  split at hreason
  · next hid =>
    rw [if_pos hid] at hb
    -- ids are distinct, so it is the row that was found claimable
    have hc := List.find?_some hfind
    simp only [Bool.and_eq_true, decide_eq_true_eq, RepairRange.claimable] at hc
    obtain rfl : r₀ = c :=
      inj_on_of_nodup_map hi.ids hr₀ (mem_of_find?_eq_some hfind) (hid.trans hc.1.symm)
    exact ⟨r₀, hr₀, hreason, hc.2.imp And.left And.left, hb⟩
  · next hid =>
    rw [if_neg hid] at hstate hb
    exact ⟨r₀, hr₀, hreason, hstate, hb⟩

theorem Unrepaired.of_close {i : Nat} {how : Closing} (hok : q.mayClose i how)
    (hq : q.close i how = some q') (h : q'.Unrepaired b) : q.Unrepaired b := by
  unfold close at hq
  split at hq
  · cases hq
  rename_i w hw
  split at hq
  · cases hq
    obtain ⟨r, hr, hreason, hstate, hb⟩ := h
    obtain ⟨r₀, hr₀, rfl⟩ := mem_map.1 hr
    split at hreason
    · next hid =>
      rw [if_pos hid] at hstate hb
      have hrunning : q.stillHolds w → w.cursor ≤ b → b < r₀.stop → q.Unrepaired b := by
        intro hh h₁ h₂
        obtain ⟨hs, hc⟩ := of_decide_eq_true hh r₀ hr₀ hid
        refine ⟨r₀, hr₀, ?_, .inr hs, by omega, h₂⟩
        cases how <;> exact hreason
      cases how with
      | release => exact hrunning (by simpa [mayClose, hw] using hok) hb.1 hb.2
      | fail now => exact hrunning (by simpa [mayClose, hw] using hok) hb.1 hb.2
      | complete => simp [Closing.write] at hstate
      | unrecomputable => simp [Closing.write] at hstate
      | lost => exact ⟨r₀, hr₀, hreason, hstate, hb⟩
    · next hid =>
      rw [if_neg hid] at hstate hb
      exact ⟨r₀, hr₀, hreason, hstate, hb⟩
  · cases hq

end Queue

/-! ## Each transaction keeps the watermark honest -/

namespace Tables

variable {cfg : Config} {s s' : Tables} {op : ServiceOp} {b : Int}

theorem Honest.of (h : s.Honest) (hf : s'.facts = s.facts)
    (hm : ∀ m', s'.materialization = some m' → ∀ t', m'.sealedThrough = some t' →
      ∃ m t, s.materialization = some m ∧ m.sealedThrough = some t ∧ t' ≤ t)
    (hq : ∀ b, s'.queue.Unrepaired b → s.queue.Unrepaired b) : s'.Honest := by
  intro m' hm' t' ht' f hf' hs hlt hu
  obtain ⟨m, t, hm, ht, hle⟩ := hm m' hm' t' ht'
  exact h m hm t ht f (hf ▸ hf') hs (by omega) (hq _ hu)

theorem Honest.of_queue (h : s.Honest) (hf : s'.facts = s.facts)
    (hm : s'.materialization = s.materialization)
    (hq : ∀ b, s'.queue.Unrepaired b → s.queue.Unrepaired b) : s'.Honest :=
  h.of hf (fun m hm' t ht => ⟨m, t, hm ▸ hm', ht, le_rfl⟩) hq

theorem honest_of_le (h : ∀ m, s.materialization = some m → ∀ t, m.sealedThrough = some t →
    ∀ r ∈ s.queue.ranges, r.unfinished → t ≤ r.cursor) : s.Honest := by
  rintro m hm t ht f - - hlt ⟨r, hr, hreason, hstate, hcur, hstop⟩
  have := h m hm t ht r hr (decide_eq_true ⟨hreason, hstate, by omega⟩)
  omega

variable {m : Materialization} {s₁ : Tables} {now start stop : Int}

theorem le_walkStart {t : Int} (h : m.sealedThrough = some t) : t ≤ walkStart m := by
  unfold walkStart
  rw [h]
  exact le_max_right _ _

theorem advanceSealedThrough_le {m' : Materialization} {t : Int}
    (h : s.advanceSealedThrough.materialization = some m') (ht : m'.sealedThrough = some t) :
    ∃ m, s.materialization = some m ∧
      t ≤ s.sealedRun watermarkScanBuckets (walkStart m) := by
  rcases advanceSealedThrough_cases s with he | ⟨m, hm, he⟩
  · rw [he] at h
    exact ⟨m', h, (le_walkStart ht).trans le_sealedRun⟩
  · rw [he] at h
    cases h
    cases ht
    exact ⟨m, hm, le_rfl⟩

theorem isSealed_range {mode : MaterializeMode} {n : Nat}
    (h : RangeSpec s s₁ mode now start n) (hb : s₁.isSealed b) :
    s.isSealed b ∨ InRange start n b := by
  obtain ⟨f, hf, rfl, hs⟩ := isSealed_iff.1 hb
  rcases h.facts f hf with ⟨hf, -⟩ | ⟨hin, -⟩
  · exact .inl (isSealed_iff.2 ⟨f, hf, rfl, hs⟩)
  · exact .inr hin

/-- **A recomputed watermark is honest if its walk stops** before the cursor of every unfinished
range. -/
theorem honest_of_stopped {m₁ : Materialization}
    (hok : ∀ r ∈ s'.queue.ranges, r.unfinished → s.stopped start stop (walkStart m) r.cursor)
    (hsealed : ∀ b, s₁.isSealed b → s.isSealed b ∨ (start ≤ b ∧ b < stop))
    (hm₁ : s₁.materialization = some m₁) (hstart : walkStart m₁ = walkStart m)
    (hmat : s'.materialization = s₁.advanceSealedThrough.materialization) : s'.Honest := by
  refine honest_of_le fun m' hm' t ht r hr hu => ?_
  obtain ⟨m₂, hm₂, hle⟩ := advanceSealedThrough_le (hmat ▸ hm') ht
  obtain rfl : m₁ = m₂ := Option.some.inj (hm₁.symm.trans hm₂)
  rw [hstart] at hle
  obtain ⟨k, -, hk⟩ := any_eq_true.1 (hok r hr hu)
  obtain ⟨hcursor, hopen, hout⟩ := of_decide_eq_true hk
  have hopen₁ : s₁.isSealed (walkStart m + k * canonicalBucket) = false := by
    by_contra hs
    rcases hsealed _ (Bool.eq_true_of_not_eq_false hs) with hold | hin
    · simp [hold] at hopen
    · exact hout hin
  exact hle.trans ((sealedRun_le_of_open hopen₁).trans hcursor)

theorem honest_advance {buckets : Nat} (hok : s.guarded (.advance buckets now))
    (ha : s.advance buckets now = some s') : s'.Honest := by
  have hframe := advance_frame ha
  obtain ⟨m, s₁, hm, hr, rfl⟩ := advance_cases ha
  set m₁ : Materialization :=
    { m with materializedThrough := m.materializedThrough + buckets * canonicalBucket }
  have hm₁ : (s₁.setMaterialization m₁).materialization = some m₁ := rfl
  have hstops := of_decide_eq_true (of_decide_eq_true hok m hm) m hm
  refine honest_of_stopped (by rw [hframe]; exact hstops) (fun b hb => ?_) hm₁ rfl rfl
  exact (isSealed_range (materializeRange_spec hr) hb).imp_right InRange.bounds

theorem exists_brings_of_runBatch {q : Queue} {i size : Nat} {w : Worker} {r : RepairRange}
    (hw : s.queue.workers[i]? = some w) (hq : s.queue.runBatch i size now = some q)
    (hr : r ∈ q.ranges) (hu : r.unfinished) :
    ∃ r₀ ∈ s.queue.ranges.map (w.brings size), r₀.unfinished ∧ r₀.cursor = r.cursor := by
  unfold Queue.runBatch at hq
  rw [hw] at hq
  dsimp only at hq
  split at hq
  · cases hq
    obtain ⟨r₀, hr₀, rfl⟩ := mem_map.1 hr
    refine ⟨_, mem_map_of_mem hr₀, ?_⟩
    unfold Worker.brings
    split
    · next hid =>
      rw [if_pos hid] at hu
      exact ⟨hu, rfl⟩
    · next hid =>
      rw [if_neg hid] at hu
      exact ⟨hu, rfl⟩
  · cases hq

theorem honest_repairBatch (hbase : s.Base) {i size : Nat}
    (hok : s.guarded (.batch i size now)) (ha : s.repairBatch i size now = some s') :
    s'.Honest := by
  obtain ⟨w, q, s₁, hw, hq, hr, rfl⟩ := repairBatch_cases ha
  have hspec := materializeRange_spec hr
  have hgrid := hbase.queue.onGrid.workers w (mem_of_getElem? hw)
  have hstops := of_decide_eq_true (of_decide_eq_true hok w hw)
  cases hm : s.materialization with
  | none =>
    -- a service without a row has no watermark
    intro m' hm'
    have hnone : s₁.materialization = none := by rw [hspec.frame]; exact hm
    rw [advanceSealedThrough] at hm'
    simp [hnone] at hm'
  | some m =>
    have hm₁ : s₁.materialization = some m := by rw [hspec.frame]; exact hm
    have hstopped : ∀ r ∈ q.ranges, r.unfinished →
        s.stopped w.cursor (w.batchEnd size) (walkStart m) r.cursor := by
      intro r hr hu
      obtain ⟨r₀, hr₀, hu₀, hcursor⟩ := exists_brings_of_runBatch hw hq hr hu
      rw [← hcursor]
      exact hstops m hm r₀ hr₀ hu₀
    refine honest_of_stopped hstopped (fun b hb => ?_) hm₁ rfl rfl
    refine (isSealed_range hspec hb).imp_right fun hin => ?_
    exact ((inRange_bucketCount hgrid.2.2).1 hin).2

theorem rewind_sealedThrough (m : Materialization) (t : Int) :
    (rewind m t).sealedThrough = some (min (m.sealedThrough.getD t) t) := by
  unfold rewind
  split
  · next h => simp [h]
  · next st h =>
    split
    · simp [h]
    · next hlt =>
      rw [h, getD_some, min_eq_left (not_lt.1 hlt)]

/-- **A rewind that goes back far enough is honest**: the merged range starts at or after the new
watermark. -/
theorem Honest.invalidate (h : s.Honest) {window : Nat} {monitorID : String}
    (hok : s.rewindsFar start stop)
    (hi : s.invalidate window monitorID start stop now = some s') : s'.Honest := by
  rcases invalidate_cases hi with ⟨q, hq, rfl⟩ | rfl
  · rintro m' hm' t ht f hf hs hlt ⟨r, hr, hreason, hstate, hcur, hstop⟩
    obtain ⟨m, hm, rfl⟩ := map_eq_some_iff.1 hm'
    rw [rewind_sealedThrough] at ht
    cases ht
    obtain ⟨habsorbed, hfirst⟩ := of_decide_eq_true hok m hm
    unfold Queue.enqueue at hq
    split at hq
    · cases hq
    cases hq
    rcases mem_concat.1 hr with hr | rfl
    · have hmem : r ∈ s.queue.ranges := (mem_filter.1 hr).1
      cases hst : m.sealedThrough with
      | none =>
        have := hfirst hst r hmem (decide_eq_true ⟨hreason, hstate, by omega⟩)
        rw [hst] at hlt
        omega
      | some t =>
        rw [hst, getD_some] at hlt
        exact h m hm t hst f hf hs (by omega) ⟨r, hmem, hreason, hstate, hcur, hstop⟩
    · simp only [floorToBucket_of_aligned (floorToBucket_aligned _),
        ceilToBucket_of_aligned (ceilToBucket_aligned _)] at hcur
      rcases mergedStart_mem (s.queue.bumpGeneration.ranges.filter fun r =>
        r.touches .maintenance (floorToBucket start) (ceilToBucket stop))
        (floorToBucket start) with he | ⟨r₀, hr₀, he⟩
      · omega
      · obtain ⟨hmem, ht⟩ := mem_filter.1 hr₀
        rw [he] at hcur
        rcases habsorbed r₀ hmem ht with hle | ⟨t, hst, hle⟩
        · omega
        · rw [mem_def.1 hst, getD_some] at hlt
          omega
  · exact h.of_queue rfl rfl fun b hb => hb

theorem Honest.act (h : s.Honest) (hbase : s.Base) (hok : s.guarded op) (ha : s.act op = some s') :
    s'.Honest := by
  cases op with
  | put w => cases ha
  | bump project now => cases ha
  | ingest hb now =>
    rcases ingest_cases ha with ⟨-, rfl⟩ | ⟨-, q, rfl, ⟨rfl, -⟩ | ⟨-, m, -, -, hq⟩⟩
    · exact h
    · exact h.of_queue rfl rfl fun _ hu => hu
    · exact h.of_queue rfl rfl fun _ hu => hu.of_enqueue (by simp) hq
  | advance buckets now => exact honest_advance hok ha
  | claim id now =>
    obtain ⟨q, hq, rfl⟩ := map_eq_some_iff.1 ha
    exact h.of_queue rfl rfl fun _ hu => hu.of_claim hbase.queue.inv hq
  | batch i size now => exact honest_repairBatch hbase hok ha
  | close i how now =>
    obtain ⟨q, hq, rfl⟩ := map_eq_some_iff.1 ha
    exact h.of_queue rfl rfl fun _ hu => hu.of_close hok hq
  | createWindow w confirmed now =>
    have hw : ({ s with windows := s.windows ++ [w] } : Tables).Honest := h
    exact hw.invalidate hok (createWindow_cases ha)
  | annulWindow id confirmed now =>
    obtain ⟨w, hw, hi⟩ := annulWindow_cases ha
    have hh : ({ s with windows := s.windows.filter fun w => w.id ≠ id } : Tables).Honest := h
    have hfar : s.rewindsFar w.startsAt w.effectiveEnd := by
      simpa only [guarded, hw, all_some] using hok
    exact hh.invalidate hfar hi
  | archiveWindow id now =>
    rw [archiveWindow_cases ha]
    exact h.of_queue rfl rfl fun _ hu => hu
  | enqueueAdmin start stop now =>
    obtain ⟨q, hq, rfl⟩ := map_eq_some_iff.1 ha
    exact h.of_queue rfl rfl fun _ hu => hu.of_enqueue (by simp) hq

theorem Honest.step (h : s.Honest) (hbase : s.Base) (hok : s.guarded op)
    (hs : s.step cfg op = some s') : s'.Honest := by
  obtain ⟨hnow, ⟨w, r, rfl, hp, rfl⟩ | ⟨project, r, -, hb, rfl⟩ | hact⟩ := step_cases hs
  · refine h.of rfl ?_ fun _ hu => hu.of_cancel
    exact fun m hm t ht => ⟨m, t, trackDeclaration_sealedThrough hm ht, ht, le_rfl⟩
  · exact h.of_queue rfl rfl fun _ hu => hu.of_cancel
  · refine Honest.act (s := s.tick op.now) h (hbase.tick hnow) ?_ hact
    cases op <;> exact hok

end Tables

/-- **The watermark stays behind unrepaired maintenance** in every run in which something unsealed
stops every walk before the cursor of each unfinished maintenance range, mutations rewind far
enough, and workers put back only ranges they still hold. -/
theorem honest_of_guarded (cfg : Config) (clock : Int) (monitors : List String) (s : Tables)
    (h : Reach (Tables.step cfg) (fun s op => s.guarded op) (.empty clock monitors) s) :
    s.Honest := by
  refine Reach.invariant' (I := Tables.Honest) ?_ ?_ h
  · intro m hm
    cases hm
  · exact fun s op s' hr hh hok hs => hh.step (Tables.base_of_reach hr) hok hs

/-- Minutes 100 to 110 are sealed, and a window over minutes 103 to 105 is declared for them. -/
def windowOverSealed : List ServiceOp :=
  [.put (declareWeb ["web"] 0 0 (100 * minute)), .advance 11 (120 * minute),
    .createWindow ⟨7, "web", 103 * minute, 106 * minute, none, false⟩ true (121 * minute)]

/-- The range is repaired in one batch before the next slice. -/
def repairedFirst : List ServiceOp :=
  windowOverSealed ++ [.claim 1 (121 * minute), .batch 0 10 (121 * minute),
      .close 0 .complete (121 * minute), .advance 1 (122 * minute)]

theorem honest_repairedFirst : (webService repairedFirst).Honest ∧
      (webService repairedFirst).materialization.map sealedThrough = some (some (112 * minute)) :=
  ⟨honest_of_guarded plainConfig 0 ["web"] _ (reach_of_allowedRun (by decide)), by decide⟩

/-- After a forward slice the watermark is back at minute 112, while minute 103, sealed under the
retracted declaration, waits for its repair. -/
theorem recrossed_not_honest :
    ∃ s, Reach (Tables.step plainConfig) anyStep (.empty 0 ["web"]) s ∧ ¬ s.Honest ∧
      s.materialization.map sealedThrough = some (some (112 * minute)) ∧
      ∃ f ∈ s.facts, f.bucketStart = 103 * minute ∧ f.state = .sealed ∧
        s.recomputed (103 * minute) ≠ some f.content := by
  set s := webService (windowOverSealed ++ [.advance 1 (122 * minute)])
  have hwater : s.materialization.map sealedThrough = some (some (112 * minute)) := by decide
  have hstale : ∃ f ∈ s.facts, f.bucketStart = 103 * minute ∧ f.state = .sealed ∧
      s.recomputed (103 * minute) ≠ some f.content := by decide
  have hwaits : s.queue.Unrepaired (103 * minute) := by
    unfold Queue.Unrepaired
    decide
  refine ⟨s, webService_reach _, fun h => ?_, hwater, hstale⟩
  obtain ⟨m, hm, ht⟩ := map_eq_some_iff.1 hwater
  obtain ⟨f, hf, hb, hs, -⟩ := hstale
  exact h m hm _ ht f hf hs (by rw [hb]; decide) (hb ▸ hwaits)

end Cerbix.Service
