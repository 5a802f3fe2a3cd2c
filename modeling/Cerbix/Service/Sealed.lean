import Cerbix.Service.Evidence

/-!
# Sealed facts and the evidence behind them

A sealed fact should be what the reducer gives from the heartbeats stored now, or lie in a range
still to be repaired (`SealedCurrent`). Ingest routes a late heartbeat by the revision in force at
its own bucket, but it is also evidence of later buckets, whose revisions may declare its monitor
when its own does not (`lateCarryIn_not_current`). That is the only way to get there:
`sealed_current_of_routed`.
-/

namespace Cerbix.Service

open Cerbix.Lib Cerbix.Domain Cerbix.Reliability List Option Declarations Go QueueEvent

/-! ## Requests nobody has answered -/

namespace Queue

variable {q q' : Queue} {b : Int} {op : QueueOp}

/-- The bucket was asked for without an origin, and has not been recomputed since. -/
def Pending (q : Queue) (b : Int) : Prop :=
  ∃ i, q.Requested i b none ∧ ¬ After q.log i (Recomputes b)

theorem Pending.covers (hi : q.Inv) (h : q.Pending b) : q.Covers b := by
  obtain ⟨i, hreq, hre⟩ := h
  rcases hi.covers hreq with h | ⟨j, e, -, -, hc⟩ | h
  · exact absurd h hre
  · cases e <;> simp [Cancels] at hc
  · exact h

theorem Pending.append (h : q.Pending b) {more : List QueueEvent} (hlog : q'.log = q.log ++ more)
    (hmore : ∀ e ∈ more, ¬ e.Recomputes b) : q'.Pending b := by
  obtain ⟨i, ⟨start, stop, hi, hb⟩, hre⟩ := h
  refine ⟨i, ⟨start, stop, ?_, hb⟩, fun ha => ?_⟩
  · rw [hlog, List.getElem?_append_left (List.getElem?_eq_some_iff.1 hi).1, hi]
  · rw [hlog] at ha
    rcases ha.of_append with ha | ⟨e, he, hP⟩
    · exact hre ha
    · exact hmore e he hP

variable {now : Int}

theorem Pending.of_enqueue {start stop : Int} {reason : RepairReason}
    (hq : q.enqueue start stop reason none now = some q') (h₁ : floorToBucket start ≤ b)
    (h₂ : b < ceilToBucket stop) : q'.Pending b := by
  unfold enqueue at hq
  split at hq
  · cases hq
  cases hq
  refine ⟨q.log.length, ⟨_, _, List.getElem?_concat_length, h₁, h₂⟩, ?_⟩
  rintro ⟨j, e, hj, he, -⟩
  have hlt := (List.getElem?_eq_some_iff.1 he).1
  rw [absorb, length_append, length_singleton] at hlt
  omega

theorem log_step (hq : q.step op = some q') (hop : ∀ i size now, op ≠ .batch i size now) :
    ∃ more, q'.log = q.log ++ more ∧ ∀ e ∈ more, ∀ b, ¬ Recomputes b e := by
  cases op with
  | enqueue start stop reason origin now =>
    simp only [step, enqueue] at hq
    split at hq
    · cases hq
    · cases hq
      exact ⟨_, rfl, by simp [Recomputes]⟩
  | claim id now =>
    simp only [step, claim] at hq
    split at hq
    · cases hq
    · cases hq
      exact ⟨[], (append_nil _).symm, by simp⟩
  | batch i size now => exact absurd rfl (hop i size now)
  | close i how =>
    simp only [step, close] at hq
    split at hq
    · cases hq
    split at hq
    · cases hq
      exact ⟨[], (append_nil _).symm, by simp⟩
    · cases hq
  | cancel origins =>
    cases hq
    exact ⟨_, rfl, by simp [Recomputes]⟩
  | bump =>
    cases hq
    exact ⟨[], (append_nil _).symm, by simp⟩

theorem Pending.step (h : q.Pending b) (hq : q.step op = some q')
    (hop : ∀ i size now, op ≠ .batch i size now) : q'.Pending b := by
  obtain ⟨more, hlog, hmore⟩ := log_step hq hop
  exact h.append hlog fun e he => hmore e he b

theorem runBatch_log {i size : Nat} {w : Worker} (hw : q.workers[i]? = some w)
    (hq : q.runBatch i size now = some q') :
    q'.log = q.log ++ [.recomputed w.cursor (min (w.cursor + size * canonicalBucket) w.stop)] := by
  unfold runBatch at hq
  rw [hw] at hq
  simp only at hq
  split at hq
  · cases hq
    rfl
  · cases hq

theorem Holds.mono {R R' : Int → Int → Int → Prop} (h : q.Holds R)
    (hR : ∀ a b c, R a b c → R' a b c) : q.Holds R' :=
  ⟨fun r hr => hR _ _ _ (h.ranges r hr), fun w hw => hR _ _ _ (h.workers w hw)⟩

end Queue

/-! ## Nothing lies ahead of the cursor -/

/-- Declarations, heartbeats, the forward driver and the repair worker; no maintenance mutation and
no operator's range. -/
def ServiceOp.measures : ServiceOp → Bool
  | .put _ | .bump _ _ | .ingest _ _ | .advance _ _ | .claim _ _ | .batch _ _ _
  | .close _ _ _ => true
  | .createWindow _ _ _ | .annulWindow _ _ _ | .archiveWindow _ _ | .enqueueAdmin _ _ _ => false

def EndsBy (row : Option Materialization) (_ stop _ : Int) : Prop :=
  ∃ m, row = some m ∧ stop ≤ m.materializedThrough

theorem endsBy_rule (row : Option Materialization) : RangeRule (EndsBy row) where
  claim h := h
  batch _ h := h
  merge := by
    rintro start stop absorbed h hall
    obtain ⟨m, hm, hle⟩ := h
    refine ⟨m, hm, ?_⟩
    rcases mergedStop_mem absorbed stop with he | ⟨r, hr, he⟩
    · omega
    · obtain ⟨m', hm', hle'⟩ := hall r hr
      obtain rfl : m = m' := some.inj (hm.symm.trans hm')
      omega

namespace Tables

variable {cfg : Config} {s s' : Tables} {op : ServiceOp} {b t start stop : Int}

theorem sealedRun_aligned (n : Nat) (ht : Aligned t) : Aligned (s.sealedRun n t) := by
  induction n generalizing t with
  | zero => exact ht
  | succ n ih =>
    rw [sealedRun]
    split
    · refine ih ?_
      simpa using ht.add 1
    · exact ht

variable {limit : Int} {row : Option Materialization} {q : Queue} {m : Materialization}

theorem sealedRun_le (hl : Aligned limit) (h : ∀ b, s.isSealed b → b < limit) (n : Nat)
    (ht : Aligned t) (hle : t ≤ limit) : s.sealedRun n t ≤ limit := by
  induction n generalizing t with
  | zero => exact hle
  | succ n ih =>
    rw [sealedRun]
    split
    · next hs =>
      refine ih ?_ (ht.add_le_of_lt hl (h t hs))
      simpa using ht.add 1
    · exact hle

/-- Facts, ranges and the watermark stay behind the cursor. -/
structure Bounds (s : Tables) : Prop where
  facts : ∀ f ∈ s.facts, ∃ m, s.materialization = some m ∧ f.bucketStart < m.materializedThrough
  ranges : s.queue.Holds (EndsBy s.materialization)
  watermark : ∀ m, s.materialization = some m → ∀ t, m.sealedThrough = some t →
    Aligned t ∧ t ≤ m.materializedThrough

/-- The row was there before, and its cursor has not moved back. -/
def Grows (row row' : Option Materialization) : Prop :=
  ∀ m, row = some m → ∃ m', row' = some m' ∧ m.materializedThrough ≤ m'.materializedThrough

theorem Grows.endsBy {row' : Option Materialization} (h : Grows row row') {a b c : Int}
    (he : EndsBy row a b c) : EndsBy row' a b c := by
  obtain ⟨m, hm, hle⟩ := he
  obtain ⟨m', hm', hle'⟩ := h m hm
  exact ⟨m', hm', hle.trans hle'⟩

theorem Bounds.grow (h : s.Bounds) (row : Option Materialization) (hg : Grows s.materialization row)
    (hw : ∀ m, row = some m → ∀ t, m.sealedThrough = some t →
      Aligned t ∧ t ≤ m.materializedThrough) : { s with materialization := row }.Bounds where
  facts f hf := by
    obtain ⟨m, hm, hlt⟩ := h.facts f hf
    obtain ⟨m', hm', hle⟩ := hg m hm
    exact ⟨m', hm', lt_of_lt_of_le hlt hle⟩
  ranges := h.ranges.mono fun _ _ _ => hg.endsBy
  watermark := hw

theorem Bounds.setQueue (h : s.Bounds) (hq : q.Holds (EndsBy s.materialization)) :
    (s.setQueue q).Bounds :=
  ⟨h.facts, hq, h.watermark⟩

theorem Bounds.queueStep (h : s.Bounds) (hb : s.Base) (qop : QueueOp)
    (hq : s.queue.step qop = some q)
    (hop : ∀ start stop reason origin now, qop ≠ .enqueue start stop reason origin now) :
    (s.setQueue q).Bounds := by
  refine h.setQueue (h.ranges.step (endsBy_rule _) hb.queue.inv ?_ hq)
  exact fun start stop reason origin now he => absurd he (hop _ _ _ _ _)

theorem walkStart_le (hm : m.Ok)
    (hw : ∀ t, m.sealedThrough = some t → Aligned t ∧ t ≤ m.materializedThrough) :
    Aligned (walkStart m) ∧ walkStart m ≤ m.materializedThrough := by
  unfold walkStart
  split
  · next t ht =>
    obtain ⟨hal, hle⟩ := hw t ht
    refine ⟨?_, max_le hm.le hle⟩
    rcases max_choice m.eraStart t with he | he <;> rw [he]
    · exact hm.era
    · exact hal
  · exact ⟨hm.era, hm.le⟩

theorem Bounds.advanceSealedThrough (h : s.Bounds) (hrow : ∀ m, s.materialization = some m → m.Ok) :
    s.advanceSealedThrough.Bounds := by
  rcases advanceSealedThrough_cases s with he | ⟨m, hm, he⟩
  · rw [he]
    exact h
  · rw [he]
    have hok := hrow m hm
    obtain ⟨hal, hle⟩ := walkStart_le hok (h.watermark m hm)
    have hsealed : ∀ b, s.isSealed b → b < m.materializedThrough := by
      intro b hb
      obtain ⟨f, hf, rfl, -⟩ := isSealed_iff.1 hb
      obtain ⟨m', hm', hlt⟩ := h.facts f hf
      obtain rfl : m = m' := some.inj (hm.symm.trans hm')
      exact hlt
    refine h.grow _ ?_ ?_
    · intro m' hm'
      obtain rfl : m = m' := some.inj (hm.symm.trans hm')
      exact ⟨_, rfl, le_rfl⟩
    · intro m' hm' t ht
      cases hm'
      cases ht
      exact ⟨sealedRun_aligned _ hal, sealedRun_le hok.cursor hsealed _ hal hle⟩

variable {now : Int}

theorem Bounds.range (h : s.Bounds) {mode : MaterializeMode} {n : Nat}
    (hspec : RangeSpec s s' mode now start n) (hg : Grows s.materialization row)
    (hw : ∀ m, row = some m → ∀ t, m.sealedThrough = some t → Aligned t ∧ t ≤ m.materializedThrough)
    (hin : ∀ b, InRange start n b → ∃ m, row = some m ∧ b < m.materializedThrough) :
    { s' with materialization := row }.Bounds := by
  have hgrown := h.grow row hg hw
  refine ⟨fun f hf => ?_, ?_, hw⟩
  · rcases hspec.facts f hf with ⟨hf, -⟩ | ⟨hf, -⟩
    · exact hgrown.facts f hf
    · exact hin _ hf
  · show s'.queue.Holds _
    rw [hspec.frame]
    exact hgrown.ranges

theorem trackDeclaration_grows (d : Declarations) (r : Declared)
    (row : Option Materialization) : Grows row (trackDeclaration d r row) := by
  rintro m rfl
  unfold trackDeclaration
  split
  · exact ⟨m, rfl, le_rfl⟩
  · split
    · exact ⟨_, rfl, le_max_left _ _⟩
    · exact ⟨m, rfl, le_rfl⟩

theorem Bounds.put (h : s.Bounds) (hb : s.Base) (r : Declared) : { s with
      decls := r.decls
      materialization := trackDeclaration s.decls r s.materialization
      queue := s.queue.cancelRangesOfOrigin r.displaced }.Bounds := by
  have hcancel := h.queueStep hb (.cancel r.displaced) rfl (by simp)
  have hrow := hcancel.grow (trackDeclaration s.decls r s.materialization)
    (trackDeclaration_grows _ _ _) fun m hm t ht =>
      h.watermark m (trackDeclaration_sealedThrough hm ht) t ht
  exact ⟨hrow.facts, hrow.ranges, hrow.watermark⟩

theorem frontier_eq (hw : ∀ t, m.sealedThrough = some t → Aligned t ∧ t ≤ m.materializedThrough) :
    frontier m = m.materializedThrough := by
  unfold frontier
  split
  · next t ht => exact max_eq_right (hw t ht).2
  · rfl

theorem lateObservationReachEnd_le {heartbeats : List Observation} {id : String} {ts : Int}
    (hl : Aligned limit) :
    ceilToBucket (lateObservationReachEnd heartbeats id ts limit) ≤ limit := by
  unfold lateObservationReachEnd
  split
  · rw [ceilToBucket_of_aligned hl]
  rename_i next hnext
  obtain ⟨hmem, -⟩ := List.min?_eq_some_iff.1 hnext
  obtain ⟨o, ho, rfl⟩ := mem_map.1 hmem
  rw [mem_filter, decide_eq_true_eq] at ho
  rw [ceilToBucket_of_aligned (ceilToBucket_aligned _), ← ceilToBucket_of_aligned hl]
  exact ceilToBucket_mono ho.2.2.2.le

theorem Bounds.ingest (h : s.Bounds) (hbase : s.Base) {hb : Observation}
    (hi : s.ingest hb now = some s') : s'.Bounds := by
  rcases ingest_cases hi with ⟨-, rfl⟩ | ⟨-, q, rfl, ⟨rfl, -⟩ | ⟨-, m, hm, -, hq⟩⟩
  · exact h
  · exact ⟨h.facts, h.ranges, h.watermark⟩
  have hstep : s.queue.step (.enqueue _ _ .lateData none now) = some q := hq
  refine ⟨h.facts, h.ranges.step (endsBy_rule _) hbase.queue.inv ?_ hstep, h.watermark⟩
  intro start stop reason origin now he
  cases he
  refine ⟨m, hm, ?_⟩
  rw [frontier_eq (h.watermark m hm)]
  exact lateObservationReachEnd_le (hbase.row m hm).cursor

theorem Bounds.advance (h : s.Bounds) (hbase : s.Base) {buckets : Nat}
    (ha : s.advance buckets now = some s') : s'.Bounds := by
  obtain ⟨m, s₁, hm, hr, rfl⟩ := advance_cases ha
  have hok := hbase.row m hm
  have hnonneg := Int.mul_nonneg (Int.natCast_nonneg buckets) canonicalBucket_pos.le
  refine Bounds.advanceSealedThrough (h.range (materializeRange_spec hr) ?_ ?_ ?_) ?_
  · intro m' hm'
    obtain rfl : m = m' := some.inj (hm.symm.trans hm')
    exact ⟨_, rfl, by simp only; omega⟩
  · intro m' hm' t ht
    cases hm'
    obtain ⟨hal, hle⟩ := h.watermark m hm t ht
    exact ⟨hal, by simp only; omega⟩
  · exact fun b hin => ⟨_, rfl, hin.bounds.2⟩
  · intro m' hm'
    cases hm'
    exact ⟨hok.cursor.add buckets, hok.era, by have := hok.le; simp only; omega⟩

theorem Bounds.repairBatch (h : s.Bounds) (hbase : s.Base) {i size : Nat}
    (ha : s.repairBatch i size now = some s') : s'.Bounds := by
  obtain ⟨w, q, s₁, hw, hq, hr, rfl⟩ := repairBatch_cases ha
  have hmem := mem_of_getElem? hw
  have hspec := materializeRange_spec hr
  have hgrid := hbase.queue.onGrid.workers w hmem
  obtain ⟨m, hm, hstop⟩ := h.ranges.workers w hmem
  have hs₁ : s₁.Bounds := by
    have hrange := h.range hspec (fun m' hm' => ⟨m', hm', le_rfl⟩) h.watermark ?_
    · rw [hspec.frame] at hrange ⊢
      exact hrange
    · intro b hin
      obtain ⟨-, -, hlt⟩ := (inRange_bucketCount hgrid.2.2).1 hin
      exact ⟨m, hm, by omega⟩
  have hmat : s₁.materialization = s.materialization := by rw [hspec.frame]
  have hadv := hs₁.advanceSealedThrough (hmat ▸ hbase.row)
  have hstep : s.queue.step (.batch i size now) = some q := hq
  have hholds := h.ranges.step (endsBy_rule _) hbase.queue.inv (by simp) hstep
  refine ⟨hadv.facts, ?_, hadv.watermark⟩
  have hgrow : Grows s₁.materialization s₁.advanceSealedThrough.materialization := by
    intro m' hm'
    obtain ⟨m'', hm'', he⟩ := advanceSealedThrough_through hm'
    exact ⟨m'', hm'', he.ge⟩
  exact hholds.mono fun _ _ _ he => hgrow.endsBy (hmat ▸ he)

theorem Bounds.act (h : s.Bounds) (hbase : s.Base) (hok : op.measures) (ha : s.act op = some s') :
    s'.Bounds := by
  cases op with
  | put w => cases ha
  | bump project now => cases ha
  | ingest hb now => exact h.ingest hbase ha
  | advance buckets now => exact h.advance hbase ha
  | batch i size now => exact h.repairBatch hbase ha
  | claim id now =>
    obtain ⟨q, hq, rfl⟩ := map_eq_some_iff.1 ha
    exact h.queueStep hbase (.claim id now) hq (by simp)
  | close i how now =>
    obtain ⟨q, hq, rfl⟩ := map_eq_some_iff.1 ha
    exact h.queueStep hbase (.close i how) hq (by simp)
  | createWindow w confirmed now => cases hok
  | annulWindow id confirmed now => cases hok
  | archiveWindow id now => cases hok
  | enqueueAdmin start stop now => cases hok

theorem Bounds.step (h : s.Bounds) (hbase : s.Base) (hok : op.measures)
    (hs : s.step cfg op = some s') : s'.Bounds := by
  obtain ⟨hnow, ⟨w, r, rfl, hp, rfl⟩ | ⟨project, r, -, hb, rfl⟩ | hact⟩ := step_cases hs
  · exact h.put hbase r
  · have hq := h.queueStep hbase (.cancel r.2) rfl (by simp)
    exact ⟨hq.facts, hq.ranges, hq.watermark⟩
  · have htick : (s.tick op.now).Bounds := ⟨h.facts, h.ranges, h.watermark⟩
    exact htick.act (hbase.tick hnow) hok hact

theorem bounds_of_reach {ok : Tables → ServiceOp → Prop} (hok : ∀ s op, ok s op → op.measures)
    {clock : Int} {monitors : List String}
    (h : Reach (Tables.step cfg) ok (empty clock monitors) s) : s.Bounds := by
  refine Reach.invariant' (I := Bounds) ?_ ?_ h
  · exact ⟨by simp [empty], Queue.empty_holds, by simp [empty]⟩
  · exact fun s op s' hr hb ho hs => hb.step (base_of_reach hr) (hok s op ho) hs

end Tables

/-! ## Sealed facts are accounted for -/

/-- A sealed fact lies in the past, under an epoch with members, and is what the reducer gives or
somebody was asked to recompute it. -/
structure Tables.Accounts (s : Tables) (f : Fact) : Prop where
  past : f.bucketStart < s.decls.clock
  measured : ¬ s.Unmeasured f.bucketStart
  current : s.recomputed f.bucketStart = some f.content ∨ s.queue.Pending f.bucketStart

def Tables.Accounted (s : Tables) : Prop := ∀ f ∈ s.facts, f.state = .sealed → s.Accounts f

namespace Tables

variable {cfg : Config} {s s' : Tables} {op : ServiceOp} {f : Fact}

theorem Accounts.of (h : s.Accounts f) (hclock : s.decls.clock ≤ s'.decls.clock)
    (he : s'.evaluationAt f.bucketStart = s.evaluationAt f.bucketStart)
    (hh : s'.heartbeats = s.heartbeats) (hw : s'.windows = s.windows)
    (hq : s.queue.Pending f.bucketStart → s'.queue.Pending f.bucketStart) : s'.Accounts f where
  past := lt_of_lt_of_le h.past hclock
  measured := fun hu => h.measured ((unmeasured_congr he).1 hu)
  current := by
    rw [recomputed_congr he hh hw]
    exact h.current.imp_right hq

variable {now : Int} {w : DeclarationWrite}

theorem Accounts.tick (h : s.Accounts f) (hnow : s.decls.clock ≤ now) : (s.tick now).Accounts f :=
  h.of hnow rfl rfl rfl id

theorem Accounts.currentRevision_ne_zero (h : s.Accounts f) (hi : s.decls.Inv) :
    s.decls.currentRevision ≠ 0 := by
  intro hc
  refine h.measured fun e p hep => ?_
  have hmem := (governs_of_inForce (evaluationAt_eq_some.1 hep).1).mem
  simp [hi.effectiveEpochs_eq_nil hc] at hmem

theorem Accounts.lt_boundary (h : s.Accounts f) (hi : s.decls.Inv) {b : Int}
    (hnow : s.decls.clock ≤ w.now) (hb : s.decls.boundaryOf w = .ok b) : f.bucketStart < b := by
  rcases boundaryOf_cases hb with ⟨rfl, -⟩ | ⟨hc, -⟩
  · exact lt_of_lt_of_le h.past (hnow.trans (le_ceilToBucket _))
  · exact absurd hc (h.currentRevision_ne_zero hi)

theorem Accounted.put (h : s.Accounted) (hi : s.decls.Inv)
    {r : Declared} (hnow : s.decls.clock ≤ w.now) (hput : s.decls.put cfg w = .ok r)
    (row : Option Materialization) : { s with
      decls := r.decls
      materialization := row
      queue := s.queue.cancelRangesOfOrigin r.displaced }.Accounted := by
  intro f hf hs
  have hacc := h f hf hs
  have hspec := put_spec hput
  refine hacc.of ?_ ?_ rfl rfl ?_
  · obtain ⟨_, _, -, hd⟩ := hspec.decls
    rw [hd]
    exact hnow
  · exact evaluationAt_put_of_lt hi hput rfl (hacc.lt_boundary hi hnow hspec.boundary)
  · have hstep : s.queue.step (.cancel r.displaced) = some _ := rfl
    exact fun hp => hp.step hstep (by simp)

theorem Accounted.bump (h : s.Accounted) (hi : s.decls.Inv) {project : List Monitor}
    {r : Declarations × List Origin} (hnow : s.decls.clock ≤ now)
    (hbump : s.decls.bump cfg project now = .ok r) :
    { s with decls := r.1, queue := s.queue.cancelRangesOfOrigin r.2 }.Accounted := by
  intro f hf hs
  have hacc := h f hf hs
  have hlt := lt_of_lt_of_le hacc.past (hnow.trans (le_ceilToBucket now))
  refine hacc.of ?_ (evaluationAt_bump_of_lt hi hbump rfl hlt) rfl rfl ?_
  · rcases bump_cases hbump with ⟨hd, -⟩ | ⟨_, _, -, -, hd, -⟩ <;> rw [hd] <;>
      exact hnow
  · have hstep : s.queue.step (.cancel r.2) = some _ := rfl
    exact fun hp => hp.step hstep (by simp)

/-- **The facts a range leaves are accounted for**: those it wrote are current, and those it passed
over are what they were. -/
theorem Accounted.range (h : s.Accounted) {mode : MaterializeMode} {start : Int} {n : Nat}
    {s₁ : Tables} (hspec : RangeSpec s s₁ mode s.decls.clock start n)
    (hd : s'.decls = s.decls) (hh : s'.heartbeats = s.heartbeats) (hw : s'.windows = s.windows)
    (hfacts : s'.facts = s₁.facts)
    (hq : ∀ f ∈ s.facts, (mode = .recompute → ¬ InRange start n f.bucketStart) →
      s.queue.Pending f.bucketStart → s'.queue.Pending f.bucketStart) : s'.Accounted := by
  intro f hf hs
  have heval : s'.evaluationAt f.bucketStart = s.evaluationAt f.bucketStart := by
    unfold evaluationAt
    rw [hd]
  rcases hspec.facts f (hfacts ▸ hf) with ⟨hf, hskip⟩ | ⟨-, hw'⟩
  · have hacc := h f hf hs
    refine hacc.of (by rw [hd]) heval hh hw (hq f hf fun hmode hin => ?_)
    rcases hskip hin with ⟨-, ho⟩ | hu
    · rw [hmode] at ho
      cases ho
    · exact hacc.measured hu
  · have hpast : f.bucketStart < s.decls.clock := by
      rcases hw'.state.1 hs with hle | hsealed
      · have := canonicalBucket_pos
        have : 0 < lateArrivalGrace := by decide
        omega
      · obtain ⟨g, hg, hgb, hgs⟩ := isSealed_iff.1 hsealed
        have := (h g hg hgs).past
        omega
    refine ⟨by rw [hd]; exact hpast, fun hu => hw'.measured ((unmeasured_congr heval).1 hu), ?_⟩
    rw [recomputed_congr heval hh hw]
    exact .inl hw'.content

theorem Accounted.advance (h : s.Accounted) {buckets : Nat}
    (ha : s.advance buckets s.decls.clock = some s') : s'.Accounted := by
  have hframe := advance_frame ha
  obtain ⟨m, s₁, -, hr, rfl⟩ := advance_cases ha
  refine h.range (materializeRange_spec hr) ?_ ?_ ?_ (advanceSealedThrough_facts _)
    fun f _ _ hp => ?_
  all_goals rw [hframe]
  exact hp

theorem Accounted.repairBatch (h : s.Accounted) (hbase : s.Base) {i size : Nat}
    (ha : s.repairBatch i size s.decls.clock = some s') : s'.Accounted := by
  have hframe := repairBatch_frame ha
  obtain ⟨w, q, s₁, hw, hq, hr, rfl⟩ := repairBatch_cases ha
  have hgrid := hbase.queue.onGrid.workers w (mem_of_getElem? hw)
  refine h.range (materializeRange_spec hr) ?_ ?_ ?_ (advanceSealedThrough_facts _)
    fun f hf hout hp => hp.append (Queue.runBatch_log hw hq) ?_
  · rw [hframe]
  · rw [hframe]
  · rw [hframe]
  · intro e he hre
    rw [mem_singleton] at he
    subst he
    exact hout rfl ((inRange_bucketCount hgrid.2.2).2 ⟨hbase.buckets f hf, hre⟩)

end Tables

/-! ## Routing -/

/-- A heartbeat that feeds a sealed bucket is noted for the service. -/
def Tables.routesEvidence (s : Tables) (hb : Observation) : Bool :=
  ∀ f ∈ s.facts, f.state = .sealed → s.feeds hb f.bucketStart → s.routes hb

/-- A measuring transaction, and a new heartbeat among them is routed to the sealed buckets it
feeds. -/
def Tables.routed (s : Tables) : ServiceOp → Bool
  | .ingest hb _ => s.isDuplicate hb || s.routesEvidence hb
  | op => op.measures

namespace Tables

variable {cfg : Config} {s s' : Tables} {op : ServiceOp} {f : Fact} {hb : Observation}

theorem reach_of_feeds {heartbeats : List Observation} {b limit : Int}
    (hal : Aligned b) (hfeeds : Feeds heartbeats hb b (b + canonicalBucket)) (hlt : b < limit) :
    floorToBucket hb.ts ≤ b ∧
      b < lateObservationReachEnd (heartbeats ++ [hb]) hb.monitorID hb.ts limit := by
  obtain ⟨hstop, hnext⟩ := hfeeds
  constructor
  · by_contra hgt
    have := hal.add_le_of_lt (floorToBucket_aligned hb.ts) (not_le.1 hgt)
    have := floorToBucket_le hb.ts
    omega
  · unfold lateObservationReachEnd
    split
    · exact hlt
    rename_i next hn
    -- the next heartbeat is a stored one, and the bucket comes before it
    obtain ⟨hmem, -⟩ := List.min?_eq_some_iff.1 hn
    obtain ⟨o, ho, rfl⟩ := mem_map.1 hmem
    rw [mem_filter, decide_eq_true_eq] at ho
    obtain ⟨ho, hid, hts, -⟩ := ho
    rcases mem_concat.1 ho with ho | rfl
    · exact lt_of_lt_of_le (hnext o ho hid hts) (le_ceilToBucket _)
    · omega

variable {now : Int}

theorem pending_of_feeds (hbase : s.Base) (hbounds : s.Bounds)
    {m : Materialization} {q : Queue} (hm : s.materialization = some m)
    (hq : s.queue.enqueue (floorToBucket hb.ts)
      (lateObservationReachEnd (s.heartbeats ++ [hb]) hb.monitorID hb.ts (frontier m))
      .lateData none now = some q)
    (hf : f ∈ s.facts) (hfeeds : s.feeds hb f.bucketStart) : q.Pending f.bucketStart := by
  simp only [feeds, decide_eq_true_eq] at hfeeds
  obtain ⟨m', hm', hcur⟩ := hbounds.facts f hf
  obtain rfl : m = m' := some.inj (hm.symm.trans hm')
  obtain ⟨hle, hlt⟩ := reach_of_feeds (hbase.buckets f hf) hfeeds.2
    (lt_of_lt_of_le hcur (frontier_eq (hbounds.watermark m hm)).ge)
  refine Queue.Pending.of_enqueue hq ?_ (lt_of_lt_of_le hlt (le_ceilToBucket _))
  rw [floorToBucket_of_aligned (floorToBucket_aligned _)]
  exact hle

theorem not_feeds_of_frontier_le (hbase : s.Base) (hbounds : s.Bounds)
    (hle : ∀ m, s.materialization = some m → frontier m ≤ floorToBucket hb.ts) (hf : f ∈ s.facts) :
    ¬ s.feeds hb f.bucketStart := by
  intro hfeeds
  simp only [feeds, decide_eq_true_eq] at hfeeds
  obtain ⟨m, hm, hcur⟩ := hbounds.facts f hf
  have hfront := hle m hm
  rw [frontier_eq (hbounds.watermark m hm)] at hfront
  have := (hbase.buckets f hf).add_le_of_lt (floorToBucket_aligned hb.ts) (by omega)
  have := floorToBucket_le hb.ts
  have := hfeeds.2.1
  omega

theorem Accounted.ingest (h : s.Accounted) (hbase : s.Base) (hbounds : s.Bounds)
    (hok : s.routed (.ingest hb now)) (hi : s.ingest hb now = some s') : s'.Accounted := by
  rcases ingest_cases hi with ⟨-, rfl⟩ | ⟨hnd, q, rfl, hcase⟩
  · exact h
  have hroute : ∀ f ∈ s.facts, f.state = .sealed → s.feeds hb f.bucketStart → s.routes hb := by
    simpa [routed, hnd, routesEvidence] using hok
  intro f hf hs
  have hacc := h f hf hs
  have hpend : s.queue.Pending f.bucketStart → q.Pending f.bucketStart := by
    rcases hcase with ⟨rfl, -⟩ | ⟨-, m, -, -, hq⟩
    · exact id
    · have hstep : s.queue.step (.enqueue _ _ .lateData none now) = some q := hq
      exact fun hp => hp.step hstep (by simp)
  refine ⟨hacc.past, hacc.measured, ?_⟩
  by_cases hfeeds : s.feeds hb f.bucketStart
  · rcases hcase with ⟨-, hfront⟩ | ⟨-, m, hm, -, hq⟩
    · have hle := hfront (hroute f hf hs hfeeds)
      exact absurd hfeeds (not_feeds_of_frontier_le hbase hbounds hle hf)
    · exact .inr (pending_of_feeds hbase hbounds hm hq hf hfeeds)
  · have hsame := recomputed_append (unique_append hbase.heartbeats hnd) hfeeds
    exact hacc.current.imp (fun hc => hsame.trans hc) hpend

theorem measures_of_routed (h : s.routed op) : op.measures := by
  cases op <;> first | rfl | exact h

theorem Accounted.act (h : s.Accounted) (hbase : s.Base) (hbounds : s.Bounds) (hok : s.routed op)
    (hnow : op.now = s.decls.clock) (ha : s.act op = some s') : s'.Accounted := by
  -- the queue alone moves, and no batch runs
  have hqueue : ∀ qop q, s.queue.step qop = some q → (∀ i size now, qop ≠ .batch i size now) →
      (s.setQueue q).Accounted := by
    intro qop q hq hb f hf hs
    exact (h f hf hs).of le_rfl rfl rfl rfl fun hp => hp.step hq hb
  cases op with
  | put w => cases ha
  | bump project now => cases ha
  | ingest hb now => exact h.ingest hbase hbounds hok ha
  | advance buckets now =>
    obtain rfl : now = s.decls.clock := hnow
    exact h.advance ha
  | batch i size now =>
    obtain rfl : now = s.decls.clock := hnow
    exact h.repairBatch hbase ha
  | claim id now =>
    obtain ⟨q, hq, rfl⟩ := map_eq_some_iff.1 ha
    exact hqueue (.claim id now) q hq (by simp)
  | close i how now =>
    obtain ⟨q, hq, rfl⟩ := map_eq_some_iff.1 ha
    exact hqueue (.close i how) q hq (by simp)
  | createWindow w confirmed now => cases hok
  | annulWindow id confirmed now => cases hok
  | archiveWindow id now => cases hok
  | enqueueAdmin start stop now => cases hok

theorem Accounted.step (h : s.Accounted) (hbase : s.Base) (hbounds : s.Bounds) (hok : s.routed op)
    (hs : s.step cfg op = some s') : s'.Accounted := by
  obtain ⟨hnow, ⟨w, r, rfl, hp, rfl⟩ | ⟨project, r, -, hb, rfl⟩ | hact⟩ := step_cases hs
  · exact h.put hbase.decls hnow hp _
  · exact h.bump hbase.decls hnow hb
  · have htick : (s.tick op.now).Accounted := fun f hf hs => (h f hf hs).tick hnow
    refine htick.act (hbase.tick hnow) ⟨hbounds.facts, hbounds.ranges, hbounds.watermark⟩ ?_
      rfl hact
    cases op <;> exact hok

/-- Every sealed fact is what the reducer gives for its bucket from the heartbeats stored now, or
lies at or after the cursor of a pending, running or error range. -/
def SealedCurrent (s : Tables) : Prop :=
  ∀ f ∈ s.facts, f.state = .sealed →
    s.recomputed f.bucketStart = some f.content ∨ s.queue.Covers f.bucketStart

end Tables

/-- **Sealed facts are current or queued** in every run in which each new heartbeat that feeds a
sealed bucket is noted for the service. -/
theorem sealed_current_of_routed (cfg : Config) (clock : Int) (monitors : List String) (s : Tables)
    (h : Reach (Tables.step cfg) (fun s op => s.routed op) (.empty clock monitors) s) :
    s.SealedCurrent := by
  have haccounted : s.Accounted := by
    refine Reach.invariant' (I := Tables.Accounted) (by simp [Tables.empty, Tables.Accounted]) ?_ h
    intro s op s' hr hacc hok hs
    have hbounds := Tables.bounds_of_reach (fun _ _ => Tables.measures_of_routed) hr
    exact hacc.step (Tables.base_of_reach hr) hbounds hok hs
  intro f hf hs
  have hinv := (Tables.base_of_reach h).queue.inv
  exact (haccounted f hf hs).current.imp_right fun hp => hp.covers hinv

/-- The web probe is an input from minute 100 on. Minutes 100 to 110 are sealed when its heartbeat
of minute 105 arrives, and the repair has begun. -/
def lateHeartbeat : List ServiceOp :=
  [.put (declareWeb ["web"] 0 0 (100 * minute)), .advance 11 (120 * minute),
    .ingest ⟨"web", 105 * minute + 10 * second, true⟩ (121 * minute), .claim 1 (122 * minute),
    .batch 0 1 (122 * minute)]

theorem sealed_current_lateHeartbeat : (webService lateHeartbeat).SealedCurrent ∧
      (∃ f ∈ (webService lateHeartbeat).facts, f.state = .sealed ∧
        (webService lateHeartbeat).recomputed f.bucketStart ≠ some f.content) ∧
      (webService lateHeartbeat).facts.length = 11 :=
  ⟨sealed_current_of_routed plainConfig 0 ["web"] _ (reach_of_allowedRun (by decide)),
    by decide, by decide⟩

def declareProbes (sli : List String) (expectedRevision now : Int) : DeclarationWrite where
  monitors := ["api", "web"]
  sli := sli
  policies := omittedPolicies
  expectedRevision := expectedRevision
  backfillFrom := 0
  project := [⟨"api", .http, "eu", true, 30, 0, 1, some "get"⟩, webProbe "get"]
  otherServices := fun _ => 0
  now := now

/-- The api probe becomes an input at minute 110. Minutes 100 to 110 are sealed when its heartbeat
of minute 109 arrives. -/
def lateCarryIn : List ServiceOp :=
  [.put (declareProbes ["web"] 0 (100 * minute)),
    .put (declareProbes ["api", "web"] 1 (109 * minute + 5)), .advance 11 (120 * minute),
    .ingest ⟨"api", 109 * minute + 40 * second, true⟩ (121 * minute)]

/-- The heartbeat is carried into minute 110, but nothing was queued: its sealed fact is not what
the reducer gives, and no range covers it. -/
theorem lateCarryIn_not_current :
    ∃ s, Reach (Tables.step plainConfig) (fun _ op => op.measures) (.empty 0 ["api", "web"]) s ∧
      ¬ s.SealedCurrent ∧ s.queue.ranges = [] ∧
      ∃ f ∈ s.facts, f.bucketStart = 110 * minute ∧ f.state = .sealed ∧
        s.recomputed (110 * minute) ≠ some f.content := by
  have hrun : AllowedRun (Tables.step plainConfig) (fun _ op => op.measures)
      (.empty 0 ["api", "web"]) lateCarryIn := by decide
  have hranges : (finalState (Tables.step plainConfig) (.empty 0 ["api", "web"])
      lateCarryIn).queue.ranges = [] := by decide
  have hstale : ∃ f ∈ (finalState (Tables.step plainConfig) (.empty 0 ["api", "web"])
      lateCarryIn).facts, f.bucketStart = 110 * minute ∧ f.state = .sealed ∧
        (finalState (Tables.step plainConfig) (.empty 0 ["api", "web"]) lateCarryIn).recomputed
          (110 * minute) ≠ some f.content := by decide
  refine ⟨_, reach_of_allowedRun hrun, ?_, hranges, hstale⟩
  intro h
  obtain ⟨f, hf, hb, hs, hne⟩ := hstale
  rcases h f hf hs with hc | ⟨r, hr, -⟩
  · exact hne (hb ▸ hc)
  · cases hr

end Cerbix.Service
