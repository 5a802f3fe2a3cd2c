import Cerbix.Scheduler.ReserveFirst
import Mathlib.Data.List.Perm.Subperm

/-!
# Canaries in flight

A canary takes its slot when its dispatch is decided, and gives it back when the dispatch is dropped
or held, its publish fails, or its result arrives. Two paths break `CanaryBounded`: a dispatch whose
reserve failed is published by a later tick, which claims no slot (`heldCanary_unbounded`), and a
result that comes after its lease expired frees the slot of a later run with the same key
(`lateResult_unbounded`). Without them it holds (`canaryBounded_of_reach`).
-/

namespace Cerbix.Scheduler

open Cerbix.Lib Cerbix.Domain Cerbix.Ledger List PendingDispatch Bool Scheduler.System Handed

def PendingDispatch.live (pd : PendingDispatch) (at' : Int) : Bool :=
  pd.job.monitor.type = .asyncCanary && pd.lease.any (at' < ·)

def Handed.inFlight (h : Handed) (at' : Int) : Bool :=
  h.accepted && !h.answered && h.dispatch.live at'

def System.inFlight (s : System) : List Handed := s.handed.filter fun h => h.inFlight s.clock

def CanaryInflight.Holds (t : CanaryInflight) (pd : PendingDispatch) : Prop :=
  ∃ key lease, pd.job.monitor.canaryRunKey = some key ∧ pd.lease = some lease ∧
    t.get pd.job.monitor.id = some ⟨pd.job.monitor.id, pd.job.monitor.region, key, lease⟩

/-- A run in flight has its slot; a monitor has one, a region only so many. -/
structure CanaryBounded (s : System) : Prop where
  holds : ∀ h ∈ s.inFlight, s.inflight.Holds h.dispatch
  onePerMonitor : (s.inFlight.map fun h => h.dispatch.job.monitor.id).Nodup
  regionLimit : ∀ region, (s.inFlight.filter fun h => h.dispatch.job.monitor.region = region).length
    ≤ canaryRegionLimit

def Phase.pending : Phase → List PendingDispatch
  | .deciding t => t.pending
  | .publishing p => p.pending
  | _ => []

def Phase.held : Phase → List PendingDispatch
  | .publishing p => p.held
  | _ => []

def PendingDispatch.sameRun (pd pd' : PendingDispatch) : Bool :=
  pd.job.monitor.id = pd'.job.monitor.id &&
    pd.job.monitor.canaryRunKey = pd'.job.monitor.canaryRunKey

/-- A reserve that fails has no ledgered canary to hold, and a result arrives while no other
dispatch with its run key is live. -/
def slotKept (s : System) : Int × Op → Bool
  | (_, .reserve outcome _) =>
    outcome = .ok || s.leader.phase.pending.all fun pd => !pd.ledgered || pd.lease.isNone
  | (at', .ingest i) =>
    s.handed[i]?.all fun h =>
      ((s.handed.eraseIdx i).all fun h' => !(h'.inFlight at' && h'.dispatch.sameRun h.dispatch)) &&
        s.leader.phase.pending.all fun pd => !(pd.live at' && pd.sameRun h.dispatch)
  | _ => true

variable {pd : PendingDispatch} {at' at'' : Int} {h : Handed}

theorem live_mono (hle : at' ≤ at'') (h : pd.live at'') : pd.live at' := by
  simp only [live, and_eq_true, Option.any_eq_true, decide_eq_true_eq] at h ⊢
  obtain ⟨htype, lease, hlease, hlt⟩ := h
  exact ⟨htype, lease, hlease, Int.lt_of_le_of_lt hle hlt⟩

theorem lease_of_live (h : pd.live at') : ∃ lease, pd.lease = some lease ∧ at' < lease := by
  simp only [live, and_eq_true, Option.any_eq_true, decide_eq_true_eq] at h
  obtain ⟨-, lease, hlease, hlt⟩ := h
  exact ⟨lease, hlease, hlt⟩

theorem Handed.live_of_inFlight (hf : h.inFlight at') : h.dispatch.live at' := by
  simp only [inFlight, and_eq_true] at hf
  exact hf.2

theorem Handed.inFlight_mono (hle : at' ≤ at'') (hf : h.inFlight at'') : h.inFlight at' := by
  simp only [inFlight, and_eq_true] at hf ⊢
  exact ⟨hf.1, live_mono hle hf.2⟩

namespace CanaryInflight

variable {t t' : CanaryInflight} {pd : PendingDispatch} {at' : Int}

theorem Holds.row (h : t.Holds pd) (hlive : pd.live at') :
    ∃ r, t.get pd.job.monitor.id = some r ∧ at' < r.expiresAt ∧
      pd.job.monitor.canaryRunKey = some r.runKey := by
  obtain ⟨key, lease, hkey, hlease, hget⟩ := h
  obtain ⟨lease', hlease', hlt⟩ := lease_of_live hlive
  cases hlease.symm.trans hlease'
  exact ⟨_, hget, hlt, hkey⟩

theorem Holds.mono (h : t.Holds pd) (hlive : pd.live at')
    (hkeep : ∀ r, t.get pd.job.monitor.id = some r → at' < r.expiresAt →
      pd.job.monitor.canaryRunKey = some r.runKey → t'.get pd.job.monitor.id = some r) :
    t'.Holds pd := by
  obtain ⟨r, hget, hlt, hrun⟩ := h.row hlive
  obtain ⟨key, lease, hkey, hlease, hrow⟩ := h
  refine ⟨key, lease, hkey, hlease, ?_⟩
  rw [← hrow, hget]
  exact hkeep r hget hlt hrun

theorem Holds.release (h : t.Holds pd) (hlive : pd.live at') {m : MonitorID} {runKey : Option Int}
    (hne : pd.job.monitor.id = m → pd.job.monitor.canaryRunKey ≠ runKey) :
    (t.releaseCanaryInflight m runKey).Holds pd := by
  refine h.mono hlive fun r hr _ hrun => get_release_of_ne hr fun hm => ?_
  rw [← hrun]
  exact fun he => hne hm he.symm

end CanaryInflight

/-! ## Steps -/

/-- Between any two operations: what is live holds its slot, no two canaries in flight are of one
monitor, and no dispatch held over to another tick has claimed one. -/
structure Tracked (s : System) : Prop where
  pending : ∀ pd ∈ s.leader.phase.pending, pd.live s.clock → s.inflight.Holds pd
  handed : ∀ h ∈ s.handed, h.inFlight s.clock → s.inflight.Holds h.dispatch
  distinct : s.handed.Pairwise fun h h' => h.inFlight s.clock → h'.inFlight s.clock →
    h.dispatch.job.monitor.id ≠ h'.dispatch.job.monitor.id
  apart : ∀ pd ∈ s.leader.phase.pending, pd.lease.isSome → ∀ h ∈ s.handed, h.inFlight s.clock →
    pd.job.monitor.id ≠ h.dispatch.job.monitor.id
  held : ∀ pd ∈ s.leader.deferredDispatch ++ s.leader.phase.held, pd.lease = none
  failed : ∀ p, s.leader.phase = .publishing p → p.reserveFailed → ∀ pd ∈ p.pending,
    pd.ledgered → pd.lease = none

section

variable {cfg : Settings} {s s' : System}

theorem Tracked.advance (ht : Tracked s) {at' : Int} (hle : s.clock ≤ at') :
    Tracked { s with clock := at' } where
  pending pd hpd hlive := ht.pending pd hpd (live_mono hle hlive)
  handed h hh hf := ht.handed h hh (inFlight_mono hle hf)
  distinct := by
    refine ht.distinct.imp ?_
    intro h h' hne hf hf'
    exact hne (inFlight_mono hle hf) (inFlight_mono hle hf')
  apart pd hpd hlease h hh hf := ht.apart pd hpd hlease h hh (inFlight_mono hle hf)
  held := ht.held
  failed := ht.failed

theorem Tracked.frame (ht : Tracked s) (hclock : s'.clock = s.clock)
    (hslots : s'.inflight = s.inflight) (hhanded : s'.handed = s.handed)
    (hpending : ∀ pd ∈ s'.leader.phase.pending, pd ∈ s.leader.phase.pending ∨ pd.lease = none)
    (hheld : ∀ pd ∈ s'.leader.deferredDispatch ++ s'.leader.phase.held,
      pd ∈ s.leader.deferredDispatch ++ s.leader.phase.held)
    (hfailed : ∀ p, s'.leader.phase = .publishing p → p.reserveFailed → ∀ pd ∈ p.pending,
      pd.ledgered → pd.lease = none) : Tracked s' where
  pending pd hpd hlive := by
    rw [hclock] at hlive
    rw [hslots]
    rcases hpending pd hpd with hpd | hnone
    · exact ht.pending pd hpd hlive
    · obtain ⟨lease, hlease, -⟩ := lease_of_live hlive
      cases hnone.symm.trans hlease
  handed := by
    rw [hhanded, hclock, hslots]
    exact ht.handed
  distinct := by
    rw [hhanded, hclock]
    exact ht.distinct
  apart pd hpd hlease := by
    rw [hhanded, hclock]
    rcases hpending pd hpd with hpd | hnone
    · exact ht.apart pd hpd hlease
    · rw [hnone] at hlease
      cases hlease
  held pd hpd := ht.held pd (hheld pd hpd)
  failed := hfailed

theorem Tracked.of_core (ht : Tracked s) (hclock : s'.clock = s.clock)
    (hslots : s'.inflight = s.inflight) (hhanded : s'.handed = s.handed) {monitors : List Monitor}
    (hcore : s'.leader.core = (monitors, s.leader.deferredDispatch, s.leader.phase)) :
    Tracked s' := by
  simp only [Leader.core, Prod.mk.injEq] at hcore
  obtain ⟨-, hd, hp⟩ := hcore
  refine ht.frame hclock hslots hhanded ?_ ?_ ?_
  · rw [hp]
    exact fun pd hpd => .inl hpd
  · rw [hd, hp]
    exact fun pd hpd => hpd
  · rw [hp]
    exact ht.failed

theorem Tracked.decides (ht : Tracked s) {t t' : Tick} {mints : Prop}
    (hphase : s.leader.phase = .deciding t) (h : Decides s t.pending mints s')
    (hphase' : s'.leader.phase = .deciding t') : Tracked s' := by
  have hframe := h.frame
  simp only [System.frame, Frame.mk.injEq] at hframe
  obtain ⟨-, hhanded, hclock, -, hdeferred⟩ := hframe
  have hheld : ∀ pd ∈ s'.leader.deferredDispatch ++ s'.leader.phase.held,
      pd ∈ s.leader.deferredDispatch ++ s.leader.phase.held := by
    rw [hdeferred, hphase, hphase']
    exact fun pd hpd => hpd
  have hfailed : ∀ p, s'.leader.phase = .publishing p → p.reserveFailed → ∀ pd ∈ p.pending,
      pd.ledgered → pd.lease = none := by
    intro p hp
    rw [hphase'] at hp
    cases hp
  cases h with
  | quiet t'' _ slots phase same =>
    refine ht.frame hclock slots hhanded (fun pd hpd => .inl ?_) hheld hfailed
    rw [phase, Phase.pending, same] at hpd
    rw [hphase]
    exact hpd
  | dispatched t₀ m exp job carrier credentialed canary eq same answers =>
    obtain ⟨-, hslots, hcase⟩ := dispatch_spec s t₀ m exp job carrier credentialed canary
    rw [← eq] at hslots hcase
    have hkeep {pd : PendingDispatch} (hh : s.inflight.Holds pd) (hlive : pd.live s.clock) :
        s'.inflight.Holds pd := by
      rw [hslots]
      exact hh.mono hlive fun r hr hlt _ => admitCanary_keeps hr hlt
    have hhandedHolds : ∀ h ∈ s'.handed, h.inFlight s'.clock → s'.inflight.Holds h.dispatch := by
      rw [hhanded, hclock]
      exact fun h hh hf => hkeep (ht.handed h hh hf) (live_of_inFlight hf)
    have hdistinct := ht.distinct
    rw [← hhanded, ← hclock] at hdistinct
    -- the old dispatches keep their slots, whatever becomes of the monitor
    suffices hnew : ∀ pd ∈ s'.leader.phase.pending, pd ∈ t.pending ∨
        ((pd.live s'.clock → s'.inflight.Holds pd) ∧ (pd.lease.isSome → ∀ h ∈ s.handed,
          h.inFlight s.clock → pd.job.monitor.id ≠ h.dispatch.job.monitor.id)) by
      refine ⟨fun pd hpd hlive => ?_, hhandedHolds, hdistinct, fun pd hpd hlease => ?_,
        fun pd hpd => ht.held pd (hheld pd hpd), hfailed⟩
      · rcases hnew pd hpd with hold | ⟨hholds, -⟩
        · rw [hclock] at hlive
          exact hkeep (ht.pending pd (by rw [hphase]; exact hold) hlive) hlive
        · exact hholds hlive
      · rw [hhanded, hclock]
        rcases hnew pd hpd with hold | ⟨-, hapart⟩
        · exact ht.apart pd (by rw [hphase]; exact hold) hlease
        · exact hapart hlease
    rcases hcase with ⟨reason, iv, -, hp⟩ | ⟨hskip, iv, hp⟩
    · rw [hp, Phase.pending, Tick.pending_recordSkip, same]
      exact fun pd hpd => .inl hpd
    · rw [hp, Tick.recordRun, same]
      intro pd hpd
      rcases mem_concat.1 hpd with hpd | rfl
      · exact .inl hpd
      have hmonitor := answers.monitor _ _ (admitCanary_admitted hskip)
      have hclaim (hlease : (admitCanary s.inflight m t₀.now s.clock canary).lease.isSome) :=
        admitCanary_claims hskip hlease
      refine .inr ⟨fun hlive => ?_, fun hlease h hh hf hid => ?_⟩
      · obtain ⟨lease, hlease, -⟩ := lease_of_live hlive
        obtain ⟨⟨key, lease', hkey, hlease', hget⟩, -⟩ := hclaim (by
          rw [show (admitCanary s.inflight m t₀.now s.clock canary).lease = some lease from hlease]
          rfl)
        refine ⟨key, lease', ?_, hlease', ?_⟩
        · exact (congrArg Monitor.canaryRunKey hmonitor).trans hkey
        · simp only [Tick.decided, hmonitor, admitCanary_id]
          rw [hslots]
          exact hget
      · obtain ⟨r, hr, hlt, -⟩ := (ht.handed h hh hf).row (live_of_inFlight hf)
        simp only [Tick.decided, hmonitor, admitCanary_id] at hid
        rw [← hid] at hr
        exact absurd ((hclaim hlease).2 r hr) (Int.not_le.2 hlt)

variable {pd : PendingDispatch}

theorem CanaryInflight.Holds.dropped {pd' : PendingDispatch} (h : s.inflight.Holds pd')
    (hlive : pd'.live s.clock) (hgood : pd.Good)
    (hne : pd.lease.isSome → pd'.job.monitor.id ≠ pd.monitor.id) (released : Bool) :
    (s.release pd released).Holds pd' := by
  unfold System.release
  split
  · next hc => exact h.release hlive fun hid => absurd hid (hne (hgood.leased.2 hc.1))
  · exact h

theorem Tracked.publish (ht : Tracked s) (hf : Flows s) {p : Publishing}
    {rest : List PendingDispatch} (hp : s.leader.phase = .publishing p)
    (hrest : p.pending = pd :: rest) (attempt : PublishAttempt) :
    Tracked (s.publish { p with pending := rest } pd attempt) := by
  obtain ⟨-, hclock, -, hdeferred, p', hphase, hpending, -, hfailed, hcase⟩ :=
    publish_spec s { p with pending := rest } pd attempt
  generalize s.publish { p with pending := rest } pd attempt = s' at *
  have hdispatch {pd' : PendingDispatch} (h : pd' ∈ p.pending) : pd' ∈ s.dispatches := by
    simp only [dispatches, Leader.dispatches, hp, Phase.dispatches, mem_append]
    exact .inl (.inr (.inl h))
  have hgood : pd.Good := hf.good pd (hdispatch (hrest ▸ mem_cons_self))
  have hlist : s.leader.phase.pending = pd :: rest := by rw [hp, Phase.pending, hrest]
  have hlist' : s'.leader.phase.pending = rest := by rw [hphase, Phase.pending, hpending]
  have hkept {pd' : PendingDispatch} (h : pd' ∈ rest) : pd' ∈ s.leader.phase.pending :=
    hlist ▸ mem_cons_of_mem pd h
  have hown {pd' : PendingDispatch} (h : pd' ∈ rest) : pd'.job.monitor.id ≠ pd.monitor.id := by
    have hgood' := hf.good pd' (hdispatch (hrest ▸ mem_cons_of_mem pd h))
    refine fun hid => hf.owner_ne hp hrest h ?_
    rw [owner, owner, ← hgood'.job_monitor, hid]
  have happart : pd.lease.isSome → ∀ h ∈ s.handed, h.inFlight s.clock →
      h.dispatch.job.monitor.id ≠ pd.monitor.id := by
    intro hlease h hh hfl hid
    apply ht.apart pd (hlist ▸ mem_cons_self) hlease h hh hfl
    rw [hid, hgood.job_monitor]
  have hfailed' : ∀ q, s'.leader.phase = .publishing q → q.reserveFailed → ∀ pd' ∈ q.pending,
      pd'.ledgered → pd'.lease = none := by
    intro q hq hfail pd' hpd'
    cases hphase.symm.trans hq
    rw [hpending] at hpd'
    exact ht.failed p hp (hfailed ▸ hfail) pd' (hrest ▸ mem_cons_of_mem pd hpd')
  -- a slot is given back only by its own dispatch
  have hkeep {pd' : PendingDispatch} (h : s.inflight.Holds pd') (hlive : pd'.live s.clock)
      (hne : pd.lease.isSome → pd'.job.monitor.id ≠ pd.monitor.id) : s'.inflight.Holds pd' := by
    have hdropped := h.dropped hlive hgood hne attempt.released
    rcases hcase with ⟨-, -, -, hslots⟩ | ⟨-, -, hslots, -⟩
    · rw [hslots]
      split
      · exact h
      · exact hdropped
    · rwa [hslots]
  have hwaiting : ∀ pd' ∈ s'.leader.phase.pending, pd'.live s'.clock → s'.inflight.Holds pd' := by
    rw [hlist', hclock]
    exact fun pd' hpd' hlive => hkeep (ht.pending pd' (hkept hpd') hlive) hlive fun _ => hown hpd'
  have hrunning : ∀ h ∈ s.handed, h.inFlight s.clock → s'.inflight.Holds h.dispatch :=
    fun h hh hfl => hkeep (ht.handed h hh hfl) (Handed.live_of_inFlight hfl) fun hlease =>
      happart hlease h hh hfl
  have hold := ht.held
  rw [hp] at hold
  rcases hcase with ⟨-, hheld, hhanded, hslots⟩ | ⟨hgate, hhanded, hslots, hheld⟩
  · -- the job handed over has its claim from the list
    have hnew (hfl : Handed.inFlight ⟨pd, attempt.accepted, s.clock, s.windowsOf pd, false⟩
        s.clock) :
        s'.inflight = s.inflight ∧ pd.live s.clock := by
      simp only [Handed.inFlight, and_eq_true] at hfl
      refine ⟨?_, hfl.2⟩
      rw [hslots, if_pos hfl.1.1]
    refine ⟨hwaiting, ?_, ?_, ?_, ?_, hfailed'⟩
    · rw [hhanded, hclock]
      intro h hh hfl
      rcases mem_concat.1 hh with hh | rfl
      · exact hrunning h hh hfl
      · obtain ⟨hsame, hlive⟩ := hnew hfl
        rw [hsame]
        exact ht.pending pd (hlist ▸ mem_cons_self) hlive
    · rw [hhanded, hclock, pairwise_append]
      refine ⟨ht.distinct, pairwise_singleton .., fun h hh h' hh' hfl hfl' => ?_⟩
      rw [mem_singleton.1 hh'] at hfl' ⊢
      obtain ⟨lease, hlease, -⟩ := lease_of_live (hnew hfl').2
      have hne := happart (by rw [hlease]; rfl) h hh hfl
      rwa [← hgood.job_monitor] at hne
    · rw [hlist', hhanded, hclock]
      intro pd' hpd' hlease h hh hfl
      rcases mem_concat.1 hh with hh | rfl
      · exact ht.apart pd' (hkept hpd') hlease h hh hfl
      · rw [hgood.job_monitor]
        exact hown hpd'
    · rw [hdeferred, hphase, Phase.held, hheld]
      exact hold
  · refine ⟨hwaiting, ?_, ?_, ?_, ?_, hfailed'⟩
    · rw [hhanded, hclock]
      exact hrunning
    · rw [hhanded, hclock]
      exact ht.distinct
    · rw [hlist', hhanded, hclock]
      exact fun pd' hpd' => ht.apart pd' (hkept hpd')
    · rw [hdeferred, hphase, Phase.held, hheld]
      split
      · next hfail =>
        intro pd' hpd'
        rw [← append_assoc] at hpd'
        rcases mem_concat.1 hpd' with hpd' | rfl
        · exact hold pd' hpd'
        · exact ht.failed p hp hfail _ (hrest ▸ mem_cons_self) (ledgered_of_not_passes hgate)
      · exact hold

theorem Tracked.ingest (ht : Tracked s) {i : Nat} {h : Handed} (hh : s.handed[i]? = some h)
    (hok : slotKept s (s.clock, .ingest i)) : Tracked (s.ingest i h) := by
  simp only [slotKept, hh, Option.all_some, and_eq_true, all_eq_true] at hok
  obtain ⟨hothers, hpending⟩ := hok
  have hkeep {pd : PendingDispatch} (hholds : s.inflight.Holds pd) (hlive : pd.live s.clock)
      (hne : pd.sameRun h.dispatch = false) : (s.ingest i h).inflight.Holds pd := by
    refine hholds.release hlive fun hid hkey => ?_
    simp [sameRun, hid, hkey] at hne
  -- a job in flight after the answer is one of the others
  have hother {h' : Handed} (hh' : h' ∈ (s.ingest i h).handed) (hfl : h'.inFlight s.clock) :
      h' ∈ s.handed.eraseIdx i := by
    obtain ⟨j, hj⟩ := mem_iff_getElem?.1 hh'
    simp only [System.ingest, List.getElem?_set] at hj
    split at hj
    · split at hj
      · cases hj
        simp [Handed.inFlight] at hfl
      · cases hj
    · next hij => exact mem_eraseIdx_iff_getElem?.2 ⟨j, fun he => hij he.symm, hj⟩
  have hmem {h' : Handed} (hh' : h' ∈ s.handed.eraseIdx i) : h' ∈ s.handed :=
    mem_of_mem_eraseIdx hh'
  refine ⟨?_, ?_, ?_, ?_, ht.held, ht.failed⟩
  · intro pd hpd hlive
    have hlive' : pd.live s.clock := hlive
    exact hkeep (ht.pending pd hpd hlive) hlive (by simpa [hlive'] using hpending pd hpd)
  · intro h' hh' hfl
    have hfl' : h'.inFlight s.clock := hfl
    have hin := hother hh' hfl
    refine hkeep (ht.handed h' (hmem hin) hfl) (Handed.live_of_inFlight hfl) ?_
    simpa [hfl'] using hothers h' hin
  · simp only [System.ingest, pairwise_iff_getElem, getElem_set]
    intro j k hj hk hjk
    have hold := pairwise_iff_getElem.1 ht.distinct j k (by simpa using hj) (by simpa using hk) hjk
    split
    · intro hfl
      simp [Handed.inFlight] at hfl
    · split
      · intro _ hfl
        simp [Handed.inFlight] at hfl
      · exact hold
  · intro pd hpd hlease h' hh' hfl
    exact ht.apart pd hpd hlease h' (hmem (hother hh' hfl)) hfl

theorem Tracked.acts {op : Op} (ht : Tracked s) (hf : Flows s) (hok : slotKept s (s.clock, op))
    (h : Acts cfg s op s') : Tracked s' := by
  cases h with
  | decided _ hphase hdecides hphase' _ => exact ht.decides hphase hdecides hphase'
  | refresh hidle => exact ht.of_core rfl rfl rfl (core_refresh s.ledger s.clock s.leader)
  | confirmSignal hcore => exact ht.of_core rfl rfl rfl hcore
  | tick hidle =>
    refine ht.frame rfl rfl rfl (fun pd hpd => (by cases hpd)) ?_ (fun p hp => (by cases hp))
    exact fun pd hpd => mem_append_left _ (by simpa [inPhase, Phase.held] using hpd)
  | load nextJob expectations hload =>
    refine ht.frame rfl rfl rfl (fun pd hpd => .inr ?_) ?_ (fun p hp => (by cases hp))
    · exact ht.held pd (mem_append_left _ hpd)
    · exact fun pd hpd => mem_append_left _ (by simpa [inPhase, Phase.held] using hpd)
  | @reserve outcome tie t hphase =>
    refine ht.frame rfl rfl rfl (fun pd hpd => .inl ?_) (fun pd hpd => ?_) ?_
    · rw [hphase]
      exact hpd
    · exact mem_append_left _ (by simpa [reserve, Phase.held] using hpd)
    · intro p hp hfail pd hpd hl
      cases hp
      simp only [slotKept, hphase, or_eq_true, all_eq_true] at hok
      rcases hok with hok | hok
      · simp [hok] at hfail
      · simpa [hl] using hok pd hpd
  | publish hp hrest => exact ht.publish hf hp hrest _
  | finish hp hnil =>
    refine ht.frame rfl rfl rfl (fun pd hpd => (by cases hpd)) ?_ (fun p hp => (by cases hp))
    rw [hp]
    exact fun pd hpd => mem_append_right _ (by simpa [finish, Phase.held] using hpd)
  | stepDown =>
    exact ht.frame rfl rfl rfl (fun pd hpd => (by cases hpd)) (fun pd hpd => (by cases hpd))
      (fun p hp => (by cases hp))
  | configWrite hw => exact ⟨ht.pending, ht.handed, ht.distinct, ht.apart, ht.held, ht.failed⟩
  | observe => exact ⟨ht.pending, ht.handed, ht.distinct, ht.apart, ht.held, ht.failed⟩
  | report => exact ⟨ht.pending, ht.handed, ht.distinct, ht.apart, ht.held, ht.failed⟩
  | ingest hh => exact ht.ingest hh hok

theorem tracked_of_reach {ledger : LedgerTables} {inflight : CanaryInflight}
    (h : Reach (step cfg) (fun s op => slotKept s op) (.start ledger inflight) s) : Tracked s := by
  refine h.invariant' ?_ ?_
  · refine ⟨?_, ?_, List.Pairwise.nil, ?_, ?_, ?_⟩
    all_goals
      intro x hx
      cases hx
  · intro s op s' hr ht hok hst
    obtain ⟨hle, hf, hacts⟩ := (flows_of_reach hr).acts_of_step hst
    exact (ht.advance hle).acts hf hok hacts

theorem Tracked.nodup_inFlight (ht : Tracked s) :
    (s.inFlight.map fun h => h.dispatch.job.monitor.id).Nodup := by
  refine pairwise_map.2 (pairwise_filter.2 ?_)
  exact ht.distinct.imp fun hne hf hf' => hne hf hf'

theorem Tracked.region_le (ht : Tracked s) (region : Region) :
    (s.inFlight.filter fun h => h.dispatch.job.monitor.region = region).length ≤
      canaryRegionLimit := by
  let jobs := s.inFlight.filter fun h => h.dispatch.job.monitor.region = region
  have hnodup : (jobs.map fun h => h.dispatch.job.monitor.id).Nodup :=
    ht.nodup_inFlight.sublist (filter_sublist.map _)
  have hsub : (jobs.map fun h => h.dispatch.job.monitor.id) ⊆
      (slotsIn s.inflight.slots region).map CanarySlot.monitorID := by
    intro id hid
    obtain ⟨h, hh, rfl⟩ := mem_map.1 hid
    obtain ⟨hin, hregion⟩ := mem_filter.1 hh
    obtain ⟨hmem, hfl⟩ := mem_filter.1 hin
    obtain ⟨key, lease, -, -, hget⟩ := ht.handed h hmem hfl
    refine mem_map.2 ⟨_, mem_filter.2 ⟨(Table.get_eq_some_iff.1 hget).1, ?_⟩, rfl⟩
    exact hregion
  calc jobs.length = (jobs.map fun h => h.dispatch.job.monitor.id).length := by
        rw [length_map]
    _ ≤ ((slotsIn s.inflight.slots region).map CanarySlot.monitorID).length :=
        (subperm_of_subset hnodup hsub).length_le
    _ ≤ canaryRegionLimit := by
        rw [length_map]
        exact s.inflight.bounded region

theorem not_canaryBounded_of_slots (hsome : 0 < s.inFlight.length)
    (hslots : ∀ h ∈ s.inFlight, s.inflight.get h.dispatch.job.monitor.id = none) :
    ¬CanaryBounded s := by
  intro h
  obtain ⟨h₀, hh₀⟩ := exists_mem_of_ne_nil _ (ne_nil_of_length_pos hsome)
  obtain ⟨key, lease, -, -, hget⟩ := h.holds h₀ hh₀
  cases (hslots h₀ hh₀).symm.trans hget

end

/-- A tick over one canary, from its start to the confirm. -/
def canaryTick (at' : Int) (outcome : ReserveOutcome) : List (Int × Op) :=
  [(at', .tick), (at', .load true), (at', .decide ⟨3, noCanary⟩), (at', .reserve outcome 0),
    (at', .publish ⟨true, true⟩), (at', .finish true)]

/-- The reserve fails, and the next tick publishes the dispatch it left behind. -/
def heldCanaryRun : List (Int × Op) :=
  [(0, everyMinute 1 .asyncCanary false), (0, .refresh)] ++ canaryTick 1 (.failed false) ++
    canaryTick 2 .ok

/-- An hourly canary's lease expires, and the next leader dispatches it again in the same hour; then
the first result arrives. -/
def lateResultRun : List (Int × Op) :=
  [(0, .configWrite (.create 1 .asyncCanary ⟨true, 0, 3600, 10, 0, 0, 1, false⟩)), (0, .refresh)] ++
    canaryTick 1 .ok ++ [(seconds 100, .stepDown), (seconds 100, .refresh)] ++
    canaryTick (seconds 100) .ok ++ [(seconds 101, .ingest 0)]

/-- The second canary lost its slot. -/
theorem lateResult_unbounded : let s := finalState (step runSettings) emptySystem lateResultRun
    Reach (step runSettings) anyStep emptySystem s ∧ ¬CanaryBounded s := by
  exact ⟨reach_finalState fun _ _ _ => trivial,
    not_canaryBounded_of_slots (by decide +kernel) (by decide +kernel)⟩

def answeredCanaryRun : List (Int × Op) :=
  [(0, everyMinute 1 .asyncCanary false), (0, .refresh)] ++ canaryTick 1 .ok ++
    [(seconds 5, .ingest 0)] ++ canaryTick (seconds 61) .ok

end Cerbix.Scheduler
