import Cerbix.Scheduler.Leader

/-!
# How dispatches move through a tick

Every invariant of the leader follows the same lists: the monitors still to decide, the dispatches
decided, and the advances submitted for them. A decision takes one monitor not decided before
(`Tick.Takes`), so a tick submits at most one advance and one dispatch for a monitor (`Tick.Wf`); a
dispatch is created in one place, by `dispatch_spec` (`Decides`).
-/

namespace Cerbix.Scheduler

open Cerbix.Lib Cerbix.Domain Cerbix.Ledger List PendingDispatch MaterializedExecution
  Scheduler.System

/-! ## Deciding each monitor once -/

section

variable {α : Type*} {old todo ids : List α} {a : α}

/-- The ids decided so far are distinct, and none is decided again, except that those taken over
from an earlier tick are met once more. -/
structure Settled (old todo ids : List α) : Prop where
  nodup : ids.Nodup
  done : ∀ a ∈ ids, a ∈ old ∨ a ∉ todo

theorem Settled.mono {todo' : List α} (h : Settled old todo ids) (hsub : todo' ⊆ todo) :
    Settled old todo' ids :=
  ⟨h.nodup, fun a ha => (h.done a ha).imp id fun hn hmem => hn (hsub hmem)⟩

theorem Settled.snoc (h : Settled old (a :: todo) ids) (hold : a ∉ old) (ha : a ∉ todo) :
    Settled old todo (ids ++ [a]) where
  nodup := by
    refine List.Nodup.append h.nodup (nodup_singleton a) ?_
    rw [disjoint_singleton]
    intro hmem
    rcases h.done a hmem with h | h
    · exact hold h
    · exact h mem_cons_self
  done b hb := by
    rcases mem_concat.1 hb with hb | rfl
    · exact (h.mono (subset_cons_self a todo)).done b hb
    · exact .inr ha

end

def PendingDispatch.owner (pd : PendingDispatch) : Option MonitorID := some pd.monitor.id

namespace Tick

def todo (t : Tick) : List MonitorID :=
  t.rest.map Monitor.id ++ (t.nominated.map Monitor.id ++ t.items.map monitorID)

/-- What a decision about a monitor adds to the tick. -/
inductive Takes (id : MonitorID) (t t' : Tick) : Prop
  | pass (hp : t'.pending = t.pending) (ha : t'.advances = t.advances)
  | skip (a : ExpectationAdvance) (hid : a.monitorID = some id) (hp : t'.pending = t.pending)
      (ha : t'.advances = t.advances ++ [a])
  | run (pd : PendingDispatch) (hid : pd.monitor.id = id)
      (hadvance : pd.ledgered → pd.advance.monitorID = some id)
      (hp : t'.pending = t.pending ++ [pd])
      (ha : t'.advances = if pd.ledgered then t.advances ++ [pd.advance] else t.advances)

/-- The dispatches and advances of a tick that has still to decide `todo`, after an earlier tick
left `held` behind. -/
structure Wf (held : List PendingDispatch) (todo : List MonitorID) (t : Tick) : Prop where
  nodup : todo.Nodup
  pending : Settled (held.map owner) (todo.map some) (t.pending.map owner)
  advances : Settled (held.map owner) (todo.map some) (t.advances.map ExpectationAdvance.monitorID)
  submitted : ∀ pd ∈ t.pending, pd.ledgered → pd.advance ∈ t.advances

variable {held : List PendingDispatch} {todo todo' : List MonitorID} {t t' : Tick} {id : MonitorID}

theorem Wf.mono (h : t.Wf held todo) (hnodup : todo'.Nodup) (hsub : todo' ⊆ todo) :
    t.Wf held todo' where
  nodup := hnodup
  pending := h.pending.mono (map_subset _ hsub)
  advances := h.advances.mono (map_subset _ hsub)
  submitted := h.submitted

theorem Wf.perm (h : t.Wf held todo) (hp : todo'.Perm todo) : t.Wf held todo' :=
  h.mono (hp.nodup_iff.2 h.nodup) hp.subset

theorem Wf.takes (h : t.Wf held (id :: todo)) (hid : some id ∉ held.map owner)
    (ht : Takes id t t') : t'.Wf held todo := by
  have hnot : some id ∉ todo.map some := by
    simpa using (nodup_cons.1 h.nodup).1
  have hsub : todo.map some ⊆ (id :: todo).map some := subset_cons_self _ _
  have hnodup := (nodup_cons.1 h.nodup).2
  cases ht with
  | pass hp ha =>
    refine ⟨hnodup, ?_, ?_, ?_⟩
    · rw [hp]
      exact h.pending.mono hsub
    · rw [ha]
      exact h.advances.mono hsub
    · rw [hp, ha]
      exact h.submitted
  | skip a haid hp ha =>
    refine ⟨hnodup, ?_, ?_, ?_⟩
    · rw [hp]
      exact h.pending.mono hsub
    · rw [ha, map_append, map_singleton, haid]
      exact h.advances.snoc hid hnot
    · rw [hp, ha]
      exact fun pd hpd hl => mem_append_left _ (h.submitted pd hpd hl)
  | run pd hpid hadv hp ha =>
    refine ⟨hnodup, ?_, ?_, ?_⟩
    · rw [hp, map_append, map_singleton, owner, hpid]
      exact h.pending.snoc hid hnot
    · rw [ha]
      split
      · next hl =>
        rw [map_append, map_singleton, hadv hl]
        exact h.advances.snoc hid hnot
      · exact h.advances.mono hsub
    · rw [hp, ha]
      intro pd' hpd' hl'
      rcases mem_concat.1 hpd' with hpd' | rfl
      · have := h.submitted pd' hpd' hl'
        split
        · exact mem_append_left _ this
        · exact this
      · rw [if_pos hl']
        exact mem_append_right _ mem_cons_self

theorem takes_recordSkip (t : Tick) (m : Monitor) (exp : Option DueExpectation)
    (reason : SkipReason) (iv : EffectiveInterval) :
    Takes m.id t (t.recordSkip m exp reason iv) := by
  cases exp with
  | none => exact .pass rfl rfl
  | some exp => exact .skip _ rfl rfl rfl

theorem takes_recordRun {pd : PendingDispatch} (hid : pd.monitor.id = id)
    (ha : pd.ledgered → pd.advance.monitorID = some id) (t : Tick) :
    Takes id t (t.recordRun pd) := .run pd hid ha rfl rfl

theorem pending_recordSkip (t : Tick) (m : Monitor) (exp : Option DueExpectation)
    (reason : SkipReason) (iv : EffectiveInterval) :
    (t.recordSkip m exp reason iv).pending = t.pending := by
  cases exp <;> rfl

def lists (t : Tick) : List Monitor × List Monitor × List MaterializedExecution :=
  (t.rest, t.nominated, t.items)

theorem lists_recordSkip (t : Tick) (m : Monitor) (exp : Option DueExpectation)
    (reason : SkipReason) (iv : EffectiveInterval) :
    (t.recordSkip m exp reason iv).lists = t.lists := by
  cases exp <;> rfl

end Tick

/-- A materialized job is for the monitor that was asked for, carries an identity, and a canary's
names its run. -/
structure StampedJob.Keyed (st : StampedJob) (id : MonitorID) : Prop where
  monitorID : st.job.monitor.id = id
  jobID : st.job.jobID.isSome
  issuedAt : st.job.issuedAt.isSome
  runKey : st.job.monitor.type = .asyncCanary → 0 < st.job.monitor.intervalSeconds →
    st.job.monitor.canaryRunKey.isSome

def MaterializedExecution.Keyed (item : MaterializedExecution) : Prop :=
  ∀ st, item.result = .ok st → st.Keyed item.monitorID

namespace Tick

/-- A tick between two of its decisions: `taken` are the monitors it has taken off its lists and not
decided yet. -/
structure Ok (held : List PendingDispatch) (taken : List MonitorID) (t : Tick) : Prop where
  wf : t.Wf held (taken ++ t.todo)
  fresh : ∀ id ∈ t.nominated.map Monitor.id ++ t.items.map monitorID, some id ∉ held.map owner
  keyed : ∀ item ∈ t.items, item.Keyed

variable {held : List PendingDispatch} {taken : List MonitorID} {t t' : Tick} {id : MonitorID}

theorem todo_of_lists (h : t'.lists = t.lists) : t'.todo = t.todo := by
  simp only [lists, Prod.mk.injEq] at h
  rw [todo, todo, h.1, h.2.1, h.2.2]

theorem Ok.drop (h : t.Ok held (id :: taken)) : t.Ok held taken where
  wf := h.wf.mono (nodup_cons.1 h.wf.nodup).2 (subset_cons_self _ _)
  fresh := h.fresh
  keyed := h.keyed

theorem Ok.takes (h : t.Ok held (id :: taken)) (hid : some id ∉ held.map owner)
    (ht : Takes id t t') (hl : t'.lists = t.lists) : t'.Ok held taken where
  wf := by
    rw [todo_of_lists hl]
    exact h.wf.takes hid ht
  fresh := by
    simp only [lists, Prod.mk.injEq] at hl
    rw [hl.2.1, hl.2.2]
    exact h.fresh
  keyed := by
    simp only [lists, Prod.mk.injEq] at hl
    rw [hl.2.2]
    exact h.keyed

variable {m : Monitor}

theorem Ok.popRest {rest : List Monitor} (h : t.Ok held [])
    (hrest : t.rest = m :: rest) : { t with rest := rest }.Ok held [m.id] where
  wf := by
    have := h.wf
    simp only [todo, hrest] at this
    exact ⟨this.nodup, this.pending, this.advances, this.submitted⟩
  fresh := h.fresh
  keyed := h.keyed

theorem Ok.popItem {item : MaterializedExecution} {items : List MaterializedExecution}
    (h : t.Ok held []) (hitems : t.items = item :: items) :
    { t with items := items }.Ok held [item.monitorID] ∧
      some item.monitorID ∉ held.map owner ∧ item.Keyed := by
  have hmem : item ∈ t.items := hitems ▸ mem_cons_self
  refine ⟨⟨?_, ?_, ?_⟩, ?_, h.keyed item hmem⟩
  · have hperm : ([item.monitorID] ++ { t with items := items }.todo).Perm ([] ++ t.todo) := by
      have hmid := (@perm_middle _ item.monitorID
        (t.rest.map Monitor.id ++ t.nominated.map Monitor.id)
        (items.map monitorID)).symm
      simpa only [todo, hitems, map_cons, nil_append, singleton_append, append_assoc] using hmid
    have := h.wf.perm hperm
    exact ⟨this.nodup, this.pending, this.advances, this.submitted⟩
  · intro id hid
    apply h.fresh id
    rw [hitems]
    simp only [map_cons, mem_append, mem_cons] at hid ⊢
    exact hid.imp_right Or.inr
  · exact fun item' hitem' => h.keyed item' (hitems ▸ mem_cons_of_mem _ hitem')
  · apply h.fresh
    exact mem_append_right _ (mem_map_of_mem hmem)

theorem Ok.nominate (h : t.Ok held [m.id]) (hm : some m.id ∉ held.map owner) :
    { t with nominated := t.nominated ++ [m] }.Ok held [] where
  wf := by
    have hperm : ([] ++ { t with nominated := t.nominated ++ [m] }.todo).Perm
        ([m.id] ++ t.todo) := by
      simp only [todo, nil_append, map_append, map_cons, map_nil, append_assoc, singleton_append]
      rw [← append_assoc, ← append_assoc]
      exact perm_middle
    have := h.wf.perm hperm
    exact ⟨this.nodup, this.pending, this.advances, this.submitted⟩
  fresh id hid := by
    simp only [map_append, map_cons, map_nil, append_assoc,
      mem_append, singleton_append, mem_cons] at hid
    rcases hid with hid | rfl | hid
    · exact h.fresh id (mem_append_left _ hid)
    · exact hm
    · exact h.fresh id (mem_append_right _ hid)
  keyed := h.keyed

theorem Ok.batch {batch : List Monitor} (h : t.Ok held []) (hb : batch.Sublist t.nominated) :
    { t with nominated := t.nominated.filter fun m => m ∉ batch }.Ok held (batch.map Monitor.id) ∧
      ∀ m ∈ batch, some m.id ∉ held.map owner := by
  have hnom : t.nominated.Nodup := by
    have := h.wf.nodup
    simp only [nil_append] at this
    exact (nodup_append.1 (nodup_append.1 this).2.1).1.of_map
  have hsplit : (batch ++ t.nominated.filter fun m => m ∉ batch).Perm t.nominated := by
    have hin : (t.nominated.filter fun m => m ∈ batch).Perm batch := by
      rw [perm_ext_iff_of_nodup (hnom.filter _) (hnom.sublist hb)]
      intro m
      rw [mem_filter]
      exact ⟨fun hm => by simpa using hm.2, fun hm => ⟨hb.subset hm, by simpa using hm⟩⟩
    refine (hin.symm.append_right _).trans ?_
    simpa using filter_append_perm (fun m => decide (m ∈ batch)) t.nominated
  refine ⟨⟨?_, ?_, h.keyed⟩, ?_⟩
  · have hperm : (batch.map Monitor.id ++
        { t with nominated := t.nominated.filter fun m => m ∉ batch }.todo).Perm
          ([] ++ t.todo) := by
      refine (perm_append_comm_assoc _ _ _).trans (List.Perm.append_left _ ?_)
      rw [← append_assoc, ← map_append]
      exact (hsplit.map Monitor.id).append_right _
    have := h.wf.perm hperm
    exact ⟨this.nodup, this.pending, this.advances, this.submitted⟩
  · intro id hid
    apply h.fresh id
    rcases mem_append.1 hid with hid | hid
    · exact mem_append_left _ ((filter_sublist.map Monitor.id).subset hid)
    · exact mem_append_right _ hid
  · intro m hm
    apply h.fresh
    exact mem_append_left _ (mem_map_of_mem (hb.subset hm))

end Tick

/-! ## What the deciding operations do -/

/-- What the deciding operations leave as it was. -/
structure Frame where
  ledger : LedgerTables
  handed : List Handed
  clock : Int
  monitors : List Monitor
  held : List PendingDispatch

def System.frame (s : System) : Frame :=
  ⟨s.ledger, s.handed, s.clock, s.leader.monitors, s.leader.deferredDispatch⟩

theorem Tick.monitorID_decided {t : Tick} {m : Monitor} {exp : Option DueExpectation}
    {job : CheckJob} {carrier : Int} {iv : EffectiveInterval} {credentialed : Bool}
    {lease : Option Int} (h : (t.decided m exp job carrier iv credentialed lease).ledgered) :
    (t.decided m exp job carrier iv credentialed lease).advance.monitorID = some m.id := by
  cases exp with
  | none => cases h
  | some exp => rfl

section Deciding

variable {s : System} {t : Tick} {held : List PendingDispatch} {taken : List MonitorID}
  {m : Monitor}

open Tick

theorem Tick.Ok.backOff {reason : SkipReason} {leader : Leader} (h : t.Ok held (m.id :: taken))
    (hm : some m.id ∉ held.map owner) : (backOff reason (leader, t) m).2.Ok held taken :=
  h.takes hm (takes_recordSkip ..) (lists_recordSkip ..)

theorem backOff_leader (reason : SkipReason) (p : Leader × Tick) (m : Monitor) :
    (backOff reason p m).1.monitors = p.1.monitors ∧
      (backOff reason p m).1.deferredDispatch = p.1.deferredDispatch ∧
      (backOff reason p m).2.pending = p.2.pending :=
  ⟨rfl, rfl, pending_recordSkip ..⟩

theorem foldl_backOff (held : List PendingDispatch) (reason : SkipReason) (batch : List Monitor) :
    ∀ (p : Leader × Tick), (batch.foldl (backOff reason) p).1.monitors = p.1.monitors ∧
      (batch.foldl (backOff reason) p).1.deferredDispatch = p.1.deferredDispatch ∧
      (batch.foldl (backOff reason) p).2.pending = p.2.pending ∧
      (p.2.Ok held (batch.map Monitor.id) → (∀ m ∈ batch, some m.id ∉ held.map owner) →
        (batch.foldl (backOff reason) p).2.Ok held []) := by
  induction batch with
  | nil => exact fun p => ⟨rfl, rfl, rfl, fun h _ => h⟩
  | cons m batch ih =>
    intro p
    obtain ⟨hm, hd, hp⟩ := backOff_leader reason p m
    obtain ⟨hm', hd', hp', hok⟩ := ih (backOff reason p m)
    refine ⟨hm'.trans hm, hd'.trans hd, hp'.trans hp, fun h hfresh => ?_⟩
    exact hok (h.backOff (hfresh m mem_cons_self)) fun m' hm' => hfresh m' (mem_cons_of_mem m hm')

theorem dispatch_spec (s : System) (t : Tick) (m : Monitor) (exp : Option DueExpectation)
    (job : Monitor → CheckJob) (carrier : Int) (credentialed : Bool) (canary : CanaryAnswer) :
    let s' := s.dispatch t m exp job carrier credentialed canary
    let a := admitCanary s.inflight m t.now s.clock canary
    s'.frame = s.frame ∧ s'.inflight = a.slots ∧ ((∃ reason iv, a.skip = some reason ∧
          s'.leader.phase = .deciding (t.recordSkip a.monitor exp reason iv)) ∨
        a.skip = none ∧ ∃ iv, s'.leader.phase = .deciding (t.recordRun
          (t.decided a.monitor exp (job a.monitor) carrier iv credentialed a.lease))) := by
  unfold dispatch
  dsimp only
  split
  · next reason hskip => exact ⟨rfl, rfl, .inl ⟨reason, _, hskip, rfl⟩⟩
  · next hskip => exact ⟨rfl, rfl, .inr ⟨hskip, _, rfl⟩⟩

theorem Tick.Ok.dispatch (h : t.Ok held (m.id :: taken))
    (hm : some m.id ∉ held.map owner) (s : System) (exp : Option DueExpectation)
    (job : Monitor → CheckJob) (carrier : Int) (credentialed : Bool) (canary : CanaryAnswer) :
    ∃ t', (s.dispatch t m exp job carrier credentialed canary).leader.phase = .deciding t' ∧
      t'.Ok held taken := by
  obtain ⟨-, -, ⟨reason, iv, -, hphase⟩ | ⟨-, iv, hphase⟩⟩ :=
    dispatch_spec s t m exp job carrier credentialed canary
  · refine ⟨_, hphase, h.takes hm ?_ (lists_recordSkip ..)⟩
    simpa using takes_recordSkip t
      (admitCanary s.inflight m t.now s.clock canary).monitor exp reason iv
  · refine ⟨_, hphase, h.takes hm (takes_recordRun ?_ ?_ t) rfl⟩
    · exact admitCanary_id ..
    · intro hl
      rw [monitorID_decided hl, admitCanary_id]

/-- A job is for its monitor, has an identity if a window is submitted for it, and names no other
window than that one. -/
structure Answers (m : Monitor) (exp : Option DueExpectation)
    (job : Monitor → CheckJob) : Prop where
  monitor : ∀ admitted lease, Admitted m admitted lease → (job admitted).monitor = admitted
  hasJob : exp.isSome → ∀ admitted, (job admitted).jobID.isSome
  dueAt : ∀ admitted, (job admitted).dueAt.isSome →
    ∃ e, exp = some e ∧ (job admitted).dueAt = some e.dueAt

def MintsAlike (exp : Option DueExpectation) (job : Monitor → CheckJob) : Prop :=
  ∀ e, exp = some e → ∀ admitted, (job admitted).issuedAt = some e.issuedAt

/-- One operation of a tick: it creates no dispatch, or the one of `dispatch`. -/
inductive Decides (s : System) (pending : List PendingDispatch) (mints : Prop) (s' : System) : Prop
  | quiet (t' : Tick) (frame : s'.frame = s.frame) (slots : s'.inflight = s.inflight)
      (phase : s'.leader.phase = .deciding t') (same : t'.pending = pending)
  | dispatched (t₀ : Tick) (m : Monitor) (exp : Option DueExpectation) (job : Monitor → CheckJob)
      (carrier : Int) (credentialed : Bool) (canary : CanaryAnswer)
      (eq : s' = s.dispatch t₀ m exp job carrier credentialed canary)
      (same : t₀.pending = pending) (answers : Answers m exp job)
      (mintsAlike : mints → MintsAlike exp job)

theorem Decides.frame {pending : List PendingDispatch} {mints : Prop} {s' : System}
    (h : Decides s pending mints s') : s'.frame = s.frame := by
  cases h with
  | quiet t' frame => exact frame
  | dispatched t₀ m exp job carrier credentialed canary eq =>
    subst eq
    exact (dispatch_spec ..).1

theorem answers_plainJob (m : Monitor) (exp : Option DueExpectation) (carrier : Int) :
    Answers m exp (fun admitted => { plainJob m exp carrier with monitor := admitted }) where
  monitor _ _ _ := rfl
  hasJob h _ := by simpa [plainJob, withCarrier] using h
  dueAt admitted h := by
    simp only [plainJob, withCarrier] at h ⊢
    split at h
    · cases h
    rename_i hc
    obtain ⟨e, rfl⟩ := Option.isSome_iff_exists.1 (by simpa using h)
    exact ⟨e, rfl, by simp [hc]⟩

theorem mintsAlike_plainJob (m : Monitor) (exp : Option DueExpectation) (carrier : Int) :
    MintsAlike exp (fun admitted => { plainJob m exp carrier with monitor := admitted }) := by
  rintro e rfl admitted
  rfl

variable {at' : Int} {st : StampedJob}

theorem withCanaryRunKey_of_keyed
    (hkeyed : m.type = .asyncCanary → 0 < m.intervalSeconds → m.canaryRunKey.isSome)
    (h : (withCanaryRunKey m at').canaryRunKey.isSome) : withCanaryRunKey m at' = m := by
  unfold withCanaryRunKey at h ⊢
  split at h
  · next hc => rw [if_pos hc]
  · next hc =>
    exfalso
    simp only [not_or, not_not] at hc
    unfold canaryRunKeyAt at h
    split at h
    · cases h
    · next hpos => exact hc.2 (hkeyed hc.1 (Int.not_le.1 hpos))

variable {item : MaterializedExecution}

theorem answers_carried (hkeyed : item.Keyed) (hok : item.result = .ok st) (t : Tick) :
    Answers st.job.monitor (carriedExpectation t st.job) (fun _ => st.job) := by
  have hk := hkeyed st hok
  refine ⟨fun admitted lease hadm => ?_, fun _ _ => hk.jobID, fun _ hdue => ?_⟩
  · rcases hadm.stamped with hsame | ⟨at', hstamp, hkey⟩
    · exact hsame.symm
    · exact (hstamp.trans (withCanaryRunKey_of_keyed hk.runKey (hstamp ▸ hkey))).symm
  obtain ⟨id, hid⟩ := Option.isSome_iff_exists.1 hk.jobID
  obtain ⟨issued, hi⟩ := Option.isSome_iff_exists.1 hk.issuedAt
  obtain ⟨due, hd⟩ := Option.isSome_iff_exists.1 hdue
  exact ⟨⟨st.job.monitor.id, due, id, issued⟩, by simp [carriedExpectation, hid, hi, hd], hd⟩

/-- A credentialed job that lost its window is published for an expectation loaded before it. -/
def keepsMint (t : Tick) (item : MaterializedExecution) : Bool :=
  match item.result with
  | .error _ => true
  | .ok st => st.job.dueAt.isSome ||
      (t.expectation st.job.monitor.id).all fun e => st.job.issuedAt = some e.issuedAt

theorem mintsAlike_carried (hkeyed : item.Keyed) (hok : item.result = .ok st)
    (hkeeps : keepsMint t item) : MintsAlike (carriedExpectation t st.job) (fun _ => st.job) := by
  have hk := hkeyed st hok
  obtain ⟨id, hid⟩ := Option.isSome_iff_exists.1 hk.jobID
  obtain ⟨issued, hi⟩ := Option.isSome_iff_exists.1 hk.issuedAt
  intro e he _
  cases hd : st.job.dueAt with
  | some due =>
    simp only [carriedExpectation, hid, hi, hd, Option.some.injEq] at he
    rw [hi, ← he]
  | none =>
    simp only [carriedExpectation, hd] at he
    simp only [keepsMint, hok, hd, he] at hkeeps
    simpa using hkeeps

theorem decidePlain_decides (s : System) (cfg : Settings) (t : Tick) (m : Monitor)
    (e : PlainAnswer) (mints : Prop) : Decides s t.pending mints (s.decidePlain cfg t m e) := by
  unfold decidePlain
  split
  · exact .quiet t rfl rfl rfl rfl
  split
  · exact .quiet t rfl rfl rfl rfl
  · split
    · exact .quiet _ rfl rfl rfl rfl
    · exact .dispatched t m _ _ _ _ _ rfl rfl (answers_plainJob ..)
        fun _ => mintsAlike_plainJob _ _ _

theorem Tick.Ok.decidePlain (h : t.Ok s.leader.deferredDispatch [m.id]) (cfg : Settings)
    (e : System.PlainAnswer) : ∃ t', (s.decidePlain cfg t m e).leader.phase = .deciding t' ∧
      t'.Ok s.leader.deferredDispatch [] := by
  unfold System.decidePlain
  split
  · exact ⟨t, rfl, h.drop⟩
  split
  · exact ⟨t, rfl, h.drop⟩
  rename_i hheld
  have hm : some m.id ∉ s.leader.deferredDispatch.map owner := by
    intro hmem
    obtain ⟨pd, hpd, hid⟩ := mem_map.1 hmem
    apply hheld
    exact any_eq_true.2 ⟨pd, hpd, by simpa [owner] using hid⟩
  split
  · exact ⟨_, rfl, h.nominate hm⟩
  · exact h.dispatch hm ..

theorem materialize_decides (s : System) (t : Tick) (region : Region)
    (read : Option MaterializeRead) (mints : Prop) :
    Decides s t.pending mints (s.materialize t region read) := by
  cases read with
  | none =>
    let batch := (t.nominated.filter fun m => m.region = region).take 64
    obtain ⟨hm, hd, hp, -⟩ := foldl_backOff [] .credentialUnresolved batch
      (s.leader, { t with nominated := t.nominated.filter fun m => m ∉ batch })
    refine .quiet _ ?_ rfl rfl hp
    simp only [System.frame, materialize, Frame.mk.injEq, true_and]
    exact ⟨hm, hd⟩
  | some read => exact .quiet _ rfl rfl rfl rfl

theorem keyed_materialize {l : LedgerTables} {nextJob : JobID} {read : MaterializeRead}
    {ids : List MonitorID} (h : item ∈ materializeExecutionConfigs l nextJob at' read ids) :
    item.Keyed := by
  obtain ⟨⟨id, job⟩, -, rfl⟩ := mem_map.1 h
  intro st hst
  dsimp only at hst ⊢
  split at hst
  · cases hst
  rename_i m hm
  have hid : m.id = id := Table.key_of_get hm
  unfold materializeRow at hst
  split at hst
  · cases hst
  dsimp only at hst
  split at hst
  · cases hst
  cases hst
  refine ⟨?_, rfl, rfl, ?_⟩
  · split <;> exact hid
  · simp only [stampJob, withCarrier]
    split
    · next hc => exact fun _ _ => by simp [canaryRunKeyAt, Int.not_le.2 hc.2]
    · next hc => exact fun htype hpos => absurd ⟨htype, hpos⟩ hc

theorem ids_materialize (l : LedgerTables) (nextJob : JobID) (at' : Int) (read : MaterializeRead)
    (ids : List MonitorID) : (materializeExecutionConfigs l nextJob at' read ids).map monitorID =
      ids := by
  rw [materializeExecutionConfigs, map_map]
  refine (map_congr_left fun x _ => ?_).trans (zipIdx_map_fst nextJob ids)
  dsimp only [Function.comp_apply]
  split <;> rfl

theorem Tick.Ok.materialize (h : t.Ok s.leader.deferredDispatch []) (hitems : t.items.isEmpty)
    (region : Region) (read : Option MaterializeRead) :
    ∃ t', (s.materialize t region read).leader.phase = .deciding t' ∧
      t'.Ok s.leader.deferredDispatch [] := by
  let batch := (t.nominated.filter fun m => m.region = region).take 64
  have hsub : batch.Sublist t.nominated := (take_sublist ..).trans filter_sublist
  obtain ⟨hok, hfresh⟩ := h.batch hsub
  cases read with
  | none =>
    obtain ⟨-, -, -, hfold⟩ := foldl_backOff s.leader.deferredDispatch .credentialUnresolved batch
      (s.leader, { t with nominated := t.nominated.filter fun m => m ∉ batch })
    exact ⟨_, rfl, hfold hok hfresh⟩
  | some read =>
    have hnil : t.items = [] := isEmpty_iff.1 hitems
    have hids := ids_materialize s.ledger s.nextJob s.clock read (batch.map Monitor.id)
    let t' : Tick := { t with
      nominated := t.nominated.filter fun m => m ∉ batch
      items := materializeExecutionConfigs s.ledger s.nextJob s.clock read
        (batch.map Monitor.id) }
    refine ⟨t', rfl, ⟨?_, ?_, fun item hitem => keyed_materialize hitem⟩⟩
    · have hwf := hok.wf
      have hperm : ([] ++ t'.todo).Perm (batch.map Monitor.id ++ todo
          { t with nominated := t.nominated.filter fun m => m ∉ batch }) := by
        simp only [todo, t', hids, hnil, map_nil, append_nil, nil_append]
        rw [← append_assoc]
        exact perm_append_comm
      have := hwf.perm hperm
      exact ⟨this.nodup, this.pending, this.advances, this.submitted⟩
    · intro id hid
      rcases mem_append.1 hid with hid | hid
      · exact hok.fresh id (mem_append_left _ hid)
      · rw [hids] at hid
        obtain ⟨m, hm, rfl⟩ := mem_map.1 hid
        exact hfresh m hm

theorem decideCredentialed_decides (s : System) (t : Tick) (hkeyed : item.Keyed)
    (e : CredentialAnswer) :
    Decides s t.pending (keepsMint t item) (s.decideCredentialed t item e) := by
  unfold decideCredentialed
  split
  · exact .quiet t rfl rfl rfl rfl
  · split
    · exact .quiet t rfl rfl rfl rfl
    · exact .quiet _ rfl rfl rfl (pending_recordSkip ..)
  · next job carrier hok =>
    split
    · exact .quiet _ rfl rfl rfl (pending_recordSkip ..)
    · exact .dispatched t _ _ _ _ _ _ rfl rfl (answers_carried hkeyed hok t)
        fun hkeeps => mintsAlike_carried hkeyed hok hkeeps

theorem Tick.Ok.decideCredentialed (h : t.Ok s.leader.deferredDispatch [item.monitorID])
    (hm : some item.monitorID ∉ s.leader.deferredDispatch.map owner)
    (hkeyed : item.Keyed) (e : System.CredentialAnswer) :
    ∃ t', (s.decideCredentialed t item e).leader.phase = .deciding t' ∧
      t'.Ok s.leader.deferredDispatch [] := by
  unfold System.decideCredentialed
  split
  · exact ⟨t, rfl, h.drop⟩
  · split
    · exact ⟨t, rfl, h.drop⟩
    · next snap hsnap =>
      have hid : snap.id = item.monitorID := by simpa using List.find?_some hsnap
      exact ⟨_, rfl, Ok.backOff (hid.symm ▸ h) (hid.symm ▸ hm)⟩
  · next job carrier hok =>
    have hid : job.monitor.id = item.monitorID := (hkeyed _ hok).monitorID
    split
    · exact ⟨_, rfl, Ok.backOff (hid.symm ▸ h) (hid.symm ▸ hm)⟩
    · exact Ok.dispatch (hid.symm ▸ h) (hid.symm ▸ hm) ..

end Deciding

end Cerbix.Scheduler
