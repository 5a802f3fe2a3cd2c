import Cerbix.Alerting.Board

/-!
# What delivery does to the rows

No step of the outbox and its workers touches the announcements themselves. `Delivers`: no event
appears that was not there, and what a worker says it sent was heard. `deliver_spec`: to a latch a
step does nothing, or credits an onset that was heard, or condemns.
-/

namespace Cerbix.Alerting

open Cerbix.Lib Cerbix.Domain List

namespace AlertTables

variable {s s' : AlertTables}

/-- A worker's copy is the row's, and all that was said is in the log. -/
structure Copies (s : AlertTables) : Prop where
  rowID : ∀ r ∈ s.outbox, r.id < s.nextID
  copyID : ∀ d ∈ s.workers, d.id < s.nextID
  rows : ∀ r ∈ s.outbox, ∀ r' ∈ s.outbox, r.id = r'.id → r.alert = r'.alert
  copies : ∀ d ∈ s.workers, ∀ r ∈ s.outbox, r.id = d.id → r.alert = d.alert
  sent : ∀ d ∈ s.workers, ∀ n failed, d.stage = .sent n failed → 0 < n → d.alert ∈ s.heard
  logged : ∀ a ∈ s.outstanding, a ∈ s.log
  heardLogged : ∀ a ∈ s.heard, a ∈ s.log

theorem Copies.congr (h : s.Copies) (ho : s'.outbox = s.outbox) (hw : s'.workers = s.workers)
    (hn : s'.nextID = s.nextID) (hh : s'.heard = s.heard) (hl : s'.log = s.log) : s'.Copies := by
  have hout : s'.outstanding = s.outstanding := by rw [outstanding, ho, hw, outstanding]
  obtain ⟨h₁, h₂, h₃, h₄, h₅, h₆, h₇⟩ := h
  constructor
  all_goals simpa only [ho, hw, hn, hh, hl, hout]

theorem Copies.enqueueOutbox (h : s.Copies) (a : ServiceAlert) (now : Int) :
    (s.enqueueOutbox a now).Copies := by
  have hmem : ∀ r ∈ (s.enqueueOutbox a now).outbox, r ∈ s.outbox ∨ r.id = s.nextID ∧
      r.alert = a := by
    intro r hr
    rcases mem_concat.1 hr with hr | rfl
    · exact .inl hr
    · exact .inr ⟨rfl, rfl⟩
  refine ⟨?_, fun d hd => Nat.lt_succ_of_lt (h.copyID d hd), ?_, ?_, h.sent, ?_,
    fun b hb => mem_append_left _ (h.heardLogged b hb)⟩
  · intro r hr
    rcases hmem r hr with hr | ⟨he, -⟩
    · exact Nat.lt_succ_of_lt (h.rowID r hr)
    · rw [he]
      exact Nat.lt_succ_self _
  · intro r hr r' hr' he
    rcases hmem r hr with hr | ⟨hid, ha⟩ <;> rcases hmem r' hr' with hr' | ⟨hid', ha'⟩
    · exact h.rows r hr r' hr' he
    · have := h.rowID r hr
      omega
    · have := h.rowID r' hr'
      omega
    · rw [ha, ha']
  · intro d hd r hr he
    rcases hmem r hr with hr | ⟨hid, -⟩
    · exact h.copies d hd r hr he
    · have := h.copyID d hd
      omega
  · intro b hb
    rcases mem_outstanding_enqueueOutbox.1 hb with rfl | hb
    · exact mem_concat.2 (.inr rfl)
    · exact mem_append_left _ (h.logged b hb)

theorem mem_outstanding {a : ServiceAlert} :
    a ∈ s.outstanding ↔ (∃ r ∈ s.outbox, r.status ≠ .delivered ∧ r.alert = a) ∨
      ∃ d ∈ s.workers, d.alert = a := by
  simp [outstanding, and_assoc]

variable {d : Delivery} {i : Nat}

theorem outstanding_of_worker (hd : d ∈ s.workers) : d.alert ∈ s.outstanding :=
  mem_outstanding.2 (.inr ⟨d, hd, rfl⟩)

theorem outstanding_of_row {r : OutboxEvent} (hr : r ∈ s.outbox) (hs : r.status ≠ .delivered) :
    r.alert ∈ s.outstanding :=
  mem_outstanding.2 (.inl ⟨r, hr, hs, rfl⟩)

/-! ## Steps -/

/-- What a step of delivery leaves alone, and where its events and copies come from. -/
structure Delivers (s s' : AlertTables) : Prop where
  same : s' = { s with
    live := s'.live, latches := s'.latches, outbox := s'.outbox, workers := s'.workers
    nextID := s'.nextID, heard := s'.heard }
  keys : s'.latches.map BurnLatch.key = s.latches.map BurnLatch.key
  state : s'.live.map LiveState.emittedState = s.live.map LiveState.emittedState
  nextID : s.nextID ≤ s'.nextID
  rows : ∀ r ∈ s'.outbox, ∃ r₀ ∈ s.outbox, r₀.id = r.id ∧ r₀.alert = r.alert
  copies : ∀ d ∈ s'.workers, (∃ d₀ ∈ s.workers, d₀.id = d.id ∧ d₀.alert = d.alert) ∨
    ∃ r ∈ s.outbox, r.id = d.id ∧ r.alert = d.alert
  sent : ∀ d ∈ s'.workers, ∀ n failed, d.stage = .sent n failed → 0 < n → d.alert ∈ s'.heard
  left : ∀ a ∈ s'.outstanding, a ∈ s.outstanding
  heard : ∀ a ∈ s.heard, a ∈ s'.heard
  hears : ∀ a ∈ s'.heard, a ∈ s.heard ∨ a ∈ s.outstanding

namespace Delivers

theorem refl (h : s.Copies) : s.Delivers s where
  same := rfl
  keys := rfl
  state := rfl
  nextID := le_rfl
  rows r hr := ⟨r, hr, rfl, rfl⟩
  copies d hd := .inl ⟨d, hd, rfl, rfl⟩
  sent := h.sent
  left _ ha := ha
  heard _ ha := ha
  hears _ ha := .inl ha

theorem trans {s'' : AlertTables} (h : s.Delivers s') (h' : s'.Delivers s'') : s.Delivers s'' where
  same := by
    have := h'.same
    rw [h.same] at this
    exact this
  keys := h'.keys.trans h.keys
  state := h'.state.trans h.state
  nextID := h.nextID.trans h'.nextID
  rows r hr := by
    obtain ⟨r₁, hr₁, hid₁, ha₁⟩ := h'.rows r hr
    obtain ⟨r₀, hr₀, hid₀, ha₀⟩ := h.rows r₁ hr₁
    exact ⟨r₀, hr₀, hid₀.trans hid₁, ha₀.trans ha₁⟩
  copies d hd := by
    rcases h'.copies d hd with ⟨d₁, hd₁, hid₁, ha₁⟩ | ⟨r₁, hr₁, hid₁, ha₁⟩
    · rcases h.copies d₁ hd₁ with ⟨d₀, hd₀, hid₀, ha₀⟩ | ⟨r₀, hr₀, hid₀, ha₀⟩
      · exact .inl ⟨d₀, hd₀, hid₀.trans hid₁, ha₀.trans ha₁⟩
      · exact .inr ⟨r₀, hr₀, hid₀.trans hid₁, ha₀.trans ha₁⟩
    · obtain ⟨r₀, hr₀, hid₀, ha₀⟩ := h.rows r₁ hr₁
      exact .inr ⟨r₀, hr₀, hid₀.trans hid₁, ha₀.trans ha₁⟩
  sent := h'.sent
  left a ha := h.left a (h'.left a ha)
  heard a ha := h'.heard a (h.heard a ha)
  hears a ha := by
    rcases h'.hears a ha with ha | ha
    · exact h.hears a ha
    · exact .inr (h.left a ha)

theorem toCopies (h : s.Copies) (hd : s.Delivers s') : s'.Copies where
  rowID r hr := by
    obtain ⟨r₀, hr₀, hid, -⟩ := hd.rows r hr
    exact hid ▸ (h.rowID r₀ hr₀).trans_le hd.nextID
  copyID d hd' := by
    rcases hd.copies d hd' with ⟨d₀, hd₀, hid, -⟩ | ⟨r₀, hr₀, hid, -⟩
    · exact hid ▸ (h.copyID d₀ hd₀).trans_le hd.nextID
    · exact hid ▸ (h.rowID r₀ hr₀).trans_le hd.nextID
  rows r hr r' hr' he := by
    obtain ⟨r₀, hr₀, hid, ha⟩ := hd.rows r hr
    obtain ⟨r₁, hr₁, hid₁, ha₁⟩ := hd.rows r' hr'
    rw [← ha, ← ha₁]
    exact h.rows r₀ hr₀ r₁ hr₁ (by rw [hid, hid₁, he])
  copies d hd' r hr he := by
    obtain ⟨r₀, hr₀, hid, ha⟩ := hd.rows r hr
    rw [← ha]
    rcases hd.copies d hd' with ⟨d₀, hd₀, hid₁, ha₁⟩ | ⟨r₁, hr₁, hid₁, ha₁⟩
    · rw [← ha₁]
      exact h.copies d₀ hd₀ r₀ hr₀ (by rw [hid, hid₁, he])
    · rw [← ha₁]
      exact h.rows r₀ hr₀ r₁ hr₁ (by rw [hid, hid₁, he])
  sent := hd.sent
  logged a ha := by
    rw [hd.same]
    exact h.logged a (hd.left a ha)
  heardLogged a ha := by
    rw [hd.same]
    rcases hd.hears a ha with ha | ha
    · exact h.heardLogged a ha
    · exact h.logged a ha

end Delivers

section Pieces

variable (h : s.Copies)

include h

theorem delivers_modifyLatch (k : AlertKey) (f : Latch → Latch) :
    s.Delivers (s.modifyLatch k f) := by
  have hcopies := Delivers.refl h
  cases k with
  | health =>
    refine ⟨rfl, rfl, ?_, le_rfl, hcopies.rows, hcopies.copies, h.sent, hcopies.left, hcopies.heard,
      hcopies.hears⟩
    simp [modifyLatch, Function.comp_def]
  | burn i rule =>
    refine ⟨rfl, ?_, rfl, le_rfl, hcopies.rows, hcopies.copies, h.sent, hcopies.left, hcopies.heard,
      hcopies.hears⟩
    rw [modifyLatch, map_map]
    refine map_congr_left fun l _ => ?_
    rw [Function.comp_apply]
    split <;> rfl

theorem delivers_setStage {i : Nat} {d : Delivery} (stage : Stage) (hd : s.workers[i]? = some d)
    (hsent : ∀ n failed, stage = .sent n failed → 0 < n → d.alert ∈ s.heard) :
    s.Delivers (s.setStage i d stage) := by
  have hmem := mem_of_getElem? hd
  have hcases : ∀ d' ∈ (s.setStage i d stage).workers, d' ∈ s.workers ∨ d' = { d with stage } :=
    fun d' hd' => mem_or_eq_of_mem_set hd'
  refine ⟨rfl, rfl, rfl, le_rfl, fun r hr => ⟨r, hr, rfl, rfl⟩, fun d' hd' => ?_,
    fun d' hd' n failed he hn => ?_, fun a ha => ?_, fun _ ha => ha,
    fun _ ha => .inl ha⟩
  · rcases hcases d' hd' with hd' | rfl
    · exact .inl ⟨d', hd', rfl, rfl⟩
    · exact .inl ⟨d, hmem, rfl, rfl⟩
  · rcases hcases d' hd' with hd' | rfl
    · exact h.sent d' hd' n failed he hn
    · exact hsent n failed he hn
  · rcases mem_outstanding.1 ha with ⟨r, hr, hs, rfl⟩ | ⟨d', hd', rfl⟩
    · exact outstanding_of_row hr hs
    · rcases hcases d' hd' with hd' | rfl
      · exact outstanding_of_worker hd'
      · exact (outstanding_of_worker hmem : d.alert ∈ s.outstanding)

theorem delivers_dropWorker (i : Nat) : s.Delivers (s.dropWorker i) := by
  have hmem : ∀ d ∈ (s.dropWorker i).workers, d ∈ s.workers := fun d hd =>
    mem_of_mem_eraseIdx hd
  refine ⟨rfl, rfl, rfl, le_rfl, fun r hr => ⟨r, hr, rfl, rfl⟩,
    fun d hd => .inl ⟨d, hmem d hd, rfl, rfl⟩, fun d hd => h.sent d (hmem d hd), fun a ha => ?_,
    fun _ ha => ha, fun _ ha => .inl ha⟩
  rcases mem_outstanding.1 ha with ⟨r, hr, hs, rfl⟩ | ⟨d, hd, rfl⟩
  · exact outstanding_of_row hr hs
  · exact outstanding_of_worker (hmem d hd)

variable {f : OutboxEvent → OutboxEvent}

theorem delivers_rewrite (hid : ∀ r, (f r).id = r.id) (halert : ∀ r, (f r).alert = r.alert)
    (hleft : ∀ r ∈ s.outbox, (f r).status ≠ .delivered → r.alert ∈ s.outstanding) :
    s.Delivers { s with outbox := s.outbox.map f } := by
  refine ⟨rfl, rfl, rfl, le_rfl, fun r hr => ?_, fun d hd => .inl ⟨d, hd, rfl, rfl⟩, h.sent,
    fun a ha => ?_, fun _ ha => ha, fun _ ha => .inl ha⟩
  · obtain ⟨r₀, hr₀, rfl⟩ := mem_map.1 hr
    exact ⟨r₀, hr₀, (hid r₀).symm, (halert r₀).symm⟩
  · rcases mem_outstanding.1 ha with ⟨r, hr, hs, rfl⟩ | ⟨d, hd, rfl⟩
    · obtain ⟨r₀, hr₀, rfl⟩ := mem_map.1 hr
      rw [halert]
      exact hleft r₀ hr₀ hs
    · exact outstanding_of_worker hd

theorem delivers_hear (more : List ServiceAlert) (hmore : ∀ a ∈ more, a ∈ s.outstanding) :
    s.Delivers { s with heard := s.heard ++ more } :=
  ⟨rfl, rfl, rfl, le_rfl, fun r hr => ⟨r, hr, rfl, rfl⟩, fun d hd => .inl ⟨d, hd, rfl, rfl⟩,
    fun d hd n failed he hn => mem_append_left _ (h.sent d hd n failed he hn),
    fun _ ha => ha, fun _ ha => mem_append_left _ ha, fun a ha =>
      (mem_append.1 ha).imp id (hmore a)⟩

theorem delivers_updateClaimed (id token : Nat)
    (hid : ∀ r, (f r).id = r.id) (halert : ∀ r, (f r).alert = r.alert)
    (hleft : ∀ r ∈ s.outbox, r.id = id → (f r).status ≠ .delivered → r.alert ∈ s.outstanding) :
    s.Delivers (s.updateClaimed id token f) := by
  refine delivers_rewrite h (fun r => ?_) (fun r => ?_) fun r hr hs => ?_
  · split <;> simp [hid]
  · split <;> simp [halert]
  · split at hs
    · next hclaim => exact hleft r hr hclaim.1 hs
    · exact outstanding_of_row hr hs

end Pieces

/-! ## The steps of delivery -/

/-- What a step of delivery does to the latches: nothing, or it credits or condemns the onset a
worker holds. -/
inductive Marks (s s' : AlertTables) : Prop
  | none (hl : s'.latch = s.latch)
  | credit (d : Delivery) (hd : d ∈ s.workers) (hf : d.alert.firing) (hheard : d.alert ∈ s.heard)
      (hl : s'.latch = (s.modifyLatch d.alert.key (·.credit d.alert.seq)).latch)
  | condemn (d : Delivery) (hd : d ∈ s.workers) (hf : d.alert.firing)
      (hl : s'.latch = (s.modifyLatch d.alert.key (·.condemn d.alert.seq)).latch)

variable (h : s.Copies)

include h

variable {now : Int} {recorded : Bool}

theorem claimDueOutbox_spec {id : Nat} (hs : s.claimDueOutbox id now = some s') :
    s.Delivers s' ∧ s.Marks s' := by
  unfold claimDueOutbox at hs
  split at hs
  · cases hs
  rename_i r hfind
  cases hs
  have hr := mem_of_find?_eq_some hfind
  have hstatus : r.status = .pending := by
    have := List.find?_some hfind
    simp only [Bool.and_eq_true, decide_eq_true_eq] at this
    exact this.1.2
  refine ⟨⟨rfl, rfl, rfl, Nat.le_succ _, fun r' hr' => ?_, fun d hd => ?_,
    fun d hd n failed he hn => ?_, fun a ha => ?_, fun _ ha => ha, fun _ ha => .inl ha⟩, .none rfl⟩
  · obtain ⟨r₀, hr₀, rfl⟩ := mem_map.1 hr'
    exact ⟨r₀, hr₀, by split <;> rfl, by split <;> rfl⟩
  · rcases mem_concat.1 hd with hd | rfl
    · exact .inl ⟨d, hd, rfl, rfl⟩
    · exact .inr ⟨r, hr, rfl, rfl⟩
  · rcases mem_concat.1 hd with hd | rfl
    · exact h.sent d hd n failed he hn
    · cases he
  · rcases mem_outstanding.1 ha with ⟨r', hr', hs, rfl⟩ | ⟨d, hd, rfl⟩
    · obtain ⟨r₀, hr₀, rfl⟩ := mem_map.1 hr'
      rw [show (if r₀.id = id then _ else r₀).alert = r₀.alert by split <;> rfl]
      refine outstanding_of_row hr₀ fun hdel => hs ?_
      split <;> exact hdel
    · rcases mem_concat.1 hd with hd | rfl
      · exact outstanding_of_worker hd
      · exact outstanding_of_row hr (by simp [hstatus])

theorem releaseOutboxClaim_spec (hs : s.releaseOutboxClaim i now = some s') :
    s.Delivers s' ∧ s.Marks s' := by
  unfold releaseOutboxClaim at hs
  split at hs
  · next d hd =>
    split at hs
    · cases hs
      have hu := delivers_updateClaimed h d.id d.claimToken
        (f := fun r => if r.status = .pending then
          { r with
            attempts := r.attempts - 1, nextAttemptAt := now, claimToken := none, updatedAt := now }
        else r) (fun r => by split <;> rfl) (fun r => by split <;> rfl) fun r hr _ hst => by
          refine outstanding_of_row hr fun hdel => hst ?_
          simp [hdel]
      exact ⟨hu.trans (delivers_dropWorker (hu.toCopies h) i), .none rfl⟩
    · cases hs
  · cases hs

theorem gate_spec {silenced configured : Bool}
    (hs : s.gate i silenced configured = some s') : s.Delivers s' ∧ s.Marks s' := by
  unfold gate at hs
  split at hs
  · next d hd =>
    have hset : ∀ stage, (∀ n failed, stage ≠ .sent n failed) →
        some (s.setStage i d stage) = some s' →
        s.Delivers s' ∧ s.Marks s' := by
      intro stage hstage he
      cases he
      exact ⟨delivers_setStage h stage hd fun n failed he => absurd he (hstage n failed), .none rfl⟩
    split at hs
    · cases hs
    split at hs
    · exact hset _ (fun _ _ he => by cases he) hs
    split at hs
    · exact hset _ (fun _ _ he => by cases he) hs
    · split at hs
      · exact hset _ (fun _ _ he => by cases he) hs
      · split at hs
        · exact hset _ (fun _ _ he => by cases he) hs
        · exact hset _ (fun _ _ he => by cases he) hs
  · cases hs

theorem send_spec {res : ChannelDelivery} {failed : Bool}
    (hs : s.send i res failed = some s') : s.Delivers s' ∧ s.Marks s' := by
  unfold send at hs
  split at hs
  · next d hd =>
    split at hs
    · simp only [Option.some.injEq] at hs
      subst hs
      have hhear := delivers_hear h (if 0 < res.delivered then [d.alert] else []) fun a ha => by
        split at ha
        · rw [mem_singleton.1 ha]
          exact outstanding_of_worker (mem_of_getElem? hd)
        · cases ha
      refine ⟨?_, .none rfl⟩
      have hset := delivers_setStage (hhear.toCopies h)
        (if !failed && res.resolved = 0 then .unreached else .sent res.delivered failed) hd
          (fun n failed' he hn => by
          split at he
          · cases he
          · cases he
            simp [hn])
      have hsame := hhear.trans hset
      by_cases hpos : 0 < res.delivered
      · simpa [setStage, hpos] using hsame
      · simpa [setStage, hpos] using hsame
    · cases hs
  · cases hs

omit h in
theorem modifyLatch_workers (k : AlertKey) (f : Latch → Latch) :
    (s.modifyLatch k f).workers = s.workers := by
  cases k <;> rfl

theorem markServiceAlertUndeliverable_spec (hd : d ∈ s.workers) :
    (s.Delivers (s.markServiceAlertUndeliverable d.alert) ∧
      s.Marks (s.markServiceAlertUndeliverable d.alert)) ∧
      (s.markServiceAlertUndeliverable d.alert).workers = s.workers := by
  unfold markServiceAlertUndeliverable
  split
  · next hf =>
    exact ⟨⟨delivers_modifyLatch h _ _, .condemn d hd hf rfl⟩, modifyLatch_workers _ _⟩
  · exact ⟨⟨.refl h, .none rfl⟩, rfl⟩

theorem markServiceAlertDelivered_spec (hd : d ∈ s.workers) (hheard : d.alert ∈ s.heard) :
    (s.Delivers (s.markServiceAlertDelivered d.alert) ∧
      s.Marks (s.markServiceAlertDelivered d.alert)) ∧
      (s.markServiceAlertDelivered d.alert).workers = s.workers := by
  unfold markServiceAlertDelivered
  split
  · next hf =>
    exact ⟨⟨delivers_modifyLatch h _ _, .credit d hd hf hheard rfl⟩, modifyLatch_workers _ _⟩
  · exact ⟨⟨.refl h, .none rfl⟩, rfl⟩

omit h in
theorem Marks.congr {t : AlertTables} (hm : s.Marks t) (hl : s'.latch = t.latch) : s.Marks s' := by
  cases hm with
  | none hl' => exact .none (hl.trans hl')
  | credit d hd hf hheard hl' => exact .credit d hd hf hheard (hl.trans hl')
  | condemn d hd hf hl' => exact .condemn d hd hf (hl.trans hl')

theorem record_spec (hs : s.record i recorded = some s') : s.Delivers s' ∧ s.Marks s' := by
  unfold record at hs
  split at hs
  · next d hd =>
    have hmem := mem_of_getElem? hd
    -- the mark, if it is written, and then the worker goes on to the row
    have hthen : ∀ {t : AlertTables} {failed : Bool}, (s.Delivers t ∧ s.Marks t) ∧
        t.workers = s.workers → s.Delivers (t.setStage i d (.settling failed)) ∧
          s.Marks (t.setStage i d (.settling failed)) := by
      rintro t failed ⟨⟨ht, hm⟩, hw⟩
      have hset := delivers_setStage (ht.toCopies h) (.settling failed) (i := i) (d := d)
        (by rw [hw, hd]) fun n failed' he => by cases he
      exact ⟨ht.trans hset, hm.congr rfl⟩
    split at hs
    · cases hs
      split
      · exact hthen (markServiceAlertUndeliverable_spec h hmem)
      · exact hthen ⟨⟨.refl h, .none rfl⟩, rfl⟩
    · next delivered failed hstage =>
      cases hs
      split
      · next hboth =>
        simp only [Bool.and_eq_true, decide_eq_true_eq] at hboth
        exact hthen (markServiceAlertDelivered_spec h hmem
          (h.sent d hmem delivered failed hstage hboth.1))
      · exact hthen ⟨⟨.refl h, .none rfl⟩, rfl⟩
    · cases hs
  · cases hs

theorem settle_spec (hs : s.settle i now = some s') : s.Delivers s' ∧ s.Marks s' := by
  unfold settle at hs
  split at hs
  · next d hd =>
    have hmem := mem_of_getElem? hd
    split at hs
    · cases hs
      have hu := delivers_updateClaimed h d.id d.claimToken
        (f := fun r => { r with status := .delivered, updatedAt := now }) (fun _ => rfl)
        (fun _ => rfl) fun _ _ _ hst => absurd rfl hst
      exact ⟨hu.trans (delivers_dropWorker (hu.toCopies h) i), .none rfl⟩
    · -- the row may come back, and the worker still holds it
      have hu := delivers_updateClaimed h d.id d.claimToken
        (f := fun r => { r with
          status := if maxAttempts ≤ r.attempts then .dead else .pending, updatedAt := now })
        (fun _ => rfl) (fun _ => rfl) fun r hr hid _ => by
          rw [h.copies d hmem r hr hid]
          exact outstanding_of_worker hmem
      split at hs
      · cases hs
        have hset := delivers_setStage (hu.toCopies h) .dying (i := i) (d := d) hd
          fun n failed he => by cases he
        exact ⟨hu.trans hset, .none rfl⟩
      · cases hs
        exact ⟨hu.trans (delivers_dropWorker (hu.toCopies h) i), .none rfl⟩
    · cases hs
  · cases hs

theorem condemnDead_spec (hs : s.condemnDead i recorded = some s') :
    s.Delivers s' ∧ s.Marks s' := by
  unfold condemnDead at hs
  split at hs
  · next d hd =>
    have hmem := mem_of_getElem? hd
    split at hs
    · cases hs
      split
      · obtain ⟨⟨ht, hm⟩, -⟩ := markServiceAlertUndeliverable_spec h hmem
        exact ⟨ht.trans (delivers_dropWorker (ht.toCopies h) i), hm.congr rfl⟩
      · exact ⟨delivers_dropWorker h i, .none rfl⟩
    · cases hs
  · cases hs

theorem purgeDeliveredOutbox_spec (before : Int) : s.Delivers (s.purgeDeliveredOutbox before) := by
  have hmem : ∀ r ∈ (s.purgeDeliveredOutbox before).outbox, r ∈ s.outbox := fun r hr =>
    (mem_filter.1 hr).1
  refine ⟨rfl, rfl, rfl, le_rfl, fun r hr => ⟨r, hmem r hr, rfl, rfl⟩,
    fun d hd => .inl ⟨d, hd, rfl, rfl⟩, h.sent, fun a ha => ?_, fun _ ha => ha,
    fun _ ha => .inl ha⟩
  rcases mem_outstanding.1 ha with ⟨r, hr, hst, rfl⟩ | ⟨d, hd, rfl⟩
  · exact outstanding_of_row (hmem r hr) hst
  · exact outstanding_of_worker hd

theorem replayDeadOutbox_spec (id : Nat) (now : Int) : s.Delivers (s.replayDeadOutbox id now) := by
  refine delivers_rewrite h (fun r => by split <;> rfl) (fun r => by split <;> rfl)
    fun r hr hst => ?_
  refine outstanding_of_row hr fun hdel => hst ?_
  simp [hdel]

theorem deliver_spec {op : DeliveryOp} (hs : s.deliver op = some s') :
    s.Delivers s' ∧ s.Marks s' := by
  cases op with
  | claim id now => exact claimDueOutbox_spec h hs
  | release i now => exact releaseOutboxClaim_spec h hs
  | gate i silenced configured => exact gate_spec h hs
  | send i res failed => exact send_spec h hs
  | record i recorded => exact record_spec h hs
  | settle i now => exact settle_spec h hs
  | condemnDead i recorded => exact condemnDead_spec h hs
  | crash i =>
    simp only [deliver, crash] at hs
    split at hs
    · cases hs
      exact ⟨delivers_dropWorker h i, .none rfl⟩
    · cases hs
  | replay id now =>
    cases hs
    exact ⟨replayDeadOutbox_spec h id now, .none rfl⟩
  | purge before =>
    cases hs
    exact ⟨purgeDeliveredOutbox_spec h before, .none rfl⟩

omit h

theorem Delivers.report (hd : s.Delivers s') (hm : s.Marks s') : Board.Report s.board s'.board := by
  have hleft : s'.board.onsets ⊆ s.board.onsets := by
    rintro o ⟨a, ha, h⟩
    exact ⟨a, hd.left a ha, h⟩
  have hcur : s'.board.current = s.board.current := by rw [hd.same]; rfl
  have hlog : s'.board.log = s.board.log := by rw [hd.same]; rfl
  have hheard : s'.board.heard = s.board.heard ∪ s'.board.heard := by
    refine (Set.union_eq_right.2 ?_).symm
    rintro x ⟨a, ha, h⟩
    exact ⟨a, hd.heard a ha, h⟩
  cases hm with
  | none hl =>
    have hboard : s'.board = (s.board.forget s'.board.onsets).hear s'.board.heard :=
      Board.ext hl hcur hlog rfl hheard
    rw [hboard]
    exact .world hleft
  | credit d hworker hf hsent hl =>
    have hboard : s'.board = ((s.board.modify d.alert.key (·.credit d.alert.seq)).forget
        s'.board.onsets).hear s'.board.heard := by
      refine Board.ext ?_ hcur hlog rfl hheard
      rw [← board_modifyLatch]
      exact hl
    rw [hboard]
    exact .credit (o := d.alert.onset) ⟨_, outstanding_of_worker hworker, hf, rfl⟩
      ⟨_, hsent, hf, rfl⟩ hleft
  | condemn d hworker hf hl =>
    have hboard : s'.board = ((s.board.modify d.alert.key (·.condemn d.alert.seq)).forget
        s'.board.onsets).hear s'.board.heard := by
      refine Board.ext ?_ hcur hlog rfl hheard
      rw [← board_modifyLatch]
      exact hl
    rw [hboard]
    exact .condemn _ _ hleft

end AlertTables

end Cerbix.Alerting
