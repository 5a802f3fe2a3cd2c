import Cerbix.Alerting.Reannounce
import Cerbix.Alerting.Suppression

/-!
# What was heard is not announced again

That an announcement reached somebody and that it is condemned are two numbers of the latch, written
by workers that do not wait for each other. The deciding pass reads only the condemnation, and a
credit does not take it back: `racedRun_notHeardOnce`. `heardOnce_of_reach` proves `HeardOnce` for
every run in which the store's writes succeed and the two do not race (`unraced`).
-/

namespace Cerbix.Alerting

open Cerbix.Lib Cerbix.Domain Option

def Stage.reached : Stage → Bool
  | .sent delivered _ => 0 < delivered
  | _ => false

variable (s : AlertTables)

namespace AlertTables

/-- An announcement that was heard is not made again; one that nobody heard and that is condemned
is. -/
structure HeardOnce (s : AlertTables) : Prop where
  live : ∀ e s' ep, s.evaluateServiceAlerts e = .ok s' → s.openEpisode .health = some ep →
    s.Announced .health → (∀ p, e.projection = some p → ep.state = some (alertStateOf p)) →
    ∀ a ∈ s.enqueued s', a.key = .health → a.firing = false
  burn : ∀ e s' i rule, s.evaluateServiceBurnAlerts e = .ok s' → s.Announced (.burn i rule) →
    BurnStays e i rule → ∀ a ∈ s.enqueued s', a.key = .burn i rule → a.firing = false
  /-- The condemnation of an onset nobody heard takes effect. -/
  condemns : ∀ d ∈ s.workers, d.alert.firing → ∀ ep, s.openEpisode d.alert.key = some ep →
    d.alert.episodeID = some ep.id → ¬ s.Announced d.alert.key →
    (s.markServiceAlertUndeliverable d.alert).Condemned d.alert.key
  liveAgain : ∀ e s' ep p route, s.evaluateServiceAlerts e = .ok s' →
    s.openEpisode .health = some ep → s.Condemned .health → e.projection = some p →
    ep.state = some (alertStateOf p) → e.revision ≠ none →
    resolveServiceRecipients e.routing = .ok route → route ≠ [] →
    ∃ a ∈ s.enqueued s', Announces .health route a
  burnAgain : ∀ e s' i rule ep t route, s.evaluateServiceBurnAlerts e = .ok s' →
    s.openEpisode (.burn i rule) = some ep → s.Condemned (.burn i rule) → e.hasSealed →
    i ∈ e.slice → s.targets[i]? = some t → rule ∈ burnRuleKeys t.rules → BurnStays e i rule →
    resolveServiceRecipients e.routing = .ok route → route ≠ [] →
    ∃ a ∈ s.enqueued s', Announces (.burn i rule) route a

/-- A worker has reached somebody with this onset and has not recorded it. -/
def CreditPending (k : AlertKey) (seq : Nat) : Prop :=
  ∃ d ∈ s.workers, d.stage.reached ∧ d.alert.firing ∧ d.alert.key = k ∧ d.alert.seq = seq

instance (s : AlertTables) (k : AlertKey) (seq : Nat) : Decidable (s.CreditPending k seq) :=
  inferInstanceAs (Decidable (∃ d ∈ s.workers, _))

instance (s : AlertTables) (k : AlertKey) : Decidable (s.Condemned k) :=
  inferInstanceAs (Decidable (_ = _))

/-- Every write of the store succeeds: what a worker has to record is stored, and none dies between
a delivery and its record. -/
def writesSucceed : AlertOp → Prop
  | .deliver (.record _ recorded) => recorded
  | .deliver (.condemnDead _ recorded) => recorded
  | .deliver (.crash i) => ∀ d ∈ s.workers[i]?, d.stage.reached = false
  | _ => True

/-- An onset reaches nobody once it is condemned, and is not condemned while a worker has yet to
record that it was heard. -/
def unraced : AlertOp → Prop
  | .deliver (.send i res _) => ∀ d ∈ s.workers[i]?, 0 < res.delivered → d.alert.firing →
      (s.latchAt d.alert.key).emittedSeq = d.alert.seq → ¬ s.Condemned d.alert.key
  | .deliver (.record i _) => ∀ d ∈ s.workers[i]?, d.stage = .unreached → d.alert.firing →
      ¬ s.CreditPending d.alert.key d.alert.seq
  | .deliver (.condemnDead i _) => ∀ d ∈ s.workers[i]?, d.alert.firing →
      ¬ s.CreditPending d.alert.key d.alert.seq
  | _ => True

instance (s : AlertTables) (op : AlertOp) : Decidable (s.writesSucceed op) := by
  unfold writesSucceed
  split <;> infer_instance

instance (s : AlertTables) (op : AlertOp) : Decidable (s.unraced op) := by
  unfold unraced
  split <;> infer_instance

def fair (op : AlertOp) : Prop :=
  s.writesSucceed op ∧ s.unraced op ∧ s.settled op

instance (s : AlertTables) (op : AlertOp) : Decidable (s.fair op) :=
  inferInstanceAs (Decidable (_ ∧ _))

variable {s s' : AlertTables} {k : AlertKey} {ep : Episode}

theorem Filed.unique (h : Filed s.episodes s.log) {ep' : Episode} (hep : ep ∈ s.episodes)
    (hep' : ep' ∈ s.episodes) (hid : ep.id = ep'.id) : ep = ep' := by
  obtain ⟨i, hi⟩ := List.getElem?_of_mem hep
  obtain ⟨j, hj⟩ := List.getElem?_of_mem hep'
  have hij : i = j := by rw [← h.ids i ep hi, hid, h.ids j ep' hj]
  rw [hij] at hi
  exact some.inj (hi.symm.trans hj)

theorem Coherent.onset_of_open (h : s.Coherent) {a : ServiceAlert} (ha : a ∈ s.log) (hf : a.firing)
    (hep : s.openEpisode k = some ep) (hid : a.episodeID = some ep.id) :
    a.key = k ∧ a.announcement = ep.announcement ∧ a.seq = (s.latchAt k).emittedSeq := by
  obtain ⟨ep', hep', hid', hkey, hr, hseq⟩ := h.filed.onsets a ha hf
  obtain ⟨hmem, -, hk⟩ := openEpisode_spec hep
  obtain rfl : ep' = ep := h.filed.unique hep' hmem (some.inj (hid'.symm.trans hid))
  refine ⟨hkey.symm.trans hk, ?_, ?_⟩
  · rw [ServiceAlert.announcement, Episode.announcement, hid, hr]
  · rw [(h.latchAt_of_open hep).2.2, hseq]

theorem Coherent.heard_of_announced (h : s.Coherent) (ha : s.Announced k) :
    ∃ ep, s.openEpisode k = some ep ∧ ep.announcement ∈ s.board.heard := by
  obtain ⟨ep, hep, a, ha, hf, hid⟩ := ha
  have hlog := h.copies.heardLogged a ha
  exact ⟨ep, hep, a, ha, hf, (h.onset_of_open hlog hf hep hid).2.1⟩

theorem Coherent.opened_not_heard (h : s.Coherent) (em : Emission) (recipients : List Nat) :
    (s.opened em recipients).announcement ∉ s.board.heard := by
  rintro ⟨a, ha, hf, he⟩
  obtain ⟨ep, hep, hid, -⟩ := h.filed.onsets a (h.copies.heardLogged a ha) hf
  obtain ⟨i, hi⟩ := List.getElem?_of_mem hep
  have hlt := (List.getElem?_eq_some_iff.1 hi).1
  have hnew : a.episodeID = some s.episodes.length := congrArg Prod.fst he
  rw [hid, h.filed.ids i ep hi, some.injEq] at hnew
  omega

theorem Coherent.carries_evaluated (h : s.Coherent) (he : Evaluated k s s') :
    s.board.Carries s'.board := by
  cases he with
  | quiet hrow =>
    rw [hrow.board]
    exact h.agree.carries_observe k
  | onset em hkey hseq _ hrow =>
    subst hkey
    rw [hrow.board, board_emitOnset, hseq]
    exact Board.carries_raise (h.opened_not_heard em _) em.key
  | close asOf reason state hopen hrow =>
    rw [hrow.board, board_enqueueOutbox, board_closeOpen]
    exact Board.carries_lower k _

theorem Coherent.carries_evaluatedBy {P : AlertKey → Prop} (h : s.Coherent)
    (hP : ∀ k, P k → s.Declares k) (he : EvaluatedBy P s s') : s.board.Carries s'.board := by
  induction he with
  | refl => exact fun _ _ _ hcur hheard => ⟨hcur, hheard, fun _ hl => hl⟩
  | tail hrun hstep ih =>
    obtain ⟨k, -, he⟩ := hstep
    exact ih.trans ((h.evaluatedBy hP hrun).carries_evaluated he)

theorem Ends.carries (h : s.Ends s') : s.board.Carries s'.board := by
  intro k e n hcur hheard
  have hheard' : e ∈ s.board.heard := by
    obtain ⟨a, ha, hrest⟩ := hheard
    exact ⟨a, h.kept.heard ▸ ha, hrest⟩
  rcases h.left k with hnone | ⟨hopen, hl⟩
  · rw [board_current_eq_none hnone] at hcur
    cases hcur
  · exact ⟨by simpa only [board, hopen] using hcur, hheard', fun l hl' => hl.symm.trans hl'⟩

theorem Retired.carries (h : s.Retired s') : s.board.Carries s'.board := by
  obtain ⟨t, gone, ht, -, -, he⟩ := h.board
  rw [he]
  exact ht.carries.trans (Board.carries_discard gone)

/-! ## Delivery -/

/-- What a step of delivery has to say about an onset: nothing, that it was heard, or what a worker
records about it. -/
inductive Told (s s' : AlertTables) : Prop
  | nothing (hl : s'.latch = s.latch) (hheard : s'.heard = s.heard)
      (hp : ∀ k n, s.CreditPending k n → s'.CreditPending k n)
  | hears (d : Delivery) (hd : d ∈ s.workers) (hl : s'.latch = s.latch)
      (hheard : s'.heard = s.heard ++ [d.alert])
      (hp : ∀ k n, s.CreditPending k n → s'.CreditPending k n)
      (hnew : d.alert.firing → s'.CreditPending d.alert.key d.alert.seq)
      (hnot : d.alert.firing → (s.latchAt d.alert.key).emittedSeq = d.alert.seq →
        ¬ s.Condemned d.alert.key)
  | credits (d : Delivery)
    (hl : s'.latch = (s.modifyLatch d.alert.key (·.credit d.alert.seq)).latch)
      (hheard : s'.heard = s.heard)
      (hp : ∀ k n, s.CreditPending k n → s'.CreditPending k n ∨ (k = d.alert.key ∧ n = d.alert.seq))
  | condemns (d : Delivery)
      (hl : s'.latch = (s.modifyLatch d.alert.key (·.condemn d.alert.seq)).latch)
      (hheard : s'.heard = s.heard) (hno : ¬ s.CreditPending d.alert.key d.alert.seq)
      (hp : ∀ k n, s.CreditPending k n → s'.CreditPending k n)

section Told

variable {i : Nat} {d : Delivery} {n : Nat}

theorem CreditPending.congr (h : s.CreditPending k n) (hw : s'.workers = s.workers) :
    s'.CreditPending k n := by
  simpa only [CreditPending, hw] using h

theorem CreditPending.setStage_or (h : s.CreditPending k n) (hd : s.workers[i]? = some d)
    (stage : Stage) : (s.setStage i d stage).CreditPending k n ∨
      (d.stage.reached ∧ d.alert.firing ∧ k = d.alert.key ∧ n = d.alert.seq) := by
  obtain ⟨d', hd', hr, hf, rfl, rfl⟩ := h
  by_cases he : d' = d
  · subst he
    exact .inr ⟨hr, hf, rfl, rfl⟩
  · exact .inl ⟨d', mem_set_of_ne hd hd' he, hr, hf, rfl, rfl⟩

theorem CreditPending.setStage (h : s.CreditPending k n) (hd : s.workers[i]? = some d)
    (hr : d.stage.reached = false) (stage : Stage) : (s.setStage i d stage).CreditPending k n := by
  rcases h.setStage_or hd stage with h | ⟨hr', -⟩
  · exact h
  · simp [hr] at hr'

theorem CreditPending.dropWorker (h : s.CreditPending k n) (hd : s.workers[i]? = some d)
    (hr : d.stage.reached = false) : (s.dropWorker i).CreditPending k n := by
  obtain ⟨d', hd', hr', hrest⟩ := h
  refine ⟨d', mem_eraseIdx_of_ne hd hd' ?_, hr', hrest⟩
  rintro rfl
  simp [hr] at hr'

variable {now : Int}

theorem claimDueOutbox_told {id : Nat} (hs : s.claimDueOutbox id now = some s') : s.Told s' := by
  unfold claimDueOutbox at hs
  split at hs
  · cases hs
  cases hs
  refine .nothing rfl rfl ?_
  rintro k n ⟨d, hd, hrest⟩
  exact ⟨d, List.mem_append_left _ hd, hrest⟩

theorem releaseOutboxClaim_told (hs : s.releaseOutboxClaim i now = some s') : s.Told s' := by
  unfold releaseOutboxClaim at hs
  split at hs
  · next d hd =>
    split at hs
    · next hstage =>
      cases hs
      exact .nothing rfl rfl fun k n hp =>
        (hp.dropWorker hd (by rw [hstage]; rfl)).congr rfl
    · cases hs
  · cases hs

theorem gate_told {silenced configured : Bool} (hs : s.gate i silenced configured = some s') :
    s.Told s' := by
  unfold gate at hs
  split at hs
  · next d hd =>
    split at hs
    · cases hs
    rename_i hstage
    have hset : ∀ stage, some (s.setStage i d stage) = some s' → s.Told s' := by
      intro stage he
      cases he
      refine .nothing rfl rfl fun k n hp => hp.setStage hd ?_ stage
      rw [not_not.1 hstage]
      rfl
    split at hs
    · exact hset _ hs
    split at hs
    · exact hset _ hs
    · split at hs
      · exact hset _ hs
      · split at hs
        · exact hset _ hs
        · exact hset _ hs
  · cases hs

theorem send_told {res : ChannelDelivery} {failed : Bool}
    (hok : s.unraced (.deliver (.send i res failed))) (hs : s.send i res failed = some s') :
    s.Told s' := by
  unfold send at hs
  split at hs
  · next d hd =>
    split at hs
    · next hres =>
      obtain ⟨hstage, hle, -⟩ := hres
      have hp : ∀ (stage : Stage) k n, s.CreditPending k n →
          (s.setStage i d stage).CreditPending k n := fun stage k n hp =>
        hp.setStage hd (by rw [hstage]; rfl) stage
      simp only [some.injEq] at hs
      subst hs
      by_cases hpos : 0 < res.delivered
      · -- somebody was reached, so there was somebody to reach
        have hsome : ¬ (!failed && decide (res.resolved = 0)) = true := by
          simp only [Bool.and_eq_true, decide_eq_true_eq]
          omega
        refine .hears d (List.mem_of_getElem? hd) rfl (by rw [if_pos hpos])
          (fun k n h => (hp _ k n h).congr rfl) (fun hf => ?_) fun hf => hok d hd hpos hf
        rw [if_neg hsome]
        exact ⟨{ d with stage := .sent res.delivered failed },
          List.mem_set (List.getElem?_eq_some_iff.1 hd).1 _, decide_eq_true hpos, hf, rfl, rfl⟩
      · exact .nothing rfl (by rw [if_neg hpos]) fun k n h => (hp _ k n h).congr rfl
    · cases hs
  · cases hs

theorem told_condemn (hno : d.alert.firing → ¬ s.CreditPending d.alert.key d.alert.seq)
    (hl : s'.latch = (s.markServiceAlertUndeliverable d.alert).latch) (hheard : s'.heard = s.heard)
    (hp : ∀ k n, s.CreditPending k n → s'.CreditPending k n) : s.Told s' := by
  unfold markServiceAlertUndeliverable at hl
  split at hl
  · next hf => exact .condemns d hl hheard (hno hf) hp
  · exact .nothing hl hheard hp

theorem markServiceAlertUndeliverable_rest (a : ServiceAlert) :
    (s.markServiceAlertUndeliverable a).workers = s.workers ∧
      (s.markServiceAlertUndeliverable a).heard = s.heard := by
  unfold markServiceAlertUndeliverable modifyLatch
  split
  · split <;> exact ⟨rfl, rfl⟩
  · exact ⟨rfl, rfl⟩

theorem markServiceAlertDelivered_rest (a : ServiceAlert) :
    (s.markServiceAlertDelivered a).workers = s.workers ∧
      (s.markServiceAlertDelivered a).heard = s.heard := by
  unfold markServiceAlertDelivered modifyLatch
  split
  · split <;> exact ⟨rfl, rfl⟩
  · exact ⟨rfl, rfl⟩

theorem record_told {recorded : Bool} (hwrite : s.writesSucceed (.deliver (.record i recorded)))
    (hok : s.unraced (.deliver (.record i recorded))) (hs : s.record i recorded = some s') :
    s.Told s' := by
  obtain rfl : recorded := hwrite
  unfold record at hs
  split at hs
  · next d hd =>
    split at hs
    · next hstage =>
      cases hs
      obtain ⟨hw, hh⟩ := s.markServiceAlertUndeliverable_rest d.alert
      refine told_condemn (hok d hd hstage) rfl hh fun k n hp => ?_
      exact (hp.congr hw).setStage (by rw [hw, hd]) (by rw [hstage]; rfl) _
    · next delivered failed hstage =>
      cases hs
      split
      · next hpos =>
        obtain ⟨hw, hh⟩ := s.markServiceAlertDelivered_rest d.alert
        have hp : ∀ k n, s.CreditPending k n →
            ((s.markServiceAlertDelivered d.alert).setStage i d
              (.settling failed)).CreditPending k n ∨
              (d.stage.reached ∧ d.alert.firing ∧ k = d.alert.key ∧ n = d.alert.seq) :=
          fun k n hp => (hp.congr hw).setStage_or (by rw [hw, hd]) _
        by_cases hf : d.alert.firing
        · refine .credits d ?_ hh fun k n h => (hp k n h).imp id fun h => h.2.2
          rw [markServiceAlertDelivered, if_pos hf]
          rfl
        · refine .nothing ?_ hh fun k n h => (hp k n h).resolve_right fun h => hf h.2.1
          rw [markServiceAlertDelivered, if_neg hf]
          rfl
      · next hzero =>
        refine .nothing rfl rfl fun k n hp => hp.setStage hd ?_ _
        rw [hstage]
        simpa [Stage.reached] using hzero
    · cases hs
  · cases hs

theorem settle_told (hs : s.settle i now = some s') : s.Told s' := by
  unfold settle at hs
  split at hs
  · next d hd =>
    split at hs
    · next hstage =>
      cases hs
      exact .nothing rfl rfl fun k n hp => (hp.dropWorker hd (by rw [hstage]; rfl)).congr rfl
    · next hstage =>
      have hr : d.stage.reached = false := by rw [hstage]; rfl
      split at hs
      · cases hs
        exact .nothing rfl rfl fun k n hp => (hp.setStage hd hr .dying).congr rfl
      · cases hs
        exact .nothing rfl rfl fun k n hp => (hp.dropWorker hd hr).congr rfl
    · cases hs
  · cases hs

theorem condemnDead_told {recorded : Bool}
    (hwrite : s.writesSucceed (.deliver (.condemnDead i recorded)))
    (hok : s.unraced (.deliver (.condemnDead i recorded)))
      (hs : s.condemnDead i recorded = some s') :
    s.Told s' := by
  obtain rfl : recorded := hwrite
  unfold condemnDead at hs
  split at hs
  · next d hd =>
    split at hs
    · next hstage =>
      cases hs
      obtain ⟨hw, hh⟩ := s.markServiceAlertUndeliverable_rest d.alert
      refine told_condemn (hok d hd) rfl hh fun k n hp => ?_
      exact (hp.congr hw).dropWorker (by rw [hw, hd]) (by rw [hstage]; rfl)
    · cases hs
  · cases hs

theorem deliver_told {op : DeliveryOp} (hwrite : s.writesSucceed (.deliver op))
    (hok : s.unraced (.deliver op)) (hs : s.deliver op = some s') : s.Told s' := by
  cases op with
  | claim id now => exact claimDueOutbox_told hs
  | release i now => exact releaseOutboxClaim_told hs
  | gate i silenced configured => exact gate_told hs
  | send i res failed => exact send_told hok hs
  | record i recorded => exact record_told hwrite hok hs
  | settle i now => exact settle_told hs
  | condemnDead i recorded => exact condemnDead_told hwrite hok hs
  | crash i =>
    simp only [deliver, crash] at hs
    split at hs
    · next hi =>
      cases hs
      have hd := List.getElem?_eq_getElem hi
      exact .nothing rfl rfl fun k n hp => hp.dropWorker hd (hwrite _ hd)
    · cases hs
  | replay id now =>
    cases hs
    exact .nothing rfl rfl fun k n hp => hp.congr rfl
  | purge before =>
    cases hs
    exact .nothing rfl rfl fun k n hp => hp.congr rfl

end Told

/-! ## The invariant -/

/-- What is open and was heard is not condemned, and it is credited or about to be. -/
structure Fair (s : AlertTables) : Prop where
  numbered : s.Numbered
  bounded : s.board.Bounded
  heeded : s.board.Heeded s.CreditPending

theorem Fair.heeded_hears (h : s.Fair) {d : Delivery} (hd : d ∈ s.workers)
    (hp : ∀ k n, s.CreditPending k n → s'.CreditPending k n)
    (hnew : d.alert.firing → s'.CreditPending d.alert.key d.alert.seq)
    (hnot : d.alert.firing → (s.latchAt d.alert.key).emittedSeq = d.alert.seq →
      ¬ s.Condemned d.alert.key) :
    (s.board.hear { x | d.alert.firing ∧ d.alert.announcement = x }).Heeded s'.CreditPending := by
  have hc := h.numbered.coherent
  refine h.heeded.hear ?_ hp
  rintro k l e n hl hcur ⟨hf, rfl⟩
  obtain ⟨ep, hep, he⟩ := map_eq_some_iff.1 hcur
  have hid : d.alert.episodeID = some ep.id := (congrArg (Prod.fst ∘ Prod.fst) he).symm
  have hlog := hc.copies.logged _ (outstanding_of_worker hd)
  obtain ⟨hkey, -, hseq⟩ := hc.onset_of_open hlog hf hep hid
  have hat : s.latchAt k = l := by rw [latchAt, show s.latch k = some l from hl, getD_some]
  have hne : (s.latchAt k).undeliveredSeq ≠ (s.latchAt k).emittedSeq := by
    rw [← hkey] at hseq ⊢
    exact hnot hf hseq.symm
  rw [hat] at hne hseq
  exact ⟨lt_of_le_of_ne (h.bounded k l hl).1 hne, hseq ▸ hkey ▸ hnew hf⟩

theorem Fair.heeded_delivered (h : s.Fair) (hd : s.Delivers s') (ht : s.Told s') :
    s'.board.Heeded s'.CreditPending := by
  have hcur : s'.board.current = s.board.current := by rw [hd.same]; rfl
  have hsame : s'.heard = s.heard → s'.board.heard = s.board.heard := fun hh => by
    simp only [board, hh]
  have hmod : ∀ k f, (s.modifyLatch k f).latch = (s.board.modify k f).latch := fun k f => by
    rw [← board_modifyLatch]
    rfl
  cases ht with
  | nothing hl hheard hp =>
    refine h.heeded.carry (fun k e n hc hh => ?_) hp
    exact ⟨hcur ▸ hc, hsame hheard ▸ hh, fun l hl' => (congrFun hl k).symm.trans hl'⟩
  | hears d hworker hl hheard hp hnew hnot =>
    refine (h.heeded_hears hworker hp hnew hnot).carry (fun k e n hc hh => ?_) fun _ _ => id
    refine ⟨hcur ▸ hc, ?_, fun l hl' => (congrFun hl k).symm.trans hl'⟩
    obtain ⟨a, ha, hf, rfl⟩ := hh
    rw [hheard] at ha
    rcases mem_concat.1 ha with ha | rfl
    · exact .inl ⟨a, ha, hf, rfl⟩
    · exact .inr ⟨hf, rfl⟩
  | credits d hl hheard hp =>
    refine (h.heeded.credit hp).carry (fun k e n hc hh => ?_) fun _ _ => id
    exact ⟨hcur ▸ hc, hsame hheard ▸ hh, fun l hl' =>
      (congrFun (hl.trans (hmod _ _)) k).symm.trans hl'⟩
  | condemns d hl hheard hno hp =>
    refine (h.heeded.condemn hno hp).carry (fun k e n hc hh => ?_) fun _ _ => id
    exact ⟨hcur ▸ hc, hsame hheard ▸ hh, fun l hl' =>
      (congrFun (hl.trans (hmod _ _)) k).symm.trans hl'⟩

theorem Fair.step (h : s.Fair) {op : AlertOp} (hok : s.fair op) (hs : s.step op = some s') :
    s'.Fair := by
  obtain ⟨hwrite, hrace, hsettled⟩ := hok
  have hc := h.numbered.coherent
  refine ⟨h.numbered.step hsettled hs, h.bounded.transition (hc.step_transition hs), ?_⟩
  have hpend : s'.workers = s.workers → ∀ k n, s.CreditPending k n → s'.CreditPending k n :=
    fun hw k n hp => hp.congr hw
  rcases hc.step_cases hs with he | hr | ⟨⟨op, rfl⟩, hd, -⟩
  · exact h.heeded.carry (hc.carries_evaluatedBy (fun k hk => hk.2) he) (hpend he.kept.2.2.1)
  · exact h.heeded.carry hr.carries (hpend hr.workers)
  · exact h.heeded_delivered hd (deliver_told hwrite hrace hs)

theorem fair_of_reach {fileManaged : Bool} (h : Reach step fair (empty fileManaged) s) :
    s.Fair := by
  refine h.invariant ⟨numbered_of_reach .init, ?_, ?_⟩ fun _ _ _ hf hok hs => hf.step hok hs
  · intro k l hl
    rw [board_empty] at hl
    cases hl
  · intro k l e n hl
    rw [board_empty] at hl
    cases hl

theorem Fair.not_condemned (h : s.Fair) (ha : s.Announced k) :
    ∃ ep, s.openEpisode k = some ep ∧ ¬ s.Condemned k := by
  have hc := h.numbered.coherent
  obtain ⟨ep, hep, hheard⟩ := hc.heard_of_announced ha
  have hl := (hc.latchAt_of_open hep).1
  exact ⟨ep, hep, (h.heeded k _ _ _ hl (board_current hep) hheard).1.ne⟩

theorem Fair.condemns (h : s.Fair) {d : Delivery} (hd : d ∈ s.workers) (hf : d.alert.firing)
    (hep : s.openEpisode d.alert.key = some ep) (hid : d.alert.episodeID = some ep.id)
    (hnot : ¬ s.Announced d.alert.key) :
    (s.markServiceAlertUndeliverable d.alert).Condemned d.alert.key := by
  have hc := h.numbered.coherent
  obtain ⟨hl, hfire, -⟩ := hc.latchAt_of_open hep
  have hseq := (hc.onset_of_open (hc.copies.logged _ (outstanding_of_worker hd)) hf hep hid).2.2
  have hdel : (s.latchAt d.alert.key).deliveredSeq < (s.latchAt d.alert.key).emittedSeq := by
    by_contra hge
    exact hnot (h.numbered.announced hl hfire (Nat.le_of_not_lt hge))
  have hle := (h.bounded d.alert.key _ hl).1
  have hlatch : (s.markServiceAlertUndeliverable d.alert).latchAt d.alert.key =
      (s.latchAt d.alert.key).condemn d.alert.seq := by
    have hmod : (s.modifyLatch d.alert.key (·.condemn d.alert.seq)).board.latch d.alert.key =
        (s.latch d.alert.key).map (·.condemn d.alert.seq) := by
      rw [board_modifyLatch]
      exact Function.update_self _ _ _
    rw [markServiceAlertUndeliverable, if_pos hf, latchAt,
      show (s.modifyLatch d.alert.key (·.condemn d.alert.seq)).latch d.alert.key = _ from hmod, hl]
    rfl
  rw [Condemned, hlatch, hseq]
  unfold Latch.condemn
  split
  · rfl
  · omega

theorem Fair.heardOnce (h : s.Fair) : s.HeardOnce where
  live e s' ep hs hep ha hst a hmem hkey := by
    obtain ⟨-, -, hnot⟩ := h.not_condemned ha
    have hlog := evaluateServiceAlerts_stays h.numbered.coherent hep hnot hst hs
    rw [enqueued_of_append (hlog.trans (List.append_nil _).symm)] at hmem
    cases hmem
  burn e s' i rule hs ha hstay a hmem hkey := by
    obtain ⟨ep, hep, hnot⟩ := h.not_condemned ha
    exact absurd hkey (evaluateServiceBurnAlerts_stays h.numbered.coherent hep hnot hstay hs a hmem)
  condemns d hd hf ep hep hid hnot := h.condemns hd hf hep hid hnot
  liveAgain e s' ep p route hs hep hcond hp hst hrev hroute hne := by
    obtain ⟨a, hlog, ha⟩ := evaluateServiceAlerts_again h.numbered.coherent h.bounded
      hep hcond hp hst
      hrev hroute hne hs
    rw [enqueued_of_append hlog]
    exact ⟨a, List.mem_singleton.2 rfl, ha⟩
  burnAgain e s' i rule ep t route hs hep hcond hsealed hi ht hrule hstay hroute hne :=
    evaluateServiceBurnAlerts_again h.numbered.coherent h.bounded hep hcond hstay hroute hne hsealed
      hi ht hrule hs

/-- **What was heard is not announced again, and what is condemned and unheard is**, in every run of
fair steps. -/
theorem heardOnce_of_reach {fileManaged : Bool} (h : Reach step fair (empty fileManaged) s) :
    s.HeardOnce :=
  (fair_of_reach h).heardOnce

def seenDown (asOf : Int) : LiveEvaluation :=
  ⟨asOf, 30, some ⟨.down, false⟩, some 1, ⟨[7], none⟩⟩

def firstOutage : List AlertOp :=
  [.updatePolicy ⟨some true, none, none, some 1, none⟩ 0, .evaluateLive (seenDown 1)]

/-- A slow worker claims the onset, another condemns it when the lease has run out, and the slow one
gets through. -/
def racedRun : List AlertOp :=
  let later := 1 + claimLease 0
  firstOutage ++ [.deliver (.claim 0 1), .deliver (.gate 0 false true), .deliver (.claim 0 later),
      .deliver (.gate 1 false true), .deliver (.send 1 ⟨1, 0, 0⟩ false), .deliver (.record 1 true),
      .deliver (.settle 1 later), .deliver (.send 0 ⟨1, 1, 1⟩ false), .deliver (.record 0 true),
      .deliver (.settle 0 later)]

def raced : AlertTables := finalState step (empty false) racedRun

/-- **The next pass announces again what was heard**, though every write succeeded and the onset is
credited. -/
theorem racedRun_notHeardOnce :
    Reach step writesSucceed (empty false) raced ∧ ¬ raced.HeardOnce := by
  refine ⟨reach_of_allowedRun (by decide), fun h => ?_⟩
  obtain ⟨ep, hep⟩ := isSome_iff_exists.1 (by decide : (raced.openEpisode .health).isSome)
  have hst : ∀ ep ∈ raced.openEpisode .health, ep.state = some .down := by decide
  have hpass : raced.evaluateServiceAlerts (seenDown 20) =
      .ok (finalState step raced [.evaluateLive (seenDown 20)]) := by decide
  have hquiet := h.live _ _ ep hpass hep (by decide) fun p hp => by
    cases hp
    exact hst ep hep
  revert hquiet
  decide

/-- The first worker finds nobody and the next pass announces again; the second onset is heard, and
the pass after that is silent. -/
def condemnedRun : List AlertOp :=
  firstOutage ++
    [.deliver (.claim 0 1), .deliver (.gate 0 false true), .deliver (.send 0 ⟨1, 0, 0⟩ false),
      .deliver (.record 0 true), .deliver (.settle 0 1), .evaluateLive (seenDown 2)] ++
    delivers 2 3 ++ [.evaluateLive (seenDown 4)]

theorem condemnedRun_heardOnce : (finalState step (empty false) condemnedRun).HeardOnce ∧
      (finalState step (empty false) condemnedRun).log.map (fun a => (a.firing, a.seq)) =
        [(true, 1), (true, 2)] :=
  ⟨heardOnce_of_reach (reach_of_allowedRun (by decide)), by decide⟩

end AlertTables

end Cerbix.Alerting
