import Cerbix.Alerting.Tables
import Cerbix.Lib.Except
import Cerbix.Lib.Run

/-!
# What an evaluation does to the rows

The live signal and every burn rule are evaluated by one shape of transaction: store a level, or
publish an edge and store its level (`Evaluated`; `evaluateServiceAlerts_evaluated`,
`evaluateBurnRule_evaluated`). `closeServiceEpisodes` is a run of `endEpisode`, and
`openEpisode_closeServiceEpisodes` says which episodes it leaves open.
-/

namespace Cerbix.Alerting

open Cerbix.Lib Cerbix.Domain List Episode

namespace AlertTables

variable {s s' : AlertTables} {k : AlertKey}

/-! ## Episodes -/

theorem openEpisode_closeOpen (k k' : AlertKey) (asOf : Int) (reason : CloseReason) :
    (s.closeOpen k asOf reason).openEpisode k' = if k' = k then none else s.openEpisode k' := by
  unfold openEpisode closeOpen
  rw [find?_update_of_fails fun e _ => by simp [isOpen]]
  split
  · next h => simp [h]
  · next h =>
    congr 1
    funext e
    by_cases he : e.key = k' <;> simp [he, h]

theorem openEpisode_append (ep : Episode) (hopen : ep.isOpen) (hnone : s.openEpisode ep.key = none)
    (k : AlertKey) : { s with episodes := s.episodes ++ [ep] }.openEpisode k =
      if k = ep.key then some ep else s.openEpisode k := by
  unfold openEpisode at hnone ⊢
  split
  · next h => simp [h, hnone, hopen]
  · next h => simp [Ne.symm h]

def opened (s : AlertTables) (em : Emission) (recipients : List Nat) : Episode :=
  ⟨s.episodes.length, em.key, em.state, em.asOf, recipients, em.seq, none⟩

theorem openEpisode_emitOnset (em : Emission) (recipients : List Nat) (k : AlertKey) :
    (s.emitOnset em recipients).openEpisode k =
      if k = em.key then some (s.opened em recipients) else s.openEpisode k := by
  have hnone : (s.closeOpen em.key em.asOf em.supersede).openEpisode em.key = none := by
    rw [openEpisode_closeOpen, if_pos rfl]
  refine (openEpisode_append (s.opened em recipients) rfl hnone k).trans ?_
  by_cases hk : k = em.key
  · simp [opened, hk]
  · simp [opened, hk, openEpisode_closeOpen]

variable {ep : Episode} {l : Latch} {streak : Int} {reannounce : Bool}

theorem openEpisode_spec (h : s.openEpisode k = some ep) :
    ep ∈ s.episodes ∧ ep.isOpen ∧ ep.key = k := by
  unfold openEpisode at h
  have hp := List.find?_some h
  simp only [Bool.and_eq_true, decide_eq_true_eq] at hp
  exact ⟨mem_of_find?_eq_some h, hp⟩

def OpenUnique (s : AlertTables) : Prop :=
  ((s.episodes.filter isOpen).map key).Nodup

theorem OpenUnique.openEpisode_of_mem (h : s.OpenUnique) (hep : ep ∈ s.episodes)
    (hopen : ep.isOpen) : s.openEpisode ep.key = some ep := by
  have hfind := find?_key_of_mem h (mem_filter.2 ⟨hep, hopen⟩)
  simpa [openEpisode] using hfind

theorem filter_isOpen_closeOpen (k : AlertKey) (asOf : Int) (reason : CloseReason) :
    (s.closeOpen k asOf reason).episodes.filter isOpen =
      (s.episodes.filter isOpen).filter fun e => e.key ≠ k := by
  rw [closeOpen, filter_update_of_fails fun e _ => by simp [isOpen], filter_filter]
  congr 1
  funext e
  cases e.isOpen <;> simp

theorem OpenUnique.closeOpen (h : s.OpenUnique) (k : AlertKey) (asOf : Int) (reason : CloseReason) :
    (s.closeOpen k asOf reason).OpenUnique := by
  unfold OpenUnique
  rw [filter_isOpen_closeOpen]
  exact h.sublist ((filter_sublist).map _)

theorem OpenUnique.emitOnset (h : s.OpenUnique) (em : Emission) (recipients : List Nat) :
    (s.emitOnset em recipients).OpenUnique := by
  have hrest : ((s.closeOpen em.key em.asOf em.supersede).episodes.filter isOpen).map
      key |>.Nodup := h.closeOpen em.key em.asOf em.supersede
  unfold OpenUnique AlertTables.emitOnset
  simp only [enqueueOutbox, filter_append, map_append]
  refine List.Nodup.append hrest ?_ ?_
  · simp [isOpen]
  · rw [filter_isOpen_closeOpen]
    intro k hk hk'
    obtain ⟨e, he, rfl⟩ := mem_map.1 hk
    simp [isOpen] at hk' he
    exact he.2.1 hk'

/-- Episodes are numbered by their place, and every onset that was enqueued has its episode. -/
structure Filed (episodes : List Episode) (log : List ServiceAlert) : Prop where
  ids : ∀ (i : Nat) (ep : Episode), episodes[i]? = some ep → ep.id = i
  onsets : ∀ a ∈ log, a.firing → ∃ ep ∈ episodes, a.episodeID = some ep.id ∧ ep.key = a.key ∧
    ep.recipients = a.recipients ∧ ep.emittedSeq = a.seq

theorem Filed.closeOpen (h : Filed s.episodes s.log) (k : AlertKey) (asOf : Int)
    (reason : CloseReason) : Filed (s.closeOpen k asOf reason).episodes s.log where
  ids i ep hep := by
    rw [AlertTables.closeOpen, List.getElem?_map, Option.map_eq_some_iff] at hep
    obtain ⟨ep₀, hep₀, rfl⟩ := hep
    rw [← h.ids i ep₀ hep₀]
    split <;> rfl
  onsets a ha hf := by
    obtain ⟨ep, hep, hid, hkey, hr⟩ := h.onsets a ha hf
    refine ⟨_, mem_map_of_mem hep, ?_⟩
    split
    · exact ⟨hid, hkey, hr⟩
    · exact ⟨hid, hkey, hr⟩

theorem Filed.concat {episodes : List Episode} {log : List ServiceAlert} (h : Filed episodes log)
    {a : ServiceAlert} (ha : a.firing = false) : Filed episodes (log ++ [a]) where
  ids := h.ids
  onsets b hb hf := by
    rcases mem_concat.1 hb with hb | rfl
    · exact h.onsets b hb hf
    · rw [ha] at hf
      cases hf

theorem Filed.emitOnset (h : Filed s.episodes s.log) (em : Emission) (recipients : List Nat) :
    Filed (s.emitOnset em recipients).episodes (s.emitOnset em recipients).log := by
  have hclosed := h.closeOpen em.key em.asOf em.supersede
  have hlength : (s.closeOpen em.key em.asOf em.supersede).episodes.length = s.episodes.length :=
    length_map ..
  refine ⟨fun i ep hep => ?_, fun a ha hf => ?_⟩
  · rcases getElem?_concat hep with hep | ⟨rfl, rfl⟩
    · exact hclosed.ids i ep hep
    · exact hlength.symm
  · rcases mem_concat.1 ha with ha | rfl
    · obtain ⟨ep, hep, hfiled⟩ := hclosed.onsets a ha hf
      exact ⟨ep, mem_append_left _ hep, hfiled⟩
    · exact ⟨s.opened em recipients, mem_concat.2 (.inr rfl), rfl, rfl, rfl, rfl⟩

/-- A write of one signal's row, and of the incident. -/
structure RowWrite (k : AlertKey) (l : Latch) (s s' : AlertTables) : Prop where
  same : s' = { s with live := s'.live, latches := s'.latches, incidents := s'.incidents }
  self : s'.latch k = some l
  other : ∀ k' ≠ k, s'.latch k' = s.latch k'
  keys : ∀ row ∈ s'.latches, row.key = k ∨ ∃ row' ∈ s.latches, row'.key = row.key
  nodup : (s.latches.map BurnLatch.key).Nodup → (s'.latches.map BurnLatch.key).Nodup
  live : k ≠ .health → s'.live = s.live

theorem rowWrite_live {incidents : List Incident} (row : LiveState) :
    RowWrite .health row.toLatch s { s with live := some row, incidents := incidents } where
  same := rfl
  self := rfl
  other k' hk := by
    cases k' with
    | health => exact absurd rfl hk
    | burn i rule => rfl
  keys r hr := .inr ⟨r, hr, rfl⟩
  nodup := id
  live h := absurd rfl h

theorem emittedState_congr
    (h : s'.live.map LiveState.emittedState = s.live.map LiveState.emittedState) :
    s'.emittedState = s.emittedState := by
  have hbind : ∀ o : Option LiveState, o.bind LiveState.emittedState =
      (o.map LiveState.emittedState).bind id := fun o => by cases o <;> rfl
  rw [emittedState, emittedState, hbind, h, hbind]

theorem latch_burn (i : Nat) (rule : RuleKey) : s.latch (.burn i rule) =
      (s.latches.find? fun l => (l.target, l.rule) = (i, rule)).map BurnLatch.toLatch := by
  simp [latch, BurnLatch.key]

theorem map_key_nodup_iff {latches : List BurnLatch} :
    (latches.map BurnLatch.key).Nodup ↔ (latches.map fun l => (l.target, l.rule)).Nodup := by
  have hinj : Function.Injective fun p : Nat × RuleKey => AlertKey.burn p.1 p.2 := by
    rintro ⟨i, rule⟩ ⟨i', rule'⟩ h
    cases h
    rfl
  rw [← nodup_map_iff hinj, map_map]
  rfl

theorem rowWrite_upsertBurnLatch {t : BurnTarget} {asOf : Int} {i : Nat} {rule : RuleKey}
    {f : BurnLatch → BurnLatch}
    (hkey : ∀ row, ((f row).target, (f row).rule) = (row.target, row.rule))
    (hl : (f ((s.latches.find? fun l => (l.target, l.rule) = (i, rule)).getD
      (s.newBurnLatch t asOf (i, rule)))).toLatch = l) :
    RowWrite (.burn i rule) l s (s.upsertBurnLatch t asOf (i, rule) f) where
  same := rfl
  self := by
    rw [latch_burn, upsertBurnLatch, find?_upsert_self hkey rfl, Option.map_some, hl]
  other k' hk := by
    cases k' with
    | health => rfl
    | burn i' rule' =>
      have hne : (i', rule') ≠ (i, rule) := fun h => hk (by cases h; rfl)
      rw [latch_burn, latch_burn, upsertBurnLatch, find?_upsert_of_ne hkey rfl hne]
  keys row hrow := by
    rcases key_of_mem_upsert hkey rfl hrow with h | ⟨row', hrow', h⟩
    · cases h
      exact .inl rfl
    · rw [Prod.mk.injEq] at h
      exact .inr ⟨row', hrow', by rw [BurnLatch.key, BurnLatch.key, h.1, h.2]⟩
  nodup h := by
    rw [map_key_nodup_iff] at h ⊢
    rw [upsertBurnLatch, map_key_upsert hkey rfl]
    exact seeKey_nodup h _
  live _ := rfl

theorem resolveServiceIncident_closed {body : String} :
    ∀ i ∈ (s.resolveServiceIncident body).incidents, i.isOpen = false := by
  intro i hi
  obtain ⟨i₀, -, rfl⟩ := mem_map.1 hi
  split
  · rfl
  · next h => simpa using h

variable {e : LiveEvaluation} {observed : AlertState}

theorem liveIncident_same {close : Bool} : s.liveIncident e observed streak close =
      { s with incidents := (s.liveIncident e observed streak close).incidents } := by
  unfold liveIncident resolveServiceIncident openServiceIncident
  split
  · rfl
  · split <;> rfl

/-- What an evaluation of `k` does: it keeps the level, it opens an episode and sends an onset to
somebody, or it ends the open episode and sends its close to whom its onset went. -/
inductive Evaluated (k : AlertKey) (s : AlertTables) : AlertTables → Prop
  | quiet {s' : AlertTables} (hrow : RowWrite k (s.latchAt k) s s')
      (hinc : s'.incidents = s.incidents) (hstate : s'.emittedState = s.emittedState) :
      Evaluated k s s'
  | onset {s' : AlertTables} {recipients : List Nat} (em : Emission) (hkey : em.key = k)
      (hseq : em.seq = (s.latchAt k).emittedSeq + 1) (hsome : recipients ≠ [])
      (hrow : RowWrite k (s.latchAt k).raise (s.emitOnset em recipients) s')
      (hinc : k ≠ .health → s'.incidents = s.incidents)
      (hstate : k = .health → s'.emittedState = em.state ∧
        ∃ st, em.state = some st ∧ s.policy.pages st) : Evaluated k s s'
  | close {s' : AlertTables} {ep : Episode} (asOf : Int) (reason : CloseReason)
      (state : Option AlertState) (hopen : s.openEpisode k = some ep)
      (hrow : RowWrite k (s.latchAt k).lower ((s.closeOpen k asOf reason).enqueueOutbox
          ⟨k, false, some reason, some ep.id, (s.latchAt k).emittedSeq + 1, ep.recipients, state⟩
          asOf) s')
      (hinc : k ≠ .health → s'.incidents = s.incidents)
      (hresolved : k = .health → ∀ i ∈ s'.incidents, i.isOpen = false) : Evaluated k s s'

section Emission

variable {em : Emission} {r : Routing}

theorem emitServiceAlert_onset (hclose : em.close = none) (h : s.emitServiceAlert em r = .ok s') :
    ∃ recipients, resolveServiceRecipients r = .ok recipients ∧ s' = s.emitOnset em recipients := by
  unfold emitServiceAlert at h
  rw [hclose] at h
  simp only at h
  split at h
  · cases h
  rename_i recipients hr
  cases h
  exact ⟨recipients, hr, rfl⟩

theorem emitServiceAlert_close {reason : CloseReason} {ep : Episode}
    (hclose : em.close = some reason)
    (hopen : s.openEpisode em.key = some ep) :
    s.emitServiceAlert em r = .ok ((s.closeOpen em.key em.asOf reason).enqueueOutbox
      ⟨em.key, false, some reason, some ep.id, em.seq, ep.recipients, em.state⟩ em.asOf) := by
  simp [emitServiceAlert, hclose, hopen]

end Emission

/-! ## The live evaluator -/

variable {d : AlertDecision}

theorem liveDecision_cases (hown : s.policy.ownsPaging) {candidate : AlertState}
    (h : s.liveDecision candidate = (d, reannounce)) : d.notify = false ∨
    (d.notify ∧ d.close = false ∧ d.nextFiring ∧ d.nextEmitted = some candidate ∧
      s.policy.pages candidate) ∨
    (d.notify ∧ d.close ∧ d.nextFiring = false ∧ (∃ r, d.closeReason = some r) ∧
      (s.latchAt .health).firing) := by
  unfold liveDecision at h
  simp only at h
  split at h
  · next hagain =>
    cases h
    have hpages : s.policy.pages candidate := by
      simp only [reannounces, Bool.and_eq_true] at hagain
      exact hagain.2
    exact .inr (.inl ⟨rfl, rfl, rfl, rfl, hpages⟩)
  · cases h
    rcases decideServiceAlert_cases hown candidate (s.nextStreak candidate)
      (s.latchAt .health).firing s.emittedState with ⟨hn, -⟩ | ⟨hpages, -, hd⟩ | ⟨-, hf, -, hd⟩
    · exact .inl hn
    · rw [hd]
      exact .inr (.inl ⟨rfl, rfl, rfl, rfl, hpages⟩)
    · rw [hd]
      exact .inr (.inr ⟨rfl, rfl, rfl, ⟨_, rfl⟩, hf⟩)

theorem writeLive_ok {emitted : Option AlertState}
    (h : s.writeLive e observed streak l emitted = .ok s') :
    ∃ row : LiveState, s' = { s with live := some row } ∧ row.toLatch = l ∧
      row.emittedState = emitted := by
  unfold writeLive at h
  split at h
  · cases h
  · cases h
    exact ⟨_, rfl, rfl, rfl⟩

theorem writeAlertError_spec (asOf : Int) (reason : String) :
    ∃ row : LiveState, s.writeAlertError asOf reason = { s with live := some row } ∧
      row.toLatch = s.latchAt .health ∧ row.emittedState = s.emittedState := by
  unfold writeAlertError
  split
  · next hlive => exact ⟨_, rfl, by simp [latchAt, latch, hlive], by simp [emittedState, hlive]⟩
  · next r hlive => exact ⟨_, rfl, by simp [latchAt, latch, hlive], by simp [emittedState, hlive]⟩

theorem evaluated_quiet {row : LiveState} (hl : row.toLatch = s.latchAt .health)
    (he : row.emittedState = s.emittedState) : Evaluated .health s { s with live := some row } :=
  .quiet (hl ▸ rowWrite_live row) rfl he

theorem announceLive_evaluated
    (hfire : (s.latchAt .health).firing → ∃ ep, s.openEpisode .health = some ep)
    (hroute : d.close = false →
      ∃ route, resolveServiceRecipients e.routing = .ok route ∧ route ≠ [])
    (hd : (d.close = false ∧ d.nextFiring ∧ d.nextEmitted = some observed ∧
        s.policy.pages observed) ∨
      (d.close ∧ d.nextFiring = false ∧ (∃ r, d.closeReason = some r) ∧
        (s.latchAt .health).firing)) (h : s.announceLive e observed d reannounce = .ok s') :
          Evaluated .health s s' := by
  unfold announceLive at h
  split at h
  · cases h
  rename_i s₁ hs₁
  obtain ⟨row, rfl, hl, he⟩ := writeLive_ok h
  rcases hd with ⟨hclose, hf, hem, hpages⟩ | ⟨hclose, hf, ⟨reason, hreason⟩, hfiring⟩
  · obtain ⟨recipients, hr, rfl⟩ := emitServiceAlert_onset (by simp [liveEmission, hclose]) hs₁
    obtain ⟨route, hroute, hne⟩ := hroute hclose
    cases hr.symm.trans hroute
    refine .onset (s.liveEmission e observed d reannounce) rfl rfl hne ?_
      (fun hk => absurd rfl hk) fun _ => ⟨he.trans hem, observed, rfl, hpages⟩
    rw [liveIncident_same, show (s.latchAt .health).raise = row.toLatch by rw [hl, hf]; rfl]
    exact rowWrite_live row
  · obtain ⟨ep, hopen⟩ := hfire hfiring
    have hem : (s.liveEmission e observed d reannounce).close = some reason := by
      simp [liveEmission, hclose, hreason]
    rw [emitServiceAlert_close hem hopen] at hs₁
    cases hs₁
    refine .close e.asOf reason (some observed) hopen ?_ (fun hk => absurd rfl hk) fun _ => ?_
    · rw [liveIncident_same, show (s.latchAt .health).lower = row.toLatch by rw [hl, hf]; rfl]
      exact rowWrite_live row
    · rw [hclose]
      exact resolveServiceIncident_closed

theorem armed_of_onset (hn : d.notify) (hclose : d.close = false) (h : e.armed d = .ok true) :
    ∃ route, resolveServiceRecipients e.routing = .ok route ∧ route ≠ [] := by
  unfold LiveEvaluation.armed at h
  simp only [hn, hclose, Bool.not_false, Bool.and_self, if_true] at h
  split at h
  · cases h
  split at h
  · cases h
  rename_i route hr
  refine ⟨route, hr, ?_⟩
  rintro rfl
  cases h

/-- **The live evaluator evaluates the live signal, and nothing else.** -/
theorem evaluateServiceAlerts_evaluated
    (hfire : (s.latchAt .health).firing → ∃ ep, s.openEpisode .health = some ep)
    (h : s.evaluateServiceAlerts e = .ok s') : Evaluated .health s s' := by
  unfold evaluateServiceAlerts at h
  split at h
  · cases h
  rename_i hin
  have hown : s.policy.ownsPaging := by
    simp only [Bool.or_eq_true, not_or, Bool.not_eq_true', Bool.not_eq_false] at hin
    exact hin.2
  split at h
  · cases h
    obtain ⟨row, hrow, hl, he⟩ := s.writeAlertError_spec e.asOf "projection returned no row"
    rw [hrow]
    exact evaluated_quiet hl he
  · next p hp =>
    rcases hdec : s.liveDecision (alertStateOf p) with ⟨d, reannounce⟩
    simp only [hdec] at h
    split at h
    · cases h
    rename_i armed harmed
    split at h
    · next hboth =>
      rw [Bool.and_eq_true] at hboth
      obtain ⟨hn, rfl⟩ := hboth
      refine announceLive_evaluated hfire (fun hc => armed_of_onset hn hc harmed) ?_ h
      rcases liveDecision_cases hown hdec with hn' | ⟨-, hd⟩ | ⟨-, hd⟩
      · simp [hn] at hn'
      · exact .inl hd
      · exact .inr hd
    · obtain ⟨row, rfl, hl, he⟩ := writeLive_ok h
      exact evaluated_quiet hl he

/-! ## The burn evaluator -/

section

variable {e : BurnEvaluation} {i : Nat} {t : BurnTarget} {rule : RuleKey}

theorem find_latch_toLatch (t : BurnTarget) (asOf : Int) :
    ((s.latches.find? fun l => (l.target, l.rule) = (i, rule)).getD
      (s.newBurnLatch t asOf (i, rule))).toLatch = s.latchAt (.burn i rule) := by
  rw [latchAt, latch_burn]
  cases s.latches.find? fun l => (l.target, l.rule) = (i, rule) <;> rfl

theorem disarmBurnRule_row :
    RowWrite (.burn i rule) (s.latchAt (.burn i rule)) s (s.disarmBurnRule e i t rule) := by
  refine rowWrite_upsertBurnLatch (fun row => ?_) ?_
  · split <;> rfl
  · rw [← find_latch_toLatch t e.asOf]
    split <;> rfl

theorem disarmBurnRule_evaluated : Evaluated (.burn i rule) s (s.disarmBurnRule e i t rule) :=
  .quiet disarmBurnRule_row rfl rfl

variable {d : BurnDecision}

theorem writeBurn_ok {l : Latch} (h : s.writeBurn e i t rule d l = .ok s') :
    RowWrite (.burn i rule) l s s' ∧ s'.incidents = s.incidents ∧ s'.live = s.live := by
  unfold writeBurn at h
  split at h
  · cases h
  · cases h
    exact ⟨rowWrite_upsertBurnLatch (fun _ => rfl) rfl, rfl, rfl⟩

variable {reannounce : Bool}

theorem burnDecision_cases (h : s.burnDecision e i rule = (d, reannounce)) :
    (d.edge = false ∧ d.firing = (s.latchAt (.burn i rule)).firing) ∨ (d.edge ∧ d.firing) ∨
      (d.edge ∧ d.firing = false ∧ (s.latchAt (.burn i rule)).firing) := by
  unfold burnDecision at h
  simp only at h
  split at h
  · cases h
    exact .inr (.inl ⟨rfl, rfl⟩)
  · cases h
    have hedge := decideBurnRule_edge (e.windows i rule).1 (e.windows i rule).2 rule.threshold
      (s.latchAt (.burn i rule)).firing
    generalize decideBurnRule _ _ _ _ = d at hedge ⊢
    cases hf : d.firing <;> cases hp : (s.latchAt (.burn i rule)).firing <;>
      simp [hf, hp] at hedge <;> simp [hedge]

theorem withhold_ok {d' : BurnDecision} {firing : Bool} (h : e.withhold d firing = .ok d') :
    (d' = d ∧ (d.edge → d.firing →
      ∃ route, resolveServiceRecipients e.routing = .ok route ∧ route ≠ [])) ∨
      (d'.edge = false ∧ d'.firing = firing) := by
  unfold BurnEvaluation.withhold at h
  split at h
  · split at h
    · cases h
    rename_i route hr
    cases h
    split
    · exact .inr ⟨rfl, rfl⟩
    · next hne => exact .inl ⟨rfl, fun _ _ => ⟨route, hr, by simpa using hne⟩⟩
  · next hno =>
    cases h
    refine .inl ⟨rfl, fun he hf => absurd ?_ hno⟩
    simp [he, hf]

theorem announceBurn_evaluated
    (hfire : (s.latchAt (.burn i rule)).firing → ∃ ep, s.openEpisode (.burn i rule) = some ep)
    (hd : (d.firing ∧ ∃ route, resolveServiceRecipients e.routing = .ok route ∧ route ≠ []) ∨
      (d.firing = false ∧ (s.latchAt (.burn i rule)).firing))
    (h : s.announceBurn e i t rule d reannounce = .ok s') : Evaluated (.burn i rule) s s' := by
  unfold announceBurn at h
  split at h
  · cases h
  rename_i s₁ hs₁
  obtain ⟨hrow, hinc, hlive⟩ := writeBurn_ok h
  rcases hd with ⟨hf, route, hroute, hne⟩ | ⟨hf, hfiring⟩
  · obtain ⟨recipients, hr, rfl⟩ := emitServiceAlert_onset (by simp [burnEmission, hf]) hs₁
    cases hr.symm.trans hroute
    refine .onset (s.burnEmission e i rule d reannounce) rfl rfl hne ?_
      (fun _ => hinc) fun hk => by cases hk
    rw [hf] at hrow
    exact hrow
  · obtain ⟨ep, hopen⟩ := hfire hfiring
    have hem : (s.burnEmission e i rule d reannounce).close = some .recovered := by
      simp [burnEmission, hf]
    rw [emitServiceAlert_close hem hopen] at hs₁
    cases hs₁
    refine .close e.asOf .recovered none hopen ?_ (fun _ => hinc) fun hk => by cases hk
    rw [hf] at hrow
    exact hrow

/-- **One rule of the burn evaluator evaluates its own identity, and nothing else.** -/
theorem evaluateBurnRule_evaluated
    (hfire : (s.latchAt (.burn i rule)).firing → ∃ ep, s.openEpisode (.burn i rule) = some ep)
    (h : s.evaluateBurnRule e i t rule = .ok s') : Evaluated (.burn i rule) s s' := by
  unfold evaluateBurnRule at h
  rcases hdec : s.burnDecision e i rule with ⟨d, reannounce⟩
  simp only [hdec] at h
  have hcases := burnDecision_cases hdec
  split at h
  · cases h
  rename_i d' hd'
  have hquiet : d'.edge = false → d'.firing = (s.latchAt (.burn i rule)).firing := by
    rcases withhold_ok hd' with ⟨rfl, -⟩ | ⟨-, hf⟩
    · grind
    · exact fun _ => hf
  split at h
  · next hedge =>
    rcases withhold_ok hd' with ⟨rfl, hroute⟩ | ⟨he, -⟩
    · refine announceBurn_evaluated hfire ?_ h
      rcases hcases with ⟨he, -⟩ | ⟨he, hf⟩ | ⟨he, hf, hp⟩
      · simp [he] at hedge
      · exact .inl ⟨hf, hroute he hf⟩
      · exact .inr ⟨hf, hp⟩
    · simp [he] at hedge
  · next hedge =>
    obtain ⟨hrow, hinc, hlive⟩ := writeBurn_ok h
    rw [hquiet (by simpa using hedge)] at hrow
    exact .quiet hrow hinc (by rw [emittedState, hlive]; rfl)

end

end AlertTables

end Cerbix.Alerting
