import Cerbix.Alerting.System

/-!
# Latch, episode and incident agree

Five writers open, supersede, close and delete the rows of an announcement. After every sequence of
their transactions (`inAgreement_of_reach`) a level fires exactly while its identity has an open
episode of the same number, every close ends the announcement of the last onset and goes to the same
people, and no incident outlives the live episode (`InAgreement`).
-/

namespace Cerbix.Alerting

open Cerbix.Lib Cerbix.Domain List

namespace AlertTables

/-- Latches, episodes, the log and the incident tell one story. -/
structure InAgreement (s : AlertTables) : Prop where
  oneOpen : ∀ k, (s.episodes.filter fun e => e.isOpen && e.key = k).length ≤ 1
  firing_iff : ∀ k, (∃ l, s.latch k = some l ∧ l.firing) ↔ ∃ ep ∈ s.episodes, ep.isOpen ∧ ep.key = k
  seq_eq : ∀ ep ∈ s.episodes, ep.isOpen → ∀ l, s.latch ep.key = some l →
    ep.emittedSeq = l.emittedSeq
  /-- A close names the episode of its identity's last onset, not closed before, and goes to whom
  that episode went. -/
  closes : ∀ before a after, s.log = before ++ a :: after → a.firing = false →
    ∃ pre o post, ∃ ep : Episode, before = pre ++ o :: post ∧ o.firing ∧ o.key = a.key ∧
      (∀ b ∈ post, b.key ≠ a.key) ∧ s.episodes[ep.id]? = some ep ∧ o.episodeID = some ep.id ∧
      a.episodeID = some ep.id ∧ a.recipients = ep.recipients
  attended : (∀ ep ∈ s.episodes, ep.key = .health → ep.isOpen = false) →
    ∀ i ∈ s.incidents, i.isOpen = false

variable {s : AlertTables} {k : AlertKey}

theorem openEpisode_eq_some_iff (hu : s.OpenUnique) {ep : Episode} :
    s.openEpisode k = some ep ↔ ep ∈ s.episodes ∧ ep.isOpen ∧ ep.key = k := by
  constructor
  · exact openEpisode_spec
  · rintro ⟨hmem, hopen, rfl⟩
    exact hu.openEpisode_of_mem hmem hopen

theorem OpenUnique.oneOpen (hu : s.OpenUnique) (k : AlertKey) :
    (s.episodes.filter fun e => e.isOpen && e.key = k).length ≤ 1 := by
  have hkeys : ((s.episodes.filter fun e => e.isOpen && e.key = k).map Episode.key).Nodup := by
    rw [show (fun e : Episode => e.isOpen && decide (e.key = k)) =
      fun e => decide (e.key = k) && e.isOpen from funext fun e => Bool.and_comm ..,
      ← filter_filter]
    exact hu.sublist (filter_sublist.map _)
  have hall : ∀ k' ∈ (s.episodes.filter fun e => e.isOpen && e.key = k).map Episode.key,
      k' = k := by
    intro k' hk'
    obtain ⟨e, he, rfl⟩ := mem_map.1 hk'
    have := (mem_filter.1 he).2
    simp only [Bool.and_eq_true, decide_eq_true_eq] at this
    exact this.2
  rw [← length_map (f := Episode.key)]
  rw [eq_replicate_of_mem hall] at hkeys
  exact nodup_replicate.1 hkeys

theorem Coherent.closes (h : s.Coherent) {before after : List ServiceAlert} {a : ServiceAlert}
    (hlog : s.log = before ++ a :: after) (hf : a.firing = false) :
    ∃ pre o post, before = pre ++ o :: post ∧ o.firing ∧ o.key = a.key ∧
      (∀ b ∈ post, b.key ≠ a.key) ∧ o.announcement = a.announcement := by
  have hpaired := h.agree.paired (before.map ServiceAlert.notice) a.notice
    ⟨after.map ServiceAlert.notice, by simp [board, hlog]⟩ hf
  obtain ⟨pre, x, post, hsplit, hk, hx, he, hpost⟩ := exists_of_openOf hpaired
  obtain ⟨pre', rest, rfl, -, hrest⟩ := map_eq_append_iff.1 hsplit
  obtain ⟨o, post', rfl, rfl, rfl⟩ := map_eq_cons_iff.1 hrest
  exact ⟨pre', o, post', rfl, hx, hk, fun b hb => hpost _ (mem_map_of_mem hb), he⟩

theorem Coherent.inAgreement (h : s.Coherent) : s.InAgreement where
  oneOpen := h.unique.oneOpen
  firing_iff k := by
    constructor
    · rintro ⟨l, hl, hf⟩
      obtain ⟨ep, hep⟩ := h.open_of_firing (k := k) (by rw [latchAt, hl]; exact hf)
      exact ⟨ep, (openEpisode_eq_some_iff h.unique).1 hep⟩
    · rintro ⟨ep, hep⟩
      obtain ⟨l, hl, hf, -⟩ :=
        h.agree.opened _ _ _ (board_current ((openEpisode_eq_some_iff h.unique).2 hep))
      exact ⟨l, hl, hf⟩
  seq_eq ep hep hopen l hl := by
    obtain ⟨l', hl', -, hseq⟩ :=
      h.agree.opened _ _ _ (board_current (h.unique.openEpisode_of_mem hep hopen))
    cases hl.symm.trans hl'
    exact hseq.symm
  closes before a after hlog hf := by
    obtain ⟨pre, o, post, rfl, ho, hk, hpost, hsame⟩ := h.closes hlog hf
    obtain ⟨hid, hr⟩ := Prod.mk.inj hsame
    obtain ⟨ep, hep, hep_id, -, hep_r, -⟩ := h.filed.onsets o (by simp [hlog]) ho
    obtain ⟨i, hi⟩ := List.getElem?_of_mem hep
    have hplace : s.episodes[ep.id]? = some ep := by rw [h.filed.ids i ep hi, hi]
    exact ⟨pre, o, post, ep, rfl, ho, hk, hpost, hplace, hep_id, hid ▸ hep_id,
      (hep_r.trans hr).symm⟩
  attended hnone := by
    refine h.attended ?_
    cases hep : s.openEpisode .health with
    | none => rfl
    | some ep =>
      obtain ⟨hmem, hopen, hk⟩ := openEpisode_spec hep
      simp [hnone ep hmem hk] at hopen

/-- **Latch, episode and incident agree**, in every state of every run. -/
theorem inAgreement_of_reach {fileManaged : Bool}
    (h : Reach step anyStep (empty fileManaged) s) : s.InAgreement :=
  (coherent_of_reach h).inAgreement

/-- A service that pages on `down`, is seen down, recovers, and is deleted. -/
def outage : List AlertOp :=
  let owns : AlertPolicyPatch := ⟨some true, none, none, some 1, none⟩
  let routing : Routing := ⟨[7], none⟩
  [.updatePolicy owns 0, .evaluateLive ⟨1, 30, some ⟨.down, false⟩, some 1, routing⟩,
    .evaluateLive ⟨2, 30, some ⟨.healthy, false⟩, some 1, routing⟩,
    .evaluateLive ⟨3, 30, some ⟨.down, false⟩, some 1, routing⟩,
    .deleteService false 4]

theorem outage_inAgreement : (finalState step (empty false) outage).InAgreement ∧
      (finalState step (empty false) outage).log.map (fun a => (a.firing, a.episodeID)) =
        [(true, some 0), (false, some 0), (true, some 1), (false, some 1)] :=
  ⟨inAgreement_of_reach (reach_finalState fun _ _ _ => trivial), by decide⟩

end AlertTables

end Cerbix.Alerting
