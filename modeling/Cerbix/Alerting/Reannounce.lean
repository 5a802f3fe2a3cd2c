import Cerbix.Alerting.System

/-!
# Announcing again

A pass that finds the state it has announced looks only at whether the announcement is condemned. If
not, it enqueues nothing for the identity (`evaluateServiceAlerts_stays`,
`evaluateServiceBurnAlerts_stays`); if so, and there is somebody to tell, it opens the announcement
again (`evaluateServiceAlerts_again`, `evaluateServiceBurnAlerts_again`).
-/

namespace Cerbix.Alerting

open Cerbix.Lib Cerbix.Domain List

namespace AlertTables

variable {s s' : AlertTables} {k : AlertKey}

def enqueued (s s' : AlertTables) : List ServiceAlert := s'.log.drop s.log.length

theorem enqueued_of_append {more : List ServiceAlert} (h : s'.log = s.log ++ more) :
    s.enqueued s' = more := by
  rw [enqueued, h, drop_left]

def Condemned (s : AlertTables) (k : AlertKey) : Prop :=
  (s.latchAt k).undeliveredSeq = (s.latchAt k).emittedSeq

def BurnStays (e : BurnEvaluation) (i : Nat) (rule : RuleKey) : Prop :=
  (decideBurnRule (e.windows i rule).1 (e.windows i rule).2 rule.threshold true).firing

def Announces (k : AlertKey) (route : List Nat) (a : ServiceAlert) : Prop :=
  a.key = k ∧ a.firing ∧ a.recipients = route

theorem Coherent.latchAt_of_open (h : s.Coherent) {ep : Episode} (hep : s.openEpisode k = some ep) :
    s.latch k = some (s.latchAt k) ∧ (s.latchAt k).firing ∧
      (s.latchAt k).emittedSeq = ep.emittedSeq :=
  h.agree.latchAt_of_open (board_current hep)

/-! ## The live signal -/

section

variable {e : LiveEvaluation} {ep : Episode} {st : AlertState}

theorem Coherent.decide_stays (h : s.Coherent) (hown : s.policy.ownsPaging)
    (hep : s.openEpisode .health = some ep) (hst : ep.state = some st) (streak : Int) :
    (decideServiceAlert s.policy st streak (s.latchAt .health).firing s.emittedState).notify =
      false := by
  obtain ⟨hem, st', hst', hpages⟩ := h.covered ep hep
  cases hst.symm.trans hst'
  rw [hem, hst, show (s.latchAt .health).firing = true from (h.latchAt_of_open hep).2.1]
  exact decideServiceAlert_of_announced hown hpages

theorem evaluateServiceAlerts_owns (hs : s.evaluateServiceAlerts e = .ok s') :
    s.policy.ownsPaging := by
  unfold evaluateServiceAlerts at hs
  split at hs
  · cases hs
  rename_i hin
  simp only [Bool.or_eq_true, not_or, Bool.not_eq_true', Bool.not_eq_false] at hin
  exact hin.2

/-- **A pass that finds the announced state announces nothing**, unless the announcement is
condemned. -/
theorem evaluateServiceAlerts_stays (h : s.Coherent) (hep : s.openEpisode .health = some ep)
    (hnot : ¬ s.Condemned .health)
    (hst : ∀ p, e.projection = some p → ep.state = some (alertStateOf p))
    (hs : s.evaluateServiceAlerts e = .ok s') : s'.log = s.log := by
  have hown := evaluateServiceAlerts_owns hs
  unfold evaluateServiceAlerts at hs
  split at hs
  · cases hs
  split at hs
  · cases hs
    obtain ⟨row, hrow, -⟩ := s.writeAlertError_spec e.asOf "projection returned no row"
    rw [hrow]
  · next p hp =>
    have hquiet := h.decide_stays hown hep (hst p hp) (s.nextStreak (alertStateOf p))
    have hno : s.reannounces (decideServiceAlert s.policy (alertStateOf p)
        (s.nextStreak (alertStateOf p)) (s.latchAt .health).firing s.emittedState)
        (alertStateOf p) = false := by
      simp only [Condemned] at hnot
      simp [reannounces, hnot]
    simp only [liveDecision, hno, Bool.false_eq_true, if_false, hquiet] at hs
    split at hs
    · cases hs
    · obtain ⟨row, rfl, -⟩ := writeLive_ok hs
      rfl

/-- **A condemned announcement is made again** by a pass that finds its state, a governing
declaration and somebody to tell. -/
theorem evaluateServiceAlerts_again (h : s.Coherent) (hb : s.board.Bounded)
    (hep : s.openEpisode .health = some ep) (hcond : s.Condemned .health) {p : Projection}
    (hp : e.projection = some p) (hst : ep.state = some (alertStateOf p))
    (hrev : e.revision ≠ none) {route : List Nat}
    (hroute : resolveServiceRecipients e.routing = .ok route) (hne : route ≠ [])
    (hs : s.evaluateServiceAlerts e = .ok s') :
    ∃ a, s'.log = s.log ++ [a] ∧ Announces .health route a := by
  have hown := evaluateServiceAlerts_owns hs
  have hquiet := h.decide_stays hown hep hst (s.nextStreak (alertStateOf p))
  obtain ⟨hem, st, hst', hpages⟩ := h.covered ep hep
  cases hst.symm.trans hst'
  obtain ⟨hl, hf, -⟩ := h.latchAt_of_open hep
  have hpos := (hb .health _ hl).2 hf
  have hagain : ∀ d : AlertDecision, d.notify = false → s.reannounces d (alertStateOf p) := by
    intro d hd
    simp only [Condemned] at hcond
    simp [reannounces, hd, hf, hpos, hcond, hem, hst, hpages]
  obtain ⟨rev, hrev⟩ := Option.ne_none_iff_exists'.1 hrev
  unfold evaluateServiceAlerts at hs
  split at hs
  · cases hs
  simp only [hp, liveDecision, hagain _ hquiet, if_true, LiveEvaluation.armed, hrev, hroute,
    Bool.not_false,
    Bool.and_self, isEmpty_eq_false_iff.2 hne, announceLive] at hs
  split at hs
  · cases hs
  rename_i s₁ hs₁
  obtain ⟨recipients, hr, rfl⟩ := emitServiceAlert_onset (by simp [liveEmission]) hs₁
  cases hr.symm.trans hroute
  obtain ⟨row, rfl, -⟩ := writeLive_ok hs
  rw [liveIncident_same]
  exact ⟨_, rfl, rfl, rfl, rfl⟩

end

theorem Evaluated.log (h : Evaluated k s s') :
    ∃ more, s'.log = s.log ++ more ∧ ∀ a ∈ more, a.key = k := by
  cases h with
  | quiet hrow =>
    rw [hrow.same]
    exact ⟨[], by simp, fun a ha => by cases ha⟩
  | onset em hkey _ _ hrow =>
    rw [hrow.same]
    exact ⟨[_], rfl, fun a ha => by rw [mem_singleton.1 ha]; exact hkey⟩
  | close asOf reason state _ hrow =>
    rw [hrow.same]
    exact ⟨[_], rfl, fun a ha => by rw [mem_singleton.1 ha]⟩

theorem Evaluated.latch_of_ne {k' : AlertKey} (h : Evaluated k s s') (hk : k' ≠ k) :
    s'.latch k' = s.latch k' := by
  cases h with
  | quiet hrow => exact hrow.other k' hk
  | onset em _ _ _ hrow =>
    refine (hrow.other k' hk).trans ?_
    cases k' <;> rfl
  | close asOf reason state _ hrow =>
    refine (hrow.other k' hk).trans ?_
    cases k' <;> rfl

section

variable {e : BurnEvaluation} {i : Nat} {t : BurnTarget} {rule : RuleKey} {ep : Episode}
  {route : List Nat}

theorem BurnStays.edge (hstay : BurnStays e i rule) :
    (decideBurnRule (e.windows i rule).1 (e.windows i rule).2 rule.threshold true).edge =
      false := by
  rw [decideBurnRule_edge, show (decideBurnRule _ _ _ true).firing = true from hstay]
  rfl

theorem evaluateBurnRule_stays (hf : (s.latchAt (.burn i rule)).firing)
    (hnot : ¬ s.Condemned (.burn i rule)) (hstay : BurnStays e i rule)
    (hs : s.evaluateBurnRule e i t rule = .ok s') :
    s'.log = s.log ∧ s'.latch (.burn i rule) = some (s.latchAt (.burn i rule)) := by
  have hdec : s.burnDecision e i rule = (decideBurnRule (e.windows i rule).1 (e.windows i rule).2
      rule.threshold true, false) := by
    simp only [Condemned] at hnot
    simp [burnDecision, hf, hnot]
  simp only [evaluateBurnRule, hdec, BurnEvaluation.withhold, hstay.edge, Bool.false_and,
    Bool.false_eq_true, if_false] at hs
  obtain ⟨hrow, -⟩ := writeBurn_ok hs
  refine ⟨by rw [hrow.same], ?_⟩
  rw [hrow.self, show (decideBurnRule _ _ _ true).firing = true from hstay, ← hf]

theorem evaluateBurnRule_again (hf : (s.latchAt (.burn i rule)).firing)
    (hpos : 0 < (s.latchAt (.burn i rule)).emittedSeq) (hcond : s.Condemned (.burn i rule))
    (hstay : BurnStays e i rule) (hroute : resolveServiceRecipients e.routing = .ok route)
    (hne : route ≠ []) (hs : s.evaluateBurnRule e i t rule = .ok s') :
    ∃ a, s'.log = s.log ++ [a] ∧ Announces (.burn i rule) route a := by
  have hdec : s.burnDecision e i rule = ({ decideBurnRule (e.windows i rule).1 (e.windows i rule).2
      rule.threshold true with edge := true, firing := true }, true) := by
    simp only [Condemned] at hcond
    simp [burnDecision, hf, hpos, hcond, hstay.edge]
  simp only [evaluateBurnRule, hdec, BurnEvaluation.withhold, hroute, Bool.and_self, if_true,
    isEmpty_eq_false_iff.2 hne, Bool.false_eq_true, if_false, announceBurn] at hs
  split at hs
  · cases hs
  rename_i s₁ hs₁
  obtain ⟨recipients, hr, rfl⟩ := emitServiceAlert_onset (by simp [burnEmission]) hs₁
  cases hr.symm.trans hroute
  rw [(writeBurn_ok hs).1.same]
  exact ⟨_, rfl, rfl, rfl, rfl⟩

/-! ## A pass of the burn evaluator -/

/-- The pass has got to `u` and has not touched the identity. -/
structure Untouched (e : BurnEvaluation) (k : AlertKey) (s u : AlertTables) : Prop where
  run : EvaluatedBy (s.burnScope e) s u
  latch : u.latch k = s.latch k
  log : ∃ more, u.log = s.log ++ more ∧ ∀ a ∈ more, a.key ≠ k

/-- The pass has got to `u` and has sent an onset of the identity. -/
structure Reannounced (e : BurnEvaluation) (k : AlertKey) (route : List Nat) (s u : AlertTables) :
    Prop where
  run : EvaluatedBy (s.burnScope e) s u
  log : ∃ more, u.log = s.log ++ more ∧ ∃ a ∈ more, Announces k route a

theorem untouched_refl (e : BurnEvaluation) (k : AlertKey) (s : AlertTables) : Untouched e k s s :=
  ⟨.refl, rfl, [], by simp, fun a ha => by cases ha⟩

section Step

variable {u u' : AlertTables} {k' : AlertKey}

theorem Untouched.latchAt (h : Untouched e k s u) : u.latchAt k = s.latchAt k := by
  rw [AlertTables.latchAt, AlertTables.latchAt, h.latch]

theorem Untouched.evaluated (h : Untouched e k s u) (hscope : s.burnScope e k')
    (he : Evaluated k' u u') (hk : k ≠ k') : Untouched e k s u' := by
  obtain ⟨more, hlog, hmore⟩ := h.log
  obtain ⟨next, hnext, hkeys⟩ := he.log
  refine ⟨h.run.tail ⟨k', hscope, he⟩, (he.latch_of_ne hk).trans h.latch, more ++ next,
    by rw [hnext, hlog, append_assoc], fun a ha => ?_⟩
  rcases mem_append.1 ha with ha | ha
  · exact hmore a ha
  · rw [hkeys a ha]
    exact hk.symm

theorem Untouched.quiet (h : Untouched e k s u) (hscope : s.burnScope e k) (he : Evaluated k u u')
    (hl : s.latch k = some (s.latchAt k)) (hlatch : u'.latch k = some (u.latchAt k))
    (hlog : u'.log = u.log) : Untouched e k s u' :=
  ⟨h.run.tail ⟨k, hscope, he⟩, by rw [hlatch, h.latchAt, hl], by rw [hlog]; exact h.log⟩

theorem Reannounced.evaluated (h : Reannounced e k route s u) (hscope : s.burnScope e k')
    (he : Evaluated k' u u') : Reannounced e k route s u' := by
  obtain ⟨more, hlog, a, ha, hann⟩ := h.log
  obtain ⟨next, hnext, -⟩ := he.log
  exact ⟨h.run.tail ⟨k', hscope, he⟩, more ++ next, by rw [hnext, hlog, append_assoc], a,
    mem_append_left _ ha, hann⟩

end Step

section Stays

variable (h : s.Coherent) (hep : s.openEpisode (.burn i rule) = some ep)
  (hnot : ¬ s.Condemned (.burn i rule)) (hstay : BurnStays e i rule)

include h hep hnot hstay

variable {u : AlertTables} {rule' : RuleKey}

theorem Untouched.burnRule {u' : AlertTables} {j : Nat}
    (hu : Untouched e (.burn i rule) s u) (hscope : s.burnScope e (.burn j rule'))
    (hu' : u.evaluateBurnRule e j t rule' = .ok u') : Untouched e (.burn i rule) s u' := by
  have he := hu.run.burnRule h hu'
  obtain ⟨hl, hf, -⟩ := h.latchAt_of_open hep
  rcases eq_or_ne (AlertKey.burn i rule) (.burn j rule') with heq | hne
  · cases heq
    obtain ⟨hlog, hlatch⟩ := evaluateBurnRule_stays (hu.latchAt ▸ hf)
      (by rw [Condemned, hu.latchAt]; exact hnot) hstay hu'
    exact hu.quiet hscope he hl hlatch hlog
  · exact hu.evaluated hscope he hne

omit hnot hstay in
theorem Untouched.disarm {j : Nat}
    (hu : Untouched e (.burn i rule) s u) (hscope : s.burnScope e (.burn j rule')) :
    Untouched e (.burn i rule) s (u.disarmBurnRule e j t rule') := by
  rcases eq_or_ne (AlertKey.burn i rule) (.burn j rule') with heq | hne
  · cases heq
    exact hu.quiet hscope disarmBurnRule_evaluated (h.latchAt_of_open hep).1 disarmBurnRule_row.self
      rfl
  · exact hu.evaluated hscope disarmBurnRule_evaluated hne

/-- **A pass says nothing about a rule that goes on firing**, unless its announcement is
condemned. -/
theorem evaluateServiceBurnAlerts_stays (hs : s.evaluateServiceBurnAlerts e = .ok s') :
    ∀ a ∈ s.enqueued s', a.key ≠ .burn i rule := by
  have hpass : Untouched e (.burn i rule) s s' := by
    refine foldlM_invariant (fun j hj u u' hu hu' => ?_) (untouched_refl e _ s) hs
    obtain ⟨t, ht, hen, hrules⟩ := evaluateBurnTarget_ok hu'
    have hscope : ∀ rule' ∈ burnRuleKeys t.rules, s.burnScope e (.burn j rule') := fun rule' hr =>
      hu.run.burnScope hj ht hen hr
    rcases hrules with ⟨-, hrules⟩ | ⟨-, rfl⟩
    · exact foldlM_invariant (fun rule' hr v v' hv hv' =>
        hv.burnRule h hep hnot hstay (hscope rule' hr) hv') hu hrules
    · exact List.foldlRecOn _ _ hu fun v hv rule' hr => hv.disarm h hep (hscope rule' hr)
  obtain ⟨more, hlog, hmore⟩ := hpass.log
  rw [enqueued_of_append hlog]
  exact hmore

end Stays

section Again

variable (h : s.Coherent) (hb : s.board.Bounded) (hep : s.openEpisode (.burn i rule) = some ep)
  (hcond : s.Condemned (.burn i rule)) (hstay : BurnStays e i rule)
  (hroute : resolveServiceRecipients e.routing = .ok route) (hne : route ≠ [])

include h hb hep hcond hstay hroute hne

variable {u u' : AlertTables}

theorem Untouched.reannounces (hu : Untouched e (.burn i rule) s u)
    (hscope : s.burnScope e (.burn i rule)) (hu' : u.evaluateBurnRule e i t rule = .ok u') :
    Reannounced e (.burn i rule) route s u' := by
  obtain ⟨hl, hf, -⟩ := h.latchAt_of_open hep
  have hpos : 0 < (s.latchAt (.burn i rule)).emittedSeq := (hb (.burn i rule) _ hl).2 hf
  obtain ⟨a, hlog, ha⟩ := evaluateBurnRule_again (hu.latchAt ▸ hf) (hu.latchAt ▸ hpos)
    (by rw [Condemned, hu.latchAt]; exact hcond) hstay hroute hne hu'
  obtain ⟨more, hmore, -⟩ := hu.log
  exact ⟨hu.run.tail ⟨_, hscope, hu.run.burnRule h hu'⟩, more ++ [a],
    by rw [hlog, hmore, append_assoc], a, by simp, ha⟩

theorem Untouched.burnRule_cases {j : Nat} {rule' : RuleKey}
    (hu : Untouched e (.burn i rule) s u) (hscope : s.burnScope e (.burn j rule'))
    (hu' : u.evaluateBurnRule e j t rule' = .ok u') :
    Untouched e (.burn i rule) s u' ∨ Reannounced e (.burn i rule) route s u' := by
  rcases eq_or_ne (AlertKey.burn i rule) (.burn j rule') with heq | hne'
  · cases heq
    exact .inr (hu.reannounces h hb hep hcond hstay hroute hne hscope hu')
  · exact .inl (hu.evaluated hscope (hu.run.burnRule h hu') hne')

/-- **A pass announces a condemned rule again** when it goes on firing and there is somebody to
tell. -/
theorem evaluateServiceBurnAlerts_again (hsealed : e.hasSealed) (hi : i ∈ e.slice)
    (ht : s.targets[i]? = some t) (hrule : rule ∈ burnRuleKeys t.rules)
    (hs : s.evaluateServiceBurnAlerts e = .ok s') :
    ∃ a ∈ s.enqueued s', Announces (.burn i rule) route a := by
  -- the rules of any target, as the pass gets to them
  have htarget : ∀ {j : Nat} {u u' : AlertTables}, EvaluatedBy (s.burnScope e) s u → j ∈ e.slice →
      u.evaluateBurnTarget e j = .ok u' → ∃ t', s.targets[j]? = some t' ∧
        (∀ rule' ∈ burnRuleKeys t'.rules, s.burnScope e (.burn j rule')) ∧
        (burnRuleKeys t'.rules).foldlM (fun s rule => s.evaluateBurnRule e j t' rule) u =
          .ok u' := by
    intro j u u' hrun hj hu'
    obtain ⟨t', ht', hen, ⟨-, hrules⟩ | ⟨hno, -⟩⟩ := evaluateBurnTarget_ok hu'
    · exact ⟨t', hrun.kept.1 ▸ ht', fun rule' hr => hrun.burnScope hj ht' hen hr, hrules⟩
    · simp [hsealed] at hno
  have hpass : Reannounced e (.burn i rule) route s s' := by
    refine foldlM_reaches (P := Untouched e (.burn i rule) s) hi (fun j hj u u' hu hu' => ?_)
      (fun j hj u u' hu hu' => ?_) (fun u u' hu hu' => ?_) (untouched_refl e _ s) hs
    · obtain ⟨t', -, hscope, hrules⟩ := htarget hu.run hj hu'
      refine foldlM_invariant (I := fun v => Untouched e (.burn i rule) s v ∨
        Reannounced e (.burn i rule) route s v) (fun rule' hr v v' hv hv' => ?_) (.inl hu) hrules
      rcases hv with hv | hv
      · exact hv.burnRule_cases h hb hep hcond hstay hroute hne (hscope rule' hr) hv'
      · exact .inr (hv.evaluated (hscope rule' hr) (hv.run.burnRule h hv'))
    · obtain ⟨t', -, hscope, hrules⟩ := htarget hu.run hj hu'
      exact foldlM_invariant (fun rule' hr v v' hv hv' =>
        hv.evaluated (hscope rule' hr) (hv.run.burnRule h hv')) hu hrules
    · obtain ⟨t', ht', hscope, hrules⟩ := htarget hu.run hi hu'
      cases ht.symm.trans ht'
      refine foldlM_reaches (P := Untouched e (.burn i rule) s) hrule
        (fun rule' hr v v' hv hv' => ?_)
        (fun rule' hr v v' hv hv' => ?_) (fun v v' hv hv' => ?_) hu hrules
      · exact hv.burnRule_cases h hb hep hcond hstay hroute hne (hscope rule' hr) hv'
      · exact hv.evaluated (hscope rule' hr) (hv.run.burnRule h hv')
      · exact hv.reannounces h hb hep hcond hstay hroute hne (hscope rule hrule) hv'
  obtain ⟨more, hlog, ha⟩ := hpass.log
  rw [enqueued_of_append hlog]
  exact ha

end Again

end

end AlertTables

end Cerbix.Alerting
