import Cerbix.Alerting.System

/-!
# Suppression is backed by an announcement

The arming test of a service (`internal/store/servicealertstate.go`) and the lookup that withholds a
monitor's own alert on the strength of it (`ActiveDelegation` in `alertdelegation.go`).
`liveVerdict` and `burnVerdict` name the first clause that fails; `liveVerdict_covers` and
`burnVerdict_covers` say what an armed service has committed to.

`SuppressionSound` says that whoever relies on a withheld alert was told. A burn rule's numbers live
in its latch, which a write of the target deletes: switched off and on again the rule counts from
one, and an older onset is level with the next announcement (`deletedLatch_unsound`).
`suppressionSound_of_reach` covers every run that creates a latch only when no onset of its rule is
left (`settled`).
-/

namespace Cerbix.Alerting

open Cerbix.Lib Cerbix.Domain Option

/-- Why a service does not page for its monitors. -/
inductive AlertReason
  | noOwningService | notOwned | neverEvaluated | noEnabledTarget | policyPagesNothing
  | stateNotPageable | ruleUnevaluated | held | generationChanged | revisionChanged
  | evaluationError | staleLease | unroutable | onsetPending | onsetUndelivered
  | latchInconsistent
  deriving DecidableEq, Repr

/-- How far a service was from paging. -/
def coverageReasonRank : AlertReason → Nat
  | .noOwningService => 0 | .notOwned => 1 | .neverEvaluated => 2 | .noEnabledTarget => 3
  | .policyPagesNothing => 4 | .stateNotPageable => 5 | .ruleUnevaluated => 6 | .held => 7
  | .generationChanged => 8 | .revisionChanged => 9 | .evaluationError => 10 | .staleLease => 11
  | .unroutable => 12 | .onsetPending => 13 | .onsetUndelivered => 14 | .latchInconsistent => 15

/-- What the query reads about a service. -/
structure CoverageClauses where
  ownsPaging : Bool
  policyPages : Bool
  pageableState : Bool
  onsetCommitted : Bool
  onsetDelivered : Bool
  routable : Bool
  evaluated : Bool
  genOK : Bool
  revOK : Bool
  liveErr : String
  fresh : Bool
  hasTarget : Bool
  replacement : Bool
  nothingBlind : Bool
  allLatched : Bool
  burnFresh : Bool
  burnOnsetPending : Bool
  burnOnsetUndelivered : Bool
  anyHold : Bool
  anyGenMismatch : Bool
  burnErr : String
  deriving DecidableEq, Repr

def AlertState.quiet (s : AlertState) : Bool := s = .healthy || s = .excluded

namespace AlertTables

variable (s : AlertTables)

/-- The rule is evaluated and, if it fires, was heard. -/
def burnRuleCovers (now : Int) (t : BurnTarget) (l : BurnLatch) : Bool :=
  ((l.lastVerdict = .clear && !l.firing) ||
    (l.lastVerdict = .fire && l.firing && 0 < l.emittedSeq && l.emittedSeq ≤ l.deliveredSeq)) &&
    l.configGeneration = s.configGeneration && l.targetGeneration = t.alertGeneration &&
    l.lastError = none && now < l.leaseUntil

def enabledTargets : List (BurnTarget × Nat) := s.targets.zipIdx.filter fun p => p.1.enabled

def latchesOf (i : Nat) : List BurnLatch := s.latches.filter fun l => l.target = i

def anyEligible (p : BurnTarget → BurnLatch → Bool) : Bool :=
  s.enabledTargets.any fun t => (s.latchesOf t.2).any (p t.1)

/-- The clauses of the query. -/
def coverageClauses (now : Int) (routing : Routing) (governing : Option Nat) : CoverageClauses :=
  let policyPages := !s.policy.pageOn.isEmpty || s.policy.pageOnUnknown
  { ownsPaging := s.policy.ownsPaging
    policyPages := policyPages
    pageableState := s.live.any fun st => policyPages &&
      (AlertState.quiet st.observedState || s.policy.pageOn.contains st.observedState ||
        (st.observedState = .unknown && s.policy.pageOnUnknown))
    onsetCommitted := s.live.any fun st => AlertState.quiet st.observedState ||
      (st.firing && st.emittedState = some st.observedState && 0 < st.emittedSeq)
    onsetDelivered := s.live.any fun st => AlertState.quiet st.observedState ||
      st.emittedSeq ≤ st.deliveredSeq
    routable := routable routing
    evaluated := s.live.isSome
    genOK := s.live.any fun st => st.configGeneration = s.configGeneration
    revOK := s.live.any fun st => st.revisionID.isSome && st.revisionID = governing
    liveErr := (s.live.bind LiveState.lastError).getD ""
    fresh := s.live.any fun st => now < st.leaseUntil
    hasTarget := s.enabledTargets.any fun t => !t.1.rules.isEmpty
    replacement := s.anyEligible (s.burnRuleCovers now)
    nothingBlind := s.enabledTargets.all fun t => !(s.latchesOf t.2).isEmpty &&
      (s.latchesOf t.2).all (s.burnRuleCovers now t.1)
    allLatched := s.enabledTargets.all fun t => (s.latchesOf t.2).length = t.1.rules.length
    burnFresh := !s.anyEligible fun _ l => l.leaseUntil ≤ now
    burnOnsetPending := s.anyEligible fun _ l =>
      l.lastVerdict = .fire && !(l.firing && 0 < l.emittedSeq)
    burnOnsetUndelivered := s.anyEligible fun _ l =>
      l.lastVerdict = .fire && l.firing && 0 < l.emittedSeq && l.deliveredSeq < l.emittedSeq
    anyHold := s.anyEligible fun _ l => l.lastVerdict = .hold
    anyGenMismatch := s.anyEligible fun t l =>
      l.configGeneration ≠ s.configGeneration || l.targetGeneration ≠ t.alertGeneration
    burnErr := String.intercalate "; " (firstSeen [] (s.enabledTargets.flatMap fun t =>
      (s.latchesOf t.2).filterMap BurnLatch.lastError)) }

end AlertTables

namespace CoverageClauses

variable (c : CoverageClauses)

/-- Why the health signal does not cover, if it does not. -/
def liveVerdict : Option AlertReason :=
  if !c.ownsPaging then some .notOwned
  else if !c.evaluated then some .neverEvaluated
  else if !c.policyPages then some .policyPagesNothing
  else if !c.pageableState then some .stateNotPageable
  else if !c.genOK then some .generationChanged
  else if !c.revOK then some .revisionChanged
  else if c.liveErr ≠ "" then some .evaluationError
  else if !c.fresh then some .staleLease
  else if !c.routable then some .unroutable
  else if !c.onsetCommitted then some .onsetPending
  else if !c.onsetDelivered then some .onsetUndelivered
  else none

def burnRefusal : AlertReason :=
  if c.anyHold then .held
  else if c.anyGenMismatch then .generationChanged
  else if c.burnErr ≠ "" then .evaluationError
  else if !c.burnFresh then .staleLease
  else if c.burnOnsetPending && !c.routable then .unroutable
  else if c.burnOnsetPending then .onsetPending
  else if c.burnOnsetUndelivered then .onsetUndelivered
  else .latchInconsistent

/-- Why the burn rules do not cover, if they do not. -/
def burnVerdict : Option AlertReason :=
  if !c.ownsPaging then some .notOwned
  else if !c.hasTarget then some .noEnabledTarget
  else if !c.allLatched then some .ruleUnevaluated
  else if !c.replacement || !c.nothingBlind then some c.burnRefusal
  else if !c.routable then some .unroutable
  else none

variable {c}

theorem onset_of_liveVerdict (h : c.liveVerdict = none) : c.onsetCommitted ∧ c.onsetDelivered := by
  simp only [liveVerdict, ite_eq_iff, reduceCtorEq, and_false, false_or, Bool.not_eq_true',
    Bool.not_eq_false] at h
  obtain ⟨-, -, -, -, -, -, -, -, -, hcommitted, hdelivered, -⟩ := h
  exact ⟨hcommitted, hdelivered⟩

theorem nothingBlind_of_burnVerdict (h : c.burnVerdict = none) : c.nothingBlind := by
  simp only [burnVerdict, ite_eq_iff, reduceCtorEq, and_false, false_or, Bool.not_eq_true',
    Bool.or_eq_true, not_or, Bool.not_eq_false] at h
  exact h.2.2.2.1.2

end CoverageClauses

/-- The signal that pages in a monitor's place. -/
inductive DelegationSignal
  | live | burn
  deriving DecidableEq, Repr

def CoverageClauses.verdict (c : CoverageClauses) : DelegationSignal → Option AlertReason
  | .live => c.liveVerdict
  | .burn => c.burnVerdict

/-- `DelegationVerdict`: the services that cover the signal, or why none does. -/
structure DelegationVerdict where
  owners : List Nat
  failOpenReason : Option AlertReason
  deriving DecidableEq, Repr

def furthest (best : Option AlertReason) (reason : AlertReason) : Option AlertReason :=
  match best with
  | none => some reason
  | some b => if coverageReasonRank b < coverageReasonRank reason then some reason else some b

/-- The services that page in the monitor's place, or the nearest reason. -/
def activeDelegation (signal : DelegationSignal) (candidates : List (Nat × CoverageClauses)) :
    DelegationVerdict :=
  let owners := (candidates.filter fun c => c.2.verdict signal = none).map Prod.fst
  if owners.isEmpty then
    let reason := (candidates.filterMap fun c => c.2.verdict signal).foldl furthest none
    ⟨[], some (reason.getD .noOwningService)⟩
  else ⟨owners, none⟩

/-- **A monitor's alert is delegated exactly to the candidates that refuse nothing.** -/
theorem mem_owners_iff {signal : DelegationSignal} {candidates : List (Nat × CoverageClauses)}
    {o : Nat} : o ∈ (activeDelegation signal candidates).owners ↔
      ∃ c, (o, c) ∈ candidates ∧ c.verdict signal = none := by
  have hmem : o ∈ (candidates.filter fun c => c.2.verdict signal = none).map Prod.fst ↔
      ∃ c, (o, c) ∈ candidates ∧ c.verdict signal = none := by
    simp
  rw [← hmem, activeDelegation]
  split
  · next hempty => simp [List.isEmpty_iff.1 hempty]
  · rfl

namespace AlertTables

variable {s : AlertTables} {now : Int} {routing : Routing} {governing : Option Nat}

/-- **An armed live signal** whose observed state pages has committed and credited its
announcement. -/
theorem liveVerdict_covers {st : LiveState} (hlive : s.live = some st)
    (hpages : s.policy.pages st.observedState)
    (h : (s.coverageClauses now routing governing).liveVerdict = none) :
    st.firing ∧ 0 < st.emittedSeq ∧ st.emittedSeq ≤ st.deliveredSeq := by
  have hquiet : AlertState.quiet st.observedState = false := by
    cases ho : st.observedState <;> simp_all [AlertPolicy.pages, AlertState.quiet]
  have hboth := CoverageClauses.onset_of_liveVerdict h
  simp only [coverageClauses, hlive, any_some, hquiet, Bool.false_or, Bool.and_eq_true,
    decide_eq_true_eq] at hboth
  exact ⟨hboth.1.1.1, hboth.1.2, hboth.2⟩

theorem mem_enabledTargets {t : BurnTarget} {i : Nat} :
    (t, i) ∈ s.enabledTargets ↔ s.targets[i]? = some t ∧ t.enabled := by
  rw [enabledTargets, List.mem_filter, List.mem_zipIdx_iff_getElem?]

/-- **An armed burn signal**: every latch of an enabled target covers, so a firing rule has
committed and credited its announcement. -/
theorem burnVerdict_covers {t : BurnTarget} {l : BurnLatch} (hl : l ∈ s.latches)
    (ht : s.targets[l.target]? = some t) (hen : t.enabled) (hfire : l.lastVerdict = .fire)
    (h : (s.coverageClauses now routing governing).burnVerdict = none) :
    l.firing ∧ 0 < l.emittedSeq ∧ l.emittedSeq ≤ l.deliveredSeq := by
  have hblind := CoverageClauses.nothingBlind_of_burnVerdict h
  simp only [coverageClauses, List.all_eq_true, Bool.and_eq_true] at hblind
  have hcovers := (hblind (t, l.target) (mem_enabledTargets.2 ⟨ht, hen⟩)).2 l
    (List.mem_filter.2 ⟨hl, by simp⟩)
  simp only [burnRuleCovers, hfire, Bool.and_eq_true, Bool.or_eq_true, decide_eq_true_eq] at hcovers
  obtain ⟨⟨⟨⟨hshape, -⟩, -⟩, -⟩, -⟩ := hcovers
  rcases hshape with ⟨hclear, -⟩ | ⟨⟨⟨-, hf⟩, hpos⟩, hle⟩
  · cases hclear
  · exact ⟨hf, hpos, hle⟩

end AlertTables

namespace AlertTables

/-- Somebody was told of the open episode. -/
def Announced (s : AlertTables) (k : AlertKey) : Prop :=
  ∃ ep ∈ s.openEpisode k, ∃ a ∈ s.heard, a.firing ∧ a.episodeID = some ep.id

instance (s : AlertTables) (k : AlertKey) : Decidable (s.Announced k) :=
  inferInstanceAs (Decidable (∃ ep ∈ s.openEpisode k, _))

def Candidate (s : AlertTables) (self : Nat) (candidates : List (Nat × CoverageClauses)) : Prop :=
  ∃ now routing governing, ∀ c, (self, c) ∈ candidates → c = s.coverageClauses now routing governing

/-- A monitor is only silent while its service was heard. -/
structure SuppressionSound (s : AlertTables) : Prop where
  live : ∀ self candidates, s.Candidate self candidates →
    self ∈ (activeDelegation .live candidates).owners →
    ∀ st ∈ s.live, s.policy.pages st.observedState → s.Announced .health
  burn : ∀ self candidates, s.Candidate self candidates →
    self ∈ (activeDelegation .burn candidates).owners →
    ∀ l ∈ s.latches, l.lastVerdict = .fire → s.Announced l.key
  credits : ∀ d ∈ s.workers, ∀ k, (s.markServiceAlertDelivered d.alert).latch k ≠ s.latch k →
    ∃ ep ∈ s.openEpisode k, d.alert.episodeID = some ep.id

/-- A burn evaluation creates a latch only when no onset of its rule is left. -/
def settled (s : AlertTables) : AlertOp → Prop
  | .evaluateBurn e => ∀ k ∈ e.keys s.targets, s.latch k = none →
      ∀ a ∈ s.outstanding, a.firing → a.key ≠ k
  | _ => True

instance (s : AlertTables) (op : AlertOp) : Decidable (s.settled op) := by
  cases op <;> unfold settled <;> infer_instance

variable {s s' : AlertTables} {k : AlertKey}

/-- The tables agree with their board, whose invariant holds. -/
structure Numbered (s : AlertTables) : Prop where
  coherent : s.Coherent
  inv : s.board.Inv
  rooted : s.deleted = false → s.board.Clear .health

theorem evaluateServiceAlerts_not_deleted {e : LiveEvaluation}
    (h : s.evaluateServiceAlerts e = .ok s') : s.deleted = false := by
  unfold evaluateServiceAlerts at h
  split at h
  · cases h
  rename_i hin
  simp only [Bool.or_eq_true, not_or] at hin
  simpa using hin.1

theorem Numbered.clear (h : s.Numbered) {op : AlertOp} (hok : s.settled op)
    (hs : s.step op = some s') (hk : op.evaluates s k) : s.board.Clear k := by
  cases op with
  | evaluateLive e =>
    cases hk
    exact h.rooted (evaluateServiceAlerts_not_deleted (eq_ok_of_toOption hs))
  | evaluateBurn e =>
    rintro hn o ⟨a, ha, hf, rfl⟩
    exact hok k hk hn a ha hf
  | _ => exact hk.elim

theorem Numbered.step (h : s.Numbered) {op : AlertOp} (hok : s.settled op)
    (hs : s.step op = some s') : s'.Numbered := by
  refine ⟨h.coherent.step hs, h.inv.transition (fun k hk => h.clear hok hs hk)
    (h.coherent.step_transition hs), fun hdel => ?_⟩
  rcases h.coherent.step_cases hs with he | hr | ⟨-, hd, hm⟩
  · exact (h.rooted (he.kept.2.2.2.2 ▸ hdel)).moves he.moves
  · obtain ⟨t, gone, ht, -, hkeeps, hboard⟩ := hr.board
    obtain ⟨hdel, hgone⟩ := hkeeps hdel
    rw [hboard]
    exact ((h.rooted hdel).moves ht.moves).discard hgone
  · refine (h.rooted ?_).report (hd.report hm)
    rw [hd.same] at hdel
    exact hdel

theorem numbered_of_reach {fileManaged : Bool} (h : Reach step settled (empty fileManaged) s) :
    s.Numbered := by
  refine h.invariant ⟨empty_coherent fileManaged, ?_, fun _ => ?_⟩ fun _ _ _ hn hok hs =>
    hn.step hok hs
  · rw [board_empty]
    exact Board.empty_inv
  · rw [board_empty]
    exact fun _ o ho => ho.elim

theorem Numbered.announced (h : s.Numbered) {l : Latch} (hl : s.latch k = some l) (hf : l.firing)
    (hd : l.emittedSeq ≤ l.deliveredSeq) : s.Announced k := by
  obtain ⟨e, n, hcur, a, ha, haf, rfl⟩ := h.inv.announced hl hf hd
  obtain ⟨ep, hep, he⟩ := map_eq_some_iff.1 hcur
  have hid : (some ep.id, ep.recipients) = a.announcement := (Prod.mk.inj he).1
  exact ⟨ep, hep, a, ha, haf, (Prod.mk.inj hid).1.symm⟩

theorem Coherent.latch_of_mem (h : s.Coherent) {l : BurnLatch} (hl : l ∈ s.latches) :
    s.latch l.key = some l.toLatch :=
  congrArg (Option.map BurnLatch.toLatch) (find?_key_of_mem h.keyed hl)

theorem Numbered.credits (h : s.Numbered) {d : Delivery} (hd : d ∈ s.workers)
    (hne : (s.markServiceAlertDelivered d.alert).latch k ≠ s.latch k) :
    ∃ ep ∈ s.openEpisode k, d.alert.episodeID = some ep.id := by
  unfold markServiceAlertDelivered at hne
  split at hne
  · next hf =>
    have hmod : (s.modifyLatch d.alert.key (·.credit d.alert.seq)).latch k =
        (s.board.modify d.alert.key (·.credit d.alert.seq)).latch k := by
      rw [← board_modifyLatch]
      rfl
    rw [hmod] at hne
    rcases eq_or_ne k d.alert.key with rfl | hk
    · cases hl : s.latch d.alert.key with
      | none => simp [Board.modify, board, hl] at hne
      | some l =>
        rcases Latch.credit_cases l d.alert.seq with he | ⟨he, -⟩
        · simp [Board.modify, board, hl, he] at hne
        have ho : d.alert.onset ∈ s.board.onsets := ⟨_, outstanding_of_worker hd, hf, rfl⟩
        have hcur := h.inv.current_of_creditable ho hl he
        obtain ⟨ep, hep, heq⟩ := map_eq_some_iff.1 hcur
        have hid : (some ep.id, ep.recipients) = d.alert.announcement := (Prod.mk.inj heq).1
        exact ⟨ep, hep, (Prod.mk.inj hid).1.symm⟩
    · simp [Board.modify, board, Function.update_of_ne hk] at hne
  · exact absurd rfl hne

theorem Numbered.suppressionSound (h : s.Numbered) : s.SuppressionSound where
  live self candidates hcand hself st hst hpages := by
    obtain ⟨now, routing, governing, hc⟩ := hcand
    obtain ⟨c, hmem, hv⟩ := mem_owners_iff.1 hself
    rw [hc c hmem] at hv
    obtain ⟨hf, -, hle⟩ := liveVerdict_covers hst hpages hv
    have hl : s.latch .health = some st.toLatch := by
      rw [latch, mem_def.1 hst, map_some]
    exact h.announced hl hf hle
  burn self candidates hcand hself l hl hfire := by
    obtain ⟨now, routing, governing, hc⟩ := hcand
    obtain ⟨c, hmem, hv⟩ := mem_owners_iff.1 hself
    rw [hc c hmem] at hv
    obtain ⟨t, ht, hen, -⟩ := h.coherent.declared l hl
    obtain ⟨hf, -, hle⟩ := burnVerdict_covers hl ht hen hfire hv
    exact h.announced (h.coherent.latch_of_mem hl) hf hle
  credits d hd k hne := h.credits hd hne

/-- **Suppression is sound in every run of settled steps.** -/
theorem suppressionSound_of_reach {fileManaged : Bool}
    (h : Reach step settled (empty fileManaged) s) : s.SuppressionSound :=
  (numbered_of_reach h).suppressionSound

def pagingRule : BurnRule := ⟨7200, 3600, 2, .page, false⟩

def burning (asOf : Int) : BurnEvaluation :=
  let window : BurnWindow := ⟨.ok, none, some 3⟩
  ⟨asOf, 30, [0], true, fun _ _ => (window, window), ⟨[7], none⟩⟩

/-- The service owns paging and has a target with a rule, which fires; the onset is event 0. -/
def firstBurn : List AlertOp :=
  [.updatePolicy ⟨some true, none, none, none, none⟩ 0, .upsertTarget .month 99,
    .setBurn ⟨.month, true, [pagingRule], 1⟩, .evaluateBurn (burning 2)]

/-- The target is switched off and on, and the rule fires again; the second onset is event 2. -/
def reEnabled : List AlertOp :=
  [.setBurn ⟨.month, false, [pagingRule], 3⟩, .setBurn ⟨.month, true, [pagingRule], 4⟩,
    .evaluateBurn (burning 5)]

def delivers (id : Nat) (now : Int) : List AlertOp :=
  [.deliver (.claim id now), .deliver (.gate 0 false true), .deliver (.send 0 ⟨1, 1, 1⟩ false),
    .deliver (.record 0 true), .deliver (.settle 0 now)]

def deletedLatch : AlertTables :=
  finalState step (empty false) (firstBurn ++ reEnabled ++ delivers 0 6)

/-- **The late delivery of an older onset arms the new latch**: the service covers its monitors'
burn alerts, and nobody was told what it announces. -/
theorem deletedLatch_unsound :
    Reach step anyStep (empty false) deletedLatch ∧ ¬ deletedLatch.SuppressionSound := by
  refine ⟨reach_finalState fun _ _ _ => trivial, fun h => ?_⟩
  let clauses := deletedLatch.coverageClauses 6 ⟨[7], none⟩ none
  have hcand : deletedLatch.Candidate 0 [(0, clauses)] :=
    ⟨6, ⟨[7], none⟩, none, fun c hc => (Prod.mk.inj (List.mem_singleton.1 hc)).2⟩
  have hall : ∀ l ∈ deletedLatch.latches, l.lastVerdict = .fire → deletedLatch.Announced l.key :=
    h.burn 0 _ hcand (mem_owners_iff.2 ⟨clauses, List.mem_singleton.2 rfl, by decide⟩)
  revert hall
  decide

/-- When the first onset is delivered before the target is switched off, only its own delivery
credits the second announcement. -/
theorem settledRun_sound :
    (finalState step (empty false) (firstBurn ++ delivers 0 3 ++ reEnabled)).SuppressionSound ∧
      (finalState step (empty false) (firstBurn ++ delivers 0 3 ++ reEnabled)).latches.map
        (fun l => (l.firing, l.emittedSeq, l.deliveredSeq)) = [(true, 1, 0)] :=
  ⟨suppressionSound_of_reach (reach_of_allowedRun (by decide)), by decide⟩

end AlertTables

end Cerbix.Alerting
