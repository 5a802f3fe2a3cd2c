import Cerbix.Alerting.Workers

/-!
# The alerting of a service as one system

`AlertOp` are the transactions that reach the rows: evaluators, declarations, the deletion of the
service and every step of delivery, in any order. All of them keep `Coherent` (`coherent_of_reach`).
`Coherent.step_transition` is the refinement: a step is one transition of the board, and creates
latches only of the identities it evaluates.
-/

namespace Cerbix.Alerting

open Cerbix.Lib Cerbix.Domain List BurnLatch EpisodeCloseFilter BurnWrite

/-- What happens to a service's alerts. -/
inductive AlertOp
  | evaluateLive (e : LiveEvaluation)
  | evaluateBurn (e : BurnEvaluation)
  | updatePolicy (patch : AlertPolicyPatch) (asOf : Int)
  | applyPolicy (declared : Option AlertPolicy) (asOf : Int)
  | setBurn (w : BurnWrite)
  | upsertTarget (window : TargetWindow) (objective : Rat)
  | deleteService (pinned : Bool) (asOf : Int)
  | deliver (op : DeliveryOp)

/-- A transaction that fails is no step. -/
def AlertTables.step (s : AlertTables) : AlertOp → Option AlertTables
  | .evaluateLive e => (s.evaluateServiceAlerts e).toOption
  | .evaluateBurn e => (s.evaluateServiceBurnAlerts e).toOption
  | .updatePolicy patch asOf => (s.updateServiceAlertPolicy patch asOf).toOption
  | .applyPolicy declared asOf => (s.applyServiceAlerting declared asOf).toOption
  | .setBurn w => (s.setServiceBurnAlerting w).toOption
  | .upsertTarget window objective => (s.upsertServiceSLATarget window objective).toOption
  | .deleteService pinned asOf => (s.deleteService pinned asOf).toOption
  | .deliver op => s.deliver op

def BurnEvaluation.keys (e : BurnEvaluation) (targets : List BurnTarget) : List AlertKey :=
  e.slice.flatMap fun i =>
    match targets[i]? with
    | some t => (burnRuleKeys t.rules).map (.burn i)
    | none => []

def AlertOp.evaluates (op : AlertOp) (s : AlertTables) (k : AlertKey) : Prop :=
  match op with
  | .evaluateLive _ => k = .health
  | .evaluateBurn e => k ∈ e.keys s.targets
  | _ => False

def BurnWrite.drops (w : BurnWrite) (i : Nat) : AlertKey → Bool
  | .health => false
  | .burn j rule => j = i ∧ ¬ (w.enabled ∧ rule ∈ burnRuleKeys w.rules)

theorem BurnWrite.keeps_eq (w : BurnWrite) (i : Nat) (l : BurnLatch) :
    w.keeps i l = !w.drops i l.key := by
  simp only [drops, key]
  rw [← decide_not]
  exact decide_eq_decide.2 (by tauto)

namespace AlertTables

variable {s s' : AlertTables} {k : AlertKey}

/-- An identity that may have a latch: the live signal, and every rule of an enabled target. -/
def Declares (s : AlertTables) : AlertKey → Prop
  | .health => True
  | .burn i rule => ∃ t, s.targets[i]? = some t ∧ t.enabled ∧ rule ∈ burnRuleKeys t.rules

/-- The open live episode is of the state the row says was announced, and the declaration pages on
it. -/
def Covered (s : AlertTables) : Prop :=
  ∀ ep, s.openEpisode .health = some ep →
    s.emittedState = ep.state ∧ ∃ st, ep.state = some st ∧ s.policy.pages st

/-- The tables and their board agree, and every row belongs to something declared. -/
structure Coherent (s : AlertTables) : Prop where
  agree : s.board.Agree
  unique : s.OpenUnique
  declared : ∀ l ∈ s.latches, s.Declares l.key
  keyed : (s.latches.map key).Nodup
  attended : s.openEpisode .health = none → ∀ i ∈ s.incidents, i.isOpen = false
  covered : s.Covered
  filed : Filed s.episodes s.log
  copies : s.Copies

theorem board_empty (fileManaged : Bool) : (empty fileManaged).board = Board.empty := by
  refine Board.ext (funext fun k => ?_) rfl rfl (Set.ext fun o => ?_) (Set.ext fun o => ?_)
  · cases k <;> rfl
  · refine iff_of_false ?_ (Set.notMem_empty o)
    rintro ⟨a, ha, -⟩
    cases ha
  · refine iff_of_false ?_ (Set.notMem_empty o)
    rintro ⟨a, ha, -⟩
    cases ha

theorem empty_coherent (fileManaged : Bool) : (empty fileManaged).Coherent where
  agree := by
    rw [board_empty]
    exact Board.empty_inv.toAgree
  unique := nodup_nil
  declared l hl := by cases hl
  keyed := nodup_nil
  attended _ i hi := by cases hi
  covered ep hep := by cases hep
  filed := {
    ids := fun i ep hep => by cases hep
    onsets := fun a ha => by cases ha }
  copies := {
    rowID := fun r hr => by cases hr
    copyID := fun d hd => by cases hd
    rows := fun r hr => by cases hr
    copies := fun d hd => by cases hd
    sent := fun d hd => by cases hd
    logged := fun a ha => by cases ha
    heardLogged := fun a ha => by cases ha }

theorem Coherent.open_of_firing (h : s.Coherent) (hf : (s.latchAt k).firing) :
    ∃ ep, s.openEpisode k = some ep := by
  cases hl : s.latch k with
  | none => simp [latchAt, hl, Latch.new] at hf
  | some l =>
    rw [latchAt, hl] at hf
    obtain ⟨e, he⟩ := h.agree.firing k l hl hf
    obtain ⟨ep, hep, -⟩ := Option.map_eq_some_iff.1 he
    exact ⟨ep, hep⟩

theorem Declares.congr (h : s.Declares k) (ht : s'.targets = s.targets) : s'.Declares k := by
  cases k with
  | health => trivial
  | burn i rule => simpa only [Declares, ht] using h

/-! ## Evaluations -/

namespace Evaluated

variable (h : Evaluated k s s')

include h

theorem kept : s'.targets = s.targets ∧ s'.policy = s.policy ∧ s'.workers = s.workers ∧
    s'.heard = s.heard ∧ s'.deleted = s.deleted := by
  cases h with
  | quiet hrow => rw [hrow.same]; exact ⟨rfl, rfl, rfl, rfl, rfl⟩
  | onset em _ _ _ hrow => rw [hrow.same]; exact ⟨rfl, rfl, rfl, rfl, rfl⟩
  | close asOf reason state _ hrow => rw [hrow.same]; exact ⟨rfl, rfl, rfl, rfl, rfl⟩

theorem unique (hu : s.OpenUnique) : s'.OpenUnique := by
  cases h with
  | quiet hrow =>
    rw [OpenUnique, hrow.episodes]
    exact hu
  | onset em _ _ _ hrow =>
    rw [OpenUnique, hrow.episodes]
    exact hu.emitOnset em _
  | close asOf reason state _ hrow =>
    rw [OpenUnique, hrow.episodes]
    exact hu.closeOpen k asOf reason

theorem copies (hc : s.Copies) : s'.Copies := by
  cases h with
  | quiet hrow =>
    rw [hrow.same]
    exact hc.congr rfl rfl rfl rfl rfl
  | onset em _ _ _ hrow =>
    rw [hrow.same]
    exact (hc.enqueueOutbox _ em.asOf).congr rfl rfl rfl rfl rfl
  | close asOf reason state _ hrow =>
    rw [hrow.same]
    exact (hc.enqueueOutbox _ asOf).congr rfl rfl rfl rfl rfl

theorem filed (hfiled : Filed s.episodes s.log) : Filed s'.episodes s'.log := by
  cases h with
  | quiet hrow =>
    rw [hrow.same]
    exact hfiled
  | onset em _ _ _ hrow =>
    rw [hrow.same]
    exact hfiled.emitOnset em _
  | close asOf reason state _ hrow =>
    rw [hrow.same]
    exact (hfiled.closeOpen k asOf reason).concat rfl

theorem keyed (hn : (s.latches.map key).Nodup) : (s'.latches.map key).Nodup := by
  cases h with
  | quiet hrow => exact hrow.nodup hn
  | onset em _ _ _ hrow => exact hrow.nodup hn
  | close asOf reason state _ hrow => exact hrow.nodup hn

theorem latch_key : ∀ row ∈ s'.latches, row.key = k ∨ ∃ row' ∈ s.latches, row'.key = row.key := by
  cases h with
  | quiet hrow => exact hrow.keys
  | onset em _ _ _ hrow => exact hrow.keys
  | close asOf reason state _ hrow => exact hrow.keys

theorem attended (ha : s.openEpisode .health = none → ∀ i ∈ s.incidents, i.isOpen = false) :
    s'.openEpisode .health = none → ∀ i ∈ s'.incidents, i.isOpen = false := by
  cases h with
  | quiet hrow hinc =>
    rw [hrow.openEpisode, hinc]
    exact ha
  | onset em hkey _ _ hrow hinc =>
    rw [hrow.openEpisode, openEpisode_emitOnset, hkey]
    intro hnone
    by_cases hk : AlertKey.health = k
    · rw [if_pos hk] at hnone
      cases hnone
    · rw [if_neg hk] at hnone
      rw [hinc (Ne.symm hk)]
      exact ha hnone
  | close asOf reason state _ hrow hinc hresolved =>
    intro hnone
    by_cases hk : k = .health
    · exact hresolved hk
    · have hsame : s'.openEpisode .health = s.openEpisode .health := by
        rw [hrow.openEpisode]
        exact (openEpisode_closeOpen k .health asOf reason).trans (if_neg (Ne.symm hk))
      rw [hinc hk]
      exact ha (hsame ▸ hnone)

theorem covered (hc : s.Covered) : s'.Covered := by
  have hpolicy := h.kept.2.1
  intro ep hep
  cases h with
  | quiet hrow hinc hstate =>
    rw [hrow.openEpisode] at hep
    rw [hstate, hpolicy]
    exact hc ep hep
  | onset em hkey _ _ hrow _ hstate =>
    rw [hrow.openEpisode, openEpisode_emitOnset, hkey] at hep
    by_cases hk : AlertKey.health = k
    · rw [if_pos hk] at hep
      cases hep
      rw [hpolicy]
      exact hstate hk.symm
    · rw [if_neg hk] at hep
      rw [emittedState, hrow.live (Ne.symm hk), hpolicy]
      exact hc ep hep
  | close asOf reason state _ hrow =>
    rw [hrow.openEpisode] at hep
    have hep := (openEpisode_closeOpen k .health asOf reason).symm.trans hep
    by_cases hk : AlertKey.health = k
    · rw [if_pos hk] at hep
      cases hep
    · rw [if_neg hk] at hep
      rw [emittedState, hrow.live (Ne.symm hk), hpolicy]
      exact hc ep hep

end Evaluated

theorem Coherent.evaluated (h : s.Coherent) (hk : s.Declares k) (he : Evaluated k s s') :
    s'.Coherent where
  agree := h.agree.move he.move
  unique := he.unique h.unique
  declared row hrow := by
    rcases he.latch_key row hrow with hkey | ⟨row', hrow', hkey⟩
    · rw [hkey]
      exact hk.congr he.kept.1
    · rw [← hkey]
      exact (h.declared row' hrow').congr he.kept.1
  keyed := he.keyed h.keyed
  attended := he.attended h.attended
  covered := he.covered h.covered
  filed := he.filed h.filed
  copies := he.copies h.copies

def EvaluatedBy (P : AlertKey → Prop) : AlertTables → AlertTables → Prop :=
  Relation.ReflTransGen fun t t' => ∃ k, P k ∧ Evaluated k t t'

section EvaluatedBy

variable {P : AlertKey → Prop}

theorem EvaluatedBy.moves (h : EvaluatedBy P s s') : Board.Moves P s.board s'.board := by
  induction h with
  | refl => exact .refl
  | tail _ hstep ih =>
    obtain ⟨k, hk, he⟩ := hstep
    exact ih.tail ⟨k, hk, he.move⟩

theorem EvaluatedBy.kept (h : EvaluatedBy P s s') :
    s'.targets = s.targets ∧ s'.policy = s.policy ∧ s'.workers = s.workers ∧
      s'.heard = s.heard ∧ s'.deleted = s.deleted := by
  induction h with
  | refl => exact ⟨rfl, rfl, rfl, rfl, rfl⟩
  | tail _ hstep ih =>
    obtain ⟨k, -, he⟩ := hstep
    obtain ⟨h₁, h₂, h₃, h₄, h₅⟩ := he.kept
    exact ⟨h₁.trans ih.1, h₂.trans ih.2.1, h₃.trans ih.2.2.1, h₄.trans ih.2.2.2.1,
      h₅.trans ih.2.2.2.2⟩

theorem Coherent.evaluatedBy (h : s.Coherent) (hP : ∀ k, P k → s.Declares k)
    (he : EvaluatedBy P s s') : s'.Coherent := by
  induction he with
  | refl => exact h
  | tail hrun hstep ih =>
    obtain ⟨k, hk, he⟩ := hstep
    exact ih.evaluated ((hP k hk).congr (EvaluatedBy.kept hrun).1) he

end EvaluatedBy

section Burn

variable {e : BurnEvaluation} {i : Nat} {t : BurnTarget}

theorem mem_keys {targets : List BurnTarget} {rule : RuleKey} (hi : i ∈ e.slice)
    (ht : targets[i]? = some t) (hr : rule ∈ burnRuleKeys t.rules) :
    AlertKey.burn i rule ∈ e.keys targets := by
  refine mem_flatMap.2 ⟨i, hi, ?_⟩
  rw [ht]
  exact mem_map_of_mem hr

def burnScope (s : AlertTables) (e : BurnEvaluation) (k : AlertKey) : Prop :=
  k ∈ e.keys s.targets ∧ s.Declares k

theorem evaluateBurnTarget_ok (hs : s.evaluateBurnTarget e i = .ok s') :
    ∃ t, s.targets[i]? = some t ∧ t.enabled ∧ ((e.hasSealed ∧
        (burnRuleKeys t.rules).foldlM (fun s rule => s.evaluateBurnRule e i t rule) s = .ok s') ∨
      (e.hasSealed = false ∧
        s' = (burnRuleKeys t.rules).foldl (fun s rule => s.disarmBurnRule e i t rule) s)) := by
  unfold evaluateBurnTarget at hs
  split at hs
  · cases hs
  rename_i t ht
  split at hs
  · next hin =>
    simp only [Bool.and_eq_true] at hin
    refine ⟨t, ht, hin.1.2, ?_⟩
    split at hs
    · next hsealed => exact .inl ⟨hsealed, hs⟩
    · next hsealed =>
      cases hs
      exact .inr ⟨by simpa using hsealed, rfl⟩
  · cases hs

section Pass

variable {s₀ : AlertTables} (hrun : EvaluatedBy (s₀.burnScope e) s₀ s)

include hrun

variable {rule : RuleKey}

theorem EvaluatedBy.burnScope (hi : i ∈ e.slice) (ht : s.targets[i]? = some t)
    (hen : t.enabled) (hr : rule ∈ burnRuleKeys t.rules) : s₀.burnScope e (.burn i rule) := by
  rw [hrun.kept.1] at ht
  exact ⟨mem_keys hi ht hr, t, ht, hen, hr⟩

theorem EvaluatedBy.burnRule (h : s₀.Coherent)
    (hs : s.evaluateBurnRule e i t rule = .ok s') : Evaluated (.burn i rule) s s' :=
  evaluateBurnRule_evaluated (h.evaluatedBy (fun _ hk => hk.2) hrun).open_of_firing hs

theorem evaluateBurnTarget_evaluatedBy (h : s₀.Coherent) (hi : i ∈ e.slice)
    (hs : s.evaluateBurnTarget e i = .ok s') : EvaluatedBy (s₀.burnScope e) s₀ s' := by
  obtain ⟨t, ht, hen, hrules⟩ := evaluateBurnTarget_ok hs
  have hscope : ∀ rule ∈ burnRuleKeys t.rules, s₀.burnScope e (.burn i rule) := fun rule hr =>
    hrun.burnScope hi ht hen hr
  rcases hrules with ⟨-, hs⟩ | ⟨-, rfl⟩
  · refine foldlM_invariant (fun rule hr u u' hu hu' => ?_) hrun hs
    exact hu.tail ⟨_, hscope rule hr, EvaluatedBy.burnRule hu h hu'⟩
  · refine foldlRecOn (burnRuleKeys t.rules) _ hrun fun u hu rule hr => ?_
    exact hu.tail ⟨_, hscope rule hr, disarmBurnRule_evaluated⟩

end Pass

/-- **A pass of the burn evaluator is a run of evaluations of the rules it takes.** -/
theorem evaluateServiceBurnAlerts_evaluatedBy (h : s.Coherent)
    (hs : s.evaluateServiceBurnAlerts e = .ok s') : EvaluatedBy (s.burnScope e) s s' :=
  foldlM_invariant (fun _ hi _ _ hrun hu => evaluateBurnTarget_evaluatedBy hrun h hi hu) .refl hs

end Burn

/-! ## Lifecycle closes -/

/-- What a close of episodes leaves as it was. -/
structure Kept (s s' : AlertTables) : Prop where
  targets : s'.targets = s.targets
  policy : s'.policy = s.policy
  workers : s'.workers = s.workers
  heard : s'.heard = s.heard
  deleted : s'.deleted = s.deleted
  keys : s'.latches.map key = s.latches.map key
  live : s'.live.map LiveState.emittedState = s.live.map LiveState.emittedState
  unique : s.OpenUnique → s'.OpenUnique
  filed : Filed s.episodes s.log → Filed s'.episodes s'.log
  copies : s.Copies → s'.Copies

theorem Kept.refl (s : AlertTables) : s.Kept s :=
  ⟨rfl, rfl, rfl, rfl, rfl, rfl, rfl, id, id, id⟩

theorem Kept.trans {s'' : AlertTables} (h : s.Kept s') (h' : s'.Kept s'') : s.Kept s'' :=
  ⟨h'.targets.trans h.targets, h'.policy.trans h.policy, h'.workers.trans h.workers,
    h'.heard.trans h.heard, h'.deleted.trans h.deleted, h'.keys.trans h.keys,
    h'.live.trans h.live, h'.unique ∘ h.unique, h'.filed ∘ h.filed, h'.copies ∘ h.copies⟩

theorem modifyLatch_kept (k : AlertKey) (f : Latch → Latch) : s.Kept (s.modifyLatch k f) := by
  cases k with
  | health =>
    refine ⟨rfl, rfl, rfl, rfl, rfl, rfl, ?_, id, id, fun h => h.congr rfl rfl rfl rfl rfl⟩
    simp [modifyLatch, Function.comp_def]
  | burn i rule =>
    refine ⟨rfl, rfl, rfl, rfl, rfl, ?_, rfl, id, id, fun h => h.congr rfl rfl rfl rfl rfl⟩
    rw [modifyLatch, map_map]
    refine map_congr_left fun l _ => ?_
    rw [Function.comp_apply]
    split <;> rfl

variable {f : EpisodeCloseFilter} {asOf : Int} {reason : CloseReason}

theorem endEpisode_kept (ep : Episode) : s.Kept (endEpisode asOf reason s ep) := by
  refine Kept.trans ?_ (modifyLatch_kept ep.key _)
  exact ⟨rfl, rfl, rfl, rfl, rfl, rfl, rfl, fun h => h.closeOpen _ _ _,
    fun h => (h.closeOpen _ _ _).concat rfl, fun h =>
      (h.enqueueOutbox _ asOf).congr rfl rfl rfl rfl rfl⟩

theorem closeServiceEpisodes_kept : s.Kept (s.closeServiceEpisodes f asOf reason) := by
  have hfold : s.Kept ((s.episodes.filter fun e => e.isOpen && f.ends e.key).foldl
      (endEpisode asOf reason) s) :=
    foldlRecOn _ _ (Kept.refl s) fun t ht ep _ => ht.trans (endEpisode_kept ep)
  unfold closeServiceEpisodes
  simp only
  split
  · exact hfold.trans ⟨rfl, rfl, rfl, rfl, rfl, rfl, rfl, id, id, fun h =>
      h.congr rfl rfl rfl rfl rfl⟩
  · exact hfold

theorem closeServiceEpisodes_attended
    (ha : s.openEpisode .health = none → ∀ i ∈ s.incidents, i.isOpen = false) :
    (s.closeServiceEpisodes f asOf reason).openEpisode .health = none →
      ∀ i ∈ (s.closeServiceEpisodes f asOf reason).incidents, i.isOpen = false := by
  have hinc : ((s.episodes.filter fun e => e.isOpen && f.ends e.key).foldl (endEpisode asOf reason)
      s).incidents = s.incidents :=
    foldlRecOn (motive := fun t : AlertTables => t.incidents = s.incidents) _ _ rfl
      fun t ht ep _ => by
      rw [endEpisode_same]
      exact ht
  rw [openEpisode_closeServiceEpisodes]
  intro hnone
  unfold closeServiceEpisodes
  simp only
  split
  · exact resolveServiceIncident_closed
  rename_i hno
  rw [hinc]
  refine ha ?_
  by_cases hf : f.ends .health
  · -- no live episode ended, so none was open
    refine find?_eq_none.2 fun ep hep hlive => hno ?_
    simp only [Bool.and_eq_true, decide_eq_true_eq] at hlive
    refine any_eq_true.2 ⟨ep, mem_filter.2 ⟨hep, ?_⟩, by simp [hlive.2]⟩
    simp [hlive.1, hlive.2, hf]
  · rwa [if_neg hf] at hnone

theorem Coherent.closeServiceEpisodes (h : s.Coherent) :
    (s.closeServiceEpisodes f asOf reason).Coherent where
  agree := h.agree.moves (closeServiceEpisodes_moves h.unique h.agree)
  unique := closeServiceEpisodes_kept.unique h.unique
  declared l hl := by
    have hmem := mem_map_of_mem (f := key) hl
    rw [closeServiceEpisodes_kept.keys] at hmem
    obtain ⟨l', hl', hkey⟩ := mem_map.1 hmem
    rw [← hkey]
    exact (h.declared l' hl').congr closeServiceEpisodes_kept.targets
  keyed := by
    rw [closeServiceEpisodes_kept.keys]
    exact h.keyed
  attended := closeServiceEpisodes_attended h.attended
  covered ep hep := by
    rw [openEpisode_closeServiceEpisodes] at hep
    split at hep
    · cases hep
    · rw [emittedState_congr closeServiceEpisodes_kept.live, closeServiceEpisodes_kept.policy]
      exact h.covered ep hep
  filed := closeServiceEpisodes_kept.filed h.filed
  copies := closeServiceEpisodes_kept.copies h.copies

/-- Some episodes were closed, and nothing else happened. -/
structure Ends (s s' : AlertTables) : Prop where
  coherent : s'.Coherent
  kept : s.Kept s'
  moves : Board.Moves (fun k => s.board.latch k ≠ none) s.board s'.board
  left : ∀ k, s'.openEpisode k = none ∨
    (s'.openEpisode k = s.openEpisode k ∧ s'.latch k = s.latch k)

theorem Coherent.ends_refl (h : s.Coherent) : s.Ends s :=
  ⟨h, .refl s, .refl, fun _ => .inr ⟨rfl, rfl⟩⟩

theorem Coherent.ends_close (h : s.Coherent) (f : EpisodeCloseFilter) (asOf : Int)
    (reason : CloseReason) : s.Ends (s.closeServiceEpisodes f asOf reason) where
  coherent := h.closeServiceEpisodes
  kept := closeServiceEpisodes_kept
  moves := closeServiceEpisodes_moves h.unique h.agree
  left k := by
    rw [openEpisode_closeServiceEpisodes]
    split
    · exact .inl rfl
    · next hk => exact .inr ⟨rfl, latch_closeServiceEpisodes (by simpa using hk)⟩

/-- What a declaration does to the announcements: it ends some, and drops latches nothing is open
under. -/
structure Retired (s s' : AlertTables) : Prop where
  coherent : s'.Coherent
  workers : s'.workers = s.workers
  board : ∃ t gone, s.Ends t ∧ (∀ k, gone k → t.openEpisode k = none) ∧
    (s'.deleted = false → s.deleted = false ∧ gone .health = false) ∧
    s'.board = t.board.discard gone

theorem Retired.transition {P : AlertKey → Prop} (h : s.Retired s') :
    Board.Transition P s.board s'.board := by
  obtain ⟨t, gone, ht, hgone, -, he⟩ := h.board
  rw [he]
  exact .retire ht.moves fun k hk => board_current_eq_none (hgone k hk)

theorem Ends.retired {t : AlertTables} (h : s.Ends t) (hc : s'.Coherent) (he : s'.board = t.board)
    (hd : s'.deleted = t.deleted) (hw : s'.workers = t.workers) : s.Retired s' := by
  refine ⟨hc, hw.trans h.kept.workers, t, fun _ => false, h, fun k hk => ?_, fun hdel => ⟨?_, rfl⟩,
    he⟩
  · cases hk
  · rw [← h.kept.deleted, ← hd, hdel]

/-! ## The paging declaration -/

theorem closeUncovered_cases (before next : AlertPolicy) (asOf : Int) :
    s.closeUncovered before next asOf = s ∨
      ∃ f reason, s.closeUncovered before next asOf = s.closeServiceEpisodes f asOf reason := by
  unfold closeUncovered
  split
  · exact .inr ⟨_, _, rfl⟩
  split
  · split
    · split
      · exact .inr ⟨_, _, rfl⟩
      · exact .inl rfl
    · exact .inl rfl
  · exact .inl rfl

theorem Coherent.ends_closeUncovered (h : s.Coherent) (before next : AlertPolicy) (asOf : Int) :
    s.Ends (s.closeUncovered before next asOf) := by
  rcases closeUncovered_cases (s := s) before next asOf with he | ⟨f, reason, he⟩
  · rw [he]
    exact h.ends_refl
  · rw [he]
    exact h.ends_close f asOf reason

variable {next : AlertPolicy} {op : AlertOp}

theorem Coherent.pages_closeUncovered (h : s.Coherent) {asOf : Int}
    {ep : Episode} {st : AlertState} (hst : ep.state = some st)
    (hep : (s.closeUncovered s.policy.canonical next asOf).openEpisode .health = some ep) :
    next.pages st := by
  unfold closeUncovered at hep
  split at hep
  · rw [openEpisode_closeServiceEpisodes] at hep
    cases hep
  · split at hep
    · split at hep
      · next e he =>
        split at hep
        · rw [openEpisode_closeServiceEpisodes] at hep
          cases hep
        · next hcovered =>
          cases he.symm.trans hep
          simpa [hst] using hcovered
      · next hnone =>
        rw [hnone] at hep
        cases hep
    · next hsame =>
      -- the same states page
      obtain ⟨-, st', hst', hpages⟩ := h.covered ep hep
      cases hst.symm.trans hst'
      simp only [pagingStatesChanged, decide_eq_true_eq, not_or, not_not] at hsame
      rw [← AlertPolicy.pages_congr hsame.2 hsame.1, AlertPolicy.canonical_pages]
      exact hpages

theorem Coherent.setPolicy (h : s.Coherent) (generation : Nat)
    (hpages : ∀ ep st, s.openEpisode .health = some ep → ep.state = some st → next.pages st) :
    ({ s with policy := next, configGeneration := generation } : AlertTables).Coherent :=
  ⟨h.agree, h.unique, h.declared, h.keyed, h.attended, fun ep hep => by
    obtain ⟨he, st, hst, -⟩ := h.covered ep hep
    exact ⟨he, st, hst, hpages ep st hep hst⟩, h.filed, h.copies.congr rfl rfl rfl rfl rfl⟩

theorem Coherent.retired_writePolicy (h : s.Coherent) (next : AlertPolicy) (asOf : Int) :
    s.Retired (s.writePolicy next asOf) := by
  unfold writePolicy
  simp only
  split
  · exact h.ends_refl.retired h rfl rfl rfl
  · have hends := h.ends_closeUncovered s.policy.canonical next asOf
    exact hends.retired (hends.coherent.setPolicy _ fun ep st hep hst =>
      h.pages_closeUncovered hst hep) rfl rfl rfl

theorem Coherent.retired_updateServiceAlertPolicy (h : s.Coherent) {patch : AlertPolicyPatch}
    {asOf : Int} (hs : s.updateServiceAlertPolicy patch asOf = .ok s') : s.Retired s' := by
  unfold updateServiceAlertPolicy at hs
  split at hs
  · cases hs
  split at hs
  · cases hs
  simp only at hs
  split at hs
  · cases hs
  · cases hs
    exact h.retired_writePolicy _ _

theorem Coherent.retired_applyServiceAlerting (h : s.Coherent) {declared : Option AlertPolicy}
    {asOf : Int} (hs : s.applyServiceAlerting declared asOf = .ok s') : s.Retired s' := by
  unfold applyServiceAlerting at hs
  split at hs
  · cases hs
  split at hs
  · cases hs
    exact h.ends_refl.retired h rfl rfl rfl
  · split at hs
    · cases hs
    · cases hs
      exact h.retired_writePolicy _ _

/-! ## The burn targets -/

section

variable {w : BurnWrite} {i : Nat} {t : BurnTarget}

/-- **A write of a target leaves nothing open under the latches it deletes.** A target that is off
has none. -/
theorem Coherent.openEpisode_closeUndeclared (h : s.Coherent) (ht : s.targets[i]? = some t)
    (hk : w.drops i k) : (s.closeUndeclared i t w).openEpisode k = none := by
  cases k with
  | health => cases hk
  | burn j rule =>
    simp only [drops, decide_eq_true_eq] at hk
    obtain ⟨rfl, hdrop⟩ := hk
    unfold closeUndeclared
    split
    · rw [openEpisode_closeServiceEpisodes, if_pos (by simp [ends])]
    split
    · next hw =>
      have hrule : rule ∉ burnRuleKeys w.rules := fun hr => hdrop ⟨hw, hr⟩
      rw [openEpisode_closeServiceEpisodes, if_pos (by simp [ends, hrule])]
    · next hoff hw =>
      cases hep : s.openEpisode (.burn j rule) with
      | none => rfl
      | some ep =>
        obtain ⟨l, hl, -⟩ := h.agree.opened _ _ _ (board_current hep)
        obtain ⟨row, hrow, -⟩ := Option.map_eq_some_iff.1 hl
        have hdecl := h.declared row (mem_of_find?_eq_some hrow)
        have hkey := find?_some hrow
        simp only [decide_eq_true_eq] at hkey
        rw [hkey] at hdecl
        obtain ⟨t', ht', hen, -⟩ := hdecl
        cases ht.symm.trans ht'
        simp [hen, hw] at hoff

theorem Coherent.ends_closeUndeclared (h : s.Coherent) (i : Nat) (t : BurnTarget)
    (w : BurnWrite) : s.Ends (s.closeUndeclared i t w) := by
  unfold closeUndeclared
  split
  · exact h.ends_close _ _ _
  · split
    · exact h.ends_close _ _ _
    · exact h.ends_refl

theorem board_dropLatches (w : BurnWrite) (i : Nat) (targets : List BurnTarget) :
    ({ s with latches := s.latches.filter (w.keeps i), targets := targets } : AlertTables).board =
      s.board.discard (w.drops i) := by
  refine Board.ext (funext fun k => ?_) rfl rfl rfl rfl
  cases k with
  | health => rfl
  | burn j rule =>
    simp only [board, latch, Board.discard, find?_filter, keeps_eq]
    split
    · next hd =>
      rw [Option.map_eq_none_iff, find?_eq_none]
      intro l _ hl
      simp only [decide_eq_true_eq] at hl
      rw [hl.2, hd] at hl
      cases hl.1
    · next hd =>
      congr 2
      funext l
      by_cases hl : l.key = .burn j rule
      · simp [hl, hd]
      · simp [hl]

theorem mem_burnRuleKeys_canonicalRules {rules : List BurnRule} {rule : RuleKey} :
    rule ∈ burnRuleKeys (canonicalRules rules) ↔ rule ∈ burnRuleKeys rules := by
  simp only [mem_burnRuleKeys, canonicalRules, mem_insertionSort, mem_map]
  constructor
  · rintro ⟨_, ⟨r, hr, rfl⟩, hk⟩
    exact ⟨r, hr, hk⟩
  · rintro ⟨r, hr, hk⟩
    exact ⟨_, ⟨r, hr, rfl⟩, hk⟩

theorem Coherent.retired_writeBurnAlerting (h : s.Coherent) (ht : s.targets[i]? = some t) :
    s.Retired (s.writeBurnAlerting i t w) := by
  unfold writeBurnAlerting
  simp only
  split
  · exact h.ends_refl.retired h rfl rfl rfl
  have hends := h.ends_closeUndeclared i t w
  have hnone : ∀ k, w.drops i k → (s.closeUndeclared i t w).openEpisode k = none := fun k hk =>
    h.openEpisode_closeUndeclared ht hk
  refine ⟨⟨?_, hends.coherent.unique, ?_, ?_, hends.coherent.attended, hends.coherent.covered,
    hends.coherent.filed, hends.coherent.copies.congr rfl rfl rfl rfl rfl⟩, hends.kept.workers, _,
    w.drops i, hends, hnone, fun hd => ⟨?_, rfl⟩, board_dropLatches w i _⟩
  · rw [board_dropLatches]
    exact hends.coherent.agree.discard fun k hk => board_current_eq_none (hnone k hk)
  · intro l hl
    obtain ⟨hl, hkeep⟩ := mem_filter.1 hl
    have hdecl := hends.coherent.declared l hl
    simp only [keeps, decide_eq_true_eq] at hkeep
    simp only [key, Declares, hends.kept.targets] at hdecl ⊢
    rcases eq_or_ne l.target i with he | hne
    · have hlt : i < s.targets.length := (List.getElem?_eq_some_iff.1 ht).1
      rcases hkeep with hne | ⟨hen, hrule⟩
      · exact absurd he hne
      · rw [he, List.getElem?_set_self hlt]
        exact ⟨_, rfl, hen, mem_burnRuleKeys_canonicalRules.2 hrule⟩
    · rw [List.getElem?_set_ne hne.symm]
      exact hdecl
  · exact hends.coherent.keyed.sublist (filter_sublist.map _)
  · rw [← hends.kept.deleted]
    exact hd

variable {window : TargetWindow}

theorem find_target (h : (s.targets.zipIdx.find? fun (t, _) => t.window = window) = some (t, i)) :
    s.targets[i]? = some t :=
  mem_zipIdx_iff_getElem?.1 (mem_of_find?_eq_some h)

theorem Coherent.retired_setServiceBurnAlerting (h : s.Coherent)
    (hs : s.setServiceBurnAlerting w = .ok s') : s.Retired s' := by
  unfold setServiceBurnAlerting at hs
  split at hs
  · cases hs
  split at hs
  · cases hs
  split at hs
  · cases hs
  rename_i t i hfind
  cases hs
  exact h.retired_writeBurnAlerting (find_target hfind)

theorem Coherent.setTargets (h : s.Coherent) {targets : List BurnTarget}
    (ht : ∀ (i : Nat) (t : BurnTarget), s.targets[i]? = some t → ∃ t', targets[i]? = some t' ∧
      t'.enabled = t.enabled ∧ t'.rules = t.rules) :
    ({ s with targets := targets } : AlertTables).Coherent := by
  refine ⟨h.agree, h.unique, fun l hl => ?_, h.keyed, h.attended, h.covered, h.filed,
    h.copies.congr rfl rfl rfl rfl rfl⟩
  obtain ⟨t, htl, hen, hr⟩ := h.declared l hl
  obtain ⟨t', ht', hen', hr'⟩ := ht l.target t htl
  exact ⟨t', ht', hen'.trans hen, by rw [hr']; exact hr⟩

theorem Coherent.retired_upsertServiceSLATarget (h : s.Coherent)
    {objective : Rat} (hs : s.upsertServiceSLATarget window objective = .ok s') : s.Retired s' := by
  unfold upsertServiceSLATarget at hs
  split at hs
  · cases hs
  split at hs
  · cases hs
    refine h.ends_refl.retired (h.setTargets fun i t ht => ⟨t, ?_, rfl, rfl⟩) rfl rfl rfl
    rw [List.getElem?_append_left (List.getElem?_eq_some_iff.1 ht).1, ht]
  · next t i hfind =>
    cases hs
    have hi := find_target hfind
    refine h.ends_refl.retired (h.setTargets fun j t' ht' => ?_) rfl rfl rfl
    rcases eq_or_ne j i with rfl | hne
    · cases hi.symm.trans ht'
      rw [List.getElem?_set_self (List.getElem?_eq_some_iff.1 hi).1]
      exact ⟨_, rfl, rfl, rfl⟩
    · rw [List.getElem?_set_ne hne.symm]
      exact ⟨t', ht', rfl, rfl⟩

end

theorem Coherent.retired_deleteService (h : s.Coherent) {pinned : Bool} {asOf : Int}
    (hs : s.deleteService pinned asOf = .ok s') : s.Retired s' := by
  unfold deleteService at hs
  split at hs
  · cases hs
  split at hs
  · cases hs
  split at hs
  · cases hs
  cases hs
  have hends := h.ends_close ⟨none, none, none⟩ asOf .serviceDeleted
  have hnone : ∀ k, (s.closeServiceEpisodes ⟨none, none, none⟩ asOf
      .serviceDeleted).openEpisode k = none := by
    intro k
    rw [openEpisode_closeServiceEpisodes]
    cases k <;> simp [ends]
  have hboard : ({ s.closeServiceEpisodes ⟨none, none, none⟩ asOf .serviceDeleted with
      deleted := true, targets := [], live := none, latches := [] } : AlertTables).board =
      (s.closeServiceEpisodes ⟨none, none, none⟩ asOf .serviceDeleted).board.discard
        fun _ => true := by
    refine Board.ext (funext fun k => ?_) rfl rfl rfl rfl
    cases k <;> rfl
  refine ⟨⟨?_, hends.coherent.unique, ?_, nodup_nil, hends.coherent.attended,
    fun ep hep => absurd ((hnone .health).symm.trans hep) (by simp), hends.coherent.filed,
    hends.coherent.copies.congr rfl rfl rfl rfl rfl⟩, hends.kept.workers, _, _, hends,
    fun k _ => hnone k, fun hd => ?_, hboard⟩
  · rw [hboard]
    exact hends.coherent.agree.discard fun k _ => board_current_eq_none (hnone k)
  · intro l hl
    cases hl
  · cases hd

theorem Coherent.delivered (h : s.Coherent) (hd : s.Delivers s') (hm : s.Marks s') :
    s'.Coherent := by
  refine ⟨h.agree.report (hd.report hm), ?_, fun l hl => ?_, hd.keys ▸ h.keyed, ?_, ?_, ?_,
    hd.toCopies h.copies⟩
  · rw [hd.same]
    exact h.unique
  · have hmem := mem_map_of_mem (f := key) hl
    rw [hd.keys] at hmem
    obtain ⟨l', hl', hkey⟩ := mem_map.1 hmem
    rw [← hkey]
    exact (h.declared l' hl').congr (by rw [hd.same])
  · rw [hd.same]
    exact h.attended
  · intro ep hep
    have hold : s.openEpisode .health = some ep := by
      rw [hd.same] at hep
      exact hep
    rw [emittedState_congr hd.state, show s'.policy = s.policy by rw [hd.same]]
    exact h.covered ep hold
  · rw [hd.same]
    exact h.filed

theorem eq_ok_of_toOption {ε : Type} {x : Except ε AlertTables} (h : x.toOption = some s) :
    x = .ok s := by
  cases x with
  | error => cases h
  | ok t =>
    cases h
    rfl

/-- **Everything a step can do**: evaluate identities, retire announcements, or deliver. -/
theorem Coherent.step_cases (h : s.Coherent) (hs : s.step op = some s') :
    EvaluatedBy (fun k => op.evaluates s k ∧ s.Declares k) s s' ∨ s.Retired s' ∨
      (∃ d, op = .deliver d) ∧ s.Delivers s' ∧ s.Marks s' := by
  cases op with
  | evaluateLive e =>
    have he := evaluateServiceAlerts_evaluated h.open_of_firing (eq_ok_of_toOption hs)
    exact .inl (.single ⟨.health, ⟨rfl, trivial⟩, he⟩)
  | evaluateBurn e =>
    exact .inl (evaluateServiceBurnAlerts_evaluatedBy h (eq_ok_of_toOption hs))
  | updatePolicy patch asOf =>
    exact .inr (.inl (h.retired_updateServiceAlertPolicy (eq_ok_of_toOption hs)))
  | applyPolicy declared asOf =>
    exact .inr (.inl (h.retired_applyServiceAlerting (eq_ok_of_toOption hs)))
  | setBurn w => exact .inr (.inl (h.retired_setServiceBurnAlerting (eq_ok_of_toOption hs)))
  | upsertTarget window objective =>
    exact .inr (.inl (h.retired_upsertServiceSLATarget (eq_ok_of_toOption hs)))
  | deleteService pinned asOf =>
    exact .inr (.inl (h.retired_deleteService (eq_ok_of_toOption hs)))
  | deliver op => exact .inr (.inr ⟨⟨op, rfl⟩, deliver_spec h.copies hs⟩)

theorem Coherent.step (h : s.Coherent) (hs : s.step op = some s') : s'.Coherent := by
  rcases h.step_cases hs with he | hr | ⟨-, hd, hm⟩
  · exact h.evaluatedBy (fun k hk => hk.2) he
  · exact hr.coherent
  · exact h.delivered hd hm

/-- **The refinement.** A step is one transition of the board of announcements. -/
theorem Coherent.step_transition (h : s.Coherent) (hs : s.step op = some s') :
    Board.Transition (op.evaluates s) s.board s'.board := by
  rcases h.step_cases hs with he | hr | ⟨-, hd, hm⟩
  · exact .evaluate (he.moves.mono fun k hk => hk.1)
  · exact hr.transition
  · exact .report (hd.report hm)

/-- **Every state of every run is coherent.** -/
theorem coherent_of_reach {ok : AlertTables → AlertOp → Prop} {fileManaged : Bool}
    (h : Reach step ok (empty fileManaged) s) : s.Coherent :=
  h.invariant (empty_coherent fileManaged) fun _ _ _ hc _ hs => hc.step hs

end AlertTables

end Cerbix.Alerting
