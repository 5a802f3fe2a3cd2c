import Cerbix.Gate.Report

/-!
# Gate decisions

How a gate decision is made from one snapshot (`internal/store/gatedecision.go`): the clauses of a
policy over a window, and the decisions for one window and for all. Coverage and governing
declaration, which a decision records unread, and the ids it draws are left out.
`decideAllWindows_joins`: the all-window decision is the join of its windows'.
`factsFreshUntil_sound`: until the instant it names, the same facts give the same decision.
-/

namespace Cerbix.Gate

open Cerbix.Lib Cerbix.Domain Cerbix.Alerting List

/-- Which clauses constrain a release, and what an unknown one does. -/
structure GatePolicy where
  revision : Nat
  schemaVersion : GatePolicySchema
  window : TargetWindow
  clauses : GateClause → ClauseAssignment
  budgetConsumedPercent : Int
  maxSealLagSeconds : Int
  unknownBehavior : GateUnknownBehavior

/-- All that the clauses of one window read. -/
structure GateClauseInputs where
  policy : GatePolicy
  evaluatedAt : Int
  report : ServiceWindowReport
  target : Option GateTarget
  latches : List BurnLatch
  incident : Option Nat

/-- The window and the target that a verdict is about. -/
abbrev Scope := TargetWindow × Nat

abbrev Verdict := GateClauseVerdict Scope

/-- The latches of the targets. -/
def burnLatches (s : Snapshot) (targetIDs : List Nat) : List BurnLatch :=
  s.latches.rows.filter fun l => l.target ∈ targetIDs

def latchOf (latches : List BurnLatch) (targetID : Nat) (rule : RuleKey) : Option BurnLatch :=
  latches.find? fun l => l.target = targetID && l.rule = rule

/-- The evaluation that wrote the latch still counts. -/
def latchFresh (l : BurnLatch) (at' : Int) : Bool := at' < l.leaseUntil

/-- Of rules with one key the first stays. -/
def dedupedRules (rules : List BurnRule) : List BurnRule :=
  rules.foldl (fun out r => if out.any fun q => q.key = r.key then out else out ++ [r]) []

section

variable (inp : GateClauseInputs)

/-- The verdict of a clause about the budget: matched from the threshold on. -/
def budgetVerdict (c : GateClause) (threshold : Rat) : Verdict :=
  let v : Verdict := ⟨c, inp.policy.clauses c, false, none, none, .reportBudget, none⟩
  match inp.target, inp.report.sealLag with
  | none, _ => { v with unavailable := some .windowTargetMissing }
  | some _, none => { v with unavailable := some .neverSealed }
  | some _, some lag =>
    if inp.policy.maxSealLagSeconds * Go.second < lag then { v with unavailable := some .sealStale }
    else match inp.report.budget with
      | none => { v with unavailable := some .budgetWithheld }
      | some budget =>
        { v with
          matched := threshold ≤ budget.burnedPercent
          value := some (.percent budget.burnedPercent) }

/-- The firing rules of a severity, and whether the latch of one is missing or stale. -/
def burnScan (target : GateTarget) (severity : Severity) : List RuleKey × Bool :=
  ((dedupedRules target.rules).filter fun r => r.severity = severity).foldl (fun acc r =>
    match latchOf inp.latches target.id r.key with
    | none => (acc.1, true)
    | some l =>
      if !latchFresh l inp.evaluatedAt then (acc.1, true)
      else if l.firing then (acc.1 ++ [r.key], acc.2)
      else acc) ([], false)

/-- The verdict of a clause about burn rules. -/
def burnVerdict (c : GateClause) (severity : Severity) : Verdict :=
  let v : Verdict := ⟨c, inp.policy.clauses c, false, none, none, .burnLatch, none⟩
  match inp.target with
  | none => { v with unavailable := some .windowTargetMissing }
  | some target =>
    let (firing, stale) := burnScan inp target severity
    if firing ≠ [] then { v with matched := true, value := some (.rules firing) }
    else if stale then { v with unavailable := some .factsStale }
    else v

/-- The verdict of the clause about open incidents. -/
def incidentVerdict (policy : GatePolicy) (incident : Option Nat) : Verdict where
  clause := .serviceIncidentOpen
  assignment := policy.clauses .serviceIncidentOpen
  matched := incident.isSome
  unavailable := none
  value := incident.map .incident
  source := .incidents
  scope := none

/-- The verdicts of all clauses of the policy's schema. -/
def evaluateGateClauses : List Verdict :=
  (gateClausesFor inp.policy.schemaVersion).map fun
    | .budgetExhausted => budgetVerdict inp .budgetExhausted 100
    | .budgetConsumed => budgetVerdict inp .budgetConsumed inp.policy.budgetConsumedPercent
    | .pageBurnFiring => burnVerdict inp .pageBurnFiring .page
    | .ticketBurnFiring => burnVerdict inp .ticketBurnFiring .ticket
    | .serviceIncidentOpen => incidentVerdict inp.policy inp.incident

def windowScopedGateVerdicts (verdicts : List Verdict) (target : GateTarget) : List Verdict :=
  (verdicts.filter fun v => v.clause ≠ .serviceIncidentOpen).map fun v =>
    { v with scope := some (target.window, target.id) }

/-- The earlier of two horizons. -/
def consider (known : Option Int) (t : Int) : Option Int :=
  match known with
  | none => some t
  | some u => if t < u then some t else some u

/-- The clause whose assignment makes a rule's lease a horizon. -/
def burnClauseOf : Severity → Option GateClause
  | .page => some .pageBurnFiring
  | .ticket => some .ticketBurnFiring
  | .other _ => none

/-- Until when the sealed data is fresh enough for the budget clauses. -/
def sealHorizon : Option Int :=
  if (inp.policy.clauses .budgetExhausted).constrains ||
      (inp.policy.clauses .budgetConsumed).constrains then
    inp.report.sealedThrough.map fun sealed => sealed + inp.policy.maxSealLagSeconds * Go.second
  else none

/-- Until when the latches count that a clause reads. -/
def leaseHorizons (target : GateTarget) : List Int :=
  (dedupedRules target.rules).filterMap fun r =>
    match burnClauseOf r.severity with
    | none => none
    | some c =>
      if (inp.policy.clauses c).constrains then
        (latchOf inp.latches target.id r.key).map BurnLatch.leaseUntil
      else none

/-- The earliest horizon. -/
def factsFreshUntil : Option Int :=
  ((sealHorizon inp).toList ++ (inp.target.map (leaseHorizons inp)).getD []).foldl consider none

end

/-! ## Decisions -/

/-- A rule with what its latch said. -/
structure GateBurnLease where
  rule : RuleKey
  severity : Severity
  latch : Option (Bool × BurnVerdict × Int × Int)
  fresh : Bool
  deriving DecidableEq, Repr

variable (inp : GateClauseInputs)

def gateBurnLeases : List GateBurnLease :=
  match inp.target with
  | none => []
  | some target =>
    (dedupedRules target.rules).map fun r =>
      match latchOf inp.latches target.id r.key with
      | none => ⟨r.key, r.severity, none, false⟩
      | some l => ⟨r.key, r.severity, some (l.firing, l.lastVerdict, l.evaluatedAt, l.leaseUntil),
          latchFresh l inp.evaluatedAt⟩

/-- What a decision read about a window. -/
structure GateWindowEvidence where
  target : Option (Nat × Rat × Int)
  burnLeases : List GateBurnLease
  sealedThrough : Option Int
  sealLag : Option Int
  factRevisions : Option (List Nat)
  deriving DecidableEq, Repr

def gateWindowEvidence : GateWindowEvidence where
  target := inp.target.map fun t => (t.id, t.objective, t.objectiveUpdatedAt)
  burnLeases := gateBurnLeases inp
  sealedThrough := inp.report.sealedThrough
  sealLag := inp.report.sealLag
  factRevisions := inp.report.sealedThrough.map fun _ => factRevisionsOf inp.report

/-- A window that took part in a decision over all windows. -/
structure GateEvaluatedWindow where
  window : TargetWindow
  evidence : GateWindowEvidence
  factsFreshUntil : Option Int
  reasons : List (GateReasonEntry Scope)
  deriving DecidableEq, Repr

/-- The answer of the gate with its evidence. -/
structure GateDecision where
  state : GateState
  action : GateAction
  unoverriddenAction : Option GateAction
  overrideID : Option Nat
  reasons : List (GateReasonEntry Scope)
  evidence : Option GateWindowEvidence
  evaluatedWindows : List GateEvaluatedWindow
  factsFreshUntil : Option Int
  deriving DecidableEq, Repr

/-- An override that is active changes a BLOCK action and nothing else. -/
def GateDecision.applyOverride (dec : GateDecision) (override : Option Nat) : GateDecision :=
  match override with
  | none => dec
  | some id =>
    if dec.action = .block then
      { dec with action := .allow, unoverriddenAction := some dec.action, overrideID := some id }
    else dec

variable (s : Snapshot) (policy : GatePolicy)

/-- The inputs for the policy's own window. -/
def oneWindowInputs : GateClauseInputs :=
  let target := s.targets.get policy.window
  { policy := policy
    evaluatedAt := s.evaluatedAt
    report := serviceReliabilityReport s policy.window
    target := target
    latches := match target with
      | none => []
      | some t => burnLatches s [t.id]
    incident := s.incident }

open GateDecision

/-- `decideGateOnce` under a policy for one window, with `assembleGateDecision`. -/
def decideOneWindow (override : Option Nat) : GateDecision :=
  let inp := oneWindowInputs s policy
  let (state, action, reasons) := decideGateAlgebra (evaluateGateClauses inp) policy.unknownBehavior
  applyOverride
    { state := state
      action := action
      unoverriddenAction := none
      overrideID := none
      reasons := reasons
      evidence := some (gateWindowEvidence inp)
      evaluatedWindows := []
      factsFreshUntil := factsFreshUntil inp } override

def gateWindowRank : TargetWindow → Int
  | .day => 0
  | .week => 1
  | .month => 2
  | .quarter => 3

/-- The targets in the order of their windows. -/
def gateTargets : List GateTarget :=
  orderBy (fun t => gateWindowRank t.window) s.targets.rows

/-- `allWindowsMissingObjectiveVerdicts`: a service without targets has no objective. -/
def allWindowsMissingObjectiveVerdicts : List Verdict :=
  ((gateClausesFor policy.schemaVersion).filter fun c => c ≠ .serviceIncidentOpen).map fun c =>
    ⟨c, policy.clauses c, false, some .noObjective, none, .reportBudget, none⟩

/-- The inputs for each target. -/
def allWindowInputs : List GateClauseInputs :=
  let targets := gateTargets s
  let latches := burnLatches s (targets.map GateTarget.id)
  (targets.zip (gateAllWindowReports s targets)).map fun (target, report) =>
    { policy := policy
      evaluatedAt := s.evaluatedAt
      report := report
      target := some target
      latches := latches
      incident := none }

/-- The verdicts about a target's window. -/
def windowVerdicts : List Verdict :=
  match inp.target with
  | none => []
  | some target => windowScopedGateVerdicts (evaluateGateClauses inp) target

/-- The verdicts of a policy over all windows; the incident is judged once. -/
def allWindowVerdicts : List Verdict :=
  let inputs := allWindowInputs s policy
  inputs.flatMap windowVerdicts ++
    (if inputs = [] then allWindowsMissingObjectiveVerdicts policy else []) ++
    [incidentVerdict policy s.incident]

def gateEvaluatedWindow : GateEvaluatedWindow where
  window := inp.report.window
  evidence := gateWindowEvidence inp
  factsFreshUntil := factsFreshUntil inp
  reasons := (decideGateAlgebra (windowVerdicts inp) inp.policy.unknownBehavior).2.2

/-- The decision of a policy over all windows. -/
def decideAllWindows (override : Option Nat) : GateDecision :=
  let inputs := allWindowInputs s policy
  let (state, action, reasons) :=
    decideGateAlgebra (allWindowVerdicts s policy) policy.unknownBehavior
  applyOverride
    { state := state
      action := action
      unoverriddenAction := none
      overrideID := none
      reasons := reasons
      evidence := none
      evaluatedWindows := inputs.map gateEvaluatedWindow
      factsFreshUntil := inputs.foldl (fun known inp =>
        match factsFreshUntil inp with
        | none => known
        | some fresh => consider known fresh) none } override

/-! ## Reading the batch as the single windows -/

theorem consider_some (u t : Int) : consider (some u) t = some (min u t) := by
  unfold consider
  dsimp only
  split
  · rw [min_eq_right (by omega)]
  · rw [min_eq_left (by omega)]

theorem foldl_consider (l : List Int) : l.foldl consider none = l.min? := by
  have hsome (l : List Int) : ∀ u, l.foldl consider (some u) = some (l.foldl min u) := by
    induction l with
    | nil => exact fun _ => rfl
    | cons t l ih =>
      intro u
      rw [foldl_cons, consider_some, ih, foldl_cons]
  cases l with
  | nil => rfl
  | cons t l => exact (hsome l t).trans min?_cons'.symm

variable {s : Snapshot} {t : GateTarget}

theorem latchOf_burnLatches {ids : List Nat} {id : Nat} (h : id ∈ ids)
    (rule : RuleKey) : latchOf (burnLatches s ids) id rule = s.latches.get (id, rule) := by
  unfold latchOf burnLatches Table.get
  rw [find?_filter]
  congr 1
  funext l
  rw [Bool.eq_iff_iff]
  simp only [Bool.and_eq_true, decide_eq_true_eq, Prod.mk.injEq]
  constructor
  · exact fun hl => hl.2
  · intro hl
    exact ⟨hl.1 ▸ h, hl⟩

theorem mem_gateTargets : t ∈ gateTargets s ↔ t ∈ s.targets.rows :=
  mem_insertionSort _

theorem gateTargets_nodup (s : Snapshot) : ((gateTargets s).map GateTarget.window).Nodup :=
  ((perm_insertionSort _ _).map _).nodup_iff.2 s.targets.keyed

/-- The clauses cannot tell the inputs apart. -/
structure GateClauseInputs.Alike (inp inp' : GateClauseInputs) : Prop where
  clauses : inp.policy.clauses = inp'.policy.clauses
  percent : inp.policy.budgetConsumedPercent = inp'.policy.budgetConsumedPercent
  lag : inp.policy.maxSealLagSeconds = inp'.policy.maxSealLagSeconds
  evaluatedAt : inp.evaluatedAt = inp'.evaluatedAt
  reads : inp.report.gateReads = inp'.report.gateReads
  target : inp.target = inp'.target
  latch : ∀ t, inp.target = some t → ∀ rule,
    latchOf inp.latches t.id rule = latchOf inp'.latches t.id rule

namespace GateClauseInputs.Alike

variable {inp inp' : GateClauseInputs} (h : inp.Alike inp')

include h

theorem budgetVerdict (c : GateClause) (threshold : Rat) :
    budgetVerdict inp c threshold = budgetVerdict inp' c threshold := by
  have hlag : inp.report.sealLag = inp'.report.sealLag := congrArg GateReads.sealLag h.reads
  have hbudget : inp.report.budget = inp'.report.budget := congrArg GateReads.budget h.reads
  unfold Gate.budgetVerdict
  rw [h.clauses, h.target, h.lag, hlag, hbudget]

theorem burnScan {t : GateTarget} (ht : inp.target = some t) (severity : Severity) :
    burnScan inp t severity = burnScan inp' t severity := by
  unfold Gate.burnScan
  simp only [h.latch t ht, h.evaluatedAt]

theorem burnVerdict (c : GateClause) (severity : Severity) :
    burnVerdict inp c severity = burnVerdict inp' c severity := by
  unfold Gate.burnVerdict
  rw [h.clauses, ← h.target]
  cases ht : inp.target with
  | none => rfl
  | some t =>
    dsimp only
    rw [h.burnScan ht]

theorem factsFreshUntil : factsFreshUntil inp = factsFreshUntil inp' := by
  have hsealed : inp.report.sealedThrough = inp'.report.sealedThrough :=
    congrArg GateReads.sealedThrough h.reads
  have hseal : sealHorizon inp = sealHorizon inp' := by
    unfold sealHorizon
    rw [h.clauses, h.lag, hsealed]
  unfold Gate.factsFreshUntil
  rw [hseal, ← h.target]
  cases ht : inp.target with
  | none => rfl
  | some t =>
    have hlease : leaseHorizons inp t = leaseHorizons inp' t := by
      unfold leaseHorizons
      rw [h.clauses]
      simp [h.latch t ht]
    rw [Option.map_some, Option.map_some, hlease]

end GateClauseInputs.Alike

def scopedClauses : List Verdict :=
  [budgetVerdict inp .budgetExhausted 100,
    budgetVerdict inp .budgetConsumed inp.policy.budgetConsumedPercent,
    burnVerdict inp .pageBurnFiring .page, burnVerdict inp .ticketBurnFiring .ticket]

variable (inp : GateClauseInputs)

theorem evaluateGateClauses_eq :
    evaluateGateClauses inp = scopedClauses inp ++ [incidentVerdict inp.policy inp.incident] := by
  unfold evaluateGateClauses
  cases inp.policy.schemaVersion <;> rfl

@[simp] theorem budgetVerdict_clause (c : GateClause) (threshold : Rat) :
    (budgetVerdict inp c threshold).clause = c ∧
      (budgetVerdict inp c threshold).assignment = inp.policy.clauses c := by
  unfold budgetVerdict
  split
  · exact ⟨rfl, rfl⟩
  · exact ⟨rfl, rfl⟩
  · split
    · exact ⟨rfl, rfl⟩
    · split <;> exact ⟨rfl, rfl⟩

@[simp] theorem burnVerdict_clause (c : GateClause)
    (severity : Severity) : (burnVerdict inp c severity).clause = c ∧
      (burnVerdict inp c severity).assignment = inp.policy.clauses c := by
  unfold burnVerdict
  dsimp only
  split
  · exact ⟨rfl, rfl⟩
  · split_ifs <;> exact ⟨rfl, rfl⟩

theorem windowVerdicts_eq {inp : GateClauseInputs} (ht : inp.target = some t) : windowVerdicts inp =
      (scopedClauses inp).map fun v => { v with scope := some (t.window, t.id) } := by
  unfold windowVerdicts windowScopedGateVerdicts
  rw [ht, evaluateGateClauses_eq]
  simp [scopedClauses, incidentVerdict]

/-! ## The join of the windows -/

section

variable (s : Snapshot) (policy : GatePolicy)

/-- The inputs that a policy for the target's window alone would have. -/
def windowInputs (t : GateTarget) : GateClauseInputs :=
  oneWindowInputs s { policy with window := t.window }

variable {t : GateTarget} {n : Nat}

theorem windowInputs_target (ht : t ∈ s.targets.rows) :
    (windowInputs s policy t).target = some t := Table.get_of_mem ht

theorem allWindowInputs_alike : Forall₂ (fun inp t => inp.target = some t ∧ inp.policy = policy ∧
      inp.Alike (windowInputs s policy t)) (allWindowInputs s policy) (gateTargets s) := by
  have hreports := gateReads_gateAllWindowReports (gateTargets_nodup s)
    fun t ht => mem_gateTargets.1 ht
  have hlen := congrArg length hreports
  rw [length_map, length_map] at hlen
  rw [forall₂_iff_get]
  constructor
  · simp [allWindowInputs, hlen]
  intro i hi hi'
  have hmem : (gateTargets s).get ⟨i, hi'⟩ ∈ s.targets.rows :=
    mem_gateTargets.1 (get_mem ..)
  have hget : (allWindowInputs s policy).get ⟨i, hi⟩ =
      { policy := policy
        evaluatedAt := s.evaluatedAt
        report := (gateAllWindowReports s (gateTargets s)).get ⟨i, by omega⟩
        target := some ((gateTargets s).get ⟨i, hi'⟩)
        latches := burnLatches s ((gateTargets s).map GateTarget.id)
        incident := none } := by
    simp [allWindowInputs]
  have hreads := getElem_of_eq hreports (i := i) (by rw [length_map]; omega)
  rw [getElem_map, getElem_map] at hreads
  rw [hget]
  refine ⟨rfl, rfl, rfl, rfl, rfl, rfl, hreads, (windowInputs_target s policy hmem).symm, ?_⟩
  intro t ht rule
  cases ht
  have hone : (windowInputs s policy ((gateTargets s).get ⟨i, hi'⟩)).latches =
      burnLatches s [((gateTargets s).get ⟨i, hi'⟩).id] := by
    unfold windowInputs oneWindowInputs
    rw [Table.get_of_mem hmem]
  rw [hone, latchOf_burnLatches (mem_map_of_mem (get_mem ..)), latchOf_burnLatches mem_cons_self]

theorem gateTargets_ne_nil {s : Snapshot} (h : s.targets.rows ≠ []) : gateTargets s ≠ [] := by
  obtain ⟨t, ht⟩ := exists_mem_of_ne_nil _ h
  exact ne_nil_of_mem (mem_gateTargets.2 ht)

theorem map_rank_windowVerdicts :
    (allWindowInputs s policy).map (fun inp => (windowVerdicts inp).map GateClauseVerdict.rank) =
      (gateTargets s).map fun t =>
        (scopedClauses (windowInputs s policy t)).map GateClauseVerdict.rank := by
  refine map_eq_map_of_forall₂ (allWindowInputs_alike s policy) ?_
  rintro inp t ⟨ht, -, ha⟩
  have hclauses : scopedClauses inp = scopedClauses (windowInputs s policy t) := by
    unfold scopedClauses
    rw [ha.budgetVerdict, ha.budgetVerdict, ha.burnVerdict, ha.burnVerdict, ha.percent]
  rw [windowVerdicts_eq ht, map_map, ← hclauses]
  rfl

theorem map_factsFreshUntil : (allWindowInputs s policy).map factsFreshUntil =
      (gateTargets s).map fun t => factsFreshUntil (windowInputs s policy t) :=
  map_eq_map_of_forall₂ (allWindowInputs_alike s policy) fun _ _ h => h.2.2.factsFreshUntil

theorem rank_allWindowVerdicts_le (h : s.targets.rows ≠ []) :
    (∀ v ∈ allWindowVerdicts s policy, v.rank ≤ n) ↔
      ∀ t ∈ gateTargets s, ∀ v ∈ evaluateGateClauses (windowInputs s policy t), v.rank ≤ n := by
  have hne := gateTargets_ne_nil h
  have hinputs : allWindowInputs s policy ≠ [] := by
    intro hnil
    have hmap := map_factsFreshUntil s policy
    rw [hnil] at hmap
    exact hne (map_eq_nil_iff.1 hmap.symm)
  have hwindows : (∀ inp ∈ allWindowInputs s policy, ∀ v ∈ windowVerdicts inp, v.rank ≤ n) ↔
      ∀ t ∈ gateTargets s, ∀ v ∈ scopedClauses (windowInputs s policy t), v.rank ≤ n := by
    have hmap := congrArg (fun l => ∀ ranks ∈ l, ∀ k ∈ ranks, k ≤ n)
      (map_rank_windowVerdicts s policy)
    simpa only [forall_mem_map, eq_iff_iff] using hmap
  unfold allWindowVerdicts
  simp only [hinputs, if_false, append_nil, forall_mem_append, forall_mem_flatMap,
    evaluateGateClauses_eq, hwindows]
  constructor
  · exact fun ⟨hw, hi⟩ t ht => ⟨hw t ht, hi⟩
  · intro hw
    -- The incident is judged once; any of the windows judges it too.
    obtain ⟨t, ht⟩ := exists_mem_of_ne_nil _ hne
    exact ⟨fun t ht => (hw t ht).1, (hw t ht).2⟩

variable (dec : GateDecision)

@[simp] theorem GateDecision.applyOverride_state (override : Option Nat) :
    (dec.applyOverride override).state = dec.state := by
  unfold applyOverride
  split
  · rfl
  · split <;> rfl

@[simp] theorem GateDecision.applyOverride_fresh (override : Option Nat) :
    (dec.applyOverride override).factsFreshUntil = dec.factsFreshUntil := by
  unfold applyOverride
  split
  · rfl
  · split <;> rfl

variable (override : Option Nat)

/-- The decision a policy with the same clauses makes for the window of `t` alone. -/
def windowDecision (t : GateTarget) : GateDecision :=
  decideOneWindow s { policy with window := t.window } override

theorem rank_windowDecision_le : (windowDecision s policy override t).state.rank ≤ n ↔
      ∀ v ∈ evaluateGateClauses (windowInputs s policy t), v.rank ≤ n := by
  unfold windowDecision decideOneWindow
  rw [applyOverride_state]
  exact rank_decideGateAlgebra_le

theorem rank_decideAllWindows_le (h : s.targets.rows ≠ []) :
    (decideAllWindows s policy override).state.rank ≤ n ↔
      ∀ t ∈ s.targets.rows, (windowDecision s policy override t).state.rank ≤ n := by
  unfold decideAllWindows
  rw [applyOverride_state]
  simp only [rank_windowDecision_le, ← mem_gateTargets]
  exact rank_decideGateAlgebra_le.trans (rank_allWindowVerdicts_le s policy h)

theorem decideAllWindows_factsFreshUntil : (decideAllWindows s policy override).factsFreshUntil =
      ((gateTargets s).filterMap fun t =>
        (windowDecision s policy override t).factsFreshUntil).min? := by
  have hloop (l : List GateClauseInputs) : ∀ known, l.foldl (fun known inp =>
      match factsFreshUntil inp with
      | none => known
      | some fresh => consider known fresh) known =
      (l.filterMap factsFreshUntil).foldl consider known := by
    induction l with
    | nil => exact fun _ => rfl
    | cons inp l ih =>
      intro known
      rw [foldl_cons, ih]
      cases hf : factsFreshUntil inp with
      | none => rw [filterMap_cons_none hf]
      | some u => rw [filterMap_cons_some hf, foldl_cons]
  have hone : (fun t => (windowDecision s policy override t).factsFreshUntil) =
      fun t => factsFreshUntil (windowInputs s policy t) := by
    funext t
    unfold windowDecision decideOneWindow
    rw [applyOverride_fresh]
    rfl
  have hmap := congrArg (filterMap id) (map_factsFreshUntil s policy)
  rw [filterMap_map, filterMap_map] at hmap
  unfold decideAllWindows
  rw [applyOverride_fresh, hone]
  rw [hloop, foldl_consider]
  exact congrArg min? hmap

/-- **The all-window gate is the join of its windows**: the worst of their states, with facts fresh
until the first window's are not. -/
theorem decideAllWindows_joins (h : s.targets.rows ≠ []) :
    (gateAllWindowReports s (gateTargets s)).map ServiceWindowReport.gateReads =
        (gateTargets s).map (fun t => (serviceReliabilityReport s t.window).gateReads) ∧
      (∃ t ∈ s.targets.rows, (decideAllWindows s policy override).state =
        (windowDecision s policy override t).state) ∧
      (∀ t ∈ s.targets.rows, (windowDecision s policy override t).state.rank ≤
        (decideAllWindows s policy override).state.rank) ∧
      (∀ u, (decideAllWindows s policy override).factsFreshUntil = some u ↔
        IsLeast {v | ∃ t ∈ s.targets.rows,
          (windowDecision s policy override t).factsFreshUntil = some v} u) ∧
      ((decideAllWindows s policy override).factsFreshUntil = none ↔
        ∀ t ∈ s.targets.rows, (windowDecision s policy override t).factsFreshUntil = none) := by
  have hbelow := (rank_decideAllWindows_le s policy override h).1 le_rfl
  refine ⟨gateReads_gateAllWindowReports (gateTargets_nodup s) fun t ht => mem_gateTargets.1 ht,
    ?_, hbelow, ?_, ?_⟩
  · by_contra hnone
    push Not at hnone
    have hlt : ∀ t ∈ s.targets.rows, (windowDecision s policy override t).state.rank <
        (decideAllWindows s policy override).state.rank := fun t ht =>
      lt_of_le_of_ne (hbelow t ht) fun he => hnone t ht (GateState.rank_injective he).symm
    obtain ⟨t, ht⟩ := exists_mem_of_ne_nil _ h
    -- A state that no window reaches would be at most the rank below its own.
    have hle := (rank_decideAllWindows_le s policy override h).2 fun t ht =>
      Nat.le_sub_one_of_lt (hlt t ht)
    have := hlt t ht
    omega
  · intro u
    rw [decideAllWindows_factsFreshUntil, min?_eq_some_iff]
    simp only [mem_filterMap, mem_gateTargets]
    exact Iff.rfl
  · rw [decideAllWindows_factsFreshUntil, min?_eq_none_iff]
    simp [mem_gateTargets]

end

def pageRule : BurnRule := ⟨3600, 300, 14, .page, false⟩

def pagingLatch : BurnLatch where
  firing := true
  emittedSeq := 1
  deliveredSeq := 0
  undeliveredSeq := 0
  target := 1
  rule := pageRule.key
  lastVerdict := .fire
  lastReason := none
  targetGeneration := 0
  configGeneration := 0
  evaluatedAt := 90
  leaseUntil := 200
  lastError := none

/-- A service whose daily target pages, while its weekly target has not been evaluated. -/
def pagingDay : Snapshot where
  evaluatedAt := 100
  sliMembers := 1
  materialization := none
  facts := []
  epochs := []
  revisions := []
  repairRanges := []
  targets := ⟨[⟨2, .week, 99, 0, [pageRule]⟩, ⟨1, .day, 99, 0, [pageRule]⟩], by decide⟩
  latches := ⟨[pagingLatch], by decide⟩
  incident := none

def pagePolicy : GatePolicy where
  revision := 1
  schemaVersion := .v2
  window := .day
  clauses := fun c => if c = .pageBurnFiring then .block else .ignore
  budgetConsumedPercent := 50
  maxSealLagSeconds := 600
  unknownBehavior := .warn

/-- The day blocks and the week is unknown, so the gate blocks, and the day's lease bounds it. -/
theorem pagingDay_joins : pagingDay.targets.rows ≠ [] ∧
      pagingDay.targets.rows.map (fun t => (windowDecision pagingDay pagePolicy none t).state) =
        [.unknown, .block] ∧
      (decideAllWindows pagingDay pagePolicy none).state = .block ∧
      (decideAllWindows pagingDay pagePolicy none).factsFreshUntil = some 200 ∧
      ∃ t ∈ pagingDay.targets.rows, (decideAllWindows pagingDay pagePolicy none).state =
        (windowDecision pagingDay pagePolicy none t).state :=
  ⟨by decide, by decide +kernel, by decide +kernel, by decide +kernel,
    (decideAllWindows_joins pagingDay pagePolicy none (by decide)).2.1⟩

/-! ## How long a decision holds -/

section

variable {inp : GateClauseInputs} {e e' : Int}

/-- The same facts, read at `at'`. -/
def GateClauseInputs.readAt (inp : GateClauseInputs) (at' : Int) : GateClauseInputs :=
  { inp with evaluatedAt := at', report := { inp.report with asOf := at' } }

theorem lt_of_factsFreshUntil (h : ∀ f ∈ factsFreshUntil inp, e < f) :
    (∀ t ∈ sealHorizon inp, e < t) ∧
      ∀ target ∈ inp.target, ∀ t ∈ leaseHorizons inp target, e < t := by
  unfold factsFreshUntil at h
  rw [foldl_consider] at h
  have hall : ∀ t ∈ (sealHorizon inp).toList ++ (inp.target.map (leaseHorizons inp)).getD [],
      e < t := by
    intro t ht
    obtain ⟨f, hf⟩ := Option.ne_none_iff_exists'.1 (mt min?_eq_none_iff.1 (ne_nil_of_mem ht))
    exact (h f hf).trans_le ((min?_eq_some_iff.1 hf).2 t ht)
  refine ⟨fun t ht => hall t (mem_append_left _ (Option.mem_toList.2 ht)), ?_⟩
  intro target htarget t ht
  refine hall t (mem_append_right _ ?_)
  rwa [Option.mem_def.1 htarget]

variable {c : GateClause}

open GateClauseInputs

theorem budgetVerdict_readAt (hle : e ≤ e') (h : ∀ sealed ∈ inp.report.sealedThrough,
      e' < sealed + inp.policy.maxSealLagSeconds * Go.second) (threshold : Rat) :
    budgetVerdict (inp.readAt e) c threshold = budgetVerdict (inp.readAt e') c threshold := by
  unfold budgetVerdict ServiceWindowReport.sealLag readAt
  cases inp.target with
  | none => rfl
  | some target =>
    cases hs : inp.report.sealedThrough with
    | none => rfl
    | some sealed =>
      have hlt := h sealed hs
      -- A lag that saturates below the bound is stale at both instants.
      have hstale : inp.policy.maxSealLagSeconds * Go.second < Go.sub e sealed ↔
          inp.policy.maxSealLagSeconds * Go.second < Go.sub e' sealed := by
        unfold Go.sub
        omega
      simp [hstale]

theorem burnVerdict_readAt {severity : Severity} (hle : e ≤ e')
    (h : ∀ target ∈ inp.target, ∀ r ∈ dedupedRules target.rules, r.severity = severity →
      ∀ l ∈ latchOf inp.latches target.id r.key, e' < l.leaseUntil) :
    burnVerdict (inp.readAt e) c severity = burnVerdict (inp.readAt e') c severity := by
  unfold burnVerdict
  cases ht : inp.target with
  | none => simp only [readAt, ht]
  | some target =>
    have hscan : burnScan (inp.readAt e) target severity =
        burnScan (inp.readAt e') target severity := by
      refine foldl_ext _ _ _ fun acc r hr => ?_
      obtain ⟨hmem, hsev⟩ := mem_filter.1 hr
      simp only [readAt]
      cases hl : latchOf inp.latches target.id r.key with
      | none => rfl
      | some l =>
        have hlt := h target ht r hmem (of_decide_eq_true hsev) l hl
        have hfresh (at' : Int) (hat : at' ≤ e') : latchFresh l at' :=
          decide_eq_true (hat.trans_lt hlt)
        simp [hfresh e hle, hfresh e' le_rfl]
    simp only [readAt, ht] at hscan ⊢
    rw [hscan]

theorem constraining_readAt (hle : e ≤ e') (h : ∀ f ∈ factsFreshUntil (inp.readAt e), e' < f) :
    (evaluateGateClauses (inp.readAt e)).filter (fun v => v.assignment.constrains) =
      (evaluateGateClauses (inp.readAt e')).filter fun v => v.assignment.constrains := by
  obtain ⟨hseal, hlease⟩ := lt_of_factsFreshUntil h
  have hbudget : (inp.policy.clauses .budgetExhausted).constrains ||
      (inp.policy.clauses .budgetConsumed).constrains → ∀ sealed ∈ inp.report.sealedThrough,
        e' < sealed + inp.policy.maxSealLagSeconds * Go.second := by
    intro hc sealed hs
    have heq : sealHorizon (inp.readAt e) = inp.report.sealedThrough.map fun sealed =>
        sealed + inp.policy.maxSealLagSeconds * Go.second := if_pos hc
    exact hseal _ (heq ▸ Option.mem_map_of_mem _ hs)
  have hburn (c : GateClause) (severity : Severity) (hof : burnClauseOf severity = some c)
      (hc : (inp.policy.clauses c).constrains) : ∀ target ∈ inp.target,
      ∀ r ∈ dedupedRules target.rules, r.severity = severity →
        ∀ l ∈ latchOf inp.latches target.id r.key, e' < l.leaseUntil := by
    rintro target ht r hr rfl l hl
    refine hlease target ht _ (mem_filterMap.2 ⟨r, hr, ?_⟩)
    rw [hof]
    exact (if_pos hc).trans (Option.mem_map_of_mem _ hl)
  unfold evaluateGateClauses
  rw [filter_map, filter_map]
  refine (congrArg _ (filter_congr fun c _ => ?_)).trans (map_congr_left fun c hc => ?_)
  · cases c <;> simp [readAt]
  · have hc := (mem_filter.1 hc).2
    cases c with
    | budgetExhausted =>
      have hc : (inp.policy.clauses .budgetExhausted).constrains := by
        simpa [readAt] using hc
      exact budgetVerdict_readAt hle (hbudget (Bool.or_eq_true_iff.2 (.inl hc))) _
    | budgetConsumed =>
      have hc : (inp.policy.clauses .budgetConsumed).constrains := by
        simpa [readAt] using hc
      exact budgetVerdict_readAt hle (hbudget (Bool.or_eq_true_iff.2 (.inr hc))) _
    | pageBurnFiring =>
      exact burnVerdict_readAt hle (hburn _ .page rfl (by simpa [readAt] using hc))
    | ticketBurnFiring =>
      exact burnVerdict_readAt hle (hburn _ .ticket rfl (by simpa [readAt] using hc))
    | serviceIncidentOpen => rfl

variable (inp) (e)

/-- The state and the action the algebra decides from the facts. -/
def decided (inp : GateClauseInputs) : GateState × GateAction :=
  let d := decideGateAlgebra (evaluateGateClauses inp) inp.policy.unknownBehavior
  (d.1, d.2.1)

/-- **`facts_fresh_until` is sound**: before it, and for ever where there is none, the same facts
read later give the same verdict for every constraining clause, the same state and action. -/
theorem factsFreshUntil_sound :
    (∀ f, factsFreshUntil (inp.readAt e) = some f → ∀ e', e ≤ e' → e' < f →
      decided (inp.readAt e') = decided (inp.readAt e) ∧
        (evaluateGateClauses (inp.readAt e')).filter (fun v => v.assignment.constrains) =
          (evaluateGateClauses (inp.readAt e)).filter fun v => v.assignment.constrains) ∧
    (factsFreshUntil (inp.readAt e) = none → ∀ e', e ≤ e' →
      decided (inp.readAt e') = decided (inp.readAt e)) := by
  have hdecided {e' : Int} (hle : e ≤ e') (h : ∀ f ∈ factsFreshUntil (inp.readAt e), e' < f) :
      decided (inp.readAt e') = decided (inp.readAt e) := by
    have := decideGateAlgebra_of_constrains (constraining_readAt hle h) inp.policy.unknownBehavior
    exact Prod.ext this.1.symm this.2.symm
  constructor
  · intro f hf e' hle hlt
    have h : ∀ g ∈ factsFreshUntil (inp.readAt e), e' < g := by simpa [hf] using hlt
    exact ⟨hdecided hle h, (constraining_readAt hle h).symm⟩
  · intro hf e' hle
    exact hdecided hle (by simp [hf])

/-- The paging latch blocks until its lease ends, and at its end the clause is unavailable. -/
theorem factsFreshUntil_sound_paging :
    factsFreshUntil ((oneWindowInputs pagingDay pagePolicy).readAt 100) = some 200 ∧
      decided ((oneWindowInputs pagingDay pagePolicy).readAt 199) = (.block, .block) ∧
      decided ((oneWindowInputs pagingDay pagePolicy).readAt 200) = (.unknown, .warn) := by
  have hf : factsFreshUntil ((oneWindowInputs pagingDay pagePolicy).readAt 100) = some 200 := by
    decide +kernel
  have hsame := (factsFreshUntil_sound _ 100).1 200 hf 199 (by decide) (by decide)
  exact ⟨hf, hsame.1.trans (by decide +kernel), by decide +kernel⟩

end

end Cerbix.Gate
