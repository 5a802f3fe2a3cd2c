import Cerbix.Domain.Alert

/-!
# The reliability gate's vocabulary and algebra

The clauses of a gate policy, their verdicts and `DecideGateAlgebra` (`internal/domain/gate.go`),
which decides the worst state, by `GateState.rank`, that one of the verdicts calls for
(`rank_decideGateAlgebra_le`).
-/

namespace Cerbix.Domain

/-! ## Vocabulary -/

/-- What the gate knows. -/
inductive GateState
  | allow | warn | block | unknown | notConfigured
  deriving DecidableEq, Repr

/-- What the gate answers. -/
inductive GateAction
  | allow | warn | block
  deriving DecidableEq, Repr

/-- What a matched clause does. -/
inductive ClauseAssignment
  | block | warn | ignore
  deriving DecidableEq, Repr

def ClauseAssignment.constrains (a : ClauseAssignment) : Bool := a = .block || a = .warn

/-- The conditions that a policy can use. -/
inductive GateClause
  | budgetExhausted | budgetConsumed | pageBurnFiring | ticketBurnFiring | serviceIncidentOpen
  deriving DecidableEq, Repr

inductive GatePolicySchema
  | v1 | v2
  deriving DecidableEq, Repr

def gateClausesV1 : List GateClause :=
  [.budgetExhausted, .budgetConsumed, .pageBurnFiring, .ticketBurnFiring, .serviceIncidentOpen]

def gateClausesFor : GatePolicySchema → List GateClause
  | .v1 | .v2 => gateClausesV1

/-- Why a clause could not be judged. -/
inductive GateReason
  | budgetWithheld | sealStale | factsStale | noObjective | windowTargetMissing | neverSealed
  deriving DecidableEq, Repr

/-- What the gate answers when it does not know. -/
inductive GateUnknownBehavior
  | warn | block
  deriving DecidableEq, Repr

def GateUnknownBehavior.action : GateUnknownBehavior → GateAction
  | .block => .block
  | .warn => .warn

/-- What a clause matched on. -/
inductive GateValue
  | percent (burned : Rat)
  | rules (firing : List RuleKey)
  | incident (id : Nat)
  deriving DecidableEq, Repr

inductive GateSource
  | reportBudget | burnLatch | incidents
  deriving DecidableEq, Repr

/-- One clause after evaluation. `matched` counts only when `unavailable` is `none`; `scope` is the
window and the target of window-scoped evidence. -/
structure GateClauseVerdict (σ : Type) where
  clause : GateClause
  assignment : ClauseAssignment
  matched : Bool
  unavailable : Option GateReason
  value : Option GateValue
  source : GateSource
  scope : Option σ
  deriving DecidableEq, Repr

/-- The code of a reason: why a clause is unavailable, or the clause that matched. -/
inductive GateReasonCode
  | unavailable (reason : GateReason)
  | clause (clause : GateClause)
  deriving DecidableEq, Repr

/-- A clause that mattered, and why. -/
structure GateReasonEntry (σ : Type) where
  code : GateReasonCode
  clause : GateClause
  assignment : ClauseAssignment
  value : Option GateValue
  source : GateSource
  scope : Option σ
  deriving DecidableEq, Repr

section

variable {σ : Type}

def GateClauseVerdict.reason (v : GateClauseVerdict σ) : Option (GateReasonEntry σ) :=
  match v.unavailable with
  | some r => some ⟨.unavailable r, v.clause, v.assignment, none, v.source, v.scope⟩
  | none =>
    if v.matched then some ⟨.clause v.clause, v.clause, v.assignment, v.value, v.source, v.scope⟩
    else none

/-- What the verdicts so far come to. -/
structure GateTally (σ : Type) where
  reasons : List (GateReasonEntry σ)
  knownBlock : Bool
  anyUnavailable : Bool
  warnMatch : Bool

variable (t : GateTally σ)

def GateTally.add (v : GateClauseVerdict σ) : GateTally σ where
  reasons := t.reasons ++ v.reason.toList
  knownBlock := t.knownBlock || (v.unavailable.isNone && v.matched && v.assignment = .block)
  anyUnavailable := t.anyUnavailable || (v.unavailable.isSome && v.assignment.constrains)
  warnMatch := t.warnMatch || (v.unavailable.isNone && v.matched && v.assignment = .warn)

/-- A known block wins, then what is unknown, then a warning. -/
def GateTally.decide (unknown : GateUnknownBehavior) :
    GateState × GateAction × List (GateReasonEntry σ) :=
  if t.knownBlock then (.block, .block, t.reasons)
  else if t.anyUnavailable then (.unknown, unknown.action, t.reasons)
  else if t.warnMatch then (.warn, .warn, t.reasons)
  else (.allow, .allow, t.reasons)

variable (verdicts : List (GateClauseVerdict σ))

open GateTally

/-- The decision over all verdicts. -/
def decideGateAlgebra (unknown : GateUnknownBehavior) :
    GateState × GateAction × List (GateReasonEntry σ) :=
  (verdicts.foldl add ⟨[], false, false, false⟩).decide unknown

/-- ALLOW, WARN, UNKNOWN, BLOCK; the algebra never decides NOT_CONFIGURED. -/
def GateState.rank : GateState → Nat
  | .allow => 0
  | .warn => 1
  | .unknown => 2
  | .block => 3
  | .notConfigured => 4

theorem GateState.rank_injective : Function.Injective GateState.rank := by
  intro a b
  cases a <;> cases b <;> decide

def GateClauseVerdict.rank (v : GateClauseVerdict σ) : Nat :=
  match v.unavailable, v.matched, v.assignment with
  | some _, _, .block => 2
  | some _, _, .warn => 2
  | some _, _, .ignore => 0
  | none, true, .block => 3
  | none, true, .warn => 1
  | none, true, .ignore => 0
  | none, false, _ => 0

/-- How severe a tally is. -/
def GateTally.rank : Nat :=
  if t.knownBlock then 3 else if t.anyUnavailable then 2 else if t.warnMatch then 1 else 0

theorem GateTally.rank_add (v : GateClauseVerdict σ) : (t.add v).rank = max t.rank v.rank := by
  obtain ⟨reasons, b, u, w⟩ := t
  obtain ⟨clause, a, matched, unavailable, value, source, scope⟩ := v
  cases b <;> cases u <;> cases w <;> cases a <;> cases matched <;> cases unavailable <;> rfl

theorem GateTally.rank_decide (unknown : GateUnknownBehavior) :
    (t.decide unknown).1.rank = t.rank := by
  unfold decide rank
  split_ifs <;> rfl

theorem rank_foldl_add_le {n : Nat} : ∀ t : GateTally σ,
    (verdicts.foldl add t).rank ≤ n ↔ t.rank ≤ n ∧ ∀ v ∈ verdicts, v.rank ≤ n := by
  induction verdicts with
  | nil => intro t; simp
  | cons v rest ih =>
    intro t
    rw [List.foldl_cons, ih, rank_add, max_le_iff, List.forall_mem_cons, and_assoc]

/-- **The state is the worst verdict's.** -/
theorem rank_decideGateAlgebra_le {verdicts : List (GateClauseVerdict σ)}
    {unknown : GateUnknownBehavior} {n : Nat} :
    (decideGateAlgebra verdicts unknown).1.rank ≤ n ↔ ∀ v ∈ verdicts, v.rank ≤ n := by
  unfold decideGateAlgebra
  rw [rank_decide, rank_foldl_add_le]
  exact ⟨fun h => h.2, fun h => ⟨Nat.zero_le n, h⟩⟩

theorem GateTally.decide_of_rank_eq {t t' : GateTally σ} (h : t.rank = t'.rank)
    (unknown : GateUnknownBehavior) : (t.decide unknown).1 = (t'.decide unknown).1 ∧
      (t.decide unknown).2.1 = (t'.decide unknown).2.1 := by
  unfold rank at h
  unfold decide
  split_ifs at h ⊢ <;> first | exact ⟨rfl, rfl⟩ | omega

/-- **Ignored clauses decide nothing**: the state and the action are those of the constraining
verdicts. -/
theorem decideGateAlgebra_of_constrains {vs ws : List (GateClauseVerdict σ)}
    (h : vs.filter (fun v => v.assignment.constrains) =
      ws.filter fun v => v.assignment.constrains) (unknown : GateUnknownBehavior) :
    (decideGateAlgebra vs unknown).1 = (decideGateAlgebra ws unknown).1 ∧
      (decideGateAlgebra vs unknown).2.1 = (decideGateAlgebra ws unknown).2.1 := by
  have hrank (v : GateClauseVerdict σ) (hv : v.assignment.constrains = false) : v.rank = 0 := by
    obtain ⟨clause, a, matched, unavailable, value, source, scope⟩ := v
    cases a <;> cases matched <;> cases unavailable <;> first | rfl | cases hv
  have hfilter (us : List (GateClauseVerdict σ)) (n : Nat) : (∀ v ∈ us, v.rank ≤ n) ↔
      ∀ v ∈ us.filter fun v => v.assignment.constrains, v.rank ≤ n := by
    refine ⟨fun hle v hv => hle v (List.mem_of_mem_filter hv), fun hle v hv => ?_⟩
    cases hc : v.assignment.constrains with
    | false => exact (hrank v hc).trans_le (Nat.zero_le n)
    | true => exact hle v (List.mem_filter.2 ⟨hv, hc⟩)
  refine decide_of_rank_eq (eq_of_forall_ge_iff fun n => ?_) unknown
  rw [rank_foldl_add_le, rank_foldl_add_le, hfilter vs, hfilter ws, h]

end

end Cerbix.Domain
