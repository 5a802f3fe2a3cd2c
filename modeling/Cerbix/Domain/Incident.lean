import Mathlib.Order.Basic

/-!
# The lifecycle of an incident

`internal/domain/incident.go`: the statuses flow forward to `resolved`, which is terminal.
`nextStatus` is the decision of `addIncidentUpdate` (`internal/store/incidents.go`) on the locked
row.
-/

namespace Cerbix.Domain

/-- How far an incident is. -/
inductive IncidentStatus
  | investigating
  | identified
  | monitoring
  | resolved
  deriving DecidableEq, Repr

namespace IncidentStatus

def text : IncidentStatus → String
  | .investigating => "investigating"
  | .identified => "identified"
  | .monitoring => "monitoring"
  | .resolved => "resolved"

def terminal (s : IncidentStatus) : Bool := s = .resolved

def rank : IncidentStatus → Nat
  | .investigating => 0
  | .identified => 1
  | .monitoring => 2
  | .resolved => 3

/-- A status never moves backward, and nothing follows the last. -/
def canFollow (s current : IncidentStatus) : Bool :=
  !current.terminal && decide (current.rank ≤ s.rank)

theorem rank_le_resolved (s : IncidentStatus) : s.rank ≤ resolved.rank := by
  cases s <;> decide

theorem rank_inj {s t : IncidentStatus} (h : s.rank = t.rank) : s = t := by
  cases s <;> cases t <;> first | rfl | cases h

end IncidentStatus

/-- Why an update is refused. -/
inductive IncidentUpdateError
  | terminal
  | regression (next current : IncidentStatus)
  deriving DecidableEq, Repr

def IncidentUpdateError.text : IncidentUpdateError → String
  | .terminal => "store: incident is resolved"
  | .regression next current =>
    "store: incident status cannot move backward: " ++ next.text ++
      " cannot follow " ++ current.text

def nextStatus (requested : Option IncidentStatus) (current : IncidentStatus) :
    Except IncidentUpdateError IncidentStatus :=
  let next := requested.getD current
  if current.terminal then .error .terminal
  else if !next.canFollow current then .error (.regression next current)
  else .ok next

/-- **An update never lowers the rank**, and there is none after `resolved`. -/
theorem nextStatus_eq_ok {requested : Option IncidentStatus} {current next : IncidentStatus}
    (h : nextStatus requested current = .ok next) :
    current ≠ .resolved ∧ current.rank ≤ next.rank := by
  unfold nextStatus at h
  dsimp only at h
  split at h
  · cases h
  next hterm =>
    split at h
    · cases h
    next hfollow =>
      cases h
      simp only [IncidentStatus.canFollow, Bool.not_eq_true, Bool.not_eq_false', Bool.and_eq_true,
        decide_eq_true_eq] at hfollow
      exact ⟨by simpa [IncidentStatus.terminal] using hterm, hfollow.2⟩

end Cerbix.Domain
