import Cerbix.Domain.Policy

/-!
# What a service alert says

The paging declaration of a service and the two pure decisions over it
(`internal/domain/servicealert.go`, `serviceburn.go`, the burn rules of `sla.go`): what a live
evaluation announces (`decideServiceAlert_cases`), and what two burn windows mean for a rule's latch
(`decideBurnRule_cases`). Rates and thresholds are the rationals that the finite floats of the
source stand for.
-/

namespace Cerbix.Domain

open Cerbix.Lib

/-! ## The live signal -/

/-- What a service can be evaluated as. -/
inductive AlertState
  | healthy | degraded | down | unknown | excluded
  deriving DecidableEq, Repr

def AlertState.text : AlertState → String
  | .healthy => "healthy" | .degraded => "degraded" | .down => "down" | .unknown => "unknown"
  | .excluded => "excluded"

/-- The order of the states in a stored policy. -/
def AlertState.rank : AlertState → Nat
  | .degraded => 0 | .down => 1 | .excluded => 2 | .healthy => 3 | .unknown => 4

/-- When a service pages. -/
structure AlertPolicy where
  ownsPaging : Bool
  pageOn : List AlertState
  pageOnUnknown : Bool
  confirmEvaluations : Int
  renotifySeconds : Int
  deriving DecidableEq, Repr

def defaultServiceAlertPolicy : AlertPolicy where
  ownsPaging := false
  pageOn := [.down]
  pageOnUnknown := false
  confirmEvaluations := 2
  renotifySeconds := 0

variable (p : AlertPolicy)

/-- The paging states without repetition, in the order they are stored. -/
def AlertPolicy.canonical : AlertPolicy :=
  { p with pageOn := (firstSeen [] p.pageOn).insertionSort fun a b => a.rank ≤ b.rank }

/-- What is wrong with a policy. -/
inductive AlertPolicyError
  | renotify (got : Int)
  | confirm (got : Int)
  | unknownListed
  | notPageable (state : AlertState)
  deriving DecidableEq, Repr

def AlertPolicyError.message : AlertPolicyError → String
  | .renotify n =>
    "service alert policy: renotify_seconds must be 0 (off) or 60..86400, got " ++ toString n
  | .confirm n => "service alert policy: confirm_evaluations must be 1..10, got " ++ toString n
  | .unknownListed =>
    "service alert policy: unknown has its own switch (page_on_unknown) " ++
      "and cannot be listed in page_on"
  | .notPageable s => "service alert policy: \"" ++ s.text ++ "\" cannot be paged on"

/-- Only `down` and `degraded` may be listed. -/
def validatePageOn : List AlertState → Except AlertPolicyError Unit
  | [] => .ok ()
  | .down :: rest | .degraded :: rest => validatePageOn rest
  | .unknown :: _ => .error .unknownListed
  | s :: _ => .error (.notPageable s)

def AlertPolicy.validate : Except AlertPolicyError Unit :=
  if p.renotifySeconds ≠ 0 ∧ (p.renotifySeconds < 60 ∨ p.renotifySeconds > 86400) then
    .error (.renotify p.renotifySeconds)
  else if p.confirmEvaluations < 1 ∨ p.confirmEvaluations > 10 then
    .error (.confirm p.confirmEvaluations)
  else validatePageOn p.pageOn

/-- A state that pages. `unknown` has a switch of its own. -/
def AlertPolicy.pages : AlertState → Bool
  | .excluded | .healthy => false
  | .unknown => p.pageOnUnknown
  | s => s ∈ p.pageOn

/-- Why an episode was closed. -/
inductive CloseReason
  | recovered | visibilityLost | enteredMaintenance | ownershipDisabled | policyChanged
  | burnDisabled | ruleRemoved | serviceDeleted | undelivered
  deriving DecidableEq, Repr

def CloseReason.text : CloseReason → String
  | .recovered => "recovered" | .visibilityLost => "visibility_lost"
  | .enteredMaintenance => "entered_maintenance" | .ownershipDisabled => "ownership_disabled"
  | .policyChanged => "policy_changed" | .burnDisabled => "burn_disabled"
  | .ruleRemoved => "rule_removed" | .serviceDeleted => "service_deleted"
  | .undelivered => "undelivered"

/-- Why an evaluation says nothing. -/
inductive Silence
  | notOwned
  | unconfirmed (current : AlertState) (streak need : Int)
  | alreadyAnnounced (current : AlertState)
  | doesNotPage (current : AlertState)
  deriving DecidableEq, Repr

def Silence.text : Silence → String
  | .notOwned => "service does not own paging"
  | .unconfirmed s n m =>
    "state " ++ s.text ++ " not confirmed yet (" ++ toString n ++ " of " ++ toString m ++
      " evaluations)"
  | .alreadyAnnounced s => s.text ++ " already announced"
  | .doesNotPage s => s.text ++ " does not page"

/-- What an evaluation announces, or why it does not. -/
structure AlertDecision where
  notify : Bool
  close : Bool
  closeReason : Option CloseReason
  nextEmitted : Option AlertState
  nextFiring : Bool
  reason : Option Silence
  deriving DecidableEq, Repr

/-- The reason that the state which ends an episode gives. -/
def closeReasonFor : AlertState → CloseReason
  | .healthy => .recovered
  | .excluded => .enteredMaintenance
  | .unknown => .visibilityLost
  | _ => .policyChanged

/-- `DecideServiceAlert`: what one evaluation announces. `emitted = none` is the empty state of a
service that has announced nothing. -/
def decideServiceAlert (current : AlertState) (streak : Int) (firing : Bool)
    (emitted : Option AlertState) : AlertDecision :=
  if !p.ownsPaging then ⟨false, false, none, none, false, some .notOwned⟩
  else if streak < p.confirmEvaluations then
    ⟨false, false, none, none, firing, some (.unconfirmed current streak p.confirmEvaluations)⟩
  else if p.pages current && firing && emitted = some current then
    ⟨false, false, none, none, true, some (.alreadyAnnounced current)⟩
  else if p.pages current then ⟨true, false, none, some current, true, none⟩
  else if !firing then ⟨false, false, none, none, false, some (.doesNotPage current)⟩
  else ⟨true, true, some (closeReasonFor current), some current, false, none⟩

section Live

variable {p : AlertPolicy} {current : AlertState} {streak : Int} {firing : Bool}
  {emitted : Option AlertState}

theorem AlertPolicy.mem_canonical_pageOn {s : AlertState} :
    s ∈ p.canonical.pageOn ↔ s ∈ p.pageOn := by
  rw [canonical, List.mem_insertionSort, mem_firstSeen]
  simp

theorem AlertPolicy.canonical_pages (s : AlertState) : p.canonical.pages s = p.pages s := by
  cases s <;> simp [pages, mem_canonical_pageOn, show p.canonical.pageOnUnknown = p.pageOnUnknown
    from rfl]

theorem AlertPolicy.pages_congr {q : AlertPolicy} (ho : p.pageOn = q.pageOn)
    (hu : p.pageOnUnknown = q.pageOnUnknown) (s : AlertState) : p.pages s = q.pages s := by
  cases s <;> simp [pages, ho, hu]

theorem defaultServiceAlertPolicy_valid : defaultServiceAlertPolicy.validate = .ok () := by decide

/-- **What one evaluation of an owning service can decide**: nothing, and the level stays; an onset
of a state that pages; or the end of an open announcement of a state that does not. -/
theorem decideServiceAlert_cases (hown : p.ownsPaging) (current : AlertState) (streak : Int)
    (firing : Bool) (emitted : Option AlertState) :
    ((decideServiceAlert p current streak firing emitted).notify = false ∧
      (decideServiceAlert p current streak firing emitted).close = false ∧
      (decideServiceAlert p current streak firing emitted).nextFiring = firing) ∨
    (p.pages current ∧ p.confirmEvaluations ≤ streak ∧
      decideServiceAlert p current streak firing emitted =
        ⟨true, false, none, some current, true, none⟩) ∨
    (p.pages current = false ∧ firing ∧ p.confirmEvaluations ≤ streak ∧
      decideServiceAlert p current streak firing emitted =
        ⟨true, true, some (closeReasonFor current), some current, false, none⟩) := by
  unfold decideServiceAlert
  simp only [hown, Bool.not_true, Bool.false_eq_true, if_false]
  split
  · exact .inl ⟨rfl, rfl, rfl⟩
  rename_i hstreak
  have hle : p.confirmEvaluations ≤ streak := by omega
  cases hp : p.pages current <;> cases firing
  · exact .inl ⟨rfl, rfl, rfl⟩
  · exact .inr (.inr ⟨rfl, rfl, hle, rfl⟩)
  · exact .inr (.inl ⟨rfl, hle, rfl⟩)
  · by_cases he : emitted = some current
    · simp [he]
    · simp [he, hle]

theorem decideServiceAlert_of_announced (hown : p.ownsPaging) (hpages : p.pages current) :
    (decideServiceAlert p current streak true (some current)).notify = false := by
  unfold decideServiceAlert
  simp only [hown, hpages, Bool.not_true, Bool.false_eq_true, if_false, decide_true, Bool.and_self,
    if_true]
  split <;> rfl

end Live

/-! ## Burn rules -/

/-- The severity of a burn rule, also one that is not known. -/
inductive Severity
  | page | ticket
  | other (text : String)
  deriving DecidableEq, Repr

/-- A rule fires while the budget burns fast in a long and in a short window. -/
structure BurnRule where
  longWindowSeconds : Int
  shortWindowSeconds : Int
  threshold : Rat
  severity : Severity
  firing : Bool
  deriving DecidableEq, Repr

/-- The canonical key of a rule: its declared fields, which the text of the source's key spells
without loss. -/
structure RuleKey where
  severity : Severity
  longWindowSeconds : Int
  shortWindowSeconds : Int
  threshold : Rat
  deriving DecidableEq, Repr

/-- What identifies a rule. -/
def BurnRule.key (r : BurnRule) : RuleKey :=
  ⟨r.severity, r.longWindowSeconds, r.shortWindowSeconds, r.threshold⟩

/-- What is wrong with a list of rules; rules are counted from one. -/
inductive BurnRuleError
  | tooMany
  | severity (rule : Nat)
  | threshold (rule : Nat)
  | shortWindow (rule : Nat)
  | longNotLonger (rule : Nat)
  | longWindow (rule : Nat)
  | duplicate (rule first : Nat)
  | belowSealLag (rule floor : Nat)
  deriving DecidableEq, Repr

def BurnRuleError.message : BurnRuleError → String
  | .tooMany => "burn rules: at most 4 rules"
  | .severity i =>
    "burn rule " ++ toString i ++ ": severity must be \"page\" or \"ticket\""
  | .threshold i => "burn rule " ++ toString i ++ ": threshold must be positive"
  | .shortWindow i => "burn rule " ++ toString i ++ ": short window must be at least 60s"
  | .longNotLonger i =>
    "burn rule " ++ toString i ++ ": long window must be longer than the short one"
  | .longWindow i => "burn rule " ++ toString i ++ ": long window must be at most 7 days"
  | .duplicate i j =>
    "burn rule " ++ toString i ++ " duplicates rule " ++ toString j ++
      ": same window pair, threshold and severity, so the two cannot have separate firing state"
  | .belowSealLag i n =>
    "burn rule " ++ toString i ++ ": a service short window must be at least " ++ toString n ++
      "s (the sealing lag)"

/-- The first fault of a rule. -/
def BurnRule.check (r : BurnRule) (i : Nat) : Option BurnRuleError :=
  if r.severity ≠ .page ∧ r.severity ≠ .ticket then some (.severity i)
  else if r.threshold ≤ 0 then some (.threshold i)
  else if r.shortWindowSeconds < 60 then some (.shortWindow i)
  else if r.longWindowSeconds ≤ r.shortWindowSeconds then some (.longNotLonger i)
  else if r.longWindowSeconds > 7 * 24 * 3600 then some (.longWindow i)
  else none

variable (rules : List BurnRule)

/-- The first rule that repeats an earlier one. -/
def duplicateRule : Option BurnRuleError :=
  rules.zipIdx.findSome? fun (r, i) =>
    let first := rules.findIdx fun r' => r'.key = r.key
    if first < i then some (.duplicate (i + 1) (first + 1)) else none

def validateBurnRules : Except BurnRuleError Unit :=
  if rules.length > 4 then .error .tooMany
  else
    match rules.zipIdx.findSome? fun (r, i) => r.check (i + 1) with
    | some e => .error e
    | none =>
      match duplicateRule rules with
      | some e => .error e
      | none => .ok ()

/-- The healthy lag of the seal, with two buckets of headroom. -/
def minSealLag : Int := lateArrivalGrace + canonicalBucket + 2 * canonicalBucket

/-- The rules of a service, whose windows are read off sealed buckets. -/
def validateServiceBurnRules : Except BurnRuleError Unit :=
  match validateBurnRules rules with
  | .error e => .error e
  | .ok () =>
    let floor := minSealLag / Go.second
    match rules.zipIdx.find? fun (r, _) => r.shortWindowSeconds < floor with
    | some (_, i) => .error (.belowSealLag (i + 1) floor.toNat)
    | none => .ok ()

def burnRuleKeys : List RuleKey := firstSeen [] (rules.map BurnRule.key)

theorem mem_burnRuleKeys {rules : List BurnRule} {k : RuleKey} :
    k ∈ burnRuleKeys rules ↔ ∃ r ∈ rules, r.key = k := by
  rw [burnRuleKeys, mem_firstSeen]
  simp

/-- How much a window's report can say. -/
inductive ReportStatus
  | ok | partially | unavailable | insufficientHistory | insufficientSealed
  deriving DecidableEq, Repr

/-- Why a report says less than it could. -/
inductive ReportReason
  | noSLI | nothingSealed | eraShort | storageGap | zeroDecidable | lowCoverage | spansRevisions
  | noObjective | staleWatermark | nothingMeasured
  deriving DecidableEq, Repr

/-- The burn rate in a window, if it can be quoted. -/
structure BurnWindow where
  status : ReportStatus
  reason : Option ReportReason
  rate : Option Rat
  deriving DecidableEq, Repr

/-- What a rule's two windows say; `hold` keeps what was there. -/
inductive BurnVerdict
  | fire | clear | hold
  deriving DecidableEq, Repr

/-- The verdict on a rule, and whether it fires now. -/
structure BurnDecision where
  verdict : BurnVerdict
  firing : Bool
  holdReason : Option ReportReason
  edge : Bool
  deriving DecidableEq, Repr

/-- The rate of a window whose status is `ok`. -/
def BurnWindow.quotable (w : BurnWindow) : Option Rat := if w.status = .ok then w.rate else none

def burnHold (w : BurnWindow) (firing : Bool) : BurnDecision where
  verdict := .hold
  firing := firing
  holdReason := some (w.reason.getD .nothingMeasured)
  edge := false

/-- `DecideBurnRule`: both windows must breach, and a window that may not be quoted holds the
level. -/
def decideBurnRule (long short : BurnWindow) (threshold : Rat) (firing : Bool) : BurnDecision :=
  match long.quotable with
  | none => burnHold long firing
  | some longRate =>
    match short.quotable with
    | none => burnHold short firing
    | some shortRate =>
      let level : Bool := threshold ≤ longRate ∧ threshold ≤ shortRate
      ⟨if level then .fire else .clear, level, none, level != firing⟩

section Burn

variable (long short : BurnWindow) (threshold : Rat) (firing : Bool)

/-- **What two windows can decide**: a hold, which moves nothing, or a level and whether it is an
edge. -/
theorem decideBurnRule_cases : ((decideBurnRule long short threshold firing).verdict = .hold ∧
      (decideBurnRule long short threshold firing).edge = false ∧
      (decideBurnRule long short threshold firing).firing = firing) ∨
    (∃ level : Bool, decideBurnRule long short threshold firing =
      ⟨if level then .fire else .clear, level, none, level != firing⟩) := by
  unfold decideBurnRule
  split
  · exact .inl ⟨rfl, rfl, rfl⟩
  · split
    · exact .inl ⟨rfl, rfl, rfl⟩
    · exact .inr ⟨_, rfl⟩

theorem decideBurnRule_edge : (decideBurnRule long short threshold firing).edge =
      ((decideBurnRule long short threshold firing).firing != firing) := by
  rcases decideBurnRule_cases long short threshold firing with ⟨-, he, hf⟩ | ⟨level, h⟩
  · rw [he, hf, bne_self_eq_false]
  · rw [h]

end Burn

end Cerbix.Domain
