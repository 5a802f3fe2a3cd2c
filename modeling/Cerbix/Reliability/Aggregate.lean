import Cerbix.Reliability.Effective

/-!
# From member states to the service outcome

`internal/reliability/aggregate.go`. A `Verdict` is a member with its state at an instant;
`censusOf` counts verdicts into one `Tally` per region and applies the missing-data policy (closed
form: `censusOf_eq`), `aggregateRegion` and `aggregate` turn tallies into the outcome, and `stateAt`
is the point evaluator.
-/

namespace Cerbix.Reliability

open Cerbix.Lib Cerbix.Domain List

/-- The members of a region, counted by what they are. -/
structure Tally where
  region : String
  declared : Int
  excludedDisabled : Int
  excludedMaintenance : Int
  ignored : Int
  good : Int
  bad : Int
  unknown : Int
  badCauses : List MemberCause
  unknownCauses : List MemberCause
  excludedCauses : List MemberCause
  deriving DecidableEq, Repr

variable (t : Tally)

namespace Tally

def empty (region : String) : Tally := ⟨region, 0, 0, 0, 0, 0, 0, 0, [], [], []⟩

/-- The members that count. -/
def eligible : Int :=
  t.declared - t.excludedDisabled - t.excludedMaintenance - t.ignored

def excluded : Int := t.excludedDisabled + t.excludedMaintenance

end Tally

/-! ## Aggregation -/

def Tally.weakening (a : AggregationPolicy) : Option Weakened :=
  let n := t.eligible
  if min a.degradedMin n < a.degradedMin ∨ min a.healthyMin n < a.healthyMin then
    some
      { region := t.region, declared := t.declared, eligible := n
        excludedDisabled := t.excludedDisabled, excludedMaintenance := t.excludedMaintenance
        ignored := t.ignored
        declaredDegradedMin := a.degradedMin, declaredHealthyMin := a.healthyMin
        effectiveDegraded := min a.degradedMin n, effectiveHealthy := min a.healthyMin n }
  else none

/-- What the members of a region make of it. -/
def aggregateRegion (p : ServicePolicies) : Availability × Health × Option Weakened :=
  let n := t.eligible
  if n = 0 then
    if 0 < t.ignored then (.unknown, .unknown, none)
    else if t.excluded = t.declared ∧ 0 < t.declared then (.excluded, .excluded, none)
    else (.unknown, .unknown, none)
  else
    match p.aggregation.mode with
    | .all =>
      if 0 < t.bad then (.bad, .down, none)
      else if 0 < t.unknown then (.unknown, .unknown, none)
      else (.good, .healthy, none)
    | .any =>
      if 0 < t.good then (.good, .healthy, none)
      else if t.bad = n then (.bad, .down, none)
      else (.unknown, .unknown, none)
    | _ =>
      let weak := t.weakening p.aggregation
      if min p.aggregation.degradedMin n ≤ t.good then
        if min p.aggregation.healthyMin n ≤ t.good then (.good, .healthy, weak)
        else (.good, .degraded, weak)
      else if min p.aggregation.degradedMin n ≤ t.good + t.unknown then (.unknown, .unknown, weak)
      else (.bad, .down, weak)

/-- What a region is. -/
structure RegionResult where
  availability : Availability
  health : Health
  deriving DecidableEq, Repr

/-- The outcome of a service with `inR` regions in scope, of which `gr` serve, `ur` are undecided
and `hr` are healthy; the clamps are carried along. -/
def combineCounts (r : RegionAggregationPolicy) (weakened : List Weakened) (inR gr ur hr : Int) :
    Outcome :=
  if inR = 0 then ⟨.unknown, .unknown, weakened⟩
  else if min r.degradedMinRegions inR ≤ gr then
    if min r.healthyMinRegions inR ≤ hr then ⟨.good, .healthy, weakened⟩
    else ⟨.good, .degraded, weakened⟩
  else if min r.degradedMinRegions inR ≤ gr + ur then ⟨.unknown, .unknown, weakened⟩
  else ⟨.bad, .down, weakened⟩

/-- What the regions make of the service. -/
def combineRegions (results : List RegionResult) (weakened : List Weakened)
    (r : RegionAggregationPolicy) : Outcome :=
  let inScope := results.filter fun x => x.availability ≠ .excluded
  combineCounts r weakened inScope.length (inScope.countP fun x => x.availability = .good)
    (inScope.countP fun x => x.availability = .unknown)
    (inScope.countP fun x => x.health = .healthy)

variable (tallies : List Tally)

def regionResults (p : ServicePolicies) : List RegionResult :=
  tallies.map fun t => ⟨(aggregateRegion t p).1, (aggregateRegion t p).2.1⟩

def regionWeakened (p : ServicePolicies) : List Weakened :=
  tallies.filterMap fun t => (aggregateRegion t p).2.2

/-- What the tallies make of the service. -/
def aggregate (p : ServicePolicies) : Outcome :=
  if tallies = [] then ⟨.unknown, .unknown, []⟩
  else
    let results := regionResults tallies p
    let weakened := regionWeakened tallies p
    if results.all fun x => x.availability = .excluded then ⟨.excluded, .excluded, weakened⟩
    else combineRegions results weakened p.region

/-- A member and what it is. -/
structure Verdict where
  member : Member
  state : State
  reason : UnknownReason
  deriving DecidableEq, Repr

namespace Verdict

def cause (v : Verdict) (reason : UnknownReason) : MemberCause :=
  ⟨v.member.monitorID, v.member.region, reason⟩

end Verdict

/-- Count a member. -/
def Tally.record (v : Verdict) : Tally :=
  let t := { t with declared := t.declared + 1 }
  match v.state with
  | .excluded =>
    let t := { t with excludedCauses := t.excludedCauses ++ [v.cause .unset] }
    if !v.member.enabled then { t with excludedDisabled := t.excludedDisabled + 1 }
    else { t with excludedMaintenance := t.excludedMaintenance + 1 }
  | .good => { t with good := t.good + 1 }
  | .bad => { t with bad := t.bad + 1, badCauses := t.badCauses ++ [v.cause .unset] }
  | .unknown =>
    { t with unknown := t.unknown + 1, unknownCauses := t.unknownCauses ++ [v.cause v.reason] }

variable (policy : MissingDataPolicy)

/-- What the missing-data policy makes of one undecided member. -/
def Tally.resolve (v : Verdict) : Tally :=
  match policy with
  | .bad =>
    { t with
      unknown := t.unknown - 1, bad := t.bad + 1, badCauses := t.badCauses ++ [v.cause .unset] }
  | .ignore => { t with unknown := t.unknown - 1, ignored := t.ignored + 1 }
  | _ => t

def updateRegion (region : String) (f : Tally → Tally) (tallies : List Tally) : List Tally :=
  upsert Tally.region Tally.empty region f tallies

/-- The tallies of all regions. -/
def censusOf (verdicts : List Verdict) (p : ServicePolicies) : List Tally :=
  let counted := verdicts.foldl (fun ts v => updateRegion v.member.region (·.record v) ts) []
  let unknowns := verdicts.filter fun v => v.state = .unknown
  let resolved :=
    unknowns.foldl (fun ts v => updateRegion v.member.region (·.resolve p.missingData v) ts) counted
  resolved.insertionSort fun a b => a.region ≤ b.region

def MemberSeries.verdictAt (s : MemberSeries) (spans : List MaintenanceSpan)
    (p : ServicePolicies) (t : Int) : Verdict :=
  let st := s.stateAt t spans (p.maintenance = .exclude)
  ⟨s.toMember, st.1, st.2⟩

/-- The tallies at an instant. -/
def censusAt (series : List MemberSeries) (spans : List MaintenanceSpan) (p : ServicePolicies)
    (t : Int) : List Tally :=
  censusOf (series.map fun s => s.verdictAt spans p t) p

/-- The point evaluator: the aggregated outcome in force at `t`. -/
def stateAt (members : List Member) (observations : List Observation)
    (maintenance : List MaintenanceSpan) (p : ServicePolicies) (t : Int) : Outcome :=
  if members = [] then ⟨.unknown, .unknown, []⟩
  else aggregate (censusAt (buildSeries members observations) maintenance p t) p

/-! ## The census in closed form -/

@[simp] theorem Tally.record_region (v : Verdict) : (t.record v).region = t.region := by
  unfold record
  cases v.state <;> simp only
  split <;> rfl

@[simp] theorem Tally.resolve_region (v : Verdict) : (t.resolve policy v).region = t.region := by
  cases policy <;> rfl

def ofRegion (r : String) (verdicts : List Verdict) : List Verdict :=
  verdicts.filter fun v => v.member.region = r

open Tally

def tallyOf (r : String) (verdicts : List Verdict) (policy : MissingDataPolicy) : Tally :=
  ((ofRegion r verdicts).filter fun v => v.state = .unknown).foldl (·.resolve policy ·)
    ((ofRegion r verdicts).foldl record (empty r))

def regionsOf (verdicts : List Verdict) : List String :=
  firstSeen [] (verdicts.map fun v => v.member.region)

variable (verdicts : List Verdict)

theorem regionsOf_nodup : (regionsOf verdicts).Nodup :=
  firstSeen_nodup _ nodup_nil

theorem mem_regionsOf {verdicts : List Verdict} {r : String} :
    r ∈ regionsOf verdicts ↔ ∃ v ∈ verdicts, v.member.region = r := by
  simp [regionsOf, mem_firstSeen]

theorem foldl_record_region (vs : List Verdict) :
    ∀ t : Tally, (vs.foldl record t).region = t.region := by
  induction vs with
  | nil => intro t; rfl
  | cons v vs ih => intro t; rw [foldl_cons, ih, record_region]

theorem foldl_resolve_region (vs : List Verdict) :
    ∀ t : Tally, (vs.foldl (·.resolve policy ·) t).region = t.region := by
  induction vs with
  | nil => intro t; rfl
  | cons v vs ih => intro t; rw [foldl_cons, ih, resolve_region]

@[simp] theorem tallyOf_region (r : String) (vs : List Verdict) (policy : MissingDataPolicy) :
    (tallyOf r vs policy).region = r := by
  rw [tallyOf, foldl_resolve_region, foldl_record_region]
  rfl

/-- **The census is one tally per declared region, in the order of the regions.** -/
theorem censusOf_eq (p : ServicePolicies) : censusOf verdicts p =
      ((regionsOf verdicts).insertionSort (· ≤ ·)).map
        fun r => tallyOf r verdicts p.missingData := by
  have hcount : verdicts.foldl (fun ts v => updateRegion v.member.region (·.record v) ts) [] =
      (regionsOf verdicts).map fun r => (ofRegion r verdicts).foldl Tally.record (Tally.empty r) :=
    foldl_upsert Tally.region Tally.empty (fun v : Verdict => v.member.region) Tally.record
      Tally.record_region verdicts [] Tally.empty nodup_nil (fun _ => rfl) (fun _ _ => rfl)
  have hresolve := foldl_upsert Tally.region Tally.empty (fun v : Verdict => v.member.region)
    (fun t v => t.resolve p.missingData v) (fun t v => Tally.resolve_region t _ v)
    (verdicts.filter fun v => v.state = .unknown) (regionsOf verdicts)
    (fun r => (ofRegion r verdicts).foldl Tally.record (Tally.empty r))
    (regionsOf_nodup verdicts) (fun r => by rw [foldl_record_region]; rfl)
  have hnew : firstSeen (regionsOf verdicts)
      ((verdicts.filter fun v => v.state = .unknown).map fun v => v.member.region) =
      regionsOf verdicts := by
    refine firstSeen_of_subset _ fun r hr => mem_regionsOf.2 ?_
    obtain ⟨v, hv, rfl⟩ := mem_map.1 hr
    exact ⟨v, (mem_filter.1 hv).1, rfl⟩
  have hfresh : ∀ r ∉ regionsOf verdicts,
      (ofRegion r verdicts).foldl Tally.record (Tally.empty r) = Tally.empty r := by
    intro r hr
    have : ofRegion r verdicts = [] :=
      filter_eq_nil_iff.2 fun v hv h => hr (mem_regionsOf.2 ⟨v, hv, by simpa using h⟩)
    rw [this]
    rfl
  unfold censusOf
  simp only [hcount]
  unfold updateRegion
  rw [hresolve hfresh, hnew, map_insertionSort (· ≤ ·) fun a b => a.region ≤ b.region]
  · refine congrArg _ (map_congr_left fun r _ => ?_)
    unfold tallyOf
    congr 1
    rw [ofRegion]
    simp [Bool.and_comm]
  · intro a _ b _
    simp

theorem censusOf_regions_nodup (p : ServicePolicies) :
    ((censusOf verdicts p).map region).Nodup := by
  rw [censusOf_eq, map_map]
  have : (region ∘ fun r => tallyOf r verdicts p.missingData) = id := by
    funext r
    simp
  rw [this, map_id]
  exact (perm_insertionSort _ _).nodup_iff.2 (regionsOf_nodup verdicts)

theorem censusAt_congr {series : List MemberSeries} {spans : List MaintenanceSpan}
    {p : ServicePolicies} {start t u : Int} (h : SameSide (candidates series spans start) t u) :
    censusAt series spans p t = censusAt series spans p u := by
  unfold censusAt
  congr 1
  refine map_congr_left fun s hs => ?_
  have hi : SameSide s.instants t u := h.of_subset fun x hx => by
    simp only [candidates, mem_cons, mem_append, mem_flatMap]
    exact .inr (.inl ⟨s, hs, hx⟩)
  have he : SameSide (spanEdges spans) t u := h.of_subset fun x hx => by
    simp [candidates, hx]
  simp only [MemberSeries.verdictAt, MemberSeries.stateAt_congr hi he]

end Cerbix.Reliability
