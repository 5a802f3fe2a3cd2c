import Cerbix.Lib.Go
import Cerbix.Lib.Keyed
import Cerbix.Lib.Text
import Cerbix.Domain.Monitor

/-!
# Buckets and service policies

`internal/domain/service.go`. Every fact is keyed by the start of a minute: `floorToBucket` and
`ceilToBucket`; `date_bin` from the Unix epoch is the same rounding, the epoch being a whole minute.

The policies are the part of a definition revision the evaluator reads, with their defaults and
their validator. The string-typed enumerations of the source have a constructor for the empty
string, which the defaults act on, and one for the texts the source does not name, which the
validator rejects. `validateServicePolicies_eq_ok_iff`: acceptance is `ServicePolicies.Valid`. It
does not look at the freshness policy, whose deadline can overflow (`resolveStaleAfter_exact_iff`).
-/

namespace Cerbix.Domain

open Cerbix.Lib Go

/-- The width of a bucket. -/
def canonicalBucket : Int := minute

/-- How long a bucket is left open for late results. -/
def lateArrivalGrace : Int := 2 * minute

def floorToBucket (t : Int) : Int := truncate t canonicalBucket

def ceilToBucket (t : Int) : Int :=
  let floored := truncate t canonicalBucket
  if floored = t then t else floored + canonicalBucket

/-- The instant is a boundary between buckets. -/
def Aligned (t : Int) : Prop := t % canonicalBucket = 0

instance (t : Int) : Decidable (Aligned t) := inferInstanceAs (Decidable (t % _ = 0))

theorem canonicalBucket_eq : canonicalBucket = 60000000000 := by decide

theorem canonicalBucket_pos : 0 < canonicalBucket := by decide

theorem floorToBucket_eq (t : Int) : floorToBucket t = t - t % canonicalBucket := by
  unfold floorToBucket truncate
  rw [if_neg (by decide)]

theorem floorToBucket_le (t : Int) : floorToBucket t ≤ t := by
  rw [floorToBucket_eq, canonicalBucket_eq]
  omega

theorem floorToBucket_aligned (t : Int) : Aligned (floorToBucket t) := by
  unfold Aligned
  rw [floorToBucket_eq, canonicalBucket_eq]
  omega

variable {t u : Int}

theorem floorToBucket_of_aligned (h : Aligned t) : floorToBucket t = t := by
  unfold Aligned at h
  rw [floorToBucket_eq, h]
  omega

theorem ceilToBucket_eq (t : Int) :
    ceilToBucket t = if t % canonicalBucket = 0 then t else t - t % canonicalBucket +
      canonicalBucket := by
  unfold ceilToBucket
  rw [show truncate t canonicalBucket = t - t % canonicalBucket from floorToBucket_eq t]
  simp only
  split_ifs <;> omega

theorem le_ceilToBucket (t : Int) : t ≤ ceilToBucket t := by
  rw [ceilToBucket_eq, canonicalBucket_eq]
  split <;> omega

theorem ceilToBucket_aligned (t : Int) : Aligned (ceilToBucket t) := by
  unfold Aligned
  rw [ceilToBucket_eq, canonicalBucket_eq]
  split <;> omega

theorem ceilToBucket_of_aligned (h : Aligned t) : ceilToBucket t = t := by
  unfold Aligned at h
  rw [ceilToBucket_eq, if_pos h]

theorem ceilToBucket_mono (h : t ≤ u) : ceilToBucket t ≤ ceilToBucket u := by
  rw [ceilToBucket_eq, ceilToBucket_eq, canonicalBucket_eq]
  split_ifs <;> omega

theorem floorToBucket_lt_ceilToBucket (h : t < u) : floorToBucket t < ceilToBucket u :=
  lt_of_le_of_lt (floorToBucket_le t) (lt_of_lt_of_le h (le_ceilToBucket u))

theorem Aligned.add_le_of_lt (ht : Aligned t) (hu : Aligned u) (h : t < u) :
    t + canonicalBucket ≤ u := by
  unfold Aligned at ht hu
  rw [canonicalBucket_eq] at *
  omega

theorem Aligned.add (ht : Aligned t) (n : Int) : Aligned (t + n * canonicalBucket) := by
  unfold Aligned at *
  rw [Int.add_mul_emod_self_right, ht]

theorem Aligned.prev (h : Aligned t) : Aligned (t - canonicalBucket) := by
  have := h.add (-1)
  simpa [Int.sub_eq_add_neg] using this

/-- How the members of a region are put together. -/
inductive AggMode
  | unset | all | any | quorum
  | other (text : String)
  deriving DecidableEq, Repr

/-- How regions are put together. -/
inductive RegionMode
  | unset | perRegion | anyRegion | allRegions
  | other (text : String)
  deriving DecidableEq, Repr

/-- What a member without evidence counts as. -/
inductive MissingDataPolicy
  | unset | unknown | bad | ignore
  | other (text : String)
  deriving DecidableEq, Repr

/-- What a window of maintenance counts as. -/
inductive MaintenancePolicy
  | unset | exclude
  | other (text : String)
  deriving DecidableEq, Repr

def AggMode.text : AggMode → String
  | .unset => "" | .all => "all" | .any => "any" | .quorum => "quorum" | .other s => s

def RegionMode.text : RegionMode → String
  | .unset => "" | .perRegion => "per_region" | .anyRegion => "any_region"
  | .allRegions => "all_regions" | .other s => s

def MissingDataPolicy.text : MissingDataPolicy → String
  | .unset => "" | .unknown => "unknown" | .bad => "bad" | .ignore => "ignore" | .other s => s

def MaintenancePolicy.text : MaintenancePolicy → String
  | .unset => "" | .exclude => "exclude" | .other s => s

/-- How many members a region needs. -/
structure AggregationPolicy where
  mode : AggMode
  degradedMin : Int
  healthyMin : Int
  deriving DecidableEq, Repr

/-- How many regions a service needs. -/
structure RegionAggregationPolicy where
  mode : RegionMode
  degradedMinRegions : Int
  healthyMinRegions : Int
  deriving DecidableEq, Repr

/-- How long an active probe's last observation stays effective; `activeFloor` is a
`time.Duration`, in nanoseconds. -/
structure FreshnessPolicy where
  activeMultiplier : Int
  activeFloor : Int
  deriving DecidableEq, Repr

/-- The policies of a revision. -/
structure ServicePolicies where
  aggregation : AggregationPolicy
  region : RegionAggregationPolicy
  missingData : MissingDataPolicy
  maintenance : MaintenancePolicy
  freshness : FreshnessPolicy
  deriving DecidableEq, Repr

def defaultFreshnessPolicy : FreshnessPolicy where
  activeMultiplier := 3
  activeFloor := 90 * second

/-- How long a member's last observation stays effective. The product `multiplier * interval` is a
`time.Duration` and wraps like one. -/
def resolveStaleAfter (f : FreshnessPolicy) (typ : MonitorType) (interval grace : Int) : Int :=
  if typ = .push then
    wrap64 (interval + grace)
  else
    let d := wrap64 (f.activeMultiplier * interval)
    if d < f.activeFloor then f.activeFloor else d

/-- A policy that says nothing is the default. -/
def FreshnessPolicy.orDefault (f : FreshnessPolicy) : FreshnessPolicy :=
  if f.activeMultiplier = 0 ∧ f.activeFloor = 0 then defaultFreshnessPolicy else f

/-- Region-mode sugar is normalized away, so the evaluator only ever sees per-region thresholds. -/
def RegionAggregationPolicy.normalize (r : RegionAggregationPolicy) (expectedRegions : Int) :
    RegionAggregationPolicy :=
  match r.mode with
  | .unset | .perRegion =>
    { mode := .perRegion
      degradedMinRegions := if r.degradedMinRegions = 0 then 1 else r.degradedMinRegions
      healthyMinRegions :=
        if r.healthyMinRegions = 0 then expectedRegions else r.healthyMinRegions }
  | .anyRegion => { mode := .perRegion, degradedMinRegions := 1, healthyMinRegions := 1 }
  | .allRegions =>
    { mode := .perRegion
      degradedMinRegions := expectedRegions
      healthyMinRegions := expectedRegions }
  | .other _ => r

/-- Only a quorum has thresholds to fill in. -/
def AggregationPolicy.fillDefaults (a : AggregationPolicy)
    (declaredPerRegion : List (String × Int)) : AggregationPolicy :=
  let mode := if a.mode = .unset then .all else a.mode
  if mode = .quorum then
    { mode := mode
      degradedMin := if a.degradedMin = 0 then 1 else a.degradedMin
      healthyMin :=
        if a.healthyMin = 0 then
          declaredPerRegion.foldl (fun m n => if n.2 > m then n.2 else m) 0
        else a.healthyMin }
  else { a with mode := mode }

/-- The policies as they are stored. -/
def applyServicePolicyDefaults (p : ServicePolicies) (declaredPerRegion : List (String × Int))
    (expectedRegions : Int) : ServicePolicies where
  aggregation := p.aggregation.fillDefaults declaredPerRegion
  region := p.region.normalize expectedRegions
  missingData := if p.missingData = .unset then .unknown else p.missingData
  maintenance := if p.maintenance = .unset then .exclude else p.maintenance
  freshness := p.freshness.orDefault

/-! ## Validation -/

/-- The refusals of `ValidateServicePolicies`, in the order it makes them. -/
inductive PolicyError
  | noMembers
  | emptyRegion (region : String)
  | degradedMinTooSmall (got : Int)
  | healthyBelowDegraded (healthy degraded : Int)
  | healthyExceedsDeclared (healthy declared : Int) (region : String)
  | unknownAggregation (mode : AggMode)
  | regionNotNormalized (mode : RegionMode)
  | degradedRegionsTooSmall (got : Int)
  | healthyRegionsBelowDegraded (healthy degraded : Int)
  | healthyRegionsExceedExpected (healthy expected : Int)
  | unknownMissingData (policy : MissingDataPolicy)
  | unknownMaintenance (policy : MaintenancePolicy)
  deriving DecidableEq, Repr

def quoted (s : String) : String := "\"" ++ s ++ "\""

def PolicyError.message (e : PolicyError) : String :=
  "service policies: " ++
  match e with
  | .noMembers => "a revision with reliability inputs declares at least one member"
  | .emptyRegion r => "region " ++ quoted r ++ " declares no members"
  | .degradedMinTooSmall n => "degraded_min must be at least 1, got " ++ toString n
  | .healthyBelowDegraded h d =>
    "healthy_min " ++ toString h ++ " is below degraded_min " ++ toString d
  | .healthyExceedsDeclared h d r =>
    "healthy_min " ++ toString h ++ " exceeds the " ++ toString d ++
      " members declared in region " ++ quoted r
  | .unknownAggregation m => "unknown aggregation mode " ++ quoted m.text
  | .regionNotNormalized m =>
    "region mode " ++ quoted m.text ++ " must be normalized before validation"
  | .degradedRegionsTooSmall n => "degraded_min_regions must be at least 1, got " ++ toString n
  | .healthyRegionsBelowDegraded h d =>
    "healthy_min_regions " ++ toString h ++ " is below degraded_min_regions " ++ toString d
  | .healthyRegionsExceedExpected h n =>
    "healthy_min_regions " ++ toString h ++ " exceeds the " ++ toString n ++ " expected regions"
  | .unknownMissingData p => "unknown missing_data policy " ++ quoted p.text
  | .unknownMaintenance p => "unknown maintenance policy " ++ quoted p.text

def require (c : Prop) [Decidable c] (e : PolicyError) : Except PolicyError Unit :=
  if c then .ok () else .error e

def requireRegions (ok : Int → Bool) (e : Int → String → PolicyError) :
    List (String × Int) → Except PolicyError Unit
  | [] => .ok ()
  | (region, declared) :: rest =>
    if ok declared then requireRegions ok e rest else .error (e declared region)

def AggregationPolicy.validate (a : AggregationPolicy) (declaredPerRegion : List (String × Int)) :
    Except PolicyError Unit :=
  match a.mode with
  | .all | .any => .ok ()
  | .quorum => do
    require (1 ≤ a.degradedMin) (.degradedMinTooSmall a.degradedMin)
    require (a.degradedMin ≤ a.healthyMin) (.healthyBelowDegraded a.healthyMin a.degradedMin)
    requireRegions (a.healthyMin ≤ ·) (.healthyExceedsDeclared a.healthyMin) declaredPerRegion
  | m => .error (.unknownAggregation m)

def RegionAggregationPolicy.validate (r : RegionAggregationPolicy) (expectedRegions : Int) :
    Except PolicyError Unit := do
  require (r.mode = .perRegion) (.regionNotNormalized r.mode)
  require (1 ≤ r.degradedMinRegions) (.degradedRegionsTooSmall r.degradedMinRegions)
  require (r.degradedMinRegions ≤ r.healthyMinRegions)
    (.healthyRegionsBelowDegraded r.healthyMinRegions r.degradedMinRegions)
  require (r.healthyMinRegions ≤ expectedRegions)
    (.healthyRegionsExceedExpected r.healthyMinRegions expectedRegions)

/-- The policies as they are stored fit the declared members. -/
def validateServicePolicies (p : ServicePolicies) (declaredPerRegion : List (String × Int))
    (expectedRegions : Int) : Except PolicyError Unit := do
  require (declaredPerRegion ≠ []) .noMembers
  requireRegions (1 ≤ ·) (fun _ r => .emptyRegion r) declaredPerRegion
  p.aggregation.validate declaredPerRegion
  p.region.validate expectedRegions
  require (p.missingData = .unknown ∨ p.missingData = .bad ∨ p.missingData = .ignore)
    (.unknownMissingData p.missingData)
  require (p.maintenance = .exclude) (.unknownMaintenance p.maintenance)

/-- How many members each region has. -/
def declaredPerRegion (regions : List String) : List (String × Int) :=
  regions.foldl (fun d r => upsert Prod.fst (·, 0) r (fun x => (x.1, x.2 + 1)) d) []

/-- The write path: policies are defaulted and validated against the declared cardinality of the
members' regions. -/
def acceptPolicies (raw : ServicePolicies) (regions : List String) :
    Except PolicyError ServicePolicies := do
  let declared := declaredPerRegion regions
  let p := applyServicePolicyDefaults raw declared declared.length
  validateServicePolicies p declared declared.length
  return p

theorem require_eq_ok_iff {c : Prop} [Decidable c] {e : PolicyError} :
    require c e = .ok () ↔ c := by
  unfold require
  split <;> simp_all

theorem requireRegions_eq_ok_iff {ok : Int → Bool} {e : Int → String → PolicyError} :
    ∀ {d : List (String × Int)}, requireRegions ok e d = .ok () ↔ ∀ x ∈ d, ok x.2
  | [] => by simp [requireRegions]
  | (r, n) :: rest => by
    simp only [requireRegions]
    split
    · next h => simp [h, requireRegions_eq_ok_iff]
    · next h => simp [h]

theorem bind_eq_ok_iff {x : Except PolicyError Unit} {y : Unit → Except PolicyError Unit} :
    (x >>= y) = .ok () ↔ x = .ok () ∧ y () = .ok () := by
  cases x <;> simp [bind, Except.bind]

/-- What a validation that succeeds has checked. -/
structure ServicePolicies.Valid (p : ServicePolicies) (declaredPerRegion : List (String × Int))
    (expectedRegions : Int) : Prop where
  members : declaredPerRegion ≠ []
  declared : ∀ x ∈ declaredPerRegion, 1 ≤ x.2
  mode : p.aggregation.mode = .all ∨ p.aggregation.mode = .any ∨ p.aggregation.mode = .quorum
  quorum : p.aggregation.mode = .quorum →
    1 ≤ p.aggregation.degradedMin ∧ p.aggregation.degradedMin ≤ p.aggregation.healthyMin ∧
      ∀ x ∈ declaredPerRegion, p.aggregation.healthyMin ≤ x.2
  regionMode : p.region.mode = .perRegion
  degradedRegions : 1 ≤ p.region.degradedMinRegions
  healthyRegions : p.region.degradedMinRegions ≤ p.region.healthyMinRegions
  expected : p.region.healthyMinRegions ≤ expectedRegions
  missingData : p.missingData = .unknown ∨ p.missingData = .bad ∨ p.missingData = .ignore
  maintenance : p.maintenance = .exclude

variable {d : List (String × Int)} {p : ServicePolicies} {regions : List String}

theorem AggregationPolicy.validate_eq_ok_iff {a : AggregationPolicy} :
    a.validate d = .ok () ↔ (a.mode = .all ∨ a.mode = .any ∨ a.mode = .quorum) ∧
      (a.mode = .quorum → 1 ≤ a.degradedMin ∧ a.degradedMin ≤ a.healthyMin ∧
        ∀ x ∈ d, a.healthyMin ≤ x.2) := by
  unfold AggregationPolicy.validate
  split <;> simp_all [bind_eq_ok_iff, require_eq_ok_iff, requireRegions_eq_ok_iff]

theorem validateServicePolicies_eq_ok_iff
    {n : Int} : validateServicePolicies p d n = .ok () ↔ p.Valid d n := by
  simp only [validateServicePolicies, RegionAggregationPolicy.validate, bind_eq_ok_iff,
    require_eq_ok_iff, requireRegions_eq_ok_iff, AggregationPolicy.validate_eq_ok_iff,
    decide_eq_true_eq]
  constructor
  · rintro ⟨h₁, h₂, ⟨h₃, h₄⟩, ⟨h₅, h₆, h₇, h₈⟩, h₉, h₁₀⟩
    exact ⟨h₁, h₂, h₃, h₄, h₅, h₆, h₇, h₈, h₉, h₁₀⟩
  · rintro ⟨h₁, h₂, h₃, h₄, h₅, h₆, h₇, h₈, h₉, h₁₀⟩
    exact ⟨h₁, h₂, ⟨h₃, h₄⟩, ⟨h₅, h₆, h₇, h₈⟩, h₉, h₁₀⟩

theorem declaredPerRegion_eq_nil_iff : declaredPerRegion regions = [] ↔ regions = [] := by
  have h := foldl_upsert Prod.fst (fun r : String => (r, (0 : Int))) id
    (fun x _ => (x.1, x.2 + 1)) (fun _ _ => rfl) regions []
    (fun r => (r, 0)) List.nodup_nil (fun _ => rfl) (fun _ _ => rfl)
  rw [show declaredPerRegion regions = _ from h, List.map_eq_nil_iff, List.map_id]
  constructor
  · intro h
    refine List.eq_nil_iff_forall_not_mem.2 fun r hr => ?_
    have : r ∈ firstSeen [] regions := (mem_firstSeen regions).2 (.inr hr)
    simp [h] at this
  · rintro rfl
    rfl

theorem acceptPolicies_ok {raw : ServicePolicies} (h : acceptPolicies raw regions = .ok p) :
    regions ≠ [] ∧ p.Valid (declaredPerRegion regions) (declaredPerRegion regions).length ∧
      p.freshness = raw.freshness.orDefault := by
  unfold acceptPolicies at h
  cases hv : validateServicePolicies (applyServicePolicyDefaults raw (declaredPerRegion regions)
        (declaredPerRegion regions).length)
      (declaredPerRegion regions) (declaredPerRegion regions).length with
  | error e => simp [hv] at h
  | ok _ =>
    obtain rfl : applyServicePolicyDefaults raw (declaredPerRegion regions)
        (declaredPerRegion regions).length = p := by
      simpa [hv, bind, Except.bind, pure, Except.pure] using h
    have hvalid := validateServicePolicies_eq_ok_iff.1 hv
    exact ⟨fun hr => hvalid.members (declaredPerRegion_eq_nil_iff.2 hr), hvalid, rfl⟩

/-! ## Freshness over the unbounded integers -/

/-- An `int64` field, as `encoding/json` reads it. -/
def unmarshalInt : Json → Option Int64
  | .null => some 0
  | .num text => do
    let n ← Text.atoi text
    if minInt64 ≤ n ∧ n ≤ maxInt64 then some (.ofInt n) else none
  | _ => none

variable (parseDuration : String → Option Int64)

def unmarshalActiveFloor : Option Json → Option Int64
  | none => some 0
  | some (.str s) => if s = "" then some 0 else parseDuration s
  | some doc => unmarshalInt doc

def FreshnessPolicy.unmarshalJSON : Json → Option FreshnessPolicy
  | .null => some ⟨0, 0⟩
  | .obj fields => do
    let multiplier ← unmarshalInt ((fields.lookup "active_multiplier").getD .null)
    let floor ← unmarshalActiveFloor parseDuration (fields.lookup "active_floor")
    return ⟨multiplier.toInt, floor.toInt⟩
  | _ => none

/-- The formula of `resolveStaleAfter`, without a bound on its values. -/
def exactStaleAfter (f : FreshnessPolicy) (typ : MonitorType) (interval grace : Int) : Int :=
  if typ = .push then interval + grace else max (f.activeMultiplier * interval) f.activeFloor

/-- The arithmetic did not overflow. -/
def StaleAfterExact (f : FreshnessPolicy) (typ : MonitorType) (interval grace : Int) : Prop :=
  0 < resolveStaleAfter f typ interval grace ∧
    resolveStaleAfter f typ interval grace = exactStaleAfter f typ interval grace

/-- The deadline is positive, and the product fits or wraps from below to at most the floor. -/
def StaleAfterFits (f : FreshnessPolicy) (typ : MonitorType) (interval grace : Int) : Prop :=
  0 < exactStaleAfter f typ interval grace ∧ (typ = .push ∨
    f.activeMultiplier * interval ≤ maxInt64 ∧ (minInt64 ≤ f.activeMultiplier * interval ∨
      wrap64 (f.activeMultiplier * interval) ≤ f.activeFloor))

variable {parseDuration} {f : FreshnessPolicy} {typ : MonitorType} {interval grace : Int}

open FreshnessPolicy

theorem activeFloor_of_unmarshalJSON {doc : Json} (h : unmarshalJSON parseDuration doc = some f) :
    ∃ floor : Int64, f.orDefault.activeFloor = floor.toInt := by
  have hf : ∃ floor : Int64, f.activeFloor = floor.toInt := by
    unfold unmarshalJSON at h
    split at h
    · cases h
      exact ⟨0, rfl⟩
    · obtain ⟨_, -, h⟩ := Option.bind_eq_some_iff.1 h
      obtain ⟨floor, -, h⟩ := Option.bind_eq_some_iff.1 h
      cases h
      exact ⟨floor, rfl⟩
    · cases h
  unfold orDefault
  split
  · exact ⟨90000000000, by decide⟩
  · exact hf

theorem staleAfterExact_iff (hfloor : ∃ floor : Int64, f.activeFloor = floor.toInt)
    (hsum : interval + grace ≤ maxInt64) :
    StaleAfterExact f typ interval grace ↔ StaleAfterFits f typ interval grace := by
  obtain ⟨floor, hfloor⟩ := hfloor
  have hmin := floor.le_toInt
  have hmax := floor.toInt_lt
  unfold StaleAfterExact StaleAfterFits resolveStaleAfter exactStaleAfter
  by_cases hpush : typ = .push
  · simp only [hpush, if_true, true_or, and_true]
    constructor
    · rintro ⟨hpos, heq⟩
      rwa [heq] at hpos
    · intro hpos
      rw [wrap64_of_mem (by unfold minInt64; omega) hsum]
      exact ⟨hpos, rfl⟩
  · have hwrap := wrap64_mem (f.activeMultiplier * interval)
    have hexact := @wrap64_of_mem (f.activeMultiplier * interval)
    simp only [hpush, if_false, false_or]
    generalize f.activeMultiplier * interval = d at *
    unfold minInt64 maxInt64 at *
    split <;> omega

/-- **Freshness resolution**, of a policy that was decoded and accepted. -/
theorem resolveStaleAfter_exact_iff {doc : Json} {raw : ServicePolicies}
    (hdoc : unmarshalJSON parseDuration doc = some raw.freshness)
    (h : acceptPolicies raw regions = .ok p) (hi : interval ≤ 86400) (hg : grace ≤ 86400) :
    StaleAfterExact p.freshness typ (interval * second) (grace * second) ↔
      StaleAfterFits p.freshness typ (interval * second) (grace * second) := by
  obtain ⟨-, -, hfresh⟩ := acceptPolicies_ok h
  refine staleAfterExact_iff ?_ ?_
  · rw [hfresh]
    exact activeFloor_of_unmarshalJSON hdoc
  · unfold second maxInt64
    omega

theorem resolveStaleAfter_exact_defaults :
    StaleAfterExact defaultFreshnessPolicy .http (60 * second) (0 * second) := by
  have h : acceptPolicies ⟨⟨.unset, 0, 0⟩, ⟨.unset, 0, 0⟩, .unset, .unset, ⟨0, 0⟩⟩ ["eu"] =
      .ok ⟨⟨.all, 0, 0⟩, ⟨.perRegion, 1, 1⟩, .unknown, .exclude, defaultFreshnessPolicy⟩ := by
    decide +kernel
  have hdoc : unmarshalJSON (fun _ => none) .null = some ⟨0, 0⟩ := rfl
  refine (resolveStaleAfter_exact_iff hdoc h (by decide) (by decide)).2 ?_
  unfold StaleAfterFits
  decide

/-- A day, two hundred thousand times, wraps to a negative duration, and there is no floor. -/
theorem staleAfter_overflows :
    unmarshalJSON (fun _ => none) (.obj [("active_multiplier", .num "200000")]) = some ⟨200000, 0⟩ ∧
      acceptPolicies ⟨⟨.unset, 0, 0⟩, ⟨.unset, 0, 0⟩, .unset, .unset, ⟨200000, 0⟩⟩ ["eu"] =
        .ok ⟨⟨.all, 0, 0⟩, ⟨.perRegion, 1, 1⟩, .unknown, .exclude, ⟨200000, 0⟩⟩ ∧
      resolveStaleAfter ⟨200000, 0⟩ .http (86400 * second) (0 * second) = 0 := by
  decide +kernel

end Cerbix.Domain
