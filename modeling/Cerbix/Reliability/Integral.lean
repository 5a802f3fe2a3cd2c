import Mathlib.Algebra.BigOperators.Group.Finset.Piecewise
import Cerbix.Reliability.Reduce

/-!
# The reducer integrates the point evaluator

The durations of a bucket are, class by class and on both axes, the nanoseconds of the bucket at
which `stateAt` answers with that class (`reduce_eq_integral_of_representable`), provided its length
is a `time.Duration`: `Time.Sub` saturates, and on `longBucket` the reducer reports the saturated
length.
-/

namespace Cerbix.Reliability

open Cerbix.Lib Cerbix.Domain Finset Go Input

def Input.outcomeAt (inp : Input) (t : Int) : Outcome :=
  stateAt inp.members inp.observations inp.maintenance inp.policies t

/-- The time of the bucket during which the outcome satisfies `P`, in nanoseconds. -/
noncomputable def Input.timeIn (inp : Input) (P : Outcome → Prop) [DecidablePred P] : Nat :=
  ((Ico inp.start inp.stop).filter fun t => P (inp.outcomeAt t)).card

theorem aggregate_excluded_iff (ts : List Tally) (p : ServicePolicies) :
    (aggregate ts p).health = .excluded ↔ (aggregate ts p).availability = .excluded := by
  unfold aggregate combineRegions combineCounts
  split
  · simp
  simp only
  split
  · simp
  · split
    · simp
    · split
      · split <;> simp
      · split <;> simp

/-! ## Counting -/

section

variable {inp : Input}

theorem outcomeAt_eq (hm : inp.members ≠ []) (t : Int) : inp.outcomeAt t =
      aggregate (censusAt (buildSeries inp.members inp.observations) inp.maintenance
        inp.policies t) inp.policies := by
  rw [outcomeAt, stateAt, if_neg hm]

theorem timeIn_le (hlt : inp.start < inp.stop) (P : Outcome → Prop) [DecidablePred P] :
    (inp.timeIn P : Int) ≤ inp.stop - inp.start := by
  have : inp.timeIn P ≤ (Ico inp.start inp.stop).card := card_filter_le _ _
  rw [Int.card_Ico] at this
  omega

theorem counter_eq_timeIn (hlt : inp.start < inp.stop)
    (hlen : inp.stop - inp.start ≤ maxInt64) (hm : inp.members ≠ [])
    (P : Outcome → Prop) [DecidablePred P] (count : Durations → Int) (h₀ : count .zero = 0)
    (hc : ∀ d ts, wrap64 (count d) = count d → count (d.add (aggregate ts inp.policies) 1) =
        wrap64 (count d + if P (aggregate ts inp.policies) then 1 else 0)) :
    count (sweep (reduceStep inp.policies)
      (censusAt (buildSeries inp.members inp.observations) inp.maintenance inp.policies)
      .zero inp.start (inp.stop - inp.start).toNat).durations = inp.timeIn P := by
  have hsweep := sweep_count (reduceStep inp.policies)
    (censusAt (buildSeries inp.members inp.observations) inp.maintenance inp.policies)
    (fun ts => P (aggregate ts inp.policies)) (fun acc => count acc.durations)
    wrap64_add_left (fun acc ts h => by
      exact hc acc.durations ts h)
    (inp.stop - inp.start).toNat .zero inp.start
    (by simp [Acc.zero, h₀])
  have hstop : inp.start + ((inp.stop - inp.start).toNat : Int) = inp.stop := by omega
  rw [hsweep, hstop]
  simp only [Acc.zero, h₀, zero_add]
  have hP : ((Ico inp.start inp.stop).filter fun t =>
      P (aggregate (censusAt (buildSeries inp.members inp.observations) inp.maintenance
        inp.policies t) inp.policies)).card = inp.timeIn P := by
    simp only [timeIn, outcomeAt_eq hm]
  rw [hP]
  have hle := timeIn_le hlt P
  refine wrap64_of_mem ?_ (by omega)
  unfold minInt64
  omega

end

variable {inp : Input}

theorem timeIn_availability_total (hlt : inp.start < inp.stop) :
    (inp.timeIn (·.availability = .good) + inp.timeIn (·.availability = .bad) +
      inp.timeIn (·.availability = .unknown) + inp.timeIn (·.availability = .excluded) : Int) =
      inp.stop - inp.start := by
  have hcard : inp.timeIn (·.availability = .good) + inp.timeIn (·.availability = .bad) +
      inp.timeIn (·.availability = .unknown) + inp.timeIn (·.availability = .excluded) =
      (Ico inp.start inp.stop).card := by
    simp only [timeIn, card_filter, ← sum_add_distrib]
    rw [card_eq_sum_ones]
    refine sum_congr rfl fun t _ => ?_
    cases (inp.outcomeAt t).availability <;> simp
  rw [Int.card_Ico] at hcard
  omega

theorem timeIn_health_total (hlt : inp.start < inp.stop) :
    (inp.timeIn (·.health = .healthy) + inp.timeIn (·.health = .degraded) +
      inp.timeIn (·.health = .down) + inp.timeIn (·.health = .unknown) +
      inp.timeIn (·.health = .excluded) : Int) = inp.stop - inp.start := by
  have hcard : inp.timeIn (·.health = .healthy) + inp.timeIn (·.health = .degraded) +
      inp.timeIn (·.health = .down) + inp.timeIn (·.health = .unknown) +
      inp.timeIn (·.health = .excluded) = (Ico inp.start inp.stop).card := by
    simp only [timeIn, card_filter, ← sum_add_distrib]
    rw [card_eq_sum_ones]
    refine sum_congr rfl fun t _ => ?_
    cases (inp.outcomeAt t).health <;> simp
  rw [Int.card_Ico] at hcard
  omega

theorem reduce_durations (hlt : inp.start < inp.stop)
    (hlen : inp.stop - inp.start ≤ maxInt64) (hm : inp.members ≠ []) : ∃ b, reduce inp = .ok b ∧
      (∀ a, b.durations.availability a = inp.timeIn (·.availability = a)) ∧
      ∀ h, b.durations.health h = inp.timeIn (·.health = h) := by
  rw [reduce_eq_sweep inp hlt hlen hm]
  set acc := sweep (reduceStep inp.policies)
    (censusAt (buildSeries inp.members inp.observations) inp.maintenance inp.policies)
    .zero inp.start (inp.stop - inp.start).toNat with hacc
  have hA : ∀ a, acc.durations.availability a = inp.timeIn (·.availability = a) := fun a =>
    counter_eq_timeIn hlt hlen hm (·.availability = a) (fun d => d.availability a)
      (by cases a <;> rfl) fun d ts hd => d.add_availability _ a 1 hd
  have hH : ∀ h, acc.durations.health h = inp.timeIn (·.health = h) := fun h =>
    counter_eq_timeIn hlt hlen hm (·.health = h) (fun d => d.health h)
      (by cases h <;> rfl) fun d ts hd => d.add_health _ h 1 (aggregate_excluded_iff _ _) hd
  have hsub : sub inp.stop inp.start = inp.stop - inp.start := sub_of_le hlt.le hlen
  have hwrap : wrap64 (inp.stop - inp.start) = inp.stop - inp.start :=
    wrap64_of_mem (by unfold minInt64; omega) hlen
  have htotal : acc.durations.total = sub inp.stop inp.start := by
    rw [hsub, ← hwrap, ← timeIn_availability_total hlt, ← hA, ← hA, ← hA, ← hA]
    rfl
  have hhealth : acc.durations.healthTotal = sub inp.stop inp.start := by
    rw [hsub, ← hwrap, ← timeIn_health_total hlt, ← hH, ← hH, ← hH, ← hH, ← hH]
    rfl
  refine ⟨_, by simp only [finish, htotal, hhealth, ne_eq]; rfl, ?_⟩
  exact ⟨hA, hH⟩

theorem outcomeAt_constOn (hlen : inp.stop - inp.start ≤ maxInt64) {l r : List Int} {t : Int}
    (hb : breakpoints (buildSeries inp.members inp.observations) inp.maintenance inp.start
      inp.stop = l ++ t :: r) : ConstOn inp.outcomeAt t (r.headD inp.stop) := by
  intro u h₁ h₂
  have hcensus := censusAt_constOn (p := inp.policies) hlen hb u h₁ h₂
  simp only [outcomeAt, stateAt, hcensus]

/-- **The reducer integrates the point evaluator.** On a bucket whose length is a `time.Duration`
each duration is the time the evaluator spends in its class, and no change falls strictly between
two break points; `(monitor, ts)` need not be unique. -/
theorem reduce_eq_integral_of_representable (inp : Input) (hlt : inp.start < inp.stop)
    (hlen : inp.stop - inp.start ≤ maxInt64) (hm : inp.members ≠ []) : (∃ b, reduce inp = .ok b ∧
      (∀ a, b.durations.availability a = inp.timeIn (·.availability = a)) ∧
      ∀ h, b.durations.health h = inp.timeIn (·.health = h)) ∧
    ∀ l t r, breakpoints (buildSeries inp.members inp.observations) inp.maintenance inp.start
      inp.stop = l ++ t :: r → ∀ u, t ≤ u → u < r.headD inp.stop →
        inp.outcomeAt u = inp.outcomeAt t :=
  ⟨reduce_durations hlt hlen hm, fun _ _ _ hb => outcomeAt_constOn hlen hb⟩

def plainPolicies : ServicePolicies where
  aggregation := ⟨.all, 0, 0⟩
  region := ⟨.perRegion, 1, 1⟩
  missingData := .unknown
  maintenance := .exclude
  freshness := defaultFreshnessPolicy

/-- A minute with an active probe that recovers, a push member that was re-armed and a
project-wide maintenance window. -/
def mixedBucket : Input where
  start := 1000 * minute
  stop := 1001 * minute
  members :=
    [⟨"probe", .http, "eu", true, 90 * second, 0⟩,
      ⟨"job", .push, "us", true, 40 * second, 1000 * minute + 5 * second⟩]
  observations :=
    [⟨"probe", 1000 * minute - 30 * second, false⟩, ⟨"probe", 1000 * minute + 10 * second, true⟩,
      ⟨"job", 1000 * minute - 20 * second, true⟩]
  maintenance := [⟨"w", "", 1000 * minute + 50 * second, 1000 * minute + 55 * second⟩]
  policies := plainPolicies

theorem reduce_eq_integral_mixedBucket : (∃ b, reduce mixedBucket = .ok b ∧
      (∀ a, b.durations.availability a = mixedBucket.timeIn (·.availability = a)) ∧
      ∀ h, b.durations.health h = mixedBucket.timeIn (·.health = h)) ∧
    ∀ l t r, breakpoints (buildSeries mixedBucket.members mixedBucket.observations)
      mixedBucket.maintenance mixedBucket.start mixedBucket.stop = l ++ t :: r →
      ∀ u, t ≤ u → u < r.headD mixedBucket.stop →
        mixedBucket.outcomeAt u = mixedBucket.outcomeAt t :=
  reduce_eq_integral_of_representable mixedBucket (by decide) (by decide) (by decide)

/-- One unobserved probe over a bucket one nanosecond longer than the longest `time.Duration`. -/
def longBucket : Input where
  start := 0
  stop := 2 ^ 63
  members := [⟨"probe", .http, "eu", true, 90 * second, 0⟩]
  observations := []
  maintenance := []
  policies := plainPolicies

theorem longBucket_outcomeAt {t : Int} (h : 0 ≤ t) :
    (longBucket.outcomeAt t).availability = .unknown := by
  have hside : SameSide (candidates (buildSeries longBucket.members longBucket.observations)
      longBucket.maintenance 0) t 0 := by
    intro x hx
    obtain rfl : x = 0 := by simpa [candidates, longBucket, buildSeries, Member.series, sortObs,
      MemberSeries.instants, Member.armed, spanEdges] using hx
    exact ⟨fun _ => le_rfl, fun _ => h⟩
  have hcensus := censusAt_congr (p := longBucket.policies) hside
  rw [show longBucket.outcomeAt t = longBucket.outcomeAt 0 by
    simp only [outcomeAt, stateAt, hcensus]]
  decide

/-- Past the longest `time.Duration` they are not: the reducer succeeds, and its unknown time is one
nanosecond short. -/
theorem reduce_longBucket_saturates : longBucket.start < longBucket.stop ∧ longBucket.members ≠ [] ∧
      ∃ b, reduce longBucket = .ok b ∧
        b.durations.availability .unknown ≠ longBucket.timeIn (·.availability = .unknown) := by
  refine ⟨by decide, by decide, ?_⟩
  have hfull : longBucket.timeIn (·.availability = .unknown) = 2 ^ 63 := by
    have hall : ∀ t ∈ Ico longBucket.start longBucket.stop,
        (longBucket.outcomeAt t).availability = .unknown :=
      fun t ht => longBucket_outcomeAt (mem_Ico.1 ht).1
    rw [timeIn, filter_true_of_mem hall, Int.card_Ico]
    decide
  have hred : ∃ b, reduce longBucket = .ok b ∧ b.durations.availability .unknown = 2 ^ 63 - 1 := by
    refine ⟨_, rfl, ?_⟩
    decide
  obtain ⟨b, hb, hu⟩ := hred
  refine ⟨b, hb, ?_⟩
  rw [hu, hfull]
  decide

end Cerbix.Reliability
