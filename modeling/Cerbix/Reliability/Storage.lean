import Cerbix.Reliability.Integral
import Cerbix.Reliability.Grounds

/-!
# Durations in storage

Facts are stored in whole microseconds (`Bucket.row`), constrained so that the durations of each
axis sum to the bucket size. Truncation conserves only if no state change falls inside a
microsecond, and a freshness deadline adds a `time.Duration` that the policy declares in
nanoseconds. `row_conserves_iff` is the exact condition on an accepted policy: one direction counts
by microsecond cells (`outcomeAt_cell`), the other makes all members stale inside one
(`staleInput`).
-/

namespace Cerbix.Reliability

open Cerbix.Lib Cerbix.Domain List Go

/-- A bucket as it is stored, in microseconds. -/
structure BucketRow where
  bucketSizeUs : Int
  goodUs : Int
  badUs : Int
  unknownUs : Int
  excludedUs : Int
  healthyUs : Int
  degradedUs : Int
  downUs : Int
  healthUnknownUs : Int
  deriving DecidableEq, Repr

def Bucket.row (b : Bucket) : BucketRow where
  bucketSizeUs := microseconds (sub b.stop b.start)
  goodUs := microseconds b.durations.good
  badUs := microseconds b.durations.bad
  unknownUs := microseconds b.durations.unknown
  excludedUs := microseconds b.durations.excluded
  healthyUs := microseconds b.durations.healthy
  degradedUs := microseconds b.durations.degraded
  downUs := microseconds b.durations.down
  healthUnknownUs := microseconds b.durations.healthUnknown

def BucketRow.AvailabilityConserves (r : BucketRow) : Prop :=
  r.goodUs + r.badUs + r.unknownUs + r.excludedUs = r.bucketSizeUs

def BucketRow.HealthConserves (r : BucketRow) : Prop :=
  r.healthyUs + r.degradedUs + r.downUs + r.healthUnknownUs + r.excludedUs = r.bucketSizeUs

open BucketRow

instance (r : BucketRow) : Decidable r.AvailabilityConserves := by
  unfold AvailabilityConserves
  infer_instance

instance (r : BucketRow) : Decidable r.HealthConserves := by
  unfold HealthConserves
  infer_instance

def RowConserves (inp : Input) : Prop :=
  ∃ b, reduce inp = .ok b ∧ b.row.AvailabilityConserves ∧ b.row.HealthConserves

def WholeMicros (t : Int) : Prop := t % 1000 = 0

instance (t : Int) : Decidable (WholeMicros t) := inferInstanceAs (Decidable (t % 1000 = 0))

def Member.ResolvedBy (m : Member) (f : FreshnessPolicy) : Prop :=
  ∃ interval grace : Int, 1 ≤ interval ∧ interval ≤ 86400 ∧ 0 ≤ grace ∧ grace ≤ 86400 ∧
    m.staleAfter = resolveStaleAfter f m.type (interval * second) (grace * second)

/-- A bucket as the store hands it to the reducer: the members of an accepted declaration with their
resolved deadlines, all else in database timestamps. -/
structure StoredInput (p : ServicePolicies) (regions : List String) (inp : Input) : Prop where
  policies : inp.policies = p
  regions : inp.members.map (·.region) = regions
  ids : (inp.members.map (·.monitorID)).Nodup
  resolved : ∀ m ∈ inp.members, m.ResolvedBy p.freshness
  nonempty : inp.start < inp.stop
  length : inp.stop - inp.start ≤ maxInt64
  start : WholeMicros inp.start
  stop : WholeMicros inp.stop
  armed : ∀ m ∈ inp.members, WholeMicros m.armedAt
  observed : ∀ o ∈ inp.observations, WholeMicros o.ts
  unique : inp.observations.Pairwise fun a b => ¬ (a.monitorID = b.monitorID ∧ a.ts = b.ts)
  edges : ∀ x ∈ spanEdges inp.maintenance, WholeMicros x

/-- Every deadline an active probe can get is over at once or a whole number of microseconds. -/
def WholeMicroDeadlines (f : FreshnessPolicy) : Prop :=
  ∀ interval : Int, 1 ≤ interval → interval ≤ 86400 →
    resolveStaleAfter f .http (interval * second) 0 ≤ 0 ∨
      WholeMicros (resolveStaleAfter f .http (interval * second) 0)

variable {f : FreshnessPolicy}

theorem resolveStaleAfter_active {typ : MonitorType} (h : typ ≠ .push) (interval grace : Int) :
    resolveStaleAfter f typ interval grace = resolveStaleAfter f .http interval 0 := by
  simp [resolveStaleAfter, h]

theorem resolveStaleAfter_push_wholeMicros {interval grace : Int}
    (h₁ : 1 ≤ interval) (h₂ : interval ≤ 86400) (h₃ : 0 ≤ grace) (h₄ : grace ≤ 86400) :
    WholeMicros (resolveStaleAfter f .push (interval * second) (grace * second)) := by
  unfold WholeMicros resolveStaleAfter second
  rw [if_pos rfl, wrap64_of_mem (by unfold minInt64; omega) (by unfold maxInt64; omega)]
  omega

theorem Member.ResolvedBy.wholeMicros {m : Member} (h : m.ResolvedBy f)
    (hf : WholeMicroDeadlines f) :
    WholeMicros m.staleAfter ∨ (m.type ≠ .push ∧ m.staleAfter ≤ 0) := by
  obtain ⟨i, g, h₁, h₂, h₃, h₄, he⟩ := h
  by_cases hp : m.type = .push
  · rw [he, hp]
    exact .inl (resolveStaleAfter_push_wholeMicros h₁ h₂ h₃ h₄)
  · rw [he, resolveStaleAfter_active hp]
    exact (hf i h₁ h₂).elim (fun h => .inr ⟨hp, h⟩) .inl

/-! ## Whole deadlines: the outcome is constant on microsecond cells -/

section

variable {p : ServicePolicies} {regions : List String} {inp : Input}

theorem stateAt_cell (h : StoredInput p regions inp) (hf : WholeMicroDeadlines p.freshness)
    {m : Member} (hm : m ∈ inp.members) (ex : Bool) (t : Int) :
    (m.series inp.observations).stateAt t inp.maintenance ex =
      (m.series inp.observations).stateAt (t - t % 1000) inp.maintenance ex := by
  have hobs : ∀ o ∈ (m.series inp.observations).obs, WholeMicros o.ts := by
    intro o ho
    have : o ∈ inp.observations := by
      simp only [Member.series, mem_sortObs, mem_filter] at ho
      exact ho.1
    exact h.observed o this
  have hdead := (h.resolved m hm).wholeMicros hf
  have harm := h.armed m hm
  unfold WholeMicros at hobs hdead harm
  refine MemberSeries.stateAt_eq_of (fun o ho => ?_) (fun o ho hou => ?_) (fun ha => ?_) ?_
  · have := hobs o ho
    omega
  · have := hobs o ho
    change o.ts + m.staleAfter ≤ t ↔ o.ts + m.staleAfter ≤ t - t % 1000
    omega
  · change m.armedAt + m.staleAfter ≤ t ↔ m.armedAt + m.staleAfter ≤ t - t % 1000
    have hpush : m.type = .push := by
      have : m.armed := ha
      simp only [Member.armed, Bool.and_eq_true, decide_eq_true_eq] at this
      exact this.1
    rcases hdead with hd | ⟨hd, -⟩
    · omega
    · exact absurd hpush hd
  · intro x hx
    have := h.edges x hx
    unfold WholeMicros at this
    omega

theorem outcomeAt_cell (h : StoredInput p regions inp) (hf : WholeMicroDeadlines p.freshness)
    (t : Int) : inp.outcomeAt t = inp.outcomeAt (t - t % 1000) := by
  have hcensus : censusAt (buildSeries inp.members inp.observations) inp.maintenance
      inp.policies t =
      censusAt (buildSeries inp.members inp.observations) inp.maintenance inp.policies
        (t - t % 1000) := by
    unfold censusAt buildSeries
    rw [map_map, map_map]
    congr 1
    refine map_congr_left fun m hm => ?_
    simp only [Function.comp_apply, MemberSeries.verdictAt]
    rw [← stateAt_cell h hf hm]
  unfold Input.outcomeAt stateAt
  rw [hcensus]

theorem dvd_timeIn (h : StoredInput p regions inp) (hf : WholeMicroDeadlines p.freshness)
    (P : Outcome → Prop) [DecidablePred P] : 1000 ∣ inp.timeIn P := by
  have h₁ := h.start
  have h₂ := h.stop
  have h₃ := h.nonempty
  unfold WholeMicros at h₁ h₂
  have hcells := dvd_card_filter_of_cells (c := 1000) (P := fun t => P (inp.outcomeAt t))
    (a := inp.start / 1000) (inp.stop / 1000 - inp.start / 1000).toNat
    fun t _ _ => by rw [outcomeAt_cell h hf t]; rfl
  have hstart : ((1000 : ℕ) : ℤ) * (inp.start / 1000) = inp.start := by omega
  have hstop : ((1000 : ℕ) : ℤ) *
      (inp.start / 1000 + ((inp.stop / 1000 - inp.start / 1000).toNat : ℤ)) = inp.stop := by omega
  rwa [hstart, hstop] at hcells

theorem rowConserves_of_wholeMicroDeadlines (hr : regions ≠ []) (h : StoredInput p regions inp)
    (hf : WholeMicroDeadlines p.freshness) : RowConserves inp := by
  have hm : inp.members ≠ [] := by
    rintro hm
    exact hr (by rw [← h.regions, hm]; rfl)
  obtain ⟨b, hb, hA, hH⟩ := reduce_durations h.nonempty h.length hm
  have hbounds : b.start = inp.start ∧ b.stop = inp.stop := reduce_bounds hb
  have hus : ∀ (P : Outcome → Prop) [DecidablePred P],
      microseconds (inp.timeIn P) * 1000 = inp.timeIn P := by
    intro P _
    rw [microseconds_of_nonneg (Int.natCast_nonneg _)]
    have := dvd_timeIn h hf P
    omega
  have hsize : microseconds (sub b.stop b.start) * 1000 = inp.stop - inp.start := by
    have h₁ := h.start
    have h₂ := h.stop
    have h₃ := h.nonempty
    unfold WholeMicros at h₁ h₂
    rw [hbounds.1, hbounds.2, sub_of_le h₃.le h.length, microseconds_of_nonneg (by omega)]
    omega
  refine ⟨b, hb, ?_, ?_⟩
  · have htotal := timeIn_availability_total h.nonempty
    have e₁ := hA .good
    have e₂ := hA .bad
    have e₃ := hA .unknown
    have e₄ := hA .excluded
    simp only [Durations.availability] at e₁ e₂ e₃ e₄
    simp only [AvailabilityConserves, Bucket.row, e₁, e₂, e₃, e₄]
    have u₁ := hus (·.availability = .good)
    have u₂ := hus (·.availability = .bad)
    have u₃ := hus (·.availability = .unknown)
    have u₄ := hus (·.availability = .excluded)
    omega
  · have htotal := timeIn_health_total h.nonempty
    have e₁ := hH .healthy
    have e₂ := hH .degraded
    have e₃ := hH .down
    have e₄ := hH .unknown
    have e₅ := hH .excluded
    simp only [Durations.health] at e₁ e₂ e₃ e₄ e₅
    simp only [HealthConserves, Bucket.row, e₁, e₂, e₃, e₄, e₅]
    have u₁ := hus (·.health = .healthy)
    have u₂ := hus (·.health = .degraded)
    have u₃ := hus (·.health = .down)
    have u₄ := hus (·.health = .unknown)
    have u₅ := hus (·.health = .excluded)
    omega

end

/-! ## A broken deadline: all members turn stale inside a microsecond -/

section

def probes (d : Int) (regions : List String) : List Member :=
  regions.zipIdx.map fun x =>
    ⟨String.ofList (List.replicate x.2 'm'), .http, x.1, true, d, 0⟩

def staleStart (d : Int) : Int := minute * (d / minute + 10 ^ 9)

/-- A minute that opens less than a microsecond before every probe's deadline: all were last up the
whole microseconds of `d` earlier. -/
def staleInput (p : ServicePolicies) (d : Int) (regions : List String) : Input where
  start := staleStart d
  stop := staleStart d + minute
  members := probes d regions
  observations := (probes d regions).map fun m => ⟨m.monitorID, staleStart d - (d - d % 1000), true⟩
  maintenance := []
  policies := p

variable {p : ServicePolicies} {d : Int} {regions : List String}

variable (d regions) in
theorem probes_ids_nodup : ((probes d regions).map (·.monitorID)).Nodup := by
  unfold probes
  rw [map_map]
  have hlen : (regions.zipIdx.map fun x => x.2).Nodup := by
    rw [zipIdx_map_snd]
    exact nodup_range'
  refine (List.Nodup.of_map (fun s : String => s.length) ?_)
  rw [map_map]
  have : ((fun s : String => s.length) ∘ (fun m : Member => m.monitorID) ∘ fun x : String × Nat =>
        (⟨String.ofList (List.replicate x.2 'm'), .http, x.1, true, d, 0⟩ : Member)) =
      fun x => x.2 := by
    funext x
    simp
  rw [this]
  exact hlen

theorem filter_key_eq {α : Type*} {f : α → String} {x : α} :
    ∀ {l : List α}, (l.map f).Nodup → x ∈ l → (l.filter fun y => f y = f x) = [x]
  | [], _, h => by simp at h
  | y :: l, hn, h => by
    obtain ⟨hy, hn'⟩ := nodup_cons.1 hn
    rcases mem_cons.1 h with rfl | h
    · have : (l.filter fun z => f z = f x) = [] :=
        filter_eq_nil_iff.2 fun z hz he => hy (by
          rw [← show f z = f x by simpa using he]
          exact mem_map_of_mem hz)
      simp [this]
    · have hne : f y ≠ f x := fun he => hy (he ▸ mem_map_of_mem h)
      simp [hne, filter_key_eq hn' h]

variable {m : Member} {ds : List (String × Int)}

theorem staleInput_obs (hm : m ∈ probes d regions) :
    (m.series (staleInput p d regions).observations).obs =
      [⟨m.monitorID, staleStart d - (d - d % 1000), true⟩] := by
  have hfilter : ((staleInput p d regions).observations.filter fun o => o.monitorID = m.monitorID) =
      [⟨m.monitorID, staleStart d - (d - d % 1000), true⟩] := by
    unfold staleInput
    simp only [filter_map]
    rw [show ((fun o : Observation => decide (o.monitorID = m.monitorID)) ∘ fun m' : Member =>
        (⟨m'.monitorID, staleStart d - (d - d % 1000), true⟩ : Observation)) =
        fun m' => decide (m'.monitorID = m.monitorID) from rfl,
      filter_key_eq (f := fun m : Member => m.monitorID) (probes_ids_nodup d regions) hm]
    rfl
  rw [Member.series_obs, hfilter]
  rfl

theorem probes_mem (hm : m ∈ probes d regions) :
    m.type = .http ∧ m.enabled ∧ m.staleAfter = d ∧ m.armedAt = 0 := by
  obtain ⟨x, -, rfl⟩ := mem_map.1 hm
  exact ⟨rfl, rfl, rfl, rfl⟩

variable (d regions) in
theorem probes_regions : (probes d regions).map (·.region) = regions := by
  unfold probes
  rw [map_map]
  exact zipIdx_map_fst 0 regions

theorem staleInput_stateAt (hm : m ∈ probes d regions) (hd : 0 < d) (ex : Bool)
    {t : Int} (ht : staleStart d ≤ t) :
    ((m.series (staleInput p d regions).observations).stateAt t [] ex).1 =
      if staleStart d + d % 1000 ≤ t then .unknown else .good := by
  obtain ⟨h₁, h₂, h₃, h₄⟩ := probes_mem hm
  have hobs := staleInput_obs (p := p) hm
  generalize hs : m.series (staleInput p d regions).observations = s at hobs
  obtain rfl : s.toMember = m := by rw [← hs]; rfl
  have hev : s.evidenceAt t = some ⟨s.monitorID, staleStart d - (d - d % 1000), true⟩ := by
    have hle : staleStart d - (d - d % 1000) ≤ t := by omega
    unfold MemberSeries.evidenceAt
    rw [MemberSeries.latestAt_eq, hobs]
    simp [hle, Member.armed, h₁]
  unfold MemberSeries.stateAt
  simp only [h₂, hev, any_nil, Bool.and_false, Bool.not_true, if_false, h₁, reduceCtorEq]
  by_cases hlate : staleStart d + d % 1000 ≤ t
  · rw [if_pos hlate, if_pos (by omega)]
  · rw [if_neg hlate, if_neg (by omega)]
    rfl

theorem staleStart_wholeMicros (d : Int) : staleStart d % 1000 = 0 := by
  unfold staleStart minute second
  omega

theorem staleInput_storedInput {interval : Int} (h₁ : 1 ≤ interval) (h₂ : interval ≤ 86400)
    (hd : d = resolveStaleAfter p.freshness .http (interval * second) 0) :
    StoredInput p regions (staleInput p d regions) where
  policies := rfl
  regions := probes_regions d regions
  ids := probes_ids_nodup d regions
  resolved m hm := by
    obtain ⟨ht, -, hs, -⟩ := probes_mem hm
    refine ⟨interval, 0, h₁, h₂, le_rfl, by norm_num, ?_⟩
    rw [hs, hd, ht, zero_mul]
  nonempty := by
    change staleStart d < staleStart d + minute
    have : 0 < minute := by decide
    omega
  length := by
    change staleStart d + minute - staleStart d ≤ maxInt64
    have : minute ≤ maxInt64 := by decide
    omega
  start := staleStart_wholeMicros d
  stop := by
    change (staleStart d + minute) % 1000 = 0
    have := staleStart_wholeMicros d
    have : minute = 60000000000 := by decide
    omega
  armed m hm := by rw [(probes_mem hm).2.2.2]; decide
  observed o ho := by
    obtain ⟨m, -, rfl⟩ := mem_map.1 ho
    change (staleStart d - (d - d % 1000)) % 1000 = 0
    have := staleStart_wholeMicros d
    omega
  unique := by
    refine pairwise_map.2 ?_
    exact (pairwise_map.1 (probes_ids_nodup d regions)).imp fun hne hab => hne hab.1
  edges x hx := by simp [staleInput, spanEdges] at hx

theorem staleInput_good_iff {n : Int} (hp : p.Valid ds n)
    (hr : regions ≠ []) (hd : 0 < d) {t : Int} (ht : staleStart d ≤ t) :
    ((staleInput p d regions).outcomeAt t).availability = .good ↔ t < staleStart d + d % 1000 := by
  have hm : (staleInput p d regions).members ≠ [] := fun h =>
    hr (by rw [← probes_regions d regions]; simpa [staleInput] using h)
  have hout : (staleInput p d regions).outcomeAt t = outcomeOf ((probes d regions).map fun m =>
      (m.series (staleInput p d regions).observations).verdictAt [] p t) p := by
    rw [outcomeAt_eq hm, censusAt, buildSeries, map_map]
    rfl
  have hstate : ∀ v ∈ (probes d regions).map fun m =>
      (m.series (staleInput p d regions).observations).verdictAt [] p t,
      v.state = if staleStart d + d % 1000 ≤ t then .unknown else .good := by
    intro v hv
    obtain ⟨m, hmem, rfl⟩ := mem_map.1 hv
    exact staleInput_stateAt hmem hd _ ht
  rw [hout]
  generalize hvs : ((probes d regions).map fun m =>
      (m.series (staleInput p d regions).observations).verdictAt [] p t) = vs at hstate
  have hne : vs ≠ [] := by
    rw [← hvs]
    simpa [staleInput] using hm
  by_cases hlate : staleStart d + d % 1000 ≤ t
  · simp only [hlate] at hstate
    refine iff_of_false (fun hgood => ?_) (by omega)
    obtain ⟨v, hv, hs⟩ := (outcomeOf_grounds hp hne).1 hgood
    simp [hstate v hv] at hs
  · simp only [hlate] at hstate
    have := outcomeOf_good_of_all_good (p := p) hne hstate hp.mode
    simp only [this, true_iff]
    omega

theorem staleInput_not_conserves {n : Int} (hp : p.Valid ds n)
    (hr : regions ≠ []) (hd : 0 < d) (hmod : d % 1000 ≠ 0) :
    ¬ RowConserves (staleInput p d regions) := by
  rintro ⟨b, hb, hA, -⟩
  have hm : (staleInput p d regions).members ≠ [] := fun h =>
    hr (by rw [← probes_regions d regions]; simpa [staleInput] using h)
  have hmin : minute = 60000000000 := by decide
  have hlt : (staleInput p d regions).start < (staleInput p d regions).stop := by
    change staleStart d < staleStart d + minute
    omega
  have hlen : (staleInput p d regions).stop - (staleInput p d regions).start ≤ maxInt64 := by
    change staleStart d + minute - staleStart d ≤ maxInt64
    unfold maxInt64
    omega
  obtain ⟨b', hb', hA', -⟩ := reduce_durations hlt hlen hm
  obtain rfl : b' = b := Except.ok.inj (hb'.symm.trans hb)
  obtain ⟨hstart, hstop⟩ := reduce_bounds hb
  have hgood : (staleInput p d regions).timeIn (·.availability = .good) = (d % 1000).toNat := by
    have hset : ((Finset.Ico (staleInput p d regions).start (staleInput p d regions).stop).filter
        fun t => ((staleInput p d regions).outcomeAt t).availability = .good) =
        Finset.Ico (staleStart d) (staleStart d + d % 1000) := by
      ext t
      simp only [Finset.mem_filter, Finset.mem_Ico]
      constructor
      · rintro ⟨⟨h₁, -⟩, h₂⟩
        exact ⟨h₁, (staleInput_good_iff hp hr hd h₁).1 h₂⟩
      · rintro ⟨h₁, h₂⟩
        refine ⟨⟨h₁, ?_⟩, (staleInput_good_iff hp hr hd h₁).2 h₂⟩
        change t < staleStart d + minute
        omega
    unfold Input.timeIn
    rw [hset, Int.card_Ico]
    omega
  have htotal := timeIn_availability_total hlt
  have hsize : (staleInput p d regions).stop - (staleInput p d regions).start = minute := by
    change staleStart d + minute - staleStart d = minute
    omega
  have e₁ := hA' .good
  have e₂ := hA' .bad
  have e₃ := hA' .unknown
  have e₄ := hA' .excluded
  simp only [Durations.availability] at e₁ e₂ e₃ e₄
  unfold AvailabilityConserves Bucket.row at hA
  simp only [hstart, hstop] at hA
  rw [sub_of_le hlt.le hlen, microseconds_of_nonneg (by omega),
    microseconds_of_nonneg (by omega), microseconds_of_nonneg (by omega),
    microseconds_of_nonneg (by omega), microseconds_of_nonneg (by omega)] at hA
  omega

end

/-- **What is stored conserves exactly when no freshness deadline splits a microsecond**: every
deadline the policy resolves for an active probe is over at once or a whole number of microseconds.
-/
theorem row_conserves_iff (raw p : ServicePolicies) (regions : List String)
    (h : acceptPolicies raw regions = .ok p) :
    (∀ inp, StoredInput p regions inp → RowConserves inp) ↔ WholeMicroDeadlines p.freshness := by
  obtain ⟨hr, hp, -⟩ := acceptPolicies_ok h
  constructor
  · intro hall interval h₁ h₂
    by_contra hbad
    obtain ⟨hpos, hmod⟩ := not_or.1 hbad
    exact staleInput_not_conserves hp hr (not_le.1 hpos) hmod
      (hall _ (staleInput_storedInput h₁ h₂ rfl))
  · exact fun hf inp hinp => rowConserves_of_wholeMicroDeadlines hr hinp hf

theorem defaultFreshnessPolicy_wholeMicroDeadlines :
    WholeMicroDeadlines defaultFreshnessPolicy := by
  intro interval h₁ h₂
  refine .inr ?_
  have hwrap : wrap64 (3 * (interval * second)) = 3 * (interval * second) :=
    wrap64_of_mem (by unfold minInt64 second; omega) (by unfold maxInt64 second; omega)
  simp only [WholeMicros, resolveStaleAfter, defaultFreshnessPolicy, reduceCtorEq, if_false, hwrap]
  unfold second
  split <;> omega

theorem mixedBucket_storedInput : StoredInput plainPolicies ["eu", "us"] mixedBucket := by
  refine ⟨rfl, rfl, by decide, ?_, by decide, by decide, by decide, by decide, by decide,
    by decide, by decide, by decide⟩
  intro m hm
  simp only [mixedBucket, mem_cons, not_mem_nil, or_false] at hm
  rcases hm with rfl | rfl
  · exact ⟨30, 0, by decide, by decide, by decide, by decide, by decide⟩
  · exact ⟨30, 10, by decide, by decide, by decide, by decide, by decide⟩

theorem row_conserves_mixedBucket : RowConserves mixedBucket :=
  (row_conserves_iff plainPolicies plainPolicies ["eu", "us"] (by decide)).2
    defaultFreshnessPolicy_wholeMicroDeadlines mixedBucket mixedBucket_storedInput

/-- A declared `active_floor` of 90.0000005 seconds. -/
def subMicroPolicies : ServicePolicies :=
  { plainPolicies with freshness := ⟨3, 90000000500⟩ }

/-- A minute that opens 500 ns before the deadline of its only probe. -/
def subMicroBucket : Input where
  start := 1000 * minute
  stop := 1001 * minute
  members := [⟨"probe", .http, "eu", true, 90000000500, 0⟩]
  observations := [⟨"probe", 1000 * minute - 90 * second, true⟩]
  maintenance := []
  policies := subMicroPolicies

/-- The accepted policy `subMicroPolicies` stores 0 good and 59999999 unknown microseconds for a
bucket of 60000000. -/
theorem subMicroBucket_not_conserves :
    acceptPolicies subMicroPolicies ["eu"] = .ok subMicroPolicies ∧
      StoredInput subMicroPolicies ["eu"] subMicroBucket ∧
      ∃ b, reduce subMicroBucket = .ok b ∧ b.row.goodUs = 0 ∧ b.row.unknownUs = 59999999 ∧
        b.row.bucketSizeUs = 60000000 ∧ ¬ b.row.AvailabilityConserves ∧
          ¬ b.row.HealthConserves := by
  refine ⟨by decide, ?_, ⟨_, rfl, by decide, by decide, by decide, by decide, by decide⟩⟩
  refine ⟨rfl, rfl, by decide, ?_, by decide, by decide, by decide, by decide, by decide,
    by decide, by decide, by decide⟩
  intro m hm
  obtain rfl : m = ⟨"probe", .http, "eu", true, 90000000500, 0⟩ := by
    simpa [subMicroBucket] using hm
  exact ⟨30, 0, by decide, by decide, by decide, by decide, by decide⟩

end Cerbix.Reliability
