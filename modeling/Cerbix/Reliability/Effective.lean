import Cerbix.Domain.Policy
import Cerbix.Lib.Timeline

/-!
# A member's effective state, and where it can change

The vocabulary of `internal/reliability/reliability.go`. Instants are nanoseconds since Go's zero
time, so `Go.isZero` is `IsZero`; durations are `time.Duration` values, whose sums wrap.

`effective.go`: the observations of a member in time order (`MemberSeries`), the last one at or
before an instant (`latestAt`, a binary search), its state at an instant (`stateAt`) and the
instants of a bucket at which some state can change (`breakpoints`). A state reads the clock only by
comparing it with a finite list of instants, so those on the same side of all of them cannot be told
apart (`stateAt_congr`).
-/

namespace Cerbix.Reliability

open Cerbix.Lib Cerbix.Domain List Go

/-- What a member is at an instant. -/
inductive State
  | unknown | good | bad | excluded
  deriving DecidableEq, Repr

/-- Whether a service is available. -/
inductive Availability
  | unknown | good | bad | excluded
  deriving DecidableEq, Repr

/-- How well a service is. -/
inductive Health
  | unknown | healthy | degraded | down | excluded
  deriving DecidableEq, Repr

/-- One declared SLI member, as the evaluation epoch snapshotted it. -/
structure Member where
  monitorID : String
  type : MonitorType
  region : String
  enabled : Bool
  staleAfter : Int
  armedAt : Int
  deriving DecidableEq, Repr

/-- A result of a probe. -/
structure Observation where
  monitorID : String
  ts : Int
  up : Bool
  deriving DecidableEq, Repr

/-- One effective maintenance interval, half-open; an empty `monitorID` is project-wide. -/
structure MaintenanceSpan where
  id : String
  monitorID : String
  start : Int
  stop : Int
  deriving DecidableEq, Repr

/-- A span without a monitor covers all of them. -/
def MaintenanceSpan.covers (m : MaintenanceSpan) (monitorID : String) (t : Int) : Bool :=
  if m.monitorID ≠ "" ∧ m.monitorID ≠ monitorID then false
  else decide (m.start ≤ t ∧ t < m.stop)

/-- Why a member had no decidable state; `unset` is the empty reason of a decided one. -/
inductive UnknownReason
  | unset | noObservation | stale
  deriving DecidableEq, Repr

def UnknownReason.text : UnknownReason → String
  | .unset => "" | .noObservation => "no_observation" | .stale => "stale"

/-- A member that was bad or unknown, and why. -/
structure MemberCause where
  monitorID : String
  region : String
  reason : UnknownReason
  deriving DecidableEq, Repr

/-- A threshold that was clamped to the eligible cardinality, and by which cause. -/
structure Weakened where
  region : String
  declared : Int
  eligible : Int
  excludedDisabled : Int
  excludedMaintenance : Int
  ignored : Int
  declaredDegradedMin : Int
  declaredHealthyMin : Int
  effectiveDegraded : Int
  effectiveHealthy : Int
  deriving DecidableEq, Repr

/-- What the service is at an instant. -/
structure Outcome where
  availability : Availability
  health : Health
  weakened : List Weakened
  deriving DecidableEq, Repr

/-! ## Durations -/

/-- The durations of one bucket; the excluded one is shared by the two axes. -/
@[ext]
structure Durations where
  good : Int
  bad : Int
  unknown : Int
  excluded : Int
  healthy : Int
  degraded : Int
  down : Int
  healthUnknown : Int
  deriving DecidableEq, Repr

variable (d : Durations)

namespace Durations

def zero : Durations := ⟨0, 0, 0, 0, 0, 0, 0, 0⟩

def total : Int := wrap64 (d.good + d.bad + d.unknown + d.excluded)

def healthTotal : Int :=
  wrap64 (d.healthy + d.degraded + d.down + d.healthUnknown + d.excluded)

def availability : Availability → Int
  | .good => d.good | .bad => d.bad | .unknown => d.unknown | .excluded => d.excluded

def health : Health → Int
  | .healthy => d.healthy | .degraded => d.degraded | .down => d.down
  | .unknown => d.healthUnknown | .excluded => d.excluded

def addAvailability (a : Availability) (span : Int) : Durations :=
  match a with
  | .good => { d with good := wrap64 (d.good + span) }
  | .bad => { d with bad := wrap64 (d.bad + span) }
  | .excluded => { d with excluded := wrap64 (d.excluded + span) }
  | .unknown => { d with unknown := wrap64 (d.unknown + span) }

def addHealth (h : Health) (span : Int) : Durations :=
  match h with
  | .healthy => { d with healthy := wrap64 (d.healthy + span) }
  | .degraded => { d with degraded := wrap64 (d.degraded + span) }
  | .down => { d with down := wrap64 (d.down + span) }
  | .excluded => d
  | .unknown => { d with healthUnknown := wrap64 (d.healthUnknown + span) }

/-- Count a span of one outcome. -/
def add (o : Outcome) (span : Int) : Durations :=
  (d.addAvailability o.availability span).addHealth o.health span

variable (d : Durations) (o : Outcome)

theorem add_add (m n : Int) : (d.add o m).add o n = d.add o (m + n) := by
  obtain ⟨a, h, _⟩ := o
  cases a <;> cases h <;>
    simp [add, addAvailability, addHealth, wrap64_add_left, Int.add_assoc]

theorem add_availability (a : Availability) (span : Int)
    (hd : wrap64 (d.availability a) = d.availability a) : (d.add o span).availability a =
      wrap64 (d.availability a + if o.availability = a then span else 0) := by
  obtain ⟨a', h', _⟩ := o
  cases a <;> cases a' <;> cases h' <;>
    simp_all [add, addAvailability, addHealth, availability]

/-- Each health counter moves exactly when the outcome is of its class; the excluded one is the
other axis's, so the two have to agree on exclusion. -/
theorem add_health (h : Health) (span : Int)
    (ho : o.health = .excluded ↔ o.availability = .excluded)
    (hd : wrap64 (d.health h) = d.health h) :
    (d.add o span).health h = wrap64 (d.health h + if o.health = h then span else 0) := by
  obtain ⟨a', h', _⟩ := o
  cases h <;> cases a' <;> cases h' <;>
    simp_all [add, addAvailability, addHealth, health]

end Durations

def maxCauses : Nat := 8

/-- Which members made a bucket what it is. -/
structure Provenance where
  declared : Nat
  bad : List MemberCause
  unknown : List MemberCause
  excluded : List MemberCause
  overflow : Nat
  weakened : List Weakened
  deriving DecidableEq, Repr

/-- A reduced bucket. -/
structure Bucket where
  start : Int
  stop : Int
  durations : Durations
  provenance : Provenance
  deriving DecidableEq, Repr

/-- A member with its observations in the order of time. -/
structure MemberSeries extends Member where
  obs : List Observation
  sorted : obs.Pairwise fun a b => a.ts ≤ b.ts

/-- A stable sort. Go's is not, which only matters for equal instants of one monitor. -/
def sortObs (obs : List Observation) : List Observation :=
  obs.insertionSort fun a b => a.ts ≤ b.ts

instance : Std.Total fun a b : Observation => a.ts ≤ b.ts := ⟨fun a b => le_total a.ts b.ts⟩

instance : IsTrans Observation fun a b => a.ts ≤ b.ts := ⟨fun _ _ _ => le_trans⟩

theorem sortObs_pairwise (obs : List Observation) : (sortObs obs).Pairwise fun a b => a.ts ≤ b.ts :=
  pairwise_insertionSort _ _

variable {o : Observation} {s : MemberSeries} {t start stop : Int}

@[simp] theorem mem_sortObs {obs : List Observation} : o ∈ sortObs obs ↔ o ∈ obs :=
  (perm_insertionSort _ obs).mem_iff

def Member.series (m : Member) (obs : List Observation) : MemberSeries where
  toMember := m
  obs := sortObs (obs.filter fun o => o.monitorID = m.monitorID)
  sorted := sortObs_pairwise _

theorem Member.series_obs (m : Member) (obs : List Observation) :
    (m.series obs).obs = sortObs (obs.filter fun o => o.monitorID = m.monitorID) := rfl

def buildSeries (members : List Member) (obs : List Observation) : List MemberSeries :=
  members.map fun m => m.series obs

/-- A push monitor with an instant from which its silence counts. -/
def Member.armed (m : Member) : Bool := m.type = .push && !isZero m.armedAt

namespace MemberSeries

/-- The last observation at or before the instant, by binary search. -/
def latestAt (s : MemberSeries) (t : Int) : Option Observation :=
  let idx := search s.obs.length fun i => (s.obs[i]?).any fun o => t < o.ts
  if idx = 0 then none else s.obs[idx - 1]?

/-- The observation that counts as evidence at `t`: a ping from before a push member was armed
does not. -/
def evidenceAt (s : MemberSeries) (t : Int) : Option Observation :=
  (s.latestAt t).filter fun o => !(s.armed && decide (o.ts < s.armedAt))

/-- The state of a member at an instant. -/
def stateAt (s : MemberSeries) (t : Int) (spans : List MaintenanceSpan)
    (maintenanceExcludes : Bool) : State × UnknownReason :=
  if !s.enabled then (.excluded, .unset)
  else if maintenanceExcludes && spans.any (fun sp => sp.covers s.monitorID t) then
    (.excluded, .unset)
  else
    match s.evidenceAt t with
    | none =>
      -- no observation yet: for push the absence is the failure, once the dead-man has run out
      if s.armed && decide (s.armedAt + s.staleAfter ≤ t) then (.bad, .unset)
      else (.unknown, .noObservation)
    | some o =>
      if o.ts + s.staleAfter ≤ t then
        if s.type = .push then (.bad, .unset) else (.unknown, .stale)
      else if o.up then (.good, .unset)
      else (.bad, .unset)

/-- When the state of a member can change. -/
def instants (s : MemberSeries) : List Int :=
  (s.obs.flatMap fun o => [o.ts, o.ts + s.staleAfter]) ++
    if s.armed then [s.armedAt + s.staleAfter] else []

end MemberSeries

def spanEdges (spans : List MaintenanceSpan) : List Int :=
  spans.flatMap fun sp => [sp.start, sp.stop]

variable (series : List MemberSeries) (spans : List MaintenanceSpan)

/-- When the state of any member can change. -/
def candidates (start : Int) : List Int :=
  start :: (series.flatMap MemberSeries.instants ++ spanEdges spans)

/-- The closure `add` of `breakpoints`, on the set of nanosecond keys already seen and the points
kept. -/
def addPoint (start stop : Int) (acc : List Int × List Int) (t : Int) : List Int × List Int :=
  if t < start ∨ stop ≤ t then acc
  else
    let k := unixNano t
    if k ∈ acc.1 then acc else (k :: acc.1, acc.2 ++ [t])

/-- The candidates in the bucket, sorted and without repetition. -/
def breakpoints (start stop : Int) : List Int :=
  ((candidates series spans start).foldl (addPoint start stop) ([], [])).2.insertionSort (· ≤ ·)

/-! ## The last observation -/

theorem filter_eq_take {α : Type*} {p : α → Bool} {l : List α} {n : Nat}
    (h₁ : ∀ x ∈ l.take n, p x) (h₂ : ∀ x ∈ l.drop n, ¬ p x) : l.filter p = l.take n := by
  conv_lhs => rw [← take_append_drop n l]
  rw [filter_append, filter_eq_self.2 h₁, filter_eq_nil_iff.2 h₂, append_nil]

/-- **The binary search finds the last observation at or before the instant.** -/
theorem MemberSeries.latestAt_eq (s : MemberSeries) (t : Int) :
    s.latestAt t = (s.obs.filter fun o => o.ts ≤ t).getLast? := by
  unfold latestAt
  generalize hf : (fun i : Nat => (s.obs[i]?).any fun o : Observation => decide (t < o.ts)) = f
  have hget : ∀ i (h : i < s.obs.length), f i = decide (t < s.obs[i].ts) := by
    intro i h
    simp [← hf, List.getElem?_eq_getElem h]
  have hmono : ∀ a b, a ≤ b → b < s.obs.length → f a → f b := by
    intro a b hab hb ha
    rw [hget _ (by omega), decide_eq_true_eq] at ha
    rw [hget _ hb, decide_eq_true_eq]
    rcases Nat.lt_or_eq_of_le hab with h | h
    · exact lt_of_lt_of_le ha (pairwise_iff_getElem.1 s.sorted a b (by omega) hb h)
    · subst h; exact ha
  obtain ⟨hle, hlo, hhi⟩ := search_spec hmono
  generalize search s.obs.length f = idx at hle hlo hhi
  have htake : (s.obs.filter fun o => o.ts ≤ t) = s.obs.take idx := by
    refine filter_eq_take ?_ ?_
    · intro x hx
      obtain ⟨i, hi, rfl⟩ := mem_iff_getElem.1 hx
      simp only [length_take] at hi
      have := hlo i (by omega)
      rw [hget i (by omega)] at this
      simpa [getElem_take] using this
    · intro x hx
      obtain ⟨i, hi, rfl⟩ := mem_iff_getElem.1 hx
      simp only [length_drop] at hi
      have := hhi (idx + i) (by omega) (by omega)
      rw [hget _ (by omega)] at this
      simpa [getElem_drop] using this
  rw [htake, List.getLast?_take]
  by_cases h₀ : idx = 0
  · simp [h₀]
  · simp [List.getElem?_eq_getElem (show idx - 1 < s.obs.length by omega)]

open Observation

theorem MemberSeries.governs_of_latestAt (h : s.latestAt t = some o) : Governs ts s.obs t o := by
  rw [latestAt_eq] at h
  obtain ⟨before, hsplit⟩ := getLast?_eq_some_iff.1 h
  have hsorted := s.sorted.filter fun o => decide (o.ts ≤ t)
  have hmem := mem_of_getLast? h
  rw [mem_filter, decide_eq_true_eq] at hmem
  refine ⟨hmem.1, hmem.2, fun o' ho' ht => ?_⟩
  have hmem' : o' ∈ s.obs.filter fun o => o.ts ≤ t := mem_filter.2 ⟨ho', decide_eq_true ht⟩
  rw [hsplit] at hsorted hmem'
  rcases mem_append.1 hmem' with h | h
  · exact (pairwise_append.1 hsorted).2.2 o' h o mem_cons_self
  · rw [mem_singleton.1 h]

theorem MemberSeries.evidenceAt_some (h : s.evidenceAt t = some o) : o ∈ s.obs ∧ o.ts ≤ t :=
  have hgoverns := governs_of_latestAt (Option.filter_eq_some_iff.1 h).1
  ⟨hgoverns.mem, hgoverns.start_le⟩

/-- The unique index on monitor and instant. -/
def UniqueObservations (obs : List Observation) : Prop :=
  ∀ o ∈ obs, ∀ o' ∈ obs, o.monitorID = o'.monitorID → o.ts = o'.ts → o = o'

section Unique

variable {m : Member} {obs obs' : List Observation} {t : Int}

theorem UniqueObservations.distinct (h : UniqueObservations obs) (id : String) :
    Distinct ts (obs.filter fun o => o.monitorID = id) := by
  intro o ho o' ho' hts
  rw [mem_filter, decide_eq_true_eq] at ho ho'
  exact h o ho.1 o' ho'.1 (ho.2.trans ho'.2.symm) hts

theorem Member.latestAt_series_iff (h : UniqueObservations obs) {o : Observation} :
    (m.series obs).latestAt t = some o ↔
      Governs ts (obs.filter fun o => o.monitorID = m.monitorID) t o := by
  have hgoverns : ∀ {o}, (m.series obs).latestAt t = some o →
      Governs ts (obs.filter fun o => o.monitorID = m.monitorID) t o := fun ho =>
    (governs_of_cofinal (h.distinct _) (fun _ => mem_sortObs.1) fun x hx ht =>
      ⟨x, mem_sortObs.2 hx, le_rfl, ht⟩).1 (MemberSeries.governs_of_latestAt ho)
  refine ⟨hgoverns, fun ho => ?_⟩
  have hsome : ((m.series obs).latestAt t).isSome := by
    rw [MemberSeries.latestAt_eq, getLast?_isSome]
    exact ne_nil_of_mem (mem_filter.2 ⟨mem_sortObs.2 ho.mem, decide_eq_true ho.start_le⟩)
  obtain ⟨o', ho'⟩ := Option.isSome_iff_exists.1 hsome
  rw [ho', (hgoverns ho').eq (h.distinct _) ho]

/-- Observations that a part of them stands for at `t`: the latest one is the same. -/
theorem Member.latestAt_series_of_cofinal (h : UniqueObservations obs) (hsub : ∀ o ∈ obs', o ∈ obs)
    (hcofinal : ∀ o ∈ obs, o.monitorID = m.monitorID → o.ts ≤ t →
      ∃ o' ∈ obs', o'.monitorID = m.monitorID ∧ o.ts ≤ o'.ts ∧ o'.ts ≤ t) :
    (m.series obs').latestAt t = (m.series obs).latestAt t := by
  have h' : UniqueObservations obs' := fun o ho o' ho' => h o (hsub o ho) o' (hsub o' ho')
  refine Option.ext fun o => ?_
  rw [latestAt_series_iff h', latestAt_series_iff h]
  refine governs_of_cofinal (h.distinct _) (fun x hx => ?_) fun x hx ht => ?_
  · rw [mem_filter] at hx ⊢
    exact ⟨hsub x hx.1, hx.2⟩
  · rw [mem_filter, decide_eq_true_eq] at hx
    obtain ⟨y, hy, hid, hle⟩ := hcofinal x hx.1 hx.2 ht
    exact ⟨y, mem_filter.2 ⟨hy, decide_eq_true hid⟩, hle⟩

end Unique

/-- No listed instant separates the two. -/
def SameSide (xs : List Int) (t u : Int) : Prop := ∀ x ∈ xs, x ≤ t ↔ x ≤ u

theorem SameSide.of_subset {xs ys : List Int} {u : Int} (h : SameSide ys t u)
    (hs : ∀ x ∈ xs, x ∈ ys) : SameSide xs t u := fun x hx => h x (hs x hx)

namespace MemberSeries

variable {s : MemberSeries} {t u : Int}

theorem obs_mem_instants {o : Observation} (h : o ∈ s.obs) :
    o.ts ∈ s.instants ∧ o.ts + s.staleAfter ∈ s.instants := by
  simp only [instants, mem_append, mem_flatMap]
  exact ⟨.inl ⟨o, h, by simp⟩, .inl ⟨o, h, by simp⟩⟩

theorem armed_mem_instants (h : s.armed) : s.armedAt + s.staleAfter ∈ s.instants := by
  simp [instants, h]

theorem latestAt_congr (h : ∀ o ∈ s.obs, o.ts ≤ t ↔ o.ts ≤ u) : s.latestAt t = s.latestAt u := by
  rw [latestAt_eq, latestAt_eq]
  congr 1
  exact filter_congr fun o ho => by simp only [h o ho]

variable {spans : List MaintenanceSpan} {ex : Bool}

/-- What a member's state reads from the clock: its side of every observation, of the deadline of
one that was made, of the dead-man's first deadline and of every maintenance edge. -/
theorem stateAt_eq_of (hobs : ∀ o ∈ s.obs, o.ts ≤ t ↔ o.ts ≤ u)
    (hstale : ∀ o ∈ s.obs, o.ts ≤ u → (o.ts + s.staleAfter ≤ t ↔ o.ts + s.staleAfter ≤ u))
    (harmed : s.armed → (s.armedAt + s.staleAfter ≤ t ↔ s.armedAt + s.staleAfter ≤ u))
    (hs : SameSide (spanEdges spans) t u) : s.stateAt t spans ex = s.stateAt u spans ex := by
  have hcov : (spans.any fun sp => sp.covers s.monitorID t) =
      spans.any fun sp => sp.covers s.monitorID u := by
    rw [Bool.eq_iff_iff, any_eq_true, any_eq_true]
    refine exists_congr fun sp => and_congr_right fun hsp => ?_
    have h₁ := hs sp.start (mem_flatMap.2 ⟨sp, hsp, by simp⟩)
    have h₂ := hs sp.stop (mem_flatMap.2 ⟨sp, hsp, by simp⟩)
    have h₃ : t < sp.stop ↔ u < sp.stop := by omega
    simp only [MaintenanceSpan.covers, h₁, h₃]
  have hev : s.evidenceAt t = s.evidenceAt u := by
    unfold evidenceAt
    rw [latestAt_congr hobs]
  unfold stateAt
  rw [hcov, hev]
  cases he : s.evidenceAt u with
  | none =>
    cases ha : s.armed with
    | false => simp
    | true => simp [harmed ha]
  | some o =>
    obtain ⟨ho, hou⟩ := evidenceAt_some he
    simp [hstale o ho hou]

/-- **The state of a member changes only at an instant it is compared with.** -/
theorem stateAt_congr (h : SameSide s.instants t u)
    (hs : SameSide (spanEdges spans) t u) : s.stateAt t spans ex = s.stateAt u spans ex :=
  stateAt_eq_of (fun _ ho => h _ (obs_mem_instants ho).1)
    (fun _ ho _ => h _ (obs_mem_instants ho).2) (fun ha => h _ (armed_mem_instants ha)) hs

end MemberSeries

/-! ## Break points -/

/-- What `add` has collected after the candidates `cs`. -/
structure PointsInv (start stop : Int) (cs : List Int) (acc : List Int × List Int) : Prop where
  keys : acc.1 = (acc.2.map unixNano).reverse
  nodup : (acc.2.map unixNano).Nodup
  range : ∀ t ∈ acc.2, start ≤ t ∧ t < stop
  complete : ∀ t ∈ cs, start ≤ t → t < stop → unixNano t ∈ acc.2.map unixNano
  sound : ∀ t ∈ acc.2, t ∈ cs

theorem PointsInv.addPoint {cs : List Int} {acc : List Int × List Int}
    (h : PointsInv start stop cs acc) :
    PointsInv start stop (cs ++ [t]) (addPoint start stop acc t) := by
  obtain ⟨hk, hn, hr, hc, hs⟩ := h
  unfold Reliability.addPoint
  split
  · refine ⟨hk, hn, hr, ?_, fun u hu => mem_append_left _ (hs u hu)⟩
    intro u hu h₁ h₂
    rcases mem_append.1 hu with hu | hu
    · exact hc u hu h₁ h₂
    · obtain rfl : u = t := by simpa using hu
      omega
  · next hin =>
    simp only
    split
    · next hseen =>
      refine ⟨hk, hn, hr, ?_, fun u hu => mem_append_left _ (hs u hu)⟩
      intro u hu h₁ h₂
      rcases mem_append.1 hu with hu | hu
      · exact hc u hu h₁ h₂
      · obtain rfl : u = t := by simpa using hu
        rw [hk] at hseen
        exact mem_reverse.1 hseen
    · next hnew =>
      rw [hk] at hnew
      refine ⟨by simp [hk], ?_, ?_, ?_, ?_⟩
      · rw [map_append]
        exact List.Nodup.append hn (by simp) (by simpa using hnew)
      · intro u hu
        rcases mem_append.1 hu with hu | hu
        · exact hr u hu
        · obtain rfl : u = t := by simpa using hu
          omega
      · intro u hu h₁ h₂
        rw [map_append, mem_append]
        rcases mem_append.1 hu with hu | hu
        · exact .inl (hc u hu h₁ h₂)
        · obtain rfl : u = t := by simpa using hu
          simp
      · intro u hu
        rcases mem_append.1 hu with hu | hu
        · exact mem_append_left _ (hs u hu)
        · exact mem_append_right _ hu

theorem PointsInv.foldl (ts : List Int) :
    ∀ {cs : List Int} {acc : List Int × List Int}, PointsInv start stop cs acc →
      PointsInv start stop (cs ++ ts) (ts.foldl (Reliability.addPoint start stop) acc) := by
  induction ts with
  | nil => intro cs acc h; simpa using h
  | cons t ts ih =>
    intro cs acc h
    have := ih (h.addPoint (t := t))
    simpa using this

theorem pointsInv_candidates (start stop : Int) :
    PointsInv start stop (candidates series spans start)
      ((candidates series spans start).foldl (addPoint start stop) ([], [])) := by
  have h : PointsInv start stop [] ([], []) := by
    refine ⟨rfl, nodup_nil, ?_, ?_, ?_⟩ <;> simp
  simpa using PointsInv.foldl (candidates series spans start) h

section Breakpoints

variable {series : List MemberSeries} {spans : List MaintenanceSpan} {start stop : Int} {t : Int}

/-- The break points are the candidates inside the bucket, if its length is a `time.Duration`: in a
longer one two candidates may share a nanosecond key. -/
theorem mem_breakpoints_iff (hlen : stop - start ≤ maxInt64) :
    t ∈ breakpoints series spans start stop ↔
      t ∈ candidates series spans start ∧ start ≤ t ∧ t < stop := by
  have inv := pointsInv_candidates series spans start stop
  unfold breakpoints
  rw [(perm_insertionSort _ _).mem_iff]
  constructor
  · exact fun h => ⟨inv.sound t h, inv.range t h⟩
  · rintro ⟨hc, h₁, h₂⟩
    obtain ⟨u, hu, hk⟩ := mem_map.1 (inv.complete t hc h₁ h₂)
    have hru := inv.range u hu
    have : u = t := unixNano_inj hk (abs_le.2 ⟨by omega, by omega⟩)
    exact this ▸ hu

variable (series spans start stop) in
theorem breakpoints_pairwise : (breakpoints series spans start stop).Pairwise (· < ·) := by
  have inv := pointsInv_candidates series spans start stop
  have hs : (breakpoints series spans start stop).Pairwise (· ≤ ·) :=
    pairwise_insertionSort _ _
  have hn : (breakpoints series spans start stop).Nodup :=
    (perm_insertionSort _ _).nodup_iff.2 (List.Nodup.of_map _ inv.nodup)
  exact (hs.and hn).imp fun h => lt_of_le_of_ne h.1 h.2

theorem breakpoints_lt (h : t ∈ breakpoints series spans start stop) : t < stop :=
  ((pointsInv_candidates series spans start stop).range t ((perm_insertionSort _ _).mem_iff.1 h)).2

variable (series spans) in
theorem breakpoints_eq_cons (hlt : start < stop) (hlen : stop - start ≤ maxInt64) :
    ∃ rest, breakpoints series spans start stop = start :: rest := by
  have hmem : start ∈ breakpoints series spans start stop :=
    (mem_breakpoints_iff hlen).2 ⟨by simp [candidates], le_rfl, hlt⟩
  have hp := breakpoints_pairwise series spans start stop
  cases hb : breakpoints series spans start stop with
  | nil => simp [hb] at hmem
  | cons p rest =>
    have hp' : start ≤ p := ((mem_breakpoints_iff hlen).1 (hb ▸ mem_cons_self)).2.1
    rw [hb] at hmem hp
    rcases mem_cons.1 hmem with h | h
    · exact ⟨rest, by rw [h]⟩
    · exact absurd ((pairwise_cons.1 hp).1 start h) (by omega)

/-- **No candidate falls strictly inside a piece.** -/
theorem sameSide_of_piece (hlen : stop - start ≤ maxInt64) {l r : List Int} {p : Int}
    (hb : breakpoints series spans start stop = l ++ p :: r) (h₁ : p ≤ t)
    (h₂ : t < r.headD stop) : SameSide (candidates series spans start) t p := by
  intro x hx
  refine ⟨fun hxt => ?_, fun hxp => le_trans hxp h₁⟩
  by_contra hpx
  have hp : p ∈ breakpoints series spans start stop := by rw [hb]; simp
  have hsorted := breakpoints_pairwise series spans start stop
  rw [hb, pairwise_append, pairwise_cons] at hsorted
  obtain ⟨-, ⟨hpr, hr⟩, hlr⟩ := hsorted
  have hhead : r.headD stop ≤ stop := by
    cases r with
    | nil => exact le_rfl
    | cons q r => exact (breakpoints_lt (by rw [hb]; simp)).le
  have hxs : x ∈ breakpoints series spans start stop :=
    (mem_breakpoints_iff hlen).2 ⟨hx, by have := ((mem_breakpoints_iff hlen).1 hp).2; omega,
      by omega⟩
  -- a break point above `p` is one of the rest, so at or after its head
  rw [hb, mem_append, mem_cons] at hxs
  rcases hxs with h | h | h
  · exact absurd (hlr x h p (by simp)) (by omega)
  · omega
  cases r with
  | nil => simp at h
  | cons q r =>
    simp only [headD_cons] at h₂
    rcases mem_cons.1 h with h | h
    · omega
    · exact absurd ((pairwise_cons.1 hr).1 x h) (by omega)

end Breakpoints

end Cerbix.Reliability
