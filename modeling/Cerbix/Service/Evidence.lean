import Cerbix.Service.System

/-!
# What the fact of a bucket depends on

`Tables.recomputed` reads the epoch of the bucket, the policies of its revision, the maintenance
windows and the evidence. A heartbeat is evidence of its own bucket and, carried in, of later ones
up to the next heartbeat of its monitor (`Tables.feeds`); every other fact stays
(`recomputed_append`). With the whole history loaded the fact would be the same (`evidence_exact`).
A declaration write or an epoch bump changes nothing before its boundary (`evaluationAt_put_of_lt`,
`evaluationAt_bump_of_lt`).
-/

namespace Cerbix.Reliability

open Cerbix.Lib Cerbix.Domain List

theorem Member.series_toMember (m : Member) (obs : List Observation) :
    (m.series obs).toMember = m := rfl

theorem verdictAt_series_congr {m : Member} {obs obs' : List Observation} {t : Int}
    (h : (m.series obs').latestAt t = (m.series obs).latestAt t) (spans : List MaintenanceSpan)
    (p : ServicePolicies) :
    (m.series obs').verdictAt spans p t = (m.series obs).verdictAt spans p t := by
  have hev : (m.series obs').evidenceAt t = (m.series obs).evidenceAt t := by
    unfold MemberSeries.evidenceAt
    rw [h]
    rfl
  have hst : ∀ ex, (m.series obs').stateAt t spans ex = (m.series obs).stateAt t spans ex := by
    intro ex
    unfold MemberSeries.stateAt
    rw [hev]
    cases (m.series obs).evidenceAt t <;> rfl
  simp only [MemberSeries.verdictAt, Member.series_toMember, hst]

theorem reduce_of_cofinal {inp : Input} {obs : List Observation}
    (hlen : inp.stop - inp.start ≤ Go.maxInt64) (hu : UniqueObservations inp.observations)
    (hsub : ∀ o ∈ obs, o ∈ inp.observations)
    (hcofinal : ∀ m ∈ inp.members, ∀ t, inp.start ≤ t → t < inp.stop →
      ∀ o ∈ inp.observations, o.monitorID = m.monitorID → o.ts ≤ t →
        ∃ o' ∈ obs, o'.monitorID = m.monitorID ∧ o.ts ≤ o'.ts ∧ o'.ts ≤ t) :
    reduce { inp with observations := obs } = reduce inp := by
  refine reduce_congr hlen fun t hstart hstop => ?_
  unfold censusAt buildSeries
  rw [map_map, map_map]
  congr 1
  refine map_congr_left fun m hm => verdictAt_series_congr ?_ _ _
  exact Member.latestAt_series_of_cofinal hu hsub (hcofinal m hm t hstart hstop)

end Cerbix.Reliability

namespace Cerbix.Service

open Cerbix.Lib Cerbix.Domain Cerbix.Reliability List

def carryIn (heartbeats : List Observation) (start : Int) (id : String) : Option Observation :=
  firstBy (fun x y => y.ts < x.ts) (heartbeats.filter fun o => o.monitorID = id ∧ o.ts < start)

def inBucket (heartbeats : List Observation) (ids : List String) (start stop : Int) :
    List Observation :=
  heartbeats.filter fun o => o.monitorID ∈ ids ∧ start ≤ o.ts ∧ o.ts < stop

section Evidence

variable {heartbeats : List Observation} {ids : List String} {start stop t : Int} {id : String}
  {hb o : Observation}

theorem observationsFor_eq : observationsFor heartbeats ids start stop =
    inBucket heartbeats ids start stop ++ ids.filterMap (carryIn heartbeats start) := rfl

theorem latest_strict : StrictBefore fun x y : Observation => decide (y.ts < x.ts) where
  irrefl x := by simp
  trans {x y z} hxy hyz := by
    simp only [decide_eq_true_eq] at *
    omega

theorem carryIn_spec (h : carryIn heartbeats start id = some o) :
    o.monitorID = id ∧ o.ts < start := by
  have := (firstBy_spec latest_strict h).1
  rw [mem_filter, decide_eq_true_eq] at this
  exact this.2

theorem mem_of_mem_observationsFor (h : o ∈ observationsFor heartbeats ids start stop) :
    o ∈ heartbeats := by
  rw [observationsFor_eq, mem_append, mem_filterMap] at h
  rcases h with h | ⟨id, -, h⟩
  · exact mem_of_mem_filter h
  · exact mem_of_mem_filter (firstBy_spec latest_strict h).1

/-- **What is carried in stands for everything before the bucket.** -/
theorem observationsFor_cofinal (hid : o.monitorID ∈ ids) (ho : o ∈ heartbeats) (hstart : start ≤ t)
    (hstop : t < stop) (ht : o.ts ≤ t) : ∃ o' ∈ observationsFor heartbeats ids start stop,
      o'.monitorID = o.monitorID ∧ o.ts ≤ o'.ts ∧ o'.ts ≤ t := by
  by_cases hin : start ≤ o.ts
  · refine ⟨o, mem_append_left _ (mem_filter.2 ⟨ho, decide_eq_true ?_⟩), rfl, le_rfl, ht⟩
    exact ⟨hid, hin, by omega⟩
  · have hmem : o ∈ heartbeats.filter fun x => x.monitorID = o.monitorID ∧ x.ts < start :=
      mem_filter.2 ⟨ho, decide_eq_true ⟨rfl, by omega⟩⟩
    obtain ⟨c, hc⟩ : ∃ c, carryIn heartbeats start o.monitorID = some c :=
      exists_firstBy (ne_nil_of_mem hmem)
    have hle : ¬ c.ts < o.ts := by simpa using (firstBy_spec latest_strict hc).2 o hmem
    have hspec := carryIn_spec hc
    refine ⟨c, mem_append_right _ (mem_filterMap.2 ⟨_, hid, hc⟩), hspec.1, ?_, ?_⟩ <;> omega

/-- The heartbeat can be the latest evidence of its monitor somewhere in `[start, stop)`. -/
def Feeds (heartbeats : List Observation) (hb : Observation) (start stop : Int) : Prop :=
  hb.ts < stop ∧ ∀ o ∈ heartbeats, o.monitorID = hb.monitorID → hb.ts < o.ts → start < o.ts

instance : Decidable (Feeds heartbeats hb start stop) := inferInstanceAs (Decidable (_ ∧ _))

theorem reduce_observationsFor {inp : Input} (hlen : inp.stop - inp.start ≤ Go.maxInt64)
    (hu : UniqueObservations inp.observations) : reduce { inp with
      observations := observationsFor inp.observations (inp.members.map Member.monitorID)
        inp.start inp.stop } = reduce inp := by
  refine reduce_of_cofinal hlen hu (fun _ => mem_of_mem_observationsFor) ?_
  intro m hm t hstart hstop o ho hid ht
  rw [← hid]
  exact observationsFor_cofinal (hid ▸ mem_map_of_mem hm) ho hstart hstop ht

/-- **A heartbeat that does not feed a bucket does not change it.** -/
theorem reduce_append {inp : Input} (hlen : inp.stop - inp.start ≤ Go.maxInt64)
    (hu : UniqueObservations (inp.observations ++ [hb]))
    (h : ¬ ((∃ m ∈ inp.members, hb.monitorID = m.monitorID) ∧
      Feeds inp.observations hb inp.start inp.stop)) :
    reduce { inp with observations := inp.observations ++ [hb] } = reduce inp := by
  refine (@reduce_of_cofinal { inp with observations := inp.observations ++ [hb] } _ hlen hu
    (fun o ho => mem_append_left _ ho) ?_).symm
  intro m hm t hstart hstop o ho hid ht
  rcases mem_concat.1 ho with ho | rfl
  · exact ⟨o, ho, hid, le_rfl, ht⟩
  obtain ⟨x, hx, hxid, hlt, hle⟩ : ∃ x ∈ inp.observations, x.monitorID = o.monitorID ∧
      o.ts < x.ts ∧ x.ts ≤ inp.start := by
    by_contra hno
    push Not at hno
    exact h ⟨⟨m, hm, hid⟩, ht.trans_lt hstop, hno⟩
  exact ⟨x, hx, hxid.trans hid, hlt.le, hle.trans hstart⟩

end Evidence

/-! ## The range of a late observation -/

section

/-- The next observation of the same monitor. -/
structure Follows (heartbeats : List Observation) (o next : Observation) : Prop where
  mem : next ∈ heartbeats
  same : next.monitorID = o.monitorID
  later : o.ts < next.ts
  first : ∀ x ∈ heartbeats, x.monitorID = o.monitorID → o.ts < x.ts → next.ts ≤ x.ts

variable {heartbeats : List Observation} {o next : Observation} {limit : Int}

open Tables

theorem lateObservationReachEnd_of_follows (h : Follows heartbeats o next) (hlt : next.ts < limit) :
    lateObservationReachEnd (heartbeats ++ [o]) o.monitorID o.ts limit = ceilToBucket next.ts := by
  have hnext : nextObservation (heartbeats ++ [o]) o.monitorID o.ts limit = some next.ts := by
    refine List.min?_eq_some_iff.2 ⟨mem_map_of_mem (mem_filter.2 ⟨?_, ?_⟩), ?_⟩
    · exact mem_append_left _ h.mem
    · exact decide_eq_true ⟨h.same, h.later, hlt⟩
    intro ts hts
    obtain ⟨x, hx, rfl⟩ := mem_map.1 hts
    rw [mem_filter, decide_eq_true_eq] at hx
    rcases mem_concat.1 hx.1 with hmem | rfl
    · exact h.first x hmem hx.2.1 hx.2.2.1
    · omega
  rw [lateObservationReachEnd, hnext]

theorem lateObservationReachEnd_of_none
    (h : ∀ x ∈ heartbeats, x.monitorID = o.monitorID → o.ts < x.ts → limit ≤ x.ts) :
    lateObservationReachEnd (heartbeats ++ [o]) o.monitorID o.ts limit = limit := by
  have hnext : nextObservation (heartbeats ++ [o]) o.monitorID o.ts limit = none := by
    rw [nextObservation, List.min?_eq_none_iff, map_eq_nil_iff, filter_eq_nil_iff]
    intro x hx hsel
    rw [decide_eq_true_eq] at hsel
    rcases mem_concat.1 hx with hmem | rfl
    · have := h x hmem hsel.1 hsel.2.1
      omega
    · omega
  rw [lateObservationReachEnd, hnext]

variable (members : List Member) (spans : List MaintenanceSpan) (p : ServicePolicies)

def bucketInput (heartbeats : List Observation) (b : Int) : Input :=
  ⟨b, b + canonicalBucket, members, heartbeats, spans, p⟩

/-- **The evidence of a bucket.** What the store selects gives the same bucket, provenance included,
as the whole history; and a late observation changes no bucket outside the range from its own to its
monitor's next observation, as `lateObservationReachEnd` gives it. -/
theorem evidence_exact (hu : UniqueObservations (heartbeats ++ [o])) :
    (∀ b, reduce (bucketInput members spans p (observationsFor heartbeats
        (members.map Member.monitorID) b (b + canonicalBucket)) b) =
      reduce (bucketInput members spans p heartbeats b)) ∧ (∀ b, Aligned b →
      (b < floorToBucket o.ts ∨ ∃ next, Follows heartbeats o next ∧ ceilToBucket next.ts ≤ b) →
      reduce (bucketInput members spans p (heartbeats ++ [o]) b) =
        reduce (bucketInput members spans p heartbeats b)) ∧
    ∀ limit, (∀ next, Follows heartbeats o next → next.ts < limit →
        lateObservationReachEnd (heartbeats ++ [o]) o.monitorID o.ts limit = ceilToBucket next.ts) ∧
      ((∀ x ∈ heartbeats, x.monitorID = o.monitorID → o.ts < x.ts → limit ≤ x.ts) →
        lateObservationReachEnd (heartbeats ++ [o]) o.monitorID o.ts limit = limit) := by
  have hlen : ∀ b, b + canonicalBucket - b ≤ Go.maxInt64 := fun b => by
    rw [add_sub_cancel_left]
    decide
  refine ⟨fun b => ?_, fun b hal hout => ?_, fun limit =>
    ⟨fun _ => lateObservationReachEnd_of_follows, lateObservationReachEnd_of_none⟩⟩
  · refine @reduce_observationsFor (bucketInput members spans p heartbeats b) (hlen b) ?_
    exact fun x hx y hy => hu x (mem_append_left _ hx) y (mem_append_left _ hy)
  · refine @reduce_append o (bucketInput members spans p heartbeats b) (hlen b) hu ?_
    rintro ⟨-, hstop, hnext⟩
    rcases hout with hlt | ⟨next, hfollows, hle⟩
    · have := hal.add_le_of_lt (floorToBucket_aligned o.ts) hlt
      have := floorToBucket_le o.ts
      exact absurd hstop (by simp only [bucketInput]; omega)
    · have := le_ceilToBucket next.ts
      have := hnext next hfollows.mem hfollows.same hfollows.later
      simp only [bucketInput] at this
      omega

/-- A heartbeat of minute 1 arrives after the one of minute 2: minute 3 stays as it is. -/
theorem evidence_exact_late : let members := [⟨"web", .http, "eu", true, 90 * Go.second, 0⟩]
    let heartbeats := [⟨"web", 30 * Go.second, true⟩, ⟨"web", 130 * Go.second, false⟩]
    reduce (bucketInput members [] quorumPolicies
        (heartbeats ++ [⟨"web", 70 * Go.second, true⟩]) (3 * Go.minute)) =
      reduce (bucketInput members [] quorumPolicies heartbeats (3 * Go.minute)) :=
  (evidence_exact _ [] quorumPolicies (by unfold UniqueObservations; decide)).2.1 _ (by decide)
    (.inr ⟨⟨"web", 130 * Go.second, false⟩, ⟨by decide, rfl, by decide, by decide⟩, by decide⟩)

end

namespace Tables

variable {cfg : Config} {s s' : Tables} {b : Int} {hb : Observation}

theorem recomputed_congr (he : s'.evaluationAt b = s.evaluationAt b)
    (hh : s'.heartbeats = s.heartbeats) (hw : s'.windows = s.windows) :
    s'.recomputed b = s.recomputed b := by
  unfold recomputed contentUnder inputFor
  rw [he, hh, hw]

theorem unmeasured_congr (he : s'.evaluationAt b = s.evaluationAt b) :
    s'.Unmeasured b ↔ s.Unmeasured b := by
  unfold Unmeasured
  rw [he]

theorem evaluationAt_eq_some {e : Epoch} {p : ServicePolicies} : s.evaluationAt b = some (e, p) ↔
      s.decls.epochAt b = some e ∧ s.decls.policiesOf e.revision = some p := by
  simp only [evaluationAt, Option.bind_eq_some_iff, Option.map_eq_some_iff, Prod.mk.injEq]
  constructor
  · rintro ⟨e, he, p, hp, rfl, rfl⟩
    exact ⟨he, hp⟩
  · rintro ⟨he, hp⟩
    exact ⟨e, he, p, hp, rfl, rfl⟩

def feeds (s : Tables) (hb : Observation) (b : Int) : Bool :=
  (s.decls.epochAt b).any (fun e => hb.monitorID ∈ e.ids) ∧
    Feeds s.heartbeats hb b (b + canonicalBucket)

/-- **A heartbeat changes only the facts of buckets it feeds.** -/
theorem recomputed_append (hu : UniqueObservations (s.heartbeats ++ [hb])) (h : ¬ s.feeds hb b) :
    { s with heartbeats := s.heartbeats ++ [hb] }.recomputed b = s.recomputed b := by
  have heval : ({ s with heartbeats := s.heartbeats ++ [hb] } : Tables).evaluationAt b =
    s.evaluationAt b := rfl
  unfold recomputed
  rw [heval]
  cases he : s.evaluationAt b with
  | none => rw [Option.bind_none, Option.bind_none]
  | some ep =>
    obtain ⟨e, p⟩ := ep
    have hnot : ¬ (hb.monitorID ∈ e.ids ∧ Feeds s.heartbeats hb b (b + canonicalBucket)) := by
      simpa [feeds, (evaluationAt_eq_some.1 he).1] using h
    let whole (obs : List Observation) : Input := { s.inputFor e p b with observations := obs }
    have hlen : (whole s.heartbeats).stop - (whole s.heartbeats).start ≤ Go.maxInt64 := by
      simp only [whole, inputFor, add_sub_cancel_left]
      decide
    have hids : (whole s.heartbeats).members.map Member.monitorID = e.ids := by
      simp [whole, inputFor, Epoch.ids, EpochMember.toMember]
    -- both sides read the whole history, where the new heartbeat does not show
    have hread : ∀ obs, UniqueObservations obs → reduce (whole (observationsFor obs e.ids b
        (b + canonicalBucket))) = reduce (whole obs) := fun obs hobs => by
      have hsub := @reduce_observationsFor (whole obs) hlen hobs
      rwa [show (whole obs).members.map Member.monitorID = e.ids from hids] at hsub
    have hold : UniqueObservations s.heartbeats := fun o ho o' ho' =>
      hu o (mem_append_left _ ho) o' (mem_append_left _ ho')
    have happend := @reduce_append hb (whole s.heartbeats) hlen hu fun ⟨⟨m, hm, hid⟩, hfeeds⟩ =>
      hnot ⟨hids ▸ hid ▸ mem_map_of_mem hm, hfeeds⟩
    rw [Option.bind_some]
    unfold contentUnder
    congr 2
    exact (hread _ hu).trans (happend.trans (hread _ hold).symm)

end Tables

namespace Declarations

variable {cfg : Config} {d : Declarations} {t boundary : Int}

theorem epochAt_insertEpoch_of_lt (h : Distinct Epoch.effectiveAt d.effectiveEpochs)
    (revision : Nat) (members : List EpochMember) (ht : t < boundary) :
    (d.insertEpoch cfg revision boundary members).epochAt t = d.epochAt t := by
  unfold epochAt
  rw [effectiveEpochs_insertEpoch]
  exact inForce_place_of_lt h (by exact ht)

theorem policiesOf_insertRevision {n : Nat} (hn : n ≤ d.currentRevision)
    (monitors sli : List String) (p : ServicePolicies) :
    (d.insertRevision boundary monitors sli p).policiesOf n = d.policiesOf n := by
  have hnew : d.currentRevision + 1 ≠ n := by omega
  unfold policiesOf insertRevision
  simp only [List.find?_append, supersedeRevisions, List.find?_map, List.find?_singleton, hnew,
    decide_false, Bool.false_eq_true, if_false, Option.or_none, Option.map_map]
  -- superseding a row keeps its number and its policies
  have hkeep : ∀ r : Revision, ((if r.effectiveAt = boundary ∧ r.state = .effective then
      { r with state := .supersededBeforeEffect } else r).revision = r.revision) ∧
      ((if r.effectiveAt = boundary ∧ r.state = .effective then
      { r with state := .supersededBeforeEffect } else r).policies = r.policies) := by
    intro r
    split <;> exact ⟨rfl, rfl⟩
  have hfind : ((fun r : Revision => decide (r.revision = n)) ∘ fun r : Revision =>
      if r.effectiveAt = boundary ∧ r.state = .effective then
        { r with state := .supersededBeforeEffect } else r) = fun r => decide (r.revision = n) :=
    funext fun r => by simp only [Function.comp_apply, (hkeep r).1]
  have hmap : (Revision.policies ∘ fun r : Revision =>
      if r.effectiveAt = boundary ∧ r.state = .effective then
        { r with state := .supersededBeforeEffect } else r) = Revision.policies :=
    funext fun r => (hkeep r).2
  rw [hfind, hmap]

theorem Inv.epoch_revision_le (hi : d.Inv) {e : Epoch} (he : d.epochAt t = some e) :
    e.revision ≤ d.currentRevision := by
  obtain ⟨r, hr⟩ := hi.snapshots e (governs_of_inForce he).mem
  rw [hr.revision]
  exact le_currentRevision hr.governs.mem

end Declarations

namespace Tables

variable {cfg : Config} {s s' : Tables} {b : Int}

theorem evaluationAt_congr (he : s'.decls.epochAt b = s.decls.epochAt b)
    (hp : ∀ e, s.decls.epochAt b = some e →
      s'.decls.policiesOf e.revision = s.decls.policiesOf e.revision) :
    s'.evaluationAt b = s.evaluationAt b := by
  unfold evaluationAt
  rw [he]
  cases h : s.decls.epochAt b with
  | none => rfl
  | some e => rw [Option.bind_some, Option.bind_some, hp e h]

open Declarations

theorem evaluationAt_put_of_lt (hi : s.decls.Inv) {w : DeclarationWrite} {r : Declared}
    (hput : s.decls.put cfg w = .ok r) (hd : s'.decls = r.decls) (hb : b < r.effectiveAt) :
    s'.evaluationAt b = s.evaluationAt b := by
  obtain ⟨-, -, -, -, policies, members, -, hr⟩ := put_spec hput
  refine evaluationAt_congr ?_ fun e he => ?_
  · rw [hd, hr]
    refine epochAt_insertEpoch_of_lt ?_ _ _ hb
    exact hi.epochStarts
  · rw [hd, hr]
    exact policiesOf_insertRevision (hi.epoch_revision_le he) _ _ _

theorem evaluationAt_bump_of_lt (hi : s.decls.Inv) {project : List Monitor} {now : Int}
    {r : Declarations × List Origin} (hbump : s.decls.bump cfg project now = .ok r)
    (hd : s'.decls = r.1) (hb : b < ceilToBucket now) : s'.evaluationAt b = s.evaluationAt b := by
  obtain ⟨d, o⟩ := r
  rcases bump_cases hbump with ⟨rfl, -⟩ | ⟨x, members, -, -, rfl, -⟩
  · refine evaluationAt_congr ?_ fun e _ => ?_ <;> rw [hd] <;> rfl
  refine evaluationAt_congr ?_ fun e _ => ?_
  · rw [hd]
    refine epochAt_insertEpoch_of_lt ?_ _ _ hb
    exact hi.epochStarts
  · rw [hd]
    rfl

end Tables

end Cerbix.Service
