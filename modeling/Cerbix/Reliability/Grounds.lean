import Cerbix.Reliability.Monotone

/-!
# Every outcome has its grounds in a member

Under an accepted policy the point evaluator never speaks for members nobody measured
(`stateAt_grounded`). A service's availability is that of one of its regions
(`exists_region_availability`), and a region's is counted from its members
(`Tally.Counts.bad_grounds`, `Tally.Counts.not_unknown`).
-/

namespace Cerbix.Reliability

open Cerbix.Lib Cerbix.Domain List Member

/-! ## Regions -/

theorem exists_region_availability {ts : List Tally} {p : ServicePolicies} (hne : ts ≠ [])
    (hmin : 1 ≤ p.region.degradedMinRegions) :
    ∃ x ∈ regionResults ts p, x.availability = (aggregate ts p).availability := by
  by_contra hnone
  push Not at hnone
  by_cases hscope : 0 < countIn (regionResults ts p) fun _ => true
  · obtain ⟨-, hexcluded, hgood, hunknown, -⟩ := chainRank_some (chainRank_aggregate hscope)
    have hzero : ∀ a, (aggregate ts p).availability = a →
        countIn (regionResults ts p) (fun x => x.availability = a) = 0 := by
      rintro a rfl
      exact countP_eq_zero.2 fun x hx h => hnone x hx (by simp_all)
    cases ha : (aggregate ts p).availability with
    | excluded => exact hexcluded ha
    | good =>
      have hrank := hgood.1 ha
      simp only [serviceRank, hzero _ ha] at hrank
      split_ifs at hrank <;> omega
    | unknown =>
      have hrank := hunknown.1 ha
      simp only [serviceRank, hzero _ ha] at hrank
      split_ifs at hrank <;> omega
    | bad =>
      have hall : countIn (regionResults ts p) (fun _ => true) =
          countIn (regionResults ts p) fun x =>
            x.availability = .good || x.availability = .unknown := by
        refine countP_congr fun x hx => ?_
        cases hx : x.availability <;> simp_all
      rw [countIn_good_or_unknown] at hall
      simp only [ha, reduceCtorEq, false_iff, serviceRank] at hgood hunknown
      split_ifs at hgood hunknown <;> omega
  · obtain ⟨t, ht⟩ := exists_mem_of_ne_nil ts hne
    refine hnone _ (mem_map_of_mem ht) ?_
    rw [availability_of_no_scope hscope, if_neg hne]
    exact no_scope_iff.1 hscope _ (mem_map_of_mem ht)

section Region

variable {t : Tally} {p : ServicePolicies} {d : List (String × Int)} {n g b u x : Int}

theorem Tally.Counts.bad_grounds (h : t.Counts p.missingData g b u x) (hg : 0 ≤ g) (hb : 0 ≤ b)
    (hu : 0 ≤ u) (hp : p.Valid d n) (hbad : (regionResult t p).availability = .bad) :
    0 < b ∨ p.missingData = .bad ∧ 0 < u := by
  obtain ⟨-, -, hgood, hunknown, -⟩ :=
    chainRank_some (chainRank_region (t := t) (p := p) (by simp [hbad]))
  have hrank : regionRank p.aggregation t.eligible t.good t.bad t.unknown = 0 := by
    simp only [hbad, reduceCtorEq, false_iff] at hgood hunknown
    omega
  have hpos : 0 < t.bad := by
    have hcounts : 0 ≤ t.good ∧ 0 ≤ t.bad ∧ 0 ≤ t.unknown := by
      rw [h.good, h.bad, h.unknown]
      cases p.missingData <;> simp <;> omega
    rw [h.eligible] at hrank
    unfold regionRank at hrank
    rcases hp.mode with hm | hm | hm <;> simp only [hm] at hrank <;>
      split_ifs at hrank <;> omega
  rw [h.bad] at hpos
  by_cases hm : p.missingData = .bad
  · exact (show 0 < b ∨ 0 < u by omega).imp_right fun h => ⟨hm, h⟩
  · rw [if_neg hm, add_zero] at hpos
    exact .inl hpos

/-- Where missing data counts as bad, every region with a member in it is decided. -/
theorem Tally.Counts.not_unknown (h : t.Counts p.missingData g b u x) (hg : 0 ≤ g) (hb : 0 ≤ b)
    (hu : 0 ≤ u) (hpos : 0 < g + b + u + x) (hmissing : p.missingData = .bad) :
    (regionResult t p).availability ≠ .unknown := by
  intro ha
  have he : (regionResult t p).availability ≠ .excluded := by simp [ha]
  have hrank := (chainRank_some (chainRank_region he)).2.2.2.1.1 ha
  rw [Ne, h.excluded_iff hg hb hu] at he
  rw [h.eligible, h.good, h.bad, h.unknown, hmissing] at hrank
  simp only [if_true, or_true, sub_self] at hrank
  unfold regionRank at hrank
  by_cases h₀ : g + (b + u) + 0 = 0
  · omega
  · rw [if_neg h₀] at hrank
    split at hrank <;> split_ifs at hrank <;> omega

end Region

section

variable {p : ServicePolicies} {d : List (String × Int)} {n : Int} {vs : List Verdict}

theorem exists_of_countState_pos {s : State} {r : String}
    (h : 0 < countState s (ofRegion r vs)) : ∃ v ∈ vs, v.state = s := by
  by_contra hnone
  push Not at hnone
  rw [countState_eq_zero hnone] at h
  omega

theorem countState_total_pos {r : String} (hr : r ∈ regionsOf vs) :
    0 < countState .good (ofRegion r vs) + countState .bad (ofRegion r vs) +
      countState .unknown (ofRegion r vs) + countState .excluded (ofRegion r vs) := by
  obtain ⟨v, hv, rfl⟩ := mem_regionsOf.1 hr
  have hpos := countState_pos hv
  have := countState_nonneg .good (ofRegion v.member.region vs)
  have := countState_nonneg .bad (ofRegion v.member.region vs)
  have := countState_nonneg .unknown (ofRegion v.member.region vs)
  have := countState_nonneg .excluded (ofRegion v.member.region vs)
  cases hs : v.state <;> rw [hs] at hpos <;> omega

theorem outcomeOf_grounds (hp : p.Valid d n) (hne : vs ≠ []) :
    ((outcomeOf vs p).availability = .good → ∃ v ∈ vs, v.state = .good) ∧
    ((outcomeOf vs p).availability = .excluded → ∀ v ∈ vs, v.state = .excluded) ∧
    ((outcomeOf vs p).availability = .bad →
      ∃ v ∈ vs, v.state = .bad ∨ p.missingData = .bad ∧ v.state = .unknown) ∧
    (p.missingData = .bad → (outcomeOf vs p).availability ≠ .unknown) := by
  obtain ⟨v, hv⟩ := exists_mem_of_ne_nil vs hne
  have hcensus : censusOf vs p ≠ [] := by
    have hr := (perm_insertionSort (· ≤ ·) _).mem_iff.2 (mem_regionsOf.2 ⟨v, hv, rfl⟩)
    rw [censusOf_eq]
    exact ne_nil_of_mem (mem_map_of_mem hr)
  obtain ⟨x, hx, ha⟩ := exists_region_availability hcensus hp.degradedRegions
  rw [regionResults_censusOf] at hx
  obtain ⟨r, hr, rfl⟩ := mem_map.1 hx
  have hr := (perm_insertionSort _ _).mem_iff.1 hr
  have hc := tallyOf_counts r vs p.missingData
  have hg := countState_nonneg .good (ofRegion r vs)
  have hb := countState_nonneg .bad (ofRegion r vs)
  have hu := countState_nonneg .unknown (ofRegion r vs)
  refine ⟨fun h => ?_, fun h v hv => ?_, fun h => ?_, fun hmissing h => ?_⟩
  · exact exists_of_countState_pos (good_pos_of_regionResult_good hp hc hg hb hu (ha.trans h))
  · by_contra hs
    exact (chainRank_some (chainRank_aggregate (scope_pos (p := p) hv hs))).2.1 h
  · rcases hc.bad_grounds hg hb hu hp (ha.trans h) with hbad | ⟨hmissing, hunknown⟩
    · obtain ⟨v, hv, hs⟩ := exists_of_countState_pos hbad
      exact ⟨v, hv, .inl hs⟩
    · obtain ⟨v, hv, hs⟩ := exists_of_countState_pos hunknown
      exact ⟨v, hv, .inr ⟨hmissing, hs⟩⟩
  · exact hc.not_unknown hg hb hu (countState_total_pos hr) hmissing (ha.trans h)

theorem declared_of_mem_census {c : Tally} (h : c ∈ censusOf vs p) :
    c.declared = c.excludedDisabled + c.excludedMaintenance + c.ignored + c.good + c.bad +
      c.unknown := by
  rw [censusOf_eq] at h
  obtain ⟨r, -, rfl⟩ := mem_map.1 h
  have := (tallyOf_counts r vs p.missingData).eligible
  unfold Tally.eligible at this
  omega

end

/-! ## Members -/

section

variable {m : Member} {obs : List Observation} {spans : List MaintenanceSpan} {t : Int}

def Member.inMaintenance (m : Member) (spans : List MaintenanceSpan) (t : Int) : Bool :=
  spans.any fun sp => sp.covers m.monitorID t

/-- The observation of the member in force at `t` is up, and recent enough. -/
def Member.UpAt (m : Member) (obs : List Observation) (t : Int) : Prop :=
  ∃ o, Governs Observation.ts (obs.filter fun o => o.monitorID = m.monitorID) t o ∧ o.up ∧
    t < o.ts + m.staleAfter

theorem Member.stateAt_grounds : (((m.series obs).stateAt t spans true).1 = .good →
      m.enabled ∧ ¬m.inMaintenance spans t ∧ m.UpAt obs t) ∧
    (((m.series obs).stateAt t spans true).1 = .excluded →
      m.enabled = false ∨ m.inMaintenance spans t) := by
  unfold MemberSeries.stateAt
  by_cases hen : m.enabled
  · by_cases hcov : spans.any fun sp => sp.covers m.monitorID t
    · simp [series, inMaintenance, hcov]
    rw [if_neg (by simp [series, hen]), if_neg (by simpa [series] using hcov)]
    cases he : (m.series obs).evidenceAt t with
    | none => split_ifs <;> exact ⟨by simp, by simp⟩
    | some o =>
      have hlatest := MemberSeries.governs_of_latestAt (Option.filter_eq_some_iff.1 he).1
      dsimp only
      split_ifs with hstale _ hup
      · exact ⟨by simp, by simp⟩
      · exact ⟨by simp, by simp⟩
      · refine ⟨fun _ => ⟨hen, hcov, o, ⟨?_, hlatest.start_le, ?_⟩, hup, not_le.1 hstale⟩, by simp⟩
        · exact mem_sortObs.1 hlatest.mem
        · exact fun o' ho' => hlatest.latest o' (mem_sortObs.2 ho')
      · exact ⟨by simp, by simp⟩
  · simp [series, hen]

/-- **No outcome without a member behind it**, under a policy defaulted and accepted for the
declared members. The members of a region are counted once each. -/
theorem stateAt_grounded {members : List Member} {raw p : ServicePolicies}
    (hp : acceptPolicies raw (members.map region) = .ok p) (obs : List Observation)
    (spans : List MaintenanceSpan) (t : Int) :
    ((stateAt members obs spans p t).availability = .good →
      ∃ m ∈ members, m.enabled ∧ ¬m.inMaintenance spans t ∧ m.UpAt obs t) ∧
    ((stateAt members obs spans p t).availability = .excluded →
      ∀ m ∈ members, m.enabled = false ∨ m.inMaintenance spans t) ∧
    ((stateAt members obs spans p t).availability = .bad →
      ∃ m ∈ members, ((m.series obs).stateAt t spans true).1 = .bad ∨
        p.missingData = .bad ∧ ((m.series obs).stateAt t spans true).1 = .unknown) ∧
    (p.missingData = .bad → (stateAt members obs spans p t).availability ≠ .unknown) ∧
    ∀ c ∈ censusAt (buildSeries members obs) spans p t,
      c.declared = c.excludedDisabled + c.excludedMaintenance + c.ignored + c.good + c.bad +
        c.unknown := by
  obtain ⟨hregions, hvalid, -⟩ := acceptPolicies_ok hp
  have hne : members ≠ [] := fun h => hregions (by rw [h, map_nil])
  let vs := (buildSeries members obs).map fun s => s.verdictAt spans p t
  have hvs : ∀ {v}, v ∈ vs ↔ ∃ m ∈ members, (m.series obs).verdictAt spans p t = v := by
    simp [vs, buildSeries]
  have hstate : ∀ m : Member, ((m.series obs).verdictAt spans p t).state =
      ((m.series obs).stateAt t spans true).1 := by
    simp [MemberSeries.verdictAt, hvalid.maintenance]
  have heq : stateAt members obs spans p t = outcomeOf vs p := if_neg hne
  have hvs0 : vs ≠ [] := by simpa [vs, buildSeries] using hne
  obtain ⟨hgood, hexcluded, hbad, hunknown⟩ := outcomeOf_grounds hvalid hvs0
  rw [heq]
  refine ⟨fun h => ?_, fun h m hm => ?_, fun h => ?_, hunknown, fun c hc =>
    declared_of_mem_census hc⟩
  · obtain ⟨v, hv, hs⟩ := hgood h
    obtain ⟨m, hm, rfl⟩ := hvs.1 hv
    exact ⟨m, hm, stateAt_grounds.1 ((hstate m).symm.trans hs)⟩
  · have hs := hexcluded h _ (hvs.2 ⟨m, hm, rfl⟩)
    exact stateAt_grounds.2 ((hstate m).symm.trans hs)
  · obtain ⟨v, hv, hs⟩ := hbad h
    obtain ⟨m, hm, rfl⟩ := hvs.1 hv
    rw [hstate] at hs
    exact ⟨m, hm, hs⟩

def twoRegions : List Member :=
  [⟨"a", .http, "eu", true, 9, 0⟩, ⟨"b", .http, "us", false, 9, 0⟩]

theorem stateAt_grounded_defaults : ∃ m ∈ twoRegions,
    m.enabled ∧ ¬m.inMaintenance [] 5 ∧ m.UpAt [⟨"a", 1, true⟩] 5 := by
  have hp : acceptPolicies ⟨⟨.unset, 0, 0⟩, ⟨.unset, 0, 0⟩, .unset, .unset, ⟨0, 0⟩⟩
      (twoRegions.map region) =
        .ok ⟨⟨.all, 0, 0⟩, ⟨.perRegion, 1, 2⟩, .unknown, .exclude, defaultFreshnessPolicy⟩ := by
    decide +kernel
  exact (stateAt_grounded hp [⟨"a", 1, true⟩] [] 5).1 (by decide +kernel)

end

end Cerbix.Reliability
