import Cerbix.Reliability.Aggregate

/-!
# Aggregation is monotone in every member

A better member state never makes the service outcome worse, through both levels of clamped
thresholds and whatever the missing-data policy does (`aggregate_monotone_in_member`). A region
outside the excluded case is a number of the chain `(bad, down)`, `(unknown, unknown)`, `(good,
degraded)`, `(good, healthy)`: `regionRank` of its resolved counts (`chainRank_region`), which is
monotone in them (`regionRank_mono`).
-/

namespace Cerbix.Reliability

open Cerbix.Lib Cerbix.Domain List

def chainRank : Availability → Health → Option Nat
  | .bad, .down => some 0
  | .unknown, .unknown => some 1
  | .good, .degraded => some 2
  | .good, .healthy => some 3
  | _, _ => none

def Outcome.chainRank (o : Outcome) : Option Nat :=
  Reliability.chainRank o.availability o.health

def RegionResult.chainRank (r : RegionResult) : Option Nat :=
  Reliability.chainRank r.availability r.health

theorem chainRank_some {a : Availability} {h : Health} {i : Nat} (hi : chainRank a h = some i) :
    i ≤ 3 ∧ a ≠ .excluded ∧ (a = .good ↔ 2 ≤ i) ∧ (a = .unknown ↔ i = 1) ∧
      (h = .healthy ↔ i = 3) := by
  cases a <;> cases h <;> simp_all [chainRank] <;> omega

/-- A decided or undecided state is replaced by a better one. -/
inductive State.Better : State → State → Prop
  | badUnknown : Better .bad .unknown
  | badGood : Better .bad .good
  | unknownGood : Better .unknown .good

def outcomeOf (verdicts : List Verdict) (p : ServicePolicies) : Outcome :=
  aggregate (censusOf verdicts p) p

def countState (s : State) (vs : List Verdict) : Int := vs.countP fun v => v.state = s

theorem countState_nil (s : State) : countState s [] = 0 := rfl

theorem countState_cons (s : State) (v : Verdict) (vs : List Verdict) :
    countState s (v :: vs) = countState s vs + if v.state = s then 1 else 0 := by
  unfold countState
  split <;> simp_all

theorem countState_nonneg (s : State) (vs : List Verdict) : 0 ≤ countState s vs :=
  Int.natCast_nonneg _

open Tally

theorem foldl_record_counts (vs : List Verdict) : ∀ t : Tally, (vs.foldl record t).declared =
        t.declared + countState .good vs + countState .bad vs + countState .unknown vs +
          countState .excluded vs ∧
      (vs.foldl record t).excluded = t.excluded + countState .excluded vs ∧
      (vs.foldl record t).ignored = t.ignored ∧
      (vs.foldl record t).good = t.good + countState .good vs ∧
      (vs.foldl record t).bad = t.bad + countState .bad vs ∧
      (vs.foldl record t).unknown = t.unknown + countState .unknown vs := by
  induction vs with
  | nil => intro t; simp [countState_nil]
  | cons v vs ih =>
    intro t
    obtain ⟨h₁, h₂, h₃, h₄, h₅, h₆⟩ := ih (t.record v)
    rw [foldl_cons, h₁, h₂, h₃, h₄, h₅, h₆]
    simp only [countState_cons]
    cases hs : v.state <;> simp only [record, hs, excluded]
    case excluded => split <;> simp <;> omega
    all_goals simp; try omega

theorem foldl_resolve_counts (policy : MissingDataPolicy) (vs : List Verdict) : ∀ t : Tally,
    (vs.foldl (·.resolve policy ·) t).declared = t.declared ∧
      (vs.foldl (·.resolve policy ·) t).excluded = t.excluded ∧
      (vs.foldl (·.resolve policy ·) t).good = t.good ∧
      (vs.foldl (·.resolve policy ·) t).ignored =
        t.ignored + (if policy = .ignore then (vs.length : Int) else 0) ∧
      (vs.foldl (·.resolve policy ·) t).bad =
        t.bad + (if policy = .bad then (vs.length : Int) else 0) ∧
      (vs.foldl (·.resolve policy ·) t).unknown =
        t.unknown - (if policy = .ignore ∨ policy = .bad then (vs.length : Int) else 0) := by
  induction vs with
  | nil => intro t; simp
  | cons v vs ih =>
    intro t
    obtain ⟨h₁, h₂, h₃, h₄, h₅, h₆⟩ := ih (t.resolve policy v)
    rw [foldl_cons, h₁, h₂, h₃, h₄, h₅, h₆]
    cases policy <;> simp [resolve, excluded] <;> omega

/-- The numbers of a resolved tally, from the numbers of good, bad, undecided and excluded members
of its region. -/
structure Tally.Counts (t : Tally) (policy : MissingDataPolicy) (g b u x : Int) : Prop where
  declared : t.declared = g + b + u + x
  excluded : t.excluded = x
  good : t.good = g
  ignored : t.ignored = if policy = .ignore then u else 0
  bad : t.bad = b + if policy = .bad then u else 0
  unknown : t.unknown = u - if policy = .ignore ∨ policy = .bad then u else 0

theorem tallyOf_counts (r : String) (vs : List Verdict) (policy : MissingDataPolicy) :
    (tallyOf r vs policy).Counts policy (countState .good (ofRegion r vs))
      (countState .bad (ofRegion r vs)) (countState .unknown (ofRegion r vs))
      (countState .excluded (ofRegion r vs)) := by
  have hrec := foldl_record_counts (ofRegion r vs) (empty r)
  have hres := foldl_resolve_counts policy ((ofRegion r vs).filter fun v => v.state = .unknown)
    ((ofRegion r vs).foldl record (empty r))
  have hk : (((ofRegion r vs).filter fun v => v.state = .unknown).length : Int) =
      countState .unknown (ofRegion r vs) := by
    rw [countState, countP_eq_length_filter]
  rw [hk] at hres
  obtain ⟨h₁, h₂, h₃, h₄, h₅, h₆⟩ := hrec
  obtain ⟨k₁, k₂, k₃, k₄, k₅, k₆⟩ := hres
  rw [h₁] at k₁
  rw [h₂] at k₂
  rw [h₄] at k₃
  rw [h₃] at k₄
  rw [h₅] at k₅
  rw [h₆] at k₆
  simp only [empty, excluded, zero_add] at k₁ k₂ k₃ k₄ k₅ k₆
  exact ⟨k₁, k₂, k₃, k₄, k₅, k₆⟩

/-! ## One region -/

/-- The rank of a region that is not out of scope, from its eligible, good, bad and undecided
numbers. -/
def regionRank (a : AggregationPolicy) (n g b u : Int) : Nat :=
  if n = 0 then 1
  else
    match a.mode with
    | .all => if 0 < b then 0 else if 0 < u then 1 else 3
    | .any => if 0 < g then 3 else if b = n then 0 else 1
    | _ =>
      if min a.degradedMin n ≤ g then if min a.healthyMin n ≤ g then 3 else 2
      else if min a.degradedMin n ≤ g + u then 1 else 0

def regionResult (t : Tally) (p : ServicePolicies) : RegionResult :=
  ⟨(aggregateRegion t p).1, (aggregateRegion t p).2.1⟩

variable {p : ServicePolicies} {ts : List Tally} {t : Tally}

theorem regionResult_excluded_iff : (regionResult t p).availability = .excluded ↔
      t.eligible = 0 ∧ ¬ 0 < t.ignored ∧ t.excluded = t.declared ∧ 0 < t.declared := by
  unfold regionResult aggregateRegion
  simp only
  split
  · next h =>
    split
    · next hi => simp [hi]
    · next hi => split <;> simp_all
  · next h =>
    simp only [h, false_and]
    split
    · split
      · simp
      · split <;> simp
    · split
      · simp
      · split <;> simp
    · split
      · split <;> simp
      · split <;> simp

theorem chainRank_region (h : (regionResult t p).availability ≠ .excluded) :
    (regionResult t p).chainRank =
      some (regionRank p.aggregation t.eligible t.good t.bad t.unknown) := by
  unfold regionResult aggregateRegion RegionResult.chainRank regionRank at *
  simp only at *
  split
  · next hn =>
    simp only [hn] at h ⊢
    split
    · rfl
    · next hi =>
      simp only [hi] at h
      split
      · next he => simp [he] at h
      · rfl
  · cases p.aggregation.mode <;> dsimp only <;> split_ifs <;> rfl

/-- **The rank of a region is monotone in its counts**, with the eligible number unchanged or with
no undecided member on either side. -/
theorem regionRank_mono {a : AggregationPolicy} (ha : a.mode = .quorum → 1 ≤ a.degradedMin)
    (hmode : a.mode = .all ∨ a.mode = .any ∨ a.mode = .quorum)
    (g b u g' b' u' : Int) (hb : 0 ≤ b') (hg : 0 ≤ g) (hu : 0 ≤ u) (hu' : 0 ≤ u') (hgg : g ≤ g')
    (hbb : b' ≤ b) (hn : g + b + u = g' + b' + u' ∨ (u = 0 ∧ u' = 0)) :
    regionRank a (g + b + u) g b u ≤ regionRank a (g' + b' + u') g' b' u' := by
  unfold regionRank
  rcases hmode with h | h | h
  · simp only [h]
    split_ifs <;> omega
  · simp only [h]
    split_ifs <;> omega
  · have hd := ha h
    simp only [h]
    split_ifs <;> omega

section Region

variable {t t' : Tally} {p : ServicePolicies} {g b u x g' b' u' x' : Int}

theorem Tally.Counts.eligible (h : t.Counts p.missingData g b u x) :
    t.eligible = t.good + t.bad + t.unknown := by
  have he : t.eligible = t.declared - t.excluded - t.ignored := by
    unfold Tally.eligible Tally.excluded
    omega
  rw [he, h.declared, h.excluded, h.good, h.ignored, h.bad, h.unknown]
  cases p.missingData <;> simp only [reduceCtorEq, or_self, or_true, true_or, if_false]
  all_goals omega

theorem Tally.Counts.excluded_iff (h : t.Counts p.missingData g b u x) (hg : 0 ≤ g) (hb : 0 ≤ b)
    (hu : 0 ≤ u) : (regionResult t p).availability = .excluded ↔ g + b + u = 0 ∧ 0 < x := by
  rw [regionResult_excluded_iff, h.eligible, h.declared, h.excluded, h.good, h.ignored, h.bad,
    h.unknown]
  cases p.missingData <;> simp <;> omega

/-- A region is at least as well off: out of scope on both sides, or higher in the chain. -/
def RegionResult.Le (a b : RegionResult) : Prop :=
  (a.availability = .excluded ∧ b.availability = .excluded) ∨
    ∃ i j, a.chainRank = some i ∧ b.chainRank = some j ∧ i ≤ j

theorem RegionResult.Le.refl (t : Tally) (p : ServicePolicies) :
    (regionResult t p).Le (regionResult t p) := by
  by_cases h : (regionResult t p).availability = .excluded
  · exact .inl ⟨h, h⟩
  · exact .inr ⟨_, _, chainRank_region h, chainRank_region h, le_rfl⟩

variable {d : List (String × Int)} {n : Int}

theorem regionResult_mono (hp : p.Valid d n)
    (h : t.Counts p.missingData g b u x) (h' : t'.Counts p.missingData g' b' u' x)
    (hg : 0 ≤ g) (hu : 0 ≤ u) (hb' : 0 ≤ b') (hu' : 0 ≤ u') (hgg : g ≤ g') (hbb : b' ≤ b)
    (htotal : g + b + u = g' + b' + u') : (regionResult t p).Le (regionResult t' p) := by
  by_cases he : (regionResult t p).availability = .excluded
  · have hz := (h.excluded_iff hg (by omega) hu).1 he
    exact .inl ⟨he, (h'.excluded_iff (by omega) hb' hu').2 (by omega)⟩
  · have he' : (regionResult t' p).availability ≠ .excluded := by
      rw [Ne, h'.excluded_iff (by omega) hb' hu']
      rw [h.excluded_iff hg (by omega) hu] at he
      omega
    refine .inr ⟨_, _, chainRank_region he, chainRank_region he', ?_⟩
    rw [h.eligible, h'.eligible, h.good, h'.good, h.bad, h'.bad, h.unknown, h'.unknown]
    have hmono := fun B U B' U' => regionRank_mono (fun hq => (hp.quorum hq).1) hp.mode
      g B U g' B' U'
    cases p.missingData
    case ignore => simpa using hmono b 0 b' 0 hb' hg le_rfl le_rfl hgg hbb (.inr ⟨rfl, rfl⟩)
    case bad =>
      simpa using hmono (b + u) 0 (b' + u') 0 (by omega) hg le_rfl le_rfl hgg (by omega)
        (.inr ⟨rfl, rfl⟩)
    all_goals simpa using hmono b u b' u' hb' hg hu hu' hgg hbb (.inl htotal)

theorem good_pos_of_regionResult_good (hp : p.Valid d n)
    (h : t.Counts p.missingData g b u x) (hg : 0 ≤ g) (hb : 0 ≤ b) (hu : 0 ≤ u)
    (hgood : (regionResult t p).availability = .good) : 0 < g := by
  have he : (regionResult t p).availability ≠ .excluded := by simp [hgood]
  have hrank := (chainRank_some (chainRank_region he)).2.2.1.1 hgood
  have hpos : 0 ≤ t.bad ∧ 0 ≤ t.unknown := by
    rw [h.bad, h.unknown]
    cases p.missingData <;> simp <;> omega
  rw [h.eligible, h.good] at hrank
  unfold regionRank at hrank
  rcases hp.mode with hm | hm | hm
  · simp only [hm] at hrank
    split_ifs at hrank <;> omega
  · simp only [hm] at hrank
    split_ifs at hrank <;> omega
  · have := (hp.quorum hm).1
    simp only [hm] at hrank
    split_ifs at hrank <;> omega

theorem regionResult_good (hp : p.Valid d n)
    (h : t.Counts p.missingData g b u x) (h' : t'.Counts p.missingData g b' u' x')
    (hg : 0 ≤ g) (hb : 0 ≤ b') (hu : 0 ≤ u') (hbb : b' ≤ b) (huu : u' ≤ u)
    (hgood : (regionResult t p).availability = .good) :
    (regionResult t' p).availability = .good := by
  have he : (regionResult t p).availability ≠ .excluded := by simp [hgood]
  have hrank := (chainRank_some (chainRank_region he)).2.2.1.1 hgood
  have hpos := good_pos_of_regionResult_good hp h hg (by omega) (by omega) hgood
  -- so it stays in scope
  have he' : (regionResult t' p).availability ≠ .excluded := by
    rw [Ne, h'.excluded_iff hg hb hu]
    omega
  have hshrink : t'.good = t.good ∧ 0 < t.good ∧ 0 ≤ t'.bad ∧ t'.bad ≤ t.bad ∧ 0 ≤ t'.unknown ∧
      t'.unknown ≤ t.unknown := by
    rw [h.good, h'.good, h.bad, h'.bad, h.unknown, h'.unknown]
    cases p.missingData <;> simp <;> omega
  refine (chainRank_some (chainRank_region he')).2.2.1.2 ?_
  rw [h.eligible] at hrank
  rw [h'.eligible]
  unfold regionRank at hrank ⊢
  rcases hp.mode with hm | hm | hm
  · simp only [hm] at hrank ⊢
    split_ifs at hrank ⊢ <;> omega
  · simp only [hm] at hrank ⊢
    split_ifs at hrank ⊢ <;> omega
  · simp only [hm] at hrank ⊢
    split_ifs at hrank ⊢ <;> omega

end Region

/-! ## The service -/

theorem countP_le_of_forall₂ {α : Type*} {R : α → α → Prop} {q q' : α → Bool} {l l' : List α}
    (h : List.Forall₂ R l l') (hq : ∀ a b, R a b → q a → q' b) : l.countP q ≤ l'.countP q' := by
  induction h with
  | nil => simp
  | @cons a b l l' hab _ ih =>
    rw [countP_cons, countP_cons]
    have := hq a b hab
    split_ifs
    · omega
    · simp_all
    · omega
    · omega

/-- The rank of a service with `n` regions in scope, of which `g` serve, `u` are undecided and `h`
are healthy. -/
def serviceRank (r : RegionAggregationPolicy) (n g u h : Int) : Nat :=
  if min r.degradedMinRegions n ≤ g then if min r.healthyMinRegions n ≤ h then 3 else 2
  else if min r.degradedMinRegions n ≤ g + u then 1 else 0

theorem chainRank_combineCounts {r : RegionAggregationPolicy} (weakened : List Weakened)
    {n g u h : Int} (hn : n ≠ 0) :
    (combineCounts r weakened n g u h).chainRank = some (serviceRank r n g u h) := by
  unfold combineCounts serviceRank
  rw [if_neg hn]
  split_ifs <;> rfl

def countIn (rs : List RegionResult) (q : RegionResult → Bool) : Nat :=
  rs.countP fun x => q x && decide (x.availability ≠ .excluded)

variable (rs : List RegionResult)

theorem countIn_le {q : RegionResult → Bool} : countIn rs q ≤ countIn rs fun _ => true := by
  refine countP_mono_left fun x _ h => ?_
  simp_all

theorem countIn_good_or_unknown :
    countIn rs (fun x => x.availability = .good || x.availability = .unknown) =
      countIn rs (fun x => x.availability = .good) +
        countIn rs fun x => x.availability = .unknown := by
  unfold countIn
  induction rs with
  | nil => rfl
  | cons x rs ih =>
    simp only [countP_cons, ih]
    cases x.availability <;> simp <;> omega

theorem chainRank_aggregate (h : 0 < countIn (regionResults ts p) fun _ => true) :
    (aggregate ts p).chainRank =
      some (serviceRank p.region (countIn (regionResults ts p) fun _ => true)
        (countIn (regionResults ts p) fun x => x.availability = .good)
        (countIn (regionResults ts p) fun x => x.availability = .unknown)
        (countIn (regionResults ts p) fun x => x.health = .healthy)) := by
  have hne : ts ≠ [] := by
    rintro rfl
    simp [countIn, regionResults] at h
  have hscope : ((regionResults ts p).all fun x => x.availability = .excluded) = false := by
    obtain ⟨x, hx, hxe⟩ := countP_pos_iff.1 h
    rw [all_eq_false]
    exact ⟨x, hx, by simpa using hxe⟩
  have hlen : ((regionResults ts p).filter fun x => x.availability ≠ .excluded).length =
      countIn (regionResults ts p) fun _ => true := by
    rw [← countP_eq_length_filter]
    simp [countIn]
  unfold aggregate combineRegions
  simp only [hne, hscope, countP_filter, hlen]
  exact chainRank_combineCounts _ (by omega)

/-- **Better regions make a better service**, over any number of them. -/
theorem aggregate_mono {ts' : List Tally}
    (h : List.Forall₂ RegionResult.Le (regionResults ts p) (regionResults ts' p))
    (hscope : 0 < countIn (regionResults ts p) fun _ => true) :
    ∃ i j, (aggregate ts p).chainRank = some i ∧ (aggregate ts' p).chainRank = some j ∧ i ≤ j := by
  have hle : ∀ q q' : RegionResult → Bool,
      (∀ a b i j, a.chainRank = some i → b.chainRank = some j → i ≤ j → q a → q' b) →
      countIn (regionResults ts p) q ≤ countIn (regionResults ts' p) q' := by
    intro q q' hq
    refine countP_le_of_forall₂ h fun a b hab hqa => ?_
    simp only [Bool.and_eq_true, decide_eq_true_eq] at hqa ⊢
    rcases hab with ⟨ha, -⟩ | ⟨i, j, hi, hj, hij⟩
    · exact absurd ha hqa.2
    · exact ⟨hq a b i j hi hj hij hqa.1, (chainRank_some hj).2.1⟩
  have hn : countIn (regionResults ts' p) (fun _ => true) ≤
      countIn (regionResults ts p) fun _ => true := by
    refine countP_le_of_forall₂ h.flip fun b a hab hqb => ?_
    simp only [Bool.true_and, decide_eq_true_eq] at hqb ⊢
    rcases hab with ⟨-, hb⟩ | ⟨i, j, hi, hj, hij⟩
    · exact absurd hb hqb
    · exact (chainRank_some hi).2.1
  have hn' := hle (fun _ => true) (fun _ => true) fun _ _ _ _ _ _ _ _ => rfl
  have hg := hle (fun x => x.availability = .good) (fun x => x.availability = .good) (by
    intro a b i j hi hj hij ha
    have h₁ := (chainRank_some hi).2.2.1
    have h₂ := (chainRank_some hj).2.2.1
    simp only [decide_eq_true_eq] at ha ⊢
    exact h₂.2 (le_trans (h₁.1 ha) hij))
  have hh := hle (fun x => x.health = .healthy) (fun x => x.health = .healthy) (by
    intro a b i j hi hj hij ha
    have h₁ := (chainRank_some hi).2.2.2.2
    obtain ⟨hj₃, -, -, -, h₂⟩ := chainRank_some hj
    simp only [decide_eq_true_eq] at ha ⊢
    have := h₁.1 ha
    exact h₂.2 (by omega))
  have hgu := hle (fun x => x.availability = .good || x.availability = .unknown)
    (fun x => x.availability = .good || x.availability = .unknown) (by
    intro a b i j hi hj hij ha
    obtain ⟨-, -, g₁, u₁, -⟩ := chainRank_some hi
    obtain ⟨-, -, g₂, u₂, -⟩ := chainRank_some hj
    simp only [Bool.or_eq_true, decide_eq_true_eq] at ha ⊢
    rw [g₁, u₁] at ha
    rw [g₂, u₂]
    omega)
  rw [countIn_good_or_unknown, countIn_good_or_unknown] at hgu
  refine ⟨_, _, chainRank_aggregate hscope, chainRank_aggregate (by omega), ?_⟩
  unfold serviceRank
  split_ifs <;> omega

theorem no_scope_iff {rs : List RegionResult} :
    ¬0 < countIn rs (fun _ => true) ↔ ∀ x ∈ rs, x.availability = .excluded := by
  simp [countIn]

theorem availability_of_no_scope (h : ¬0 < countIn (regionResults ts p) fun _ => true) :
    (aggregate ts p).availability = if ts = [] then .unknown else .excluded := by
  have hall : (regionResults ts p).all fun x => x.availability = .excluded := by
    simpa using no_scope_iff.1 h
  unfold aggregate
  split
  · rfl
  · simp [hall]

theorem aggregate_good_iff : (aggregate ts p).availability = .good ↔
      0 < countIn (regionResults ts p) (fun _ => true) ∧
        min p.region.degradedMinRegions (countIn (regionResults ts p) fun _ => true) ≤
          countIn (regionResults ts p) fun x => x.availability = .good := by
  by_cases h : 0 < countIn (regionResults ts p) fun _ => true
  · rw [(chainRank_some (chainRank_aggregate h)).2.2.1, serviceRank]
    split_ifs <;> simp_all
  · rw [availability_of_no_scope h]
    split <;> simp [h]

/-! ## Replacing one verdict -/

theorem regionResults_censusOf (vs : List Verdict) (p : ServicePolicies) :
    regionResults (censusOf vs p) p = ((regionsOf vs).insertionSort (· ≤ ·)).map
        fun r => regionResult (tallyOf r vs p.missingData) p := by
  rw [censusOf_eq, regionResults, map_map]
  rfl

section Replace

variable {l rest : List Verdict} {v v' : Verdict}

theorem countState_replace (s : State) (r : String) : countState s (ofRegion r (l ++ v :: rest)) =
      countState s (ofRegion r l) + countState s (ofRegion r rest) +
        if v.member.region = r ∧ v.state = s then 1 else 0 := by
  unfold countState ofRegion
  by_cases hr : v.member.region = r
  · by_cases hs : v.state = s
    · simp [hr, hs]; omega
    · simp [hr, hs]
  · simp [hr]

theorem regionsOf_replace (hr : v'.member.region = v.member.region) :
    regionsOf (l ++ v' :: rest) = regionsOf (l ++ v :: rest) := by
  simp [regionsOf, hr]

variable {p : ServicePolicies}

variable (l rest) in
theorem forall₂_replace {R : RegionResult → RegionResult → Prop}
    (hr : v'.member.region = v.member.region)
    (h : ∀ r, R (regionResult (tallyOf r (l ++ v :: rest) p.missingData) p)
      (regionResult (tallyOf r (l ++ v' :: rest) p.missingData) p)) :
    List.Forall₂ R (regionResults (censusOf (l ++ v :: rest) p) p)
      (regionResults (censusOf (l ++ v' :: rest) p) p) := by
  rw [regionResults_censusOf, regionResults_censusOf, regionsOf_replace hr,
    forall₂_map_left_iff, forall₂_map_right_iff, forall₂_same]
  exact fun r _ => h r

variable {vs : List Verdict} {d : List (String × Int)}

theorem countState_pos (hv : v ∈ vs) : 0 < countState v.state (ofRegion v.member.region vs) :=
  Int.natCast_pos.2 (countP_pos_iff.2 ⟨v, mem_filter.2 ⟨hv, by simp⟩, by simp⟩)

theorem scope_pos (hv : v ∈ vs) (he : v.state ≠ .excluded) :
    0 < countIn (regionResults (censusOf vs p) p) fun _ => true := by
  unfold countIn
  rw [countP_pos_iff, regionResults_censusOf]
  refine ⟨_, mem_map_of_mem ((perm_insertionSort _ _).mem_iff.2 (mem_regionsOf.2 ⟨v, hv, rfl⟩)), ?_⟩
  have hpos := countState_pos hv
  have hg := countState_nonneg .good (ofRegion v.member.region vs)
  have hb := countState_nonneg .bad (ofRegion v.member.region vs)
  have hu := countState_nonneg .unknown (ofRegion v.member.region vs)
  have hcounts := tallyOf_counts v.member.region vs p.missingData
  simp only [Bool.true_and, decide_eq_true_eq, Ne, hcounts.excluded_iff hg hb hu]
  cases hs : v.state <;> rw [hs] at hpos he
  case excluded => exact absurd rfl he
  all_goals omega

theorem outcomeOf_mono {n : Int}
    (hp : p.Valid d n) (hr : v'.member.region = v.member.region) (hs : v.state.Better v'.state) :
    ∃ i j, (outcomeOf (l ++ v :: rest) p).chainRank = some i ∧
      (outcomeOf (l ++ v' :: rest) p).chainRank = some j ∧ i ≤ j := by
  have hne : v.state ≠ .excluded := by rintro h; rw [h] at hs; cases hs
  refine aggregate_mono (forall₂_replace l rest hr fun r => ?_) (scope_pos (by simp) hne)
  by_cases hreg : v.member.region = r
  · have hcount : ∀ s, countState s (ofRegion r (l ++ v' :: rest)) =
        countState s (ofRegion r (l ++ v :: rest)) + (if v'.state = s then 1 else 0) -
          if v.state = s then 1 else 0 := by
      intro s
      rw [countState_replace, countState_replace, hr, hreg]
      simp only [true_and]
      omega
    have hg := countState_nonneg .good (ofRegion r (l ++ v :: rest))
    have hu := countState_nonneg .unknown (ofRegion r (l ++ v :: rest))
    have hb' := countState_nonneg .bad (ofRegion r (l ++ v' :: rest))
    have hu' := countState_nonneg .unknown (ofRegion r (l ++ v' :: rest))
    have h := tallyOf_counts r (l ++ v :: rest) p.missingData
    have h' := tallyOf_counts r (l ++ v' :: rest) p.missingData
    have hG := hcount .good
    have hB := hcount .bad
    have hU := hcount .unknown
    have hX := hcount .excluded
    generalize v.state = s at hs hG hB hU hX
    generalize v'.state = s' at hs hG hB hU hX
    have hx : countState .excluded (ofRegion r (l ++ v' :: rest)) =
        countState .excluded (ofRegion r (l ++ v :: rest)) := by
      cases hs <;> simpa using hX
    rw [hx] at h'
    refine regionResult_mono hp h h' hg hu hb' hu' ?_ ?_ ?_ <;> cases hs <;>
      simp only [reduceCtorEq, if_false] at hG hB hU <;> omega
  · have hsame : tallyOf r (l ++ v' :: rest) p.missingData =
        tallyOf r (l ++ v :: rest) p.missingData := by
      have : ofRegion r (l ++ v' :: rest) = ofRegion r (l ++ v :: rest) := by
        simp [ofRegion, hr, hreg]
      simp only [tallyOf, this]
    rw [hsame]
    exact RegionResult.Le.refl _ _

theorem outcomeOf_good_of_excluded {n : Int}
    (hp : p.Valid d n) (hr : v'.member.region = v.member.region) (hv : v.state ≠ .good)
    (hv' : v'.state = .excluded) (hgood : (outcomeOf (l ++ v :: rest) p).availability = .good) :
    (outcomeOf (l ++ v' :: rest) p).availability = .good := by
  -- region by region: what serves keeps serving, and what was out of scope stays out of scope
  have hregion : ∀ r,
      ((regionResult (tallyOf r (l ++ v :: rest) p.missingData) p).availability = .good →
        (regionResult (tallyOf r (l ++ v' :: rest) p.missingData) p).availability = .good) ∧
      ((regionResult (tallyOf r (l ++ v :: rest) p.missingData) p).availability = .excluded →
        (regionResult (tallyOf r (l ++ v' :: rest) p.missingData) p).availability = .excluded) := by
    intro r
    have h := tallyOf_counts r (l ++ v :: rest) p.missingData
    have h' := tallyOf_counts r (l ++ v' :: rest) p.missingData
    have hle : ∀ s, s ≠ .excluded → countState s (ofRegion r (l ++ v' :: rest)) ≤
        countState s (ofRegion r (l ++ v :: rest)) := by
      intro s hs
      rw [countState_replace, countState_replace, hv', if_neg (fun h => hs h.2.symm)]
      split_ifs <;> omega
    have hG : countState .good (ofRegion r (l ++ v' :: rest)) =
        countState .good (ofRegion r (l ++ v :: rest)) := by
      rw [countState_replace, countState_replace, hv']
      simp [hv]
    have hX : countState .excluded (ofRegion r (l ++ v :: rest)) ≤
        countState .excluded (ofRegion r (l ++ v' :: rest)) := by
      rw [countState_replace, countState_replace]
      split_ifs <;> simp_all
    have hB := hle .bad (by simp)
    have hU := hle .unknown (by simp)
    have hg := countState_nonneg .good (ofRegion r (l ++ v :: rest))
    have hb := countState_nonneg .bad (ofRegion r (l ++ v' :: rest))
    have hu := countState_nonneg .unknown (ofRegion r (l ++ v' :: rest))
    rw [hG] at h'
    refine ⟨regionResult_good hp h h' hg hb hu hB hU, fun he => ?_⟩
    have hz := (h.excluded_iff hg (by omega) (by omega)).1 he
    exact (h'.excluded_iff hg hb hu).2 (by omega)
  have hall := forall₂_replace l rest (p := p)
    (R := fun a b => (a.availability = .good → b.availability = .good) ∧
      (a.availability = .excluded → b.availability = .excluded)) hr hregion
  have hgr : countIn (regionResults (censusOf (l ++ v :: rest) p) p)
        (fun x => x.availability = .good) ≤
      countIn (regionResults (censusOf (l ++ v' :: rest) p) p) fun x => x.availability = .good := by
    refine countP_le_of_forall₂ hall fun a b hab ha => ?_
    simp only [Bool.and_eq_true, decide_eq_true_eq] at ha ⊢
    exact ⟨hab.1 ha.1, by simp [hab.1 ha.1]⟩
  have hscope : countIn (regionResults (censusOf (l ++ v' :: rest) p) p) (fun _ => true) ≤
      countIn (regionResults (censusOf (l ++ v :: rest) p) p) fun _ => true := by
    refine countP_le_of_forall₂ hall.flip fun b a hab hb => ?_
    simp only [Bool.true_and, decide_eq_true_eq] at hb ⊢
    exact fun ha => hb (hab.2 ha)
  rw [outcomeOf, aggregate_good_iff] at hgood ⊢
  have hle := countIn_le (regionResults (censusOf (l ++ v' :: rest) p) p)
    (q := fun x => x.availability = .good)
  have := hp.degradedRegions
  omega

end Replace

/-! ## Uniform assignments -/

section

variable {p : ServicePolicies} {vs : List Verdict}

theorem countState_eq_zero {s : State} (h : ∀ v ∈ vs, v.state ≠ s) (r : String) :
    countState s (ofRegion r vs) = 0 := by
  unfold countState
  rw [countP_eq_zero.2]
  · rfl
  · intro v hv
    simpa using h v (mem_filter.1 hv).1

theorem outcomeOf_good_of_all_good (hne : vs ≠ []) (h : ∀ v ∈ vs, v.state = .good)
    (hr : p.aggregation.mode = .all ∨ p.aggregation.mode = .any ∨ p.aggregation.mode = .quorum) :
    (outcomeOf vs p).availability = .good := by
  have hregion : ∀ x ∈ regionResults (censusOf vs p) p, x.availability = .good := by
    intro x hx
    rw [regionResults_censusOf] at hx
    obtain ⟨r, hmem, rfl⟩ := mem_map.1 hx
    obtain ⟨v, hv, hvr⟩ := mem_regionsOf.1 ((perm_insertionSort _ _).mem_iff.1 hmem)
    have hc := tallyOf_counts r vs p.missingData
    rw [countState_eq_zero (s := .bad) fun v hv => by simp [h v hv],
      countState_eq_zero (s := .unknown) fun v hv => by simp [h v hv]] at hc
    have hg : 0 < countState .good (ofRegion r vs) := by
      rw [← h v hv, ← hvr]
      exact countState_pos hv
    have he : (regionResult (tallyOf r vs p.missingData) p).availability ≠ .excluded := by
      rw [Ne, hc.excluded_iff hg.le le_rfl le_rfl]
      omega
    refine (chainRank_some (chainRank_region he)).2.2.1.2 ?_
    have hzero : (tallyOf r vs p.missingData).bad = 0 ∧
        (tallyOf r vs p.missingData).unknown = 0 := by
      rw [hc.bad, hc.unknown]
      cases p.missingData <;> simp
    rw [hc.eligible, hzero.2, hc.good]
    unfold regionRank
    rcases hr with hm | hm | hm <;> simp only [hm] <;> split_ifs <;> omega
  have hall : countIn (regionResults (censusOf vs p) p) (fun x => x.availability = .good) =
      countIn (regionResults (censusOf vs p) p) fun _ => true :=
    countP_congr fun x hx => by simp [hregion x hx]
  obtain ⟨v, hv⟩ := exists_mem_of_ne_nil vs hne
  rw [outcomeOf, aggregate_good_iff, hall]
  exact ⟨scope_pos hv (by simp [h v hv]), min_le_right _ _⟩

end

/-- **Aggregation is monotone in every member** under an accepted policy; and excluding a member
that is not good keeps a serving service serving. -/
theorem aggregate_monotone_in_member (p : ServicePolicies) (declared : List (String × Int))
    (expected : Int) (hp : validateServicePolicies p declared expected = .ok ())
    (before after : List Verdict) (v v' : Verdict) (hr : v'.member.region = v.member.region) :
    (v.state.Better v'.state → ∃ i j, (outcomeOf (before ++ v :: after) p).chainRank = some i ∧
        (outcomeOf (before ++ v' :: after) p).chainRank = some j ∧ i ≤ j) ∧
    (v.state ≠ .good → v'.state = .excluded →
      (outcomeOf (before ++ v :: after) p).availability = .good →
        (outcomeOf (before ++ v' :: after) p).availability = .good) :=
  have hv := validateServicePolicies_eq_ok_iff.1 hp
  ⟨outcomeOf_mono hv hr, outcomeOf_good_of_excluded hv hr⟩

def quorumPolicies : ServicePolicies where
  aggregation := ⟨.quorum, 1, 2⟩
  region := ⟨.perRegion, 1, 2⟩
  missingData := .ignore
  maintenance := .exclude
  freshness := defaultFreshnessPolicy

theorem aggregate_monotone_quorum : (∃ i j,
      (outcomeOf [⟨⟨"a", .http, "eu", true, 1, 0⟩, .good, .unset⟩,
        ⟨⟨"b", .http, "eu", true, 1, 0⟩, .bad, .unset⟩,
        ⟨⟨"c", .http, "us", true, 1, 0⟩, .unknown, .stale⟩] quorumPolicies).chainRank = some i ∧
      (outcomeOf [⟨⟨"a", .http, "eu", true, 1, 0⟩, .good, .unset⟩,
        ⟨⟨"b", .http, "eu", true, 1, 0⟩, .unknown, .stale⟩,
        ⟨⟨"c", .http, "us", true, 1, 0⟩, .unknown, .stale⟩] quorumPolicies).chainRank = some j ∧
      i ≤ j) ∧ (outcomeOf [⟨⟨"a", .http, "eu", true, 1, 0⟩, .good, .unset⟩,
      ⟨⟨"b", .http, "eu", true, 1, 0⟩, .excluded, .unset⟩,
      ⟨⟨"c", .http, "us", true, 1, 0⟩, .unknown, .stale⟩] quorumPolicies).availability = .good :=
  ⟨(aggregate_monotone_in_member quorumPolicies [("eu", 2), ("us", 2)] 2 (by decide)
      [⟨⟨"a", .http, "eu", true, 1, 0⟩, .good, .unset⟩]
      [⟨⟨"c", .http, "us", true, 1, 0⟩, .unknown, .stale⟩]
      ⟨⟨"b", .http, "eu", true, 1, 0⟩, .bad, .unset⟩
      ⟨⟨"b", .http, "eu", true, 1, 0⟩, .unknown, .stale⟩ rfl).1 .badUnknown,
    (aggregate_monotone_in_member quorumPolicies [("eu", 2), ("us", 2)] 2 (by decide)
      [⟨⟨"a", .http, "eu", true, 1, 0⟩, .good, .unset⟩]
      [⟨⟨"c", .http, "us", true, 1, 0⟩, .unknown, .stale⟩]
      ⟨⟨"b", .http, "eu", true, 1, 0⟩, .bad, .unset⟩
      ⟨⟨"b", .http, "eu", true, 1, 0⟩, .excluded, .unset⟩ rfl).2 (by decide) rfl (by decide)⟩

end Cerbix.Reliability
