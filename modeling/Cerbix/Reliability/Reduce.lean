import Cerbix.Reliability.Aggregate
import Cerbix.Lib.Sweep

/-!
# The piecewise reducer

`internal/reliability/reduce.go`. The loop of `reduce` reads the census at the break points
(`Lib.pieces`), and its step is additive in the length of a piece: durations add up, and the
provenance of a second piece with the same census is already there (`reduceStep_additive`). So the
loop reads every instant of the bucket (`reduceLoop_eq_sweep`), and its result is a function of the
census over the bucket, wherever its break points lie (`reduce_congr`).
-/

namespace Cerbix.Reliability

open Cerbix.Lib Cerbix.Domain List

def MemberCause.key (m : MemberCause) : String :=
  m.monitorID ++ "|" ++ m.region ++ "|" ++ m.reason.text

/-- The causes that are kept, those seen, and how many did not fit. -/
structure Causes where
  kept : List MemberCause
  seen : List String
  overflow : Nat
  deriving DecidableEq, Repr

def Causes.addOne (c : Causes) (m : MemberCause) : Causes :=
  if m.key ∈ c.seen then c
  else if maxCauses ≤ c.kept.length then
    { c with seen := m.key :: c.seen, overflow := c.overflow + 1 }
  else { c with seen := m.key :: c.seen, kept := c.kept ++ [m] }

open Causes

def Causes.add (c : Causes) (ms : List MemberCause) : Causes := ms.foldl addOne c

/-- Deduplicated causes, each class bounded by `maxCauses`. -/
structure CauseSet where
  bad : List MemberCause
  unknown : List MemberCause
  excluded : List MemberCause
  seenBad : List String
  seenUnknown : List String
  seenExcluded : List String
  overflow : Nat
  deriving DecidableEq, Repr

variable (c : CauseSet)

namespace CauseSet

def new : CauseSet := ⟨[], [], [], [], [], [], 0⟩

def addBad (ms : List MemberCause) : CauseSet :=
  let r := add ⟨c.bad, c.seenBad, c.overflow⟩ ms
  { c with bad := r.kept, seenBad := r.seen, overflow := r.overflow }

def addUnknown (ms : List MemberCause) : CauseSet :=
  let r := add ⟨c.unknown, c.seenUnknown, c.overflow⟩ ms
  { c with unknown := r.kept, seenUnknown := r.seen, overflow := r.overflow }

def addExcluded (ms : List MemberCause) : CauseSet :=
  let r := add ⟨c.excluded, c.seenExcluded, c.overflow⟩ ms
  { c with excluded := r.kept, seenExcluded := r.seen, overflow := r.overflow }

def collect (a : Availability) (tallies : List Tally) : CauseSet :=
  match a with
  | .bad => tallies.foldl (fun c t => c.addBad t.badCauses) c
  | .unknown => tallies.foldl (fun c t => c.addUnknown t.unknownCauses) c
  | .excluded => tallies.foldl (fun c t => c.addExcluded t.excludedCauses) c
  | .good => c

end CauseSet

/-- One record per region: a clamp is reported once, with the widest gap. -/
def mergeOne (w : Weakened) : List Weakened → List Weakened
  | [] => [w]
  | a :: rest =>
    if a.region ≠ w.region then a :: mergeOne w rest
    else if w.effectiveDegraded < a.effectiveDegraded ∨ w.effectiveHealthy < a.effectiveHealthy then
      w :: rest
    else a :: rest

def mergeWeakened (acc ws : List Weakened) : List Weakened :=
  ws.foldl (fun acc w => mergeOne w acc) acc

/-- All that a bucket is computed from. -/
structure Input where
  start : Int
  stop : Int
  members : List Member
  observations : List Observation
  maintenance : List MaintenanceSpan
  policies : ServicePolicies
  deriving DecidableEq, Repr

/-- Why there is no bucket. -/
inductive ReduceError
  | endNotAfterStart (stop start : Int)
  | availabilityNotConserved (got length : Int)
  | healthNotConserved (got length : Int)
  deriving DecidableEq, Repr

/-- What the loop has collected. -/
structure Acc where
  durations : Durations
  causes : CauseSet
  weakened : List Weakened
  deriving DecidableEq, Repr

def Acc.zero : Acc := ⟨.zero, .new, []⟩

/-- Count one span between breakpoints. -/
def reduceStep (p : ServicePolicies) (acc : Acc) (tallies : List Tally) (span : Int) : Acc :=
  if span ≤ 0 then acc
  else
    let out := aggregate tallies p
    { durations := acc.durations.add out span
      causes := acc.causes.collect out.availability tallies
      weakened := mergeWeakened acc.weakened out.weakened }

/-- Count the spans from breakpoint to breakpoint. -/
def reduceLoop (p : ServicePolicies) (census : Int → List Tally) (stop : Int) : List Int → Acc → Acc
  | [], acc => acc
  | t :: rest, acc =>
    reduceLoop p census stop rest (reduceStep p acc (census t) (Go.sub (rest.headD stop) t))

/-- The durations have to add up to the bucket. -/
def finish (start stop : Int) (declared : Nat) (acc : Acc) : Except ReduceError Bucket :=
  let length := Go.sub stop start
  if acc.durations.total ≠ length then
    .error (.availabilityNotConserved acc.durations.total length)
  else if acc.durations.healthTotal ≠ length then
    .error (.healthNotConserved acc.durations.healthTotal length)
  else
    .ok
      { start := start, stop := stop, durations := acc.durations
        provenance :=
          { declared := declared
            bad := acc.causes.bad
            unknown := acc.causes.unknown
            excluded := acc.causes.excluded
            overflow := acc.causes.overflow
            weakened := acc.weakened } }

/-- `Reduce`. -/
def reduce (inp : Input) : Except ReduceError Bucket :=
  if inp.stop ≤ inp.start then .error (.endNotAfterStart inp.stop inp.start)
  else if inp.members = [] then
    let length := Go.sub inp.stop inp.start
    .ok
      { start := inp.start, stop := inp.stop
        durations := { Durations.zero with unknown := length, healthUnknown := length }
        provenance := ⟨0, [], [], [], 0, []⟩ }
  else
    let series := buildSeries inp.members inp.observations
    let points := breakpoints series inp.maintenance inp.start inp.stop
    finish inp.start inp.stop inp.members.length
      (reduceLoop inp.policies (censusAt series inp.maintenance inp.policies) inp.stop points .zero)

variable {inp : Input} {w : Weakened} {p : ServicePolicies}

theorem reduce_bounds {b : Bucket} (h : reduce inp = .ok b) :
    b.start = inp.start ∧ b.stop = inp.stop := by
  unfold reduce finish at h
  split at h
  · simp at h
  split at h
  · cases h
    exact ⟨rfl, rfl⟩
  · simp only at h
    split at h
    · simp at h
    split at h
    · simp at h
    · cases h
      exact ⟨rfl, rfl⟩

/-! ## A second piece with the same census adds only its length -/

variable (ms : List MemberCause)

theorem Causes.seen_subset_add : ∀ (c : Causes) {k : String}, k ∈ c.seen → k ∈ (c.add ms).seen := by
  induction ms with
  | nil => exact fun _ _ h => h
  | cons m ms ih =>
    intro c k h
    refine ih (c.addOne m) ?_
    unfold addOne
    split
    · exact h
    · split <;> exact mem_cons_of_mem _ h

theorem Causes.key_mem_add :
    ∀ (c : Causes) {m : MemberCause}, m ∈ ms → m.key ∈ (c.add ms).seen := by
  induction ms with
  | nil => intro _ _ h; simp at h
  | cons m₀ ms ih =>
    intro c m h
    rcases mem_cons.1 h with rfl | h
    · refine seen_subset_add ms (c.addOne m) ?_
      unfold addOne
      split
      · assumption
      · split <;> exact mem_cons_self
    · exact ih (c.addOne m₀) h

theorem Causes.add_of_seen : ∀ (c : Causes), (∀ m ∈ ms, m.key ∈ c.seen) → c.add ms = c := by
  induction ms with
  | nil => intro _ _; rfl
  | cons m ms ih =>
    intro c h
    have hm : c.addOne m = c := if_pos (h m (by simp))
    rw [show c.add (m :: ms) = (c.addOne m).add ms from rfl, hm]
    exact ih c fun m' hm' => h m' (by simp [hm'])

theorem Causes.add_append (c : Causes) (xs ys : List MemberCause) :
    c.add (xs ++ ys) = (c.add xs).add ys := foldl_append

theorem Causes.add_add_self (c : Causes) (ms : List MemberCause) : (c.add ms).add ms = c.add ms :=
  add_of_seen ms _ fun _ hm => key_mem_add ms c hm

/-- What the three classes of causes share: adding in turn is adding the concatenation, and adding
again changes nothing. -/
structure Collects (add : CauseSet → List MemberCause → CauseSet) : Prop where
  nil : ∀ c, add c [] = c
  append : ∀ c xs ys, add (add c xs) ys = add c (xs ++ ys)
  again : ∀ c ms, add (add c ms) ms = add c ms

open CauseSet

theorem collects_addBad : Collects addBad where
  nil _ := rfl
  append c xs ys := by simp [addBad, add_append]
  again c ms :=
    congrArg (fun r : Causes => { c with bad := r.kept, seenBad := r.seen, overflow := r.overflow })
      (add_add_self ⟨c.bad, c.seenBad, c.overflow⟩ ms)

theorem collects_addUnknown : Collects addUnknown where
  nil _ := rfl
  append c xs ys := by simp [addUnknown, add_append]
  again c ms :=
    congrArg (fun r : Causes =>
      { c with unknown := r.kept, seenUnknown := r.seen, overflow := r.overflow })
      (add_add_self ⟨c.unknown, c.seenUnknown, c.overflow⟩ ms)

theorem collects_addExcluded : Collects addExcluded where
  nil _ := rfl
  append c xs ys := by simp [addExcluded, add_append]
  again c ms :=
    congrArg (fun r : Causes =>
      { c with excluded := r.kept, seenExcluded := r.seen, overflow := r.overflow })
      (add_add_self ⟨c.excluded, c.seenExcluded, c.overflow⟩ ms)

theorem Collects.foldl {add : CauseSet → List MemberCause → CauseSet} (h : Collects add)
    (f : Tally → List MemberCause) (ts : List Tally) :
    ∀ c, ts.foldl (fun c t => add c (f t)) c = add c (ts.flatMap f) := by
  induction ts with
  | nil => intro c; simp [h.nil]
  | cons t ts ih => intro c; rw [foldl_cons, ih, h.append, flatMap_cons]

theorem CauseSet.collect_collect (a : Availability) (ts : List Tally) :
    (c.collect a ts).collect a ts = c.collect a ts := by
  cases a with
  | good => rfl
  | bad => simp only [collect, collects_addBad.foldl, collects_addBad.again]
  | unknown => simp only [collect, collects_addUnknown.foldl, collects_addUnknown.again]
  | excluded => simp only [collect, collects_addExcluded.foldl, collects_addExcluded.again]

theorem mergeOne_again (w : Weakened) :
    ∀ acc : List Weakened, mergeOne w (mergeOne w acc) = mergeOne w acc
  | [] => by simp [mergeOne]
  | a :: rest => by
    simp only [mergeOne]
    split
    · next h => simp [mergeOne, h, mergeOne_again w rest]
    · split
      · simp [mergeOne]
      · next h₁ h₂ => simp [mergeOne, h₁, h₂]

theorem mergeOne_settled {w' : Weakened} (hr : w'.region ≠ w.region) :
    ∀ {acc : List Weakened}, mergeOne w acc = acc → mergeOne w (mergeOne w' acc) = mergeOne w' acc
  | [], h => by simp [mergeOne] at h
  | a :: rest, h => by
    by_cases ha : a.region = w.region
    · have ha' : a.region ≠ w'.region := fun e => hr (e.symm.trans ha)
      have hkeep : mergeOne w (a :: mergeOne w' rest) = a :: mergeOne w' rest := by
        simp only [mergeOne, ha, ne_eq, not_true_eq_false, if_false] at h ⊢
        split at h
        · next hlt =>
          obtain rfl : w = a := (List.cons.inj h).1
          simp at hlt
        · next hlt => rw [if_neg hlt]
      simpa [mergeOne, ha'] using hkeep
    · have hrest : mergeOne w rest = rest := by simpa [mergeOne, ha] using h
      have hrest' := mergeOne_settled hr hrest
      rw [mergeOne]
      split
      · simp [mergeOne, ha, hrest']
      · split
        · simp [mergeOne, hr, hrest]
        · simp [mergeOne, ha, hrest]

theorem mergeWeakened_settled (ws : List Weakened) :
    ∀ {acc : List Weakened}, (∀ w' ∈ ws, w'.region ≠ w.region) → mergeOne w acc = acc →
      mergeOne w (mergeWeakened acc ws) = mergeWeakened acc ws := by
  induction ws with
  | nil => exact fun _ h => h
  | cons w' ws ih =>
    intro acc hne h
    exact ih (fun x hx => hne x (by simp [hx])) (mergeOne_settled (hne w' (by simp)) h)

theorem mergeWeakened_again (ws : List Weakened) (hn : (ws.map Weakened.region).Nodup) :
    ∀ acc, mergeWeakened (mergeWeakened acc ws) ws = mergeWeakened acc ws := by
  have hset : ∀ (us : List Weakened) acc, (us.map Weakened.region).Nodup → ∀ w ∈ us,
      mergeOne w (mergeWeakened acc us) = mergeWeakened acc us := by
    intro us
    induction us with
    | nil => intro _ _ w hw; simp at hw
    | cons u us ih =>
      intro acc hu w hw
      obtain ⟨hu₁, hu₂⟩ := nodup_cons.1 hu
      rcases mem_cons.1 hw with rfl | hw
      · refine mergeWeakened_settled us (fun w' hw' e => hu₁ ?_) (mergeOne_again w acc)
        exact e ▸ mem_map_of_mem hw'
      · exact ih (mergeOne u acc) hu₂ w hw
  have hfold : ∀ (us : List Weakened) acc, (∀ w ∈ us, mergeOne w acc = acc) →
      mergeWeakened acc us = acc := by
    intro us
    induction us with
    | nil => intro _ _; rfl
    | cons u us ih =>
      intro acc h
      rw [show mergeWeakened acc (u :: us) = mergeWeakened (mergeOne u acc) us from rfl,
        h u (by simp)]
      exact ih acc fun w hw => h w (by simp [hw])
  exact fun acc => hfold ws _ (hset ws acc hn)

theorem aggregateRegion_weakened_region {t : Tally}
    (h : (aggregateRegion t p).2.2 = some w) : w.region = t.region := by
  have hw : t.weakening p.aggregation = some w := by
    unfold aggregateRegion at h
    simp only at h
    split at h
    · split at h
      · simp at h
      · split at h <;> simp at h
    · split at h
      · split at h
        · simp at h
        · split at h <;> simp at h
      · split at h
        · simp at h
        · split at h <;> simp at h
      · split at h
        · split at h <;> exact h
        · split at h <;> exact h
  unfold Tally.weakening at hw
  simp only at hw
  split at hw
  · rw [← Option.some.inj hw]
  · simp at hw

theorem aggregate_weakened (ts : List Tally) (p : ServicePolicies) :
    (aggregate ts p).weakened = regionWeakened ts p := by
  unfold aggregate combineRegions combineCounts
  split
  · next h => simp [h, regionWeakened]
  · simp only
    split
    · rfl
    · split
      · rfl
      · split
        · split <;> rfl
        · split <;> rfl

theorem aggregate_weakened_nodup {ts : List Tally}
    (h : (ts.map Tally.region).Nodup) : ((aggregate ts p).weakened.map Weakened.region).Nodup := by
  rw [aggregate_weakened]
  refine h.sublist ?_
  unfold regionWeakened
  clear h
  induction ts with
  | nil => simp
  | cons t ts ih =>
    cases hw : (aggregateRegion t p).2.2 with
    | none => simpa [hw] using ih.cons t.region
    | some w => simpa [hw, aggregateRegion_weakened_region hw] using ih.cons_cons t.region

/-- **One turn of the loop is additive in the length of its sub-interval.** -/
theorem reduceStep_additive (p : ServicePolicies) :
    AdditiveOn (fun ts : List Tally => (ts.map Tally.region).Nodup) (reduceStep p) := by
  intro acc ts m n hts hm hn
  have h₁ : ¬ m ≤ 0 := by omega
  have h₂ : ¬ n ≤ 0 := by omega
  have h₃ : ¬ m + n ≤ 0 := by omega
  simp only [reduceStep, h₁, h₂, h₃, if_false, Durations.add_add, collect_collect,
    mergeWeakened_again _ (aggregate_weakened_nodup hts)]

theorem reduceLoop_eq_pieces (p : ServicePolicies) (census : Int → List Tally) {stop : Int} :
    ∀ (points : List Int) (acc : Acc), points.Pairwise (· < ·) →
      (∀ t ∈ points, t < stop ∧ stop - t ≤ Go.maxInt64) →
      reduceLoop p census stop points acc = pieces (reduceStep p) census stop points acc := by
  intro points
  induction points with
  | nil => intro acc _ _; rfl
  | cons t rest ih =>
    intro acc hp hb
    obtain ⟨hlt, hlen⟩ := hb t (by simp)
    obtain ⟨hhead, hrest⟩ := pairwise_cons.1 hp
    have hnext : t ≤ rest.headD stop ∧ rest.headD stop ≤ stop := by
      cases rest with
      | nil => exact ⟨hlt.le, le_rfl⟩
      | cons u rest => exact ⟨(hhead u (by simp)).le, (hb u (by simp)).1.le⟩
    rw [reduceLoop, Go.sub_of_le hnext.1 (by omega)]
    exact ih _ hrest fun u hu => hb u (by simp [hu])

section Sweep

variable {series : List MemberSeries} {spans : List MaintenanceSpan} {p : ServicePolicies}
  {start stop : Int}

theorem censusAt_constOn (hlen : stop - start ≤ Go.maxInt64) {l r : List Int} {t : Int}
    (hb : breakpoints series spans start stop = l ++ t :: r) :
    ConstOn (censusAt series spans p) t (r.headD stop) :=
  fun _ h₁ h₂ => censusAt_congr (sameSide_of_piece hlen hb h₁ h₂)

/-- **The piecewise loop is the reading of every instant of the bucket.** -/
theorem reduceLoop_eq_sweep (hlt : start < stop) (hlen : stop - start ≤ Go.maxInt64) (acc : Acc) :
    reduceLoop p (censusAt series spans p) stop (breakpoints series spans start stop) acc =
      sweep (reduceStep p) (censusAt series spans p) acc start (stop - start).toNat := by
  rw [reduceLoop_eq_pieces p _ _ acc (breakpoints_pairwise ..) fun t ht => by
    have := (mem_breakpoints_iff hlen).1 ht
    omega]
  obtain ⟨rest, hb⟩ := breakpoints_eq_cons series spans hlt hlen
  have hp : (start :: rest).Pairwise (· < ·) := hb ▸ breakpoints_pairwise ..
  rw [hb]
  refine pieces_eq_sweep (reduceStep_additive p) (fun t => censusOf_regions_nodup _ p) rest start
    acc hp (fun t ht => breakpoints_lt (hb ▸ ht)) ?_
  intro l t r he
  exact censusAt_constOn hlen (hb.trans he)

end Sweep

theorem reduce_eq_sweep (inp : Input) (hlt : inp.start < inp.stop)
    (hlen : inp.stop - inp.start ≤ Go.maxInt64) (hm : inp.members ≠ []) : reduce inp =
      finish inp.start inp.stop inp.members.length (sweep (reduceStep inp.policies)
          (censusAt (buildSeries inp.members inp.observations) inp.maintenance inp.policies)
          .zero inp.start (inp.stop - inp.start).toNat) := by
  unfold reduce
  rw [if_neg (by omega), if_neg hm]
  simp only
  rw [reduceLoop_eq_sweep hlt hlen]

/-- **`reduce` depends on the observations only through the census inside the bucket**, not on
where its break points lie. -/
theorem reduce_congr (hlen : inp.stop - inp.start ≤ Go.maxInt64) {obs : List Observation}
    (h : ∀ t, inp.start ≤ t → t < inp.stop →
      censusAt (buildSeries inp.members obs) inp.maintenance inp.policies t =
        censusAt (buildSeries inp.members inp.observations) inp.maintenance inp.policies t) :
    reduce { inp with observations := obs } = reduce inp := by
  by_cases hlt : inp.start < inp.stop
  · by_cases hm : inp.members = []
    · simp [reduce, hm]
    · rw [reduce_eq_sweep inp hlt hlen hm, reduce_eq_sweep { inp with observations := obs }
        hlt hlen hm]
      simp only
      rw [sweep_congr _ _ _ _ fun t h₁ h₂ => h t h₁ (by omega)]
  · have : inp.stop ≤ inp.start := by omega
    simp [reduce, this]

end Cerbix.Reliability
