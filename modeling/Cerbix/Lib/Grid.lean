import Mathlib.Algebra.Order.Ring.Int
import Mathlib.Data.List.Nodup

/-!
# Instants on a grid

The instants of a grid are `first + step * k` for `k ≥ 0`; `instants first step lo hi` are those in
`[lo, hi)`, oldest first, as a series over the step indices that the bounds only clip
(`mem_instants`). `newest` keeps the last ones of a series; every instant before the bound is kept,
or lies before the oldest one kept (`mem_newest_or_lt_min`).
-/

namespace Cerbix.Lib

open List

def ceilDiv (x d : Int) : Int := -(-x / d)

theorem ceilDiv_le_iff {x d k : Int} (hd : 0 < d) : ceilDiv x d ≤ k ↔ x ≤ d * k := by
  have h : -k ≤ -x / d ↔ -k * d ≤ -x := Int.le_ediv_iff_mul_le hd
  rw [neg_mul, mul_comm k d] at h
  rw [ceilDiv]
  omega

def span (lo hi : Int) : List Int := (range (hi + 1 - lo).toNat).map fun i : Nat => lo + i

theorem mem_span {lo hi k : Int} : k ∈ span lo hi ↔ lo ≤ k ∧ k ≤ hi := by
  rw [span, mem_map]
  constructor
  · rintro ⟨i, hi', rfl⟩
    have := mem_range.1 hi'
    omega
  · rintro ⟨h₁, h₂⟩
    exact ⟨(k - lo).toNat, mem_range.2 (by omega), by omega⟩

theorem span_pairwise (lo hi : Int) : (span lo hi).Pairwise (· < ·) := by
  rw [span, pairwise_map]
  refine pairwise_lt_range.imp fun h => ?_
  omega

section Grid

variable {first step lo hi t : Int}

/-- The instants of the grid in `[lo, hi)`, oldest first. -/
def instants (first step lo hi : Int) : List Int :=
  (span (max 0 (ceilDiv (lo - first) step)) ((hi - 1 - first) / step)).map fun k =>
    first + step * k

/-- The instant is one of the grid. -/
def OnGrid (first step t : Int) : Prop := ∃ k : Int, 0 ≤ k ∧ t = first + step * k

theorem OnGrid.first_le (hs : 0 < step) (h : OnGrid first step t) : first ≤ t := by
  obtain ⟨k, hk, rfl⟩ := h
  have := mul_nonneg hs.le hk
  omega

theorem mem_instants (hs : 0 < step) :
    t ∈ instants first step lo hi ↔ OnGrid first step t ∧ lo ≤ t ∧ t < hi := by
  have hindex : ∀ k : Int, max 0 (ceilDiv (lo - first) step) ≤ k ∧ k ≤ (hi - 1 - first) / step ↔
      0 ≤ k ∧ lo ≤ first + step * k ∧ first + step * k < hi := by
    intro k
    rw [max_le_iff, ceilDiv_le_iff hs, Int.le_ediv_iff_mul_le hs, mul_comm k step]
    omega
  rw [instants, mem_map]
  constructor
  · rintro ⟨k, hk, rfl⟩
    obtain ⟨h₀, hlo, hhi⟩ := (hindex k).1 (mem_span.1 hk)
    exact ⟨⟨k, h₀, rfl⟩, hlo, hhi⟩
  · rintro ⟨⟨k, h₀, rfl⟩, hlo, hhi⟩
    exact ⟨k, mem_span.2 ((hindex k).2 ⟨h₀, hlo, hhi⟩), rfl⟩

theorem instants_pairwise (hs : 0 < step) : (instants first step lo hi).Pairwise (· < ·) := by
  rw [instants, pairwise_map]
  refine (span_pairwise _ _).imp fun h => ?_
  have := mul_lt_mul_of_pos_left h hs
  omega

theorem exists_mem_instants (hs : 0 < step) (hfirst : first < hi) (hlo : lo + step ≤ hi) :
    ∃ t, t ∈ instants first step lo hi := by
  -- the last instant before `hi`
  let k := (hi - 1 - first) / step
  have hk : 0 ≤ k := Int.ediv_nonneg (by omega) hs.le
  have hbelow : step * k ≤ hi - 1 - first := Int.mul_ediv_self_le hs.ne'
  have habove : hi - 1 - first < step * k + step := Int.lt_mul_ediv_self_add hs
  exact ⟨first + step * k, (mem_instants hs).2 ⟨⟨k, hk, rfl⟩, by omega, by omega⟩⟩

theorem length_instants_le (hs : 0 < step) {n : Nat} (hlo : hi - step * n ≤ lo) :
    (instants first step lo hi).length ≤ n := by
  rw [instants, length_map, span, length_map, length_range]
  let a := max 0 (ceilDiv (lo - first) step)
  let b := (hi - 1 - first) / step
  have ha : lo - first ≤ step * a := (ceilDiv_le_iff hs).1 (le_max_right _ _)
  have hb : step * b ≤ hi - 1 - first := Int.mul_ediv_self_le hs.ne'
  have hlt : step * (b - a) < step * n := by
    rw [Int.mul_sub]
    omega
  have := lt_of_mul_lt_mul_left hlt hs.le
  omega

end Grid

section

variable {first step lo hi t : Int} {copies cap : Nat}

/-- The last instants, so many copies of each, up to the cap. -/
def newest (copies cap : Nat) (ts : List Int) : List Int :=
  (ts.reverse.flatMap fun t => replicate copies t).take cap

variable {ts : List Int}

theorem mem_of_mem_newest (h : t ∈ newest copies cap ts) : t ∈ ts := by
  obtain ⟨u, hu, ht⟩ := mem_flatMap.1 (mem_of_mem_take h)
  obtain rfl := eq_of_mem_replicate ht
  exact mem_reverse.1 hu

theorem newest_one (h : ts.length ≤ cap) : newest 1 cap ts = ts.reverse := by
  have hflat : (ts.reverse.flatMap fun t => replicate 1 t) = ts.reverse := by
    simp
  rw [newest, hflat, take_of_length_le (by simpa using h)]

theorem lt_of_not_mem_newest (hts : ts.Pairwise (· < ·)) (hcopies : 0 < copies)
    (ht : t ∈ ts) (hnot : t ∉ newest copies cap ts) : ∀ u ∈ newest copies cap ts, t < u := by
  let all := ts.reverse.flatMap fun t => replicate copies t
  have hsorted : all.Pairwise (· ≥ ·) := by
    rw [pairwise_flatMap]
    refine ⟨fun u _ => pairwise_replicate.2 (.inr le_rfl), ?_⟩
    refine (pairwise_reverse.2 hts).imp fun {a b} hab x hx y hy => ?_
    rw [eq_of_mem_replicate hx, eq_of_mem_replicate hy]
    exact hab.le
  have hall : t ∈ all :=
    mem_flatMap.2 ⟨t, mem_reverse.2 ht, mem_replicate.2 ⟨by omega, rfl⟩⟩
  rw [← take_append_drop cap all] at hsorted hall
  intro u hu
  have hdrop : t ∈ all.drop cap := (mem_append.1 hall).resolve_left hnot
  have hle : u ≥ t := (pairwise_append.1 hsorted).2.2 u hu t hdrop
  have hne : t ≠ u := fun h => hnot (h ▸ hu)
  omega

theorem exists_mem_newest (hcopies : 0 < copies) (hcap : 0 < cap) (ht : t ∈ ts) :
    ∃ u, u ∈ newest copies cap ts := by
  have hall : t ∈ ts.reverse.flatMap fun t => replicate copies t :=
    mem_flatMap.2 ⟨t, mem_reverse.2 ht, mem_replicate.2 ⟨by omega, rfl⟩⟩
  obtain ⟨u, us, hus⟩ := exists_cons_of_ne_nil (ne_nil_of_mem hall)
  obtain ⟨c, rfl⟩ := Nat.exists_eq_succ_of_ne_zero hcap.ne'
  exact ⟨u, by rw [newest, hus]; simp⟩

/-- **A clipped and capped series loses nothing silently**: an instant of the grid before the bound
is kept, or lies before the oldest one kept. -/
theorem mem_newest_or_lt_min (hs : 0 < step) (hlo : lo + step ≤ hi) (hcopies : 0 < copies)
    (hcap : 0 < cap) (ht : OnGrid first step t) (hhi : t < hi) :
    t ∈ newest copies cap (instants first step lo hi) ∨
      ∃ u, (newest copies cap (instants first step lo hi)).min? = some u ∧ t < u := by
  by_cases hmem : t ∈ newest copies cap (instants first step lo hi)
  · exact .inl hmem
  right
  obtain ⟨u, hu⟩ := exists_mem_instants hs ((ht.first_le hs).trans_lt hhi) hlo
  obtain ⟨v, hv⟩ := exists_mem_newest hcopies hcap hu
  obtain ⟨w, hw⟩ := Option.isSome_iff_exists.1 (isSome_min?_iff.2 (ne_nil_of_mem hv))
  have hkept : w ∈ newest copies cap (instants first step lo hi) := min?_mem hw
  refine ⟨w, hw, ?_⟩
  by_cases hclip : lo ≤ t
  · exact lt_of_not_mem_newest (instants_pairwise hs) hcopies
      ((mem_instants hs).2 ⟨ht, hclip, hhi⟩) hmem w hkept
  · have := ((mem_instants hs).1 (mem_of_mem_newest hkept)).2.1
    omega

end

end Cerbix.Lib
