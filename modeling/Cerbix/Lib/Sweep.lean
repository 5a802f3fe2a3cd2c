import Mathlib.Data.Int.Interval
import Mathlib.Data.Int.ConditionallyCompleteOrder
import Mathlib.Tactic.Ring
import Mathlib.Tactic.Linarith

/-!
# Accumulating a piecewise constant signal over an interval of instants

A signal `f : ℤ → α` is read over `[a, a + n)`: by `sweep` at every instant, by `pieces` only at
break points, each reading weighed by the distance to the next. When the step is additive in its
weight and the signal constant between break points the two agree (`pieces_eq_sweep`), and a counter
kept by the step counts instants (`sweep_count`).
-/

namespace Cerbix.Lib

open List Finset

section Sweep

variable {α β : Type*}

/-- Read `f` at `a, a + 1, …, a + n - 1`, each with weight one. -/
def sweep (step : β → α → ℤ → β) (f : ℤ → α) : β → ℤ → ℕ → β
  | acc, _, 0 => acc
  | acc, a, n + 1 => sweep step f (step acc (f a) 1) (a + 1) n

/-- Read `f` at the break points only, weighing each by the distance to the next one (to `stop`
after the last). -/
def pieces (step : β → α → ℤ → β) (f : ℤ → α) (stop : ℤ) : List ℤ → β → β
  | [], acc => acc
  | t :: rest, acc => pieces step f stop rest (step acc (f t) (rest.headD stop - t))

/-- Two readings of one value of `P` in a row are one reading of the summed weight. -/
def AdditiveOn (P : α → Prop) (step : β → α → ℤ → β) : Prop :=
  ∀ acc c (m n : ℤ), P c → 0 < m → 0 < n → step (step acc c m) c n = step acc c (m + n)

/-- The function is constant on `[a, b)`. -/
def ConstOn (f : ℤ → α) (a b : ℤ) : Prop := ∀ t, a ≤ t → t < b → f t = f a

theorem sweep_add (step : β → α → ℤ → β) (f : ℤ → α) :
    ∀ (m n : ℕ) acc (a : ℤ), sweep step f acc a (m + n) = sweep step f (sweep step f acc a m)
      (a + m) n := by
  intro m
  induction m with
  | zero => intro n acc a; simp [sweep]
  | succ m ih =>
    intro n acc a
    rw [Nat.succ_add]
    simp only [sweep]
    rw [ih]
    congr 1
    push_cast
    ring

variable {f : ℤ → α} {P : α → Prop} {step : β → α → ℤ → β}

theorem sweep_congr (step : β → α → ℤ → β) {g : ℤ → α} :
    ∀ (n : ℕ) acc (a : ℤ), (∀ t, a ≤ t → t < a + n → f t = g t) →
      sweep step f acc a n = sweep step g acc a n := by
  intro n
  induction n with
  | zero => intro acc a _; rfl
  | succ n ih =>
    intro acc a h
    simp only [sweep]
    rw [h a le_rfl (by push_cast; omega)]
    exact ih _ _ fun t h₁ h₂ => h t (by omega) (by push_cast; omega)

theorem sweep_const (hs : AdditiveOn P step) {c : α} (hP : P c) :
    ∀ (n : ℕ) acc (a : ℤ), (∀ t, a ≤ t → t < a + (n + 1 : ℕ) → f t = c) →
      sweep step f acc a (n + 1) = step acc c (n + 1 : ℕ) := by
  intro n
  induction n with
  | zero =>
    intro acc a h
    simp [sweep, h a le_rfl (by simp)]
  | succ n ih =>
    intro acc a h
    have h₀ : f a = c := h a le_rfl (by push_cast; omega)
    rw [sweep, h₀, ih _ _ fun t h₁ h₂ => h t (by omega) (by push_cast at h₂ ⊢; omega),
      hs acc c 1 _ hP (by omega) (by push_cast; omega)]
    congr 1
    push_cast
    ring

/-- **A piecewise constant signal is read completely at its break points.** -/
theorem pieces_eq_sweep (hs : AdditiveOn P step) (hP : ∀ t, P (f t)) {stop : ℤ} :
    ∀ (points : List ℤ) (t : ℤ) (acc : β), (t :: points).Pairwise (· < ·) →
      (∀ p ∈ t :: points, p < stop) →
      (∀ l p r, t :: points = l ++ p :: r → ConstOn f p (r.headD stop)) →
      pieces step f stop (t :: points) acc = sweep step f acc t (stop - t).toNat := by
  intro points
  induction points with
  | nil =>
    intro t acc _ hlt hc
    have ht : t < stop := hlt t (by simp)
    obtain ⟨n, hn⟩ : ∃ n : ℕ, (stop - t).toNat = n + 1 := ⟨(stop - t).toNat - 1, by omega⟩
    have hcast : stop - t = ((n + 1 : ℕ) : ℤ) := by omega
    simp only [pieces, headD_nil]
    rw [hn, hcast, sweep_const hs (hP t)]
    intro u h₁ h₂
    exact hc [] t [] rfl u h₁ (by simp only [headD_nil]; omega)
  | cons u points ih =>
    intro t acc hp hlt hc
    have htu : t < u := by simpa using (pairwise_cons.1 hp).1 u (by simp)
    have hus : u < stop := hlt u (by simp)
    obtain ⟨n, hn⟩ : ∃ n : ℕ, (u - t).toNat = n + 1 := ⟨(u - t).toNat - 1, by omega⟩
    have hcast : u - t = ((n + 1 : ℕ) : ℤ) := by omega
    have hsplit : (stop - t).toNat = (n + 1) + (stop - u).toNat := by omega
    have hstart : t + ((n + 1 : ℕ) : ℤ) = u := by omega
    have hconst : sweep step f acc t (n + 1) = step acc (f t) ((n + 1 : ℕ) : ℤ) :=
      sweep_const hs (hP t) n acc t fun v h₁ h₂ =>
        hc [] t (u :: points) rfl v h₁ (by simp only [headD_cons]; omega)
    rw [pieces, headD_cons, hcast, hsplit, sweep_add, hstart, hconst]
    refine ih u _ (pairwise_cons.1 hp).2 (fun p h => hlt p (by simp [h])) ?_
    intro l p r he
    exact hc (t :: l) p r (by rw [he]; rfl)

/-- A counter that a unit reading bumps exactly when `p` holds of the value read; its sums only
matter up to `wrap`, its representation. -/
theorem sweep_count (step : β → α → ℤ → β) (f : ℤ → α) (p : α → Prop) [DecidablePred p]
    (count : β → ℤ) {wrap : ℤ → ℤ} (hw : ∀ x y, wrap (wrap x + y) = wrap (x + y))
    (hc : ∀ acc c, wrap (count acc) = count acc →
      count (step acc c 1) = wrap (count acc + if p c then 1 else 0)) :
    ∀ (n : ℕ) acc (a : ℤ), wrap (count acc) = count acc → count (sweep step f acc a n) =
        wrap (count acc + ((Ico a (a + n)).filter fun t => p (f t)).card) := by
  intro n
  induction n with
  | zero => intro acc a h; simp [sweep, h]
  | succ n ih =>
    intro acc a h
    have hidem : wrap (count (step acc (f a) 1)) = count (step acc (f a) 1) := by
      rw [hc _ _ h]
      simpa using hw (count acc + if p (f a) then 1 else 0) 0
    have hIco : Ico a (a + (n + 1 : ℕ)) = insert a (Ico (a + 1) (a + 1 + n)) := by
      ext t
      simp only [mem_Ico, mem_insert]
      omega
    rw [sweep, ih _ _ hidem, hc _ _ h, hw, hIco, filter_insert]
    split
    · rw [card_insert_of_notMem (by simp)]
      congr 1
      push_cast
      ring
    · congr 1
      ring

end Sweep

/-- A property constant on the cells `[c k, c (k + 1))` holds for a multiple of `c` of the integers
between two multiples of `c`. -/
theorem dvd_card_filter_of_cells {c : ℕ} {P : ℤ → Prop} [DecidablePred P] {a : ℤ} :
    ∀ (n : ℕ), (∀ t, c * a ≤ t → t < c * (a + n) → (P t ↔ P (t - t % c))) →
      c ∣ ((Ico (c * a) (c * (a + n))).filter P).card := by
  intro n
  induction n with
  | zero => intro _; simp
  | succ n ih =>
    intro hP
    have h₁ : (c : ℤ) * a ≤ c * (a + n) := by nlinarith
    have h₂ : (c : ℤ) * (a + n) ≤ c * (a + (n + 1 : ℕ)) := by push_cast; nlinarith
    have hunion : Ico (c * a) (c * (a + (n + 1 : ℕ))) =
        Ico (c * a) (c * (a + n)) ∪ Ico (c * (a + n)) (c * (a + (n + 1 : ℕ))) :=
      (Ico_union_Ico_eq_Ico h₁ h₂).symm
    rw [hunion, filter_union, card_union_of_disjoint
      (disjoint_filter_filter (Ico_disjoint_Ico_consecutive _ _ _))]
    refine Nat.dvd_add (ih fun t ht ht' => hP t ht (lt_of_lt_of_le ht' h₂)) ?_
    -- inside one cell the property is that of its first point
    have hcell : ∀ t ∈ Ico ((c : ℤ) * (a + n)) (c * (a + (n + 1 : ℕ))), P t ↔ P (c * (a + n)) := by
      intro t ht
      obtain ⟨ht₁, ht₂⟩ := mem_Ico.1 ht
      rw [hP t (le_trans h₁ ht₁) ht₂]
      have hmod : t % c = t - c * (a + n) := by
        rw [Int.emod_eq_iff (by rintro h; rw [h] at ht₁ ht₂; simp at ht₁ ht₂; omega)]
        refine ⟨by omega, ?_, ⟨-(a + n), by ring⟩⟩
        push_cast at ht₂
        rw [Int.natAbs_natCast]
        linarith
      rw [hmod, sub_sub_cancel]
    by_cases h : P (c * (a + n))
    · rw [filter_true_of_mem fun t ht => (hcell t ht).2 h, Int.card_Ico]
      have hlen : (c : ℤ) * (a + (n + 1 : ℕ)) - c * (a + n) = c := by push_cast; ring
      rw [hlen, Int.toNat_natCast]
    · rw [filter_false_of_mem fun t ht ht' => h ((hcell t ht).1 ht')]
      simp

end Cerbix.Lib
