import Mathlib.Order.Interval.Finset.Nat
import Mathlib.Tactic.Linarith

/-!
# The part of Go's standard library the model rests on

* `int64` arithmetic: an `Int` kept in range by `wrap64`, the balanced remainder modulo `2^64`.
* A `time.Time` is the `Int` of nanoseconds since the zero `Time` (January 1 of year 1, UTC). A
  `time.Duration` is an `int64` of nanoseconds: `Time.Sub` saturates and sums of durations wrap.
* `sort.Search`, the binary search, with its specification on monotone predicates.
-/

namespace Cerbix.Lib.Go

/-- The value an `int64` holds after an operation whose exact result is `x`. -/
def wrap64 (x : Int) : Int := Int.bmod x (2 ^ 64)

/-- `math.MaxInt64`, which is also the longest `time.Duration`. -/
def maxInt64 : Int := 2 ^ 63 - 1

def minInt64 : Int := -2 ^ 63

theorem wrap64_of_mem {x : Int} (h₁ : minInt64 ≤ x) (h₂ : x ≤ maxInt64) : wrap64 x = x := by
  unfold wrap64 minInt64 maxInt64 at *
  exact Int.bmod_eq_of_le (by norm_num; omega) (by norm_num; omega)

theorem wrap64_mem (x : Int) : minInt64 ≤ wrap64 x ∧ wrap64 x ≤ maxInt64 := by
  have h₁ := @Int.le_bmod x (2 ^ 64) (by decide)
  have h₂ := @Int.bmod_lt x (2 ^ 64) (by decide)
  unfold wrap64 minInt64 maxInt64
  omega

theorem wrap64_add_left (x y : Int) : wrap64 (wrap64 x + y) = wrap64 (x + y) :=
  Int.bmod_add_bmod

@[simp] theorem wrap64_zero : wrap64 0 = 0 := by decide

def isZero (t : Int) : Bool := t == 0

/-- `Time.Sub`, which saturates. -/
def sub (t u : Int) : Int := max minInt64 (min maxInt64 (t - u))

/-- Nanoseconds between the zero `Time` and the Unix epoch. -/
def unixEpoch : Int := 62135596800 * 10 ^ 9

/-- `Time.UnixNano`, an `int64` that wraps outside the years 1678 to 2262. -/
def unixNano (t : Int) : Int := wrap64 (t - unixEpoch)

/-- `Time.Truncate`: down to a multiple of `d` since the zero `Time`. -/
def truncate (t : Int) (d : Int) : Int := if d ≤ 0 then t else t - t % d

def microseconds (d : Int) : Int := d.tdiv 1000

def second : Int := 10 ^ 9

def minute : Int := 60 * second

theorem sub_of_le {t u : Int} (h₁ : u ≤ t) (h₂ : t - u ≤ maxInt64) : sub t u = t - u := by
  unfold sub minInt64
  omega

theorem unixNano_inj {t u : Int} (h : unixNano t = unixNano u) (hd : |t - u| ≤ maxInt64) :
    t = u := by
  unfold unixNano wrap64 at h
  rw [Int.bmod_eq_bmod_iff_bmod_sub_eq_zero] at h
  have he : t - unixEpoch - (u - unixEpoch) = t - u := by omega
  rw [he] at h
  have hw : wrap64 (t - u) = t - u := by
    obtain ⟨h₁, h₂⟩ := abs_le.mp hd
    exact wrap64_of_mem (by unfold minInt64 maxInt64 at *; omega) h₂
  unfold wrap64 at hw
  omega

theorem microseconds_of_nonneg {d : Int} (h : 0 ≤ d) : microseconds d = d / 1000 :=
  Int.tdiv_eq_ediv_of_nonneg h

/-- The loop of `sort.Search` on `[i, j)`; `fuel` bounds its turns. -/
def searchLoop (f : Nat → Bool) : Nat → Nat → Nat → Nat
  | 0, i, _ => i
  | fuel + 1, i, j =>
    if i < j then
      let h := (i + j) / 2
      if f h then searchLoop f fuel i h else searchLoop f fuel (h + 1) j
    else i

/-- `sort.Search`: the halving interval loses a point at each turn, so `n` turns suffice. -/
def search (n : Nat) (f : Nat → Bool) : Nat := searchLoop f n 0 n

theorem searchLoop_spec {f : Nat → Bool} {n : Nat} (hf : ∀ a b, a ≤ b → b < n → f a → f b) :
    ∀ fuel i j, i ≤ j → j ≤ n → j - i ≤ fuel →
      (∀ k, k < i → f k = false) → (∀ k, j ≤ k → k < n → f k) →
      let r := searchLoop f fuel i j
      r ≤ n ∧ (∀ k, k < r → f k = false) ∧ (∀ k, r ≤ k → k < n → f k) := by
  intro fuel
  induction fuel with
  | zero =>
    intro i j hij hjn hfu hlo hhi
    obtain rfl : i = j := by omega
    exact ⟨hjn, hlo, hhi⟩
  | succ fuel ih =>
    intro i j hij hjn hfu hlo hhi
    unfold searchLoop
    by_cases hlt : i < j
    · simp only [hlt]
      have hm : i ≤ (i + j) / 2 ∧ (i + j) / 2 < j := by omega
      by_cases hfm : f ((i + j) / 2) = true
      · simp only [hfm]
        refine ih i _ hm.1 (by omega) (by omega) hlo fun k hk hkn => ?_
        exact hf _ _ hk hkn hfm
      · simp only [hfm]
        refine ih _ j (by omega) hjn (by omega) (fun k hk => ?_) hhi
        -- a true value at or below the midpoint would force the midpoint
        by_contra hk'
        exact hfm (hf k _ (by omega) (by omega) (by simpa using hk'))
    · obtain rfl : i = j := by omega
      simp only [lt_irrefl]
      exact ⟨hjn, hlo, hhi⟩

theorem search_spec {f : Nat → Bool} {n : Nat} (hf : ∀ a b, a ≤ b → b < n → f a → f b) :
    search n f ≤ n ∧ (∀ k, k < search n f → f k = false) ∧ (∀ k, search n f ≤ k → k < n → f k) :=
  searchLoop_spec hf n 0 n (Nat.zero_le _) le_rfl (by omega)
    (fun k hk => absurd hk (Nat.not_lt_zero k)) (fun k hk hkn => absurd hkn (by omega))

end Cerbix.Lib.Go
