import Mathlib.Data.List.MinMax

/-!
# Timelines

`firstBy` is a query with an order and a limit of one row. A timeline holds rows that take force at
an instant and stay until a later row does. `inForce` orders by the instant and then by a number,
newest first; where rows take force at distinct instants it finds the row that `Governs`
(`inForce_eq_some_iff`). `place` displaces the row that took force at the same instant.
-/

namespace Cerbix.Lib

open List

section FirstBy

variable {α : Type*}

/-- The better of a row and the best row so far, which stays on a tie. -/
def pick (before : α → α → Bool) (best : Option α) (x : α) : Option α :=
  match best with
  | none => some x
  | some y => if before x y then some x else some y

/-- The first row in the order. -/
def firstBy (before : α → α → Bool) (rows : List α) : Option α := rows.foldl (pick before) none

/-- A strict order. -/
structure StrictBefore (before : α → α → Bool) : Prop where
  irrefl : ∀ x, before x x = false
  trans : ∀ {x y z}, before x y → before y z → before x z

variable {before : α → α → Bool} {rows : List α} {m : α}

theorem firstBy_concat (x : α) :
    firstBy before (rows ++ [x]) = pick before (firstBy before rows) x := by
  simp [firstBy]

theorem firstBy_eq_none : firstBy before rows = none ↔ rows = [] := by
  constructor
  · intro h
    induction rows using List.reverseRecOn with
    | nil => rfl
    | append_singleton rows x =>
      rw [firstBy_concat, pick.eq_def] at h
      split at h
      · cases h
      · split at h <;> cases h
  · rintro rfl
    rfl

theorem firstBy_spec (hb : StrictBefore before) (h : firstBy before rows = some m) :
    m ∈ rows ∧ ∀ x ∈ rows, before x m = false := by
  induction rows using List.reverseRecOn generalizing m with
  | nil => cases h
  | append_singleton rows x ih =>
    simp only [mem_append, mem_singleton]
    rw [firstBy_concat, pick.eq_def] at h
    split at h
    · next hn =>
      cases h
      rw [firstBy_eq_none.1 hn]
      exact ⟨.inr rfl, by simpa using hb.irrefl x⟩
    · next y hy =>
      obtain ⟨hmem, hall⟩ := ih hy
      split at h
      · next hxy =>
        cases h
        refine ⟨.inr rfl, ?_⟩
        rintro z (hz | rfl)
        · refine Bool.eq_false_iff.2 fun hzm => ?_
          simpa [hall z hz] using hb.trans hzm hxy
        · exact hb.irrefl _
      · next hxy =>
        cases h
        refine ⟨.inl hmem, ?_⟩
        rintro z (hz | rfl)
        · exact hall z hz
        · exact Bool.eq_false_iff.2 hxy

theorem exists_firstBy (h : rows ≠ []) : ∃ m, firstBy before rows = some m :=
  Option.ne_none_iff_exists'.1 fun hn => h (firstBy_eq_none.1 hn)

theorem firstBy_congr {rows' : List α} (hb : StrictBefore before)
    (hd : ∀ x ∈ rows, ∀ y ∈ rows, before x y = false → before y x = false → x = y)
    (h : ∀ x, x ∈ rows' ↔ x ∈ rows) : firstBy before rows' = firstBy before rows := by
  cases hf : firstBy before rows with
  | none =>
    rw [firstBy_eq_none] at hf ⊢
    exact eq_nil_iff_forall_not_mem.2 fun x hx => by simpa [hf] using (h x).1 hx
  | some m =>
    obtain ⟨hm, hfirst⟩ := firstBy_spec hb hf
    obtain ⟨m', hf'⟩ := exists_firstBy (ne_nil_of_mem ((h m).2 hm))
    obtain ⟨hm', hfirst'⟩ := firstBy_spec hb hf'
    rw [hf', hd m' ((h m').1 hm') m hm (hfirst m' ((h m').1 hm')) (hfirst' m ((h m).2 hm))]

variable (instant : α → Int)

/-- `x` is the earliest of `xs`, if there is any. -/
def Earliest (xs : List α) (x : Option α) : Prop :=
  (x = none ↔ xs = []) ∧ ∀ y, x = some y → y ∈ xs ∧ ∀ z ∈ xs, instant y ≤ instant z

def earlier (x y : α) : Bool := instant x < instant y

theorem earlier_strict : StrictBefore (earlier instant) where
  irrefl x := by simp [earlier]
  trans {x y z} hxy hyz := by
    simp only [earlier, decide_eq_true_eq] at *
    omega

theorem earliest_firstBy (xs : List α) : Earliest instant xs (firstBy (earlier instant) xs) := by
  refine ⟨firstBy_eq_none, fun y hy => ?_⟩
  obtain ⟨hmem, hall⟩ := firstBy_spec (earlier_strict instant) hy
  exact ⟨hmem, fun z hz => by simpa [earlier] using hall z hz⟩

theorem firstBy_earlier_congr {instant : α → Int}
    (hd : ∀ x ∈ rows, ∀ y ∈ rows, instant x = instant y → x = y) {rows' : List α}
    (h : ∀ x, x ∈ rows' ↔ x ∈ rows) :
    firstBy (earlier instant) rows' = firstBy (earlier instant) rows := by
  refine firstBy_congr (earlier_strict instant) (fun x hx y hy hxy hyx => hd x hx y hy ?_) h
  simp only [earlier, decide_eq_false_iff_not] at hxy hyx
  omega

end FirstBy

section Timeline

variable {α : Type*} (start : α → Int) (num : α → Nat)

def newer (x y : α) : Bool := start y < start x ∨ (start x = start y ∧ num y < num x)

theorem newer_strict : StrictBefore (newer start num) where
  irrefl x := by simp [newer]
  trans {x y z} hxy hyz := by
    simp only [newer, decide_eq_true_eq] at *
    omega

variable (rows : List α)

/-- The last row to have begun; the higher number decides between two. -/
def inForce (t : Int) : Option α :=
  firstBy (newer start num) (rows.filter fun r => start r ≤ t)

/-- The row begins last of those that have begun. -/
structure Governs (rows : List α) (t : Int) (r : α) : Prop where
  mem : r ∈ rows
  start_le : start r ≤ t
  latest : ∀ r' ∈ rows, start r' ≤ t → start r' ≤ start r

/-- No two rows begin at one instant. -/
def Distinct : Prop := ∀ r ∈ rows, ∀ r' ∈ rows, start r = start r' → r = r'

def Increasing : Prop :=
  ∀ r ∈ rows, ∀ r' ∈ rows, start r < start r' → num r < num r'

instance (rows : List α) : Decidable (Increasing start num rows) :=
  inferInstanceAs (Decidable (∀ r ∈ rows, ∀ r' ∈ rows, _ → _))

/-- Displace the rows that take force with `x`, and add `x`. -/
def place (x : α) : List α := rows.filter (fun r => start r ≠ start x) ++ [x]

variable {start num} {rows : List α} {t : Int} {r x : α}

theorem governs_of_inForce (h : inForce start num rows t = some r) : Governs start rows t r := by
  obtain ⟨hmem, hall⟩ := firstBy_spec (newer_strict start num) h
  rw [mem_filter, decide_eq_true_eq] at hmem
  refine ⟨hmem.1, hmem.2, ?_⟩
  intro r' hr' ht
  have hn := hall r' (mem_filter.2 ⟨hr', decide_eq_true ht⟩)
  simp only [newer, decide_eq_false_iff_not] at hn
  omega

variable (num) in
theorem exists_inForce (hr : r ∈ rows) (ht : start r ≤ t) :
    ∃ r', inForce start num rows t = some r' :=
  exists_firstBy (ne_nil_of_mem (mem_filter.2 ⟨hr, decide_eq_true ht⟩))

theorem Governs.eq (hd : Distinct start rows) {r' : α} (h : Governs start rows t r)
    (h' : Governs start rows t r') : r = r' :=
  hd r h.mem r' h'.mem (le_antisymm (h'.latest r h.mem h.start_le) (h.latest r' h'.mem h'.start_le))

theorem inForce_eq_some_iff (hd : Distinct start rows) :
    inForce start num rows t = some r ↔ Governs start rows t r := by
  constructor
  · exact governs_of_inForce
  · intro h
    obtain ⟨r', hr'⟩ := exists_inForce num h.mem h.start_le
    rw [hr', (governs_of_inForce hr').eq hd h]

theorem Governs.of_le {u : Int} (h : Governs start rows t r) (hr : start r ≤ u) (hu : u ≤ t) :
    Governs start rows u r :=
  ⟨h.mem, hr, fun r' hr' h' => h.latest r' hr' (h'.trans hu)⟩

/-- **Rows that a cofinal part of them stands for**: the same row governs. -/
theorem governs_of_cofinal {rows' : List α} (hd : Distinct start rows)
    (hsub : ∀ r ∈ rows', r ∈ rows)
    (hcofinal : ∀ r ∈ rows, start r ≤ t → ∃ r' ∈ rows', start r ≤ start r' ∧ start r' ≤ t) :
    Governs start rows' t r ↔ Governs start rows t r := by
  constructor
  · rintro ⟨hmem, hle, hlatest⟩
    refine ⟨hsub r hmem, hle, fun x hx ht => ?_⟩
    obtain ⟨y, hy, hxy, hyt⟩ := hcofinal x hx ht
    exact hxy.trans (hlatest y hy hyt)
  · rintro ⟨hmem, hle, hlatest⟩
    obtain ⟨y, hy, hry, hyt⟩ := hcofinal r hmem hle
    obtain rfl := hd r hmem y (hsub y hy) (le_antisymm hry (hlatest y (hsub y hy) hyt))
    exact ⟨hy, hle, fun x hx => hlatest x (hsub x hx)⟩

theorem mem_place : r ∈ place start rows x ↔ (r ∈ rows ∧ start r ≠ start x) ∨ r = x := by
  simp [place]

theorem Distinct.place (h : Distinct start rows) : Distinct start (place start rows x) := by
  intro r hr r' hr' he
  rcases mem_place.1 hr with ⟨hm, hne⟩ | rfl <;> rcases mem_place.1 hr' with ⟨hm', hne'⟩ | rfl
  · exact h r hm r' hm' he
  · exact absurd he hne
  · exact absurd he.symm hne'
  · rfl

theorem governs_place_of_lt (ht : t < start x) :
    Governs start (place start rows x) t r ↔ Governs start rows t r := by
  constructor
  · rintro ⟨hm, hs, hl⟩
    rcases mem_place.1 hm with ⟨hm, -⟩ | rfl
    · refine ⟨hm, hs, fun r' hr' h' => hl r' (mem_place.2 (.inl ⟨hr', ?_⟩)) h'⟩
      omega
    · omega
  · rintro ⟨hm, hs, hl⟩
    refine ⟨mem_place.2 (.inl ⟨hm, by omega⟩), hs, ?_⟩
    intro r' hr' h'
    rcases mem_place.1 hr' with ⟨hr', -⟩ | rfl
    · exact hl r' hr' h'
    · omega

theorem inForce_place_of_lt (hd : Distinct start rows) (ht : t < start x) :
    inForce start num (place start rows x) t = inForce start num rows t := by
  refine Option.ext fun r => ?_
  rw [inForce_eq_some_iff hd.place, inForce_eq_some_iff hd]
  exact governs_place_of_lt ht

theorem governs_place_self (hx : start x ≤ t) (hn : ∀ r ∈ rows, start r ≤ t → start r ≤ start x) :
    Governs start (place start rows x) t x := by
  refine ⟨mem_place.2 (.inr rfl), hx, ?_⟩
  intro r' hr' h'
  rcases mem_place.1 hr' with ⟨hr', -⟩ | rfl
  · exact hn r' hr' h'
  · exact le_rfl

theorem Governs.place_of_lt (h : Governs start rows t r) (hx : start x < start r) :
    Governs start (place start rows x) t r := by
  refine ⟨mem_place.2 (.inl ⟨h.mem, by omega⟩), h.start_le, ?_⟩
  intro r' hr' h'
  rcases mem_place.1 hr' with ⟨hr', -⟩ | rfl
  · exact h.latest r' hr' h'
  · omega

theorem Increasing.place (h : Increasing start num rows) (hlast : ∀ r ∈ rows, start r ≤ start x)
    (hnum : ∀ r ∈ rows, num r < num x) : Increasing start num (place start rows x) := by
  intro r hr r' hr' hlt
  rcases mem_place.1 hr with ⟨hm, hne⟩ | rfl <;> rcases mem_place.1 hr' with ⟨hm', -⟩ | rfl
  · exact h r hm r' hm' hlt
  · exact hnum r hm
  · have := hlast r' hm'
    omega
  · omega

end Timeline

end Cerbix.Lib
