import Mathlib.Data.List.Count
import Mathlib.Data.List.Lex
import Mathlib.Order.Lattice

/-!
# Lists joined by a separator, compared as one list

`joined sep xs` puts the lists `xs` together with `sep` between them. When no list holds the
separator and nothing is smaller than it, a joined list determines its parts (`joined_inj`) and is
ordered as they are (`joined_lt`), and a part put before or behind both does not change the order
(`joined_cons_le`, `joined_snoc_le`).
-/

namespace Cerbix.Lib

open List

variable {α : Type}

def joined (sep : α) : List (List α) → List α
  | [] => []
  | [a] => a
  | a :: b :: xs => a ++ sep :: joined sep (b :: xs)

variable {xs : List (List α)}

theorem joined_cons (sep : α) (a : List α) (h : xs ≠ []) :
    joined sep (a :: xs) = a ++ sep :: joined sep xs := by
  cases xs with
  | nil => exact absurd rfl h
  | cons b xs => rfl

theorem joined_snoc (sep : α) (a : List α) (h : xs ≠ []) :
    joined sep (xs ++ [a]) = joined sep xs ++ sep :: a := by
  induction xs with
  | nil => exact absurd rfl h
  | cons b xs ih =>
    cases xs with
    | nil => rfl
    | cons c xs =>
      rw [cons_append, joined_cons sep b (by simp), ih (by simp), joined_cons sep b (by simp)]
      simp

theorem append_sep_inj {sep : α} {a b u v : List α} (ha : sep ∉ a) (hb : sep ∉ b)
    (h : a ++ sep :: u = b ++ sep :: v) : a = b ∧ u = v := by
  induction a generalizing b with
  | nil =>
    cases b with
    | nil => exact ⟨rfl, (List.cons.inj h).2⟩
    | cons c b => exact absurd (List.cons.inj h).1 fun heq => hb (heq ▸ mem_cons_self)
  | cons c a ih =>
    cases b with
    | nil => exact absurd (List.cons.inj h).1 fun heq => ha (heq ▸ mem_cons_self)
    | cons d b =>
      obtain ⟨rfl, htail⟩ := List.cons.inj h
      obtain ⟨rfl, rfl⟩ := ih (fun hm => ha (mem_cons_of_mem c hm))
        (fun hm => hb (mem_cons_of_mem c hm)) htail
      exact ⟨rfl, rfl⟩

theorem joined_inj {sep : α} : ∀ {ys : List (List α)}, xs.length = ys.length →
    (∀ a ∈ xs, sep ∉ a) → (∀ a ∈ ys, sep ∉ a) → joined sep xs = joined sep ys → xs = ys := by
  induction xs with
  | nil =>
    intro ys hlen _ _ _
    exact (length_eq_zero_iff.1 hlen.symm).symm
  | cons a xs ih =>
    intro ys hlen hxs hys h
    cases ys with
    | nil => cases hlen
    | cons b ys =>
      have hlen' : xs.length = ys.length := Nat.succ.inj hlen
      cases xs with
      | nil =>
        obtain rfl := length_eq_zero_iff.1 hlen'.symm
        exact congrArg (fun c => [c]) h
      | cons c xs =>
        have hne : ys ≠ [] := by
          rintro rfl
          cases hlen'
        rw [joined_cons sep b hne] at h
        obtain ⟨rfl, htail⟩ := append_sep_inj (hxs a mem_cons_self) (hys b mem_cons_self) h
        rw [ih hlen' (fun d hd => hxs d (mem_cons_of_mem a hd))
          (fun d hd => hys d (mem_cons_of_mem a hd)) htail]

section Order

variable [LinearOrder α] {u v : List α} {xs ys : List (List α)} {sep : α}

theorem append_lt_append_iff (a : List α) : a ++ u < a ++ v ↔ u < v := by
  induction a with
  | nil => rfl
  | cons c a ih => simp [ih]

theorem append_le_append_iff (a : List α) : a ++ u ≤ a ++ v ↔ u ≤ v := by
  rw [← not_lt, append_lt_append_iff, not_lt]

theorem joined_cons_le (sep : α) (a : List α) (hxs : xs ≠ []) (hys : ys ≠ [])
    (h : joined sep xs ≤ joined sep ys) : joined sep (a :: xs) ≤ joined sep (a :: ys) := by
  rw [joined_cons sep a hxs, joined_cons sep a hys, append_le_append_iff]
  exact (append_le_append_iff [sep]).2 h

theorem append_sep_lt (hsep : ∀ c, sep ≤ c) (a b : List α) : ∀ {v : List α},
    u.count sep = v.count sep → u < v → u ++ sep :: a < v ++ sep :: b := by
  induction u with
  | nil =>
    intro v hcount hlt
    cases v with
    | nil => exact absurd hlt (lt_irrefl _)
    | cons c v =>
      have hc : sep ≠ c := by
        rintro rfl
        rw [count_cons_self] at hcount
        cases hcount
      rw [nil_append, cons_append, cons_lt_cons_iff]
      exact .inl (lt_of_le_of_ne (hsep c) hc)
  | cons c u ih =>
    intro v hcount hlt
    cases v with
    | nil => exact absurd hlt (not_lt_nil _)
    | cons d v =>
      rw [cons_append, cons_append, cons_lt_cons_iff]
      rcases cons_lt_cons_iff.1 hlt with hcd | ⟨rfl, htail⟩
      · exact .inl hcd
      · refine .inr ⟨rfl, ih ?_ htail⟩
        simpa [count_cons] using hcount

theorem count_joined (h : ∀ a ∈ xs, sep ∉ a) : (joined sep xs).count sep = xs.length - 1 := by
  induction xs with
  | nil => rfl
  | cons a xs ih =>
    have ha : a.count sep = 0 := count_eq_zero.2 (h a mem_cons_self)
    have ih := ih fun b hb => h b (mem_cons_of_mem a hb)
    cases xs with
    | nil => exact ha
    | cons b xs =>
      rw [joined_cons sep a (cons_ne_nil b xs), count_append, count_cons_self, ha, ih]
      simp

theorem joined_snoc_le (hsep : ∀ c, sep ≤ c) (a : List α)
    (hne : xs ≠ []) (hlen : xs.length = ys.length) (hxs : ∀ b ∈ xs, sep ∉ b)
    (hys : ∀ b ∈ ys, sep ∉ b) (h : joined sep xs ≤ joined sep ys) :
    joined sep (xs ++ [a]) ≤ joined sep (ys ++ [a]) := by
  have hne' : ys ≠ [] := by
    rintro rfl
    exact hne (length_eq_zero_iff.1 hlen)
  rw [joined_snoc sep a hne, joined_snoc sep a hne']
  rcases h.lt_or_eq with hlt | heq
  · refine (append_sep_lt hsep a a ?_ hlt).le
    rw [count_joined hxs, count_joined hys, hlen]
  · rw [heq]

/-- Joined lists compare as their parts do. -/
theorem joined_lt (hsep : ∀ c, sep ≤ c) : ∀ {xs ys : List (List α)}, xs.length = ys.length →
    (∀ a ∈ xs, sep ∉ a) → (∀ a ∈ ys, sep ∉ a) → xs < ys → joined sep xs < joined sep ys := by
  intro xs
  induction xs with
  | nil =>
    intro ys hlen _ _ hlt
    obtain rfl := length_eq_zero_iff.1 hlen.symm
    exact absurd hlt (lt_irrefl _)
  | cons a xs ih =>
    intro ys hlen hxs hys hlt
    cases ys with
    | nil => cases hlen
    | cons b ys =>
      have hlen' : xs.length = ys.length := Nat.succ.inj hlen
      rw [forall_mem_cons] at hxs hys
      cases xs with
      | nil =>
        obtain rfl := length_eq_zero_iff.1 hlen'.symm
        simpa [joined, cons_lt_cons_iff] using hlt
      | cons c xs =>
        have hne : ys ≠ [] := by
          rintro rfl
          cases hlen'
        rw [joined_cons sep a (cons_ne_nil c xs), joined_cons sep b hne]
        rcases cons_lt_cons_iff.1 hlt with hab | ⟨rfl, htail⟩
        · refine append_sep_lt hsep _ _ ?_ hab
          rw [count_eq_zero.2 hxs.1, count_eq_zero.2 hys.1]
        · rw [append_lt_append_iff]
          exact cons_lt_cons_iff.2 (.inr ⟨rfl, ih hlen' hxs.2 hys.2 htail⟩)

end Order

end Cerbix.Lib
