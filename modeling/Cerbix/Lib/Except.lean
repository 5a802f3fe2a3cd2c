import Mathlib.Data.List.Forall2

/-!
# Computations that may fail

How a successful run of a sequence or of a traversal decomposes.
-/

namespace Cerbix.Lib

open List

universe u

variable {ε α β : Type u} {x : Except ε α} {f : α → Except ε β} {refused : Bool} {xs : List α}
  {ys : List β} {σ : Type u}

theorem bind_eq_ok {b : β} : (x >>= f) = .ok b ↔ ∃ a, x = .ok a ∧ f a = .ok b := by
  cases x <;> simp [bind, Except.bind]

theorem mapError_eq_ok {ε' : Type u} {f : ε → ε'} {a : α} : x.mapError f = .ok a ↔ x = .ok a := by
  cases x <;> simp [Except.mapError]

theorem toOption_eq_some {a : α} : x.toOption = some a ↔ x = .ok a := by
  cases x <;> simp [Except.toOption]

/-- A check that fails with an error. -/
def refuseIf {ε : Type} (refused : Bool) (e : ε) : Except ε Unit :=
  if refused then .error e else .ok ()

theorem refuseIf_of_false {ε : Type} {e : ε} (h : refused = false) :
    refuseIf refused e = .ok () := by
  rw [h]
  rfl

theorem refuseIf_eq_ok {ε : Type} {e : ε} {u : Unit} :
    refuseIf refused e = .ok u ↔ refused = false := by
  cases refused <;> simp [refuseIf]

theorem mapM_eq_ok : ∀ {xs : List α} {ys : List β},
    xs.mapM f = .ok ys → List.Forall₂ (fun x y => f x = .ok y) xs ys
  | [], ys, h => by
    obtain rfl : [] = ys := by simpa [pure, Except.pure] using h
    exact .nil
  | x :: xs, ys, h => by
    rw [mapM_cons] at h
    obtain ⟨y, hy, h⟩ := bind_eq_ok.1 h
    obtain ⟨ys', hys, h⟩ := bind_eq_ok.1 h
    obtain rfl : y :: ys' = ys := by simpa [pure, Except.pure] using h
    exact .cons hy (mapM_eq_ok hys)

theorem exists_of_forall₂ {R : α → β → Prop} {x : α}
    (h : List.Forall₂ R xs ys) (hx : x ∈ xs) : ∃ y ∈ ys, R x y := by
  induction h with
  | nil => cases hx
  | @cons x' y xs ys hy _ ih =>
    rcases mem_cons.1 hx with rfl | hx
    · exact ⟨y, mem_cons_self, hy⟩
    · obtain ⟨y', hy', hR⟩ := ih hx
      exact ⟨y', mem_cons_of_mem y hy', hR⟩

theorem exists_of_mem_mapM {y : β} (h : xs.mapM f = .ok ys) (hy : y ∈ ys) : ∃ x ∈ xs, f x = .ok y :=
  exists_of_forall₂ (mapM_eq_ok h).flip hy

theorem exists_mem_of_mapM {x : α} (h : xs.mapM f = .ok ys) (hx : x ∈ xs) : ∃ y ∈ ys, f x = .ok y :=
  exists_of_forall₂ (mapM_eq_ok h) hx

theorem forM_eq_ok {f : α → Except ε PUnit.{u + 1}} : ∀ {xs : List α},
    xs.forM f = .ok ⟨⟩ ↔ ∀ x ∈ xs, f x = .ok ⟨⟩
  | [] => by simp [pure, Except.pure]
  | x :: xs => by
    rw [show (x :: xs).forM f = (f x >>= fun _ => xs.forM f) from rfl, bind_eq_ok,
      forall_mem_cons, ← forM_eq_ok]
    constructor
    · rintro ⟨⟨⟩, hx, hxs⟩
      exact ⟨hx, hxs⟩
    · rintro ⟨hx, hxs⟩
      exact ⟨⟨⟩, hx, hxs⟩

theorem exists_of_forM_error {f : α → Except ε PUnit.{u + 1}} {e : ε} : ∀ {xs : List α},
    xs.forM f = .error e → ∃ x ∈ xs, f x = .error e
  | x :: xs, h => by
    change (f x >>= fun _ => xs.forM f) = .error e at h
    cases hx : f x with
    | error e' =>
      rw [hx] at h
      cases h
      exact ⟨x, mem_cons_self, hx⟩
    | ok _ =>
      rw [hx] at h
      obtain ⟨y, hy, he⟩ := exists_of_forM_error h
      exact ⟨y, mem_cons_of_mem x hy, he⟩

theorem foldlM_invariant {I : σ → Prop} {f : σ → α → Except ε σ} :
    ∀ {xs : List α} {s s' : σ}, (∀ x ∈ xs, ∀ t t', I t → f t x = .ok t' → I t') → I s →
      xs.foldlM f s = .ok s' → I s'
  | [], s, s', _, hs, h => by
    obtain rfl : s = s' := by simpa [pure, Except.pure] using h
    exact hs
  | x :: xs, s, s', hstep, hs, h => by
    rw [foldlM_cons] at h
    obtain ⟨t, ht, h⟩ := bind_eq_ok.1 h
    exact foldlM_invariant (fun y hy => hstep y (mem_cons_of_mem x hy))
      (hstep x mem_cons_self s t hs ht) h

theorem foldlM_reaches {P Q : σ → Prop} {f : σ → α → Except ε σ} {x : α} :
    ∀ {xs : List α} {s s' : σ}, x ∈ xs → (∀ y ∈ xs, ∀ t t', P t → f t y = .ok t' → P t' ∨ Q t') →
      (∀ y ∈ xs, ∀ t t', Q t → f t y = .ok t' → Q t') →
      (∀ t t', P t → f t x = .ok t' → Q t') → P s → xs.foldlM f s = .ok s' → Q s'
  | y :: xs, s, s', hx, hkeep, hdone, hhit, hs, h => by
    rw [foldlM_cons] at h
    obtain ⟨t, ht, hrest⟩ := bind_eq_ok.1 h
    have hdone' : ∀ z ∈ xs, ∀ t t', Q t → f t z = .ok t' → Q t' := fun z hz =>
      hdone z (mem_cons_of_mem y hz)
    rcases mem_cons.1 hx with rfl | hx
    · exact foldlM_invariant hdone' (hhit s t hs ht) hrest
    · rcases hkeep y mem_cons_self s t hs ht with hP | hQ
      · exact foldlM_reaches hx (fun z hz => hkeep z (mem_cons_of_mem y hz)) hdone' hhit hP hrest
      · exact foldlM_invariant hdone' hQ hrest

end Cerbix.Lib
