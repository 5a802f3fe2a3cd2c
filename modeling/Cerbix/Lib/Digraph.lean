import Mathlib.Data.List.Dedup
import Mathlib.Logic.Relation

/-!
# Directed graphs that are rewritten at one node

`Walk R n a b` is a walk of `n` edges; in an `Acyclic R` none with an edge returns, under `Depth R
k` none has more than `k` edges. `replaceOut R c P` gives the node `c` the successors `P`:
`acyclic_replaceOut_iff` and `depth_replaceOut_iff` say when the new graph is acyclic and of bounded
depth. `reachedWithin` and `deepest` are the searches of a recursive query.
-/

namespace Cerbix.Lib

open List

universe u

/-- A walk of `n` edges from the first node to the second. -/
inductive Walk {α : Type u} (R : α → α → Prop) : Nat → α → α → Prop
  | nil (a : α) : Walk R 0 a a
  | cons {n : Nat} {a b c : α} : R a b → Walk R n b c → Walk R (n + 1) a c

/-- No walk leads back. -/
def Acyclic {α : Type u} (R : α → α → Prop) : Prop := ∀ n a, ¬ Walk R (n + 1) a a

/-- No walk has more than `k` edges. -/
def Depth {α : Type u} (R : α → α → Prop) (k : Nat) : Prop := ∀ n a b, Walk R n a b → n ≤ k

section Walks

variable {α : Type u} {R S : α → α → Prop} {n : Nat} {a b : α}

theorem Walk.mono (hRS : ∀ a b, R a b → S a b) (h : Walk R n a b) : Walk S n a b := by
  induction h with
  | nil a => exact .nil a
  | cons hab _ ih => exact .cons (hRS _ _ hab) ih

variable {c : α} {p : α → Prop}

theorem Walk.append {m : Nat} (h : Walk R n a b) (h' : Walk R m b c) : Walk R (n + m) a c := by
  induction h with
  | nil a => rw [Nat.zero_add]; exact h'
  | cons hab _ ih =>
    rw [Nat.add_right_comm]
    exact .cons hab (ih h')

theorem Walk.snoc (h : Walk R n a b) (hbc : R b c) : Walk R (n + 1) a c :=
  h.append (.cons hbc (.nil c))

theorem Walk.eq_of_zero (h : Walk R 0 a b) : a = b := by
  cases h
  rfl

theorem Walk.uncons (h : Walk R (n + 1) a c) : ∃ b, R a b ∧ Walk R n b c := by
  cases h with
  | cons hab hbc => exact ⟨_, hab, hbc⟩

theorem Walk.reverse (h : Walk R n a b) : Walk (fun x y => R y x) n b a := by
  induction h with
  | nil a => exact .nil a
  | cons hab _ ih => exact ih.snoc hab

theorem walk_flip_iff : Walk (fun x y => R y x) n a b ↔ Walk R n b a :=
  ⟨fun h => h.reverse, fun h => h.reverse⟩

theorem Acyclic.mono (hRS : ∀ a b, R a b → S a b) (h : Acyclic S) : Acyclic R :=
  fun n a hw => h n a (hw.mono hRS)

theorem Depth.mono (hRS : ∀ a b, R a b → S a b) {k : Nat} (h : Depth S k) : Depth R k :=
  fun n a b hw => h n a b (hw.mono hRS)

theorem Walk.iterate (h : Walk R n a a) : ∀ k, Walk R (n * k) a a := by
  intro k
  induction k with
  | zero => exact .nil a
  | succ k ih =>
    exact ih.append h

/-- **A graph of bounded depth has no cycle.** -/
theorem Depth.acyclic {k : Nat} (h : Depth R k) : Acyclic R := by
  intro n a hw
  have hle := h _ _ _ (hw.iterate (k + 1))
  have hge : k + 1 ≤ (n + 1) * (k + 1) := Nat.le_mul_of_pos_left _ (Nat.succ_pos n)
  omega

theorem acyclic_of_no_edge (h : ∀ a b, ¬ R a b) : Acyclic R := by
  intro n a hw
  obtain ⟨b, hab, -⟩ := hw.uncons
  exact h a b hab

theorem depth_of_no_edge (h : ∀ a b, ¬ R a b) (k : Nat) : Depth R k := by
  intro n a b hw
  cases hw with
  | nil => exact Nat.zero_le k
  | cons hab _ => exact absurd hab (h _ _)

theorem Walk.stays (hclosed : ∀ a b, p a → R a b → p b) (h : Walk R n a b) (ha : p a) : p b := by
  induction h with
  | nil => exact ha
  | cons hab _ ih => exact ih (hclosed _ _ ha hab)

theorem Walk.simulate {β : Type*} {Q : β → β → Prop} {F : α → β → Prop}
    (hsim : ∀ a b x, F a x → R a b → ∃ y, F b y ∧ Q x y)
    (h : Walk R n a b) : ∀ {x : β}, F a x → ∃ y, F b y ∧ Walk Q n x y := by
  induction h with
  | nil a => exact fun {x} hx => ⟨x, hx, .nil x⟩
  | cons hab _ ih =>
    intro x hx
    obtain ⟨y, hy, hxy⟩ := hsim _ _ x hx hab
    obtain ⟨z, hz, hyz⟩ := ih hy
    exact ⟨z, hz, .cons hxy hyz⟩

theorem acyclic_of_closed_part (hclosed : ∀ a b, p a → S a b → p b)
    (hpart : ∀ n a, p a → ¬ Walk S (n + 1) a a) (hrest : ∀ a b, ¬ p a → S a b → R a b)
    (hR : Acyclic R) : Acyclic S := by
  have houtside {n : Nat} {a b : α} (h : Walk S n a b) (hb : ¬ p b) : Walk R n a b := by
    induction h with
    | nil a => exact .nil a
    | cons hab hbc ih =>
      refine .cons (hrest _ _ (fun ha => ?_) hab) (ih hb)
      exact hb (hbc.stays hclosed (hclosed _ _ ha hab))
  intro n a hw
  by_cases ha : p a
  · exact hpart n a ha hw
  · exact hR n a (houtside hw ha)

end Walks

/-! ## Replacing the successors of one node -/

section

variable {α : Type u} (R : α → α → Prop) (c : α) (P : α → Prop)

/-- The graph in which `c` has the successors `P` and every other node its own. -/
def replaceOut : α → α → Prop := fun a b => (a = c ∧ P b) ∨ (a ≠ c ∧ R a b)

variable {R c P} {a b : α} {n : Nat}

theorem replaceOut_of_ne (h : a ≠ c) : replaceOut R c P a b ↔ R a b := by
  simp [replaceOut, h]

theorem replaceOut_self : replaceOut R c P c b ↔ P b := by
  simp [replaceOut]

theorem walk_replaceOut_of_unreached (ha : ∀ m, ¬ Walk R m a c) :
    Walk (replaceOut R c P) n a b ↔ Walk R n a b := by
  induction n generalizing a with
  | zero =>
    constructor <;> intro h <;> cases h <;> exact .nil _
  | succ n ih =>
    have hne : a ≠ c := by
      rintro rfl
      exact ha 0 (.nil a)
    have hnext {x : α} (hax : R a x) : ∀ m, ¬ Walk R m x c := fun m hw => ha _ (.cons hax hw)
    constructor
    · intro h
      obtain ⟨x, hax, hxb⟩ := h.uncons
      have hax' := (replaceOut_of_ne hne).1 hax
      exact .cons hax' ((ih (hnext hax')).1 hxb)
    · intro h
      obtain ⟨x, hax, hxb⟩ := h.uncons
      exact .cons ((replaceOut_of_ne hne).2 hax) ((ih (hnext hax)).2 hxb)

/-- **A walk of the new graph** is one of the old graph, or comes to `c` in the old graph, passes a
new edge and goes on in the old graph. -/
theorem walk_replaceOut (hout : ∀ p, P p → ∀ m, ¬ Walk R m p c)
    (h : Walk (replaceOut R c P) n a b) :
    Walk R n a b ∨ ∃ i j p, n = i + 1 + j ∧ Walk R i a c ∧ P p ∧ Walk R j p b := by
  induction h with
  | nil a => exact .inl (.nil a)
  | @cons n a x b hax hxb ih =>
    rcases hax with ⟨rfl, hx⟩ | ⟨-, hax⟩
    · refine .inr ⟨0, n, x, by omega, .nil a, hx, ?_⟩
      exact (walk_replaceOut_of_unreached (hout x hx)).1 hxb
    · rcases ih with hxb | ⟨i, j, p, rfl, hxc, hp, hpb⟩
      · exact .inl (.cons hax hxb)
      · exact .inr ⟨i + 1, j, p, by omega, .cons hax hxc, hp, hpb⟩

theorem exists_walk_replaceOut (h : Walk R n a c) : ∃ m, Walk (replaceOut R c P) m a c := by
  classical
  generalize hd : c = d at h
  induction h with
  | nil a => exact ⟨0, hd ▸ .nil _⟩
  | @cons n a x d hax _ ih =>
    subst hd
    by_cases hac : a = c
    · exact ⟨0, hac ▸ .nil _⟩
    · obtain ⟨m, hm⟩ := ih rfl
      exact ⟨m + 1, .cons ((replaceOut_of_ne hac).2 hax) hm⟩

theorem walk_replaceOut_to (hR : Acyclic R) (h : Walk R n a c) : Walk (replaceOut R c P) n a c := by
  generalize hd : c = d at h
  induction h with
  | nil a => exact hd ▸ .nil _
  | @cons n a x d hax hxd ih =>
    subst hd
    refine .cons ((replaceOut_of_ne ?_).2 hax) (ih rfl)
    rintro rfl
    exact hR _ _ (.cons hax hxd)

/-- **When a replacement makes a cycle**: exactly if a new successor reaches the node. -/
theorem acyclic_replaceOut_iff (hR : Acyclic R) :
    Acyclic (replaceOut R c P) ↔ ∀ p, P p → ∀ m, ¬ Walk R m p c := by
  constructor
  · intro h p hp m hw
    obtain ⟨k, hk⟩ := exists_walk_replaceOut (P := P) hw
    exact h k c (.cons (replaceOut_self.2 hp) hk)
  · intro hout n a hw
    rcases walk_replaceOut hout hw with hw | ⟨i, j, p, -, hac, hp, hpa⟩
    · exact hR n a hw
    · exact hout p hp _ (hpa.append hac)

/-- **When a replacement keeps the depth.** -/
theorem depth_replaceOut_iff {k : Nat} (hR : Depth R k) (hout : ∀ p, P p → ∀ m, ¬ Walk R m p c) :
    Depth (replaceOut R c P) k ↔
      ∀ i j a p b, Walk R i a c → P p → Walk R j p b → i + 1 + j ≤ k := by
  constructor
  · intro h i j a p b hac hp hpb
    apply h _ a b
    have hnew : Walk (replaceOut R c P) (1 + j) c b := by
      rw [Nat.add_comm]
      exact .cons (replaceOut_self.2 hp) ((walk_replaceOut_of_unreached (hout p hp)).2 hpb)
    rw [Nat.add_assoc]
    exact (walk_replaceOut_to hR.acyclic hac).append hnew
  · intro h n a b hw
    rcases walk_replaceOut hout hw with hw | ⟨i, j, p, rfl, hac, hp, hpb⟩
    · exact hR n a b hw
    · exact h i j a p b hac hp hpb

end

/-! ## Searches -/

section

variable {α : Type u} (next : α → List α)

def NextRel : α → α → Prop := fun a b => b ∈ next a

/-- What one to `n` steps from `start` reach, level by level. -/
def reachedWithin [DecidableEq α] : Nat → List α → List α
  | 0, _ => []
  | n + 1, start =>
    let level := (start.flatMap next).dedup
    level ++ reachedWithin n level

def deepest : Nat → List α → Nat
  | 0, _ => 0
  | n + 1, start =>
    let level := start.flatMap next
    if level.isEmpty then 0 else deepest n level + 1

variable {next}

theorem mem_reachedWithin [DecidableEq α] {x : α} : ∀ {n : Nat} {start : List α},
    x ∈ reachedWithin next n start ↔ ∃ k < n, ∃ a ∈ start, Walk (NextRel next) (k + 1) a x := by
  intro n
  induction n with
  | zero => simp [reachedWithin]
  | succ n ih =>
    intro start
    rw [reachedWithin, mem_append, mem_dedup, mem_flatMap, ih]
    constructor
    · rintro (⟨a, ha, hax⟩ | ⟨k, hk, b, hb, hbx⟩)
      · exact ⟨0, Nat.succ_pos n, a, ha, .cons hax (.nil x)⟩
      · obtain ⟨a, ha, hab⟩ := mem_flatMap.1 (mem_dedup.1 hb)
        exact ⟨k + 1, Nat.succ_lt_succ hk, a, ha, .cons hab hbx⟩
    · rintro ⟨k, hk, a, ha, hax⟩
      obtain ⟨b, hab, hbx⟩ := hax.uncons
      cases k with
      | zero =>
        cases hbx
        exact .inl ⟨a, ha, hab⟩
      | succ k =>
        refine .inr ⟨k, Nat.lt_of_succ_lt_succ hk, b, ?_, hbx⟩
        exact mem_dedup.2 (mem_flatMap.2 ⟨a, ha, hab⟩)

theorem le_deepest_iff {k : Nat} (hk : 0 < k) : ∀ {n : Nat} {start : List α},
    k ≤ deepest next n start ↔ k ≤ n ∧ ∃ a ∈ start, ∃ b, Walk (NextRel next) k a b := by
  induction k with
  | zero => exact absurd hk (Nat.lt_irrefl 0)
  | succ k ih =>
    intro n start
    cases n with
    | zero => simp [deepest]
    | succ n =>
      rw [deepest]
      split
      · next hempty =>
        refine iff_of_false (by omega) ?_
        rintro ⟨-, a, ha, b, hw⟩
        obtain ⟨x, hax, -⟩ := hw.uncons
        have hx : x ∈ start.flatMap next := mem_flatMap.2 ⟨a, ha, hax⟩
        rw [isEmpty_iff.1 hempty] at hx
        cases hx
      · next hsome =>
        rw [Nat.succ_le_succ_iff, Nat.succ_le_succ_iff]
        cases k with
        | zero =>
          refine iff_of_true (Nat.zero_le _) ⟨Nat.zero_le _, ?_⟩
          obtain ⟨x, hx⟩ := exists_mem_of_ne_nil _ fun h => hsome (isEmpty_iff.2 h)
          obtain ⟨a, ha, hax⟩ := mem_flatMap.1 hx
          exact ⟨a, ha, x, .cons hax (.nil x)⟩
        | succ k =>
          rw [ih (Nat.succ_pos k)]
          constructor
          · rintro ⟨hkn, x, hx, b, hxb⟩
            obtain ⟨a, ha, hax⟩ := mem_flatMap.1 hx
            exact ⟨hkn, a, ha, b, .cons hax hxb⟩
          · rintro ⟨hkn, a, ha, b, hw⟩
            obtain ⟨x, hax, hxb⟩ := hw.uncons
            exact ⟨hkn, x, mem_flatMap.2 ⟨a, ha, hax⟩, b, hxb⟩

variable {start : List α}

theorem Walk.le_deepest {k n : Nat} {a b : α} (h : Walk (NextRel next) k a b)
    (ha : a ∈ start) (hk : k ≤ n) : k ≤ deepest next n start := by
  cases k with
  | zero => exact Nat.zero_le _
  | succ k => exact (le_deepest_iff (Nat.succ_pos k)).2 ⟨hk, a, ha, b, h⟩

variable (next)

theorem exists_walk_deepest (n : Nat) (hne : start ≠ []) :
    ∃ a ∈ start, ∃ b, Walk (NextRel next) (deepest next n start) a b := by
  rcases Nat.eq_zero_or_pos (deepest next n start) with hzero | hpos
  · obtain ⟨a, ha⟩ := exists_mem_of_ne_nil _ hne
    rw [hzero]
    exact ⟨a, ha, a, .nil a⟩
  · exact ((le_deepest_iff hpos).1 (Nat.le_refl _)).2

end

end Cerbix.Lib
