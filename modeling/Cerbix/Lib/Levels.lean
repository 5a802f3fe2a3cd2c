import Cerbix.Lib.Dict
import Cerbix.Lib.Digraph

/-!
# Breadth-first search that keeps the best label of each node

A node reached first at some level gets the least label (by `rank`) of those that the level before
offers it, and keeps it. When extending a label is monotone, that is the least label of all shortest
walks from the start (`search_spec`).

`Label n x l`: `l` is the label of a walk of `n` edges to `x`; `Shortest n x`: no walk to `x` is
shorter; `Least n x l`: `l` is the least label of the shortest walks.
-/

namespace Cerbix.Lib

open List Bool Dict

section Levels

variable {α β ρ : Type} [LinearOrder α] [LinearOrder ρ]

/-- A node keeps the better of its label and the offered one. -/
def offer (rank : β → ρ) (labels : Dict α β) (c : α × β) : Dict α β :=
  match labels.get? c.1 with
  | none => labels.set c.1 c.2
  | some prev => if rank c.2 < rank prev then labels.set c.1 c.2 else labels

variable {x : α} {l : β} {n : Nat}

theorem get?_offer_of_ne {rank : β → ρ} {labels : Dict α β} {c : α × β} (h : x ≠ c.1) :
    (offer rank labels c).get? x = labels.get? x := by
  unfold offer
  split
  · rw [get?_set, if_neg h]
  · split
    · rw [get?_set, if_neg h]
    · rfl

theorem get?_offer_self (rank : β → ρ) (labels : Dict α β) (c : α × β) :
    ∃ l, (offer rank labels c).get? c.1 = some l ∧ rank l ≤ rank c.2 ∧
      (l = c.2 ∨ labels.get? c.1 = some l) ∧ ∀ prev, labels.get? c.1 = some prev →
        rank l ≤ rank prev := by
  unfold offer
  split
  · next h => exact ⟨c.2, by rw [get?_set, if_pos rfl], le_refl _, .inl rfl, by simp [h]⟩
  · next prev h =>
    split
    · next hlt =>
      refine ⟨c.2, by rw [get?_set, if_pos rfl], le_refl _, .inl rfl, ?_⟩
      intro prev' h'
      rw [h] at h'
      cases h'
      exact hlt.le
    · next hge =>
      refine ⟨prev, h, not_lt.1 hge, .inr h, ?_⟩
      intro prev' h'
      rw [h] at h'
      cases h'
      exact le_refl _

/-- **After all offers** a node has the least of those it was made, and a node without an offer has
what it had. -/
theorem get?_foldl_offer {rank : β → ρ} {cs : List (α × β)} : ∀ {labels : Dict α β} {x : α},
    (∀ l, (cs.foldl (offer rank) labels).get? x = some l →
      ((x, l) ∈ cs ∨ labels.get? x = some l) ∧ (∀ l', (x, l') ∈ cs → rank l ≤ rank l') ∧
        ∀ prev, labels.get? x = some prev → rank l ≤ rank prev) ∧
    ((∃ l, (x, l) ∈ cs) ∨ (labels.get? x).isSome →
      ((cs.foldl (offer rank) labels).get? x).isSome) := by
  induction cs with
  | nil =>
    intro labels x
    refine ⟨?_, by simp⟩
    intro l h
    refine ⟨.inr h, by simp, ?_⟩
    intro prev hprev
    rw [foldl_nil, hprev] at h
    cases h
    exact le_refl _
  | cons c cs ih =>
    intro labels x
    obtain ⟨hsome, hexists⟩ := @ih (offer rank labels c) x
    by_cases hx : x = c.1
    · subst hx
      obtain ⟨m, hm, hmc, hmfrom, hmprev⟩ := get?_offer_self rank labels c
      refine ⟨?_, fun _ => hexists (.inr (by rw [hm]; rfl))⟩
      intro l hl
      obtain ⟨hfrom, hleast, hprev⟩ := hsome l hl
      have hlm := hprev m hm
      refine ⟨?_, ?_, fun prev h => hlm.trans (hmprev prev h)⟩
      · rcases hfrom with hfrom | hfrom
        · exact .inl (mem_cons_of_mem c hfrom)
        · rw [hm] at hfrom
          cases hfrom
          rcases hmfrom with rfl | hmfrom
          · exact .inl mem_cons_self
          · exact .inr hmfrom
      · intro l' hl'
        rcases mem_cons.1 hl' with hc | hl'
        · rw [show l' = c.2 from congrArg Prod.snd hc]
          exact hlm.trans hmc
        · exact hleast l' hl'
    · have hne {l : β} : (x, l) ≠ c := fun h => hx (congrArg Prod.fst h)
      rw [get?_offer_of_ne hx] at hsome hexists
      refine ⟨?_, ?_⟩
      · intro l hl
        obtain ⟨hfrom, hleast, hprev⟩ := hsome l hl
        refine ⟨hfrom.imp_left (mem_cons_of_mem c), ?_, hprev⟩
        intro l' hl'
        exact hleast l' ((mem_cons.1 hl').resolve_left hne)
      · rintro (⟨l, hl⟩ | h)
        · exact hexists (.inl ⟨l, (mem_cons.1 hl).resolve_left hne⟩)
        · exact hexists (.inr h)

variable (next : α → List α) (extend : β → α → β) (rank : β → ρ) (order : List α → List α)

def offers (start : α) (best frontier : Dict α β) : List (α × β) :=
  (order frontier.keys).flatMap fun n =>
    match frontier.get? n with
    | none => []
    | some base => ((next n).filter fun x => !(x = start || best.contains x)).map fun x =>
      (x, extend base x)

def levels (start : α) : Nat → Dict α β → Dict α β → Dict α β
  | 0, best, _ => best
  | n + 1, best, frontier =>
    if frontier.size = 0 then best else
    let level := (offers next extend order start best frontier).foldl (offer rank) .empty
    levels start n (best.setAll level.entries) level

/-- The labels of all nodes within the bound, level by level. -/
def search (bound : Nat) (start : α) (label : β) : Dict α β :=
  levels next extend rank order start bound .empty (empty.set start label)

variable (start : α) (label : β)

/-- What a walk of that length makes of the label. -/
inductive Label : Nat → α → β → Prop
  | nil : Label 0 start label
  | snoc {n : Nat} {x y : α} {l : β} : Label n x l → y ∈ next x → Label (n + 1) y (extend l y)

/-- There is a walk of `n` edges to `x`, and none is shorter. -/
def Shortest (n : Nat) (x : α) : Prop :=
  (∃ l, Label next extend start label n x l) ∧ ∀ m < n, ∀ l, ¬ Label next extend start label m x l

def Least (n : Nat) (x : α) (l : β) : Prop :=
  Shortest next extend start label n x ∧ Label next extend start label n x l ∧
    ∀ l', Label next extend start label n x l' → rank l ≤ rank l'

variable {next extend rank order start label}

omit [LinearOrder α] in
theorem Label.zero (h : Label next extend start label 0 x l) : x = start ∧ l = label := by
  cases h
  exact ⟨rfl, rfl⟩

omit [LinearOrder α] in
theorem Label.unsnoc {y : α} (h : Label next extend start label (n + 1) y l) :
    ∃ x l', Label next extend start label n x l' ∧ y ∈ next x ∧ l = extend l' y := by
  cases h with
  | snoc hx hy => exact ⟨_, _, hx, hy, rfl⟩

omit [LinearOrder α] in
theorem exists_shortest (h : Label next extend start label n x l) :
    ∃ e ≤ n, Shortest next extend start label e x := by
  classical
  have hex : ∃ m, ∃ l, Label next extend start label m x l := ⟨n, l, h⟩
  refine ⟨Nat.find hex, Nat.find_min' hex ⟨l, h⟩, Nat.find_spec hex, ?_⟩
  intro m hm l' hl'
  exact Nat.find_min hex hm ⟨l', hl'⟩

omit [LinearOrder α] in
theorem Shortest.before {y : α}
    (h : Shortest next extend start label (n + 1) y) (hx : Label next extend start label n x l)
    (hxy : y ∈ next x) : Shortest next extend start label n x := by
  refine ⟨⟨l, hx⟩, ?_⟩
  intro m hm l' hl'
  exact h.2 (m + 1) (Nat.succ_lt_succ hm) _ (.snoc hl' hxy)

omit [LinearOrder α] in
theorem not_shortest_of_empty {d : Nat} (h : ∀ x, ¬ Shortest next extend start label d x) :
    ∀ {e : Nat} {x : α}, d ≤ e → ¬ Shortest next extend start label e x := by
  intro e
  induction e with
  | zero =>
    intro x hd
    obtain rfl := Nat.le_zero.1 hd
    exact h x
  | succ e ih =>
    intro x hd hshort
    rcases Nat.lt_or_ge e d with hlt | hge
    · obtain rfl : d = e + 1 := by omega
      exact h x hshort
    · obtain ⟨l, hl⟩ := hshort.1
      obtain ⟨y, l', hy, hxy, -⟩ := hl.unsnoc
      exact ih hge (hshort.before hy hxy)

/-! ## What a level does -/

section

variable (hperm : ∀ ks, (order ks).Perm ks)
  (hmono : ∀ n x y l l', Label next extend start label n x l →
    Label next extend start label n x l' →
    rank l ≤ rank l' → rank (extend l y) ≤ rank (extend l' y))

/-- After `d` levels, the frontier has the nodes at distance `d` and `best` the nearer ones. -/
structure AtLevel (next : α → List α) (extend : β → α → β) (rank : β → ρ) (start : α) (label : β)
    (d : Nat) (best frontier : Dict α β) : Prop where
  frontier_least : ∀ x l, frontier.get? x = some l → Least next extend rank start label d x l
  frontier_all : ∀ x, Shortest next extend start label d x → (frontier.get? x).isSome
  best_least : ∀ x l, best.get? x = some l →
    ∃ e, 0 < e ∧ e ≤ d ∧ Least next extend rank start label e x l
  best_all : ∀ x e, 0 < e → e ≤ d → Shortest next extend start label e x → (best.get? x).isSome

variable {d : Nat} {best frontier : Dict α β}

theorem AtLevel.passed_iff (h : AtLevel next extend rank start label d best frontier) {x : α} :
    (x = start || best.contains x) = true ↔ ∃ e ≤ d, ∃ l, Label next extend start label e x l := by
  rw [or_eq_true, decide_eq_true_eq]
  constructor
  · rintro (rfl | hbest)
    · exact ⟨0, Nat.zero_le d, label, .nil⟩
    · obtain ⟨l, hl⟩ := Option.isSome_iff_exists.1 hbest
      obtain ⟨e, -, he, hleast⟩ := h.best_least x l hl
      exact ⟨e, he, l, hleast.2.1⟩
  · rintro ⟨n, hn, l, hl⟩
    obtain ⟨e, he, hshort⟩ := exists_shortest hl
    rcases Nat.eq_zero_or_pos e with rfl | hpos
    · obtain ⟨l', hl'⟩ := hshort.1
      exact .inl hl'.zero.1
    · exact .inr (h.best_all x e hpos (he.trans hn) hshort)

include hperm in
omit [LinearOrder ρ] in
theorem mem_offers {y : α} {l : β} : (y, l) ∈ offers next extend order start best frontier ↔
      ∃ x base, frontier.get? x = some base ∧ y ∈ next x ∧
        ¬ ((y = start || best.contains y) = true) ∧ l = extend base y := by
  simp only [offers, mem_flatMap]
  constructor
  · rintro ⟨x, -, hmem⟩
    split at hmem
    · cases hmem
    rename_i base hbase
    simp only [mem_map, mem_filter, not_eq_true'] at hmem
    obtain ⟨z, ⟨hz, hpass⟩, rfl, rfl⟩ := hmem
    exact ⟨x, base, hbase, hz, by rw [hpass]; exact false_ne_true, rfl⟩
  · rintro ⟨x, base, hbase, hy, hpass, rfl⟩
    have hx : x ∈ frontier.keys := Dict.mem_keys.2 (by rw [Dict.contains, hbase]; rfl)
    refine ⟨x, (hperm _).mem_iff.2 hx, ?_⟩
    rw [hbase]
    simp only [mem_map, mem_filter, Prod.mk.injEq, not_eq_true']
    exact ⟨y, ⟨hy, eq_false_iff.2 hpass⟩, rfl, rfl⟩

include hperm hmono in
theorem AtLevel.level (h : AtLevel next extend rank start label d best frontier) :
    (∀ y l, ((offers next extend order start best frontier).foldl (offer rank) .empty).get? y =
      some l →
      Least next extend rank start label (d + 1) y l) ∧
    ∀ y, Shortest next extend start label (d + 1) y →
      (((offers next extend order start best frontier).foldl (offer rank) .empty).get?
        y).isSome := by
  -- Every walk to a node that is not passed over has an offer that is as good.
  have hoffer {y : α} {l : β} (hy : Shortest next extend start label (d + 1) y)
      (hl : Label next extend start label (d + 1) y l) :
      ∃ l', (y, l') ∈ offers next extend order start best frontier ∧ rank l' ≤ rank l := by
    obtain ⟨x, lx, hx, hxy, rfl⟩ := hl.unsnoc
    obtain ⟨base, hbase⟩ := Option.isSome_iff_exists.1 (h.frontier_all x (hy.before hx hxy))
    have hleast := h.frontier_least x base hbase
    refine ⟨extend base y, (mem_offers hperm).2 ⟨x, base, hbase, hxy, ?_, rfl⟩, ?_⟩
    · rw [h.passed_iff]
      rintro ⟨e, he, l', hl'⟩
      exact hy.2 e (Nat.lt_succ_of_le he) l' hl'
    · exact hmono d x y base lx hleast.2.1 hx (hleast.2.2 lx hx)
  refine ⟨?_, ?_⟩
  · intro y l hl
    obtain ⟨hfrom, hleast, -⟩ := get?_foldl_offer.1 l hl
    have hmem := hfrom.resolve_right (by simp [get?, empty])
    obtain ⟨x, base, hbase, hxy, hpass, rfl⟩ := (mem_offers hperm).1 hmem
    have hlabel : Label next extend start label (d + 1) y (extend base y) :=
      .snoc (h.frontier_least x base hbase).2.1 hxy
    have hshort : Shortest next extend start label (d + 1) y := by
      refine ⟨⟨_, hlabel⟩, ?_⟩
      intro m hm l' hl'
      exact hpass (h.passed_iff.2 ⟨m, Nat.le_of_lt_succ hm, l', hl'⟩)
    refine ⟨hshort, hlabel, ?_⟩
    intro l' hl'
    obtain ⟨l'', hoffered, hle⟩ := hoffer hshort hl'
    exact (hleast l'' hoffered).trans hle
  · intro y hy
    obtain ⟨l, hl⟩ := hy.1
    obtain ⟨l', hoffered, -⟩ := hoffer hy hl
    exact get?_foldl_offer.2 (.inl ⟨l', hoffered⟩)

include hperm hmono in
/-- **What the levels find** from distance `d` on. -/
theorem levels_spec (n : Nat) : ∀ {d : Nat} {best frontier : Dict α β},
    AtLevel next extend rank start label d best frontier →
      (∀ x l, (levels next extend rank order start n best frontier).get? x = some l →
        ∃ e, 0 < e ∧ e ≤ d + n ∧ Least next extend rank start label e x l) ∧
      ∀ x e, 0 < e → e ≤ d + n → Shortest next extend start label e x →
        ((levels next extend rank order start n best frontier).get? x).isSome := by
  induction n with
  | zero =>
    intro d best frontier h
    exact ⟨h.best_least, h.best_all⟩
  | succ n ih =>
    intro d best frontier h
    rw [levels]
    split
    · next hempty =>
      have hnone : ∀ x, ¬ Shortest next extend start label d x := by
        intro x hx
        have hkey : x ∈ frontier.keys := mem_keys.2 (h.frontier_all x hx)
        rw [length_eq_zero_iff.1 ((length_keys frontier).trans hempty)] at hkey
        cases hkey
      refine ⟨?_, ?_⟩
      · intro x l hl
        obtain ⟨e, hpos, he, hleast⟩ := h.best_least x l hl
        exact ⟨e, hpos, by omega, hleast⟩
      · intro x e hpos _ hshort
        rcases Nat.lt_or_ge e d with hlt | hge
        · exact h.best_all x e hpos hlt.le hshort
        · exact absurd hshort (not_shortest_of_empty hnone hge)
    · obtain ⟨hleast, hall⟩ := h.level hperm hmono
      have hnext : AtLevel next extend rank start label (d + 1)
          (best.setAll ((offers next extend order start best frontier).foldl (offer rank)
            .empty).entries)
          ((offers next extend order start best frontier).foldl (offer rank) .empty) := by
        refine ⟨hleast, hall, ?_, ?_⟩
        · intro x l hl
          rw [get?_setAll_entries, Option.or_eq_some_iff] at hl
          rcases hl with hnew | ⟨-, hold⟩
          · exact ⟨d + 1, Nat.succ_pos d, Nat.le_refl _, hleast x l hnew⟩
          · obtain ⟨e, hpos, he, hold⟩ := h.best_least x l hold
            exact ⟨e, hpos, he.trans (Nat.le_succ d), hold⟩
        · intro x e hpos he hshort
          rw [get?_setAll_entries, Option.isSome_or, or_eq_true]
          rcases Nat.lt_or_ge d e with hlt | hge
          · obtain rfl : e = d + 1 := by omega
            exact .inl (hall x hshort)
          · exact .inr (h.best_all x e hpos hge hshort)
      obtain ⟨hfound, hcomplete⟩ := ih hnext
      rw [Nat.add_right_comm] at hfound hcomplete
      exact ⟨hfound, hcomplete⟩

include hperm hmono in
/-- **What a search finds**: the nodes within the bound, the start apart, each with the least label
of its shortest walks. -/
theorem search_spec (bound : Nat) :
    (∀ x l, (search next extend rank order bound start label).get? x = some l →
      ∃ e, 0 < e ∧ e ≤ bound ∧ Least next extend rank start label e x l) ∧
    ∀ x e, 0 < e → e ≤ bound → Shortest next extend start label e x →
      ((search next extend rank order bound start label).get? x).isSome := by
  have hstart : AtLevel next extend rank start label 0 .empty (empty.set start label) := by
    refine ⟨?_, ?_, ?_, ?_⟩
    · intro x l hl
      rw [get?_set] at hl
      split at hl
      · next hx =>
        cases hl
        subst hx
        refine ⟨⟨⟨_, .nil⟩, fun m hm => absurd hm (Nat.not_lt_zero m)⟩, .nil, ?_⟩
        intro l' hl'
        rw [hl'.zero.2]
      · cases hl
    · rintro x ⟨⟨l, hl⟩, -⟩
      rw [hl.zero.1, get?_set, if_pos rfl]
      rfl
    · intro x l hl
      cases hl
    · intro x e hpos he
      omega
  have := levels_spec hperm hmono bound hstart
  rwa [Nat.zero_add] at this

end

end Levels

end Cerbix.Lib
