import Cerbix.Lib.Digraph
import Cerbix.Lib.Except

/-!
# Depth-first search with three colours

A node is gray while it is being visited and black afterwards; an edge to a gray node closes a
cycle. The fuel bounds the depth of the recursion: with as much of it as there are nodes, the search
succeeds exactly if there is no cycle (`dfs_ok_iff`), and never runs out (`dfs_searched`).

A visit that succeeds adds to the black nodes and keeps the gray ones (`Extends`). Black nodes are
closed under edges and lie on no cycle (`Explored`); every gray node reaches the one that is visited
(`OnStack`).
-/

namespace Cerbix.Lib

open List Function

/-- Not seen, on the stack, or done. -/
inductive Color
  | white
  | gray
  | black
  deriving DecidableEq, Repr

inductive SearchError (α : Type)
  /-- The edge from the first node to the second closes a cycle. -/
  | cycle (node next : α)
  | outOfFuel
  deriving DecidableEq, Repr

section Search

variable {α : Type} [DecidableEq α] (next : α → List α)

def exploreEdge (visit : (α → Color) → α → Except (SearchError α) (α → Color)) (u : α)
    (color : α → Color) (v : α) : Except (SearchError α) (α → Color) :=
  match color v with
  | .gray => .error (.cycle u v)
  | .white => visit color v
  | .black => .ok color

/-- Explore a node; fuel bounds the depth. -/
def visit : Nat → (α → Color) → α → Except (SearchError α) (α → Color)
  | 0, _, _ => .error .outOfFuel
  | fuel + 1, color, u => do
    let explored ← (next u).foldlM (exploreEdge (visit fuel) u) (update color u .gray)
    pure (update explored u .black)

/-- Explore every node. -/
def dfs (nodes : List α) : Except (SearchError α) (α → Color) :=
  nodes.foldlM
    (fun color u => if color u = .white then visit next nodes.length color u else .ok color)
    fun _ => .white

/-- The stack is as before, and what was done stays done. -/
structure Extends (color color' : α → Color) : Prop where
  gray : ∀ x, color' x = .gray ↔ color x = .gray
  black : ∀ x, color x = .black → color' x = .black

/-- What is done is closed under edges and has no cycle. -/
structure Explored (color : α → Color) : Prop where
  closed : ∀ x y, color x = .black → NextRel next x y → color y = .black
  acyclic : ∀ x, color x = .black → ∀ n, ¬ Walk (NextRel next) (n + 1) x x

def OnStack (color : α → Color) (u : α) : Prop :=
  ∀ g, color g = .gray → ∃ n, Walk (NextRel next) n g u

def whites (nodes : List α) (color : α → Color) : Nat :=
  (nodes.filter fun x => color x = .white).length

variable {next}

omit [DecidableEq α] in
theorem Extends.refl (color : α → Color) : Extends color color := ⟨fun _ => Iff.rfl, fun _ => id⟩

variable {a b color : α → Color} {nodes : List α} {u : α}

omit [DecidableEq α] in
theorem Extends.trans {c : α → Color} (h : Extends a b) (h' : Extends b c) : Extends a c :=
  ⟨fun x => (h'.gray x).trans (h.gray x), fun x hx => h'.black x (h.black x hx)⟩

omit [DecidableEq α] in
theorem Extends.white (h : Extends a b) {x : α} (hx : b x = .white) : a x = .white := by
  cases ha : a x with
  | white => rfl
  | gray => exact absurd ((h.gray x).2 ha) (by rw [hx]; decide)
  | black => exact absurd (h.black x ha) (by rw [hx]; decide)

omit [DecidableEq α] in
theorem Extends.whites_le (h : Extends a b) (nodes : List α) : whites nodes b ≤ whites nodes a := by
  refine (monotone_filter_right nodes fun x hx => ?_).length_le
  simp only [decide_eq_true_eq] at hx ⊢
  exact h.white hx

theorem whites_update_lt (hu : u ∈ nodes) (hw : color u = .white) {c : Color} (hc : c ≠ .white) :
    whites nodes (update color u c) < whites nodes color := by
  induction nodes with
  | nil => cases hu
  | cons x xs ih =>
    have hle : whites xs (update color u c) ≤ whites xs color := by
      refine (monotone_filter_right xs fun y hy => ?_).length_le
      by_cases hyu : y = u
      · simp [hyu, hc] at hy
      · simpa [update_of_ne hyu] using hy
    by_cases hxu : x = u
    · subst hxu
      simp only [whites, filter_cons, update_self, hc, hw] at hle ⊢
      simpa using Nat.lt_succ_of_le hle
    · have hlt := ih ((mem_cons.1 hu).resolve_left (Ne.symm hxu))
      simp only [whites, filter_cons, update_of_ne hxu] at hlt ⊢
      split
      · simpa using hlt
      · exact hlt

omit [DecidableEq α] in
theorem Explored.walk (h : Explored next color) {x y : α} {n : Nat}
    (hw : Walk (NextRel next) n x y) (hx : color x = .black) : color y = .black :=
  hw.stays (p := fun z => color z = .black) h.closed hx

theorem Explored.start (h : Explored next color)
    (hu : color u = .white) : Explored next (update color u .gray) := by
  have hblack {x : α} : update color u .gray x = .black ↔ color x = .black := by
    by_cases hx : x = u
    · simp [hx, hu]
    · rw [update_of_ne hx]
  refine ⟨?_, ?_⟩
  · intro x y hx hxy
    exact hblack.2 (h.closed x y (hblack.1 hx) hxy)
  · intro x hx
    exact h.acyclic x (hblack.1 hx)

theorem Explored.finish (h : Explored next color) (hu : color u ≠ .black)
    (hnext : ∀ v ∈ next u, color v = .black) : Explored next (update color u .black) := by
  have hblack {x : α} (hx : color x = .black) : update color u .black x = .black := by
    by_cases hxu : x = u
    · rw [hxu, update_self]
    · rwa [update_of_ne hxu]
  refine ⟨?_, ?_⟩
  · intro x y hx hxy
    by_cases hxu : x = u
    · subst hxu
      exact hblack (hnext y hxy)
    · rw [update_of_ne hxu] at hx
      exact hblack (h.closed x y hx hxy)
  · intro x hx n hw
    by_cases hxu : x = u
    · subst hxu
      obtain ⟨y, hxy, hyx⟩ := hw.uncons
      exact hu (h.walk hyx (hnext y hxy))
    · rw [update_of_ne hxu] at hx
      exact h.acyclic x hx n hw

def VisitSpec (next : α → List α)
    (visit : (α → Color) → α → Except (SearchError α) (α → Color)) : Prop :=
  ∀ color u color', color u = .white → visit color u = .ok color' →
    Extends color color' ∧ color' u = .black ∧ (Explored next color → Explored next color')

omit [DecidableEq α] in
theorem foldlM_exploreEdge {visit : (α → Color) → α → Except (SearchError α) (α → Color)}
    (hvisit : VisitSpec next visit) {vs : List α} : ∀ {color color' : α → Color},
    vs.foldlM (exploreEdge visit u) color = .ok color' →
      Extends color color' ∧ (∀ v ∈ vs, color' v = .black) ∧
        (Explored next color → Explored next color') := by
  induction vs with
  | nil =>
    intro color color' h
    cases h
    exact ⟨.refl color, fun v hv => (not_mem_nil hv).elim, id⟩
  | cons v vs ih =>
    intro color color' h
    obtain ⟨mid, hv, hvs⟩ := bind_eq_ok.1 h
    obtain ⟨hext, hall, hexp⟩ := ih hvs
    have hedge : Extends color mid ∧ mid v = .black ∧
        (Explored next color → Explored next mid) := by
      unfold exploreEdge at hv
      split at hv
      · cases hv
      · next hw => exact hvisit color v mid hw hv
      · next hb =>
        cases hv
        exact ⟨.refl color, hb, id⟩
    obtain ⟨hext₀, hblack, hexp₀⟩ := hedge
    refine ⟨hext₀.trans hext, ?_, fun h => hexp (hexp₀ h)⟩
    intro w hw
    rcases mem_cons.1 hw with rfl | hw
    · exact hext.black w hblack
    · exact hall w hw

theorem visit_ok (fuel : Nat) : VisitSpec next (visit next fuel) := by
  induction fuel with
  | zero =>
    intro color u color' _ h
    cases h
  | succ fuel ih =>
    intro color u color' hu h
    obtain ⟨mid, hfold, hpure⟩ := bind_eq_ok.1 h
    cases hpure
    obtain ⟨hext, hall, hexp⟩ := foldlM_exploreEdge ih hfold
    have hmid : mid u = .gray := (hext.gray u).2 (update_self ..)
    refine ⟨⟨?_, ?_⟩, update_self .., ?_⟩
    · intro x
      by_cases hx : x = u
      · subst hx
        simp [hu]
      · rw [update_of_ne hx, hext.gray x, update_of_ne hx]
    · intro x hx
      have hxu : x ≠ u := by
        rintro rfl
        rw [hu] at hx
        cases hx
      rw [update_of_ne hxu]
      apply hext.black
      rwa [update_of_ne hxu]
    · intro hcolor
      exact (hexp (hcolor.start hu)).finish (by rw [hmid]; decide) hall

/-- The search has ended at an edge that closes a cycle, and not for want of fuel. -/
def ClosesCycle (next : α → List α) (nodes : List α) (e : SearchError α) : Prop :=
  e ≠ .outOfFuel ∧ ∃ x ∈ nodes, ∃ n, Walk (NextRel next) (n + 1) x x

theorem visit_error (hclosed : ∀ x ∈ nodes, ∀ y ∈ next x, y ∈ nodes) :
    ∀ (fuel : Nat) {color : α → Color} {u : α} {e : SearchError α}, u ∈ nodes → color u = .white →
      whites nodes color ≤ fuel → OnStack next color u → visit next fuel color u = .error e →
      ClosesCycle next nodes e := by
  intro fuel
  induction fuel with
  | zero =>
    intro color u e hu hw hle _ _
    have := whites_update_lt hu hw (c := .gray) (by decide)
    omega
  | succ fuel ih =>
    intro color u e hu hw hle hstack h
    have hlt := whites_update_lt hu hw (c := .gray) (by decide)
    -- The loop over the edges keeps the gray nodes, so each of them still reaches `u`.
    have hloop : ∀ vs : List α, (∀ v ∈ vs, v ∈ next u) → ∀ mid : α → Color,
        Extends (update color u .gray) mid →
        vs.foldlM (exploreEdge (visit next fuel) u) mid = .error e → ClosesCycle next nodes e := by
      intro vs
      induction vs with
      | nil =>
        intro _ mid _ h
        cases h
      | cons v vs ihvs =>
        intro hsub mid hext h
        have huv : v ∈ next u := hsub v mem_cons_self
        have hreach : ∀ g, mid g = .gray → ∃ n, Walk (NextRel next) n g u := by
          intro g hg
          rw [hext.gray] at hg
          by_cases hgu : g = u
          · subst hgu
            exact ⟨0, .nil g⟩
          · rw [update_of_ne hgu] at hg
            exact hstack g hg
        rw [foldlM_cons] at h
        cases hedge : exploreEdge (visit next fuel) u mid v with
        | error e' =>
          rw [hedge] at h
          cases h
          unfold exploreEdge at hedge
          split at hedge
          · next hgray =>
            cases hedge
            obtain ⟨n, hvu⟩ := hreach v hgray
            exact ⟨nofun, u, hu, n, .cons huv hvu⟩
          · next hwhite =>
            refine ih (hclosed u hu v huv) hwhite ?_ ?_ hedge
            · have := hext.whites_le nodes
              omega
            · intro g hg
              obtain ⟨n, hgu⟩ := hreach g hg
              exact ⟨n + 1, hgu.snoc huv⟩
          · cases hedge
        | ok mid' =>
          rw [hedge] at h
          refine ihvs (fun w hw => hsub w (mem_cons_of_mem v hw)) mid' (hext.trans ?_) h
          have hsingle : [v].foldlM (exploreEdge (visit next fuel) u) mid = .ok mid' := by
            rw [foldlM_cons, hedge]
            rfl
          exact (foldlM_exploreEdge (visit_ok fuel) hsingle).1
    rw [visit] at h
    cases hfold : (next u).foldlM (exploreEdge (visit next fuel) u)
        (update color u .gray) with
    | error e' =>
      rw [hfold] at h
      cases h
      exact hloop (next u) (fun _ => id) _ (.refl _) hfold
    | ok mid =>
      rw [hfold] at h
      cases h

/-- What the outer loop over `us` makes of the colours. -/
def Searched (next : α → List α) (nodes us : List α) (color : α → Color) :
    Except (SearchError α) (α → Color) → Prop
  | .ok color' => Extends color color' ∧ Explored next color' ∧ ∀ u ∈ us, color' u = .black
  | .error e => ClosesCycle next nodes e

omit [DecidableEq α] in
theorem Searched.cons {us : List α} {r : Except (SearchError α) (α → Color)}
    (h : Searched next nodes us b r) (hext : Extends a b) (hblack : b u = .black) :
    Searched next nodes (u :: us) a r := by
  cases r with
  | error e => exact h
  | ok color' =>
    obtain ⟨hext', hdone, hall⟩ := h
    exact ⟨hext.trans hext', hdone, forall_mem_cons.2 ⟨hext'.black u hblack, hall⟩⟩

theorem foldlM_visit (hclosed : ∀ x ∈ nodes, ∀ y ∈ next x, y ∈ nodes) {us : List α} :
    ∀ {color : α → Color}, (∀ u ∈ us, u ∈ nodes) → Extends (fun _ => .white) color →
    Explored next color → Searched next nodes us color (us.foldlM (fun color u =>
      if color u = .white then visit next nodes.length color u else .ok color) color) := by
  induction us with
  | nil => exact fun _ _ hexp => ⟨.refl _, hexp, fun u hu => (not_mem_nil hu).elim⟩
  | cons u us ih =>
    intro color hsub hext hexp
    -- Between two visits of the outer loop no node is gray.
    have hnogray : ∀ x, color x ≠ .gray := fun x hx => by
      have := (hext.gray x).1 hx
      cases this
    have ih {mid : α → Color} := @ih mid fun x hx => hsub x (mem_cons_of_mem u hx)
    rw [foldlM_cons]
    split
    · next hwhite =>
      cases hvisit : visit next nodes.length color u with
      | error e =>
        exact visit_error hclosed _ (hsub u mem_cons_self) hwhite (length_filter_le ..)
          (fun g hg => absurd hg (hnogray g)) hvisit
      | ok mid =>
        obtain ⟨hext', hblack, hexp'⟩ := visit_ok _ color u mid hwhite hvisit
        exact (ih (hext.trans hext') (hexp' hexp)).cons hext' hblack
    · next hseen =>
      refine (ih hext hexp).cons (.refl color) ?_
      cases hc : color u with
      | white => exact absurd hc hseen
      | gray => exact absurd hc (hnogray u)
      | black => rfl

theorem dfs_searched (hclosed : ∀ x ∈ nodes, ∀ y ∈ next x, y ∈ nodes) :
    Searched next nodes nodes (fun _ => .white) (dfs next nodes) :=
  foldlM_visit hclosed (fun _ => id) (.refl _) ⟨fun _ _ h => (by cases h), fun _ h => (by cases h)⟩

/-- **The search succeeds exactly if there is no cycle.** -/
theorem dfs_ok_iff (hclosed : ∀ x ∈ nodes, ∀ y ∈ next x, y ∈ nodes) :
    (∃ color, dfs next nodes = .ok color) ↔
      ∀ x ∈ nodes, ∀ n, ¬ Walk (NextRel next) (n + 1) x x := by
  have hspec := dfs_searched hclosed
  cases h : dfs next nodes with
  | ok color =>
    rw [h] at hspec
    obtain ⟨-, hdone, hall⟩ := hspec
    exact iff_of_true ⟨color, rfl⟩ fun x hx => hdone.acyclic x (hall x hx)
  | error e =>
    rw [h] at hspec
    obtain ⟨-, x, hx, n, hw⟩ := hspec
    exact iff_of_false nofun fun hno => hno x hx n hw

end Search

end Cerbix.Lib
