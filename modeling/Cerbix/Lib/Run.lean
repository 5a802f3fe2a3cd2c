import Mathlib.Data.List.Basic

/-!
# Runs of a transition system, and their histories

A system is a partial step function `step : σ → α → Option σ`. `Reach step ok init` are the states
reached from `init` by steps that all satisfy `ok`; `Reach.invariant` is the induction rule, and
`reach_of_runOps` makes a reachable state of a list of operations. `After log i P`: an event
satisfying `P` was recorded after position `i` of an append-only history (`After.append`).
-/

namespace Cerbix.Lib

section Reach

variable {σ α : Type*}

/-- The states reached from `init` by steps that all satisfy `ok` where they are taken. -/
inductive Reach (step : σ → α → Option σ) (ok : σ → α → Prop) (init : σ) : σ → Prop
  | init : Reach step ok init init
  | step {s s' : σ} {a : α} : Reach step ok init s → ok s a → step s a = some s' →
      Reach step ok init s'

/-- No condition on the steps of a run. -/
def anyStep : σ → α → Prop := fun _ _ => True

variable {step : σ → α → Option σ} {ok : σ → α → Prop} {init : σ} {s : σ} {ops : List α}

theorem Reach.invariant {I : σ → Prop} (h₀ : I init)
    (hs : ∀ s a s', I s → ok s a → step s a = some s' → I s') (h : Reach step ok init s) : I s := by
  induction h with
  | init => exact h₀
  | step _ hok hst ih => exact hs _ _ _ ih hok hst

theorem Reach.invariant' {I : σ → Prop} (h₀ : I init)
    (hs : ∀ s a s', Reach step ok init s → I s → ok s a → step s a = some s' → I s')
    (h : Reach step ok init s) : I s := by
  induction h with
  | init => exact h₀
  | step hr hok hst ih => exact hs _ _ _ hr ih hok hst

def runOps (step : σ → α → Option σ) : σ → List α → Option σ
  | s, [] => some s
  | s, a :: as =>
    match step s a with
    | some s' => runOps step s' as
    | none => none

theorem runOps_of_step {t : σ} {a : α} (h : step s a = some t) (as : List α) :
    runOps step s (a :: as) = runOps step t as := by
  rw [runOps, h]

theorem runOps_cons {t u : σ} {a : α} {as : List α} (h : step s a = some t)
    (hs : runOps step t as = some u) : runOps step s (a :: as) = some u :=
  (runOps_of_step h as).trans hs

theorem reach_append_runOps : ∀ {s t : σ}, (∀ a ∈ ops, ∀ s, ok s a) →
    Reach step ok init s → runOps step s ops = some t → Reach step ok init t := by
  induction ops with
  | nil =>
    intro s t _ hr h
    cases h
    exact hr
  | cons a ops ih =>
    intro s t hok hr h
    rw [runOps] at h
    cases hst : step s a with
    | none => simp [hst] at h
    | some s' =>
      rw [hst] at h
      exact ih (fun b hb => hok b (List.mem_cons_of_mem a hb))
        (.step hr (hok a List.mem_cons_self s) hst) h

theorem reach_of_runOps (ops : List α) (hok : ∀ a ∈ ops, ∀ s, ok s a)
    (h : runOps step init ops = some s) : Reach step ok init s :=
  reach_append_runOps hok .init h

/-- Every operation of the list is allowed where it is taken, and none is refused. -/
def AllowedRun (step : σ → α → Option σ) (ok : σ → α → Prop) : σ → List α → Prop
  | _, [] => True
  | s, a :: as => ok s a ∧ ∃ s' ∈ step s a, AllowedRun step ok s' as

instance AllowedRun.decidable [∀ s a, Decidable (ok s a)] :
    ∀ s as, Decidable (AllowedRun step ok s as)
  | _, [] => .isTrue trivial
  | _, _ :: as =>
    have (s' : σ) : Decidable (AllowedRun step ok s' as) := AllowedRun.decidable s' as
    inferInstanceAs (Decidable (_ ∧ _))

/-- The state a list of operations leads to, the initial one if an operation is refused. -/
def finalState (step : σ → α → Option σ) (init : σ) (ops : List α) : σ :=
  (runOps step init ops).getD init

theorem reach_finalState (hok : ∀ a ∈ ops, ∀ s, ok s a) :
    Reach step ok init (finalState step init ops) := by
  unfold finalState
  cases h : runOps step init ops with
  | none => exact .init
  | some s => exact reach_of_runOps ops hok h

theorem reach_of_allowedRun (h : AllowedRun step ok init ops) :
    Reach step ok init (finalState step init ops) := by
  have hrun : ∀ {s : σ} {ops : List α}, Reach step ok init s → AllowedRun step ok s ops →
      ∃ t, runOps step s ops = some t ∧ Reach step ok init t := by
    intro s ops
    induction ops generalizing s with
    | nil => exact fun hr _ => ⟨s, rfl, hr⟩
    | cons a ops ih =>
      rintro hr ⟨hok, s', hs', h⟩
      obtain ⟨t, ht, hrt⟩ := ih (.step hr hok hs') h
      exact ⟨t, runOps_cons hs' ht, hrt⟩
  obtain ⟨t, ht, hr⟩ := hrun .init h
  rw [finalState, ht]
  exact hr

end Reach

section After

variable {ε : Type*}

/-- An event satisfying `P` was recorded after position `i`. -/
def After (log : List ε) (i : Nat) (P : ε → Prop) : Prop :=
  ∃ j e, i < j ∧ log[j]? = some e ∧ P e

variable {log : List ε} {i : Nat} {P : ε → Prop} {e : ε}

theorem getElem?_concat {x : ε} (h : (log ++ [e])[i]? = some x) :
    log[i]? = some x ∨ (i = log.length ∧ x = e) := by
  rcases Nat.lt_or_ge i log.length with hi | hi
  · rw [List.getElem?_append_left hi] at h
    exact .inl h
  · rw [List.getElem?_append_right hi] at h
    have : i - log.length = 0 := by
      have := (List.getElem?_eq_some_iff.1 h).1
      simp at this
      omega
    rw [this] at h
    exact .inr ⟨by omega, by simpa using h.symm⟩

theorem mem_concat {e' : ε} : e' ∈ log ++ [e] ↔ e' ∈ log ∨ e' = e := by
  rw [List.mem_append, List.mem_singleton]

theorem forall_mem_concat (hold : ∀ e' ∈ log, P e') (hnew : P e) : ∀ e' ∈ log ++ [e], P e' := by
  rintro e' he'
  rcases mem_concat.1 he' with he' | rfl
  · exact hold e' he'
  · exact hnew

theorem After.append (h : After log i P) (more : List ε) : After (log ++ more) i P := by
  obtain ⟨j, e, hj, he, hP⟩ := h
  have hlt : j < log.length := (List.getElem?_eq_some_iff.1 he).1
  exact ⟨j, e, hj, by rw [List.getElem?_append_left hlt, he], hP⟩

theorem After.last (hi : i < log.length) (hP : P e) : After (log ++ [e]) i P :=
  ⟨log.length, e, hi, by simp, hP⟩

theorem After.earlier {k : Nat} (h : After log i P) (hk : k ≤ i) : After log k P := by
  obtain ⟨j, e, hj, he⟩ := h
  exact ⟨j, e, by omega, he⟩

theorem After.of_append {more : List ε} (h : After (log ++ more) i P) :
    After log i P ∨ ∃ e ∈ more, P e := by
  obtain ⟨j, x, hj, hx, hP⟩ := h
  rcases Nat.lt_or_ge j log.length with hlt | hge
  · rw [List.getElem?_append_left hlt] at hx
    exact .inl ⟨j, x, hj, hx, hP⟩
  · rw [List.getElem?_append_right hge] at hx
    exact .inr ⟨x, List.mem_of_getElem? hx, hP⟩

theorem After.of_concat (h : After (log ++ [e]) i P) : After log i P ∨ P e := by
  simpa using h.of_append

end After

end Cerbix.Lib
