import Mathlib.Data.List.Induction
import Mathlib.Data.Set.Insert

/-!
# Numbered announcements

A `Latch` is a level with a number that grows on every edge. An announcement carries the number of
its edge, travels on its own, and is credited to the latch by comparing the numbers alone.

`Board` is what matters of a system of latches, and `Agree` that latches, open announcements and
history agree. `Inv` adds what the numbers are for: a latch that fires with its number credited has
an open announcement that was heard (`Inv.announced`), and an onset is credited only to its own
announcement (`Inv.current_of_creditable`). A new latch starts to count again, so it may be created
only when no onset of its key is left (`Clear`).
-/

namespace Cerbix.Lib

open Function Option

/-- Whether a signal fires, and how far its announcements have come. -/
structure Latch where
  firing : Bool
  emittedSeq : Nat
  deliveredSeq : Nat
  undeliveredSeq : Nat
  deriving DecidableEq, Repr

variable (l : Latch)

namespace Latch

def new : Latch := ⟨false, 0, 0, 0⟩

/-- The signal begins to fire. -/
def raise : Latch := { l with firing := true, emittedSeq := l.emittedSeq + 1 }

def lowerTo (seq : Nat) : Latch := { l with firing := false, emittedSeq := seq }

/-- The signal ends. -/
def lower : Latch := l.lowerTo (l.emittedSeq + 1)

/-- The announcement of that number was delivered. -/
def credit (seq : Nat) : Latch :=
  if l.emittedSeq = seq ∧ l.deliveredSeq < seq then { l with deliveredSeq := seq } else l

/-- Condemn the current number, once, unless it was credited. -/
def condemn (seq : Nat) : Latch :=
  if l.emittedSeq = seq ∧ l.undeliveredSeq < seq ∧ l.deliveredSeq < seq then
    { l with undeliveredSeq := seq }
  else l

variable {l : Latch} {seq : Nat}

@[simp] theorem credit_firing : (l.credit seq).firing = l.firing := by
  unfold credit; split <;> rfl

@[simp] theorem credit_emittedSeq : (l.credit seq).emittedSeq = l.emittedSeq := by
  unfold credit; split <;> rfl

@[simp] theorem condemn_firing : (l.condemn seq).firing = l.firing := by
  unfold condemn; split <;> rfl

@[simp] theorem condemn_emittedSeq : (l.condemn seq).emittedSeq = l.emittedSeq := by
  unfold condemn; split <;> rfl

@[simp] theorem condemn_deliveredSeq : (l.condemn seq).deliveredSeq = l.deliveredSeq := by
  unfold condemn; split <;> rfl

theorem credit_cases (l : Latch) (seq : Nat) :
    l.credit seq = l ∨ (l.emittedSeq = seq ∧ (l.credit seq).deliveredSeq = seq) := by
  unfold credit
  split
  · next h => exact .inr ⟨h.1, rfl⟩
  · exact .inl rfl

end Latch

/-- An announcement that a signal began to fire. -/
structure Onset (κ ε : Type*) where
  key : κ
  seq : Nat
  episode : ε

/-- An announcement of either kind. -/
structure Notice (κ ε : Type*) where
  key : κ
  firing : Bool
  episode : ε

section Notice

variable {κ ε : Type*} [DecidableEq κ] {k : κ} {log : List (Notice κ ε)} {e : ε}

/-- The episode that a listener takes for open. -/
def openOf (k : κ) (log : List (Notice κ ε)) : Option ε :=
  log.foldl (fun current x =>
    if x.key = k then (if x.firing then some x.episode else none) else current) none

theorem openOf_concat (x : Notice κ ε) : openOf k (log ++ [x]) =
      if x.key = k then (if x.firing then some x.episode else none) else openOf k log := by
  simp [openOf]

theorem exists_of_openOf (h : openOf k log = some e) :
    ∃ pre x post, log = pre ++ x :: post ∧ x.key = k ∧ x.firing ∧ x.episode = e ∧
      ∀ y ∈ post, y.key ≠ k := by
  induction log using List.reverseRecOn with
  | nil => cases h
  | append_singleton log x ih =>
    rw [openOf_concat] at h
    split at h
    · next hk =>
      split at h
      · next hf => exact ⟨log, x, [], rfl, hk, hf, some.inj h, by simp⟩
      · cases h
    · next hk =>
      obtain ⟨pre, y, post, rfl, hy, hf, he, hpost⟩ := ih h
      refine ⟨pre, y, post ++ [x], by simp, hy, hf, he, fun z hz => ?_⟩
      rcases List.mem_append.1 hz with hz | hz
      · exact hpost z hz
      · rw [List.mem_singleton.1 hz]
        exact hk

/-- Every end that was announced ends what a listener takes for open. -/
def Paired (log : List (Notice κ ε)) : Prop :=
  ∀ pre x, pre ++ [x] <+: log → x.firing = false → openOf x.key pre = some x.episode

theorem Paired.concat (h : Paired log) {x : Notice κ ε}
    (hx : x.firing = false → openOf x.key log = some x.episode) : Paired (log ++ [x]) := by
  intro pre y hpre hf
  rcases List.prefix_concat_iff.1 hpre with he | hpre
  · obtain ⟨rfl, he⟩ := List.append_inj' he rfl
    obtain rfl : y = x := by simpa using he
    exact hx hf
  · exact h pre y hpre hf

end Notice
/-- The signals, the episode of each, and what was said and heard of them. -/
@[ext]
structure Board (κ ε : Type*) where
  latch : κ → Option Latch
  current : κ → Option (ε × Nat)
  log : List (Notice κ ε)
  onsets : Set (Onset κ ε)
  heard : Set ε

namespace Board

variable {κ ε : Type*} [DecidableEq κ] (b : Board κ ε)

def empty : Board κ ε := ⟨fun _ => none, fun _ => none, [], ∅, ∅⟩

def latchAt (k : κ) : Latch := (b.latch k).getD .new

def observe (k : κ) : Board κ ε :=
  { b with latch := update b.latch k (some (b.latchAt k)) }

/-- The edge up: open a new announcement and send its onset. -/
def raise (k : κ) (e : ε) : Board κ ε :=
  { b with
    latch := update b.latch k (some (b.latchAt k).raise)
    current := update b.current k (some (e, (b.latchAt k).emittedSeq + 1))
    log := b.log ++ [⟨k, true, e⟩]
    onsets := insert ⟨k, (b.latchAt k).emittedSeq + 1, e⟩ b.onsets }

/-- The edge down: the open announcement `e` ends. -/
def lower (k : κ) (e : ε) : Board κ ε :=
  { b with
    latch := update b.latch k (some (b.latchAt k).lower)
    current := update b.current k none
    log := b.log ++ [⟨k, false, e⟩] }

def modify (k : κ) (f : Latch → Latch) : Board κ ε :=
  { b with latch := update b.latch k ((b.latch k).map f) }

def hear (es : Set ε) : Board κ ε := { b with heard := b.heard ∪ es }

def forget (left : Set (Onset κ ε)) : Board κ ε := { b with onsets := left }

/-- The rows of some signals are deleted. -/
def discard (gone : κ → Bool) : Board κ ε :=
  { b with latch := fun k => if gone k then none else b.latch k }

/-- Latches, open announcements and history say the same. -/
structure Agree : Prop where
  opened : ∀ k e n, b.current k = some (e, n) → ∃ l, b.latch k = some l ∧ l.firing ∧
    l.emittedSeq = n
  firing : ∀ k l, b.latch k = some l → l.firing → ∃ e, b.current k = some (e, l.emittedSeq)
  history : ∀ k, (b.current k).map Prod.fst = openOf k b.log
  paired : Paired b.log

/-- Nothing is under way for a signal without a row. -/
def Clear (k : κ) : Prop := b.latch k = none → ∀ o ∈ b.onsets, o.key ≠ k

/-- What the numbers say. `behind` is the heart: an onset still around is not ahead of its latch,
and only that of the open announcement is level with it. -/
structure Inv : Prop extends Agree b where
  credited : ∀ k l, b.latch k = some l → l.deliveredSeq ≤ l.emittedSeq ∧
    (l.firing → l.deliveredSeq = l.emittedSeq → ∃ e n, b.current k = some (e, n) ∧ e ∈ b.heard)
  behind : ∀ o ∈ b.onsets, ∀ l, b.latch o.key = some l → o.seq ≤ l.emittedSeq ∧
    (o.seq = l.emittedSeq → b.current o.key = some (o.episode, o.seq))

variable {b} {k : κ} {l : Latch} {o : Onset κ ε} {e : ε} {n : Nat}

theorem Agree.openOf_eq (h : b.Agree) (hc : b.current k = some (e, n)) :
    openOf k b.log = some e := by
  rw [← h.history, hc, map_some]

theorem Agree.latchAt_of_open (h : b.Agree) (hc : b.current k = some (e, n)) :
    b.latch k = some (b.latchAt k) ∧ (b.latchAt k).firing ∧ (b.latchAt k).emittedSeq = n := by
  obtain ⟨l, hl, hf, hn⟩ := h.opened k e n hc
  rw [latchAt, hl]
  exact ⟨rfl, hf, hn⟩

/-- **A credited latch was heard.** -/
theorem Inv.announced (h : b.Inv) (hl : b.latch k = some l) (hf : l.firing)
    (hd : l.emittedSeq ≤ l.deliveredSeq) : ∃ e n, b.current k = some (e, n) ∧ e ∈ b.heard :=
  (h.credited k l hl).2 hf (le_antisymm (h.credited k l hl).1 hd)

/-- **An onset level with its latch belongs to the open announcement.** -/
theorem Inv.current_of_creditable (h : b.Inv) (ho : o ∈ b.onsets) (hl : b.latch o.key = some l)
    (he : l.emittedSeq = o.seq) : b.current o.key = some (o.episode, o.seq) :=
  (h.behind o ho l hl).2 he.symm

theorem Inv.delivered_le (h : b.Inv) (k : κ) :
    (b.latchAt k).deliveredSeq ≤ (b.latchAt k).emittedSeq := by
  unfold latchAt
  cases hl : b.latch k with
  | none => exact le_rfl
  | some l => exact (h.credited k l hl).1

omit [DecidableEq κ] in
theorem clear_of_some (hl : b.latch k = some l) : b.Clear k := by
  intro hn
  simp [hl] at hn

/-! ## Latches that are created, changed or dropped -/

theorem empty_inv : (empty : Board κ ε).Inv where
  opened _ _ _ h := by cases h
  firing _ _ h := by cases h
  history _ := rfl
  paired pre x h := by simp [empty] at h
  credited _ _ h := by cases h
  behind _ h := h.elim

theorem Agree.relatch (h : b.Agree) {f : κ → Option Latch}
    (hkept : ∀ k l, b.latch k = some l → l.firing →
      ∃ l', f k = some l' ∧ l'.firing ∧ l'.emittedSeq = l.emittedSeq)
    (hfrom : ∀ k l', f k = some l' → l'.firing →
      ∃ l, b.latch k = some l ∧ l.firing ∧ l'.emittedSeq = l.emittedSeq) :
    Agree { b with latch := f } where
  opened k e n hc := by
    obtain ⟨l, hl, hf, rfl⟩ := h.opened k e n hc
    exact hkept k l hl hf
  firing k l' hl' hf' := by
    obtain ⟨l, hl, hf, hs⟩ := hfrom k l' hl' hf'
    rw [hs]
    exact h.firing k l hl hf
  history := h.history
  paired := h.paired

open Board

theorem observe_latch_some (hl : b.latch k = some l) : b.observe k = b := by
  rw [observe, latchAt, hl, getD_some, ← hl, update_eq_self]

variable {k' : κ} {gone : κ → Bool}

theorem observe_latch (hk : b.latch k = none) (hl : (b.observe k).latch k' = some l) :
    (k' = k ∧ l = .new) ∨ b.latch k' = some l := by
  rcases eq_or_ne k' k with rfl | hne
  · simp only [observe, latchAt, hk, update_self, some.injEq] at hl
    exact .inl ⟨rfl, hl.symm⟩
  · simp only [observe, update_of_ne hne] at hl
    exact .inr hl

theorem Agree.observe (h : b.Agree) (k : κ) : (b.observe k).Agree := by
  cases hk : b.latch k with
  | some l =>
    rw [observe_latch_some hk]
    exact h
  | none =>
    refine h.relatch ?_ ?_
    · intro k' l hl hf
      have hne : k' ≠ k := by
        rintro rfl
        simp [hk] at hl
      exact ⟨l, by rw [update_of_ne hne, hl], hf, rfl⟩
    · intro k' l' hl' hf'
      rcases observe_latch hk hl' with ⟨-, rfl⟩ | hl
      · cases hf'
      · exact ⟨l', hl, hf', rfl⟩

theorem Inv.observe (h : b.Inv) (hclear : b.Clear k) : (b.observe k).Inv := by
  cases hk : b.latch k with
  | some l =>
    rw [observe_latch_some hk]
    exact h
  | none =>
    refine ⟨h.toAgree.observe k, ?_, ?_⟩
    · intro k' l hl
      rcases observe_latch hk hl with ⟨-, rfl⟩ | hl
      · exact ⟨le_rfl, fun hf => by cases hf⟩
      · exact h.credited k' l hl
    · intro o ho l hl
      rcases observe_latch hk hl with ⟨he, -⟩ | hl
      · exact absurd he (hclear hk o ho)
      · exact h.behind o ho l hl

variable {f : Latch → Latch}

theorem modify_latch (hl : (b.modify k f).latch k' = some l) :
    b.latch k' = some l ∨ (k' = k ∧ ∃ l₀, b.latch k = some l₀ ∧ l = f l₀) := by
  rcases eq_or_ne k' k with rfl | hne
  · simp only [modify, update_self] at hl
    obtain ⟨l₀, hl₀, rfl⟩ := map_eq_some_iff.1 hl
    exact .inr ⟨rfl, l₀, hl₀, rfl⟩
  · simp only [modify, update_of_ne hne] at hl
    exact .inl hl

theorem Agree.modify (h : b.Agree) (hf : ∀ l, (f l).firing = l.firing)
    (hs : ∀ l, (f l).emittedSeq = l.emittedSeq) : (b.modify k f).Agree := by
  refine h.relatch ?_ ?_
  · intro k' l hl hfl
    rcases eq_or_ne k' k with rfl | hne
    · exact ⟨f l, by simp [hl], by rw [hf, hfl], hs l⟩
    · exact ⟨l, by rw [update_of_ne hne, hl], hfl, rfl⟩
  · intro k' l' hl' hfl
    rcases modify_latch hl' with hl | ⟨rfl, l₀, hl₀, rfl⟩
    · exact ⟨l', hl, hfl, rfl⟩
    · exact ⟨l₀, hl₀, by rwa [hf] at hfl, hs l₀⟩

theorem Inv.modify (h : b.Inv) (hf : ∀ l, (f l).firing = l.firing)
    (hs : ∀ l, (f l).emittedSeq = l.emittedSeq)
    (hd : ∀ l, b.latch k = some l → (f l).deliveredSeq = l.deliveredSeq ∨
      ((f l).deliveredSeq = l.emittedSeq ∧ ∃ e n, b.current k = some (e, n) ∧ e ∈ b.heard)) :
    (b.modify k f).Inv := by
  refine ⟨h.toAgree.modify hf hs, ?_, ?_⟩
  · intro k' l hl
    rcases modify_latch hl with hl | ⟨rfl, l₀, hl₀, rfl⟩
    · exact h.credited k' l hl
    have hc := h.credited k' l₀ hl₀
    rcases hd l₀ hl₀ with he | ⟨he, hheard⟩
    · rw [he, hf, hs]
      exact hc
    · rw [he, hs]
      exact ⟨le_rfl, fun _ _ => hheard⟩
  · intro o ho l hl
    rcases modify_latch hl with hl | ⟨hk, l₀, hl₀, rfl⟩
    · exact h.behind o ho l hl
    · rw [hs]
      exact h.behind o ho l₀ (hk ▸ hl₀)

open Latch

theorem Agree.credit (h : b.Agree) (k : κ) (seq : Nat) : (b.modify k (·.credit seq)).Agree :=
  h.modify (fun _ => credit_firing) fun _ => credit_emittedSeq

theorem Agree.condemn (h : b.Agree) (k : κ) (seq : Nat) : (b.modify k (·.condemn seq)).Agree :=
  h.modify (fun _ => condemn_firing) fun _ => condemn_emittedSeq

/-- **Crediting.** An onset that was heard may be credited whenever it is still around. -/
theorem Inv.credit (h : b.Inv) (ho : o ∈ b.onsets) (hheard : o.episode ∈ b.heard) :
    (b.modify o.key (·.credit o.seq)).Inv := by
  refine h.modify (fun _ => credit_firing) (fun _ => credit_emittedSeq) fun l hl => ?_
  rcases credit_cases l o.seq with he | ⟨he, hd⟩
  · exact .inl (by rw [he])
  · exact .inr ⟨by rw [hd, he], _, _, h.current_of_creditable ho hl he, hheard⟩

theorem Inv.condemn (h : b.Inv) (k : κ) (seq : Nat) : (b.modify k (·.condemn seq)).Inv :=
  h.modify (fun _ => condemn_firing) (fun _ => condemn_emittedSeq) fun _ _ =>
    .inl condemn_deliveredSeq

omit [DecidableEq κ] in
theorem discard_latch (hl : (b.discard gone).latch k = some l) : b.latch k = some l := by
  simp only [discard] at hl
  split at hl
  · cases hl
  · exact hl

/-- **Dropping latches** is fine while nothing is open under them. -/
theorem Agree.discard (h : b.Agree) (hcur : ∀ k, gone k → b.current k = none) :
    (b.discard gone).Agree := by
  refine h.relatch ?_ fun k l' hl' hf' => ⟨l', discard_latch hl', hf', rfl⟩
  intro k l hl hf
  obtain ⟨e, hc⟩ := h.firing k l hl hf
  have hk : ¬ gone k := fun hk => by simp [hcur k hk] at hc
  exact ⟨l, by simp [hk, hl], hf, rfl⟩

theorem Inv.discard (h : b.Inv) (hcur : ∀ k, gone k → b.current k = none) :
    (b.discard gone).Inv where
  toAgree := h.toAgree.discard hcur
  credited k l hl := h.credited k l (discard_latch hl)
  behind o ho l hl := h.behind o ho l (discard_latch hl)

/-! ## Edges -/

section

variable {l' : Latch} {c : Option (ε × Nat)} {x : Notice κ ε} {new : Set (Onset κ ε)}

theorem Agree.edge (h : b.Agree) (hx : x.key = k)
    (hopen : ∀ e n, c = some (e, n) → l'.firing ∧ l'.emittedSeq = n)
    (hfiring : l'.firing → ∃ e, c = some (e, l'.emittedSeq))
    (hnotice : c.map Prod.fst = if x.firing then some x.episode else none)
    (hends : x.firing = false → openOf k b.log = some x.episode) : Agree { b with
      latch := update b.latch k (some l')
      current := update b.current k c
      log := b.log ++ [x]
      onsets := new } := by
  refine ⟨?_, ?_, ?_, h.paired.concat (hx ▸ hends)⟩
  · intro k' e n hc
    rcases eq_or_ne k' k with rfl | hne
    · simp only [update_self] at hc ⊢
      exact ⟨l', rfl, hopen e n hc⟩
    · simp only [update_of_ne hne] at hc ⊢
      exact h.opened k' e n hc
  · intro k' l hl hf
    rcases eq_or_ne k' k with rfl | hne
    · simp only [update_self, some.injEq] at hl ⊢
      subst hl
      exact hfiring hf
    · simp only [update_of_ne hne] at hl ⊢
      exact h.firing k' l hl hf
  · intro k'
    rw [openOf_concat, hx]
    rcases eq_or_ne k' k with rfl | hne
    · simp only [update_self]
      exact hnotice
    · simp only [update_of_ne hne, if_neg hne.symm]
      exact h.history k'

theorem Inv.edge (h : b.Inv) (hclear : b.Clear k) (hagree : Agree { b with
      latch := update b.latch k (some l')
      current := update b.current k c
      log := b.log ++ [x]
      onsets := new })
    (hseq : l'.emittedSeq = (b.latchAt k).emittedSeq + 1)
    (hdel : l'.deliveredSeq = (b.latchAt k).deliveredSeq)
    (hnew : ∀ o ∈ new, o ∈ b.onsets ∨
      (o.key = k ∧ o.seq = l'.emittedSeq ∧ c = some (o.episode, o.seq))) :
    Inv { b with
      latch := update b.latch k (some l')
      current := update b.current k c
      log := b.log ++ [x]
      onsets := new } := by
  have hle := h.delivered_le k
  refine ⟨hagree, ?_, ?_⟩
  · intro k' l hl
    rcases eq_or_ne k' k with rfl | hne
    · -- the new number is ahead of every credit
      simp only [update_self, some.injEq] at hl
      subst hl
      exact ⟨by omega, fun _ _ => by omega⟩
    · simp only [update_of_ne hne] at hl ⊢
      exact h.credited k' l hl
  · intro o ho l hl
    rcases eq_or_ne o.key k with hk | hne
    · obtain rfl : l' = l := by simpa [hk] using hl
      rcases hnew o ho with ho | ⟨-, hs, hc⟩
      · -- the old onsets of the key are behind the new number
        cases hat : b.latch k with
        | none => exact absurd hk (hclear hat o ho)
        | some l₀ =>
          have hs := (h.behind o ho l₀ (hk ▸ hat)).1
          rw [latchAt, hat, getD_some] at hseq
          exact ⟨by omega, fun he => by omega⟩
      · exact ⟨hs.le, fun _ => by simp [hk, hc]⟩
    · rcases hnew o ho with ho | ⟨hk, -⟩
      · simp only [update_of_ne hne] at hl ⊢
        exact h.behind o ho l hl
      · exact absurd hk hne

end

theorem Agree.raise (h : b.Agree) (k : κ) (e : ε) : (b.raise k e).Agree := by
  refine h.edge rfl ?_ (fun _ => ⟨e, rfl⟩) rfl (fun hf => by cases hf)
  rintro e' n hc
  cases hc
  exact ⟨rfl, rfl⟩

theorem Agree.lower (h : b.Agree) (hc : b.current k = some (e, n)) : (b.lower k e).Agree :=
  h.edge rfl (fun _ _ hc => by cases hc) (fun hf => by cases hf) rfl fun _ => h.openOf_eq hc

theorem Inv.raise (h : b.Inv) (hclear : b.Clear k) (e : ε) : (b.raise k e).Inv := by
  refine h.edge hclear (h.toAgree.raise k e) rfl rfl ?_
  rintro o (rfl | ho)
  · exact .inr ⟨rfl, rfl, rfl⟩
  · exact .inl ho

theorem Inv.lower (h : b.Inv) (hc : b.current k = some (e, n)) : (b.lower k e).Inv :=
  h.edge (clear_of_some (h.latchAt_of_open hc).1) (h.toAgree.lower hc) rfl rfl fun _ ho => .inl ho

theorem Agree.world (h : b.Agree) (onsets : Set (Onset κ ε)) (heard : Set ε) :
    Agree { b with onsets := onsets, heard := heard } :=
  ⟨h.opened, h.firing, h.history, h.paired⟩

theorem Inv.hear (h : b.Inv) (es : Set ε) : (b.hear es).Inv where
  toAgree := h.toAgree.world _ _
  credited k l hl := by
    obtain ⟨hle, hheard⟩ := h.credited k l hl
    refine ⟨hle, fun hf he => ?_⟩
    obtain ⟨e, n, hc, hmem⟩ := hheard hf he
    exact ⟨e, n, hc, .inl hmem⟩
  behind := h.behind

theorem Inv.forget (h : b.Inv) {left : Set (Onset κ ε)} (hleft : left ⊆ b.onsets) :
    (b.forget left).Inv where
  toAgree := h.toAgree.world _ _
  credited := h.credited
  behind o ho := h.behind o (hleft ho)

/-! ## Transitions -/

/-- What an evaluation does to a signal. -/
inductive Move (k : κ) (b : Board κ ε) : Board κ ε → Prop
  | observe : Move k b (b.observe k)
  | raise (e : ε) : Move k b (b.raise k e)
  | lower {e : ε} {n : Nat} (h : b.current k = some (e, n)) : Move k b (b.lower k e)

/-- Several moves, of signals in `P`. -/
def Moves (P : κ → Prop) : Board κ ε → Board κ ε → Prop :=
  Relation.ReflTransGen fun b b' => ∃ k, P k ∧ Move k b b'

/-- What is reported about an onset that is still around: that it was heard, that nobody can hear
it, or nothing. -/
inductive Report (b : Board κ ε) : Board κ ε → Prop
  | credit {o : Onset κ ε} {left : Set (Onset κ ε)} {es : Set ε} (ho : o ∈ b.onsets)
      (hheard : o.episode ∈ b.heard) (hleft : left ⊆ b.onsets) :
      Report b (((b.modify o.key (·.credit o.seq)).forget left).hear es)
  | condemn {left : Set (Onset κ ε)} {es : Set ε} (k : κ) (seq : Nat) (hleft : left ⊆ b.onsets) :
      Report b (((b.modify k (·.condemn seq)).forget left).hear es)
  | world {left : Set (Onset κ ε)} {es : Set ε} (hleft : left ⊆ b.onsets) :
      Report b ((b.forget left).hear es)

/-- What a transaction of a system of latches may do: evaluate keys that satisfy `P`, end
announcements and drop latches nothing is open under, or report. -/
inductive Transition (P : κ → Prop) (b : Board κ ε) : Board κ ε → Prop
  | evaluate {b' : Board κ ε} (h : Moves P b b') : Transition P b b'
  | retire {b' : Board κ ε} {gone : κ → Bool} (h : Moves (fun k => b.latch k ≠ none) b b')
      (hgone : ∀ k, gone k → b'.current k = none) : Transition P b (b'.discard gone)
  | report {b' : Board κ ε} (h : Report b b') : Transition P b b'

variable {b' : Board κ ε} {P : κ → Prop}

theorem Clear.move (h : b.Clear k') (hm : Move k b b') : b'.Clear k' := by
  rcases eq_or_ne k' k with rfl | hne
  · refine fun hn => absurd hn ?_
    cases hm <;> simp [observe, raise, lower]
  · intro hn
    cases hm with
    | observe =>
      simp only [observe, update_of_ne hne] at hn
      exact h hn
    | raise e =>
      simp only [raise, update_of_ne hne] at hn
      rintro o (rfl | ho)
      · exact hne.symm
      · exact h hn o ho
    | lower hc =>
      simp only [lower, update_of_ne hne] at hn
      exact h hn

theorem Moves.mono {Q : κ → Prop} (h : Moves P b b') (hPQ : ∀ k, P k → Q k) : Moves Q b b' :=
  Relation.ReflTransGen.mono (fun _ _ ⟨k, hk, hm⟩ => ⟨k, hPQ k hk, hm⟩) _ _ h

theorem Agree.move (h : b.Agree) (hm : Move k b b') : b'.Agree := by
  cases hm with
  | observe => exact h.observe k
  | raise e => exact h.raise k e
  | lower hc => exact h.lower hc

theorem Inv.move (h : b.Inv) (hclear : b.Clear k) (hm : Move k b b') : b'.Inv := by
  cases hm with
  | observe => exact h.observe hclear
  | raise e => exact h.raise hclear e
  | lower hc => exact h.lower hc

theorem Agree.moves (h : b.Agree) (hm : Moves P b b') : b'.Agree := by
  induction hm with
  | refl => exact h
  | tail _ hstep ih =>
    obtain ⟨k, -, hk⟩ := hstep
    exact ih.move hk

theorem Inv.moves (h : b.Inv) (hclear : ∀ k, P k → b.Clear k) (hm : Moves P b b') : b'.Inv := by
  have hboth : b'.Inv ∧ ∀ k, P k → b'.Clear k := by
    induction hm with
    | refl => exact ⟨h, hclear⟩
    | tail _ hstep ih =>
      obtain ⟨k, hP, hk⟩ := hstep
      exact ⟨ih.1.move (ih.2 k hP) hk, fun k' hk' => (ih.2 k' hk').move hk⟩
  exact hboth.1

theorem Agree.report (h : b.Agree) (hr : Report b b') : b'.Agree := by
  cases hr with
  | credit => exact (h.credit _ _).world _ _
  | condemn k seq => exact (h.condemn k seq).world _ _
  | world => exact h.world _ _

theorem Inv.report (h : b.Inv) (hr : Report b b') : b'.Inv := by
  cases hr with
  | credit ho hheard hleft => exact ((h.credit ho hheard).forget hleft).hear _
  | condemn k seq hleft => exact ((h.condemn k seq).forget hleft).hear _
  | world hleft => exact (h.forget hleft).hear _

/-- **Every transaction keeps the numbers honest**, if the latches it creates have no onset left. -/
theorem Inv.transition (h : b.Inv) (hclear : ∀ k, P k → b.Clear k) (ht : Transition P b b') :
    b'.Inv := by
  cases ht with
  | evaluate hm => exact h.moves hclear hm
  | retire hm hgone =>
    refine (h.moves (fun k hk => ?_) hm).discard hgone
    obtain ⟨l, hl⟩ := ne_none_iff_exists'.1 hk
    exact clear_of_some hl
  | report hr => exact h.report hr

/-- Nothing was condemned that was not emitted. -/
def Bounded (b : Board κ ε) : Prop :=
  ∀ k l, b.latch k = some l → l.undeliveredSeq ≤ l.emittedSeq ∧ (l.firing → 0 < l.emittedSeq)

omit [DecidableEq κ] in
theorem Bounded.latchAt (h : b.Bounded) (k : κ) :
    (b.latchAt k).undeliveredSeq ≤ (b.latchAt k).emittedSeq ∧
      ((b.latchAt k).firing → 0 < (b.latchAt k).emittedSeq) := by
  unfold Board.latchAt
  cases hl : b.latch k with
  | none => exact ⟨le_rfl, fun hf => by cases hf⟩
  | some l => exact h k l hl

theorem Bounded.update (h : b.Bounded) (l' : Latch)
    (hl' : l'.undeliveredSeq ≤ l'.emittedSeq ∧ (l'.firing → 0 < l'.emittedSeq)) {l : Latch}
    (hl : update b.latch k (some l') k' = some l) :
    l.undeliveredSeq ≤ l.emittedSeq ∧ (l.firing → 0 < l.emittedSeq) := by
  rcases eq_or_ne k' k with rfl | hne
  · rw [update_self, some.injEq] at hl
    exact hl ▸ hl'
  · rw [update_of_ne hne] at hl
    exact h k' l hl

theorem Bounded.move (h : b.Bounded) (hm : Move k b b') : b'.Bounded := by
  have hat := h.latchAt k
  cases hm with
  | observe => exact fun k' l hl => h.update _ hat hl
  | raise e =>
    exact fun k' l hl => h.update (b.latchAt k).raise
      ⟨hat.1.trans (Nat.le_succ _), fun _ => Nat.succ_pos _⟩ hl
  | lower hc =>
    exact fun k' l hl => h.update (b.latchAt k).lower
      ⟨hat.1.trans (Nat.le_succ _), fun hf => by cases hf⟩ hl

theorem Bounded.moves (h : b.Bounded) (hm : Moves P b b') : b'.Bounded := by
  induction hm with
  | refl => exact h
  | tail _ hstep ih =>
    obtain ⟨k, -, hk⟩ := hstep
    exact ih.move hk

theorem Bounded.modify (h : b.Bounded)
    (hf : ∀ l, (f l).firing = l.firing ∧ (f l).emittedSeq = l.emittedSeq ∧
      (l.undeliveredSeq ≤ l.emittedSeq → (f l).undeliveredSeq ≤ l.emittedSeq)) :
    (b.modify k f).Bounded := by
  intro k' l hl
  rcases modify_latch hl with hl | ⟨-, l₀, hl₀, rfl⟩
  · exact h k' l hl
  · obtain ⟨h₁, h₂, h₃⟩ := hf l₀
    obtain ⟨hle, hpos⟩ := h k l₀ hl₀
    rw [h₁, h₂]
    exact ⟨h₃ hle, hpos⟩

theorem Bounded.report (h : b.Bounded) (hr : Report b b') : b'.Bounded := by
  cases hr with
  | credit =>
    refine h.modify fun l => ⟨credit_firing, credit_emittedSeq, fun hle => ?_⟩
    unfold credit
    split <;> exact hle
  | condemn k seq =>
    refine h.modify fun l => ⟨condemn_firing, condemn_emittedSeq, fun hle => ?_⟩
    unfold condemn
    split
    · next hc => exact hc.1.ge
    · exact hle
  | world => exact h

theorem Bounded.transition (h : b.Bounded) (ht : Transition P b b') : b'.Bounded := by
  cases ht with
  | evaluate hm => exact h.moves hm
  | retire hm _ => exact fun k l hl => h.moves hm k l (discard_latch hl)
  | report hr => exact h.report hr

theorem Clear.moves (h : b.Clear k) (hm : Moves P b b') : b'.Clear k := by
  induction hm with
  | refl => exact h
  | tail _ hstep ih =>
    obtain ⟨k', -, hk'⟩ := hstep
    exact ih.move hk'

omit [DecidableEq κ] in
theorem Clear.discard (h : b.Clear k) (hk : gone k = false) : (b.discard gone).Clear k := by
  intro hn
  simp only [Board.discard, hk] at hn
  exact h hn

theorem Clear.modify (h : b.Clear k) (k' : κ) (f : Latch → Latch) : (b.modify k' f).Clear k := by
  intro hn
  refine h ?_
  rcases eq_or_ne k k' with rfl | hne
  · simpa [Board.modify] using hn
  · simpa only [Board.modify, update_of_ne hne] using hn

theorem Clear.report (h : b.Clear k) (hr : Report b b') : b'.Clear k := by
  cases hr with
  | credit _ _ hleft => exact fun hn o ho => h.modify _ _ hn o (hleft ho)
  | condemn k' seq hleft => exact fun hn o ho => h.modify _ _ hn o (hleft ho)
  | world hleft => exact fun hn o ho => h hn o (hleft ho)

/-! ## Heard announcements -/

/-- What is open and was heard is not condemned, and it is credited or its credit is on the way. -/
def Heeded (pending : κ → Nat → Prop) (b : Board κ ε) : Prop :=
  ∀ k l e n, b.latch k = some l → b.current k = some (e, n) → e ∈ b.heard →
    l.undeliveredSeq < l.emittedSeq ∧ (l.emittedSeq ≤ l.deliveredSeq ∨ pending k l.emittedSeq)

def Carries (b b' : Board κ ε) : Prop :=
  ∀ k e n, b'.current k = some (e, n) → e ∈ b'.heard →
    b.current k = some (e, n) ∧ e ∈ b.heard ∧ ∀ l, b'.latch k = some l → b.latch k = some l

theorem Agree.carries_observe (h : b.Agree) (k : κ) : b.Carries (b.observe k) := by
  intro k' e n hcur hheard
  refine ⟨hcur, hheard, fun l hl => ?_⟩
  rcases eq_or_ne k' k with rfl | hne
  · obtain ⟨l', hl', -⟩ := h.opened k' e n hcur
    rwa [observe_latch_some hl'] at hl
  · simpa only [Board.observe, update_of_ne hne] using hl

theorem carries_raise (hfresh : e ∉ b.heard) (k : κ) : b.Carries (b.raise k e) := by
  intro k' e' n hcur hheard
  rcases eq_or_ne k' k with rfl | hne
  · simp only [raise, update_self, some.injEq, Prod.mk.injEq] at hcur
    exact absurd (hcur.1 ▸ hheard) hfresh
  · simp only [raise, update_of_ne hne] at hcur ⊢
    exact ⟨hcur, hheard, fun _ hl => hl⟩

theorem carries_lower (k : κ) (e : ε) : b.Carries (b.lower k e) := by
  intro k' e' n hcur hheard
  rcases eq_or_ne k' k with rfl | hne
  · simp [lower] at hcur
  · simp only [lower, update_of_ne hne] at hcur ⊢
    exact ⟨hcur, hheard, fun _ hl => hl⟩

omit [DecidableEq κ] in
theorem carries_discard (gone : κ → Bool) : b.Carries (b.discard gone) := fun _ _ _ hcur hheard =>
  ⟨hcur, hheard, fun _ hl => discard_latch hl⟩

omit [DecidableEq κ] in
theorem Carries.trans {b'' : Board κ ε} (h : b.Carries b') (h' : b'.Carries b'') :
    b.Carries b'' := by
  intro k e n hcur hheard
  obtain ⟨hcur, hheard, hl'⟩ := h' k e n hcur hheard
  obtain ⟨hcur, hheard, hl⟩ := h k e n hcur hheard
  exact ⟨hcur, hheard, fun l hl'' => hl l (hl' l hl'')⟩

section Heeded

variable {pending pending' : κ → Nat → Prop} {seq : Nat}

omit [DecidableEq κ] in
theorem Heeded.carry (h : b.Heeded pending) (hc : b.Carries b')
    (hp : ∀ k n, pending k n → pending' k n) : b'.Heeded pending' := by
  intro k l e n hl hcur hheard
  obtain ⟨hcur, hheard, hlatch⟩ := hc k e n hcur hheard
  obtain ⟨hlt, hcred⟩ := h k l e n (hlatch l hl) hcur hheard
  exact ⟨hlt, hcred.imp id (hp k _)⟩

theorem Heeded.credit (h : b.Heeded pending)
    (hp : ∀ k' n, pending k' n → pending' k' n ∨ (k' = k ∧ n = seq)) :
    (b.modify k (·.credit seq)).Heeded pending' := by
  intro k' l e n hl hcur hheard
  rcases eq_or_ne k' k with rfl | hne
  · simp only [modify, update_self] at hl
    obtain ⟨l₀, hl₀, rfl⟩ := map_eq_some_iff.1 hl
    obtain ⟨hlt, hcred⟩ := h k' l₀ e n hl₀ hcur hheard
    unfold credit
    split
    · next hc => exact ⟨hlt, .inl hc.1.le⟩
    · next hc =>
      refine ⟨hlt, ?_⟩
      rcases hcred with hd | hpend
      · exact .inl hd
      · rcases hp k' _ hpend with hpend | ⟨-, he⟩
        · exact .inr hpend
        · exact .inl (by omega)
  · simp only [modify, update_of_ne hne] at hl
    obtain ⟨hlt, hcred⟩ := h k' l e n hl hcur hheard
    refine ⟨hlt, hcred.imp id fun hpend => ?_⟩
    rcases hp k' _ hpend with hpend | ⟨he, -⟩
    · exact hpend
    · exact absurd he hne

theorem Heeded.condemn (h : b.Heeded pending) (hno : ¬ pending k seq)
    (hp : ∀ k' n, pending k' n → pending' k' n) : (b.modify k (·.condemn seq)).Heeded pending' := by
  intro k' l e n hl hcur hheard
  rcases eq_or_ne k' k with rfl | hne
  · simp only [modify, update_self] at hl
    obtain ⟨l₀, hl₀, rfl⟩ := map_eq_some_iff.1 hl
    obtain ⟨hlt, hcred⟩ := h k' l₀ e n hl₀ hcur hheard
    unfold condemn
    split
    · next hc =>
      rcases hcred with hd | hpend
      · omega
      · exact absurd (hc.1 ▸ hpend) hno
    · exact ⟨hlt, hcred.imp id (hp k' _)⟩
  · simp only [modify, update_of_ne hne] at hl
    obtain ⟨hlt, hcred⟩ := h k' l e n hl hcur hheard
    exact ⟨hlt, hcred.imp id (hp k' _)⟩

omit [DecidableEq κ] in
theorem Heeded.hear (h : b.Heeded pending) {es : Set ε}
    (hes : ∀ k l e n, b.latch k = some l → b.current k = some (e, n) → e ∈ es →
      l.undeliveredSeq < l.emittedSeq ∧ pending' k l.emittedSeq)
    (hp : ∀ k n, pending k n → pending' k n) : (b.hear es).Heeded pending' := by
  rintro k l e n hl hcur (hheard | hnew)
  · obtain ⟨hlt, hcred⟩ := h k l e n hl hcur hheard
    exact ⟨hlt, hcred.imp id (hp k _)⟩
  · obtain ⟨hlt, hpend⟩ := hes k l e n hl hcur hnew
    exact ⟨hlt, .inr hpend⟩

end Heeded

end Board

end Cerbix.Lib
