import Cerbix.Lib.Except
import Cerbix.Lib.Text
import Cerbix.Lib.Go
import Cerbix.Lib.Keyed
import Cerbix.Lib.Run

/-!
# The escalation ladder

A policy is a ladder of steps at non-decreasing offsets from the base instant of an incident, which
are bounded from below only (`internal/domain/escalation.go`, `validate_afterSeconds`).
`AdvanceEscalations` of `internal/store/escalation.go`, for one incident whose ladder is not edited:
a pass fires every step whose offset has elapsed, latches how far it came, and repeats the last step
when all have fired. A step's due instant is computed with a `time.Duration`, which wraps beyond
about 292 years: the ladder keeps its contract for exactly the policies whose offsets fit
(`ladder_correct_iff`, `overflowing_step_fires_at_once`).
-/

namespace Cerbix.Domain

open Cerbix.Lib

inductive EscalationTargetType
  | channel
  | schedule
  deriving DecidableEq, Repr

/-- A channel, or whoever is on call. -/
structure EscalationTarget where
  type : EscalationTargetType
  id : String
  deriving DecidableEq, Repr

/-- Who is told how long after the incident began. -/
structure EscalationStep where
  afterSeconds : Int
  targets : List EscalationTarget
  deriving DecidableEq, Repr

/-- The steps of a ladder, the last of which may repeat. -/
structure EscalationPolicy where
  name : String
  projectID : String
  repeatLast : Bool
  steps : List EscalationStep
  deriving DecidableEq, Repr

namespace EscalationPolicy

/-- The steps are in the order of their times, and each has a target. -/
def validateStep (i : Nat) (prev : Int) (s : EscalationStep) : Except String Unit := do
  let step := "escalation policy: step " ++ toString i
  refuseIf (s.afterSeconds < 0) (step ++ " after_seconds must be >= 0")
  refuseIf (s.afterSeconds < prev) (step ++ " after_seconds must not decrease")
  refuseIf (s.targets = []) (step ++ " has no targets")
  refuseIf (∃ t ∈ s.targets, Text.blank t.id) (step ++ " has an empty target id")

def validateSteps : Nat → Int → List EscalationStep → Except String Unit
  | _, _, [] => .ok ()
  | i, prev, s :: steps => do
    validateStep i prev s
    validateSteps (i + 1) s.afterSeconds steps

/-- The checks of a policy. -/
def validate (p : EscalationPolicy) : Except String Unit := do
  refuseIf (Text.blank p.name) "escalation policy: name is required"
  refuseIf (p.projectID = "") "escalation policy: project_id is required"
  refuseIf (p.steps = []) "escalation policy: at least one step is required"
  validateSteps 1 (-1) p.steps

theorem validateSteps_afterSeconds {steps : List EscalationStep} : ∀ {i : Nat} {prev : Int},
    validateSteps i prev steps = .ok () → ∀ s ∈ steps, 0 ≤ s.afterSeconds := by
  induction steps with
  | nil =>
    intro i prev _ s hs
    cases hs
  | cons s₀ steps ih =>
    intro i prev h s hs
    obtain ⟨⟨⟩, hstep, hrest⟩ := bind_eq_ok.1 h
    rcases List.mem_cons.1 hs with rfl | hs
    · obtain ⟨⟨⟩, hneg, _⟩ := bind_eq_ok.1 hstep
      exact Int.not_lt.1 (of_decide_eq_false (refuseIf_eq_ok.1 hneg))
    · exact ih hrest s hs

theorem validate_afterSeconds {p : EscalationPolicy} (h : p.validate = .ok ()) :
    ∀ s ∈ p.steps, 0 ≤ s.afterSeconds := by
  obtain ⟨⟨⟩, _, h⟩ := bind_eq_ok.1 h
  obtain ⟨⟨⟩, _, h⟩ := bind_eq_ok.1 h
  obtain ⟨⟨⟩, _, h⟩ := bind_eq_ok.1 h
  exact validateSteps_afterSeconds h

end EscalationPolicy

end Cerbix.Domain

namespace Cerbix.Store

open Cerbix.Lib Cerbix.Domain List

/-! ## A pass -/

/-- The channels of the project and who is on call. -/
structure Directory where
  channelInProject : String → Bool
  onCall : String → Option String

/-- The channel of a target, if the project has it. -/
def targetChannel (d : Directory) (t : EscalationTarget) : Option String :=
  match t.type with
  | .channel => if d.channelInProject t.id then some t.id else none
  | .schedule => (d.onCall t.id).filter d.channelInProject

/-- The channels that a step tells, each once. -/
def resolveTargets (d : Directory) (s : EscalationStep) : List String :=
  firstSeen [] ((s.targets.filterMap (targetChannel d)).filter (· ≠ ""))

/-- A step that was fired, or the last one that was repeated. -/
structure LadderEvent where
  step : Nat
  again : Option Int
  at' : Int
  channels : List String
  deriving DecidableEq, Repr

/-- How far the ladder of an incident has come, and whom it told. -/
structure LadderState where
  clock : Int
  acknowledged : Bool
  resolved : Bool
  step : Nat
  lastEscalated : Option Int
  log : List LadderEvent
  deriving DecidableEq, Repr

/-- What a pass finds around the ladder. -/
structure PassEnv where
  /-- The subject is disabled, not down, below a down parent, without a policy or not the owner of
  paging, or its state is stale. -/
  paused : Bool
  renotifySeconds : Int
  renotify_le : renotifySeconds ≤ 2147483647
  /-- The directory when the targets of a step are resolved; after the last step, for the
  repetition. -/
  directory : Nat → Directory

/-- Go's duration, which wraps. -/
def secondsDuration (seconds : Int) : Int := Go.wrap64 (seconds * 1000000000)

/-- What a pass does before the last step repeats. -/
structure Climbed where
  step : Nat
  events : List LadderEvent
  lastEscalated : Option Int

/-- Fire the steps that are due, one after the other. -/
def climb (base now : Int) (directory : Nat → Directory) :
    Nat → List EscalationStep → Option Int → Climbed
  | i, [], last => ⟨i, [], last⟩
  | i, s :: steps, last =>
    if now < base + secondsDuration s.afterSeconds then ⟨i, [], last⟩
    else
      let targets := resolveTargets (directory i) s
      let rest := climb base now directory (i + 1) steps (if targets ≠ [] then some now else last)
      { rest with events := ⟨i, none, now, targets⟩ :: rest.events }

/-- Tell the last step again, once the interval has passed. -/
def repeatLast (p : EscalationPolicy) (env : PassEnv) (now : Int) (c : Climbed) :
    Option LadderEvent :=
  match p.steps.getLast? with
  | none => none
  | some last =>
    if p.steps.length ≤ c.step ∧ p.repeatLast ∧ 0 < env.renotifySeconds ∧
        (∀ l ∈ c.lastEscalated, l + secondsDuration env.renotifySeconds ≤ now) then
      let targets := resolveTargets (env.directory p.steps.length) last
      if targets ≠ [] then some ⟨p.steps.length - 1, some env.renotifySeconds, now, targets⟩
      else none
    else none

/-- A pass looks at the ladder. -/
def LadderState.candidate (st : LadderState) (env : PassEnv) : Bool :=
  !st.resolved && !st.acknowledged && !env.paused

variable (p : EscalationPolicy)

/-- One pass over the ladder. -/
def advanceEscalations (base : Int) (st : LadderState) (env : PassEnv) : LadderState :=
  if st.candidate env then
    let c := climb base st.clock env.directory st.step (p.steps.drop st.step) st.lastEscalated
    let again := repeatLast p env st.clock c
    { st with
      step := c.step
      lastEscalated := if again.isSome then some st.clock else c.lastEscalated
      log := st.log ++ c.events ++ again.toList }
  else st

/-- What happens to an incident's ladder. -/
inductive LadderOp
  | tick (d : Nat)
  | acknowledge
  | resolve
  | pass (env : PassEnv)

/-- Time passes, someone answers, or a pass is made. -/
def ladderStep (base : Int) (st : LadderState) : LadderOp → Option LadderState
  | .tick d => some { st with clock := st.clock + d }
  | .acknowledge => some { st with acknowledged := true }
  | .resolve => some { st with resolved := true }
  | .pass env => some (advanceEscalations p base st env)

def openedLadder (base : Int) : LadderState := ⟨base, false, false, 0, none, []⟩

def dueAt (base : Int) (s : EscalationStep) : Int := base + s.afterSeconds * 1000000000

def stepDue (base now : Int) (s : EscalationStep) : Bool := dueAt base s ≤ now

open LadderEvent

/-- Each step fired at most once, in index order, and none before it was due. -/
structure FiredInOrder (p : EscalationPolicy) (base : Int) (st : LadderState) : Prop where
  once : (st.log.filter fun e => e.again = none).map step = range st.step
  due : ∀ e ∈ st.log, e.again = none → ∃ s, p.steps[e.step]? = some s ∧ dueAt base s ≤ e.at'

/-- A repetition is of the last step, comes after all steps have fired, and waits for its cadence
after every alert. -/
def RepeatsSpaced (log : List LadderEvent) : Prop :=
  ∀ pre e post, log = pre ++ e :: post → ∀ wait, e.again = some wait →
    e.step + 1 = p.steps.length ∧ (∀ i < p.steps.length, ∃ f ∈ pre, f.again = none ∧ f.step = i) ∧
      ∀ f ∈ pre, f.channels ≠ [] → f.at' + wait * 1000000000 ≤ e.at'

/-- A pass latches the due prefix of a candidate's ladder, and enqueues nothing after an
acknowledgement or a resolution. -/
structure PassCorrect (p : EscalationPolicy) (base : Int) (st : LadderState)
    (env : PassEnv) : Prop where
  latches : st.candidate env = true →
    (advanceEscalations p base st env).step = (p.steps.takeWhile (stepDue base st.clock)).length
  stops : st.acknowledged = true ∨ st.resolved = true →
    (advanceEscalations p base st env).log = st.log

/-- In every run steps fire in order, repeats keep their distance, and passes are right. -/
def LadderCorrect (base : Int) : Prop :=
  ∀ st, Reach (ladderStep p base) anyStep (openedLadder base) st →
    FiredInOrder p base st ∧ RepeatsSpaced p st.log ∧ ∀ env, PassCorrect p base st env

section

variable {p : EscalationPolicy} {base now : Int} {directory : Nat → Directory} {st : LadderState}

def clockedDue (base now : Int) (s : EscalationStep) : Bool :=
  base + secondsDuration s.afterSeconds ≤ now

theorem climb_steps (steps : List EscalationStep) : ∀ (i : Nat) (last : Option Int),
    let due := (steps.takeWhile (clockedDue base now)).length
    (climb base now directory i steps last).step = i + due ∧
      (climb base now directory i steps last).events.map step = range' i due := by
  induction steps with
  | nil =>
    intro i last
    exact ⟨rfl, rfl⟩
  | cons s steps ih =>
    intro i last
    rw [climb, takeWhile_cons]
    by_cases hdue : now < base + secondsDuration s.afterSeconds
    · rw [if_pos hdue]
      simp [clockedDue, Int.not_le.2 hdue]
    · rw [if_neg hdue]
      have hd : clockedDue base now s = true := by simpa [clockedDue] using Int.not_lt.1 hdue
      rw [hd, if_pos rfl, length_cons]
      dsimp only
      rw [map_cons, (ih _ _).1, (ih _ _).2]
      exact ⟨by omega, rfl⟩

variable {steps : List EscalationStep}

theorem mem_climb_events : ∀ {i : Nat} {last : Option Int} {e : LadderEvent},
    e ∈ (climb base now directory i steps last).events → e.again = none ∧ e.at' = now ∧
      i ≤ e.step ∧ ∃ s, steps[e.step - i]? = some s ∧ clockedDue base now s := by
  induction steps with
  | nil =>
    intro i last e he
    cases he
  | cons s steps ih =>
    intro i last e he
    rw [climb] at he
    split at he
    · cases he
    next hdue =>
      rcases mem_cons.1 he with rfl | he
      · refine ⟨rfl, rfl, Nat.le_refl i, s, ?_, ?_⟩
        · simp
        · simpa [clockedDue] using Int.not_lt.1 hdue
      · obtain ⟨hagain, hat, hle, s', hs', hd⟩ := ih he
        refine ⟨hagain, hat, by omega, s', ?_, hd⟩
        have hpos : e.step - i = (e.step - (i + 1)) + 1 := by omega
        rw [hpos]
        exact hs'

theorem climb_lastEscalated : ∀ {i : Nat} {last : Option Int},
    let c := climb base now directory i steps last
    (c.lastEscalated = some now) ∨ (c.lastEscalated = last ∧ ∀ e ∈ c.events, e.channels = []) := by
  induction steps with
  | nil =>
    intro i last
    exact .inr ⟨rfl, fun e he => by cases he⟩
  | cons s steps ih =>
    intro i last
    simp only [climb]
    split
    · exact .inr ⟨rfl, fun e he => by cases he⟩
    by_cases htargets : resolveTargets (directory i) s ≠ []
    · rw [if_pos htargets]
      rcases @ih (i + 1) (some now) with hnow | ⟨hlast, _⟩
      · exact .inl hnow
      · exact .inl hlast
    · rw [if_neg htargets]
      rcases @ih (i + 1) last with hnow | ⟨hlast, hnone⟩
      · exact .inl hnow
      · refine .inr ⟨hlast, ?_⟩
        intro e he
        rcases mem_cons.1 he with rfl | he
        · exact not_not.1 htargets
        · exact hnone e he

end

/-! ## Offsets that fit -/

section

variable {p : EscalationPolicy} {base : Int} {st st' : LadderState}

/-- The longest offset, in seconds, that a duration holds. -/
def maxOffsetSeconds : Int := 9223372036

/-- No offset overflows a duration. -/
def OffsetsFit (p : EscalationPolicy) : Prop := ∀ s ∈ p.steps, 0 ≤ s.afterSeconds ∧
    s.afterSeconds ≤ maxOffsetSeconds

theorem secondsDuration_of_fits {seconds : Int} (h₀ : 0 ≤ seconds)
    (h : seconds ≤ maxOffsetSeconds) :
    secondsDuration seconds = seconds * 1000000000 := by
  unfold maxOffsetSeconds at h
  apply Go.wrap64_of_mem
  · unfold Go.minInt64
    omega
  · unfold Go.maxInt64
    omega

variable {now : Int} {α : Type} {q : α → Bool} {l : List α} {e : LadderEvent}

theorem clockedDue_eq {s : EscalationStep} (hfit : OffsetsFit p) (hs : s ∈ p.steps) :
    clockedDue base now s = stepDue base now s := by
  obtain ⟨h₀, h⟩ := hfit s hs
  rw [clockedDue, stepDue, dueAt, secondsDuration_of_fits h₀ h]

/-- What holds in every run of a ladder whose offsets fit. -/
structure LadderInv (p : EscalationPolicy) (base : Int) (st : LadderState) : Prop where
  fired : FiredInOrder p base st
  spaced : RepeatsSpaced p st.log
  bound : st.step ≤ p.steps.length
  elapsed : ∀ s ∈ p.steps.take st.step, stepDue base st.clock s = true
  past : ∀ e ∈ st.log, e.at' ≤ st.clock
  last : ∀ e ∈ st.log, e.channels ≠ [] → ∃ l, st.lastEscalated = some l ∧ e.at' ≤ l
  lastPast : ∀ l, st.lastEscalated = some l → l ≤ st.clock

theorem takeWhile_eq_of_take {k : Nat}
    (h : ∀ a ∈ l.take k, q a) : l.takeWhile q = l.take k ++ (l.drop k).takeWhile q := by
  conv_lhs => rw [← take_append_drop k l]
  exact takeWhile_append_of_pos h

theorem takeWhile_congr {r : α → Bool} (h : ∀ a ∈ l, q a = r a) :
    l.takeWhile q = l.takeWhile r := by
  induction l with
  | nil => rfl
  | cons a l ih =>
    rw [takeWhile_cons, takeWhile_cons, h a mem_cons_self,
      ih fun b hb => h b (mem_cons_of_mem a hb)]

theorem LadderInv.climbed (hfit : OffsetsFit p) (h : LadderInv p base st)
    (directory : Nat → Directory) :
    (climb base st.clock directory st.step (p.steps.drop st.step) st.lastEscalated).step =
      (p.steps.takeWhile (stepDue base st.clock)).length := by
  have hcongr : (p.steps.drop st.step).takeWhile (clockedDue base st.clock) =
      (p.steps.drop st.step).takeWhile (stepDue base st.clock) :=
    takeWhile_congr fun s hs => clockedDue_eq hfit (mem_of_mem_drop hs)
  rw [(climb_steps _ _ _).1, hcongr, takeWhile_eq_of_take h.elapsed, length_append, length_take,
    Nat.min_eq_left h.bound]

theorem repeatLast_eq_some {env : PassEnv} {c : Climbed} (h : repeatLast p env now c = some e) :
    p.steps.length ≤ c.step ∧ e.step + 1 = p.steps.length ∧ e.again = some env.renotifySeconds ∧
      e.at' = now ∧ 0 < env.renotifySeconds ∧
      ∀ l, c.lastEscalated = some l → l + secondsDuration env.renotifySeconds ≤ now := by
  unfold repeatLast at h
  split at h
  · cases h
  next last hlast =>
    have hpos : 0 < p.steps.length := by
      rw [length_pos_iff]
      rintro hnil
      rw [hnil] at hlast
      cases hlast
    split at h
    · next hready =>
      dsimp only at h
      split at h
      · cases h
        exact ⟨hready.1, Nat.sub_add_cancel hpos, rfl, rfl, hready.2.2.1, hready.2.2.2⟩
      · cases h
    · cases h

theorem RepeatsSpaced.snoc {log : List LadderEvent} (h : RepeatsSpaced p log)
    (he : ∀ wait, e.again = some wait →
      e.step + 1 = p.steps.length ∧ (∀ i < p.steps.length, ∃ f ∈ log, f.again = none ∧ f.step = i) ∧
        ∀ f ∈ log, f.channels ≠ [] → f.at' + wait * 1000000000 ≤ e.at') :
    RepeatsSpaced p (log ++ [e]) := by
  intro pre e' post hsplit wait hwait
  rcases eq_nil_or_concat post with rfl | ⟨post', x, rfl⟩
  · obtain ⟨rfl, hlast⟩ := append_inj' hsplit rfl
    obtain rfl := (cons.inj hlast).1
    exact he wait hwait
  · rw [concat_eq_append, ← cons_append, ← append_assoc] at hsplit
    exact h pre e' post' (append_inj' hsplit rfl).1 wait hwait

theorem RepeatsSpaced.append_fired {events : List LadderEvent} : ∀ {log : List LadderEvent},
    RepeatsSpaced p log → (∀ e ∈ events, e.again = none) → RepeatsSpaced p (log ++ events) := by
  induction events with
  | nil =>
    intro log h _
    rwa [append_nil]
  | cons e events ih =>
    intro log h hnone
    rw [append_cons]
    refine ih (h.snoc fun wait hwait => ?_) fun e' he' => hnone e' (mem_cons_of_mem e he')
    rw [hnone e mem_cons_self] at hwait
    cases hwait

section Pass

variable {env : PassEnv} {c : Climbed}

theorem once_append {log events : List LadderEvent} {k n : Nat}
    (honce : (log.filter fun e => e.again = none).map step = range k)
    (hnone : ∀ e ∈ events, e.again = none) (hsteps : events.map step = range' k n) :
    ((log ++ events).filter fun e => e.again = none).map step = range (k + n) := by
  have hevents : (events.filter fun e => e.again = none) = events :=
    filter_eq_self.2 fun e he => by simpa using hnone e he
  rw [filter_append, map_append, honce, hevents, hsteps, range_eq_range',
    range_eq_range', ← range'_append, Nat.one_mul, Nat.zero_add]

theorem LadderInv.climb (hfit : OffsetsFit p) (h : LadderInv p base st)
    {directory : Nat → Directory}
    (hc : Store.climb base st.clock directory st.step (p.steps.drop st.step) st.lastEscalated = c) :
    LadderInv p base
      { st with step := c.step, lastEscalated := c.lastEscalated, log := st.log ++ c.events } := by
  have hclimbed := h.climbed hfit directory
  rw [hc] at hclimbed
  have hevents : ∀ e ∈ c.events, e.again = none ∧ e.at' = st.clock ∧
      ∃ s, p.steps[e.step]? = some s ∧ dueAt base s ≤ st.clock := by
    intro e he
    rw [← hc] at he
    obtain ⟨hagain, hat, hle, s, hs, hdue⟩ := mem_climb_events he
    rw [getElem?_drop, Nat.add_sub_cancel' hle] at hs
    rw [clockedDue_eq hfit (mem_of_getElem? hs)] at hdue
    exact ⟨hagain, hat, s, hs, by simpa [stepDue] using hdue⟩
  have hboth {P : LadderEvent → Prop} (hold : ∀ e ∈ st.log, P e) (hnew : ∀ e ∈ c.events, P e) :
      ∀ e ∈ st.log ++ c.events, P e := by
    intro e he
    rcases mem_append.1 he with he | he
    · exact hold e he
    · exact hnew e he
  have hlast : c.lastEscalated = some st.clock ∨
      (c.lastEscalated = st.lastEscalated ∧ ∀ e ∈ c.events, e.channels = []) := by
    rw [← hc]
    exact climb_lastEscalated
  refine ⟨⟨?_, ?_⟩, ?_, ?_, ?_, ?_, ?_, ?_⟩
  · have hstep : c.step = st.step +
        ((p.steps.drop st.step).takeWhile (clockedDue base st.clock)).length := by
          rw [← hc, (climb_steps _ _ _).1]
    rw [hstep]
    refine once_append h.fired.once (fun e he => (hevents e he).1) ?_
    rw [← hc, (climb_steps _ _ _).2]
  · refine hboth h.fired.due fun e he _ => ?_
    obtain ⟨_, hat, s, hs, hd⟩ := hevents e he
    exact ⟨s, hs, hat ▸ hd⟩
  · exact h.spaced.append_fired fun e he => (hevents e he).1
  · rw [hclimbed]
    exact (takeWhile_sublist _).length_le
  · intro s hs
    rw [hclimbed, ← prefix_iff_eq_take.1 ( takeWhile_prefix _)] at hs
    exact mem_takeWhile_imp hs
  · exact hboth h.past fun e he => Int.le_of_eq (hevents e he).2.1
  · rcases hlast with hnow | ⟨hsame, hquiet⟩
    · refine hboth (fun e he _ => ⟨_, hnow, h.past e he⟩) fun e he _ => ⟨_, hnow, ?_⟩
      exact Int.le_of_eq (hevents e he).2.1
    · rw [hsame]
      exact hboth h.last fun e he hch => absurd (hquiet e he) hch
  · intro l hl
    rcases hlast with hnow | ⟨hsame, _⟩
    · cases hnow.symm.trans hl
      exact Int.le_refl _
    · exact h.lastPast l (hsame.symm.trans hl)

theorem LadderInv.again (h : LadderInv p base st) {e : LadderEvent}
    (hagain : Store.repeatLast p env st.clock ⟨st.step, [], st.lastEscalated⟩ = some e) :
    LadderInv p base { st with lastEscalated := some st.clock, log := st.log ++ [e] } := by
  obtain ⟨hall, hlaststep, hwait, hat, hpos, hready⟩ := repeatLast_eq_some hagain
  have hduration : secondsDuration env.renotifySeconds = env.renotifySeconds * 1000000000 :=
    secondsDuration_of_fits (Int.le_of_lt hpos) (Int.le_trans env.renotify_le (by decide))
  have hpast : ∀ f ∈ st.log ++ [e], f.at' ≤ st.clock := by
    intro f hf
    rcases mem_append.1 hf with hf | hf
    · exact h.past f hf
    · exact Int.le_of_eq (mem_singleton.1 hf ▸ hat)
  refine ⟨⟨?_, ?_⟩, ?_, h.bound, h.elapsed, hpast, fun f hf _ => ⟨st.clock, rfl, hpast f hf⟩, ?_⟩
  · rw [filter_append, map_append, h.fired.once]
    simp [hwait]
  · intro f hf hnone
    rcases mem_concat.1 hf with hf | rfl
    · exact h.fired.due f hf hnone
    · rw [hwait] at hnone
      cases hnone
  · refine h.spaced.snoc fun wait hw => ?_
    rw [hwait, Option.some_inj] at hw
    refine ⟨hlaststep, ?_, ?_⟩
    · intro i hi
      have hmem : i ∈ (st.log.filter fun e => e.again = none).map step := by
        rw [h.fired.once, mem_range]
        exact Nat.lt_of_lt_of_le hi hall
      obtain ⟨f, hf, rfl⟩ := mem_map.1 hmem
      obtain ⟨hf, hnone⟩ := mem_filter.1 hf
      exact ⟨f, hf, by simpa using hnone, rfl⟩
    · intro f hf hch
      obtain ⟨l, hl, hle⟩ := h.last f hf hch
      have hlate := hready l hl
      omega
  · intro l hl
    cases hl
    exact Int.le_refl _

/-- **One pass over a candidate** keeps the contract. -/
theorem LadderInv.pass (hfit : OffsetsFit p) (h : LadderInv p base st) (env : PassEnv)
    (hcand : st.candidate env) : LadderInv p base (advanceEscalations p base st env) := by
  unfold advanceEscalations
  rw [if_pos hcand]
  dsimp only
  generalize hc : Store.climb base st.clock env.directory st.step (p.steps.drop st.step)
    st.lastEscalated = c
  have hclimb := h.climb hfit hc
  cases hagain : Store.repeatLast p env st.clock c with
  | none =>
    rw [Option.toList_none, append_nil]
    exact hclimb
  | some e => exact hclimb.again hagain

theorem ladderStep_inv (hfit : OffsetsFit p) {op : LadderOp} (h : LadderInv p base st)
    (hst : ladderStep p base st op = some st') : LadderInv p base st' := by
  cases op with
  | tick d =>
    cases hst
    have hclock : st.clock ≤ st.clock + (d : Int) := by omega
    refine ⟨⟨h.fired.once, h.fired.due⟩, h.spaced, h.bound, ?_, ?_, h.last, ?_⟩
    · intro s hs
      have hdue := h.elapsed s hs
      simp only [stepDue, decide_eq_true_eq] at hdue ⊢
      exact Int.le_trans hdue hclock
    · exact fun e he => Int.le_trans (h.past e he) hclock
    · exact fun l hl => Int.le_trans (h.lastPast l hl) hclock
  | acknowledge =>
    cases hst
    exact ⟨⟨h.fired.once, h.fired.due⟩, h.spaced, h.bound, h.elapsed, h.past, h.last, h.lastPast⟩
  | resolve =>
    cases hst
    exact ⟨⟨h.fired.once, h.fired.due⟩, h.spaced, h.bound, h.elapsed, h.past, h.last, h.lastPast⟩
  | pass env =>
    cases hst
    by_cases hcand : st.candidate env = true
    · exact h.pass hfit env hcand
    · unfold advanceEscalations
      rw [if_neg hcand]
      exact h

theorem ladderInv_opened : LadderInv p base (openedLadder base) where
  fired := ⟨rfl, fun e he => by cases he⟩
  spaced := fun pre e post h => by
    have hlen := congrArg length h
    simp [openedLadder] at hlen
  bound := Nat.zero_le _
  elapsed := fun s hs => by cases hs
  past := fun e he => by cases he
  last := fun e he => by cases he
  lastPast := fun l hl => by cases hl

theorem ladderCorrect_of_fit (hfit : OffsetsFit p) : LadderCorrect p base := by
  intro st hreach
  have hinv : LadderInv p base st := hreach.invariant ladderInv_opened
    fun _ _ _ hs _ hst => ladderStep_inv hfit hs hst
  refine ⟨hinv.fired, hinv.spaced, fun env => ⟨?_, ?_⟩⟩
  · intro hcand
    have hclimbed := hinv.climbed hfit env.directory
    unfold advanceEscalations
    rw [if_pos hcand]
    exact hclimbed
  · intro hstopped
    have hcand : st.candidate env ≠ true := by
      rcases hstopped with hs | hs <;> simp [LadderState.candidate, hs]
    unfold advanceEscalations
    rw [if_neg hcand]

end Pass

end

section

variable {p : EscalationPolicy} {base : Int}

/-- An instant, in whole microseconds, when every duration has elapsed and no offset that does not
fit. -/
def wrappedElapsed : Nat := 9223372036854776000

theorem secondsDuration_le (seconds : Int) : secondsDuration seconds ≤ wrappedElapsed := by
  have hlt : Int.bmod (seconds * 1000000000) (2 ^ 64) < ((2 ^ 64 : Nat) + 1) / 2 :=
    Int.bmod_lt (by decide)
  unfold secondsDuration Go.wrap64 wrappedElapsed
  omega

def quietPass : PassEnv := ⟨false, 0, by decide, fun _ => ⟨fun _ => false, fun _ => none⟩⟩

/-- **A ladder in order has offsets that fit**: after the longest duration every step is taken for
due. -/
theorem fit_of_ladderCorrect (h : LadderCorrect p base) {s : EscalationStep} (hs : s ∈ p.steps) :
    s.afterSeconds ≤ maxOffsetSeconds := by
  let st₁ : LadderState := { openedLadder base with clock := base + wrappedElapsed }
  have hreach₁ : Reach (ladderStep p base) anyStep (openedLadder base) st₁ :=
    .step .init trivial (a := .tick wrappedElapsed) rfl
  have hreach : Reach (ladderStep p base) anyStep (openedLadder base)
      (advanceEscalations p base st₁ quietPass) := .step hreach₁ trivial (a := .pass quietPass) rfl
  obtain ⟨k, hk⟩ := List.getElem?_of_mem hs
  have hdue : ∀ t ∈ p.steps, clockedDue base (base + wrappedElapsed) t := by
    intro t _
    have hle := secondsDuration_le t.afterSeconds
    simp only [clockedDue, decide_eq_true_eq]
    omega
  -- every step is fired at once
  have hsteps := (@climb_steps base (base + wrappedElapsed) quietPass.directory p.steps 0 none).2
  rw [takeWhile_eq_self_iff.2 hdue] at hsteps
  have hmem : k ∈ (climb base (base + wrappedElapsed) quietPass.directory 0 p.steps none).events.map
      step := by
    rw [hsteps, mem_range'_1]
    have hlt := (List.getElem?_eq_some_iff.1 hk).1
    omega
  obtain ⟨e, he, rfl⟩ := mem_map.1 hmem
  obtain ⟨hagain, hat, _⟩ := mem_climb_events he
  have helog : e ∈ (advanceEscalations p base st₁ quietPass).log := by
    have hcand : st₁.candidate quietPass := rfl
    unfold advanceEscalations
    exact mem_append_left _ (mem_append_right _ he)
  obtain ⟨s', hs', hearly⟩ := (h _ hreach).1.due e helog hagain
  rw [hk, Option.some_inj] at hs'
  subst hs'
  rw [hat, dueAt] at hearly
  unfold wrappedElapsed at hearly
  unfold maxOffsetSeconds
  omega

/-- **The ladder keeps its contract exactly for offsets that fit into a duration.** -/
theorem ladder_correct_iff (hp : p.validate = .ok ()) :
    LadderCorrect p base ↔ ∀ s ∈ p.steps, s.afterSeconds ≤ maxOffsetSeconds := by
  constructor
  · intro h s hs
    exact fit_of_ladderCorrect h hs
  · intro hfit
    exact ladderCorrect_of_fit fun s hs =>
      ⟨EscalationPolicy.validate_afterSeconds hp s hs, hfit s hs⟩

end

section

def pagerSteps (offsets : List Int) : List EscalationStep :=
  offsets.map fun after => ⟨after, [⟨.channel, "pager"⟩]⟩

def pagerPolicy (offsets : List Int) : EscalationPolicy :=
  ⟨"on-call", "shop", true, pagerSteps offsets⟩

def pagerPass : PassEnv := ⟨false, 0, by decide, fun _ => ⟨fun _ => true, fun _ => none⟩⟩

/-- **A step after more than 292 years fires at once.** -/
theorem overflowing_step_fires_at_once :
    (pagerPolicy [9223372037]).validate = .ok () ∧
      ¬ LadderCorrect (pagerPolicy [9223372037]) 0 := by
  refine ⟨by decide +kernel, ?_⟩
  intro h
  have hreach : Reach (ladderStep (pagerPolicy [9223372037]) 0) anyStep (openedLadder 0)
      (advanceEscalations (pagerPolicy [9223372037]) 0 (openedLadder 0) pagerPass) :=
    .step .init trivial (a := .pass pagerPass) rfl
  have hlog : (advanceEscalations (pagerPolicy [9223372037]) 0 (openedLadder 0) pagerPass).log =
      [⟨0, none, 0, ["pager"]⟩] := by decide +kernel
  obtain ⟨s, hs, hdue⟩ := (h _ hreach).1.due ⟨0, none, 0, ["pager"]⟩ (by rw [hlog]; simp) rfl
  cases hs
  exact absurd hdue (by decide)

theorem ladder_correct_iff_quarterHours :
    (pagerPolicy [0, 900, 1800]).validate = .ok () ∧
      LadderCorrect (pagerPolicy [0, 900, 1800]) 0 := by
  have hp : (pagerPolicy [0, 900, 1800]).validate = .ok () := by decide +kernel
  exact ⟨hp, (ladder_correct_iff hp).2 (by decide +kernel)⟩

end

end Cerbix.Store
