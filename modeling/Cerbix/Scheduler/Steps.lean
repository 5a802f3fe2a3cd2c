import Cerbix.Scheduler.Flow

/-!
# The operations of the leader

`Acts` lists what each operation does in the states where it is possible; every invariant is proved
by its cases. A property that each new dispatch has is kept by all of them (`dispatches_act`), and
the leader's lists stay in order (`flows_of_reach`).
-/

namespace Cerbix.Scheduler

open Cerbix.Lib Cerbix.Domain Cerbix.Ledger List Scheduler.System Tick

/-! ## The dispatches of the leader -/

/-- A dispatch is for its job's monitor, a canary holds a lease, a ledgered dispatch agrees with its
advance, and no other job names a window. -/
structure PendingDispatch.Good (pd : PendingDispatch) : Prop where
  job_monitor : pd.job.monitor = pd.monitor
  leased : pd.lease.isSome ↔ pd.monitor.type = .asyncCanary
  consistent : pd.ledgered → pd.Consistent
  plain : pd.ledgered = false → pd.job.dueAt = none

variable {m admitted : Monitor} {exp : Option DueExpectation} {job : Monitor → CheckJob}
  {carrier : Int} {iv : EffectiveInterval} {credentialed : Bool} {lease : Option Int}

theorem good_decided {t : Tick} (hadm : Admitted m admitted lease) (h : Answers m exp job) :
    (t.decided admitted exp (job admitted) carrier iv credentialed lease).Good := by
  cases exp with
  | none =>
    refine ⟨h.monitor admitted lease hadm, hadm.leased, fun hl => (by cases hl), fun _ => ?_⟩
    cases hd : (job admitted).dueAt with
    | none => exact hd
    | some due =>
      obtain ⟨e, he, -⟩ := h.dueAt admitted (by rw [hd]; rfl)
      cases he
  | some e =>
    refine ⟨h.monitor admitted lease hadm, hadm.leased, fun _ => ?_, fun hl => (by cases hl)⟩
    have hjob : (job admitted).jobID.isSome := h.hasJob rfl admitted
    refine ⟨rfl, rfl, hjob, rfl, ?_, fun hdue => ?_⟩
    · simp [decided, recordAdvance, hjob]
    · obtain ⟨e', he', hd⟩ := h.dueAt admitted hdue
      cases he'
      exact hd

def PendingDispatch.Minted (pd : PendingDispatch) : Prop :=
  pd.ledgered → pd.advance.reservedAt = pd.job.issuedAt

theorem minted_decided {t : Tick} (h : Answers m exp job) (hm : MintsAlike exp job) :
    (t.decided admitted exp (job admitted) carrier iv credentialed lease).Minted := by
  cases exp with
  | none => exact fun hl => by cases hl
  | some e =>
    intro _
    simp only [decided, recordAdvance, h.hasJob rfl admitted]
    exact (hm e rfl admitted).symm

def Phase.dispatches : Phase → List PendingDispatch
  | .deciding t => t.pending
  | .publishing p => p.pending ++ p.held
  | _ => []

open PendingDispatch

/-- A tick decides each monitor once, and what is held for the next one is ledgered. -/
def Phase.Ok (held : List PendingDispatch) : Phase → Prop
  | .deciding t => t.Ok held []
  | .publishing p => ((p.pending ++ p.held).map owner).Nodup ∧
      ∀ pd ∈ p.held, pd.ledgered
  | _ => True

def Leader.dispatches (l : Leader) : List PendingDispatch :=
  l.deferredDispatch ++ l.phase.dispatches

def System.dispatches (s : System) : List PendingDispatch :=
  s.leader.dispatches ++ s.handed.map Handed.dispatch

/-- What holds of the leader's lists between any two operations. -/
structure Flows (s : System) : Prop where
  snapshot : (s.leader.monitors.map Monitor.id).Nodup
  held_nodup : (s.leader.deferredDispatch.map owner).Nodup
  held_ledgered : ∀ pd ∈ s.leader.deferredDispatch, pd.ledgered
  good : ∀ pd ∈ s.dispatches, pd.Good
  phase : s.leader.phase.Ok s.leader.deferredDispatch

theorem Flows.owner_ne {s : System} {p : Publishing} {pd pd' : PendingDispatch}
    {rest : List PendingDispatch} (hf : Flows s) (hp : s.leader.phase = .publishing p)
    (hrest : p.pending = pd :: rest) (h : pd' ∈ rest) : pd'.owner ≠ pd.owner := by
  have hok := hf.phase
  rw [hp] at hok
  have hnodup := hok.1
  rw [hrest, cons_append, map_cons, nodup_cons] at hnodup
  intro hid
  apply hnodup.1
  rw [map_append]
  exact mem_append_left _ (mem_map.2 ⟨pd', h, hid⟩)

def Leader.core (l : Leader) : List Monitor × List PendingDispatch × Phase :=
  (l.monitors, l.deferredDispatch, l.phase)

theorem core_enterConfirm (now : Int) (l : Leader) (m : Monitor) :
    (l.enterConfirm now m).core = l.core := by
  unfold Leader.enterConfirm
  split <;> rfl

theorem core_refresh (tables : LedgerTables) (now : Int) (l : Leader) :
    (l.refresh tables now).core =
      (tables.monitors.rows.filter Monitor.enabled, l.deferredDispatch, l.phase) := by
  have hfold : ∀ (ms : List Monitor) (l : Leader),
      (ms.foldl (Leader.enterConfirm now) l).core = l.core := by
    intro ms
    induction ms with
    | nil => exact fun _ => rfl
    | cons m ms ih => exact fun l => (ih _).trans (core_enterConfirm now l m)
  exact hfold _ _

/-- The condition of an operation under which a job and its window carry one minted instant. -/
def mintsAlike (s : System) : Op → Bool
  | .decideCredentialed _ =>
    match s.leader.phase with
    | .deciding t => t.items.head?.all (keepsMint t)
    | _ => true
  | _ => true

section Step

variable {cfg : Settings} {s s' : System}

def Op.decides : Op → Bool
  | .decide _ | .materialize _ _ | .decideCredentialed _ => true
  | _ => false

variable {op : Op} {P : PendingDispatch → Prop} {p : Publishing} {pd : PendingDispatch}

theorem act_decides (hop : op.decides) (h : act cfg s op = some s')
    (hok : s.leader.phase.Ok s.leader.deferredDispatch) :
    ∃ t t', s.leader.phase = .deciding t ∧ Decides s t.pending (mintsAlike s op) s' ∧
      s'.leader.phase = .deciding t' ∧ t'.Ok s.leader.deferredDispatch [] := by
  cases op with
  | decide e =>
    simp only [act] at h
    split at h
    · next t ht =>
      rw [ht] at hok
      split at h
      · next m rest hrest =>
        cases h
        obtain ⟨t', ht', hok'⟩ := (hok.popRest hrest).decidePlain cfg e
        exact ⟨t, t', ht, decidePlain_decides s cfg { t with rest := rest } m e _, ht', hok'⟩
      · cases h
    · cases h
  | materialize region read =>
    simp only [act] at h
    split at h
    · next t ht =>
      rw [ht] at hok
      split at h
      · next hempty =>
        cases h
        obtain ⟨t', ht', hok'⟩ := Ok.materialize hok hempty.2 region read
        exact ⟨t, t', ht, materialize_decides s t region read _, ht', hok'⟩
      · cases h
    · cases h
  | decideCredentialed e =>
    simp only [act] at h
    split at h
    · next t ht =>
      rw [ht] at hok
      split at h
      · next item items hitems =>
        cases h
        obtain ⟨hpop, hheld, hkeyed⟩ := hok.popItem hitems
        obtain ⟨t', ht', hok'⟩ := hpop.decideCredentialed hheld hkeyed e
        refine ⟨t, t', ht, ?_, ht', hok'⟩
        have hmints : mintsAlike s (.decideCredentialed e) =
            keepsMint { t with items := items } item := by
          simp only [mintsAlike, ht, hitems]
          rfl
        rw [hmints]
        exact decideCredentialed_decides s { t with items := items } hkeyed e
      · cases h
    · cases h
  | _ => cases hop

/-- Every dispatch that a decision creates has the property. -/
def NewDispatches (P : PendingDispatch → Prop) (mints : Prop) : Prop :=
  ∀ (t₀ : Tick) (m admitted : Monitor) (exp : Option DueExpectation)
    (job : Monitor → CheckJob) (carrier : Int) (iv : EffectiveInterval) (credentialed : Bool)
    (lease : Option Int), Admitted m admitted lease → Answers m exp job →
    (mints → MintsAlike exp job) →
    P (t₀.decided admitted exp (job admitted) carrier iv credentialed lease)

theorem Decides.dispatches {t : Tick} {mints : Prop}
    (h : Decides s t.pending mints s') (ht : s.leader.phase = .deciding t)
    (hall : ∀ pd ∈ s.dispatches, P pd) (hnew : NewDispatches P mints) :
    ∀ pd ∈ s'.dispatches, P pd := by
  have hframe := h.frame
  simp only [System.frame, Frame.mk.injEq] at hframe
  obtain ⟨-, hhanded, -, -, hheld⟩ := hframe
  have hpending : ∀ pd ∈ t.pending, P pd := by
    intro pd hpd
    apply hall
    simp only [System.dispatches, Leader.dispatches, ht, mem_append]
    exact .inl (.inr hpd)
  have hafter : ∀ pd ∈ s'.leader.phase.dispatches, P pd := by
    cases h with
    | quiet t' _ _ phase same =>
      rw [phase, Phase.dispatches, same]
      exact hpending
    | dispatched t₀ m exp job carrier credentialed canary eq same answers mintsAlike =>
      subst eq
      obtain ⟨-, -, ⟨reason, iv, -, hphase⟩ | ⟨hskip, iv, hphase⟩⟩ :=
        dispatch_spec s t₀ m exp job carrier credentialed canary
      · rw [hphase, Phase.dispatches, pending_recordSkip, same]
        exact hpending
      · rw [hphase, recordRun, same]
        intro pd hpd
        rcases mem_concat.1 hpd with hpd | rfl
        · exact hpending pd hpd
        · exact hnew t₀ m _ exp job carrier iv credentialed _ (admitCanary_admitted hskip) answers
            mintsAlike
  intro pd hpd
  simp only [System.dispatches, Leader.dispatches, hhanded, hheld, mem_append] at hpd
  rcases hpd with (hpd | hpd) | hpd
  · apply hall
    simp only [System.dispatches, Leader.dispatches, mem_append]
    exact .inl (.inl hpd)
  · exact hafter pd hpd
  · apply hall
    simp only [System.dispatches, mem_append]
    exact .inr hpd

theorem publish_spec (s : System) (p : Publishing) (pd : PendingDispatch)
    (attempt : PublishAttempt) :
    let s' := s.publish p pd attempt
    s'.ledger = s.ledger ∧ s'.clock = s.clock ∧ s'.leader.monitors = s.leader.monitors ∧
      s'.leader.deferredDispatch = s.leader.deferredDispatch ∧
      ∃ p', s'.leader.phase = .publishing p' ∧ p'.pending = p.pending ∧ p'.reserved = p.reserved ∧
        p'.reserveFailed = p.reserveFailed ∧
        ((p.passes pd ∧ p'.held = p.held ∧ s'.handed = s.handed ++
            [⟨pd, attempt.accepted, s.clock, s.windowsOf pd, false⟩] ∧
            s'.inflight = if attempt.accepted then s.inflight else s.release pd attempt.released) ∨
          (p.passes pd = false ∧ s'.handed = s.handed ∧
            s'.inflight = s.release pd attempt.released ∧
            p'.held = if p.reserveFailed then p.held ++ [pd] else p.held)) := by
  unfold publish
  split
  · next hgate =>
    refine ⟨rfl, rfl, rfl, rfl, _, rfl, rfl, rfl, rfl, .inr ⟨?_, rfl, rfl, rfl⟩⟩
    simpa using hgate
  · next hgate =>
    have hpass : p.passes pd := by simpa using hgate
    split
    · next hacc =>
      refine ⟨rfl, rfl, ?_, ?_, _, rfl, rfl, rfl, rfl, .inl ⟨hpass, rfl, ?_, ?_⟩⟩
      · unfold Leader.published
        split <;> rfl
      · unfold Leader.published
        split <;> rfl
      · rw [hacc]
      · simp
    · next hacc =>
      refine ⟨rfl, rfl, ?_, ?_, _, rfl, rfl, rfl, rfl, .inl ⟨hpass, rfl, ?_, ?_⟩⟩
      · unfold Leader.notPublished
        split <;> rfl
      · unfold Leader.notPublished
        split <;> rfl
      · simp
      · simp

theorem Publishing.reserved_of_passes (hl : pd.ledgered) (h : p.passes pd) :
    ∃ due, p.reserved pd.monitor.id = some due ∧ pd.advance.expectedDue = some due := by
  simp only [Publishing.passes, hl, Bool.not_true, Bool.false_or] at h
  cases hr : p.reserved pd.monitor.id with
  | none => simp [hr] at h
  | some due =>
    rw [hr, Option.any_some, decide_eq_true_eq] at h
    exact ⟨due, rfl, h⟩

theorem ledgered_of_not_passes (h : p.passes pd = false) : pd.ledgered := by
  by_contra hn
  simp [Publishing.passes, hn] at h

/-- What an operation does, in the state where it is possible. -/
inductive Acts (cfg : Settings) (s : System) : Op → System → Prop
  | decided {op : Op} {t t' : Tick} {s' : System} (hop : op.decides)
      (ht : s.leader.phase = .deciding t) (decides : Decides s t.pending (mintsAlike s op) s')
      (ht' : s'.leader.phase = .deciding t') (hok : t'.Ok s.leader.deferredDispatch []) :
      Acts cfg s op s'
  | refresh (hidle : s.leader.phase = .idle) :
      Acts cfg s .refresh { s with leader := s.leader.refresh s.ledger s.clock }
  | confirmSignal {id : MonitorID} {l : Leader} (hcore : l.core = s.leader.core) :
      Acts cfg s (.confirmSignal id) { s with leader := l }
  | tick (hidle : s.leader.phase = .idle) : Acts cfg s .tick (s.inPhase (.loading s.clock))
  | load {loaded : Bool} {now : Int} (nextJob : JobID) (expectations : List DueExpectation)
      (hload : s.leader.phase = .loading now) :
      Acts cfg s (.load loaded) ({ s with nextJob := nextJob }.inPhase <| .deciding
        ⟨now, expectations, s.leader.monitors, [], [], s.leader.deferredDispatch,
          s.leader.deferredDispatch.map advance⟩)
  | reserve {outcome : ReserveOutcome} {tie : Nat} {t : Tick}
      (ht : s.leader.phase = .deciding t) :
      Acts cfg s (.reserve outcome tie) (s.reserve cfg t outcome tie)
  | publish {attempt : PublishAttempt} {p : Publishing} {pd : PendingDispatch}
      {rest : List PendingDispatch} (hp : s.leader.phase = .publishing p)
      (hrest : p.pending = pd :: rest) :
      Acts cfg s (.publish attempt) (s.publish { p with pending := rest } pd attempt)
  | finish {stored : Bool} {p : Publishing} (hp : s.leader.phase = .publishing p)
      (hnil : p.pending = []) : Acts cfg s (.finish stored) (s.finish p stored)
  | stepDown : Acts cfg s .stepDown { s with leader := .fresh }
  | configWrite {w : ConfigWrite} {ledger : LedgerTables}
      (hw : s.ledger.configWrite cfg.policy s.clock w = some ledger) :
      Acts cfg s (.configWrite w) { s with ledger := ledger }
  | observe {id : MonitorID} {status : MonitorStatus} {failures : Int} :
      Acts cfg s (.observe id status failures) (s.observe id status failures)
  | report {e : RunEvent} : Acts cfg s (.report e) { s with ledger := s.ledger.event e }
  | ingest {i : Nat} {h : Handed} (hh : s.handed[i]? = some h) :
    Acts cfg s (.ingest i) (s.ingest i h)

theorem acts_of_act (h : act cfg s op = some s')
    (hok : s.leader.phase.Ok s.leader.deferredDispatch) : Acts cfg s op s' := by
  cases op with
  | decide e =>
    obtain ⟨t, t', ht, hdecides, ht', hok'⟩ := act_decides rfl h hok
    exact .decided rfl ht hdecides ht' hok'
  | materialize region read =>
    obtain ⟨t, t', ht, hdecides, ht', hok'⟩ := act_decides rfl h hok
    exact .decided rfl ht hdecides ht' hok'
  | decideCredentialed e =>
    obtain ⟨t, t', ht, hdecides, ht', hok'⟩ := act_decides rfl h hok
    exact .decided rfl ht hdecides ht' hok'
  | refresh =>
    simp only [act] at h
    split at h
    · next hidle =>
      cases h
      exact .refresh hidle
    · cases h
  | confirmSignal id =>
    simp only [act] at h
    split at h
    · split at h
      · cases h
        exact .confirmSignal (core_enterConfirm ..)
      · cases h
        exact .confirmSignal rfl
    · cases h
      exact .confirmSignal rfl
    · cases h
  | tick =>
    simp only [act] at h
    split at h
    · next hidle =>
      cases h
      exact .tick hidle
    · cases h
  | load loaded =>
    simp only [act] at h
    split at h
    · next now hload =>
      cases h
      exact .load _ _ hload
    · cases h
  | reserve outcome tie =>
    simp only [act] at h
    split at h
    · next t ht =>
      split at h
      · cases h
        exact .reserve ht
      · cases h
    · cases h
  | publish attempt =>
    simp only [act] at h
    split at h
    · next p hp =>
      split at h
      · next pd rest hrest =>
        cases h
        exact .publish hp hrest
      · cases h
    · cases h
  | finish stored =>
    simp only [act] at h
    split at h
    · next p hp =>
      split at h
      · next hnil =>
        cases h
        exact .finish hp hnil
      · cases h
    · cases h
  | stepDown =>
    cases h
    exact .stepDown
  | configWrite w =>
    simp only [act, Option.map_eq_some_iff] at h
    obtain ⟨ledger, hw, rfl⟩ := h
    exact .configWrite hw
  | observe id status failures =>
    cases h
    exact .observe
  | report e =>
    cases h
    exact .report
  | ingest i =>
    simp only [act] at h
    split at h
    · next job hjob =>
      cases h
      exact .ingest hjob
    · cases h

theorem handed_ingest {i : Nat} {h : Handed} (hh : s.handed[i]? = some h) :
    (s.ingest i h).handed.map Handed.dispatch = s.handed.map Handed.dispatch := by
  have hsome : (s.handed.map Handed.dispatch)[i]? = some h.dispatch := by
    rw [List.getElem?_map, hh]
    rfl
  obtain ⟨hi, hget⟩ := List.getElem?_eq_some_iff.1 hsome
  rw [ingest, map_set, ← hget, set_getElem_self]

theorem dispatches_act (h : Acts cfg s op s') (hall : ∀ pd ∈ s.dispatches, P pd)
    (hnew : NewDispatches P (mintsAlike s op)) : ∀ pd ∈ s'.dispatches, P pd := by
  -- the operations that do not decide create none
  suffices hsub : op.decides = false → s'.dispatches ⊆ s.dispatches by
    cases hop : op.decides with
    | true =>
      cases h with
      | decided _ ht hdecides _ _ => exact hdecides.dispatches ht hall hnew
      | _ => cases hop
    | false => exact fun pd hpd => hall pd (hsub hop hpd)
  intro hop
  have hsame {s' : System} (hl : s'.leader.dispatches = s.leader.dispatches)
      (hh : s'.handed.map Handed.dispatch = s.handed.map Handed.dispatch) :
      s'.dispatches ⊆ s.dispatches := by
    rw [dispatches, hl, hh]
    exact List.Subset.refl _
  cases h with
  | decided hop' => simp [hop'] at hop
  | refresh hidle =>
    refine hsame ?_ rfl
    have hcore := core_refresh s.ledger s.clock s.leader
    simp only [Leader.core, Prod.mk.injEq] at hcore
    rw [Leader.dispatches, Leader.dispatches, hcore.2.1, hcore.2.2]
  | confirmSignal hcore =>
    refine hsame ?_ rfl
    simp only [Leader.core, Prod.mk.injEq] at hcore
    simp only [Leader.dispatches, hcore]
  | tick hidle =>
    refine hsame ?_ rfl
    rw [Leader.dispatches, Leader.dispatches, hidle]
    rfl
  | load nextJob expectations hload =>
    intro pd hpd
    simp only [dispatches, Leader.dispatches, mem_append] at hpd ⊢
    tauto
  | reserve ht =>
    refine hsame ?_ rfl
    simp only [Leader.dispatches, reserve, Phase.dispatches, ht, append_nil]
  | @publish attempt p pd rest hp hrest =>
    obtain ⟨-, -, -, hheld, p', hphase, hpending, -, -, hcase⟩ :=
      publish_spec s { p with pending := rest } pd attempt
    intro pd' hpd'
    simp only [dispatches, Leader.dispatches, hphase, hp, hrest, hheld, hpending,
      Phase.dispatches, mem_append, mem_cons] at hpd' ⊢
    rcases hcase with ⟨-, hh, hhanded, -⟩ | ⟨-, hhanded, -, hh⟩
    · rw [hh, hhanded] at hpd'
      simp only [map_append, map_cons, map_nil, mem_append, mem_singleton] at hpd'
      tauto
    · rw [hh, hhanded] at hpd'
      split at hpd'
      · simp only [mem_append, mem_singleton] at hpd'
        tauto
      · tauto
  | finish hp hnil =>
    intro pd hpd
    simp only [dispatches, Leader.dispatches, Phase.dispatches, hp, mem_append] at hpd ⊢
    tauto
  | stepDown => exact subset_append_right _ _
  | configWrite hw => exact hsame rfl rfl
  | observe => exact hsame rfl rfl
  | report => exact hsame rfl rfl
  | ingest hh => exact hsame rfl (handed_ingest hh)

theorem flows_start (ledger : LedgerTables) (inflight : CanaryInflight) :
    Flows (.start ledger inflight) := by
  refine ⟨nodup_nil, nodup_nil, ?_, ?_, trivial⟩
  · intro pd hpd
    cases hpd
  · intro pd hpd
    cases hpd

theorem Flows.load (hf : Flows s) (now : Int) (expectations : List DueExpectation) :
    Ok s.leader.deferredDispatch []
      ⟨now, expectations, s.leader.monitors, [], [], s.leader.deferredDispatch,
        s.leader.deferredDispatch.map advance⟩ where
  wf := by
    have howner : (s.leader.deferredDispatch.map advance).map
        ExpectationAdvance.monitorID = s.leader.deferredDispatch.map owner := by
      rw [map_map]
      refine map_congr_left fun pd hpd => ?_
      have hgood := hf.good pd (mem_append_left _ (mem_append_left _ hpd))
      exact (hgood.consistent (hf.held_ledgered pd hpd)).monitorID
    refine ⟨by simpa [todo] using hf.snapshot, ⟨hf.held_nodup, fun a ha => .inl ha⟩, ?_,
      fun pd hpd _ => mem_map_of_mem hpd⟩
    rw [howner]
    exact ⟨hf.held_nodup, fun a ha => .inl ha⟩
  fresh := by simp
  keyed := by simp

/-- **The lists of the leader stay in order** along every operation. -/
theorem Flows.acts (hf : Flows s) (h : Acts cfg s op s') : Flows s' := by
  have hgood : ∀ pd ∈ s'.dispatches, pd.Good :=
    dispatches_act h hf.good fun _ _ _ _ _ _ _ _ _ hadm hans _ => good_decided hadm hans
  -- where the leader stays, there is nothing to show
  have hsame (hl : s'.leader.core = s.leader.core) : Flows s' := by
    simp only [Leader.core, Prod.mk.injEq] at hl
    refine ⟨hl.1 ▸ hf.snapshot, hl.2.1 ▸ hf.held_nodup, hl.2.1 ▸ hf.held_ledgered, hgood, ?_⟩
    rw [hl.2.1, hl.2.2]
    exact hf.phase
  cases h with
  | decided _ _ hdecides ht' hok =>
    have hframe := hdecides.frame
    simp only [System.frame, Frame.mk.injEq] at hframe
    obtain ⟨-, -, -, hmon, hheld⟩ := hframe
    refine ⟨hmon ▸ hf.snapshot, hheld ▸ hf.held_nodup, hheld ▸ hf.held_ledgered, hgood, ?_⟩
    rw [ht', hheld]
    exact hok
  | refresh hidle =>
    have hcore := core_refresh s.ledger s.clock s.leader
    simp only [Leader.core, Prod.mk.injEq] at hcore
    obtain ⟨hm, hd, hp⟩ := hcore
    refine ⟨?_, hd ▸ hf.held_nodup, hd ▸ hf.held_ledgered, hgood, ?_⟩
    · rw [hm]
      exact s.ledger.monitors.keyed.sublist (filter_sublist.map _)
    · rw [hd, hp]
      exact hf.phase
  | confirmSignal hcore => exact hsame hcore
  | tick hidle => exact ⟨hf.snapshot, hf.held_nodup, hf.held_ledgered, hgood, trivial⟩
  | load nextJob expectations hload =>
    exact ⟨hf.snapshot, hf.held_nodup, hf.held_ledgered, hgood, hf.load _ _⟩
  | reserve ht =>
    have hok := hf.phase
    rw [ht] at hok
    refine ⟨hf.snapshot, hf.held_nodup, hf.held_ledgered, hgood, ?_, ?_⟩
    · rw [append_nil]
      exact hok.wf.pending.nodup
    · intro pd hpd
      cases hpd
  | @publish attempt p pd rest hp hrest =>
    obtain ⟨-, -, hmon, hheld, p', hphase, hpending, -, -, hcase⟩ :=
      publish_spec s { p with pending := rest } pd attempt
    have hok := hf.phase
    rw [hp] at hok
    obtain ⟨hnodup, hled⟩ := hok
    rw [hrest, cons_append, map_cons, nodup_cons] at hnodup
    refine ⟨hmon ▸ hf.snapshot, hheld ▸ hf.held_nodup, hheld ▸ hf.held_ledgered, hgood, ?_⟩
    rw [hphase]
    rcases hcase with ⟨-, hh, -, -⟩ | ⟨hgate, -, -, hh⟩
    · refine ⟨?_, ?_⟩
      · rw [hpending, hh]
        exact hnodup.2
      · rw [hh]
        exact hled
    · have hl := ledgered_of_not_passes hgate
      refine ⟨?_, ?_⟩
      · rw [hpending, hh]
        split
        · rw [← append_assoc, map_append, map_singleton]
          refine List.Nodup.append hnodup.2 (nodup_singleton _) ?_
          rw [disjoint_singleton]
          exact hnodup.1
        · exact hnodup.2
      · rw [hh]
        split
        · intro pd' hpd'
          rcases mem_concat.1 hpd' with hpd' | rfl
          · exact hled pd' hpd'
          · exact hl
        · exact hled
  | @finish stored p hp hnil =>
    have hok := hf.phase
    rw [hp] at hok
    obtain ⟨hnodup, hled⟩ := hok
    rw [hnil] at hnodup
    exact ⟨hf.snapshot, hnodup, hled, hgood, trivial⟩
  | stepDown =>
    refine ⟨nodup_nil, nodup_nil, ?_, hgood, trivial⟩
    intro pd hpd
    cases hpd
  | configWrite hw => exact hsame rfl
  | observe => exact hsame rfl
  | report => exact hsame rfl
  | ingest hh => exact hsame rfl

theorem Flows.acts_of_step {op : Int × Op} (hf : Flows s) (h : step cfg s op = some s') :
    s.clock ≤ op.1 ∧ Flows { s with clock := op.1 } ∧
      Acts cfg { s with clock := op.1 } op.2 s' := by
  simp only [step] at h
  split at h
  · cases h
  rename_i hclock
  refine ⟨Int.not_lt.1 hclock, ?_, acts_of_act h hf.phase⟩
  exact ⟨hf.snapshot, hf.held_nodup, hf.held_ledgered, hf.good, hf.phase⟩

theorem flows_of_reach {ok : System → Int × Op → Prop} {ledger : LedgerTables}
    {inflight : CanaryInflight} (h : Reach (step cfg) ok (.start ledger inflight) s) : Flows s := by
  refine h.invariant (flows_start ledger inflight) ?_
  intro s op s' hf _ hst
  obtain ⟨-, hf', hacts⟩ := hf.acts_of_step hst
  exact hf'.acts hacts

end Step

end Cerbix.Scheduler
