import Cerbix.Scheduler.Steps

/-!
# Reserve before publish

A ledgered job leaves the process only after the statement that records its window, for its own
identity, has committed (`ReservedFirst`). The identity part holds in every run (`inv_of_reach`).
The minted instant is the job's own (`reservedFirst_of_reach`), except where a credentialed job
loses its window to an older carrier and the expectation loaded earlier stands in for it
(`strippedRun_not_reservedFirst`).
-/

namespace Cerbix.Scheduler

open Cerbix.Lib Cerbix.Domain Cerbix.Ledger List LedgerTables Scheduler.System PendingDispatch

/-- What the ledger says about the jobs handed over, each at its hand-over. -/
structure ReservedFirst (s : System) : Prop where
  /-- The window of a ledgered job has exactly one row, under the job's identity and with the
  instant the job was issued at. -/
  recorded : ∀ h ∈ s.handed, h.dispatch.ledgered → ∃ r, h.windows = [r] ∧
    r.monitorID = h.dispatch.job.monitor.id ∧ h.dispatch.advance.expectedDue = some r.dueAt ∧
    r.jobID.isSome ∧ r.jobID = h.dispatch.job.jobID ∧ r.reservedAt = h.dispatch.job.issuedAt
  /-- A job that carries a window is ledgered, for that window. -/
  carried : ∀ h ∈ s.handed, h.dispatch.job.dueAt.isSome →
    h.dispatch.ledgered ∧ h.dispatch.job.dueAt = h.dispatch.advance.expectedDue
  distinct : (s.handed.map Handed.dispatch).Pairwise fun pd pd' =>
    pd.ledgered → pd'.ledgered → pd.window ≠ pd'.window
  once : (s.handed.map fun h => h.dispatch.job).Pairwise fun job job' =>
    job.dueAt.isSome → job.monitor.id = job'.monitor.id → job.dueAt ≠ job'.dueAt

/-- Reserved windows stay reserved for their jobs. -/
def Keeps (l l' : LedgerTables) : Prop :=
  ∀ r job, Reserved r job → l.runs.get r.key = some r →
    ∃ r', l'.runs.get r.key = some r' ∧ SameWindow r r'

variable {l l' : LedgerTables}

theorem Keeps.of_runs (h : ∀ k r, l.runs.get k = some r → l'.runs.get k = some r) : Keeps l l' :=
  fun r _ _ hr => ⟨r, h _ r hr, SameWindow.refl r⟩

theorem Keeps.refl (l : LedgerTables) : Keeps l l := .of_runs fun _ _ h => h

theorem Keeps.trans {l'' : LedgerTables} (h : Keeps l l') (h' : Keeps l' l'') : Keeps l l'' := by
  intro r job hr hget
  obtain ⟨r', hget', hsame⟩ := h r job hr hget
  obtain ⟨r'', hget'', hsame'⟩ := h' r' job (hr.same hsame) (hsame.key ▸ hget')
  exact ⟨r'', hsame.key ▸ hget'', hsame.trans hsame'⟩

theorem keeps_event (l : LedgerTables) (e : RunEvent) : Keeps l (l.event e) := by
  intro r job hr hget
  exact ⟨_, get_event hr hget e, (touched_event hr e).same⟩

theorem keeps_confirmExpectations (items : List ExpectationConfirm) :
    ∀ l : LedgerTables, Keeps l (l.confirmExpectations items) := by
  induction items with
  | nil => exact Keeps.refl
  | cons c items ih => exact fun l => (keeps_event l (.confirm c)).trans (ih _)

theorem keeps_configWrite {policy : ExpectedRunPolicy} {now : Int} {w : ConfigWrite}
    (h : l.configWrite policy now w = some l') : Keeps l l' := by
  simp only [configWrite, Option.map_eq_some_iff] at h
  obtain ⟨⟨written, ids⟩, hw, rfl⟩ := h
  refine .of_runs fun k r hr => runs_sync_of_some ?_
  rw [(writeGeneration_ledger hw).2]
  exact hr

section

variable {cfg : Settings} {s s' : System}

theorem keeps_acts {op : Op} (h : Acts cfg s op s') : Keeps s.ledger s'.ledger := by
  cases h with
  | decided _ _ hdecides _ _ =>
    have hframe := hdecides.frame
    simp only [System.frame, Frame.mk.injEq] at hframe
    rw [hframe.1]
    exact Keeps.refl _
  | @reserve outcome tie t ht =>
    simp only [System.reserve]
    split
    · exact .of_runs fun k r hr => runs_reserve_of_some hr
    · exact Keeps.refl _
  | @publish attempt p pd rest hp hrest =>
    rw [(publish_spec s { p with pending := rest } pd attempt).1]
    exact Keeps.refl _
  | finish hp hnil =>
    simp only [System.finish]
    split
    · exact keeps_confirmExpectations _ _
    · exact Keeps.refl _
  | configWrite hw => exact keeps_configWrite hw
  | report => exact keeps_event _ _
  | _ => exact Keeps.refl _

/-- The window of the dispatch is reserved for its job. -/
def Recorded (l : LedgerTables) (pd : PendingDispatch) : Prop :=
  ∃ k r job, pd.window = some k ∧ l.runs.get k = some r ∧ Reserved r job ∧
    pd.job.jobID = some job ∧ r.reservedAt = pd.advance.reservedAt

variable {l : LedgerTables} {pd : PendingDispatch}

theorem Recorded.keeps {l' : LedgerTables} (h : Recorded l pd) (hk : Keeps l l') :
    Recorded l' pd := by
  obtain ⟨k, r, job, hw, hget, hr, hj, hres⟩ := h
  have hkey : r.key = k := Table.key_of_get hget
  subst hkey
  obtain ⟨r', hget', hsame⟩ := hk r job hr hget
  exact ⟨_, r', job, hw, hget', hr.same hsame, hj, hsame.reservedAt.trans hres⟩

variable {due : Int} {ledger : LedgerTables} {inflight : CanaryInflight}

theorem mem_of_reservedWindows {written : List ExpectationReservation} {m : MonitorID}
    (h : reservedWindows written m = some due) : ⟨m, due⟩ ∈ written := by
  have hfold : ∀ (written : List ExpectationReservation) (f : MonitorID → Option Int),
      written.foldl (fun (f : MonitorID → Option Int) w =>
        Function.update f w.monitorID (some w.dueAt)) f m = some due →
        ⟨m, due⟩ ∈ written ∨ f m = some due := by
    intro written
    induction written with
    | nil => exact fun f h => .inr h
    | cons w written ih =>
      intro f h
      rcases ih _ h with h | h
      · exact .inl (mem_cons_of_mem w h)
      dsimp only at h
      by_cases hm : m = w.monitorID
      · subst hm
        rw [Function.update_self, Option.some.injEq] at h
        exact .inl (h ▸ mem_cons_self)
      · rw [Function.update_of_ne hm] at h
        exact .inr h
  exact (hfold written _ h).resolve_right (by simp)

theorem recorded_reserve {t : Tick} {held : List PendingDispatch} (hok : t.Ok held [])
    (hpd : pd ∈ t.pending) (hl : pd.ledgered) (hgood : pd.Good)
    (hdue : pd.advance.expectedDue = some due)
    (hret : ⟨pd.monitor.id, due⟩ ∈ l.reserved (validAdvances t.advances))
    (policy : ExpectedRunPolicy) (now : Int) (tie : Nat) :
    Recorded (l.reserve policy now tie (validAdvances t.advances)) pd ∧
      l.runs.get (pd.monitor.id, due) = none := by
  obtain ⟨r, hr, hid⟩ := mem_map.1 hret
  obtain ⟨hmem, hnone, hget⟩ := Table.mem_inserted hr
  obtain ⟨row, -, p, hp, v, hv, rfl⟩ := mem_currentWindows.1 hmem
  simp only [ExpectationReservation.mk.injEq] at hid
  have hkey : (currentWindow row v).key = (pd.monitor.id, due) :=
    Prod.ext hid.1 hid.2
  have hrow : row.monitorID = pd.monitor.id := by
    rw [key_currentWindow] at hkey
    exact congrArg Prod.fst hkey
  rw [hkey] at hnone hget
  -- the advance behind the row is the only one submitted for this monitor
  obtain ⟨hvmem, hvid, -, -⟩ := (picked_spec hp).2 v hv
  obtain ⟨a, ha, hvalid⟩ := mem_filterMap.1 hvmem
  have hvalidate : a.validate = .ok v := by
    cases hva : a.validate with
    | error e => simp [hva, Except.toOption] at hvalid
    | ok v' =>
      simp only [hva, Except.toOption, Option.some.injEq] at hvalid
      rw [hvalid]
  obtain ⟨hamon, -, -, hajob, hares⟩ := ExpectationAdvance.validate_eq_ok hvalidate
  have hcons := hgood.consistent hl
  have hsame : a = pd.advance := by
    refine inj_on_of_nodup_map hok.wf.advances.nodup ha (hok.wf.submitted pd hpd hl) ?_
    rw [hamon, hcons.monitorID, hvid, hrow]
  subst hsame
  obtain ⟨job, hjob⟩ := Option.isSome_iff_exists.1 hcons.hasJob
  have haction : v.action.jobID = some job := by rw [← hajob, hcons.jobID, hjob]
  obtain ⟨carrier, reservedAt, hrun⟩ : ∃ carrier reservedAt,
      v.action = .run job carrier reservedAt := by
    cases hva : v.action with
    | run job' carrier reservedAt =>
      rw [hva] at haction
      cases haction
      exact ⟨carrier, reservedAt, rfl⟩
    | skip reason =>
      rw [hva] at haction
      cases haction
  refine ⟨⟨(pd.monitor.id, due), currentWindow row v, job, ?_, ?_, ?_, hjob, ?_⟩, hnone⟩
  · rw [window, hdue]
    rfl
  · exact Table.get_insertAll_of_some hget _
  · exact (fresh_currentWindow row hrun).toReserved
  · rw [hares job carrier reservedAt hrun, currentWindow, hrun]

/-! ## The gate -/

/-- Between any two operations: what passed the gate is recorded and still to be handed over once,
what was handed over is recorded. -/
structure Inv (s : System) : Prop where
  gate : ∀ p, s.leader.phase = .publishing p → ∀ pd ∈ p.pending, pd.ledgered → p.passes pd →
    Recorded s.ledger pd ∧
      ∀ pd' ∈ s.handed.map Handed.dispatch, pd'.ledgered → pd'.window ≠ pd.window
  handed : ∀ pd ∈ s.handed.map Handed.dispatch, pd.ledgered → Recorded s.ledger pd
  seen : ∀ h ∈ s.handed, h.dispatch.ledgered → ∃ r, h.windows = [r] ∧
    some r.key = h.dispatch.window ∧ r.jobID.isSome ∧ r.jobID = h.dispatch.job.jobID ∧
    r.reservedAt = h.dispatch.advance.reservedAt
  distinct : (s.handed.map Handed.dispatch).Pairwise fun pd pd' =>
    pd.ledgered → pd'.ledgered → pd.window ≠ pd'.window

theorem Recorded.window_ne {pd' : PendingDispatch} {k : MonitorID × Int} (h : Recorded l pd')
    (hk : pd.window = some k) (hnone : l.runs.get k = none) : pd'.window ≠ pd.window := by
  obtain ⟨k', r, -, hw, hget, -⟩ := h
  intro he
  rw [hw, hk, Option.some.injEq] at he
  rw [he, hnone] at hget
  cases hget

theorem Recorded.windowsOf (h : Recorded s.ledger pd) :
    ∃ r, s.windowsOf pd = [r] ∧ some r.key = pd.window ∧ r.jobID.isSome ∧
      r.jobID = pd.job.jobID ∧ r.reservedAt = pd.advance.reservedAt := by
  obtain ⟨k, r, job, hw, hget, hr, hj, hres⟩ := h
  have hkey : r.key = k := Table.key_of_get hget
  refine ⟨r, ?_, by rw [hw, hkey], by rw [hr.jobID]; rfl, hr.jobID.trans hj.symm, hres⟩
  have hfilter : s.windowsOf pd = s.ledger.runs.rows.filter fun a => a.key = k := by
    simp [System.windowsOf, hw]
  rw [hfilter]
  exact Table.filter_key_of_get hget

theorem Inv.frame (hi : Inv s) (hk : Keeps s.ledger s'.ledger) (hh : s'.handed = s.handed)
    (hphase : ∀ p, s'.leader.phase = .publishing p → s.leader.phase = .publishing p) : Inv s' where
  gate p hp pd hpd hl hpass := by
    rw [hh]
    obtain ⟨hrec, hne⟩ := hi.gate p (hphase p hp) pd hpd hl hpass
    exact ⟨hrec.keeps hk, hne⟩
  handed := by
    rw [hh]
    exact fun pd hpd hl => (hi.handed pd hpd hl).keeps hk
  seen := by
    rw [hh]
    exact hi.seen
  distinct := by
    rw [hh]
    exact hi.distinct

theorem Inv.reserve (hi : Inv s) (hf : Flows s) {t : Tick} (ht : s.leader.phase = .deciding t)
    (outcome : ReserveOutcome) (tie : Nat)
    (hk : Keeps s.ledger (s.reserve cfg t outcome tie).ledger) :
    Inv (s.reserve cfg t outcome tie) where
  gate p hp pd hpd hl hpass := by
    have hok := hf.phase
    rw [ht] at hok
    simp only [System.reserve, Phase.publishing.injEq] at hp
    subst hp
    have hgood : pd.Good := by
      apply hf.good
      simp only [System.dispatches, Leader.dispatches, ht, mem_append]
      exact .inl (.inr hpd)
    obtain ⟨due, hret, hdue⟩ := Publishing.reserved_of_passes hl hpass
    split at hret
    · next hout =>
      subst hout
      obtain ⟨hrec, hnone⟩ := recorded_reserve hok hpd hl hgood hdue
        (mem_of_reservedWindows hret) cfg.policy t.now tie
      refine ⟨hrec, fun pd' hpd' hl' => ?_⟩
      refine (hi.handed pd' hpd' hl').window_ne ?_ hnone
      rw [window, hdue]
      rfl
    · cases hret
  handed pd hpd hl := (hi.handed pd hpd hl).keeps hk
  seen := hi.seen
  distinct := hi.distinct

theorem Inv.publish (hi : Inv s) (hf : Flows s) {p : Publishing} {rest : List PendingDispatch}
    (hp : s.leader.phase = .publishing p) (hrest : p.pending = pd :: rest)
    (attempt : PublishAttempt) : Inv (s.publish { p with pending := rest } pd attempt) := by
  obtain ⟨hledger, -, -, -, p', hphase, hpending, hreserved, -, hcase⟩ :=
    publish_spec s { p with pending := rest } pd attempt
  have hpasses (pd' : PendingDispatch) : p'.passes pd' = p.passes pd' := by
    simp only [Publishing.passes, hreserved]
  have hgate {pd' : PendingDispatch} (hpd' : pd' ∈ rest) := hi.gate p hp pd'
    (hrest ▸ mem_cons_of_mem pd hpd')
  rcases hcase with ⟨hpass, -, hhanded, -⟩ | ⟨-, hhanded, -, -⟩
  · -- the dispatch is handed over
    have hpass' : p.passes pd := hpass
    have hown := hi.gate p hp pd (hrest ▸ mem_cons_self)
    refine ⟨?_, ?_, ?_, ?_⟩
    · intro q hq pd' hpd' hl' hpass''
      cases hphase.symm.trans hq
      rw [hpending] at hpd'
      rw [hpasses] at hpass''
      obtain ⟨hrec, hne⟩ := hgate hpd' hl' hpass''
      rw [hledger, hhanded]
      refine ⟨hrec, fun pd'' hpd'' hl'' => ?_⟩
      rw [map_append] at hpd''
      rcases mem_append.1 hpd'' with hpd'' | hpd''
      · exact hne pd'' hpd'' hl''
      -- a tick has one dispatch for a monitor
      rw [mem_singleton.1 hpd'']
      refine fun hw => hf.owner_ne hp hrest hpd' ?_
      obtain ⟨k, -, -, hk, -⟩ := hrec
      rw [hk] at hw
      simp only [window, Option.map_eq_some_iff] at hk hw
      obtain ⟨due, -, rfl⟩ := hk
      obtain ⟨due', -, hw⟩ := hw
      exact congrArg some (congrArg Prod.fst hw).symm
    · intro pd' hpd' hl'
      rw [hledger]
      rw [hhanded, map_append] at hpd'
      rcases mem_concat.1 hpd' with hpd' | rfl
      · exact hi.handed pd' hpd' hl'
      · exact (hown hl' hpass').1
    · intro h hh hl'
      rw [hhanded] at hh
      rcases mem_concat.1 hh with hh | rfl
      · exact hi.seen h hh hl'
      · exact (hown hl' hpass').1.windowsOf
    · rw [hhanded, map_append, pairwise_append]
      refine ⟨hi.distinct, pairwise_singleton .., fun pd' hpd' pd'' hpd'' hl' hl'' => ?_⟩
      rw [mem_singleton.1 hpd''] at hl'' ⊢
      exact (hown hl'' hpass').2 pd' hpd' hl'
  · -- it is held or dropped
    refine ⟨?_, ?_, ?_, ?_⟩
    · intro q hq pd' hpd' hl' hpass'
      cases hphase.symm.trans hq
      rw [hpending] at hpd'
      rw [hpasses] at hpass'
      rw [hledger, hhanded]
      exact hgate hpd' hl' hpass'
    · rw [hhanded, hledger]
      exact hi.handed
    · rw [hhanded]
      exact hi.seen
    · rw [hhanded]
      exact hi.distinct

theorem Inv.ingest (hi : Inv s) {i : Nat} {h : Handed} (hh : s.handed[i]? = some h) :
    Inv (s.ingest i h) where
  gate p hp pd hpd hl hpass := by
    rw [handed_ingest hh]
    exact hi.gate p hp pd hpd hl hpass
  handed := by
    rw [handed_ingest hh]
    exact hi.handed
  seen h' hh' hl := by
    rcases mem_or_eq_of_mem_set hh' with hh' | rfl
    · exact hi.seen h' hh' hl
    · exact hi.seen h (mem_of_getElem? hh) hl
  distinct := by
    rw [handed_ingest hh]
    exact hi.distinct

theorem Inv.acts {op : Op} (hi : Inv s) (hf : Flows s) (h : Acts cfg s op s') : Inv s' := by
  have hk := keeps_acts h
  cases h with
  | decided _ _ hdecides ht' _ =>
    have hframe := hdecides.frame
    simp only [System.frame, Frame.mk.injEq] at hframe
    refine hi.frame hk hframe.2.1 fun p hp => ?_
    rw [ht'] at hp
    cases hp
  | refresh hidle =>
    have hcore := core_refresh s.ledger s.clock s.leader
    simp only [Leader.core, Prod.mk.injEq] at hcore
    refine hi.frame hk rfl fun p hp => ?_
    rw [← hcore.2.2]
    exact hp
  | confirmSignal hcore =>
    simp only [Leader.core, Prod.mk.injEq] at hcore
    refine hi.frame hk rfl fun p hp => ?_
    rw [← hcore.2.2]
    exact hp
  | tick hidle => exact hi.frame hk rfl fun p hp => by cases hp
  | load _ _ hload => exact hi.frame hk rfl fun p hp => by cases hp
  | reserve ht => exact hi.reserve hf ht _ _ hk
  | publish hp hrest => exact hi.publish hf hp hrest _
  | finish hp hnil => exact hi.frame hk rfl fun p hp => by cases hp
  | stepDown => exact hi.frame hk rfl fun p hp => by cases hp
  | configWrite hw => exact hi.frame hk rfl fun p hp => hp
  | observe => exact hi.frame hk rfl fun p hp => hp
  | report => exact hi.frame hk rfl fun p hp => hp
  | ingest hh => exact hi.ingest hh

theorem inv_start (ledger : LedgerTables) (inflight : CanaryInflight) :
    Inv (.start ledger inflight) := by
  refine ⟨fun p hp => (by cases hp), fun pd hpd => (by cases hpd), fun h hh => (by cases hh), ?_⟩
  exact List.Pairwise.nil

theorem inv_of_reach {ok : System → Int × Op → Prop}
    (h : Reach (step cfg) ok (.start ledger inflight) s) : Inv s := by
  refine h.invariant' (inv_start ledger inflight) ?_
  intro s op s' hr hi _ hst
  obtain ⟨-, hf, hacts⟩ := (flows_of_reach hr).acts_of_step hst
  have hi' : Inv { s with clock := op.1 } := ⟨hi.gate, hi.handed, hi.seen, hi.distinct⟩
  exact hi'.acts hf hacts

theorem minted_of_reach
    (h : Reach (step cfg) (fun s op => mintsAlike s op.2) (.start ledger inflight) s) :
    ∀ pd ∈ s.dispatches, pd.Minted := by
  refine h.invariant' (I := fun s => ∀ pd ∈ s.dispatches, pd.Minted) ?_ ?_
  · intro pd hpd
    cases hpd
  · intro s op s' hr hi hok hst
    obtain ⟨-, -, hacts⟩ := (flows_of_reach hr).acts_of_step hst
    refine dispatches_act hacts hi fun _ _ _ _ _ _ _ _ _ _ hans hmints => ?_
    exact minted_decided hans (hmints hok)

/-- **Reserve before publish**, in every run in which each credentialed job that lost its window is
published for an expectation with its own minted instant, or for none. -/
theorem reservedFirst_of_reach {ledger : LedgerTables} {inflight : CanaryInflight}
    (h : Reach (step cfg) (fun s op => mintsAlike s op.2) (.start ledger inflight) s) :
    ReservedFirst s := by
  have hi := inv_of_reach h
  have hf := flows_of_reach h
  have hgood {h : Handed} (hh : h ∈ s.handed) : h.dispatch.Good :=
    hf.good _ (mem_append_right _ (mem_map_of_mem hh))
  have hcarried {h : Handed} (hh : h ∈ s.handed) (hd : h.dispatch.job.dueAt.isSome) :
      h.dispatch.ledgered ∧ h.dispatch.job.dueAt = h.dispatch.advance.expectedDue := by
    have hl : h.dispatch.ledgered := by
      by_contra hn
      rw [(hgood hh).plain (by simpa using hn)] at hd
      cases hd
    exact ⟨hl, ((hgood hh).consistent hl).dueAt hd⟩
  refine ⟨?_, fun h hh => hcarried hh, hi.distinct, ?_⟩
  · intro h hh hl
    obtain ⟨r, hw, hkey, hjob, hid, hres⟩ := hi.seen h hh hl
    have hown := (hgood hh).job_monitor
    have hmint := minted_of_reach ‹_› h.dispatch (mem_append_right _ (mem_map_of_mem hh))
    obtain ⟨due, hdue, hkey⟩ := Option.map_eq_some_iff.1 hkey.symm
    have hm : h.dispatch.monitor.id = r.monitorID := congrArg Prod.fst hkey
    have hd : due = r.dueAt := congrArg Prod.snd hkey
    exact ⟨r, hw, hm.symm.trans (congrArg Monitor.id hown).symm, hd ▸ hdue, hjob, hid,
      hres.trans (hmint hl)⟩
  · have hpairs := pairwise_map.1 hi.distinct
    refine pairwise_map.2 (hpairs.imp_of_mem fun {h h'} hh hh' hne hd hm he => ?_)
    obtain ⟨hl, hdue⟩ := hcarried hh hd
    obtain ⟨hl', hdue'⟩ := hcarried hh' (he ▸ hd)
    apply hne hl hl'
    have hown := (hgood hh).job_monitor
    have hown' := (hgood hh').job_monitor
    rw [window, window, ← hdue, ← hdue', he, ← hown, ← hown', hm]

end

def runSettings : Settings := ⟨withExpectedRunPolicy 14 10000, true⟩

def emptySystem : System := .start ⟨.empty, .empty, .empty⟩ .empty

def everyMinute (id : MonitorID) (type : MonitorType) (requiresEnvelope : Bool) : Op :=
  .configWrite (.create id type ⟨true, 0, 60, 10, 0, 0, 1, requiresEnvelope⟩)

def noCanary : CanaryAnswer := ⟨true, none⟩

/-- A credentialed monitor in a region without a proved ledger carrier: the read mints a second
instant, and the carrier drops the window. -/
def strippedRun (regionGeneration : Int) : List (Int × Op) :=
  [(0, everyMinute 1 .postgres true), (0, .refresh), (1, .tick), (2, .load true),
    (2, .decide ⟨0, noCanary⟩),
    (3, .materialize 0 (some ⟨fun _ => regionGeneration, fun _ => .ok true, 3⟩)),
    (3, .decideCredentialed ⟨true, regionGeneration, noCanary⟩), (4, .reserve .ok 0),
      (5, .publish ⟨true, true⟩),
    (6, .finish true)]

theorem strippedRun_not_reservedFirst :
    let s := finalState (step runSettings) emptySystem (strippedRun 2)
    Reach (step runSettings) anyStep emptySystem s ∧ ¬ReservedFirst s := by
  refine ⟨reach_finalState fun _ _ _ => trivial, fun h => ?_⟩
  have hbad : ∀ h ∈ (finalState (step runSettings) emptySystem (strippedRun 2)).handed,
      h.dispatch.ledgered ∧ h.windows.map ExpectedRun.reservedAt ≠ [h.dispatch.job.issuedAt] := by
    decide +kernel
  obtain ⟨h₀, hh₀⟩ : ∃ h₀, h₀ ∈
      (finalState (step runSettings) emptySystem (strippedRun 2)).handed :=
    exists_mem_of_ne_nil _ (ne_nil_of_length_pos (by decide +kernel))
  obtain ⟨hl, hne⟩ := hbad h₀ hh₀
  obtain ⟨r, hw, -, -, -, -, hres⟩ := h.recorded h₀ hh₀ hl
  apply hne
  rw [hw, map_singleton, hres]

/-- The same monitor next to a plain one whose first reserve fails: its dispatch is held, submitted
again and published by the next tick. -/
def heldRun : List (Int × Op) :=
  [(0, everyMinute 1 .postgres true), (0, everyMinute 2 .http false), (0, .refresh), (1, .tick),
    (2, .load true), (2, .decide ⟨4, noCanary⟩), (2, .decide ⟨4, noCanary⟩),
    (3, .materialize 0 (some ⟨fun _ => 4, fun _ => .ok true, 3⟩)),
      (3, .decideCredentialed ⟨true, 4, noCanary⟩),
    (4, .reserve (.failed false) 0), (5, .publish ⟨true, true⟩), (5, .publish ⟨true, true⟩),
    (6, .finish true), (7, .tick), (8, .load true), (8, .decide ⟨4, noCanary⟩),
    (8, .decide ⟨4, noCanary⟩), (9, .reserve .ok 0), (10, .publish ⟨true, true⟩),
    (10, .publish ⟨true, true⟩), (11, .finish true)]

theorem heldRun_reservedFirst : ReservedFirst (finalState (step runSettings) emptySystem heldRun) ∧
      (finalState (step runSettings) emptySystem heldRun).handed.map
        (fun h => (h.dispatch.monitor.id, h.dispatch.job.jobID, h.dispatch.job.dueAt)) =
          [(2, some 1, some 0), (1, some 2, some 0)] :=
  ⟨reservedFirst_of_reach (reach_of_allowedRun (by decide +kernel)), by decide +kernel⟩

end Cerbix.Scheduler
