import Cerbix.Scheduler.ReserveFirst
import Mathlib.Data.List.Perm.Subperm

/-!
# Absences

A tick that cannot load the expectations publishes below the ledger; the stored expectation stays
behind, and the next advance back-fills the span from stored state alone. `Audited` counts the jobs
the leader published for a monitor without a window. An advance never inserts more absences than the
grid has windows (`neverIssued_le`), but one unrecorded run is enough to count it as an absence
(`unloadedRun_falseAbsence`, `noFalseAbsence_of_reach`).
-/

namespace Cerbix.Scheduler

open Cerbix.Lib Cerbix.Domain Cerbix.Ledger List

def gridBefore (due intervalInForce at' : Int) : Nat :=
  (instants (due + seconds intervalInForce) (seconds intervalInForce)
    (due + seconds intervalInForce) at').length

def neverIssued (l : LedgerTables) (policy : ExpectedRunPolicy) (now : Int) (items : List Advance)
    (m : MonitorID) : List ExpectedRun :=
  ((l.runs.insertAll (l.currentWindows items)).inserted (l.missedWindows policy now items)).filter
    fun r => r.monitorID = m ∧ r.verdict = .expectedNeverIssued

theorem neverIssued_le {l : LedgerTables} (policy : ExpectedRunPolicy) (now : Int)
    (items : List Advance) {row : ScheduleRow} (hrow : row ∈ l.schedule.rows) :
    (neverIssued l policy now items row.monitorID).length ≤
      gridBefore row.nextDueAt row.intervalInForce now := by
  let gaps := neverIssued l policy now items row.monitorID
  have hmon : ∀ r ∈ gaps, r.monitorID = row.monitorID := by
    intro r hr
    exact (of_decide_eq_true (mem_filter.1 hr).2).1
  have hnodup : (gaps.map ExpectedRun.dueAt).Nodup := by
    have hkeys : (gaps.map ExpectedRun.key).Nodup :=
      (Table.inserted_keyed _ _).sublist (filter_sublist.map _)
    refine List.Nodup.map_on ?_ hkeys.of_map
    intro r hr r' hr' hd
    exact inj_on_of_nodup_map hkeys hr hr' (Prod.ext ((hmon r hr).trans (hmon r' hr').symm) hd)
  have hsub : gaps.map ExpectedRun.dueAt ⊆ instants row.firstExpected
      (seconds row.intervalInForce) row.firstExpected now := by
    intro d hd
    obtain ⟨r, hr, rfl⟩ := mem_map.1 hd
    obtain ⟨hmem, -, -⟩ := Table.mem_inserted (mem_filter.1 hr).1
    obtain ⟨row', hrow', p, -, hmissed⟩ := LedgerTables.mem_missedWindows.1 hmem
    obtain ⟨d, hgap, rfl⟩ := mem_map.1 hmissed
    have hsame : row' = row := inj_on_of_nodup_map l.schedule.keyed hrow' hrow (hmon _ hr)
    subst hsame
    have hpos := seconds_pos row'.interval_pos
    obtain ⟨hgrid, -, hlt⟩ := (mem_instants hpos).1 (mem_of_mem_newest hgap)
    exact (mem_instants hpos).2 ⟨hgrid, hgrid.first_le hpos, hlt⟩
  have hlen := (subperm_of_subset hnodup hsub).length_le
  rwa [length_map] at hlen

/-! ## Counting the unrecorded runs -/

/-- A move of a schedule, with the windows it passed. -/
structure AdvanceRecord where
  monitorID : MonitorID
  due : Int
  intervalInForce : Int
  at' : Int
  absences : Nat
  unrecorded : Nat
  deriving DecidableEq, Repr

/-- The system with what its runs left out of the ledger. -/
structure Audited where
  system : System
  /-- The jobs published without a window since the last advance of a monitor's schedule, or since
  it began. -/
  unrecorded : MonitorID → Nat
  log : List AdvanceRecord

def Audited.start (ledger : LedgerTables) (inflight : CanaryInflight) : Audited :=
  ⟨.start ledger inflight, fun _ => 0, []⟩

/-- The advances an operation makes: a reserve that commits moves every schedule it picks. -/
def advancesOf (cfg : Settings) (s : System) (unrecorded : MonitorID → Nat) :
    Op → List AdvanceRecord
  | .reserve outcome _ =>
    match s.leader.phase, outcome.commits with
    | .deciding t, true =>
      (s.ledger.schedule.rows.filter fun row =>
        (s.ledger.picked (validAdvances t.advances) row).isSome).map fun row =>
          { monitorID := row.monitorID
            due := row.nextDueAt
            intervalInForce := row.intervalInForce
            at' := t.now
            absences :=
              (neverIssued s.ledger cfg.policy t.now (validAdvances t.advances)
                row.monitorID).length
            unrecorded := unrecorded row.monitorID }
    | _, _ => []
  | _ => []

def publishedUnrecorded (s s' : System) (m : MonitorID) : Nat :=
  ((s'.handed.drop s.handed.length).filter fun h =>
    h.accepted && !h.dispatch.ledgered && h.dispatch.monitor.id = m).length

def begins (s s' : System) (m : MonitorID) : Bool :=
  (s.ledger.schedule.get m).isNone && (s'.ledger.schedule.get m).isSome

def Audited.step (cfg : Settings) (a : Audited) (op : Int × Op) : Option Audited :=
  (a.system.step cfg op).map fun s' =>
    let advances := advancesOf cfg a.system a.unrecorded op.2
    { system := s'
      unrecorded := fun m =>
        if begins a.system s' m || advances.any fun r => r.monitorID = m then 0
        else a.unrecorded m + publishedUnrecorded a.system s' m
      log := a.log ++ advances }

/-- **A run that happened is never counted as an absence**: the absences of an advance and the
unrecorded runs since the last one share the windows of the grid. -/
def NoFalseAbsence (a : Audited) : Prop :=
  ∀ r ∈ a.log, r.absences + r.unrecorded ≤ gridBefore r.due r.intervalInForce r.at'

/-- A job without a window is published only for a monitor that has no schedule. -/
def publishesRecorded (s : System) : Op → Bool
  | .publish attempt =>
    match s.leader.phase with
    | .publishing p => p.pending.head?.all fun pd =>
        pd.ledgered || !attempt.accepted || (s.ledger.schedule.get pd.monitor.id).isNone
    | _ => true
  | _ => true

section

variable {cfg : Settings} {s s' : System}

theorem publishedUnrecorded_eq_zero {op : Op} (h : Acts cfg s op s')
    (hok : publishesRecorded s op) {m : MonitorID} (hm : (s.ledger.schedule.get m).isSome) :
    publishedUnrecorded s s' m = 0 := by
  have hsame (hh : s'.handed = s.handed) : publishedUnrecorded s s' m = 0 := by
    rw [publishedUnrecorded, hh, drop_length]
    rfl
  cases h with
  | decided _ _ hdecides _ _ =>
    have hframe := hdecides.frame
    simp only [System.frame, Frame.mk.injEq] at hframe
    exact hsame hframe.2.1
  | @publish attempt p pd rest hp hrest =>
    obtain ⟨-, -, -, -, p', -, -, -, -, hcase⟩ :=
      publish_spec s { p with pending := rest } pd attempt
    rcases hcase with ⟨-, -, hhanded, -⟩ | ⟨-, hhanded, -, -⟩
    · rw [publishedUnrecorded, hhanded, drop_left]
      simp only [publishesRecorded, hp, hrest, List.head?_cons, Option.all_some] at hok
      refine length_eq_zero_iff.2 (filter_eq_nil_iff.2 ?_)
      intro h hh hcount
      obtain rfl := mem_singleton.1 hh
      simp only [Bool.and_eq_true, Bool.not_eq_true', decide_eq_true_eq] at hcount
      obtain ⟨⟨hacc, hl⟩, rfl⟩ := hcount
      simp only [hl, hacc, Bool.not_true, Bool.false_or, Option.isNone_iff_eq_none] at hok
      rw [hok] at hm
      cases hm
    · exact hsame hhanded
  | ingest hh =>
    rw [publishedUnrecorded, System.ingest, drop_of_length_le (by simp)]
    rfl
  | _ => exact hsame rfl

/-- Nothing unrecorded was published for a monitor that has a schedule. -/
structure Audited.Inv (a : Audited) : Prop where
  recorded : ∀ m, (a.system.ledger.schedule.get m).isSome → a.unrecorded m = 0
  sound : NoFalseAbsence a

theorem Audited.Inv.step {a a' : Audited} {op : Int × Op} (hi : a.Inv) (hf : Flows a.system)
    (hok : publishesRecorded a.system op.2) (h : a.step cfg op = some a') : a'.Inv := by
  simp only [Audited.step, Option.map_eq_some_iff] at h
  obtain ⟨s', hst, rfl⟩ := h
  obtain ⟨-, -, hacts⟩ := hf.acts_of_step hst
  refine ⟨?_, ?_⟩
  · intro m hm
    dsimp only
    split
    · rfl
    rename_i hnot
    simp only [Bool.or_eq_true, not_or, begins, Bool.and_eq_true, not_and] at hnot
    have hbefore : (a.system.ledger.schedule.get m).isSome := by
      by_contra hnone
      exact hnot.1 (by simpa using hnone) hm
    have hpub := publishedUnrecorded_eq_zero hacts hok hbefore
    rw [hi.recorded m hbefore, Nat.zero_add]
    exact hpub
  · intro r hr
    rcases mem_append.1 hr with hr | hr
    · exact hi.sound r hr
    unfold advancesOf at hr
    split at hr
    · split at hr
      · obtain ⟨row, hrow, rfl⟩ := mem_map.1 hr
        have hmem := (mem_filter.1 hrow).1
        have hzero : a.unrecorded row.monitorID = 0 := by
          apply hi.recorded
          rw [Table.get_of_mem hmem]
          rfl
        rw [hzero, Nat.add_zero]
        exact neverIssued_le _ _ _ hmem
      · cases hr
    · cases hr

theorem reach_system (ok : System → Int × Op → Prop) {ledger : LedgerTables}
    {inflight : CanaryInflight} {a : Audited}
    (h : Reach (Audited.step cfg) (fun a op => ok a.system op) (.start ledger inflight) a) :
    Reach (System.step cfg) ok (.start ledger inflight) a.system := by
  induction h with
  | init => exact .init
  | step _ hok hst ih =>
    simp only [Audited.step, Option.map_eq_some_iff] at hst
    obtain ⟨s', hst, rfl⟩ := hst
    exact .step ih hok hst

/-- **No run is counted as an absence** where a job without a window is published only for a monitor
that has no schedule. -/
theorem noFalseAbsence_of_reach {ledger : LedgerTables} {inflight : CanaryInflight} {a : Audited}
    (h : Reach (Audited.step cfg) (fun a op => publishesRecorded a.system op.2)
      (.start ledger inflight) a) : NoFalseAbsence a := by
  refine (h.invariant' (I := Audited.Inv) ⟨fun _ _ => rfl, fun r hr => (by cases hr)⟩ ?_).sound
  intro a op a' hr hi hok hst
  have hf := flows_of_reach (reach_system (fun s op => publishesRecorded s op.2) hr)
  exact hi.step hf hok hst

end

def oneTick (at' : Int) (loaded : Bool) : List (Int × Op) :=
  [(at', .tick), (at', .load loaded), (at', .decide ⟨4, noCanary⟩), (at', .reserve .ok 0),
    (at', .publish ⟨true, true⟩), (at', .finish true)]

/-- A monitor probed every minute: the first tick records its window, the second publishes without
loading it, the third records again. -/
def unloadedRun : List (Int × Op) :=
  [(0, everyMinute 1 .http false), (0, .refresh)] ++ oneTick 0 true ++
    oneTick (seconds 60) false ++ oneTick (seconds 130) true

/-- The run of the second tick is an absence to the third. -/
theorem unloadedRun_falseAbsence :
    let a := finalState (Audited.step runSettings) (.start ⟨.empty, .empty, .empty⟩ .empty)
      unloadedRun
    Reach (Audited.step runSettings) anyStep (.start ⟨.empty, .empty, .empty⟩ .empty) a ∧
      a.log.map (fun r => (r.due, r.absences, r.unrecorded,
        gridBefore r.due r.intervalInForce r.at')) = [(0, 0, 0, 0), (seconds 60, 1, 1, 1)] ∧
      ¬NoFalseAbsence a := by
  refine ⟨reach_finalState fun _ _ _ => trivial, by decide +kernel, ?_⟩
  unfold NoFalseAbsence
  decide +kernel

/-- A leader that is away for two minutes leaves one absence, and nothing ran in it. -/
def awayRun : List (Int × Op) :=
  [(0, everyMinute 1 .http false), (0, .refresh)] ++ oneTick 0 true ++
    [(seconds 50, .stepDown), (seconds 130, .refresh)] ++ oneTick (seconds 130) true

theorem awayRun_noFalseAbsence :
    let a := finalState (Audited.step runSettings) (.start ⟨.empty, .empty, .empty⟩ .empty) awayRun
    NoFalseAbsence a ∧ a.log.map (fun r => (r.due, r.absences, r.unrecorded)) =
      [(0, 0, 0), (seconds 60, 1, 0)] :=
  ⟨noFalseAbsence_of_reach (reach_of_allowedRun (by decide +kernel)), by decide +kernel⟩

end Cerbix.Scheduler
