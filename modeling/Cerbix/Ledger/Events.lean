import Cerbix.Ledger.Tables
import Cerbix.Lib.Timeline

/-!
# What happens to a window

The statements that fill a reserved window: the confirm of its publish, the executor's claim, the
terminal outcome and a refusal (`internal/store/expectedruns.go`). Each finds its row by the
window's key and touches it only for the job that reserved it.

A window whose job left late never reads `covered` exactly when no outcome is recorded ahead of the
confirm (`neverCovered_iff`): the confirm is the only writer of the issue instant, so one that is
overtaken or lost leaves nothing to measure lateness against.
-/

namespace Cerbix.Ledger

open Cerbix.Lib Cerbix.Domain List LedgerTables Prod ExpectedRun

/-! ## The statements -/

/-- `LEAST`, where NULL is no instant. -/
def earliest (a : Option Int) (b : Int) : Int := min (a.getD b) b

/-- A job was handed over, or why it was not. -/
inductive PublishOutcome
  | issued (at' : Int)
  | withheld (reason : WithheldReason)
  deriving DecidableEq, Repr

/-- One reserved window's outcome at the transport, named by its key and its identity. -/
structure ExpectationConfirm where
  monitorID : MonitorID
  dueAt : Int
  jobID : JobID
  outcome : PublishOutcome
  deriving DecidableEq, Repr

/-- The result of a job, as the ledger records it. -/
structure ExpectedRunTerminal where
  monitorID : MonitorID
  dueAt : Int
  jobID : JobID
  revision : Int
  terminalAt : Int
  issuedAt : Int
  outcome : ExpectedRunOutcome
  deriving DecidableEq, Repr

/-- What is reported about a window after it was reserved. -/
inductive RunEvent
  | confirm (c : ExpectationConfirm)
  | claim (monitorID : MonitorID) (dueAt : Int) (jobID : JobID) (revision : Int) (claimedAt : Int)
  | terminal (t : ExpectedRunTerminal)
  | refusal (monitorID : MonitorID) (dueAt : Int) (jobID : JobID) (revision : Int) (refusedAt : Int)
      (reason : ResultReason)
  deriving DecidableEq, Repr

/-- `expectedRunAdmissibleSQL`: the same run, or a window with no run that is no deliberate skip, of
the same generation. -/
def admissible (job : JobID) (revision : Int) (r : ExpectedRun) : Bool :=
  (r.jobID = some job || (r.jobID.isNone && r.skipReason.isNone)) && r.executionRevision = revision

variable (c : ExpectationConfirm)

/-- The row that a confirm fills in. -/
def confirms (r : ExpectedRun) : Bool :=
  r.key = (c.monitorID, c.dueAt) && r.jobID = some c.jobID && r.reservedAt.isSome &&
    r.issuedAt.isNone

def confirmRow (r : ExpectedRun) : ExpectedRun :=
  match c.outcome with
  | .issued publishedAt => { r with issuedAt := some publishedAt, withheldReason := none }
  | .withheld reason => { r with withheldReason := some reason }

/-- The first claim stays. -/
def claimRow (claimedAt : Int) (r : ExpectedRun) : ExpectedRun :=
  { r with claimedAt := some (earliest r.claimedAt claimedAt) }

/-- The conflict branch of `fillExpectedRunTerminalSQL`, which leaves the issue instant of a
reserved row to the confirm. -/
def fillRow (t : ExpectedRunTerminal) (r : ExpectedRun) : ExpectedRun :=
  { r with
    jobID := r.jobID.or (some t.jobID)
    carrierGeneration := if r.jobID.isNone then ledgerMinCarrier else r.carrierGeneration
    issuedAt := if r.reservedAt.isSome then r.issuedAt else r.issuedAt.or (some t.issuedAt)
    outcome :=
      if r.terminalAt.all fun at' => t.terminalAt < at' then some t.outcome else r.outcome
    terminalAt := some (earliest r.terminalAt t.terminalAt) }

/-- The first refusal stays, with its reason. -/
def refuseRow (refusedAt : Int) (reason : ResultReason) (r : ExpectedRun) : ExpectedRun :=
  { r with
    refusedReason := if r.refusedAt.all fun at' => refusedAt < at' then some reason
      else r.refusedReason
    refusedAt := some (earliest r.refusedAt refusedAt) }

theorem key_confirmRow (r : ExpectedRun) : (confirmRow c r).key = r.key := by
  unfold confirmRow
  split <;> rfl

theorem key_claimRow (claimedAt : Int) (r : ExpectedRun) : (claimRow claimedAt r).key = r.key := rfl

theorem key_fillRow (t : ExpectedRunTerminal) (r : ExpectedRun) : (fillRow t r).key = r.key := rfl

theorem key_refuseRow (refusedAt : Int) (reason : ResultReason) (r : ExpectedRun) :
    (refuseRow refusedAt reason r).key = r.key := rfl

/-- The shorter of the two intervals. -/
def assumedInterval (m : Monitor) : Int :=
  if m.confirmIntervalSeconds = 0 then m.intervalSeconds
  else min m.intervalSeconds m.confirmIntervalSeconds

/-- The row for a result whose window nobody reserved. The join with revisions is left out. -/
def orphan (m : Monitor) (t : ExpectedRunTerminal) : ExpectedRun :=
  { blank m.id t.dueAt t.revision m.region (assumedInterval m) with
    jobID := some t.jobID
    carrierGeneration := ledgerMinCarrier
    intervalAssumed := true
    issuedAt := some t.issuedAt
    terminalAt := some t.terminalAt
    outcome := some t.outcome }

namespace LedgerTables

variable (l : LedgerTables)

/-- `fillExpectedRunTerminalTx`. A window answered early may be filled but never invented. -/
def fillExpectedRunTerminal (t : ExpectedRunTerminal) : LedgerTables :=
  if t.revision < 1 then l
  else match l.monitors.get t.monitorID with
  | none => l
  | some m =>
    if !m.participant then l
    else match l.runs.get (t.monitorID, t.dueAt) with
    | none => if t.dueAt ≤ t.issuedAt then { l with runs := l.runs.insertNew (orphan m t) } else l
    | some _ =>
      { l with
        runs := l.runs.update
          (fun r => r.key = (t.monitorID, t.dueAt) && admissible t.jobID t.revision r) (fillRow t)
          (key_fillRow t) }

/-- One event at the ledger. -/
def event : RunEvent → LedgerTables
  | .confirm c => { l with runs := l.runs.update (confirms c) (confirmRow c) (key_confirmRow c) }
  | .claim monitorID dueAt jobID revision claimedAt => { l with
      runs := l.runs.update
        (fun r => r.key = (monitorID, dueAt) && admissible jobID revision r) (claimRow claimedAt)
        (key_claimRow claimedAt) }
  | .terminal t => l.fillExpectedRunTerminal t
  | .refusal monitorID dueAt jobID revision refusedAt reason =>
    if revision < 1 then l
    else { l with
      runs := l.runs.update (fun r => r.key = (monitorID, dueAt) && r.jobID = some jobID &&
          r.executionRevision = revision) (refuseRow refusedAt reason)
        (key_refuseRow refusedAt reason) }

def confirmExpectations (items : List ExpectationConfirm) : LedgerTables :=
  items.foldl (fun l c => l.event (.confirm c)) l

def events (es : List RunEvent) : LedgerTables := es.foldl event l

end LedgerTables

/-! ## One event of a reserved window -/

/-- The identity of a window and what it is judged against: no event changes these. -/
structure SameWindow (r r' : ExpectedRun) : Prop where
  key : r'.key = r.key
  jobID : r'.jobID = r.jobID
  carrier : r'.carrierGeneration = r.carrierGeneration
  revision : r'.executionRevision = r.executionRevision
  interval : r'.intervalSeconds = r.intervalSeconds
  reservedAt : r'.reservedAt = r.reservedAt

theorem SameWindow.refl (r : ExpectedRun) : SameWindow r r := ⟨rfl, rfl, rfl, rfl, rfl, rfl⟩

variable {r r' : ExpectedRun}

theorem SameWindow.trans {r'' : ExpectedRun} (h : SameWindow r r') (h' : SameWindow r' r'') :
    SameWindow r r'' where
  key := h'.key.trans h.key
  jobID := h'.jobID.trans h.jobID
  carrier := h'.carrier.trans h.carrier
  revision := h'.revision.trans h.revision
  interval := h'.interval.trans h.interval
  reservedAt := h'.reservedAt.trans h.reservedAt

theorem SameWindow.dueAt (h : SameWindow r r') : r'.dueAt = r.dueAt :=
  congrArg snd h.key

/-- The instant at which the window's job was handed over. -/
def RunEvent.publishes (r : ExpectedRun) : RunEvent → Option Int
  | .confirm ⟨monitorID, dueAt, jobID, .issued publishedAt⟩ =>
    if r.key = (monitorID, dueAt) ∧ r.jobID = some jobID then some publishedAt else none
  | _ => none

/-- The result of the window's own job. -/
def RunEvent.answers (l : LedgerTables) (r : ExpectedRun) : RunEvent → Bool
  | .terminal t => r.key = (t.monitorID, t.dueAt) && r.jobID = some t.jobID &&
      r.executionRevision = t.revision && t.revision ≥ 1 &&
      (l.monitors.get t.monitorID).any Monitor.participant
  | _ => false

/-- The row after an event. -/
def RunEvent.onRow (l : LedgerTables) (r : ExpectedRun) : RunEvent → ExpectedRun
  | .confirm c => if confirms c r then confirmRow c r else r
  | .claim monitorID dueAt jobID revision claimedAt =>
    if r.key = (monitorID, dueAt) && admissible jobID revision r then claimRow claimedAt r else r
  | .terminal t => if answers l r (.terminal t) then fillRow t r else r
  | .refusal monitorID dueAt jobID revision refusedAt reason =>
    if 1 ≤ revision && r.key = (monitorID, dueAt) && r.jobID = some jobID &&
        r.executionRevision = revision then refuseRow refusedAt reason r
    else r

theorem RunEvent.publishes_same (h : SameWindow r r') (e : RunEvent) :
    e.publishes r' = e.publishes r := by
  unfold publishes
  split
  · rw [h.key, h.jobID]
  · rfl

theorem RunEvent.answers_same {l l' : LedgerTables} (hl : l'.monitors = l.monitors)
    (h : SameWindow r r') (e : RunEvent) : e.answers l' r' = e.answers l r := by
  unfold answers
  split
  · rw [h.key, h.jobID, h.revision, hl]
  · rfl

/-- The window was reserved for the job. -/
structure Reserved (r : ExpectedRun) (job : JobID) : Prop where
  jobID : r.jobID = some job
  reserved : r.reservedAt.isSome

theorem Reserved.same {job : JobID} (h : Reserved r job) (hs : SameWindow r r') : Reserved r' job :=
  ⟨hs.jobID.trans h.jobID, hs.reservedAt.symm ▸ h.reserved⟩

/-- What one event does to a reserved row: the issue instant is the first confirmed one, and an
outcome is recorded exactly when the event answers the window. -/
structure Touched (l : LedgerTables) (e : RunEvent) (r r' : ExpectedRun) : Prop where
  same : SameWindow r r'
  issuedAt : r'.issuedAt = r.issuedAt.or (e.publishes r)
  terminalAt : r'.terminalAt.isSome = (r.terminalAt.isSome || e.answers l r)

section Event

variable {l : LedgerTables} {r : ExpectedRun} {job : JobID}

open RunEvent

open SameWindow

theorem touched_confirm (hr : Reserved r job) (c : ExpectationConfirm) :
    Touched l (.confirm c) r (if confirms c r then confirmRow c r else r) := by
  obtain ⟨monitorID, dueAt, jobID, outcome⟩ := c
  by_cases hc : confirms ⟨monitorID, dueAt, jobID, outcome⟩ r
  · have hmatch : r.key = (monitorID, dueAt) ∧ r.jobID = some jobID ∧ r.issuedAt = none := by
      simp only [confirms, Bool.and_eq_true, decide_eq_true_eq, Option.isNone_iff_eq_none] at hc
      exact ⟨hc.1.1.1, hc.1.1.2, hc.2⟩
    rw [if_pos hc]
    cases outcome with
    | issued at' =>
      refine ⟨⟨rfl, rfl, rfl, rfl, rfl, rfl⟩, ?_, by simp [confirmRow, answers]⟩
      simp [confirmRow, publishes, hmatch]
    | withheld reason =>
      exact ⟨⟨rfl, rfl, rfl, rfl, rfl, rfl⟩, by simp [confirmRow, publishes],
        by simp [confirmRow, answers]⟩
  · rw [if_neg hc]
    refine ⟨refl r, ?_, by simp [answers]⟩
    cases outcome with
    | withheld reason => simp [publishes]
    | issued at' =>
      -- a confirm of this very window that changes nothing found it confirmed already
      cases hi : r.issuedAt with
      | some x => simp
      | none =>
        have hne : ¬(r.key = (monitorID, dueAt) ∧ r.jobID = some jobID) := by
          rintro ⟨hk, hj⟩
          apply hc
          simp [confirms, hk, hj, hi, hr.reserved]
        rw [publishes, if_neg hne]
        rfl

theorem touched_keep (e : RunEvent) {r' : ExpectedRun} (hs : SameWindow r r')
    (hi : r'.issuedAt = r.issuedAt) (ht : r'.terminalAt = r.terminalAt)
    (hp : e.publishes r = none) (ha : e.answers l r = false) : Touched l e r r' :=
  ⟨hs, by rw [hi, hp, Option.or_none], by rw [ht, ha, Bool.or_false]⟩

theorem fill_matches (hr : Reserved r job) (t : ExpectedRunTerminal) :
    (decide (r.key = (t.monitorID, t.dueAt)) && admissible t.jobID t.revision r) =
      (decide (r.key = (t.monitorID, t.dueAt)) && decide (r.jobID = some t.jobID) &&
        decide (r.executionRevision = t.revision)) := by
  simp [admissible, hr.jobID, Bool.and_assoc]

theorem onRow_of_fills (hr : Reserved r job) (t : ExpectedRunTerminal)
    (hrev : ¬t.revision < 1) {m : Monitor} (hm : l.monitors.get t.monitorID = some m)
    (hpart : m.participant) : onRow l r (.terminal t) =
      if r.key = (t.monitorID, t.dueAt) && admissible t.jobID t.revision r then fillRow t r
        else r := by
  rw [fill_matches hr, onRow, answers, hm]
  simp [hpart, Int.not_lt.1 hrev]

theorem get_event (hr : Reserved r job) (hget : l.runs.get r.key = some r) (e : RunEvent) :
    (l.event e).runs.get r.key = some (e.onRow l r) := by
  cases e with
  | confirm c => exact Table.get_update_of_some (key_confirmRow c) hget
  | claim monitorID dueAt jobID revision claimedAt =>
    exact Table.get_update_of_some (key_claimRow claimedAt) hget
  | terminal t =>
    have hkeep (ha : answers l r (.terminal t) = false) :
        some r = some (onRow l r (.terminal t)) := by
      rw [onRow, ha]
      rfl
    simp only [event, fillExpectedRunTerminal]
    split
    · next hrev => exact hget.trans (hkeep (by simp [answers]; omega))
    · next hrev =>
      split
      · next hm => exact hget.trans (hkeep (by simp [answers, hm]))
      · next m hm =>
        split
        · next hpart =>
          have hpart' : m.participant = false := by simpa using hpart
          exact hget.trans (hkeep (by simp [answers, hm, hpart']))
        · next hpart =>
          have hpart' : m.participant = true := by simpa using hpart
          split
          · next hnone =>
            -- no row under the terminal's key, so this window is another one
            have hkey : r.key ≠ (t.monitorID, t.dueAt) := by
              intro h
              rw [h, hnone] at hget
              cases hget
            have ha := hkeep (by simp [answers, hkey])
            split
            · rw [Table.get_insertNew, hget, Option.some_or, ha]
            · exact hget.trans ha
          · rw [onRow_of_fills hr t hrev hm hpart']
            exact Table.get_update_of_some (key_fillRow t) hget
  | refusal monitorID dueAt jobID revision refusedAt reason =>
    simp only [event, onRow]
    split
    · next hrev => rw [hget, if_neg (by simp; omega)]
    · next hrev =>
      rw [Table.get_update_of_some (key_refuseRow refusedAt reason) hget]
      simp [Int.not_lt.1 hrev]

theorem touched_event (hr : Reserved r job) (e : RunEvent) : Touched l e r (e.onRow l r) := by
  cases e with
  | confirm c => exact touched_confirm hr c
  | claim monitorID dueAt jobID revision claimedAt =>
    simp only [onRow]
    split
    · exact touched_keep _ ⟨rfl, rfl, rfl, rfl, rfl, rfl⟩ rfl rfl rfl rfl
    · exact touched_keep _ (refl r) rfl rfl rfl rfl
  | terminal t =>
    simp only [onRow]
    split
    · next ha =>
      refine ⟨⟨rfl, ?_, ?_, rfl, rfl, rfl⟩, ?_, ?_⟩
      · simp [fillRow, hr.jobID]
      · simp [fillRow, hr.jobID]
      · simp [fillRow, hr.reserved, publishes]
      · rw [ha]
        simp [fillRow]
    · next ha =>
      exact touched_keep _ (refl r) rfl rfl rfl (Bool.eq_false_iff.2 ha)
  | refusal monitorID dueAt jobID revision refusedAt reason =>
    simp only [onRow]
    split
    · exact touched_keep _ ⟨rfl, rfl, rfl, rfl, rfl, rfl⟩ rfl rfl rfl rfl
    · exact touched_keep _ (refl r) rfl rfl rfl rfl

theorem monitors_event (l : LedgerTables) (e : RunEvent) : (l.event e).monitors = l.monitors := by
  cases e with
  | terminal t =>
    simp only [event, fillExpectedRunTerminal]
    split
    · rfl
    split
    · rfl
    · split
      · rfl
      · split
        · split <;> rfl
        · rfl
  | refusal =>
    simp only [event]
    split <;> rfl
  | _ => rfl

end Event

/-! ## Lateness -/

section

variable {l : LedgerTables} {r : ExpectedRun} {job : JobID}

theorem touched_events (es : List RunEvent) : ∀ {l : LedgerTables} {r : ExpectedRun},
    Reserved r job → l.runs.get r.key = some r → ∃ r', (l.events es).runs.get r.key = some r' ∧
      SameWindow r r' ∧ r'.issuedAt = r.issuedAt.or (es.findSome? (RunEvent.publishes r)) ∧
      r'.terminalAt.isSome = (r.terminalAt.isSome || es.any (RunEvent.answers l r)) := by
  induction es with
  | nil =>
    intro l r _ hget
    exact ⟨r, hget, SameWindow.refl r, by simp, by simp⟩
  | cons e es ih =>
    intro l r hr hget
    have htouched := touched_event (l := l) hr e
    obtain ⟨r₂, hget₂, hsame, hissued, hterminal⟩ :=
      ih (hr.same htouched.same) (htouched.same.key ▸ get_event hr hget e)
    have hpub : RunEvent.publishes (e.onRow l r) = RunEvent.publishes r :=
      funext fun e => RunEvent.publishes_same htouched.same e
    have hans : RunEvent.answers (l.event e) (e.onRow l r) = RunEvent.answers l r :=
      funext fun e' => RunEvent.answers_same (monitors_event l e) htouched.same e'
    rw [htouched.same.key] at hget₂
    refine ⟨r₂, hget₂, htouched.same.trans hsame, ?_, ?_⟩
    · rw [hissued, htouched.issuedAt, hpub, findSome?_cons, Option.or_assoc]
      cases e.publishes r <;> rfl
    · rw [hterminal, htouched.terminalAt, hans, any_cons, Bool.or_assoc]

/-- Nothing was reported about the window. -/
structure Fresh (r : ExpectedRun) (job : JobID) : Prop extends Reserved r job where
  issuedAt : r.issuedAt = none
  terminalAt : r.terminalAt = none

theorem fresh_currentWindow (s : ScheduleRow) {v : Advance} {carrier reservedAt : Int}
    (h : v.action = .run job carrier reservedAt) : Fresh (currentWindow s v) job := by
  unfold currentWindow
  rw [h]
  exact ⟨⟨rfl, rfl⟩, rfl, rfl⟩

/-- The window of a job that left after `due_at + interval_seconds` reads `covered` exactly when its
outcome is recorded and its publish is not. -/
theorem verdict_events_iff (hfresh : Fresh r job) (hget : l.runs.get r.key = some r)
    (hcarrier : ledgerMinCarrier ≤ r.carrierGeneration) {handedAt : Int}
    (hlate : r.dueAt + seconds r.intervalSeconds < handedAt) {es : List RunEvent}
    (hes : ∀ e ∈ es, ∀ publishedAt, e.publishes r = some publishedAt → handedAt ≤ publishedAt) :
    (∃ r', (l.events es).runs.get r.key = some r' ∧ r'.verdict = .covered) ↔
      (∃ e ∈ es, e.answers l r) ∧ ∀ e ∈ es, e.publishes r = none := by
  obtain ⟨r', hget', hsame, hissued, hterminal⟩ := touched_events es hfresh.toReserved hget
  rw [hfresh.issuedAt] at hissued
  rw [hfresh.terminalAt, Option.isSome_none, Bool.false_or] at hterminal
  have hverdict : r'.verdict = .covered ↔
      (∃ e ∈ es, e.answers l r) ∧ ∀ e ∈ es, e.publishes r = none := by
    rw [verdict_eq_covered_iff, hterminal, any_eq_true, hissued, hsame.carrier]
    constructor
    · rintro ⟨-, hans, hearly⟩
      refine ⟨hans, findSome?_eq_none_iff.1 ?_⟩
      cases hf : es.findSome? (RunEvent.publishes r) with
      | none => rfl
      | some publishedAt =>
        obtain ⟨e, he, hpub⟩ := exists_of_findSome?_eq_some hf
        have hle := hes e he publishedAt hpub
        have := hearly publishedAt hf
        rw [late, hsame.dueAt, hsame.interval, decide_eq_false_iff_not] at this
        omega
    · rintro ⟨hans, hnone⟩
      refine ⟨fun _ => hcarrier, hans, ?_⟩
      rw [findSome?_eq_none_iff.2 hnone]
      simp
  constructor
  · rintro ⟨r'', hr'', hv⟩
    cases hget'.symm.trans hr''
    exact hverdict.1 hv
  · intro h
    exact ⟨r', hget', hverdict.2 h⟩

theorem verdict_events_of_low_carrier (hfresh : Fresh r job) (hget : l.runs.get r.key = some r)
    (hcarrier : r.carrierGeneration < ledgerMinCarrier) (es : List RunEvent) :
    ∀ r', (l.events es).runs.get r.key = some r' → r'.verdict = .unknown := by
  intro r' hr'
  obtain ⟨r'', hget', hsame, -⟩ := touched_events es hfresh.toReserved hget
  cases hget'.symm.trans hr'
  unfold verdict
  rw [hsame.jobID, hfresh.jobID, hsame.carrier, if_pos (by simpa using hcarrier)]

/-- **When lateness is never understated.** A window whose job left late never reads `covered`
exactly when its carrier carries no identity, or no outcome is recorded before the publish is. -/
theorem neverCovered_iff {s : ScheduleRow} {v : Advance} {carrier reservedAt : Int}
    (hv : v.action = .run job carrier reservedAt)
    (hget : l.runs.get (s.monitorID, s.nextDueAt) = some (currentWindow s v))
    {handedAt : Int} (hlate : s.nextDueAt + seconds s.intervalInForce < handedAt)
    {es : List RunEvent} (hes : ∀ e ∈ es, ∀ publishedAt,
      e.publishes (currentWindow s v) = some publishedAt → handedAt ≤ publishedAt) :
    (∀ before after, es = before ++ after → ∀ r,
        (l.events before).runs.get (s.monitorID, s.nextDueAt) = some r → r.verdict ≠ .covered) ↔
      carrier < ledgerMinCarrier ∨ ∀ before e after, es = before ++ e :: after →
          e.answers l (currentWindow s v) →
          ∃ c ∈ before, (c.publishes (currentWindow s v)).isSome := by
  let w := currentWindow s v
  have hkey : w.key = (s.monitorID, s.nextDueAt) := key_currentWindow s v
  have hfresh : Fresh w job := fresh_currentWindow s hv
  have hw : w.carrierGeneration = carrier ∧ w.dueAt = s.nextDueAt ∧
      w.intervalSeconds = s.intervalInForce := by
    simp only [w, currentWindow, hv, blank, and_self]
  have hlate' : w.dueAt + seconds w.intervalSeconds < handedAt := by
    rw [hw.2.1, hw.2.2]
    exact hlate
  rw [← hkey] at hget ⊢
  rcases lt_or_ge carrier ledgerMinCarrier with hlow | hhigh
  · refine iff_of_true ?_ (.inl hlow)
    intro before after _ r hr hcov
    rw [verdict_events_of_low_carrier hfresh hget (hw.1.symm ▸ hlow) before r hr] at hcov
    cases hcov
  · have hiff : ∀ before after, es = before ++ after →
        ((∃ r, (l.events before).runs.get w.key = some r ∧ r.verdict = .covered) ↔
          (∃ e ∈ before, e.answers l w) ∧ ∀ e ∈ before, e.publishes w = none) := by
      rintro before after rfl
      exact verdict_events_iff hfresh hget (hw.1.symm ▸ hhigh) hlate'
        fun e he => hes e (mem_append_left _ he)
    constructor
    · intro hnever
      refine .inr fun before e after hsplit hans => ?_
      by_contra hnone
      have hnone' : ∀ c ∈ before, c.publishes w = none := by
        intro c hc
        by_contra hne
        exact hnone ⟨c, hc, Option.isSome_iff_ne_none.2 hne⟩
      have hsplit' : es = (before ++ [e]) ++ after := by rw [hsplit, append_assoc]; rfl
      have he : e.publishes w = none := by
        cases e <;> first | rfl | cases hans
      obtain ⟨r, hr, hcov⟩ := (hiff _ _ hsplit').2 ⟨⟨e, by simp, hans⟩, fun c hc => by
          rcases mem_append.1 hc with hc | hc
          · exact hnone' c hc
          · rw [mem_singleton.1 hc, he]⟩
      exact hnever _ _ hsplit' r hr hcov
    · rintro (hlow | hconfirmed)
      · omega
      intro before after hsplit r hr hcov
      obtain ⟨⟨e, he, hans⟩, hnone⟩ := (hiff before after hsplit).1 ⟨r, hr, hcov⟩
      obtain ⟨pre, post, rfl⟩ := append_of_mem he
      obtain ⟨c, hc, hpub⟩ := hconfirmed pre e (post ++ after) (by simpa using hsplit) hans
      rw [hnone c (mem_append_left _ hc)] at hpub
      cases hpub

end

def dueAtOnce : ScheduleRow := ⟨1, 0, 60, false, 1, 0, none, by decide⟩

def lateAdvance : Advance :=
  ⟨1, .run 10 4 (seconds 200), false, seconds 260, 60, 0, 1, 1, by decide⟩

def lateTables : LedgerTables :=
  let policy := withExpectedRunPolicy 14 10000
  let none : LedgerTables := ⟨.empty, .empty, .empty⟩
  let created := none.configWrite policy 0 (.create 1 .http ⟨true, 1, 60, 10, 0, 0, 1, false⟩)
  (created.getD none).reserve policy (seconds 200) 0 [lateAdvance]

/-- The job's publish returned at 200 s, and its confirm. -/
def lateConfirm : RunEvent := .confirm ⟨1, 0, 10, .issued (seconds 200)⟩

def lateResult : RunEvent :=
  .terminal ⟨1, 0, 10, 1, seconds 201, seconds 200, .result⟩

/-- The confirm is lost: the run left 140 s late and its window reads `covered`. -/
theorem lostConfirm_reads_covered :
    lateTables.runs.get (1, 0) = some (currentWindow dueAtOnce lateAdvance) ∧
      dueAtOnce.nextDueAt + seconds dueAtOnce.intervalInForce < seconds 200 ∧
      ((lateTables.events [lateResult]).runs.get (1, 0)).map verdict = some .covered := by
  decide

/-- With the confirm in front of the result the same window reads `covered_late`. -/
theorem confirmedLate_neverCovered :
    ((lateTables.events [lateConfirm, lateResult]).runs.get (1, 0)).map verdict =
        some .coveredLate ∧
      ∀ before after, [lateConfirm, lateResult] = before ++ after → ∀ r,
        (lateTables.events before).runs.get (1, 0) = some r → r.verdict ≠ .covered := by
  have hget : lateTables.runs.get (dueAtOnce.monitorID, dueAtOnce.nextDueAt) =
      some (currentWindow dueAtOnce lateAdvance) := by decide
  have hlate : dueAtOnce.nextDueAt + seconds dueAtOnce.intervalInForce < seconds 200 := by decide
  refine ⟨by decide, (neverCovered_iff rfl hget hlate ?_).2 (.inr ?_)⟩
  · intro e he publishedAt hpub
    rcases mem_pair.1 he with rfl | rfl
    · cases hpub
      exact le_rfl
    · cases hpub
  · intro before e after hsplit hans
    cases before with
    | nil =>
      obtain ⟨rfl, -⟩ := cons.inj hsplit
      cases hans
    | cons c before =>
      obtain ⟨rfl, -⟩ := cons.inj hsplit
      exact ⟨lateConfirm, mem_cons_self, rfl⟩

/-! ## The events of a window merge -/

/-- The event is of the window's own job and revision; a confirm names no revision. -/
def RunEvent.names (w : ExpectedRun) : RunEvent → Bool
  | .confirm c => w.key = (c.monitorID, c.dueAt) && w.jobID = some c.jobID
  | .claim monitorID dueAt jobID revision _ | .refusal monitorID dueAt jobID revision _ _
  | .terminal ⟨monitorID, dueAt, jobID, revision, _, _, _⟩ =>
    w.key = (monitorID, dueAt) && w.jobID = some jobID && w.executionRevision = revision

@[simp] def RunEvent.outcome? : RunEvent → Option PublishOutcome
  | .confirm c => some c.outcome
  | _ => none

@[simp] def RunEvent.claim? : RunEvent → Option Int
  | .claim _ _ _ _ claimedAt => some claimedAt
  | _ => none

@[simp] def RunEvent.terminal? : RunEvent → Option (Int × ExpectedRunOutcome)
  | .terminal t => some (t.terminalAt, t.outcome)
  | _ => none

@[simp] def RunEvent.refusal? : RunEvent → Option (Int × ResultReason)
  | .refusal _ _ _ _ refusedAt reason => some (refusedAt, reason)
  | _ => none

@[simp] def PublishOutcome.issuedAt? : PublishOutcome → Option Int
  | .issued publishedAt => some publishedAt
  | .withheld _ => none

@[simp] def PublishOutcome.withheldReason? : PublishOutcome → Option WithheldReason
  | .issued _ => none
  | .withheld reason => some reason

/-- What a list of events makes of a window. -/
def merged (w : ExpectedRun) (mine : List RunEvent) : ExpectedRun :=
  let outcome := mine.findSome? RunEvent.outcome?
  let terminal := firstBy (earlier fst) (mine.filterMap RunEvent.terminal?)
  let refusal := firstBy (earlier fst) (mine.filterMap RunEvent.refusal?)
  { w with
    issuedAt := outcome.bind PublishOutcome.issuedAt?
    withheldReason := outcome.bind PublishOutcome.withheldReason?
    claimedAt := firstBy (earlier id) (mine.filterMap RunEvent.claim?)
    terminalAt := terminal.map fst
    outcome := terminal.map snd
    refusedAt := refusal.map fst
    refusedReason := refusal.map snd }

section Merge

variable {l : LedgerTables} {w : ExpectedRun} {job : JobID} {mine es : List RunEvent}

theorem pick_id (best : Option Int) (x : Int) :
    pick (earlier id) best x = some (earliest best x) := by
  cases best with
  | none => simp [pick, earliest]
  | some y =>
    simp only [pick, earlier, earliest, id, Option.getD_some, decide_eq_true_eq]
    split <;> congr 1 <;> omega

variable {β : Type*} {e : RunEvent} {o : PublishOutcome} {mine' : List RunEvent}

theorem pick_pair (best : Option (Int × β)) (t : Int) (a : β) :
    (pick (earlier fst) best (t, a)).map fst = some (earliest (best.map fst) t) ∧
    (pick (earlier fst) best (t, a)).map snd =
      if (best.map fst).all fun at' => t < at' then some a else best.map snd := by
  cases best with
  | none => simp [pick, earliest]
  | some y =>
    simp only [pick, earlier, earliest, Option.map_some, Option.all_some, decide_eq_true_eq]
    split
    · simp
      omega
    · simp
      omega

/-- One more event that names the window. -/
theorem onRow_merged (hw : Reserved w job) (hrev : 1 ≤ w.executionRevision)
    (hpart : (l.monitors.get w.monitorID).any Monitor.participant) (hnames : e.names w)
    (hone : ∀ o ∈ mine.findSome? RunEvent.outcome?, ∀ o' ∈ e.outcome?, o' = o) :
    e.onRow l (merged w mine) = merged w (mine ++ [e]) := by
  have hkey : (merged w mine).key = w.key := rfl
  have hjob : (merged w mine).jobID = w.jobID := rfl
  have hrevision : (merged w mine).executionRevision = w.executionRevision := rfl
  have hreserved : (merged w mine).reservedAt = w.reservedAt := rfl
  cases e with
  | confirm c =>
    simp only [RunEvent.names] at hnames
    have hconfirms : confirms c (merged w mine) = (merged w mine).issuedAt.isNone := by
      simp [confirms, hkey, hjob, hreserved, hnames, hw.reserved]
    rw [RunEvent.onRow, hconfirms]
    cases ho : mine.findSome? RunEvent.outcome? with
    | none =>
      cases hc : c.outcome <;>
        simp [merged, ho, hc, confirmRow, filterMap_cons]
    | some o =>
      -- a second confirm is the first one again
      obtain rfl := hone o ho c.outcome rfl
      cases hc : c.outcome <;>
        simp [merged, ho, hc, confirmRow, filterMap_cons]
  | claim monitorID dueAt jobID revision claimedAt =>
    simp only [RunEvent.names, Bool.and_eq_true] at hnames
    rw [RunEvent.onRow, if_pos (by simp [hkey, hjob, hrevision, admissible, hnames])]
    simp [merged, claimRow, filterMap_cons, firstBy_concat, pick_id]
  | terminal t =>
    simp only [RunEvent.names, Bool.and_eq_true, decide_eq_true_eq] at hnames
    have hmonitor : w.monitorID = t.monitorID := congrArg fst hnames.1.1
    have hpick := pick_pair (firstBy (earlier fst) (mine.filterMap RunEvent.terminal?))
      t.terminalAt t.outcome
    rw [hmonitor] at hpart
    rw [hnames.2] at hrev
    rw [RunEvent.onRow, if_pos (by simp [RunEvent.answers, hkey, hjob, hrevision, hnames,
      hpart, hrev])]
    simp [merged, fillRow, filterMap_cons, firstBy_concat, hpick, hw.jobID, hw.reserved]
  | refusal monitorID dueAt jobID revision refusedAt reason =>
    simp only [RunEvent.names, Bool.and_eq_true, decide_eq_true_eq] at hnames
    have hpick := pick_pair (firstBy (earlier fst) (mine.filterMap RunEvent.refusal?))
      refusedAt reason
    rw [hnames.2] at hrev
    rw [RunEvent.onRow, if_pos (by simp [hkey, hjob, hrevision, hnames, hrev])]
    simp [merged, filterMap_cons, firstBy_concat, hpick]
    rfl

theorem onRow_of_not_names (hw : Reserved w job) (h : ¬e.names w) : e.onRow l w = w := by
  cases e with
  | confirm c =>
    refine if_neg fun hc => h ?_
    simp only [confirms, Bool.and_eq_true] at hc
    simp [RunEvent.names, hc.1.1.1, hc.1.1.2]
  | claim monitorID dueAt jobID revision claimedAt =>
    refine if_neg fun hc => h ?_
    simpa [RunEvent.names, admissible, hw.jobID, and_assoc] using hc
  | terminal t =>
    refine if_neg fun hc => h ?_
    simp only [RunEvent.answers, Bool.and_eq_true] at hc
    simp [RunEvent.names, hc.1.1]
  | refusal monitorID dueAt jobID revision refusedAt reason =>
    refine if_neg fun hc => h ?_
    simp only [Bool.and_eq_true] at hc
    simp [RunEvent.names, hc.1.1.2, hc.1.2, hc.2]

theorem events_concat (l : LedgerTables) (es : List RunEvent) (e : RunEvent) :
    l.events (es ++ [e]) = (l.events es).event e := foldl_concat ..

theorem monitors_events (l : LedgerTables) (es : List RunEvent) :
    (l.events es).monitors = l.monitors := by
  induction es using reverseRecOn with
  | nil => rfl
  | append_singleton es e ih => rw [events_concat, monitors_event, ih]

/-- The row depends on the events that name the window. -/
theorem get_events_merged (hw : Reserved w job) (hnil : merged w [] = w)
    (hrev : 1 ≤ w.executionRevision) (hpart : (l.monitors.get w.monitorID).any Monitor.participant)
    (hget : l.runs.get w.key = some w) (hone : ∀ e ∈ es, e.names w → ∀ o' ∈ e.outcome?, o' = o) :
    (l.events es).runs.get w.key = some (merged w (es.filter (·.names w))) := by
  induction es using reverseRecOn with
  | nil => exact hget.trans (congrArg some hnil.symm)
  | append_singleton es e ih =>
    have hrow := ih fun e he => hone e (mem_append_left _ he)
    have hreserved : Reserved (merged w (es.filter (·.names w))) job := ⟨hw.jobID, hw.reserved⟩
    have hnames : e.names (merged w (es.filter (·.names w))) = e.names w := by cases e <;> rfl
    rw [events_concat, filter_append]
    refine (get_event hreserved hrow e).trans (congrArg some ?_)
    by_cases he : e.names w
    · rw [onRow_merged hw hrev (monitors_events l es ▸ hpart) he, filter_singleton, he]
      · rfl
      · intro o₁ ho₁ o₂ ho₂
        obtain ⟨e₁, he₁, ho₁⟩ := exists_of_findSome?_eq_some ho₁
        obtain ⟨hmem, hn⟩ := mem_filter.1 he₁
        rw [hone e (by simp) he o₂ ho₂, hone e₁ (by simp [hmem]) hn o₁ ho₁]
    · rw [onRow_of_not_names hreserved (hnames ▸ he)]
      simp [he]

/-- Distinct events of a kind have different instants. -/
def InstantsApart {β : Type*} (f : RunEvent → Option (Int × β)) (es : List RunEvent) : Prop :=
  ∀ e ∈ es, ∀ e' ∈ es, ∀ x ∈ f e, ∀ x' ∈ f e', x.1 = x'.1 → e = e'

theorem InstantsApart.firstBy_congr {f : RunEvent → Option (Int × β)}
    (hapart : InstantsApart f es) (hmine : ∀ e ∈ mine, e ∈ es) (h : ∀ e, e ∈ mine' ↔ e ∈ mine) :
    firstBy (earlier fst) (mine'.filterMap f) = firstBy (earlier fst) (mine.filterMap f) := by
  refine firstBy_earlier_congr (fun x hx y hy hxy => ?_) fun x => by simp [h]
  obtain ⟨e, he, hex⟩ := mem_filterMap.1 hx
  obtain ⟨e', he', hey⟩ := mem_filterMap.1 hy
  obtain rfl := hapart e (hmine e he) e' (hmine e' he') x hex y hey hxy
  exact Option.some.inj (hex.symm.trans hey)

theorem findSome?_congr
    (hone : ∀ e ∈ mine, ∀ o' ∈ e.outcome?, o' = o) (h : ∀ e, e ∈ mine' ↔ e ∈ mine) :
    mine'.findSome? RunEvent.outcome? = mine.findSome? RunEvent.outcome? := by
  cases ho : mine.findSome? RunEvent.outcome? with
  | none =>
    rw [findSome?_eq_none_iff] at ho ⊢
    exact fun e he => ho e ((h e).1 he)
  | some o₁ =>
    obtain ⟨e, he, he₁⟩ := exists_of_findSome?_eq_some ho
    cases ho' : mine'.findSome? RunEvent.outcome? with
    | none => rw [findSome?_eq_none_iff.1 ho' e ((h e).2 he)] at he₁; cases he₁
    | some o₂ =>
      obtain ⟨e', he', he₂⟩ := exists_of_findSome?_eq_some ho'
      rw [hone e he o₁ he₁, hone e' ((h e').1 he') o₂ he₂]

theorem event_terminal_of_idle {t : ExpectedRunTerminal}
    (h : (l.monitors.get t.monitorID).any Monitor.participant = false) :
    l.event (.terminal t) = l := by
  simp only [event, fillExpectedRunTerminal]
  split
  · rfl
  split
  · rfl
  next m hm =>
  rw [hm, Option.any_some] at h
  rw [h]
  rfl

/-- **The events of a window merge.** While its monitor participates, the row depends only on which
events name its job and revision: each instant is the earliest of its kind, and outcome and refusal
reason go with it. While it does not, a terminal changes nothing. -/
theorem events_merge {s : ScheduleRow} {v : Advance} {carrier reservedAt : Int}
    (hv : v.action = .run job carrier reservedAt) (hrev : 1 ≤ v.expectedRevision)
    (hget : l.runs.get (s.monitorID, s.nextDueAt) = some (currentWindow s v)) {o : PublishOutcome}
    (hw : w = currentWindow s v) (hone : ∀ e ∈ es, e.names w → ∀ o' ∈ e.outcome?, o' = o)
    (hterminals : InstantsApart RunEvent.terminal? es)
    (hrefusals : InstantsApart RunEvent.refusal? es) :
    ((l.monitors.get s.monitorID).any Monitor.participant →
      ∃ row, (∀ es', (∀ e, e.names w → (e ∈ es' ↔ e ∈ es)) →
          (l.events es').runs.get (s.monitorID, s.nextDueAt) = some row) ∧
        Earliest id ((es.filter (·.names w)).filterMap RunEvent.claim?) row.claimedAt ∧
        (∃ t, Earliest fst ((es.filter (·.names w)).filterMap RunEvent.terminal?) t ∧
          row.terminalAt = t.map fst ∧ row.outcome = t.map snd) ∧
        ∃ t, Earliest fst ((es.filter (·.names w)).filterMap RunEvent.refusal?) t ∧
          row.refusedAt = t.map fst ∧ row.refusedReason = t.map snd) ∧
    ((l.monitors.get s.monitorID).any Monitor.participant = false →
      ∀ es' t, t.monitorID = s.monitorID → l.events (es' ++ [.terminal t]) = l.events es') := by
  have hfields : merged w [] = w ∧ w.executionRevision = v.expectedRevision ∧
      w.monitorID = s.monitorID := by
    rw [hw, currentWindow, hv]
    exact ⟨rfl, rfl, rfl⟩
  have hreserved : Reserved w job := hw ▸ (fresh_currentWindow s hv).toReserved
  have hkey : w.key = (s.monitorID, s.nextDueAt) := hw ▸ key_currentWindow s v
  refine ⟨fun hpart => ?_, fun hidle es' t ht => ?_⟩
  swap
  · rw [events_concat]
    exact event_terminal_of_idle (by rw [monitors_events, ht]; exact hidle)
  refine ⟨merged w (es.filter (·.names w)), fun es' h => ?_, earliest_firstBy _ _,
    ⟨_, earliest_firstBy _ _, rfl, rfl⟩, ⟨_, earliest_firstBy _ _, rfl, rfl⟩⟩
  have hmine : ∀ e, e ∈ es'.filter (·.names w) ↔ e ∈ es.filter (·.names w) := by
    intro e
    rw [mem_filter, mem_filter]
    exact and_congr_left fun he => h e he
  have hrow : (l.events es').runs.get w.key = some (merged w (es'.filter (·.names w))) :=
    get_events_merged hreserved hfields.1 (hfields.2.1 ▸ hrev) (hfields.2.2 ▸ hpart)
      (hkey ▸ hw ▸ hget) fun e he hn => hone e ((h e hn).1 he) hn
  have hclaims : firstBy (earlier id) ((es'.filter (·.names w)).filterMap RunEvent.claim?) =
      firstBy (earlier id) ((es.filter (·.names w)).filterMap RunEvent.claim?) :=
    firstBy_earlier_congr (fun x _ y _ h => h) fun x => by simp only [mem_filterMap, hmine]
  rw [← hkey, hrow, merged, merged, hclaims,
    hterminals.firstBy_congr (fun e => mem_of_mem_filter) hmine,
    hrefusals.firstBy_congr (fun e => mem_of_mem_filter) hmine,
    findSome?_congr (fun e he => hone e (mem_filter.1 he).1 (mem_filter.1 he).2) hmine]

/-- The monitor is disabled after the reserve. -/
def disabledTables : LedgerTables :=
  (lateTables.configWrite (withExpectedRunPolicy 14 10000) (seconds 201)
    (.update 1 ⟨false, 1, 60, 10, 0, 0, 1, false⟩)).getD lateTables

/-- A terminal that names the window's job and revision changes nothing. -/
theorem terminal_of_disabled :
    disabledTables.runs.get (1, 0) = some (currentWindow dueAtOnce lateAdvance) ∧
      lateResult.names (currentWindow dueAtOnce lateAdvance) ∧
      (disabledTables.events [lateResult]).runs.get (1, 0) =
        some (currentWindow dueAtOnce lateAdvance) := by
  decide

/-- The result comes first, the confirm after it, and the result again. -/
theorem events_merge_replayed :
    ∃ row, (lateTables.events [lateResult, lateConfirm, lateResult]).runs.get (1, 0) = some row ∧
      (lateTables.events [lateConfirm, lateResult]).runs.get (1, 0) = some row ∧
      row.outcome = some .result := by
  have hapart {β : Type} {f : RunEvent → Option (Int × β)} (hf : f lateConfirm = none) :
      InstantsApart f [lateConfirm, lateResult] := by
    intro e he e' he' x hx x' hx' _
    simp only [mem_cons, not_mem_nil, or_false] at he he'
    rcases he with rfl | rfl <;> rcases he' with rfl | rfl <;> simp_all
  obtain ⟨row, hrow, -⟩ := (@events_merge lateTables _ 10 [lateConfirm, lateResult] dueAtOnce
    lateAdvance 4 (seconds 200) rfl (by decide) (by decide) (.issued (seconds 200)) rfl
    (by decide) (hapart rfl) (hapart rfl)).1 (by decide)
  have hreplayed := hrow [lateResult, lateConfirm, lateResult] fun e _ => by simp; tauto
  refine ⟨row, hreplayed, hrow _ fun e _ => Iff.rfl, ?_⟩
  have houtcome : ((lateTables.events [lateResult, lateConfirm, lateResult]).runs.get (1, 0)).bind
    outcome = some .result := by decide
  rwa [show (1, 0) = (dueAtOnce.monitorID, dueAtOnce.nextDueAt) from rfl, hreplayed] at houtcome

end Merge

end Cerbix.Ledger
