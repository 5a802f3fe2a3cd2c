import Cerbix.Domain.Incident
import Cerbix.Lib.Run
import Cerbix.Results.Record

/-!
# Auto-incidents after a transition

`internal/ingest/reconciler.go`: a result that changes a monitor's status is committed first; then
the process that recorded it opens or resolves the auto-incident, without reading the status again.
A reconcile is a look for the open incident and a write, and those of different transitions
interleave freely. In the order of the transitions the incident follows the status
(`autoIncident_follows`); otherwise it need not (`autoIncident_left_open`).
-/

namespace Cerbix.Ingest

open Cerbix.Lib Cerbix.Domain Cerbix.Results List

/-- An incident that a monitor opened. -/
structure AutoIncident where
  id : Nat
  title : String
  status : IncidentStatus
  deriving DecidableEq, Repr

/-- An entry in its timeline. -/
structure IncidentEntry where
  incident : Nat
  status : IncidentStatus
  body : String
  author : String
  deriving DecidableEq, Repr

/-- How far a reconciliation is. -/
inductive Stage
  | start
  | opening
  | resolving (incident : Nat)
  deriving DecidableEq, Repr

/-- A reconcile that has not ended, of an applied transition. -/
structure Reconcile where
  msg : String
  prev : MonitorStatus
  cur : MonitorStatus
  suppressed : Bool
  stage : Stage
  deriving DecidableEq, Repr

/-- Whether a monitor opens incidents. -/
structure MonitorPolicy where
  name : String
  autoIncident : Bool
  deriving DecidableEq, Repr

/-- The results, the incidents, and the reconciliations on their way. -/
structure IngestStore where
  tables : ResultTables
  incidents : Table AutoIncident.id
  entries : List IncidentEntry
  reconciles : List Reconcile

def IngestStore.status (st : IngestStore) : MonitorStatus := st.tables.row.monitor.status

def autoIncidentAuthor : String := "auto"

/-! ## One reconcile -/

section

variable (mon : MonitorPolicy)

def AutoIncident.isOpen (i : AutoIncident) : Bool := i.status ≠ .resolved

/-- The newest open incident. -/
def findOpenAutoIncident (incidents : Table AutoIncident.id) : Option AutoIncident :=
  incidents.rows.reverse.find? AutoIncident.isOpen

/-- The read of a reconciliation, which decides what it will do. -/
def look (incidents : Table AutoIncident.id) (r : Reconcile) : Option Reconcile :=
  if r.cur = .down ∧ r.prev ≠ .down then
    -- opening is opt-out and is suppressed in maintenance, resolving is not
    if mon.autoIncident && !r.suppressed then
      match findOpenAutoIncident incidents with
      | some _ => none
      | none => some { r with stage := .opening }
    else none
  else if r.cur = .up ∧ r.prev ≠ .up then
    match findOpenAutoIncident incidents with
    | some i => some { r with stage := .resolving i.id }
    | none => none
  else none

def openingBody (msg : String) : String :=
  if msg ≠ "" then "Automatically opened: " ++ msg
  else "Automatically opened: the monitor is failing its checks."

variable (st : IngestStore)

/-- `CreateIncidentBySystem`: refused by the unique index while another one is open. -/
def createAutoIncident (r : Reconcile) (newID : Nat) : IngestStore :=
  if st.incidents.rows.any AutoIncident.isOpen then st
  else
    { st with
      incidents := st.incidents.insertNew ⟨newID, mon.name ++ " is down", .investigating⟩
      entries := st.entries ++ [⟨newID, .investigating, openingBody r.msg, autoIncidentAuthor⟩] }

/-- Resolve it with an entry. -/
def resolveAutoIncident (id : Nat) : IngestStore :=
  match st.incidents.get id with
  | none => st
  | some i =>
    match nextStatus (some .resolved) i.status with
    | .error _ => st
    | .ok next =>
      { st with
        incidents := st.incidents.update (fun j => j.id = id) (fun j => { j with status := next })
          fun _ => rfl
        entries := st.entries ++
          [⟨id, next, "Monitor recovered — automatically resolved.", autoIncidentAuthor⟩] }

/-- What happens to a monitor and its incidents. -/
inductive IngestOp
  | result (up : Bool) (msg : String) (inMaintenance : Bool)
  | look (k : Nat)
  | write (k : Nat) (newID : Nat)
  | fail (k : Nat)
  deriving DecidableEq, Repr

def applyResult (up : Bool) (msg : String) (inMaintenance : Bool) : IngestStore :=
  let tables := st.tables.recordCheckStatus up
  let prev := st.tables.row.monitor.status
  let cur := tables.row.monitor.status
  { st with
    tables := tables
    reconciles := st.reconciles ++
      if prev ≠ cur then [⟨msg, prev, cur, inMaintenance, .start⟩] else [] }

/-- A result, or a statement of a reconciliation. -/
def ingestStep : IngestOp → Option IngestStore
  | .result up msg inMaintenance => some (applyResult st up msg inMaintenance)
  | .look k =>
    match st.reconciles[k]? with
    | some r =>
      if r.stage = .start then
        match look mon st.incidents r with
        | some r' => some { st with reconciles := st.reconciles.set k r' }
        | none => some { st with reconciles := st.reconciles.eraseIdx k }
      else none
    | none => none
  | .write k newID =>
    match st.reconciles[k]? with
    | some r =>
      let ended := { st with reconciles := st.reconciles.eraseIdx k }
      match r.stage with
      | .start => none
      | .opening =>
        if (st.incidents.get newID).isSome then none
        else some (createAutoIncident mon ended r newID)
      | .resolving id => some (resolveAutoIncident ended id)
    | none => none
  | .fail k => some { st with reconciles := st.reconciles.eraseIdx k }

def freshStore (tables : ResultTables) : IngestStore := ⟨tables, .empty, [], []⟩

end

/-! ## Reconciles in order -/

section

variable {mon : MonitorPolicy} {st st' : IngestStore}

def Unsuppressed (_ : IngestStore) : IngestOp → Prop
  | .result _ _ inMaintenance => inMaintenance = false
  | _ => True

/-- A reconcile runs when those of all earlier transitions have ended, and none ends on an error. -/
def InOrder (st : IngestStore) (op : IngestOp) : Prop :=
  Unsuppressed st op ∧
    match op with
    | .result _ _ _ => True
    | .look k => k = 0
    | .write k _ => k = 0
    | .fail _ => False

instance (st : IngestStore) : (op : IngestOp) → Decidable (Unsuppressed st op)
  | .result _ _ inMaintenance => inferInstanceAs (Decidable (inMaintenance = false))
  | .look _ | .write _ _ | .fail _ => .isTrue trivial

instance (st : IngestStore) : (op : IngestOp) → Decidable (InOrder st op)
  | .result up msg m => inferInstanceAs (Decidable (Unsuppressed st (.result up msg m) ∧ True))
  | .look k => inferInstanceAs (Decidable (Unsuppressed st (.look k) ∧ k = 0))
  | .write k newID => inferInstanceAs (Decidable (Unsuppressed st (.write k newID) ∧ k = 0))
  | .fail k => inferInstanceAs (Decidable (Unsuppressed st (.fail k) ∧ False))

def OpenIncident (incidents : Table AutoIncident.id) : Prop :=
  ∃ i ∈ incidents.rows, i.status ≠ .resolved

/-- Each reconciliation begins with the status that the last ended with. -/
def Chained : MonitorStatus → List Reconcile → MonitorStatus → Prop
  | s, [], t => s = t
  | s, r :: rs, t =>
    (r.prev = s ∧ r.cur ≠ s ∧ r.cur ≠ .pending ∧ r.suppressed = false) ∧ Chained r.cur rs t

variable {rs : List Reconcile} {r : Reconcile}

theorem Chained.snoc : ∀ {s : MonitorStatus},
    Chained s rs r.prev → r.cur ≠ r.prev → r.cur ≠ .pending → r.suppressed = false →
      Chained s (rs ++ [r]) r.cur := by
  induction rs with
  | nil =>
    rintro s rfl hne hpending hsup
    exact ⟨⟨rfl, hne, hpending, hsup⟩, rfl⟩
  | cons r' rs ih =>
    rintro s ⟨hr', hrs⟩ hne hpending hsup
    exact ⟨hr', ih hrs hne hpending hsup⟩

/-- What the first reconcile has found, if it has looked. -/
def StageOk (incidents : Table AutoIncident.id) (r : Reconcile) : Prop :=
  match r.stage with
  | .start => True
  | .opening => r.cur = .down
  | .resolving id => r.cur = .up ∧ ∃ i, incidents.get id = some i ∧ i.status ≠ .resolved

/-- The incident agrees with the status before the first reconcile that has not ended. -/
structure FollowInv (st : IngestStore) : Prop where
  chained : ∃ s, Chained s st.reconciles st.status ∧ (OpenIncident st.incidents ↔ s = .down)
  one : ∀ i ∈ st.incidents.rows, ∀ j ∈ st.incidents.rows, i.status ≠ .resolved →
    j.status ≠ .resolved → i = j
  waiting : ∀ r ∈ st.reconciles.tail, r.stage = .start
  first : ∀ r ∈ st.reconciles.head?, StageOk st.incidents r

variable {incidents : Table AutoIncident.id}

theorem findOpenAutoIncident_eq_none :
    findOpenAutoIncident incidents = none ↔ ¬ OpenIncident incidents := by
  simp [findOpenAutoIncident, OpenIncident, AutoIncident.isOpen]

variable {i : AutoIncident} {newID : Nat}

theorem findOpenAutoIncident_eq_some
    (h : findOpenAutoIncident incidents = some i) : i ∈ incidents.rows ∧ i.status ≠ .resolved := by
  refine ⟨mem_reverse.1 (mem_of_find?_eq_some h), ?_⟩
  simpa [AutoIncident.isOpen] using List.find?_some h

theorem status_recordCheckStatus (t : ResultTables) (up : Bool)
    (h : (t.recordCheckStatus up).row.monitor.status ≠ t.row.monitor.status) :
    (t.recordCheckStatus up).row.monitor.status ≠ .pending := by
  rw [recordCheckStatus_eq] at h ⊢
  dsimp only [withStanding, LiveRow.observed, LiveRow.standing] at h ⊢
  cases up with
  | true => exact MonitorStatus.noConfusion
  | false =>
    by_cases hlow : t.row.monitor.failureThreshold ≤ t.row.monitor.consecutiveFailures + 1
    · simp [Standing.observe, hlow]
    · exact absurd (by simp [Standing.observe, hlow]) h

theorem FollowInv.result (h : FollowInv st) (up : Bool) (msg : String) :
    FollowInv (applyResult st up msg false) := by
  obtain ⟨s, hchain, hagree⟩ := h.chained
  unfold applyResult
  dsimp only
  split
  · next hne =>
    refine ⟨⟨s, ?_, hagree⟩, h.one, ?_, ?_⟩
    · have hcur := Ne.symm hne
      exact hchain.snoc (r := ⟨msg, _, _, false, .start⟩) hcur
        (status_recordCheckStatus _ up hcur) rfl
    · intro r hr
      cases hrs : st.reconciles with
      | nil =>
        rw [hrs] at hr
        cases hr
      | cons r₀ rs =>
        rw [hrs, cons_append] at hr
        rcases mem_append.1 hr with hold | hnew
        · exact h.waiting r (by rw [hrs]; exact hold)
        · rw [mem_singleton] at hnew
          rw [hnew]
    · intro r hr
      cases hrs : st.reconciles with
      | nil =>
        rw [hrs] at hr
        cases hr
        trivial
      | cons r₀ rs =>
        rw [hrs] at hr
        exact h.first r (by rw [hrs]; exact hr)
  · next hsame =>
    rw [append_nil]
    refine ⟨⟨s, ?_, hagree⟩, h.one, h.waiting, h.first⟩
    have hstatus : st.tables.row.monitor.status =
        (st.tables.recordCheckStatus up).row.monitor.status := not_not.1 hsame
    show Chained s st.reconciles (st.tables.recordCheckStatus up).row.monitor.status
    exact hstatus ▸ hchain

theorem FollowInv.ended {entries : List IncidentEntry} (hrs : ∀ r ∈ rs, r.stage = .start)
    (hchain : Chained r.cur rs st.status) (hagree : OpenIncident incidents ↔ r.cur = .down)
    (hone : ∀ i ∈ incidents.rows, ∀ j ∈ incidents.rows, i.status ≠ .resolved →
      j.status ≠ .resolved → i = j) :
    FollowInv { st with incidents, entries, reconciles := rs } where
  chained := ⟨r.cur, hchain, hagree⟩
  one := hone
  waiting := fun r hr => hrs r (mem_of_mem_tail hr)
  first := fun r hr => by
    have hstart := hrs r (mem_of_mem_head? hr)
    unfold StageOk
    rw [hstart]
    trivial

theorem FollowInv.look (h : FollowInv st) (hauto : mon.autoIncident)
    (hst : ingestStep mon st (.look 0) = some st') : FollowInv st' := by
  obtain ⟨s, hchain, hagree⟩ := h.chained
  cases hrs : st.reconciles with
  | nil => simp [ingestStep, hrs] at hst
  | cons r rs =>
    rw [hrs] at hchain
    obtain ⟨⟨hprev, hcur, hpending, hsup⟩, htail⟩ := hchain
    have hwait : ∀ r ∈ rs, r.stage = .start := fun r' hr' => h.waiting r' (by rw [hrs]; exact hr')
    simp only [ingestStep, hrs, List.getElem?_cons_zero] at hst
    split at hst
    swap
    · cases hst
    -- the state after a look that found something to do
    have hgo (stage : Stage) (hok : StageOk st.incidents { r with stage }) :
        FollowInv { st with reconciles := { r with stage } :: rs } := by
      refine ⟨⟨s, ⟨⟨hprev, hcur, hpending, hsup⟩, htail⟩, hagree⟩, h.one, hwait, ?_⟩
      intro r' hr'
      cases hr'
      exact hok
    cases hc : r.cur with
    | pending => exact absurd hc hpending
    | down =>
      have hs : s ≠ .down := by rw [← hc]; exact hcur.symm
      have hnone : findOpenAutoIncident st.incidents = none :=
        findOpenAutoIncident_eq_none.2 fun hopen => hs (hagree.1 hopen)
      have hlook : Ingest.look mon st.incidents r = some { r with stage := .opening } := by
        simp [Ingest.look, hc, hprev, hs, hauto, hsup, hnone]
      rw [hlook] at hst
      cases hst
      exact hgo .opening hc
    | up =>
      have hs : s ≠ .up := by rw [← hc]; exact hcur.symm
      cases hfind : findOpenAutoIncident st.incidents with
      | none =>
        have hlook : Ingest.look mon st.incidents r = none := by
          simp [Ingest.look, hc, hfind]
        rw [hlook] at hst
        cases hst
        refine FollowInv.ended hwait htail ?_ h.one
        rw [hc]
        exact ⟨fun hopen => absurd hopen (findOpenAutoIncident_eq_none.1 hfind),
          fun hd => by cases hd⟩
      | some i =>
        have hlook : Ingest.look mon st.incidents r = some { r with stage := .resolving i.id } := by
          simp [Ingest.look, hc, hprev, hs, hfind]
        rw [hlook] at hst
        cases hst
        obtain ⟨hmem, hopen⟩ := findOpenAutoIncident_eq_some hfind
        exact hgo (.resolving i.id) ⟨hc, i, Table.get_of_mem hmem, hopen⟩

theorem FollowInv.create (h : FollowInv st) (hrs : st.reconciles = r :: rs) (hcur : r.cur = .down)
    (hfree : st.incidents.get newID = none) :
    FollowInv (createAutoIncident mon { st with reconciles := rs } r newID) := by
  obtain ⟨s, hchain, hagree⟩ := h.chained
  rw [hrs] at hchain
  obtain ⟨⟨_, hne, _, _⟩, htail⟩ := hchain
  have hnone : ¬ OpenIncident st.incidents := fun hopen => hne (hcur.trans (hagree.1 hopen).symm)
  have hclosed : ∀ i ∈ st.incidents.rows, i.status = .resolved := by
    intro i hi
    by_contra hopen
    exact hnone ⟨i, hi, hopen⟩
  have hany : st.incidents.rows.any AutoIncident.isOpen = false := by
    rw [any_eq_false]
    intro i hi
    simp [AutoIncident.isOpen, hclosed i hi]
  have hrows := Table.rows_insertNew_of_none (a := AutoIncident.mk newID (mon.name ++ " is down")
    .investigating) hfree
  unfold createAutoIncident
  rw [hany]
  refine FollowInv.ended (fun r' hr' => h.waiting r' (by rw [hrs]; exact hr')) htail ?_ ?_
  · refine ⟨fun _ => hcur, fun _ => ?_⟩
    refine ⟨⟨newID, mon.name ++ " is down", .investigating⟩, ?_, IncidentStatus.noConfusion⟩
    rw [hrows]
    exact mem_concat.2 (.inr rfl)
  · intro i hi j hj hio hjo
    rw [hrows] at hi hj
    rcases mem_append.1 hi with hi | hi
    · exact absurd (hclosed i hi) hio
    rcases mem_append.1 hj with hj | hj
    · exact absurd (hclosed j hj) hjo
    · rw [mem_singleton.1 hi, mem_singleton.1 hj]

theorem FollowInv.resolve (h : FollowInv st) (hrs : st.reconciles = r :: rs) (hcur : r.cur = .up)
    {id : Nat} (hi : st.incidents.get id = some i) (hopen : i.status ≠ .resolved) :
    FollowInv (resolveAutoIncident { st with reconciles := rs } id) := by
  obtain ⟨s, hchain, hagree⟩ := h.chained
  rw [hrs] at hchain
  obtain ⟨_, htail⟩ := hchain
  obtain ⟨hmem, hid⟩ := Table.get_eq_some_iff.1 hi
  have hnext : nextStatus (some .resolved) i.status = .ok .resolved := by
    cases hstatus : i.status with
    | resolved => exact absurd hstatus hopen
    | investigating | identified | monitoring => rfl
  unfold resolveAutoIncident
  simp only [hi, hnext]
  have hclosed : ∀ j ∈ (st.incidents.update (fun j => j.id = id)
      (fun j => { j with status := .resolved }) fun _ => rfl).rows, j.status = .resolved := by
    intro j hj
    obtain ⟨j₀, hj₀, rfl⟩ := mem_map.1 hj
    by_cases hidj : j₀.id = id
    · simp [hidj]
    · simp only [hidj]
      by_contra hj₀open
      exact hidj ((h.one j₀ hj₀ i hmem hj₀open hopen) ▸ hid)
  refine FollowInv.ended (fun r' hr' => h.waiting r' (by rw [hrs]; exact hr')) htail ?_ ?_
  · rw [hcur]
    refine ⟨?_, fun hd => by cases hd⟩
    rintro ⟨j, hj, hjo⟩
    exact absurd (hclosed j hj) hjo
  · intro j hj _ _ hjo
    exact absurd (hclosed j hj) hjo

theorem FollowInv.write (h : FollowInv st)
    (hst : ingestStep mon st (.write 0 newID) = some st') : FollowInv st' := by
  cases hrs : st.reconciles with
  | nil => simp [ingestStep, hrs] at hst
  | cons r rs =>
    have hfirst := h.first r (by rw [hrs]; rfl)
    unfold StageOk at hfirst
    simp only [ingestStep, hrs, List.getElem?_cons_zero] at hst
    cases hstage : r.stage with
    | start =>
      rw [hstage] at hst
      cases hst
    | opening =>
      rw [hstage] at hst hfirst
      dsimp only at hst
      split at hst
      · cases hst
      next hfree =>
        cases hst
        exact h.create hrs hfirst (by simpa using hfree)
    | resolving id =>
      rw [hstage] at hst hfirst
      cases hst
      obtain ⟨hcur, i, hi, hopen⟩ := hfirst
      exact h.resolve hrs hcur hi hopen

/-- **Every step in order** keeps the incident in agreement with the status. -/
theorem ingestStep_inv (hauto : mon.autoIncident) {op : IngestOp} (h : FollowInv st)
    (hok : InOrder st op) (hst : ingestStep mon st op = some st') : FollowInv st' := by
  cases op with
  | result up msg inMaintenance =>
    obtain rfl : inMaintenance = false := hok.1
    cases hst
    exact h.result up msg
  | look k =>
    obtain rfl : k = 0 := hok.2
    exact h.look hauto hst
  | write k newID =>
    obtain rfl : k = 0 := hok.2
    exact h.write hst
  | fail k => exact hok.2.elim

theorem followInv_fresh {tables : ResultTables} (h : tables.row.monitor.status ≠ .down) :
    FollowInv (freshStore tables) where
  chained := ⟨_, rfl, by
    refine ⟨?_, fun hdown => absurd hdown h⟩
    rintro ⟨i, hi, _⟩
    cases hi⟩
  one := fun i hi => by cases hi
  waiting := fun r hr => by cases hr
  first := fun r hr => by cases hr

/-- **The auto-incident follows the status where reconciles run in order**: once all have run, it is
open exactly when the monitor is down. -/
theorem autoIncident_follows {tables : ResultTables} (hauto : mon.autoIncident = true)
    (hfresh : tables.row.monitor.status ≠ .down)
    (h : Reach (ingestStep mon) InOrder (freshStore tables) st) (hdone : st.reconciles = []) :
    OpenIncident st.incidents ↔ st.status = .down := by
  have hinv : FollowInv st := h.invariant (followInv_fresh hfresh)
    fun _ _ _ hs hok hst => ingestStep_inv hauto hs hok hst
  obtain ⟨s, hchain, hagree⟩ := hinv.chained
  rw [hdone] at hchain
  rw [hagree, show s = st.status from hchain]

end

section

def apiMonitor : ResultTables where
  row := ⟨⟨1, .http, true, false, 0, 60, 10, 0, 0, 1, false, 3, .pending, 0, none⟩,
    none, 0, none, 0,
    none⟩
  heartbeats := .empty
  outbox := []
  slots := .empty

def apiPolicy : MonitorPolicy := ⟨"api", true⟩

/-- The monitor fails and recovers; the recovery's reconcile runs first. -/
def recoveryFirst : IngestStore :=
  finalState (ingestStep apiPolicy) (freshStore apiMonitor)
    [.result false "timeout" false, .result true "" false, .look 1, .look 0, .write 0 1]

/-- **An incident stays open after the recovery** when the reconciles run in the other order. -/
theorem autoIncident_left_open :
    Reach (ingestStep apiPolicy) Unsuppressed (freshStore apiMonitor) recoveryFirst ∧
      recoveryFirst.reconciles = [] ∧ recoveryFirst.status = .up ∧
        OpenIncident recoveryFirst.incidents := by
  refine ⟨?_, by decide +kernel, by decide +kernel, ?_⟩
  · apply reach_of_allowedRun
    decide +kernel
  · unfold OpenIncident
    decide +kernel

/-- The same transitions, reconciled in order, and then another failure. -/
def inOrderOps : List IngestOp :=
  [.result false "timeout" false, .result true "" false, .look 0, .write 0 1, .look 0, .write 0 2,
    .result false "refused" false, .look 0, .write 0 2]

theorem autoIncident_follows_inOrder :
    ∃ st : IngestStore, (st.reconciles = [] ∧ st.incidents.rows.length = 2) ∧
      (OpenIncident st.incidents ↔ st.status = .down) := by
  have hrun : AllowedRun (ingestStep apiPolicy) InOrder (freshStore apiMonitor) inOrderOps := by
    decide +kernel
  refine ⟨finalState (ingestStep apiPolicy) (freshStore apiMonitor) inOrderOps, ⟨?_, ?_⟩,
    autoIncident_follows rfl (by decide) (reach_of_allowedRun hrun) ?_⟩
  · decide +kernel
  · decide +kernel
  · decide +kernel

end

end Cerbix.Ingest
