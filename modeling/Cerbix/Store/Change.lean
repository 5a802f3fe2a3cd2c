import Cerbix.Lib.Except
import Cerbix.Lib.Text
import Cerbix.Lib.Query

/-!
# Changes of a service

`internal/domain/change.go`: a change is reported by phases under one external identity, `started`
and one of the terminal phases. `changePhaseOrder` decides which phase may join those that are
there.

`RecordChangePhase` of `internal/store/change.go`, under the lock of the external identity: a phase
that is already there decides between a replay and a refusal, and otherwise the phase is inserted
with the instant read after the lock. The transaction commits later, so a row is visible only some
time after its `recorded_at`.
-/

namespace Cerbix.Domain

open Cerbix.Lib

/-- What kind of change a group is. -/
inductive ChangeKind
  | deploy
  | rollback
  | flag
  deriving DecidableEq, Repr

def ChangeKind.text : ChangeKind → String
  | .deploy => "deploy"
  | .rollback => "rollback"
  | .flag => "flag"

/-- How far a change is. -/
inductive ChangePhase
  | started
  | succeeded
  | failed
  | cancelled
  deriving DecidableEq, Repr

def ChangePhase.text : ChangePhase → String
  | .started => "started"
  | .succeeded => "succeeded"
  | .failed => "failed"
  | .cancelled => "cancelled"

def isTerminalPhase (p : ChangePhase) : Bool := p = .succeeded || p = .failed || p = .cancelled

/-- Why a phase is refused. -/
inductive ChangeErrCode
  | phaseOrder
  | phaseExists
  | kindMismatch
  | decisionUnknown
  | occurredBeforeStart
  | occurredOutOfBounds
  | noteMaxInvalid
  deriving DecidableEq, Repr

def ChangeErrCode.text : ChangeErrCode → String
  | .phaseOrder => "phase_order"
  | .phaseExists => "phase_exists"
  | .kindMismatch => "kind_mismatch"
  | .decisionUnknown => "decision_unknown"
  | .occurredBeforeStart => "occurred_at_before_start"
  | .occurredOutOfBounds => "occurred_at_out_of_bounds"
  | .noteMaxInvalid => "correlation_note_max_invalid"

structure ChangeError where
  code : ChangeErrCode
  field : String
  msg : String
  deriving DecidableEq, Repr

def ChangeError.error (e : ChangeError) : String :=
  if e.field = "" then e.code.text ++ ": " ++ e.msg
  else e.code.text ++ " (" ++ e.field ++ "): " ++ e.msg

def recordedTerminal (existing : List ChangePhase) : Option ChangePhase :=
  (existing.filter isTerminalPhase).getLast?

/-- A phase is recorded once, and none after the end. -/
def changePhaseOrder (existing : List ChangePhase) (next : ChangePhase) : Except ChangeError Unit :=
  if next ∈ existing then .error ⟨.phaseExists, "phase", next.text ++ " already recorded"⟩
  else
    match recordedTerminal existing with
    | none => .ok ()
    | some terminal =>
      if isTerminalPhase next then
        .error ⟨.phaseOrder, "phase", terminal.text ++ " already recorded"⟩
      else .error ⟨.phaseOrder, "phase", next.text ++ " cannot follow " ++ terminal.text⟩

theorem changePhaseOrder_ok {existing : List ChangePhase} {p next : ChangePhase}
    (h : changePhaseOrder existing next = .ok ()) (hp : p ∈ existing) :
    p = .started ∧ isTerminalPhase next := by
  unfold changePhaseOrder at h
  split at h
  · cases h
  rename_i hnew
  split at h
  · rename_i hnone
    simp only [recordedTerminal, List.getLast?_eq_none_iff, List.filter_eq_nil_iff] at hnone
    have hopen := hnone p hp
    have hne : p ≠ next := fun he => hnew (he ▸ hp)
    revert hopen hne
    cases p <;> cases next <;> decide
  · split at h <;> cases h

/-- A recorded phase. -/
structure ChangePhaseRow where
  id : String
  projectID : String
  serviceID : String
  source : String
  externalID : String
  kind : ChangeKind
  phase : ChangePhase
  ref : String
  url : String
  occurredAt : Int
  decisionID : Option String
  recordedAt : Int
  deriving DecidableEq, Repr

/-- The phases of one change. -/
def ChangePhaseRow.group (r : ChangePhaseRow) : String × String × String :=
  (r.serviceID, r.source, r.externalID)

end Cerbix.Domain

namespace Cerbix.Store

open Cerbix.Lib Cerbix.Domain List

/-- How instants and durations are written in the texts of refusals. -/
structure TimeFormat where
  rfc3339 : Int → String
  rfc3339Nano : Int → String
  duration : Int → String

/-- A phase as it is reported. -/
structure RecordChangeInput where
  projectID : String
  serviceID : String
  source : String
  externalID : String
  kind : ChangeKind
  phase : ChangePhase
  ref : String
  url : String
  occurredAt : Int
  decisionID : Option String
  maxPast : Int
  maxFuture : Int
  deriving DecidableEq, Repr

def RecordChangeInput.group (inp : RecordChangeInput) : String × String × String :=
  (inp.serviceID, inp.source, inp.externalID)

/-- Why a report is refused. -/
inductive RecordError
  | notFound
  | refused (e : ChangeError)
  deriving DecidableEq, Repr

def changePhaseRank (p : ChangePhase) : Nat := if p = .started then 0 else 1

/-- The order in which the phases of a change are read. -/
def sortChangePhases (rows : List ChangePhaseRow) : List ChangePhaseRow :=
  rows.insertionSort fun a b =>
    if a.occurredAt ≠ b.occurredAt then a.occurredAt < b.occurredAt
    else if changePhaseRank a.phase ≠ changePhaseRank b.phase then
      changePhaseRank a.phase < changePhaseRank b.phase
    else a.id ≤ b.id

def changeIdentityRows (changes : List ChangePhaseRow) (inp : RecordChangeInput) :
    List ChangePhaseRow :=
  sortChangePhases (changes.filter fun r => r.projectID = inp.projectID ∧ r.group = inp.group)

/-- The first field in which a repeated report differs. -/
def changeReplayDiffers (r : ChangePhaseRow) (inp : RecordChangeInput) : Option String :=
  if r.kind ≠ inp.kind then some "kind"
  else if r.occurredAt ≠ inp.occurredAt then some "occurred_at"
  else if r.ref ≠ inp.ref then some "ref"
  else if r.url ≠ inp.url then some "url"
  else if r.decisionID ≠ inp.decisionID then some "decision_id"
  else none

section Record

variable (fmt : TimeFormat) (serviceExists decisionBelongs : Bool) (changes : List ChangePhaseRow)
  (now : Int) (id : String) (inp : RecordChangeInput)

/-- A report that repeats a recorded one changes nothing. -/
def replayChange (r : ChangePhaseRow) : Except RecordError (ChangePhaseRow × Bool) :=
  match changeReplayDiffers r inp with
  | some field => .error (.refused ⟨.phaseExists, field,
      inp.phase.text ++ " is already recorded with a different " ++ field⟩)
  | none => .ok (r, true)

def outOfBounds : ChangeError where
  code := .occurredOutOfBounds
  field := "occurred_at"
  msg := "must be within " ++ fmt.duration inp.maxPast ++ " behind and " ++
    fmt.duration inp.maxFuture ++
    " ahead of the server's current time " ++ fmt.rfc3339 now ++ ", got " ++
    fmt.rfc3339Nano inp.occurredAt

/-- A new phase agrees with those before it. -/
def checkNewPhase (existing : List ChangePhaseRow) : Except ChangeError Unit := do
  (match existing.head? with
    | some r =>
      if r.kind ≠ inp.kind then .error ⟨.kindMismatch, "kind",
        "this change is a " ++ r.kind.text ++ "; a " ++ inp.kind.text ++ " phase cannot join it"⟩
      else .ok ()
    | none => .ok ())
  changePhaseOrder (existing.map ChangePhaseRow.phase) inp.phase
  (match existing.find? fun r => isTerminalPhase inp.phase && decide (r.phase = .started) &&
      decide (inp.occurredAt < r.occurredAt) with
    | some r => .error ⟨.occurredBeforeStart, "occurred_at", inp.phase.text ++
        " must not precede started at " ++ fmt.rfc3339Nano r.occurredAt ++ ", got " ++
        fmt.rfc3339Nano inp.occurredAt⟩
    | none => .ok ())
  match inp.decisionID with
  | some decision =>
    if decisionBelongs then .ok () else .error ⟨.decisionUnknown, "decision_id",
      decision ++ " is not a decision of this service"⟩
  | none => .ok ()

def newChangeRow : ChangePhaseRow where
  id := id
  projectID := inp.projectID
  serviceID := inp.serviceID
  source := inp.source
  externalID := inp.externalID
  kind := inp.kind
  phase := inp.phase
  ref := inp.ref
  url := inp.url
  occurredAt := inp.occurredAt
  decisionID := inp.decisionID
  recordedAt := now

/-- The row that is answered, and whether it was already there. -/
def recordChangePhase : Except RecordError (ChangePhaseRow × Bool) :=
  if !serviceExists then .error .notFound
  else if inp.occurredAt < now - inp.maxPast ∨ now + inp.maxFuture < inp.occurredAt then
    .error (.refused (outOfBounds fmt now inp))
  else
    let existing := changeIdentityRows changes inp
    match existing.find? fun r => r.phase = inp.phase with
    | some r => replayChange inp r
    | none =>
      match checkNewPhase fmt decisionBelongs inp existing with
      | .error e => .error (.refused e)
      | .ok () => .ok (newChangeRow now id inp, false)

/-- What a row says of a later one of its change. -/
def JoinedBy (a b : ChangePhaseRow) : Prop :=
  a.projectID = b.projectID → a.group = b.group →
    a.kind = b.kind ∧ a.phase = .started ∧ isTerminalPhase b.phase ∧ a.occurredAt ≤ b.occurredAt

variable {fmt serviceExists decisionBelongs changes now id inp}

theorem joinedBy_of_record {row a : ChangePhaseRow} (hj : changes.Pairwise JoinedBy)
    (h : recordChangePhase fmt serviceExists decisionBelongs changes now id inp = .ok (row, false))
    (ha : a ∈ changes) : JoinedBy a row := by
  simp only [recordChangePhase] at h
  split at h
  · cases h
  split at h
  · cases h
  split at h
  · simp only [replayChange] at h
    split at h <;> cases h
  split at h
  · cases h
  rename_i hok
  cases h
  obtain ⟨⟨⟩, hkind, hok⟩ := bind_eq_ok.1 hok
  obtain ⟨⟨⟩, horder, hok⟩ := bind_eq_ok.1 hok
  obtain ⟨⟨⟩, hstart, -⟩ := bind_eq_ok.1 hok
  have hid : ∀ {r}, r ∈ changeIdentityRows changes inp ↔
      r ∈ changes ∧ r.projectID = inp.projectID ∧ r.group = inp.group := by
    simp [changeIdentityRows, sortChangePhases]
  intro hproj hgroup
  have hmem := hid.2 ⟨ha, hproj, hgroup⟩
  obtain ⟨hphase, hterm⟩ := changePhaseOrder_ok horder (mem_map_of_mem hmem)
  refine ⟨?_, hphase, hterm, ?_⟩
  · -- the kind is compared with that of the first row only, and the others have the same
    obtain ⟨r, rest, hr⟩ := exists_cons_of_ne_nil (ne_nil_of_mem hmem)
    obtain ⟨hrc, hrp, hrg⟩ := hid.1 (hr ▸ mem_cons_self : r ∈ changeIdentityRows changes inp)
    have hsame := Pairwise.forall_of_forall_of_flip (fun _ _ _ _ => rfl)
      (hj.imp fun h hp hg => (h hp hg).1)
      (hj.imp fun h hp hg => (h hp.symm hg.symm).1.symm) ha hrc
    have hrk : r.kind = inp.kind := by simpa [hr] using hkind
    exact (hsame (hproj.trans hrp.symm) (hgroup.trans hrg.symm)).trans hrk
  · split at hstart
    · cases hstart
    rename_i hnone
    simpa [hterm, hphase, newChangeRow] using find?_eq_none.1 hnone a hmem

end Record

/-- The delete of `PurgeChangeGroups`: of the groups selected before their locks were taken, those
of which no phase is as young as the cutoff now. -/
def purgeChangeGroups (changes : List ChangePhaseRow) (cutoff : Int)
    (victims : List (String × String × String)) : List ChangePhaseRow :=
  changes.filter fun r => !(victims.contains r.group &&
    changes.all fun c => c.group ≠ r.group || c.occurredAt < cutoff)

/-- What happens to the recorded changes. -/
inductive GroupOp
  | record (found belongs : Bool) (now : Int) (id : String) (inp : RecordChangeInput)
  | purge (cutoff : Int) (victims : List (String × String × String))

/-- A report, or the purge of old changes. -/
def groupStep (fmt : TimeFormat) (changes : List ChangePhaseRow) : GroupOp → List ChangePhaseRow
  | .record found belongs now id inp =>
    match recordChangePhase fmt found belongs changes now id inp with
    | .ok (row, false) => changes ++ [row]
    | _ => changes
  | .purge cutoff victims => purgeChangeGroups changes cutoff victims

/-- **A change is one story**: whatever is recorded and purged, a change has one kind
and at most two phases, `started` and then a terminal one that did not happen before it. -/
theorem changes_joined (fmt : TimeFormat) (ops : List GroupOp) :
    (ops.foldl (groupStep fmt) []).Pairwise JoinedBy := by
  induction ops using reverseRecOn with
  | nil => exact .nil
  | append_singleton ops op ih =>
    rw [foldl_concat]
    cases op with
    | purge cutoff victims => exact ih.filter _
    | record found belongs now id inp =>
      rw [groupStep]
      split
      · rename_i row h
        refine pairwise_append.2 ⟨ih, pairwise_singleton _ _, fun a ha b hb => ?_⟩
        rw [mem_singleton.1 hb]
        exact joinedBy_of_record ih h ha
      · exact ih

end Cerbix.Store
