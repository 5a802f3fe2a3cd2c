import Cerbix.Domain.Incident
import Cerbix.Lib.Except
import Cerbix.Lib.Run
import Mathlib.Data.List.Perm.Basic

/-!
# The timeline of an incident

The writers of `incident_updates` for one incident (`internal/store/incidents.go`,
`serviceimpact.go`, `change.go`, `dependencies.go`). Updates and acknowledgements lock the
incident's row, read the clock and write; a note of impacts or of changes locks it too, but is dated
at the start of its transaction; a suppression note is one statement without a lock, dated at its
start. So the status only moves forward (`timelineStep_forward`), but the timeline need not:
`timeline_regresses`, `timeline_never_regresses`.
-/

namespace Cerbix.Store

open Cerbix.Lib Cerbix.Domain List Option IncidentStatus

/-! ## The writers -/

/-- What wrote an entry. -/
inductive EntryWriter
  | opening
  | update
  | impactNote
  | changeNote
  | suppressionNote
  deriving DecidableEq, Repr

/-- An entry of an incident's timeline. -/
structure TimelineEntry where
  status : IncidentStatus
  body : String
  author : String
  createdAt : Int
  writer : EntryWriter
  deriving DecidableEq, Repr

/-- The row of an incident. -/
structure IncidentRow where
  status : IncidentStatus
  updatedAt : Int
  resolvedAt : Option Int
  acknowledgedAt : Option Int
  acknowledgedBy : Option String
  deriving DecidableEq, Repr

/-- A write of the timeline. -/
inductive TimelineWrite
  /-- An update of an operator or of the system; without a status it keeps the current one. -/
  | update (status : Option IncidentStatus) (body author : String)
  | acknowledge (who : String)
  | impactNote (body : String)
  | changeNote (body : String)
  | suppressionNote (rootName : String)
  deriving DecidableEq, Repr

namespace TimelineWrite

def isUpdate : TimelineWrite → Bool
  | .update _ _ _ => true
  | _ => false

def isNote : TimelineWrite → Bool
  | .impactNote _ | .changeNote _ | .suppressionNote _ => true
  | _ => false

theorem isUpdate_of_isNote {w : TimelineWrite} (h : w.isNote) : w.isUpdate = false := by
  cases w with
  | update status body author => cases h
  | acknowledge who | impactNote body | changeNote body | suppressionNote rootName => rfl

end TimelineWrite

/-- A transaction that has not locked the row. -/
structure TimelineTx where
  write : TimelineWrite
  startedAt : Int
  seen : IncidentStatus
  deriving DecidableEq, Repr

/-- The transaction that has. -/
structure LockHolder where
  write : TimelineWrite
  startedAt : Int
  status : IncidentStatus
  asOf : Option Int
  deriving DecidableEq, Repr

/-- An incident, its entries and the writes on their way. -/
structure IncidentTimeline where
  clock : Int
  row : IncidentRow
  entries : List TimelineEntry
  waiting : List TimelineTx
  holder : Option LockHolder
  deriving DecidableEq, Repr

def suppressionBody (rootName : String) : String :=
  "⏸ Suppressed: alerts muted: depends on " ++ rootName ++ ", which is down."

/-- What happens to an incident's timeline. -/
inductive TimelineOp
  | tick (d : Nat)
  | start (w : TimelineWrite)
  | lock (k : Nat)
  | stamp
  | commit
  | finish (k : Nat)
  | rollback
  deriving DecidableEq, Repr

variable (st : IncidentTimeline)

/-- The write finds the incident as it needs it. -/
def goesOn : TimelineWrite → Bool
  | .impactNote _ => st.row.status ≠ .resolved
  | .suppressionNote _ =>
    st.row.status ≠ .resolved && !st.entries.any fun e => e.writer = .suppressionNote
  | _ => true

/-- What a transaction decides under the lock: the status that it will write, if it goes on. -/
def decideLocked : TimelineWrite → Option IncidentStatus
  | .update status _ _ => (nextStatus status st.row.status).toOption
  | .acknowledge _ => if st.row.status.terminal then none else some st.row.status
  | .impactNote _ => if st.row.status = .resolved then none else some st.row.status
  | .changeNote _ =>
    if st.entries.any fun e => e.writer = .changeNote then none else some st.row.status
  | .suppressionNote _ => none

def IncidentRow.updated (row : IncidentRow) (next : IncidentStatus) (asOf : Int) : IncidentRow :=
  { row with
    status := next
    updatedAt := asOf
    resolvedAt := if next = .resolved ∧ row.resolvedAt = none then some asOf else row.resolvedAt }

/-- The row after an acknowledgement at `asOf`; a repeated one changes nothing. -/
def IncidentRow.acknowledged (row : IncidentRow) (who : String) (asOf : Int) : IncidentRow :=
  { row with
    acknowledgedAt := row.acknowledgedAt.or (some asOf)
    acknowledgedBy := row.acknowledgedBy.or (some who)
    updatedAt := if row.acknowledgedAt = none then asOf else row.updatedAt }

def noteEntry (status : IncidentStatus) (startedAt : Int) : TimelineWrite → Option TimelineEntry
  | .impactNote body => some ⟨status, body, "system", startedAt, .impactNote⟩
  | .changeNote body => some ⟨status, body, "system", startedAt, .changeNote⟩
  | .suppressionNote rootName =>
    some ⟨status, suppressionBody rootName, "system", startedAt, .suppressionNote⟩
  | _ => none

/-- The entry and the row are written together. -/
def commitHolder (h : LockHolder) : Option IncidentTimeline :=
  match h.write, h.asOf with
  | .update _ body author, some asOf =>
    some { st with
      row := st.row.updated h.status asOf
      entries := st.entries ++ [⟨h.status, body, author, asOf, .update⟩]
      holder := none }
  | .acknowledge who, some asOf =>
    some { st with row := st.row.acknowledged who asOf, holder := none }
  | w, none =>
    (noteEntry h.status h.startedAt w).map fun e =>
      { st with entries := st.entries ++ [e], holder := none }
  | _, _ => none

/-- Time passes, or a transaction moves on. -/
def timelineStep : TimelineOp → Option IncidentTimeline
  | .tick d => some { st with clock := st.clock + d }
  | .start w =>
    some (if goesOn st w then { st with waiting := st.waiting ++ [⟨w, st.clock, st.row.status⟩] }
      else st)
  | .lock k =>
    match st.waiting[k]?, st.holder with
    | some tx, none =>
      let waiting := st.waiting.eraseIdx k
      match tx.write with
      | .suppressionNote _ => none
      | w =>
        some (match decideLocked st w with
          | some status => { st with waiting, holder := some ⟨w, tx.startedAt, status, none⟩ }
          | none => { st with waiting })
    | _, _ => none
  | .stamp =>
    match st.holder with
    | some h =>
      if h.write.isNote || h.asOf.isSome then none
      else some { st with holder := some { h with asOf := some st.clock } }
    | none => none
  | .commit => st.holder.bind (commitHolder st)
  | .finish k =>
    match st.waiting[k]?, st.holder with
    | some tx, none =>
      match tx.write with
      | .suppressionNote _ =>
        (noteEntry tx.seen tx.startedAt tx.write).map fun e =>
          { st with entries := st.entries ++ [e], waiting := st.waiting.eraseIdx k }
      | _ => none
    | _, _ => none
  | .rollback => some { st with holder := none }

def openedIncident (status : IncidentStatus) (body author : String) (at' : Int) :
    IncidentTimeline where
  clock := at'
  row := ⟨status, at', if status = .resolved then some at' else none, none, none⟩
  entries := [⟨status, body, author, at', .opening⟩]
  waiting := []
  holder := none

/-! ## The status -/

section

variable {st st' : IncidentTimeline}

/-- The status moves from `s` to `t` without going back. -/
def Forward (s t : IncidentStatus) : Prop := s.rank ≤ t.rank ∧ (s = .resolved → t = .resolved)

/-- What the holder will write follows the status of the row. -/
def HolderOk (st : IncidentTimeline) : Prop :=
  ∀ h ∈ st.holder, if h.write.isUpdate then st.row.status ≠ .resolved ∧
    st.row.status.rank ≤ h.status.rank
    else h.status = st.row.status

theorem Forward.refl (s : IncidentStatus) : Forward s s := ⟨Nat.le_refl _, id⟩

variable {status : IncidentStatus}

theorem decideLocked_ok {w : TimelineWrite} (h : decideLocked st w = some status) :
    if w.isUpdate then st.row.status ≠ .resolved ∧ st.row.status.rank ≤ status.rank
    else status = st.row.status := by
  cases w with
  | update requested body author =>
    exact nextStatus_eq_ok (toOption_eq_some.1 h)
  | acknowledge who =>
    simp only [decideLocked] at h
    split at h <;> cases h
    rfl
  | impactNote body =>
    simp only [decideLocked] at h
    split at h <;> cases h
    rfl
  | changeNote body =>
    simp only [decideLocked] at h
    split at h <;> cases h
    rfl
  | suppressionNote rootName => cases h

theorem commitHolder_cases {h : LockHolder} (hst : commitHolder st h = some st') :
    (∃ requested body author asOf, h.write = .update requested body author ∧ h.asOf = some asOf ∧
      st' = { st with
        row := st.row.updated h.status asOf
        entries := st.entries ++ [⟨h.status, body, author, asOf, .update⟩]
        holder := none }) ∨
    (∃ who asOf, h.write = .acknowledge who ∧
      st' = { st with row := st.row.acknowledged who asOf, holder := none }) ∨
    (∃ e, noteEntry h.status h.startedAt h.write = some e ∧
      st' = { st with entries := st.entries ++ [e], holder := none }) := by
  unfold commitHolder at hst
  split at hst
  · next requested body author asOf hw hasOf =>
    cases hst
    exact .inl ⟨requested, body, author, asOf, hw, hasOf, rfl⟩
  · next who asOf hw _ =>
    cases hst
    exact .inr (.inl ⟨who, asOf, hw, rfl⟩)
  · obtain ⟨e, he, rfl⟩ := map_eq_some_iff.1 hst
    exact .inr (.inr ⟨e, he, rfl⟩)
  · cases hst

theorem lock_cases {k : Nat} (hst : timelineStep st (.lock k) = some st') :
    ∃ tx, st.waiting[k]? = some tx ∧ st.holder = none ∧
      ((∃ status, decideLocked st tx.write = some status ∧
          st' = { st with
            waiting := st.waiting.eraseIdx k
            holder := some ⟨tx.write, tx.startedAt, status, none⟩ }) ∨
        st' = { st with waiting := st.waiting.eraseIdx k }) := by
  simp only [timelineStep] at hst
  split at hst
  · next tx htx hfree =>
    refine ⟨tx, htx, hfree, ?_⟩
    split at hst
    · cases hst
    cases hst
    cases hdec : decideLocked st tx.write with
    | none => exact .inr rfl
    | some status => exact .inl ⟨status, rfl, rfl⟩
  · cases hst

theorem finish_cases {k : Nat} (hst : timelineStep st (.finish k) = some st') :
    ∃ tx e, tx ∈ st.waiting ∧ st.holder = none ∧ noteEntry tx.seen tx.startedAt tx.write = some e ∧
      st' = { st with entries := st.entries ++ [e], waiting := st.waiting.eraseIdx k } := by
  simp only [timelineStep] at hst
  split at hst
  · next tx htx hfree =>
    split at hst
    · obtain ⟨e, he, rfl⟩ := map_eq_some_iff.1 hst
      exact ⟨tx, e, mem_of_getElem? htx, hfree, he, rfl⟩
    · cases hst
  · cases hst

theorem stamp_cases (hst : timelineStep st .stamp = some st') :
    ∃ h, st.holder = some h ∧ h.write.isNote = false ∧
      st' = { st with holder := some { h with asOf := some st.clock } } := by
  simp only [timelineStep] at hst
  split at hst
  · next h hh =>
    split at hst
    · cases hst
    rename_i hn
    cases hst
    rw [Bool.or_eq_true, not_or, Bool.not_eq_true] at hn
    exact ⟨h, hh, hn.1, rfl⟩
  · cases hst

theorem timelineStep_forward {op : TimelineOp} (hok : HolderOk st)
    (hst : timelineStep st op = some st') :
    Forward st.row.status st'.row.status ∧ HolderOk st' := by
  cases op with
  | tick d =>
    cases hst
    exact ⟨.refl _, hok⟩
  | start w =>
    simp only [timelineStep, some_inj] at hst
    split at hst <;> subst hst <;> exact ⟨.refl _, hok⟩
  | lock k =>
    obtain ⟨tx, _, hfree, ⟨status, hdec, rfl⟩ | rfl⟩ := lock_cases hst
    · refine ⟨.refl _, ?_⟩
      rintro h ⟨⟩
      exact decideLocked_ok hdec
    · refine ⟨.refl _, ?_⟩
      intro h hh
      cases hfree.symm.trans hh
  | stamp =>
    obtain ⟨h, hh, _, rfl⟩ := stamp_cases hst
    refine ⟨.refl _, ?_⟩
    rintro h' ⟨⟩
    exact hok h hh
  | commit =>
    obtain ⟨h, hh, hst⟩ := bind_eq_some_iff.1 hst
    have hholder := hok h hh
    rcases commitHolder_cases hst with
      ⟨requested, body, author, asOf, hw, _, rfl⟩ | ⟨who, asOf, _, rfl⟩ | ⟨e, _, rfl⟩
    · rw [hw] at hholder
      refine ⟨⟨hholder.2, fun hres => absurd hres hholder.1⟩, ?_⟩
      rintro h' ⟨⟩
    · refine ⟨.refl _, ?_⟩
      rintro h' ⟨⟩
    · refine ⟨.refl _, ?_⟩
      rintro h' ⟨⟩
  | finish k =>
    obtain ⟨tx, e, _, hfree, _, rfl⟩ := finish_cases hst
    refine ⟨.refl _, ?_⟩
    intro h hh
    cases hfree.symm.trans hh
  | rollback =>
    cases hst
    refine ⟨.refl _, ?_⟩
    rintro h ⟨⟩

theorem reach_holderOk {body author : String} {at' : Int}
    (h : Reach timelineStep anyStep (openedIncident status body author at') st) : HolderOk st :=
  h.invariant (by rintro h ⟨⟩) fun _ _ _ hs _ hst => (timelineStep_forward hs hst).2

end

/-! ## The entries -/

section

variable {st st' : IncidentTimeline}

def TimelineEntry.resolves (e : TimelineEntry) : Prop :=
  e.status = .resolved ∧ (e.writer = .opening ∨ e.writer = .update)

/-- The entries as they are read: in the order of their times. -/
def Listing (entries l : List TimelineEntry) : Prop :=
  l.Perm entries ∧ l.Pairwise fun a b => a.createdAt ≤ b.createdAt

/-- A note begins when no update holds the lock and the incident is open, an update takes the lock
when no note is under way, and each is dated after the entries there. -/
def Apart (st : IncidentTimeline) : TimelineOp → Prop
  | .start w => w.isNote = true → (∀ h ∈ st.holder, h.write.isUpdate = false) ∧
      (∀ e ∈ st.entries, e.createdAt < st.clock) ∧ st.row.status ≠ .resolved
  | .lock k => ∀ tx ∈ st.waiting[k]?, tx.write.isUpdate = true →
      ∀ tx' ∈ st.waiting, tx'.write.isNote = false
  | .stamp => ∀ e ∈ st.entries, e.createdAt < st.clock
  | _ => True

instance (st : IncidentTimeline) : (op : TimelineOp) → Decidable (Apart st op)
  | .start w => inferInstanceAs (Decidable (w.isNote = true → (∀ h ∈ st.holder,
      h.write.isUpdate = false) ∧ (∀ e ∈ st.entries, e.createdAt < st.clock) ∧
        st.row.status ≠ .resolved))
  | .lock k => inferInstanceAs (Decidable (∀ tx ∈ st.waiting[k]?, tx.write.isUpdate = true →
      ∀ tx' ∈ st.waiting, tx'.write.isNote = false))
  | .stamp => inferInstanceAs (Decidable (∀ e ∈ st.entries, e.createdAt < st.clock))
  | .tick _ | .commit | .finish _ | .rollback => .isTrue trivial

/-- A note dated `t` with the status of the row fits into the timeline. -/
structure NoteFits (st : IncidentTimeline) (t : Int) : Prop where
  past : t ≤ st.clock
  unresolved : st.row.status ≠ .resolved
  after : ∀ e ∈ st.entries, e.status.rank < st.row.status.rank → e.createdAt < t

/-- Entries are dated up to now, and none is ahead of the row's status. -/
structure TimelineInv (st : IncidentTimeline) : Prop where
  holder : HolderOk st
  dated : ∀ e ∈ st.entries, e.createdAt ≤ st.clock ∧ e.status.rank ≤ st.row.status.rank
  ordered : ∀ e ∈ st.entries, ∀ e' ∈ st.entries, e.status.rank < e'.status.rank →
    e.createdAt < e'.createdAt
  resolved : ∀ r ∈ st.entries, r.resolves → ∀ e ∈ st.entries, e.createdAt ≤ r.createdAt
  notes : ∀ tx ∈ st.waiting, tx.write.isNote = true →
    NoteFits st tx.startedAt ∧ tx.seen = st.row.status ∧ ∀ h ∈ st.holder, h.write.isUpdate = false
  held : ∀ h ∈ st.holder, (h.write.isNote = true → NoteFits st h.startedAt) ∧
    (h.write.isUpdate = true → ∀ asOf ∈ h.asOf, asOf ≤ st.clock ∧
      ∀ e ∈ st.entries, e.createdAt < asOf)

variable {w : TimelineWrite} {e : TimelineEntry} {row : IncidentRow}

theorem noteEntry_eq_some {status : IncidentStatus} {t : Int} (h : noteEntry status t w = some e) :
    w.isNote ∧ e.status = status ∧ e.createdAt = t ∧ e.writer ≠ .opening ∧ e.writer ≠ .update := by
  cases w <;> cases h <;> exact ⟨rfl, rfl, rfl, EntryWriter.noConfusion, EntryWriter.noConfusion⟩

theorem TimelineInv.unresolved (h : TimelineInv st) (hopen : st.row.status ≠ .resolved)
    (he : e ∈ st.entries) : ¬ e.resolves := by
  rintro ⟨hres, _⟩
  have hrank := (h.dated e he).2
  rw [hres] at hrank
  exact hopen (rank_inj (Nat.le_antisymm st.row.status.rank_le_resolved hrank))

theorem TimelineInv.note (h : TimelineInv st) {waiting : List TimelineTx}
    (hstatus : e.status = st.row.status) (hfits : NoteFits st e.createdAt)
    (hwriter : e.writer ≠ .opening ∧ e.writer ≠ .update)
      (hwaiting : ∀ tx ∈ waiting, tx ∈ st.waiting) :
    TimelineInv { st with entries := st.entries ++ [e], waiting, holder := none } := by
  -- the row does not change, and the new entry has its status
  have hfits' {t : Int} (ht : NoteFits st t) :
      NoteFits { st with entries := st.entries ++ [e], waiting, holder := none } t :=
    ⟨ht.past, ht.unresolved,
      forall_mem_concat ht.after fun hlt => absurd hlt (by rw [hstatus]; exact Nat.lt_irrefl _)⟩
  refine ⟨?_, ?_, ?_, ?_, ?_, ?_⟩
  · rintro h' ⟨⟩
  · exact forall_mem_concat h.dated ⟨hfits.past, Nat.le_of_eq (congrArg rank hstatus)⟩
  · refine forall_mem_concat (fun a ha => forall_mem_concat (h.ordered a ha) fun hlt => ?_)
      (forall_mem_concat (fun b hb hlt => ?_) fun hlt => ?_)
    · exact hfits.after a ha (hstatus ▸ hlt)
    · exact absurd hlt (Nat.not_lt.2 (hstatus ▸ (h.dated b hb).2))
    · exact absurd hlt (Nat.lt_irrefl _)
  · refine forall_mem_concat (fun r hr hres => absurd hres (h.unresolved hfits.unresolved hr)) ?_
    rintro ⟨_, hw | hw⟩
    · exact absurd hw hwriter.1
    · exact absurd hw hwriter.2
  · intro tx htx hnote
    obtain ⟨ht, hseen, _⟩ := h.notes tx (hwaiting tx htx) hnote
    exact ⟨hfits' ht, hseen, by rintro h' ⟨⟩⟩
  · rintro h' ⟨⟩

theorem TimelineInv.update (h : TimelineInv st)
    (hopen : st.row.status ≠ .resolved) (hrank : st.row.status.rank ≤ e.status.rank)
    (hrow : row.status = e.status) (hpast : e.createdAt ≤ st.clock)
    (hlast : ∀ e' ∈ st.entries, e'.createdAt < e.createdAt)
    (hwaiting : ∀ tx ∈ st.waiting, tx.write.isNote = false) :
    TimelineInv { st with row, entries := st.entries ++ [e], holder := none } := by
  refine ⟨?_, ?_, ?_, ?_, ?_, ?_⟩
  · rintro h' ⟨⟩
  · refine forall_mem_concat (fun a ha => ⟨(h.dated a ha).1, ?_⟩) ⟨hpast, ?_⟩
    · show a.status.rank ≤ row.status.rank
      rw [hrow]
      exact Nat.le_trans (h.dated a ha).2 hrank
    · exact Nat.le_of_eq (congrArg rank hrow.symm)
  · refine forall_mem_concat (fun a ha => forall_mem_concat (h.ordered a ha) fun _ => hlast a ha)
      (forall_mem_concat (fun b hb hlt => ?_) ?_)
    · exact absurd hlt (Nat.not_lt.2 (Nat.le_trans (h.dated b hb).2 hrank))
    · exact fun hlt => absurd hlt (Nat.lt_irrefl _)
  · refine forall_mem_concat (fun r hr hres => absurd hres (h.unresolved hopen hr)) fun _ => ?_
    exact forall_mem_concat (fun a ha => Int.le_of_lt (hlast a ha)) (Int.le_refl _)
  · intro tx htx hnote
    rw [hwaiting tx htx] at hnote
    cases hnote
  · rintro h' ⟨⟩

theorem TimelineInv.moved (h : TimelineInv st) (hstatus : st'.row.status = st.row.status)
    (hentries : st'.entries = st.entries) (hclock : st.clock ≤ st'.clock) (hholder : HolderOk st')
    (hnotes : ∀ tx ∈ st'.waiting, tx.write.isNote →
      NoteFits st' tx.startedAt ∧ tx.seen = st'.row.status ∧ ∀ h ∈ st'.holder,
        h.write.isUpdate = false)
    (hheld : ∀ h ∈ st'.holder, (h.write.isNote → NoteFits st' h.startedAt) ∧
      (h.write.isUpdate → ∀ asOf ∈ h.asOf,
        asOf ≤ st'.clock ∧ ∀ e ∈ st'.entries, e.createdAt < asOf)) : TimelineInv st' where
  holder := hholder
  dated := by
    rw [hentries, hstatus]
    exact fun e he => ⟨Int.le_trans (h.dated e he).1 hclock, (h.dated e he).2⟩
  ordered := hentries ▸ h.ordered
  resolved := hentries ▸ h.resolved
  notes := hnotes
  held := hheld

theorem NoteFits.congr {t : Int} (h : NoteFits st t) (hstatus : st'.row.status = st.row.status)
    (hentries : st'.entries = st.entries) (hclock : st.clock ≤ st'.clock) : NoteFits st' t where
  past := Int.le_trans h.past hclock
  unresolved := hstatus ▸ h.unresolved
  after := by
    rw [hentries, hstatus]
    exact h.after

theorem TimelineInv.start (h : TimelineInv st) (hok : Apart st (.start w))
    (hst : timelineStep st (.start w) = some st') : TimelineInv st' := by
  have hholder := (timelineStep_forward h.holder hst).2
  simp only [timelineStep, some_inj] at hst
  split at hst
  swap
  · exact hst ▸ h
  subst hst
  refine h.moved rfl rfl (Int.le_refl _) hholder ?_ fun h' hh' => ?_
  · intro tx htx hnote
    rcases mem_concat.1 htx with htx | rfl
    · obtain ⟨hfits, hrest⟩ := h.notes tx htx hnote
      exact ⟨hfits.congr rfl rfl (Int.le_refl _), hrest⟩
    · obtain ⟨hno, hlate, hopen⟩ := hok hnote
      exact ⟨⟨Int.le_refl _, hopen, fun e he _ => hlate e he⟩, rfl, hno⟩
  · obtain ⟨hnote, hupdate⟩ := h.held h' hh'
    exact ⟨fun hn => (hnote hn).congr rfl rfl (Int.le_refl _), hupdate⟩

theorem TimelineInv.lock (h : TimelineInv st) {k : Nat} (hok : Apart st (.lock k))
    (hst : timelineStep st (.lock k) = some st') : TimelineInv st' := by
  have hholder := (timelineStep_forward h.holder hst).2
  obtain ⟨tx, htx, hfree, hcases⟩ := lock_cases hst
  have hmem := mem_of_getElem? htx
  rcases hcases with ⟨status, _, rfl⟩ | rfl
  · refine h.moved rfl rfl (Int.le_refl _) hholder ?_ ?_
    · intro tx' htx' hnote
      have htx' := mem_of_mem_eraseIdx htx'
      obtain ⟨hfits, hseen, _⟩ := h.notes tx' htx' hnote
      refine ⟨hfits.congr rfl rfl (Int.le_refl _), hseen, ?_⟩
      rintro h' ⟨⟩
      -- an update would not have taken the lock while a note is under way
      cases hupd : tx.write.isUpdate with
      | false => rfl
      | true =>
        rw [hok tx htx hupd tx' htx'] at hnote
        cases hnote
    · rintro h' ⟨⟩
      refine ⟨fun hnote => (h.notes tx hmem hnote).1.congr rfl rfl (Int.le_refl _), ?_⟩
      rintro _ asOf ⟨⟩
  · refine h.moved rfl rfl (Int.le_refl _) hholder ?_ ?_
    · intro tx' htx' hnote
      obtain ⟨hfits, hrest⟩ := h.notes tx' (mem_of_mem_eraseIdx htx') hnote
      exact ⟨hfits.congr rfl rfl (Int.le_refl _), hrest⟩
    · intro h' hh'
      cases hfree.symm.trans hh'

theorem TimelineInv.stamp (h : TimelineInv st) (hok : Apart st .stamp)
    (hst : timelineStep st .stamp = some st') : TimelineInv st' := by
  have hholder := (timelineStep_forward h.holder hst).2
  obtain ⟨h₀, hh₀, hnote₀, rfl⟩ := stamp_cases hst
  refine h.moved rfl rfl (Int.le_refl _) hholder ?_ ?_
  · intro tx htx hnote
    obtain ⟨hfits, hseen, hno⟩ := h.notes tx htx hnote
    refine ⟨hfits.congr rfl rfl (Int.le_refl _), hseen, ?_⟩
    rintro h' ⟨⟩
    exact hno h₀ hh₀
  · rintro h' ⟨⟩
    refine ⟨fun hnote => absurd hnote (by rw [hnote₀]; exact Bool.false_ne_true), ?_⟩
    rintro _ asOf ⟨⟩
    exact ⟨Int.le_refl _, hok⟩

theorem TimelineInv.released (h : TimelineInv st)
    (hrow : row.status = st.row.status) : TimelineInv { st with row, holder := none } := by
  refine h.moved hrow rfl (Int.le_refl _) (by rintro h' ⟨⟩) ?_ (by rintro h' ⟨⟩)
  intro tx htx hnote
  obtain ⟨hfits, hseen, _⟩ := h.notes tx htx hnote
  exact ⟨hfits.congr hrow rfl (Int.le_refl _), hseen.trans hrow.symm, by rintro h' ⟨⟩⟩

theorem TimelineInv.commit (h : TimelineInv st) (hst : timelineStep st .commit = some st') :
    TimelineInv st' := by
  obtain ⟨h₀, hh₀, hst⟩ := bind_eq_some_iff.1 hst
  have hholder := h.holder h₀ hh₀
  obtain ⟨hnote₀, hupdate₀⟩ := h.held h₀ hh₀
  rcases commitHolder_cases hst with
    ⟨requested, body, author, asOf, hw, hasOf, rfl⟩ | ⟨who, asOf, _, rfl⟩ | ⟨e, he, rfl⟩
  · have hupd : h₀.write.isUpdate = true := by rw [hw]; rfl
    rw [if_pos hupd] at hholder
    obtain ⟨hpast, hlast⟩ := hupdate₀ hupd asOf hasOf
    refine h.update hholder.1 hholder.2 rfl hpast hlast fun tx htx => ?_
    cases hnote : tx.write.isNote with
    | false => rfl
    | true =>
      rw [(h.notes tx htx hnote).2.2 h₀ hh₀] at hupd
      cases hupd
  · exact h.released rfl
  · obtain ⟨hnote, hstatus, hdate, hwriter⟩ := noteEntry_eq_some he
    rw [TimelineWrite.isUpdate_of_isNote hnote] at hholder
    exact h.note (hstatus.trans hholder) (hdate ▸ hnote₀ hnote) hwriter fun _ => id

theorem TimelineInv.finish (h : TimelineInv st) {k : Nat}
    (hst : timelineStep st (.finish k) = some st') : TimelineInv st' := by
  obtain ⟨tx, e, htx, hfree, he, rfl⟩ := finish_cases hst
  obtain ⟨hnote, hstatus, hdate, hwriter⟩ := noteEntry_eq_some he
  obtain ⟨hfits, hseen, _⟩ := h.notes tx htx hnote
  rw [hfree]
  exact h.note (hstatus.trans hseen) (hdate ▸ hfits) hwriter fun _ => mem_of_mem_eraseIdx

/-- **Every step that keeps notes and updates apart** keeps the timeline in order. -/
theorem timelineStep_inv {op : TimelineOp} (h : TimelineInv st) (hok : Apart st op)
    (hst : timelineStep st op = some st') : TimelineInv st' := by
  cases op with
  | start w => exact h.start hok hst
  | lock k => exact h.lock hok hst
  | stamp => exact h.stamp hok hst
  | commit => exact h.commit hst
  | finish k => exact h.finish hst
  | tick d =>
    have hholder := (timelineStep_forward h.holder hst).2
    cases hst
    have hclock : st.clock ≤ st.clock + (d : Int) := by omega
    refine h.moved rfl rfl hclock hholder ?_ ?_
    · intro tx htx hnote
      obtain ⟨hfits, hrest⟩ := h.notes tx htx hnote
      exact ⟨hfits.congr rfl rfl hclock, hrest⟩
    · intro h' hh'
      obtain ⟨hnote, hupdate⟩ := h.held h' hh'
      refine ⟨fun hn => (hnote hn).congr rfl rfl hclock, ?_⟩
      intro hu asOf hasOf
      obtain ⟨hpast, hlast⟩ := hupdate hu asOf hasOf
      exact ⟨Int.le_trans hpast hclock, hlast⟩
  | rollback =>
    cases hst
    exact h.released rfl

theorem timelineInv_opened (status : IncidentStatus) (body author : String) (at' : Int) :
    TimelineInv (openedIncident status body author at') where
  holder := by rintro h ⟨⟩
  dated := by
    intro e he
    obtain rfl := mem_singleton.1 he
    exact ⟨Int.le_refl _, Nat.le_refl _⟩
  ordered := by
    intro e he e' he' hlt
    obtain rfl := mem_singleton.1 he
    obtain rfl := mem_singleton.1 he'
    exact absurd hlt (Nat.lt_irrefl _)
  resolved := by
    intro r hr _ e he
    obtain rfl := mem_singleton.1 hr
    obtain rfl := mem_singleton.1 he
    exact Int.le_refl _
  notes := by rintro tx ⟨⟩
  held := by rintro h ⟨⟩

theorem TimelineInv.listing (h : TimelineInv st) {l : List TimelineEntry}
    (hl : Listing st.entries l) :
    l.Pairwise fun a b => a.status.rank ≤ b.status.rank := by
  obtain ⟨hperm, hsorted⟩ := hl
  refine hsorted.imp_of_mem ?_
  intro a b ha hb hab
  by_contra hlt
  have hba := h.ordered b (hperm.mem_iff.1 hb) a (hperm.mem_iff.1 ha) (Nat.lt_of_not_le hlt)
  exact absurd hba (Int.not_lt.2 hab)

/-- **Status and timeline of an incident.** The status only moves forward. In every run that keeps
notes and updates apart, every listing by date has the ranks in order, and nothing is dated after
the resolution. -/
theorem timeline_never_regresses (status : IncidentStatus) (body author : String) (at' : Int) :
    (∀ st op st', Reach timelineStep anyStep (openedIncident status body author at') st →
      timelineStep st op = some st' → Forward st.row.status st'.row.status) ∧
    ∀ st, Reach timelineStep Apart (openedIncident status body author at') st →
      (∀ l, Listing st.entries l → l.Pairwise fun a b => a.status.rank ≤ b.status.rank) ∧
        ∀ r ∈ st.entries, r.resolves → ∀ e ∈ st.entries, e.createdAt ≤ r.createdAt := by
  refine ⟨?_, ?_⟩
  · intro st op st' hreach hst
    exact (timelineStep_forward (reach_holderOk hreach) hst).1
  · intro st hreach
    have hinv : TimelineInv st := hreach.invariant (timelineInv_opened status body author at')
      fun _ _ _ hs hok hst => timelineStep_inv hs hok hst
    exact ⟨fun l => hinv.listing, hinv.resolved⟩

end

section

/-- The resolution has read the clock and is not committed when the suppression note reads the
status; the note shows after the resolution. -/
def noteBehindResolution : IncidentTimeline :=
  finalState timelineStep (openedIncident .investigating "Automatically opened: timeout" "auto" 0)
    [.start (.update (some .resolved) "Monitor recovered — automatically resolved." "auto"),
      .lock 0,
      .tick 1, .stamp, .tick 1, .start (.suppressionNote "core switch"), .commit, .finish 0]

/-- **The timeline goes back from resolved to investigating**, and has an entry after the
resolution. -/
theorem timeline_regresses :
    Reach timelineStep anyStep (openedIncident .investigating
      "Automatically opened: timeout" "auto" 0)
        noteBehindResolution ∧
      Listing noteBehindResolution.entries noteBehindResolution.entries ∧
      ¬ (noteBehindResolution.entries.Pairwise fun a b => a.status.rank ≤ b.status.rank) ∧
      ∃ r ∈ noteBehindResolution.entries, r.resolves ∧
        ∃ e ∈ noteBehindResolution.entries, r.createdAt < e.createdAt := by
  refine ⟨reach_finalState fun _ _ _ => trivial, ⟨List.Perm.refl _, ?_⟩, ?_, ?_⟩
  · decide +kernel
  · decide +kernel
  · unfold TimelineEntry.resolves
    decide +kernel

def apartOps : List TimelineOp :=
  [.tick 1, .start (.suppressionNote "core switch"), .finish 0, .tick 1,
    .start (.update (some .identified) "Power failure in the rack." "ops"), .lock 0,
      .stamp, .commit,
    .tick 1, .start (.impactNote "🕸 Impact: affected — checkout."), .lock 0, .commit, .tick 1,
    .start (.acknowledge "ops"), .start (.update (some .resolved) "Power is back." "ops"), .lock 1,
    .stamp, .commit]

theorem timeline_never_regresses_apart :
    ∃ st : IncidentTimeline, (st.entries.length = 5 ∧ st.row.status = .resolved) ∧
      st.entries.Pairwise (fun a b => a.status.rank ≤ b.status.rank) ∧
      ∀ r ∈ st.entries, r.resolves → ∀ e ∈ st.entries, e.createdAt ≤ r.createdAt := by
  have hrun : AllowedRun timelineStep Apart
      (openedIncident .investigating "Automatically opened: timeout" "auto" 0) apartOps := by
    decide +kernel
  have hboth := (timeline_never_regresses .investigating "Automatically opened: timeout" "auto" 0).2
    _ (reach_of_allowedRun hrun)
  refine ⟨_, ⟨?_, ?_⟩, hboth.1 _ ⟨List.Perm.refl _, ?_⟩, hboth.2⟩
  · decide +kernel
  · decide +kernel
  · decide +kernel

end

end Cerbix.Store
