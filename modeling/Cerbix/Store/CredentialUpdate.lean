import Cerbix.Lib.Run
import Cerbix.Lib.Table
import Cerbix.Store.MonitorWrite

/-!
# Concurrent updates of one monitor

`updateMonitor` (`internal/store/monitors.go`) statement by statement, for any number of calls on
one monitor. A call that omits the credential slot reads the stored credential before it takes the
row lock, since the secret rows are locked first. A reference is written into the call's own
configuration there and then, an inline password is read again under the lock: `credential_kept`,
`credential_reverted`.

Others see a transaction's writes when it commits, so `write` and `commit` are the statements after
the row lock. Every failure ends the call and its transaction.
-/

namespace Cerbix.Store

open Cerbix.Lib Cerbix.Domain Option Table Dict

/-- The part of a monitor that an update does not change. -/
structure UpdateTarget where
  type : MonitorType
  slug : String
  fileManaged : Bool
  secretsEnabled : Bool
  idByName : String → Option SecretID

/-- An update as the API gets it. -/
structure UpdateCall where
  config : Settings
  slug : String := ""
  cipher : AtRestCipher

/-- The stored settings and references. -/
structure CredentialRow where
  config : Settings
  refs : Dict String SecretID

/-- The two forms of a credential and the row of its reference. -/
structure Credential where
  password : Option String
  passwordRef : Option String
  refRow : Option SecretID
  deriving DecidableEq, Repr

/-- The credential in force. -/
def CredentialRow.credential (row : CredentialRow) : Credential :=
  ⟨row.config.get? "password", row.config.get? "password_ref", row.refs.get? "password_ref"⟩

variable (t : UpdateTarget)

/-- The credential that a call itself brings. -/
def UpdateTarget.setCredential (call : UpdateCall) : Credential :=
  ⟨(call.config.get? "password").map call.cipher.encrypt, call.config.get? "password_ref",
    ((monitorRefSettings t.type call.config).get? "password_ref").bind t.idByName⟩

/-- The call leaves the slot out. -/
def UpdateTarget.omits (call : UpdateCall) : Bool :=
  credentialUpdateOmitsSlot t.type call.config

def UpdateTarget.createMonitor (call : UpdateCall) : Except MonitorWriteError CredentialRow := do
  let config ← prepareCreate t.type call.config
  let bindings ← monitorSecretBindings t.secretsEnabled t.idByName t.type config
  let stored ← marshalConfig call.cipher config
  return ⟨stored, bindings⟩

/-! ## The statements of an update -/

/-- How far a transaction is, with what it computed so far. -/
inductive UpdateStage
  | begun (config : Settings) (preserve : Bool)
  | read (config : Settings) (preserveInline : Bool)
  | bound (config : Settings) (preserveInline : Bool) (bindings : Dict String SecretID)
  /-- `atLock` is the credential in force when the row was locked. -/
  | locked (config : Settings) (preserveInline : Bool) (bindings : Dict String SecretID)
    (atLock : Credential)
  | written (row : CredentialRow) (atLock : Credential)

abbrev TxID := Nat

/-- An update on its way. -/
structure UpdateTx where
  id : TxID
  call : UpdateCall
  stage : UpdateStage

/-- A committed update, with what it found under the lock. -/
structure UpdateCommit where
  call : UpdateCall
  atLock : Credential
  after : Credential

/-- The row, who holds its lock, and the updates on their way. -/
structure UpdateState where
  row : CredentialRow
  holder : Option TxID
  active : Table UpdateTx.id
  commits : List UpdateCommit

def UpdateState.initial (row : CredentialRow) : UpdateState := ⟨row, none, .empty, []⟩

/-- The statements of updates, in any interleaving. -/
inductive UpdateOp
  | begin (id : TxID) (call : UpdateCall)
  | readStored (id : TxID)
  | resolve (id : TxID)
  | lock (id : TxID)
  | write (id : TxID)
  | commit (id : TxID)
  | abort (id : TxID)

namespace UpdateState

def setStage (st : UpdateState) (id : TxID) (stage : UpdateStage) : UpdateState :=
  { st with
    active := st.active.update (fun tx => tx.id = id) (fun tx => { tx with stage }) fun _ => rfl }

def finish (st : UpdateState) (id : TxID) : UpdateState :=
  { st with
    active := st.active.delete fun tx => tx.id = id
    holder := if st.holder = some id then none else st.holder }

end UpdateState

/-- The checks that are made under the lock. -/
def checkLocked (call : UpdateCall) : Except MonitorWriteError Unit := do
  refuseIf t.fileManaged .managedByFile
  refuseIf (call.slug ≠ "" && call.slug ≠ t.slug) (.slugImmutable t.slug call.slug)

namespace UpdateTarget

variable (t : UpdateTarget) (st : UpdateState)

/-- A call whose settings are refused leaves nothing. -/
def beginStep (id : TxID) (call : UpdateCall) : Option UpdateState :=
  if (st.active.get id).isSome then none
  else match prepareUpdate t.type call.config with
    | .error _ => some st
    | .ok (config, preserve) =>
      some { st with active := st.active.insertNew ⟨id, call, .begun config preserve⟩ }

/-- The unlocked read of the stored credential. -/
def readStep (tx : UpdateTx) : Option UpdateState :=
  match tx.stage with
  | .begun config preserve =>
    match restoreCredential st.row.config config preserve with
    | .error _ => some (st.finish tx.id)
    | .ok (config, preserveInline) => some (st.setStage tx.id (.read config preserveInline))
  | _ => none

/-- The references are looked up. -/
def resolveStep (tx : UpdateTx) : Option UpdateState :=
  match tx.stage with
  | .read config preserveInline =>
    match monitorSecretBindings t.secretsEnabled t.idByName t.type config with
    | .error _ => some (st.finish tx.id)
    | .ok bindings => some (st.setStage tx.id (.bound config preserveInline bindings))
  | _ => none

/-- The row is locked, if nobody holds it. -/
def lockStep (tx : UpdateTx) : Option UpdateState :=
  match tx.stage with
  | .bound config preserveInline bindings =>
    if st.holder.isSome then none
    else match checkLocked t tx.call with
      | .error _ => some (st.finish tx.id)
      | .ok _ => some { st.setStage tx.id
            (.locked config preserveInline bindings st.row.credential) with holder := some tx.id }
  | _ => none

/-- The stored secret is read again, under the lock. -/
def writeStep (tx : UpdateTx) : Option UpdateState :=
  match tx.stage with
  | .locked config preserveInline bindings atLock =>
    match marshalConfigForUpdate tx.call.cipher st.row.config config preserveInline with
    | .error _ => some (st.finish tx.id)
    | .ok stored => some (st.setStage tx.id (.written ⟨stored, bindings⟩ atLock))
  | _ => none

/-- The row is replaced and the lock is free. -/
def commitStep (tx : UpdateTx) : Option UpdateState :=
  match tx.stage with
  | .written row atLock => some { st.finish tx.id with
      row
      commits := st.commits ++ [⟨tx.call, atLock, row.credential⟩] }
  | _ => none

def updateStep : UpdateOp → Option UpdateState
  | .begin id call => t.beginStep st id call
  | .readStored id => (st.active.get id).bind (readStep st)
  | .resolve id => (st.active.get id).bind (t.resolveStep st)
  | .lock id => (st.active.get id).bind (t.lockStep st)
  | .write id => (st.active.get id).bind (writeStep st)
  | .commit id => (st.active.get id).bind (commitStep st)
  | .abort id => (st.active.get id).map fun tx => st.finish tx.id

/-- The reference that a call restored is still stored. -/
def CarriesStored (tx : UpdateTx) : Prop :=
  match tx.stage with
  | .bound config false _ => t.omits tx.call = true →
      st.row.config.get? "password_ref" = config.get? "password_ref"
  | _ => True

instance (st : UpdateState) (tx : UpdateTx) : Decidable (t.CarriesStored st tx) := by
  unfold CarriesStored
  split <;> infer_instance

/-- A call that carries a reference finds it still stored when it takes the row lock. -/
def RefStillStored : UpdateOp → Prop
  | .lock id => ∀ tx ∈ st.active.get id, t.CarriesStored st tx
  | _ => True

instance (st : UpdateState) (op : UpdateOp) : Decidable (t.RefStillStored st op) := by
  cases op with
  | lock id => exact inferInstanceAs (Decidable (∀ tx ∈ st.active.get id, t.CarriesStored st tx))
  | _ => exact .isTrue trivial

/-- The credential of the last committed update that set one, `first` if there is none. -/
def lastSet (first : Credential) : List UpdateCommit → Credential
  | [] => first
  | c :: rest => lastSet (if t.omits c.call then first else t.setCredential c.call) rest

/-- No committed update reverted a change of the credential. -/
structure CredentialKept (first : Credential) (st : UpdateState) : Prop where
  kept : ∀ c ∈ st.commits, t.omits c.call = true → c.after = c.atLock
  last : st.row.credential = t.lastSet first st.commits

theorem lastSet_concat (c : UpdateCommit) : ∀ (commits : List UpdateCommit) (first : Credential),
    t.lastSet first (commits ++ [c]) =
      if t.omits c.call then t.lastSet first commits else t.setCredential c.call := by
  intro commits
  induction commits with
  | nil => exact fun first => rfl
  | cons d commits ih => exact fun first => ih _

end UpdateTarget

/-! ## What the transactions hold -/

section

variable {t : UpdateTarget}

/-- One slot at most is set, and the reference is the one its name says. -/
structure CredentialRow.WF (t : UpdateTarget) (row : CredentialRow) : Prop where
  exclusive : row.config.contains "password" → row.config.contains "password_ref" → False
  bound : row.refs.get? "password_ref" = (row.config.get? "password_ref").bind t.idByName

/-- A configuration that a call prepared, with the credential that it restored. -/
inductive Restored (t : UpdateTarget) (call : UpdateCall) : Settings → Bool → Prop
  | own {config : Settings} (h : prepareUpdate t.type call.config = .ok (config, false)) :
      Restored t call config false
  | inline {config : Settings} (h : prepareUpdate t.type call.config = .ok (config, true)) :
      Restored t call config true
  | ref {config : Settings} {name : String} (hname : name ≠ "")
      (h : prepareUpdate t.type call.config = .ok (config, true)) :
      Restored t call (config.set "password_ref" name) false

/-- What an update will store: the credential of a call that sets one, or the one that is there. -/
structure WriteWF (t : UpdateTarget) (call : UpdateCall) (row : CredentialRow)
    (atLock : Credential) : Prop where
  wf : credentialedType t.type = true → row.WF t
  sets : t.omits call = false → row.credential = t.setCredential call
  keeps : t.omits call = true → row.credential = atLock

/-- What a stage says about the call and, once the row is locked, about the stored row. -/
inductive StageWF (t : UpdateTarget) (st : UpdateState) (id : TxID) (call : UpdateCall) :
    UpdateStage → Prop
  | begun {config : Settings} {preserve : Bool}
      (h : prepareUpdate t.type call.config = .ok (config, preserve)) :
      StageWF t st id call (.begun config preserve)
  | read {config : Settings} {preserveInline : Bool} (h : Restored t call config preserveInline) :
      StageWF t st id call (.read config preserveInline)
  | bound {config : Settings} {preserveInline : Bool} {bindings : Dict String SecretID}
      (h : Restored t call config preserveInline)
      (hb : monitorSecretBindings t.secretsEnabled t.idByName t.type config = .ok bindings) :
      StageWF t st id call (.bound config preserveInline bindings)
  | locked {config : Settings} {preserveInline : Bool} {bindings : Dict String SecretID}
      (h : Restored t call config preserveInline)
      (hb : monitorSecretBindings t.secretsEnabled t.idByName t.type config = .ok bindings)
      (held : st.holder = some id)
      (same : t.omits call = true → preserveInline = false →
        st.row.config.get? "password_ref" = config.get? "password_ref") :
      StageWF t st id call (.locked config preserveInline bindings st.row.credential)
  | written {row : CredentialRow} (h : WriteWF t call row st.row.credential)
      (held : st.holder = some id) : StageWF t st id call (.written row st.row.credential)

/-- The row, every update on its way and the commits are well formed. -/
structure UpdateInv (t : UpdateTarget) (first : Credential) (st : UpdateState) : Prop where
  row : credentialedType t.type = true → st.row.WF t
  staged : ∀ id tx, st.active.get id = some tx → StageWF t st id tx.call tx.stage
  kept : t.CredentialKept first st

variable {call : UpdateCall} {config : Settings} {preserve : Bool} {stored : Settings}
  {row : CredentialRow}

theorem omits_of_prepareUpdate
    (h : prepareUpdate t.type call.config = .ok (config, preserve)) : t.omits call = preserve :=
  (prepareUpdate_eq_ok h).1.symm

theorem prepareUpdate_password (h : prepareUpdate t.type call.config = .ok (config, preserve)) :
    config.get? "password" = call.config.get? "password" ∧
      config.get? "password_ref" = call.config.get? "password_ref" := by
  obtain ⟨-, hget, -⟩ := prepareUpdate_eq_ok h
  exact ⟨hget _ (.inl rfl), hget _ (.inr (by decide +kernel))⟩

theorem refSetting_congr {typ : MonitorType} {c d : Settings}
    (h : c.get? "password_ref" = d.get? "password_ref") :
    (monitorRefSettings typ c).get? "password_ref" =
      (monitorRefSettings typ d).get? "password_ref" := by
  have hno : ∀ (family : BindingFamily), family = canaryFamily ∨ family = scenarioFamily →
      ∀ e : Settings, ¬BindingFamily.Binds family typ e "password_ref" := by
    rintro family hfamily e ⟨-, hkey, -⟩
    have hsome := (BindingFamily.mem_refKeys.1 hkey).2
    rcases hfamily with rfl | rfl <;> revert hsome <;> decide +kernel
  have hvalue : c.value "password_ref" = d.value "password_ref" := by
    unfold Settings.value
    rw [h]
  rw [get?_monitorRefSettings, get?_monitorRefSettings, hvalue,
    if_neg (not_or.2 ⟨hno _ (.inl rfl) c, hno _ (.inr rfl) c⟩),
    if_neg (not_or.2 ⟨hno _ (.inl rfl) d, hno _ (.inr rfl) d⟩)]

variable {bindings : Dict String SecretID}

theorem bindings_password_ref (htyp : credentialedType t.type)
    (hb : monitorSecretBindings t.secretsEnabled t.idByName t.type config = .ok bindings)
    (hnamed : config.get? "password_ref" ≠ some "") :
    bindings.get? "password_ref" = (config.get? "password_ref").bind t.idByName := by
  rw [(get?_monitorSecretBindings hb _).1, get?_monitorRefSettings_password_ref htyp hnamed]

open CredentialRow

theorem rowWF_of_exclusive (htyp : credentialedType t.type)
    (hb : monitorSecretBindings t.secretsEnabled t.idByName t.type config = .ok bindings)
    (hnamed : config.get? "password_ref" ≠ some "")
    (href : stored.get? "password_ref" = config.get? "password_ref")
    (hex : stored.get? "password" = none ∨ config.get? "password_ref" = none) :
    WF t ⟨stored, bindings⟩ where
  exclusive hv hr := by
    rcases hex with hnone | hnone
    · simp [contains, hnone] at hv
    · simp [contains, href, hnone] at hr
  bound := (bindings_password_ref htyp hb hnamed).trans (by rw [href])

theorem password_ref_not_encrypted : "password_ref" ∉ encryptedMonitorConfigKeys := by decide

theorem wf_createMonitor (h : t.createMonitor call = .ok row)
    (htyp : credentialedType t.type) : row.WF t := by
  obtain ⟨config, hconfig, h⟩ := bind_eq_ok.1 h
  obtain ⟨bindings, hb, h⟩ := bind_eq_ok.1 h
  obtain ⟨stored, hstored, h⟩ := bind_eq_ok.1 h
  obtain rfl : (⟨stored, bindings⟩ : CredentialRow) = row := by simpa [pure, Except.pure] using h
  unfold prepareCreate at hconfig
  rw [if_pos htyp] at hconfig
  have hwf := (prepareCredentialSettings_eq_ok (mapError_eq_ok.1 hconfig)).2
  refine rowWF_of_exclusive htyp hb hwf.named_ne
    (get?_marshalConfig hstored password_ref_not_encrypted) ?_
  refine (none_or_of_exclusive hwf.exclusive).imp_left fun hnone => ?_
  rw [marshalConfig_eq_ok hstored, hnone]
  rfl

/-- **What is written under the row lock** is the call's own credential, or the one in force. -/
theorem writeWF {preserveInline : Bool}
    (hrow : credentialedType t.type → row.WF t) (h : Restored t call config preserveInline)
    (hb : monitorSecretBindings t.secretsEnabled t.idByName t.type config = .ok bindings)
    (same : t.omits call → preserveInline = false →
      row.config.get? "password_ref" = config.get? "password_ref")
    (hm : marshalConfigForUpdate call.cipher row.config config preserveInline = .ok stored) :
    WriteWF t call ⟨stored, bindings⟩ row.credential := by
  obtain ⟨hother, hpw, hold⟩ := marshalConfigForUpdate_eq_ok hm
  have href : stored.get? "password_ref" = config.get? "password_ref" :=
    hother _ password_ref_not_encrypted
  cases h with
  | own h =>
    have homits := omits_of_prepareUpdate h
    obtain ⟨hcpw, hcref⟩ := prepareUpdate_password h
    rw [if_neg Bool.false_ne_true] at hpw
    refine ⟨fun htyp => ?_, fun _ => ?_, fun ho => ?_⟩
    · have hslot := (prepareUpdate_eq_ok h).2.2 htyp
      refine rowWF_of_exclusive htyp hb hslot.named_ne href ?_
      refine (none_or_of_exclusive hslot.exclusive).imp_left fun hnone => ?_
      rw [hpw, hnone]
      rfl
    · unfold credential UpdateTarget.setCredential
      rw [hpw, href, hcpw, hcref, (get?_monitorSecretBindings hb _).1, refSetting_congr hcref]
    · rw [homits] at ho
      cases ho
  | inline h =>
    have homits := omits_of_prepareUpdate h
    have htyp := credentialedType_of_omits homits
    have hnone := get?_of_omits homits
    obtain ⟨-, hcref⟩ := prepareUpdate_password h
    rw [if_pos rfl] at hpw
    have hcnone : config.get? "password_ref" = none := hcref.trans hnone.2
    have hnamed : config.get? "password_ref" ≠ some "" := by
      rw [hcnone]
      exact nofun
    have hrownone : row.config.get? "password_ref" = none := by
      refine (none_or_of_exclusive (hrow htyp).exclusive).resolve_left fun hg => hold rfl ?_
      rw [Settings.value, hg]
      rfl
    refine ⟨fun _ => rowWF_of_exclusive htyp hb hnamed href (.inr hcnone),
      fun ho => ?_, fun _ => ?_⟩
    · rw [homits] at ho
      cases ho
    · unfold credential
      rw [hpw, href, bindings_password_ref htyp hb hnamed, hcnone, (hrow htyp).bound, hrownone]
  | @ref prepared name hname h =>
    have homits := omits_of_prepareUpdate h
    have htyp := credentialedType_of_omits homits
    have hnone := get?_of_omits homits
    have hcref : (prepared.set "password_ref" name).get? "password_ref" = some name := by
      rw [get?_set, if_pos rfl]
    have hcpw : (prepared.set "password_ref" name).get? "password" = none := by
      rw [get?_set, if_neg (by decide), (prepareUpdate_password h).1, hnone.1]
    have hrowref : row.config.get? "password_ref" = some name := (same homits rfl).trans hcref
    have hnamed : (prepared.set "password_ref" name).get? "password_ref" ≠ some "" := by
      rw [hcref]
      exact fun h => hname (some.inj h)
    have hrowpw : row.config.get? "password" = none := by
      refine (none_or_of_exclusive (hrow htyp).exclusive).resolve_right ?_
      rw [hrowref]
      exact nofun
    rw [hcpw] at hpw
    refine ⟨fun _ => rowWF_of_exclusive htyp hb hnamed href (.inl hpw), fun ho => ?_, fun _ => ?_⟩
    · rw [homits] at ho
      cases ho
    · unfold credential
      rw [hpw, href, bindings_password_ref htyp hb hnamed, hcref, hrowpw,
        (hrow htyp).bound, hrowref]
      rfl

end

/-! ## Steps -/

section

variable {t : UpdateTarget} {first : Credential} {st st' : UpdateState} {id j : TxID}
  {tx tx' : UpdateTx} {stage : UpdateStage}

theorem of_get_setStage (h : (st.setStage id stage).active.get j = some tx') :
    (j = id ∧ ∃ tx, st.active.get id = some tx ∧ tx' = { tx with stage }) ∨
      (j ≠ id ∧ st.active.get j = some tx') := by
  unfold UpdateState.setStage at h
  rw [get_update] at h
  obtain ⟨tx, htx, rfl⟩ := map_eq_some_iff.1 h
  have hid := key_of_get htx
  by_cases hj : j = id
  · subst hj
    refine .inl ⟨rfl, tx, htx, ?_⟩
    rw [if_pos (by simp [hid])]
  · refine .inr ⟨hj, ?_⟩
    rw [if_neg (by simpa [hid] using hj)]
    exact htx

theorem of_get_finish (h : (st.finish id).active.get j = some tx) :
    j ≠ id ∧ st.active.get j = some tx := by
  unfold UpdateState.finish at h
  rw [get_delete, filter_eq_some_iff] at h
  have hid := key_of_get h.1
  refine ⟨fun hj => ?_, h.1⟩
  simp [hid, hj] at h

variable {call : UpdateCall}

theorem StageWF.unlocked (h : StageWF t st j call stage)
    (hfree : st.holder ≠ some j) : StageWF t st' j call stage := by
  cases h with
  | begun h => exact .begun h
  | read h => exact .read h
  | bound h hb => exact .bound h hb
  | locked _ _ held _ => exact absurd held hfree
  | written _ held => exact absurd held hfree

theorem StageWF.frame (h : StageWF t st j call stage) (hrow : st'.row = st.row)
    (hholder : st.holder = some j → st'.holder = some j) : StageWF t st' j call stage := by
  by_cases hfree : st.holder = some j
  · cases h with
    | begun h => exact .begun h
    | read h => exact .read h
    | bound h hb => exact .bound h hb
    | locked h hb held same =>
      rw [← hrow] at same ⊢
      exact .locked h hb (hholder held) same
    | written h held =>
      rw [← hrow] at h ⊢
      exact .written h (hholder held)
  · exact h.unlocked hfree

namespace UpdateInv

theorem setStage (h : UpdateInv t first st) (hget : st.active.get id = some tx)
    {stage : UpdateStage}
    (hstage : StageWF t st id tx.call stage) : UpdateInv t first (st.setStage id stage) where
  row := h.row
  staged := by
    intro j tx' htx'
    rcases of_get_setStage htx' with ⟨rfl, tx₀, htx₀, rfl⟩ | ⟨-, htx'⟩
    · obtain rfl := some.inj (hget.symm.trans htx₀)
      exact hstage.frame rfl fun hh => hh
    · exact (h.staged j tx' htx').frame rfl fun hh => hh
  kept := ⟨h.kept.kept, h.kept.last⟩

theorem finish (h : UpdateInv t first st) (id : TxID) : UpdateInv t first (st.finish id) where
  row := h.row
  staged := by
    intro j tx htx
    obtain ⟨hj, htx⟩ := of_get_finish htx
    refine (h.staged j tx htx).frame rfl fun hh => ?_
    show (if st.holder = some id then none else st.holder) = some j
    rw [if_neg, hh]
    rw [hh]
    exact fun heq => hj (some.inj heq)
  kept := ⟨h.kept.kept, h.kept.last⟩

variable {call : UpdateCall}

theorem begin (h : UpdateInv t first st)
    (hst : t.beginStep st id call = some st') : UpdateInv t first st' := by
  unfold UpdateTarget.beginStep at hst
  split at hst
  · cases hst
  split at hst
  · cases hst
    exact h
  next config preserve hprep =>
  cases hst
  refine ⟨h.row, fun j tx htx => ?_, ⟨h.kept.kept, h.kept.last⟩⟩
  rw [get_insertNew, or_eq_some_iff] at htx
  rcases htx with htx | ⟨-, htx⟩
  · exact (h.staged j tx htx).frame rfl fun hh => hh
  · split at htx
    · cases htx
      exact .begun hprep
    · cases htx

theorem restored {stored prepared config : Settings} {preserve preserveInline : Bool}
    (hprep : prepareUpdate t.type call.config = .ok (prepared, preserve))
    (h : restoreCredential stored prepared preserve = .ok (config, preserveInline)) :
    Restored t call config preserveInline := by
  unfold restoreCredential at h
  split at h
  · next hno =>
    obtain ⟨rfl, rfl⟩ : prepared = config ∧ false = preserveInline := by simpa using h
    rw [Bool.not_eq_true'] at hno
    subst hno
    exact .own hprep
  next hyes =>
  simp only [Bool.not_eq_true', Bool.not_eq_false] at hyes
  subst hyes
  dsimp only at h
  split at h
  · next hname =>
    obtain ⟨rfl, rfl⟩ : prepared.set "password_ref" (storedCredential stored).1 = config ∧
        false = preserveInline := by simpa using h
    exact .ref hname hprep
  · split at h
    · obtain ⟨rfl, rfl⟩ : prepared = config ∧ true = preserveInline := by simpa using h
      exact .inline hprep
    · cases h

theorem readStored (h : UpdateInv t first st) (hget : st.active.get id = some tx)
    (hst : UpdateTarget.readStep st tx = some st') : UpdateInv t first st' := by
  have hid := key_of_get hget
  have hwf := h.staged id tx hget
  unfold UpdateTarget.readStep at hst
  split at hst
  · next prepared preserve hstage =>
    rw [hstage] at hwf
    cases hwf with
    | begun hprep =>
    split at hst
    · cases hst
      exact h.finish _
    · next config preserveInline hrestore =>
      cases hst
      rw [hid]
      exact h.setStage hget (.read (restored hprep hrestore))
  · cases hst

theorem resolve (h : UpdateInv t first st) (hget : st.active.get id = some tx)
    (hst : t.resolveStep st tx = some st') : UpdateInv t first st' := by
  have hid := key_of_get hget
  have hwf := h.staged id tx hget
  unfold UpdateTarget.resolveStep at hst
  split at hst
  · next config preserveInline hstage =>
    rw [hstage] at hwf
    cases hwf with
    | read hrest =>
    split at hst
    · cases hst
      exact h.finish _
    · next bindings hb =>
      cases hst
      rw [hid]
      exact h.setStage hget (.bound hrest hb)
  · cases hst

theorem lock (h : UpdateInv t first st) (hget : st.active.get id = some tx)
    (hok : t.CarriesStored st tx) (hst : t.lockStep st tx = some st') : UpdateInv t first st' := by
  have hid := key_of_get hget
  have hwf := h.staged id tx hget
  unfold UpdateTarget.lockStep at hst
  split at hst
  · next config preserveInline bindings hstage =>
    rw [hstage] at hwf
    cases hwf with
    | bound hrest hb =>
    split at hst
    · cases hst
    next hfree =>
    have hnone : ∀ j, st.holder ≠ some j := fun j hj => hfree (by rw [hj]; rfl)
    split at hst
    · cases hst
      exact h.finish _
    cases hst
    rw [hid]
    refine ⟨h.row, fun j tx' htx' => ?_, ⟨h.kept.kept, h.kept.last⟩⟩
    rcases of_get_setStage htx' with ⟨rfl, tx₀, htx₀, rfl⟩ | ⟨-, htx'⟩
    · obtain rfl := some.inj (hget.symm.trans htx₀)
      refine StageWF.locked hrest hb rfl fun homits hinline => ?_
      unfold UpdateTarget.CarriesStored at hok
      rw [hstage, hinline] at hok
      exact hok homits
    · exact (h.staged j tx' htx').unlocked (hnone j)
  · cases hst

theorem write (h : UpdateInv t first st) (hget : st.active.get id = some tx)
    (hst : UpdateTarget.writeStep st tx = some st') : UpdateInv t first st' := by
  have hid := key_of_get hget
  have hwf := h.staged id tx hget
  unfold UpdateTarget.writeStep at hst
  split at hst
  · next config preserveInline bindings atLock hstage =>
    rw [hstage] at hwf
    cases hwf with
    | locked hrest hb held same =>
    split at hst
    · cases hst
      exact h.finish _
    · next stored hm =>
      cases hst
      rw [hid]
      exact h.setStage hget (.written (writeWF h.row hrest hb same hm) held)
  · cases hst

theorem commit (h : UpdateInv t first st) (hget : st.active.get id = some tx)
    (hst : UpdateTarget.commitStep st tx = some st') : UpdateInv t first st' := by
  have hid := key_of_get hget
  have hwf := h.staged id tx hget
  unfold UpdateTarget.commitStep at hst
  split at hst
  · next row atLock hstage =>
    rw [hstage] at hwf
    cases hwf with
    | written hw held =>
    cases hst
    rw [hid]
    refine ⟨hw.wf, fun j tx' htx' => ?_, ⟨fun c hc homits => ?_, ?_⟩⟩
    · obtain ⟨hj, htx'⟩ := of_get_finish htx'
      refine (h.staged j tx' htx').unlocked ?_
      rw [held]
      exact fun heq => hj (some.inj heq).symm
    · rcases mem_concat.1 hc with hc | rfl
      · exact h.kept.kept c hc homits
      · exact hw.keeps homits
    · show row.credential = t.lastSet first (st.commits ++ [⟨tx.call, _, row.credential⟩])
      rw [UpdateTarget.lastSet_concat]
      by_cases homits : t.omits tx.call = true
      · rw [if_pos homits, hw.keeps homits]
        exact h.kept.last
      · rw [if_neg homits]
        exact hw.sets (Bool.eq_false_of_not_eq_true homits)
  · cases hst

end UpdateInv

theorem updateStep_inv {op : UpdateOp} (h : UpdateInv t first st) (hok : t.RefStillStored st op)
    (hst : t.updateStep st op = some st') : UpdateInv t first st' := by
  cases op with
  | begin id call => exact h.begin hst
  | readStored id =>
    obtain ⟨tx, hget, hst⟩ := bind_eq_some_iff.1 hst
    exact h.readStored hget hst
  | resolve id =>
    obtain ⟨tx, hget, hst⟩ := bind_eq_some_iff.1 hst
    exact h.resolve hget hst
  | lock id =>
    obtain ⟨tx, hget, hst⟩ := bind_eq_some_iff.1 hst
    exact h.lock hget (hok tx hget) hst
  | write id =>
    obtain ⟨tx, hget, hst⟩ := bind_eq_some_iff.1 hst
    exact h.write hget hst
  | commit id =>
    obtain ⟨tx, hget, hst⟩ := bind_eq_some_iff.1 hst
    exact h.commit hget hst
  | abort id =>
    obtain ⟨tx, -, rfl⟩ := map_eq_some_iff.1 hst
    exact h.finish _

end

/-! ## A reference that stays stored -/

/-- No update commits. -/
def NoCommit (_ : UpdateState) : UpdateOp → Prop
  | .commit _ => False
  | _ => True

/-- What a call has restored so far is what is stored. -/
def FromStored (t : UpdateTarget) (stored : Settings) (call : UpdateCall) : UpdateStage → Prop
  | .begun config preserve => prepareUpdate t.type call.config = .ok (config, preserve)
  | .read config false | .bound config false _ => t.omits call = true →
      stored.get? "password_ref" = config.get? "password_ref"
  | _ => True

/-- The stored settings, and what the call under the id restored of them. -/
structure Carried (t : UpdateTarget) (id : TxID) (stored : Settings) (st : UpdateState) : Prop where
  row : st.row.config = stored
  stage : ∀ tx, st.active.get id = some tx → FromStored t stored tx.call tx.stage

section

variable {t : UpdateTarget} {st st' : UpdateState} {id j : TxID} {tx : UpdateTx}
  {stored config : Settings} {stage : UpdateStage}

theorem fromStored_restored {call : UpdateCall} {prepared : Settings} {preserve inline : Bool}
    (hprep : prepareUpdate t.type call.config = .ok (prepared, preserve))
    (h : restoreCredential stored prepared preserve = .ok (config, inline)) :
    FromStored t stored call (.read config inline) := by
  cases inline with
  | true => trivial
  | false =>
    intro homits
    obtain rfl : preserve = true := (prepareUpdate_eq_ok hprep).1.trans homits
    unfold restoreCredential at h
    simp only [Bool.not_true, Bool.false_eq_true, if_false] at h
    split at h
    · next hname =>
      obtain rfl : prepared.set "password_ref" (storedCredential stored).1 = config := by
        simpa using h
      have hvalue : (stored.get? "password_ref").getD "" ≠ "" := hname
      rw [get?_set, if_pos rfl]
      cases hget : stored.get? "password_ref" with
      | none => simp [hget] at hvalue
      | some name => simp [storedCredential, Settings.value, hget]
    · split at h <;> cases h

theorem Carried.setStage (h : Carried t id stored st)
    (hstage : j = id → ∀ tx, st.active.get j = some tx → FromStored t stored tx.call stage) :
    Carried t id stored (st.setStage j stage) := by
  refine ⟨h.row, fun tx htx => ?_⟩
  rcases of_get_setStage htx with ⟨hj, tx₀, htx₀, rfl⟩ | ⟨-, htx⟩
  · exact hstage hj.symm tx₀ htx₀
  · exact h.stage tx htx

theorem Carried.finish (h : Carried t id stored st) (j : TxID) :
    Carried t id stored (st.finish j) :=
  ⟨h.row, fun tx htx => h.stage tx (of_get_finish htx).2⟩

theorem Carried.begin {call : UpdateCall} (h : Carried t id stored st)
    (hst : t.beginStep st j call = some st') : Carried t id stored st' := by
  unfold UpdateTarget.beginStep at hst
  split at hst
  · cases hst
  split at hst
  · cases hst
    exact h
  next config preserve hprep =>
  cases hst
  refine ⟨h.row, fun tx htx => ?_⟩
  rw [get_insertNew, or_eq_some_iff] at htx
  rcases htx with htx | ⟨-, htx⟩
  · exact h.stage tx htx
  · split at htx
    · cases htx
      exact hprep
    · cases htx

theorem Carried.readStored (h : Carried t id stored st) (hget : st.active.get j = some tx)
    (hst : UpdateTarget.readStep st tx = some st') : Carried t id stored st' := by
  unfold UpdateTarget.readStep at hst
  split at hst
  · next prepared preserve hstage =>
    split at hst
    · cases hst
      exact h.finish _
    next config inline hrestore =>
    cases hst
    rw [key_of_get hget]
    refine h.setStage fun hid tx' htx' => ?_
    obtain rfl := some.inj (hget.symm.trans htx')
    have hprep := h.stage tx (hid ▸ hget)
    rw [hstage] at hprep
    exact fromStored_restored hprep (h.row ▸ hrestore)
  · cases hst

theorem Carried.resolve (h : Carried t id stored st) (hget : st.active.get j = some tx)
    (hst : t.resolveStep st tx = some st') : Carried t id stored st' := by
  unfold UpdateTarget.resolveStep at hst
  split at hst
  · next config inline hstage =>
    split at hst
    · cases hst
      exact h.finish _
    cases hst
    rw [key_of_get hget]
    refine h.setStage fun hid tx' htx' => ?_
    obtain rfl := some.inj (hget.symm.trans htx')
    have hread := h.stage tx (hid ▸ hget)
    rw [hstage] at hread
    cases inline with
    | true => trivial
    | false => exact hread
  · cases hst

theorem Carried.lock (h : Carried t id stored st) (hst : t.lockStep st tx = some st') :
    Carried t id stored st' := by
  unfold UpdateTarget.lockStep at hst
  split at hst
  · next config inline bindings _ =>
    split at hst
    · cases hst
    split at hst
    · cases hst
      exact h.finish _
    · cases hst
      have hset : Carried t id stored
          (st.setStage tx.id (.locked config inline bindings st.row.credential)) :=
        h.setStage fun _ _ _ => trivial
      exact ⟨hset.row, hset.stage⟩
  · cases hst

theorem Carried.write (h : Carried t id stored st) (hst : UpdateTarget.writeStep st tx = some st') :
    Carried t id stored st' := by
  unfold UpdateTarget.writeStep at hst
  split at hst
  · split at hst
    · cases hst
      exact h.finish _
    · cases hst
      exact h.setStage fun _ _ _ => trivial
  · cases hst

theorem Carried.step {op : UpdateOp} (h : Carried t id stored st) (hok : NoCommit st op)
    (hst : t.updateStep st op = some st') : Carried t id stored st' := by
  cases op with
  | begin j call => exact h.begin hst
  | readStored j =>
    obtain ⟨tx, hget, hst⟩ := bind_eq_some_iff.1 hst
    exact h.readStored hget hst
  | resolve j =>
    obtain ⟨tx, hget, hst⟩ := bind_eq_some_iff.1 hst
    exact h.resolve hget hst
  | lock j =>
    obtain ⟨tx, -, hst⟩ := bind_eq_some_iff.1 hst
    exact h.lock hst
  | write j =>
    obtain ⟨tx, -, hst⟩ := bind_eq_some_iff.1 hst
    exact h.write hst
  | commit j => exact False.elim hok
  | abort j =>
    obtain ⟨tx, -, rfl⟩ := map_eq_some_iff.1 hst
    exact h.finish _

/-- **The order that keeps a restored reference stored**: no update commits between the read of the
stored credential and the row lock. -/
theorem carriesStored_of_noCommit {first : Credential} {st₁ st₂ : UpdateState}
    (h : UpdateInv t first st) (hread : t.updateStep st (.readStored id) = some st₁)
    (hrun : Reach t.updateStep NoCommit st₁ st₂) (hget : st₂.active.get id = some tx) :
    t.CarriesStored st₂ tx := by
  have hbefore : Carried t id st.row.config st := by
    refine ⟨rfl, fun tx₀ htx₀ => ?_⟩
    have hwf := h.staged id tx₀ htx₀
    obtain ⟨tx₁, htx₁, hst⟩ := bind_eq_some_iff.1 hread
    obtain rfl := some.inj (htx₀.symm.trans htx₁)
    unfold UpdateTarget.readStep at hst
    split at hst
    · next hstage =>
      rw [hstage] at hwf ⊢
      cases hwf with
      | begun hprep => exact hprep
    · cases hst
  have hno : NoCommit st (.readStored id) := trivial
  have hcarried : Carried t id st.row.config st₂ :=
    hrun.invariant (hbefore.step hno hread) fun _ _ _ hs hok hst => hs.step hok hst
  have hstage := hcarried.stage tx hget
  unfold UpdateTarget.CarriesStored
  split
  · next hbound =>
    rw [hbound] at hstage
    rw [hcarried.row]
    exact hstage
  · trivial

end

/-- **An update that omits the slot keeps the credential** in force when it took the row lock, in
every interleaving in which a call that carries a reference finds it still stored there. -/
theorem credential_kept {t : UpdateTarget} {call : UpdateCall} {row : CredentialRow}
    (hcreate : t.createMonitor call = .ok row) {st : UpdateState}
    (h : Reach t.updateStep t.RefStillStored (.initial row) st) :
    t.CredentialKept row.credential st := by
  have hinit : UpdateInv t row.credential (.initial row) :=
    ⟨wf_createMonitor hcreate, fun _ _ h => (by cases h), ⟨fun _ hc => (by cases hc), rfl⟩⟩
  exact (h.invariant (I := UpdateInv t row.credential) hinit
    fun _ _ _ hinv hok hst => updateStep_inv hinv hok hst).kept

def postgresTarget : UpdateTarget where
  type := .postgres
  slug := "db"
  fileManaged := false
  secretsEnabled := true
  idByName name := if name = "first" then some 1 else if name = "second" then some 2 else none

def postgresCall (slot : List (String × String)) : UpdateCall where
  config := ofList ([("username", "probe"), ("database", "app")] ++ slot)
  cipher := some fun s => "enc:v1:" ++ s

/-- Update 1 omits the slot, update 2 names another secret and commits before update 1 takes the row
lock. -/
def replacedBeforeLock : List UpdateOp :=
  [.begin 1 (postgresCall []), .readStored 1, .resolve 1,
    .begin 2 (postgresCall [("password_ref", "second")]), .readStored 2, .resolve 2, .lock 2,
    .write 2, .commit 2, .lock 1, .write 1, .commit 1]

/-- **A partial update can revert a credential change**: update 1 writes the reference it read
before update 2 committed its own. -/
theorem credential_reverted : ∃ row st,
    postgresTarget.createMonitor (postgresCall [("password_ref", "first")]) = .ok row ∧
      Reach postgresTarget.updateStep anyStep (.initial row) st ∧
      ¬postgresTarget.CredentialKept row.credential st ∧
      st.commits.map (fun c => (c.atLock.passwordRef, c.after.passwordRef, c.after.refRow)) =
        [(some "first", some "second", some 2), (some "second", some "first", some 1)] := by
  let row : CredentialRow :=
    (postgresTarget.createMonitor (postgresCall [("password_ref", "first")])).toOption.getD
      ⟨.empty, .empty⟩
  refine ⟨row, finalState postgresTarget.updateStep (.initial row) replacedBeforeLock, ?_,
    reach_finalState fun _ _ _ => trivial, fun h => ?_, ?_⟩
  · rfl
  · have hlast := h.last
    revert hlast
    decide +kernel
  · decide +kernel

/-- An update that omits the slot starts after the other has committed, and keeps what that one set.
-/
theorem credential_kept_after_commit :
    ∃ row st, Reach postgresTarget.updateStep postgresTarget.RefStillStored (.initial row) st ∧
      postgresTarget.CredentialKept row.credential st ∧
      st.row.credential = ⟨none, some "second", some 2⟩ ∧ st.commits.length = 2 := by
  let row : CredentialRow :=
    (postgresTarget.createMonitor (postgresCall [("password_ref", "first")])).toOption.getD
      ⟨.empty, .empty⟩
  let ops : List UpdateOp :=
    [.begin 1 (postgresCall []), .begin 2 (postgresCall [("password_ref", "second")]),
      .readStored 2, .resolve 2, .lock 2, .write 2, .commit 2, .readStored 1, .resolve 1, .lock 1,
      .write 1, .commit 1]
  have hreach : Reach postgresTarget.updateStep postgresTarget.RefStillStored (.initial row)
      (finalState postgresTarget.updateStep (.initial row) ops) :=
    reach_of_allowedRun (by decide +kernel)
  have hcreate : postgresTarget.createMonitor (postgresCall [("password_ref", "first")]) =
      .ok row := rfl
  exact ⟨row, _, hreach, credential_kept hcreate hreach,
    by decide +kernel, by decide +kernel⟩

end Cerbix.Store
