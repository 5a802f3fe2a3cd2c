import Cerbix.FileProvider.Plan
import Cerbix.Lib.Run
import Cerbix.Lib.Table
import Cerbix.Store.Edges

/-!
# Writes to the monitor dependency graph

The two writers of `monitor_dependencies`, each one step under the project's lock:
`ReplaceMonitorDependencies` (`internal/store/dependencies.go`), which walks up from the new parents
for at most ten edges, and the apply of a file bundle (`applyBundleTx` in `fileapply.go`), whose own
dependencies are acyclic.

A chain of more than ten edges hides the child from a replacement's walk; and an apply compares only
the parents the provider itself manages, so an edge of the bundle can close a cycle over one that it
keeps. `not_acyclic_capped_nor_kept` shows both, `monitorGraph_acyclic` what holds without them.
-/

namespace Cerbix.Store

open Cerbix.Lib Cerbix.Domain Cerbix.FileProvider List Table

/-- A monitor, as far as its dependencies are concerned. -/
structure MonitorRow where
  id : String
  type : MonitorType
  enabled : Bool
  deriving DecidableEq

/-- What makes a monitor that of a file provider. -/
structure ManagedRow where
  monitorID : String
  providerID : String
  sourceUID : String
  specHash : String
  orphanedAt : Option Int
  deriving DecidableEq

/-- The monitors of a project and their dependencies. -/
structure ProjectStore where
  monitors : Table MonitorRow.id
  managed : Table ManagedRow.monitorID
  edges : Edges

/-- Why a write of dependencies is refused. -/
inductive MonitorGraphError
  | cycle
  | foreign
  | malformed
  | constraint
  | unresolved (dep uid : String)
  | bundle (e : BundleError)
  deriving DecidableEq

def MonitorGraphError.message : MonitorGraphError → String
  | .cycle => "store: dependency would create a cycle"
  | .foreign => "store: dependency parents must be monitors of the same project"
  | .malformed => "store: check dependency parents"
  | .constraint => "store: insert dependency"
  | .unresolved dep uid => "store: dependency " ++ dep.quote ++ " unresolved for " ++ uid.quote
  | .bundle e => e.error

def dependencyDepthCap : Nat := 10

/-- One `INSERT INTO monitor_dependencies`, refused by the primary key, the check or a
foreign key. -/
def insertDependency (monitorID : String) (st : ProjectStore) (parent : String) :
    Except MonitorGraphError ProjectStore := do
  refuseIf (parent = monitorID ∨ DependsOn st.edges monitorID parent ∨
    (st.monitors.get monitorID).isNone ∨ (st.monitors.get parent).isNone) .constraint
  pure { st with edges := st.edges ++ [(monitorID, parent)] }

variable (st : ProjectStore)

/-- Write the parents one by one in the place of the old ones. -/
def writeParents (monitorID : String) (parents : List String) :
    Except MonitorGraphError ProjectStore :=
  parents.foldlM (insertDependency monitorID) { st with edges := clearParents st.edges monitorID }

def namedMonitors (monitorID : String) (parents : List String) : List String :=
  (st.monitors.rows.filter fun m => m.id ∈ parents ∧ m.id ≠ monitorID).map MonitorRow.id

/-- The parents are other monitors of the project. -/
def checkMonitorParents (monitorID : String) (parents : List String) :
    Except MonitorGraphError Unit :=
  if parents = [] then .ok () else do
  refuseIf ("" ∈ parents) .malformed
  refuseIf ((namedMonitors st monitorID parents).length ≠ (dedupe parents).length) .foreign
  refuseIf (monitorID ∈ reachedWithin (parentsOf st.edges) dependencyDepthCap parents) .cycle

/-- The write of the API. -/
def replaceMonitorDependencies (monitorID : String) (parents : List String) :
    Except MonitorGraphError ProjectStore := do
  checkMonitorParents st monitorID parents
  writeParents st monitorID (dedupe parents)

/-! ## The apply of a bundle -/

/-- An apply of a provider's bundle. -/
structure ApplyRequest where
  providerID : String
  desired : DesiredProject
  /-- The id that the database makes for the monitor of a UID. -/
  newID : String → String
  dbNow : Int
  orphanGrace : Int
  maxManaged : Int
  ownedElsewhere : Nat
  allowAbsence : Bool

def sortUniq (uids : List String) : List String := uids.dedup.insertionSort (· ≤ ·)

/-- The UIDs of the parents that the same provider owns. -/
def managedParents (row : ManagedRow) : List String :=
  (parentsOf st.edges row.monitorID).filterMap fun p =>
    ((st.managed.get p).filter fun r => r.providerID = row.providerID).map ManagedRow.sourceUID

/-- The monitors that a provider owns. -/
def readManagedSet (providerID : String) : List (ManagedRow × MonitorRow) :=
  (st.managed.rows.filter fun r => r.providerID = providerID).filterMap fun r =>
    (st.monitors.get r.monitorID).map fun m => (r, m)

def currentMonitor (e : ManagedRow × MonitorRow) : CurrentMonitor :=
  { uid := e.1.sourceUID
    type := e.2.type
    hash := e.1.specHash
    dependsOn := sortUniq (managedParents st e.1)
    orphaned := e.1.orphanedAt.isSome }

/-- The ids of the owned monitors. -/
def idsByUID (owned : List (ManagedRow × MonitorRow)) : Dict String String :=
  .ofList (owned.map fun e => (e.1.sourceUID, e.1.monitorID))

variable (req : ApplyRequest)

/-- An apply may not create more monitors than are allowed. -/
def checkQuota (owned : Nat) (entries : List PlanEntry) : Except MonitorGraphError Unit :=
  let creates := (entries.filter fun e => e.action = .create).length
  let total := req.ownedElsewhere + owned + creates
  refuseIf (0 < req.maxManaged ∧ 0 < creates ∧ req.maxManaged < (total : Int))
    (.bundle ⟨.quotaExceeded, "", "provider would own " ++ toString total ++
      " monitors, over max_managed_monitors=" ++ toString req.maxManaged⟩)

def setEnabled (id : String) (enabled : Bool) : ProjectStore :=
  { st with
    monitors := st.monitors.update (fun m => m.id = id) (fun m => { m with enabled }) fun _ => rfl }

def setProvenance (id hash : String) : ProjectStore :=
  { st with
    managed := st.managed.update (fun r => r.monitorID = id)
      (fun r => { r with specHash := hash, orphanedAt := none }) fun _ => rfl }

def clearOrphan (id : String) : ProjectStore :=
  { st with
    managed := st.managed.update (fun r => r.monitorID = id)
      (fun r => { r with orphanedAt := none }) fun _ => rfl }

/-- An orphan keeps the time it was first missed. -/
def markOrphan (id : String) (now : Int) : ProjectStore :=
  { st with
    managed := st.managed.update (fun r => r.monitorID = id ∧ r.orphanedAt = none)
      (fun r => { r with orphanedAt := some now }) fun _ => rfl }

/-- Create the monitor of a UID. -/
def createManaged (st : ProjectStore) (uid : String) (dm : DesiredMonitor) :
    Except MonitorGraphError ProjectStore := do
  let id := req.newID uid
  refuseIf ((st.monitors.get id).isSome ∨ (st.managed.get id).isSome ∨ ∃ r ∈ st.managed.rows,
    r.providerID = req.providerID ∧ r.sourceUID = uid) .constraint
  pure { st with
    monitors := st.monitors.insertNew ⟨id, dm.type, dm.enabled⟩
    managed := st.managed.insertNew ⟨id, req.providerID, uid, dm.hash, none⟩ }

/-- Bring an owned monitor to what the bundle wants. -/
def updateManaged (id : String) (dm : DesiredMonitor) : ProjectStore :=
  setProvenance (setEnabled st id dm.enabled) id dm.hash

/-- The monitor and the provenance of one entry, with the id of each UID so far. -/
def applyEntry (owned : List (ManagedRow × MonitorRow))
    (acc : ProjectStore × Dict String String) (e : PlanEntry) :
    Except MonitorGraphError (ProjectStore × Dict String String) :=
  let (st, idByUID) := acc
  let id := (idByUID.get? e.uid).getD ""
  match e.action, req.desired.get? e.uid with
  | .create, some dm => do
    let st' ← createManaged req st e.uid dm
    pure (st', idByUID.set e.uid (req.newID e.uid))
  | .update, some dm => pure (updateManaged st id dm, idByUID)
  | .restore, some dm =>
    let was := owned.find? fun r => r.1.sourceUID = e.uid
    if (was.map fun r => (r.2.enabled, r.1.specHash)) ≠ some (dm.enabled, dm.hash) then
      pure (updateManaged st id dm, idByUID)
    else pure (clearOrphan st id, idByUID)
  | .orphan, _ => pure (if req.allowAbsence then markOrphan st id req.dbNow else st, idByUID)
  | _, _ => pure (st, idByUID)

/-- The owned monitors that have been orphans for longer than the grace. -/
def graced (owned : List (ManagedRow × MonitorRow)) : List String :=
  if req.allowAbsence ∧ 0 ≤ req.orphanGrace then
    (owned.filter fun e => e.2.enabled && !req.desired.contains e.1.sourceUID &&
      (e.1.orphanedAt.any fun t => req.orphanGrace ≤ req.dbNow - t)).map fun e => e.1.monitorID
  else []

/-- Write the dependencies that the bundle wants for an entry. -/
def assertEdges (idByUID : Dict String String) (st : ProjectStore)
    (e : PlanEntry) : Except MonitorGraphError ProjectStore :=
  if !e.reassert then .ok st else
  match idByUID.get? e.uid with
  | none => .error .malformed
  | some id => do
    let parents ← (req.desired.depsOf e.uid).mapM fun dep =>
      match idByUID.get? dep with
      | some pid => .ok pid
      | none => .error (.unresolved dep e.uid)
    writeParents st id parents

/-- The plan of an apply in this state. -/
def planOf (req : ApplyRequest) : Except BundleError (List PlanEntry) :=
  plan req.desired ((readManagedSet st req.providerID).map (currentMonitor st))

/-- `Apply`. -/
def applyBundle (req : ApplyRequest) : Except MonitorGraphError ProjectStore := do
  (checkDependencyDAG req.desired).mapError .bundle
  let owned := readManagedSet st req.providerID
  let entries ← (planOf st req).mapError .bundle
  checkQuota req owned.length entries
  let (applied, idByUID) ← entries.foldlM (applyEntry req owned) (st, idsByUID owned)
  let disabled := (graced req owned).foldl (fun st id => setEnabled st id false) applied
  entries.foldlM (assertEdges req idByUID) disabled

/-- The writes of dependencies. -/
inductive MonitorGraphOp
  | replace (monitorID : String) (parents : List String)
  | apply (req : ApplyRequest)

/-- A write that is refused is no step. -/
def monitorGraphStep : MonitorGraphOp → Option ProjectStore
  | .replace monitorID parents => (replaceMonitorDependencies st monitorID parents).toOption
  | .apply req => (applyBundle st req).toOption

/-- The provider owns the monitor under the UID. -/
def Owns (providerID uid id : String) : Prop :=
  ∃ row, st.managed.get id = some row ∧ row.providerID = providerID ∧ row.sourceUID = uid

/-- The constraints of `managed_monitors`: its monitors exist, and a provider has one monitor under
a UID. -/
structure ProjectStore.Coherent (st : ProjectStore) : Prop where
  exists_monitor : ∀ id, (st.managed.get id).isSome → (st.monitors.get id).isSome
  unique : ∀ p uid id id', Owns st p uid id → Owns st p uid id' → id = id'

/-- The apply writes the dependencies of the UID. -/
def rewrites (req : ApplyRequest) (uid : String) : Bool :=
  match planOf st req with
  | .ok entries => entries.any fun e => e.uid = uid && e.reassert
  | .error _ => false

/-- Each cycle that a write could close is short enough for the check to see. -/
def withinReach : MonitorGraphOp → Prop
  | .replace monitorID parents => ∀ p ∈ parents, ∀ n, Walk (DependsOn st.edges) n p monitorID →
      ∃ k ≤ dependencyDepthCap, Walk (DependsOn st.edges) k p monitorID
  | .apply req => ∀ uid id, Owns st req.providerID uid id → req.desired.contains uid = true →
      rewrites st req uid = false → ∀ p ∈ parentsOf st.edges id, ∃ w, Owns st req.providerID w p

/-! ## What the writes do to the edges -/

section

variable {st st' : ProjectStore} {monitorID : String} {parents : List String}

theorem foldlM_insertDependency :
    ∀ {st st' : ProjectStore}, parents.foldlM (insertDependency monitorID) st = .ok st' →
      st' = { st with edges := st.edges ++ parents.map fun p => (monitorID, p) } := by
  induction parents with
  | nil =>
    intro st st' h
    cases h
    simp
  | cons p ps ih =>
    intro st st' h
    obtain ⟨mid, hmid, hrest⟩ := bind_eq_ok.1 h
    obtain ⟨⟨⟩, -, hpure⟩ := bind_eq_ok.1 hmid
    cases hpure
    rw [ih hrest]
    simp

theorem writeParents_ok (h : writeParents st monitorID parents = .ok st') :
    st' = { st with edges := replaceParents st.edges monitorID parents } :=
  foldlM_insertDependency h

theorem named_ne {p : String} (hmalformed : "" ∉ parents)
    (hnamed : (namedMonitors st monitorID parents).length = (dedupe parents).length)
    (hp : p ∈ parents) : p ≠ monitorID := by
  have hmem {x : String} (hx : x ∈ namedMonitors st monitorID parents) :
      x ∈ parents ∧ x ≠ monitorID := by
    simp only [namedMonitors, mem_map, mem_filter, decide_eq_true_eq] at hx
    obtain ⟨m, ⟨-, hm⟩, rfl⟩ := hx
    exact hm
  have hnonempty {x : String} (hx : x ∈ parents) : x ≠ "" := fun h => hmalformed (h ▸ hx)
  have hnodup : (namedMonitors st monitorID parents).Nodup :=
    st.monitors.keyed.sublist (filter_sublist.map MonitorRow.id)
  have hall := (length_eq_iff_forall_mem hnodup (dedupe_nodup parents) fun x hx =>
    mem_dedupe.2 ⟨(hmem hx).1, hnonempty (hmem hx).1⟩).1 hnamed
  exact (hmem (hall p (mem_dedupe.2 ⟨hp, hnonempty hp⟩))).2

/-- **A replacement keeps the graph acyclic** if its walk is long enough to meet the child. -/
theorem replaceMonitorDependencies_acyclic (hst : Acyclic (DependsOn st.edges))
    (hreach : withinReach st (.replace monitorID parents))
    (h : replaceMonitorDependencies st monitorID parents = .ok st') :
    Acyclic (DependsOn st'.edges) := by
  obtain ⟨⟨⟩, hcheck, hwrite⟩ := bind_eq_ok.1 h
  rw [writeParents_ok hwrite, dependsOn_replaceParents, acyclic_replaceOut_iff hst]
  intro p hp
  have hp := (mem_dedupe.1 hp).1
  rw [checkMonitorParents, if_neg (ne_nil_of_mem hp)] at hcheck
  simp only [bind_eq_ok, refuseIf_eq_ok, decide_eq_false_iff_not, not_not] at hcheck
  obtain ⟨-, hmalformed, -, hnamed, hwalk⟩ := hcheck
  have hne : p ≠ monitorID := named_ne hmalformed hnamed hp
  intro m hw
  obtain ⟨k, hk, hshort⟩ := hreach p hp m hw
  cases k with
  | zero => exact hne hshort.eq_of_zero
  | succ k =>
    apply hwalk
    rw [mem_reachedWithin, dependsOn_next]
    exact ⟨k, hk, p, hp, hshort⟩

variable {req : ApplyRequest} {idByUID : Dict String String} {entries : List PlanEntry}

/-- The edges after a plan's entries were asserted: those of a rewritten monitor are the bundle's,
every other monitor has its own. -/
theorem foldlM_assertEdges (h : entries.foldlM (assertEdges req idByUID) st = .ok st')
    {a b : String} (hab : DependsOn st'.edges a b) :
    (∃ e ∈ entries, e.reassert ∧ idByUID.get? e.uid = some a ∧
      ∃ dep ∈ req.desired.depsOf e.uid, idByUID.get? dep = some b) ∨
    (DependsOn st.edges a b ∧ ∀ e ∈ entries, e.reassert → idByUID.get? e.uid ≠ some a) := by
  induction entries generalizing st with
  | nil =>
    cases h
    exact .inr ⟨hab, fun e he => (not_mem_nil he).elim⟩
  | cons e es ih =>
    obtain ⟨mid, hmid, hrest⟩ := bind_eq_ok.1 h
    rcases ih hrest with ⟨e', he', hnew⟩ | ⟨hold, hothers⟩
    · exact .inl ⟨e', mem_cons_of_mem e he', hnew⟩
    unfold assertEdges at hmid
    split at hmid
    · next hkept =>
      cases hmid
      refine .inr ⟨hold, ?_⟩
      intro e' he' hre
      rcases mem_cons.1 he' with rfl | he'
      · simp [hre] at hkept
      · exact hothers e' he' hre
    · next hre =>
      split at hmid
      · cases hmid
      rename_i id hid
      obtain ⟨parents, hparents, hwrite⟩ := bind_eq_ok.1 hmid
      rw [writeParents_ok hwrite, dependsOn_replaceParents] at hold
      rcases hold with ⟨rfl, hb⟩ | ⟨hne, hold⟩
      · obtain ⟨dep, hdep, hresolved⟩ := exists_of_mem_mapM hparents hb
        refine .inl ⟨e, mem_cons_self, by simpa using hre, hid, dep, hdep, ?_⟩
        split at hresolved
        · next pid hpid =>
          cases hresolved
          exact hpid
        · cases hresolved
      · refine .inr ⟨hold, ?_⟩
        intro e' he' hre'
        rcases mem_cons.1 he' with rfl | he'
        · rw [hid]
          rintro ⟨⟩
          exact hne rfl
        · exact hothers e' he' hre'

theorem foldlM_assertEdges_rows (h : entries.foldlM (assertEdges req idByUID) st = .ok st') :
    st'.monitors = st.monitors ∧ st'.managed = st.managed := by
  refine foldlM_invariant (I := fun t => t.monitors = st.monitors ∧ t.managed = st.managed) ?_
    ⟨rfl, rfl⟩ h
  intro e _ t t' ht hstep
  unfold assertEdges at hstep
  split at hstep
  · cases hstep
    exact ht
  · split at hstep
    · cases hstep
    obtain ⟨parents, -, hwrite⟩ := bind_eq_ok.1 hstep
    rw [writeParents_ok hwrite]
    exact ht

end

/-! ## What an apply does to the provenance -/

section

variable {st st' : ProjectStore} {req : ApplyRequest}

/-- A write that leaves the edges, the monitors' ids and the owners as they are. -/
structure SameOwners (st st' : ProjectStore) : Prop where
  edges : st'.edges = st.edges
  monitors : ∀ id, (st'.monitors.get id).isSome = (st.monitors.get id).isSome
  managed : ∀ id, (st'.managed.get id).map (fun r => (r.providerID, r.sourceUID)) =
    (st.managed.get id).map fun r => (r.providerID, r.sourceUID)

variable {p uid id : String}

theorem owns_iff : Owns st p uid id ↔
      (st.managed.get id).map (fun r => (r.providerID, r.sourceUID)) = some (p, uid) := by
  simp [Owns]

theorem SameOwners.refl (st : ProjectStore) : SameOwners st st := ⟨rfl, fun _ => rfl, fun _ => rfl⟩

theorem SameOwners.trans {st'' : ProjectStore} (h : SameOwners st st') (h' : SameOwners st' st'') :
    SameOwners st st'' :=
  ⟨h'.edges.trans h.edges, fun id => (h'.monitors id).trans (h.monitors id),
    fun id => (h'.managed id).trans (h.managed id)⟩

theorem SameOwners.owns (h : SameOwners st st') : Owns st' p uid id ↔ Owns st p uid id := by
  rw [owns_iff, owns_iff, h.managed]

theorem SameOwners.coherent (h : SameOwners st st') (hst : st.Coherent) : st'.Coherent where
  exists_monitor id hid := by
    rw [h.monitors]
    apply hst.exists_monitor
    rw [← Option.isSome_map (f := fun r => (r.providerID, r.sourceUID)), ← h.managed,
      Option.isSome_map]
    exact hid
  unique p uid id id' hid hid' := hst.unique p uid id id' (h.owns.1 hid) (h.owns.1 hid')

theorem sameOwners_setEnabled (id : String) (enabled : Bool) :
    SameOwners st (setEnabled st id enabled) := by
  refine ⟨rfl, fun x => ?_, fun _ => rfl⟩
  rw [setEnabled, get_update, Option.isSome_map]

theorem sameOwners_updateManaged {q : ManagedRow → Bool} {f : ManagedRow → ManagedRow}
    {hf : ∀ r, (f r).monitorID = r.monitorID}
    (howner : ∀ r, (f r).providerID = r.providerID ∧ (f r).sourceUID = r.sourceUID) :
    SameOwners st { st with managed := st.managed.update q f hf } := by
  refine ⟨rfl, fun _ => rfl, fun id => ?_⟩
  rw [get_update, Option.map_map]
  congr 1
  funext r
  by_cases hq : q r <;> simp [hq, howner]

theorem sameOwners_update (id : String) (dm : DesiredMonitor) :
    SameOwners st (updateManaged st id dm) :=
  (sameOwners_setEnabled id dm.enabled).trans (sameOwners_updateManaged fun _ => ⟨rfl, rfl⟩)

theorem sameOwners_disable (ids : List String) :
    SameOwners st (ids.foldl (fun st id => setEnabled st id false) st) := by
  induction ids generalizing st with
  | nil => exact .refl st
  | cons id ids ih => exact (sameOwners_setEnabled id false).trans ih

/-- The ids that an apply has collected are those that the provider owns. -/
def IdsOf (req : ApplyRequest) (acc : ProjectStore × Dict String String) : Prop :=
  ∀ uid id, acc.2.get? uid = some id ↔ Owns acc.1 req.providerID uid id

/-- What the entries of a plan do to the provenance so far. -/
structure Applied (req : ApplyRequest) (st : ProjectStore)
    (acc : ProjectStore × Dict String String) :
    Prop where
  coherent : acc.1.Coherent
  ids : IdsOf req acc
  edges : acc.1.edges = st.edges
  owns : ∀ uid id, Owns st req.providerID uid id → Owns acc.1 req.providerID uid id

variable {idByUID : Dict String String} {mid : ProjectStore} {providerID : String}

theorem Applied.same (h : Applied req st (mid, idByUID)) (hsame : SameOwners mid st') :
    Applied req st (st', idByUID) where
  coherent := hsame.coherent h.coherent
  ids uid id := (h.ids uid id).trans hsame.owns.symm
  edges := hsame.edges.trans h.edges
  owns uid id hown := hsame.owns.2 (h.owns uid id hown)

theorem Applied.create {dm : DesiredMonitor}
    (h : Applied req st (mid, idByUID)) (hcreate : createManaged req mid uid dm = .ok st') :
    Applied req st (st', idByUID.set uid (req.newID uid)) := by
  obtain ⟨⟨⟩, hfree, hpure⟩ := bind_eq_ok.1 hcreate
  cases hpure
  simp only [refuseIf_eq_ok, decide_eq_false_iff_not, not_or, Option.not_isSome_iff_eq_none,
    not_exists, not_and] at hfree
  obtain ⟨-, hmanaged, huid⟩ := hfree
  -- Every old row stays, and the new one is the only one under the new id.
  have howns {p w id : String} :
      Owns { mid with
        monitors := mid.monitors.insertNew ⟨req.newID uid, dm.type, dm.enabled⟩
        managed := mid.managed.insertNew ⟨req.newID uid, req.providerID, uid, dm.hash, none⟩ }
        p w id ↔ Owns mid p w id ∨ (id = req.newID uid ∧ p = req.providerID ∧ w = uid) := by
    rw [owns_iff, owns_iff, get_insertNew]
    by_cases hid : req.newID uid = id
    · subst hid
      rw [hmanaged]
      simp [eq_comm]
    · cases hget : mid.managed.get id <;> simp [hid, Ne.symm hid]
  have hfresh {w id : String} (hown : Owns mid req.providerID w id) : w ≠ uid := by
    rintro rfl
    obtain ⟨row, hrow, hp, hu⟩ := hown
    exact huid row (get_eq_some_iff.1 hrow).1 hp hu
  refine ⟨⟨?_, ?_⟩, ?_, h.edges, ?_⟩
  · intro id hid
    rw [get_insertNew] at hid ⊢
    rw [Option.isSome_or] at hid ⊢
    rcases Bool.or_eq_true_iff.1 hid with hold | hnew
    · rw [h.coherent.exists_monitor id hold, Bool.true_or]
    · by_cases hid' : req.newID uid = id
      · simp [hid']
      · simp [hid'] at hnew
  · intro p w id id' hid hid'
    rcases howns.1 hid with hold | ⟨hnew, hp, hw⟩
    · rcases howns.1 hid' with hold' | ⟨-, hp, hw⟩
      · exact h.coherent.unique p w id id' hold hold'
      · exact absurd hw (hfresh (hp ▸ hold))
    · rcases howns.1 hid' with hold' | ⟨hnew', -, -⟩
      · exact absurd hw (hfresh (hp ▸ hold'))
      · exact hnew.trans hnew'.symm
  · intro w id
    rw [howns, Dict.get?_set]
    split
    · next hw =>
      subst hw
      constructor
      · rintro ⟨⟩
        exact .inr ⟨rfl, rfl, rfl⟩
      · rintro (hown | ⟨rfl, -, -⟩)
        · exact absurd rfl (hfresh hown)
        · rfl
    · next hw =>
      rw [h.ids]
      simp [hw]
  · intro w id hown
    exact howns.2 (.inl (h.owns w id hown))

/-- **One entry of a plan**, step by step over the actions. -/
theorem Applied.entry {owned : List (ManagedRow × MonitorRow)}
    {acc acc' : ProjectStore × Dict String String}
    {e : PlanEntry} (h : Applied req st acc) (hentry : applyEntry req owned acc e = .ok acc') :
    Applied req st acc' := by
  unfold applyEntry at hentry
  simp only at hentry
  split at hentry
  · obtain ⟨st', hcreate, hpure⟩ := bind_eq_ok.1 hentry
    cases hpure
    exact h.create hcreate
  · cases hentry
    exact h.same (sameOwners_update _ _)
  · split at hentry
    · cases hentry
      exact h.same (sameOwners_update _ _)
    · cases hentry
      exact h.same (sameOwners_updateManaged fun _ => ⟨rfl, rfl⟩)
  · cases hentry
    split
    · exact h.same (sameOwners_updateManaged fun _ => ⟨rfl, rfl⟩)
    · exact h
  · cases hentry
    exact h

theorem mem_readManagedSet {e : ManagedRow × MonitorRow} : e ∈ readManagedSet st providerID ↔
      e.1 ∈ st.managed.rows ∧ e.1.providerID = providerID ∧
        st.monitors.get e.1.monitorID = some e.2 := by
  obtain ⟨r, m⟩ := e
  simp only [readManagedSet, mem_filterMap, mem_filter, decide_eq_true_eq,
    Option.map_eq_some_iff, Prod.mk.injEq]
  constructor
  · rintro ⟨r', ⟨hr, hp⟩, m', hm, rfl, rfl⟩
    exact ⟨hr, hp, hm⟩
  · rintro ⟨hr, hp, hm⟩
    exact ⟨r, ⟨hr, hp⟩, m, hm, rfl, rfl⟩

theorem exists_mem_readManagedSet (hst : st.Coherent) :
    (∃ e ∈ readManagedSet st providerID, e.1.sourceUID = uid ∧ e.1.monitorID = id) ↔
      Owns st providerID uid id := by
  constructor
  · rintro ⟨e, he, rfl, rfl⟩
    obtain ⟨hrow, hp, -⟩ := mem_readManagedSet.1 he
    exact ⟨e.1, get_of_mem hrow, hp, rfl⟩
  · rintro ⟨row, hrow, hp, hu⟩
    obtain ⟨m, hm⟩ := Option.isSome_iff_exists.1 (hst.exists_monitor id (by rw [hrow]; rfl))
    obtain ⟨hmem, rfl⟩ := get_eq_some_iff.1 hrow
    exact ⟨(row, m), mem_readManagedSet.2 ⟨hmem, hp, hm⟩, hu, rfl⟩

theorem Applied.start (hst : st.Coherent) (req : ApplyRequest) :
    Applied req st (st, idsByUID (readManagedSet st req.providerID)) where
  coherent := hst
  ids uid id := by
    have hlisted {w : String} : (uid, w) ∈ (readManagedSet st req.providerID).map
        (fun e => (e.1.sourceUID, e.1.monitorID)) ↔ Owns st req.providerID uid w := by
      rw [← exists_mem_readManagedSet hst]
      simp
    constructor
    · intro h
      exact hlisted.1 (Dict.mem_of_get?_ofList h)
    · intro h
      exact Dict.get?_ofList_of_unique (hlisted.2 h) fun w hw =>
        hst.unique _ _ w id (hlisted.1 hw) h
  edges := rfl
  owns _ _ h := h

theorem mem_sortUniq {uids : List String} {x : String} : x ∈ sortUniq uids ↔ x ∈ uids := by
  rw [sortUniq, (perm_insertionSort _ _).mem_iff, mem_dedup]

theorem mem_managedParents {row : ManagedRow} {w : String}
    (hp : p ∈ parentsOf st.edges row.monitorID) (hown : Owns st row.providerID w p) :
    w ∈ managedParents st row := by
  obtain ⟨r, hr, hprov, rfl⟩ := hown
  refine mem_filterMap.2 ⟨p, hp, ?_⟩
  rw [hr]
  simp [Option.filter, hprov]

/-- The stages of an apply that succeeds. -/
structure ApplyRun (st : ProjectStore) (req : ApplyRequest) (st' : ProjectStore) where
  entries : List PlanEntry
  idByUID : Dict String String
  before : ProjectStore
  dag : checkDependencyDAG req.desired = .ok ()
  planned : planOf st req = .ok entries
  applied : Applied req st (before, idByUID)
  asserted : entries.foldlM (assertEdges req idByUID) before = .ok st'

theorem applyBundle_ok (hst : st.Coherent) (h : applyBundle st req = .ok st') :
    Nonempty (ApplyRun st req st') := by
  obtain ⟨⟨⟩, hdag, h⟩ := bind_eq_ok.1 h
  obtain ⟨entries, hplan, h⟩ := bind_eq_ok.1 h
  obtain ⟨⟨⟩, -, h⟩ := bind_eq_ok.1 h
  obtain ⟨⟨applied, idByUID⟩, hentries, hassert⟩ := bind_eq_ok.1 h
  have happlied : Applied req st (applied, idByUID) :=
    foldlM_invariant (fun e _ acc acc' hacc => hacc.entry) (.start hst req) hentries
  exact ⟨⟨entries, idByUID, _, mapError_eq_ok.1 hdag, mapError_eq_ok.1 hplan,
    happlied.same (sameOwners_disable (graced req (readManagedSet st req.providerID))), hassert⟩⟩

namespace ApplyRun

/-- The monitor is one of the bundle. -/
def Bundled (run : ApplyRun st req st') (id uid : String) : Prop :=
  run.idByUID.get? uid = some id ∧ req.desired.contains uid = true

theorem coherent (run : ApplyRun st req st') : st'.Coherent := by
  obtain ⟨hmonitors, hmanaged⟩ := foldlM_assertEdges_rows run.asserted
  have hown {p uid id : String} : Owns st' p uid id ↔ Owns run.before p uid id := by
    rw [owns_iff, owns_iff, hmanaged]
  refine ⟨?_, ?_⟩
  · intro id hid
    rw [hmanaged] at hid
    rw [hmonitors]
    exact run.applied.coherent.exists_monitor id hid
  · intro p uid id id' hid hid'
    exact run.applied.coherent.unique p uid id id' (hown.1 hid) (hown.1 hid')

theorem uid_unique (run : ApplyRun st req st') {id uid uid' : String}
    (h : run.idByUID.get? uid = some id) (h' : run.idByUID.get? uid' = some id) : uid = uid' := by
  obtain ⟨row, hrow, -, rfl⟩ := (run.applied.ids uid id).1 h
  obtain ⟨row', hrow', -, rfl⟩ := (run.applied.ids uid' id).1 h'
  rw [hrow] at hrow'
  cases hrow'
  rfl

variable {a b : String}

/-- **An edge of a bundle's monitor is one of the bundle's**, when none is left that leads out of
what the provider manages. -/
theorem bundled_edge (run : ApplyRun st req st')
    (hown : withinReach st (.apply req)) {uid : String} (ha : run.Bundled a uid)
    (hab : DependsOn st'.edges a b) : ∃ dep, run.Bundled b dep ∧ dep ∈ req.desired.depsOf uid := by
  have hnamed := (checkDependencyDAG_ok_iff.1 run.dag).1
  rcases foldlM_assertEdges run.asserted hab with ⟨e, -, -, he, dep, hdep, hb⟩ | ⟨hold, hkept⟩
  · obtain rfl := run.uid_unique he ha.1
    exact ⟨dep, ⟨hb, (hnamed _ dep hdep).2⟩, hdep⟩
  rw [run.applied.edges] at hold
  -- The edge was there before, so the plan found the stored dependencies to be the bundle's.
  obtain ⟨dm, hdm⟩ := Option.isSome_iff_exists.1 ha.2
  obtain ⟨e, he, rfl, hre | ⟨c, hc, hsame⟩⟩ := plan_desired run.planned hdm
  · exact absurd ha.1 (hkept e he hre)
  have hrewrites : rewrites st req e.uid = false := by
    rw [rewrites, run.planned, any_eq_false]
    intro e' he'
    by_cases huid : e'.uid = e.uid
    · have hre : e'.reassert ≠ true := fun hre => hkept e' he' hre (huid ▸ ha.1)
      simp [hre]
    · simp [huid]
  obtain ⟨entry, hentry, hceq⟩ : ∃ entry ∈ readManagedSet st req.providerID,
      (e.uid, c) = ((currentMonitor st entry).uid, currentMonitor st entry) := by
    have hmem := Dict.mem_of_get?_ofList hc
    simp only [map_map, mem_map] at hmem
    obtain ⟨entry, hentry, heq⟩ := hmem
    exact ⟨entry, hentry, heq.symm⟩
  obtain ⟨huid, rfl⟩ := Prod.mk.inj hceq
  obtain ⟨hrow, hprov, -⟩ := mem_readManagedSet.1 hentry
  have howned : Owns st req.providerID e.uid entry.1.monitorID :=
    ⟨entry.1, get_of_mem hrow, hprov, huid.symm⟩
  have hida : entry.1.monitorID = a := by
    have := (run.applied.ids _ _).2 (run.applied.owns _ _ howned)
    exact Option.some.inj (this.symm.trans ha.1)
  rw [← hida] at hold
  obtain ⟨w, hw⟩ := hown e.uid entry.1.monitorID howned ha.2 hrewrites b (mem_parentsOf.2 hold)
  have hmanaged : w ∈ managedParents st entry.1 :=
    mem_managedParents (mem_parentsOf.2 hold) (hprov ▸ hw)
  have hdep : w ∈ req.desired.depsOf e.uid := by
    refine mem_depsOf.2 ⟨dm, hdm, ?_⟩
    rw [← hsame]
    exact mem_sortUniq.2 hmanaged
  exact ⟨w, ⟨(run.applied.ids w b).2 (run.applied.owns w b hw), (hnamed _ w hdep).2⟩, hdep⟩

theorem other_edge (run : ApplyRun st req st') (ha : ∀ uid, ¬ run.Bundled a uid)
    (hab : DependsOn st'.edges a b) : DependsOn st.edges a b := by
  rcases foldlM_assertEdges run.asserted hab with ⟨e, he, hre, hid, -⟩ | ⟨hold, -⟩
  · obtain ⟨dm, hdm⟩ := desired_of_reassert run.planned he hre
    exact absurd ⟨hid, by rw [Dict.contains, hdm]; rfl⟩ (ha e.uid)
  · rwa [run.applied.edges] at hold

/-- **An apply keeps the graph acyclic** if it leaves no edge of a bundle's monitor that leads out
of what the provider manages. -/
theorem acyclic (run : ApplyRun st req st') (hown : withinReach st (.apply req))
    (hacyclic : Acyclic (DependsOn st.edges)) : Acyclic (DependsOn st'.edges) := by
  have hbundle := (checkDependencyDAG_ok_iff.1 run.dag).2
  apply acyclic_of_closed_part (p := fun a => ∃ uid, run.Bundled a uid) (R := DependsOn st.edges)
  · rintro a b ⟨uid, ha⟩ hab
    obtain ⟨dep, hb, -⟩ := run.bundled_edge hown ha hab
    exact ⟨dep, hb⟩
  · rintro n a ⟨uid, ha⟩ hw
    obtain ⟨uid', ha', hwalk⟩ := hw.simulate (F := run.Bundled) (Q := NextRel req.desired.depsOf)
      (fun x y u hx hxy => run.bundled_edge hown hx hxy) ha
    rw [run.uid_unique ha'.1 ha.1] at hwalk
    exact hbundle n uid hwalk
  · intro a b ha hab
    exact run.other_edge (fun uid h => ha ⟨uid, h⟩) hab
  · exact hacyclic

end ApplyRun

end

variable {st : ProjectStore}

theorem monitorGraphStep_acyclic {st' : ProjectStore} {op : MonitorGraphOp} (hst : st.Coherent)
    (hacyclic : Acyclic (DependsOn st.edges)) (hok : withinReach st op)
    (hstep : monitorGraphStep st op = some st') : st'.Coherent ∧ Acyclic (DependsOn st'.edges) := by
  cases op with
  | replace monitorID parents =>
    have h := toOption_eq_some.1 hstep
    refine ⟨?_, replaceMonitorDependencies_acyclic hacyclic hok h⟩
    obtain ⟨⟨⟩, -, hwrite⟩ := bind_eq_ok.1 h
    rw [writeParents_ok hwrite]
    exact ⟨hst.exists_monitor, hst.unique⟩
  | apply req =>
    obtain ⟨run⟩ := applyBundle_ok hst (toOption_eq_some.1 hstep)
    exact ⟨run.coherent, run.acyclic hok hacyclic⟩

/-- **The monitor graph stays acyclic** as long as a replacement meets no child farther away than
the cap and an apply leaves no edge from its bundle to a monitor the provider does not manage. -/
theorem monitorGraph_acyclic {start st : ProjectStore} (hstart : start.Coherent)
    (hedges : start.edges = []) (h : Reach monitorGraphStep withinReach start st) :
    Acyclic (DependsOn st.edges) := by
  refine (h.invariant (I := fun s => s.Coherent ∧ Acyclic (DependsOn s.edges)) ?_ ?_).2
  · refine ⟨hstart, acyclic_of_no_edge ?_⟩
    rw [hedges]
    exact fun _ _ => not_mem_nil
  · rintro s op s' ⟨hs, hacyclic⟩ hok hstep
    exact monitorGraphStep_acyclic hs hacyclic hok hstep

/-! ## Two runs that make a cycle -/

theorem coherent_of_rows (huniq : (st.managed.rows.map fun r => (r.providerID, r.sourceUID)).Nodup)
    (hex : ∀ r ∈ st.managed.rows, (st.monitors.get r.monitorID).isSome) : st.Coherent where
  exists_monitor id hid := by
    obtain ⟨r, hr⟩ := Option.isSome_iff_exists.1 hid
    obtain ⟨hmem, rfl⟩ := get_eq_some_iff.1 hr
    exact hex r hmem
  unique p uid id id' := by
    rintro ⟨r, hr, hp, hu⟩ ⟨r', hr', hp', hu'⟩
    obtain ⟨hmem, rfl⟩ := get_eq_some_iff.1 hr
    obtain ⟨hmem', rfl⟩ := get_eq_some_iff.1 hr'
    rw [inj_on_of_nodup_map huniq hmem hmem' (by rw [hp, hu, hp', hu'])]

theorem not_acyclic_of_reached {edges : Edges} {a : String} {n : Nat}
    (h : a ∈ reachedWithin (parentsOf edges) n [a]) : ¬ Acyclic (DependsOn edges) := by
  obtain ⟨k, -, b, hb, hw⟩ := mem_reachedWithin.1 h
  rw [dependsOn_next, mem_singleton.1 hb] at hw
  exact fun hacyclic => hacyclic k a hw

def uiMonitor (id : String) : MonitorRow := ⟨id, .http, true⟩

def twelveMonitors : ProjectStore where
  monitors := ⟨["m0", "m1", "m2", "m3", "m4", "m5", "m6", "m7", "m8", "m9", "m10", "m11"].map
    uiMonitor,
    by decide⟩
  managed := .empty
  edges := []

def longChain : List MonitorGraphOp :=
  [.replace "m0" ["m1"], .replace "m1" ["m2"], .replace "m2" ["m3"], .replace "m3" ["m4"],
    .replace "m4" ["m5"], .replace "m5" ["m6"], .replace "m6" ["m7"], .replace "m7" ["m8"],
    .replace "m8" ["m9"], .replace "m9" ["m10"], .replace "m10" ["m11"], .replace "m11" ["m0"]]

def mixedMonitors : ProjectStore where
  monitors := ⟨["f1", "f2", "u"].map uiMonitor, by decide⟩
  managed := ⟨[⟨"f1", "git", "api", "h1", none⟩, ⟨"f2", "git", "db", "h2", none⟩], by decide⟩
  edges := []

/-- The bundle in which `api` depends on `db`. -/
def apiOnDb : ApplyRequest where
  providerID := "git"
  desired := .ofList [("api", ⟨.http, true, "h1", ["db"], by simp⟩),
    ("db", ⟨.http, true, "h2", [], .nil⟩)]
  newID := fun uid => "new-" ++ uid
  dbNow := 0
  orphanGrace := -1
  maxManaged := 0
  ownedElsewhere := 0
  allowAbsence := true

/-- `db` depends on the monitor of the UI and that one on `api`, when the bundle is applied. -/
def crossedEdges : List MonitorGraphOp :=
  [.replace "f2" ["u"], .replace "u" ["f1"], .apply apiOnDb]

/-- **Both writers can close a cycle**: a replacement over a chain longer than its walk, an apply
over an edge it does not compare. -/
theorem not_acyclic_capped_nor_kept : (twelveMonitors.Coherent ∧ twelveMonitors.edges = [] ∧
      (runOps monitorGraphStep twelveMonitors longChain).isSome ∧
      Reach monitorGraphStep anyStep twelveMonitors
        (finalState monitorGraphStep twelveMonitors longChain) ∧
      ¬ Acyclic (DependsOn (finalState monitorGraphStep twelveMonitors longChain).edges)) ∧
    (mixedMonitors.Coherent ∧ mixedMonitors.edges = [] ∧
      (runOps monitorGraphStep mixedMonitors crossedEdges).isSome ∧
      Reach monitorGraphStep anyStep mixedMonitors
        (finalState monitorGraphStep mixedMonitors crossedEdges) ∧
      ¬ Acyclic (DependsOn (finalState monitorGraphStep mixedMonitors crossedEdges).edges)) := by
  refine ⟨⟨?_, rfl, ?_, ?_, ?_⟩, ?_, rfl, ?_, ?_, ?_⟩
  · exact coherent_of_rows (by decide) (by decide)
  · decide +kernel
  · exact reach_finalState fun _ _ _ => trivial
  · exact not_acyclic_of_reached (a := "m0") (n := 12) (by decide +kernel)
  · exact coherent_of_rows (by decide) (by decide)
  · decide +kernel
  · exact reach_finalState fun _ _ _ => trivial
  · exact not_acyclic_of_reached (a := "f1") (n := 3) (by decide +kernel)

/-- The bundle applied to its two monitors, and then an edge from the UI's monitor to one
of them. -/
theorem monitorGraph_acyclic_mixed : Reach monitorGraphStep withinReach mixedMonitors
        (finalState monitorGraphStep mixedMonitors [.apply apiOnDb, .replace "u" ["f1"]]) ∧
      Acyclic (DependsOn
        (finalState monitorGraphStep mixedMonitors
          [.apply apiOnDb, .replace "u" ["f1"]]).edges) := by
  have hreach : Reach monitorGraphStep withinReach mixedMonitors
      (finalState monitorGraphStep mixedMonitors [.apply apiOnDb, .replace "u" ["f1"]]) := by
    apply reach_of_allowedRun
    refine ⟨?_, _, rfl, ?_, _, rfl, trivial⟩
    · intro uid id _ _ _ p hp
      simp [parentsOf, mixedMonitors] at hp
    · intro p hp n hw
      have hclosed : ∀ e ∈ (finalState monitorGraphStep mixedMonitors [.apply apiOnDb]).edges,
          e.2 ≠ "u" := by decide +kernel
      have hne := hw.stays (p := (· ≠ "u")) (fun a b _ hab => hclosed (a, b) hab)
        (by rw [mem_singleton.1 hp]; decide)
      exact absurd rfl hne
  exact ⟨hreach, monitorGraph_acyclic (coherent_of_rows (by decide) (by decide)) rfl hreach⟩

end Cerbix.Store
