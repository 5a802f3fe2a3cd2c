import Cerbix.Domain.Monitor
import Cerbix.Lib.Dfs
import Cerbix.Lib.Dict

/-!
# Bundles of a file provider and their plans

A parsed bundle maps source UIDs to monitors (`DesiredProject` in
`internal/fileprovider/bundle.go`). `checkDependencyDAG` (`validate.go`) accepts exactly the bundles
whose dependencies name other monitors of the bundle and form no cycle
(`checkDependencyDAG_exact`). `plan` (`plan.go`) compares a bundle with what the provider owns and
says what the apply has to do (`plan_desired`, `desired_of_reassert`).
-/

namespace Cerbix.FileProvider

open Cerbix.Lib Cerbix.Domain Dict

inductive Reason
  | dependencyInvalid
  | dependencyCycle
  | typeChange
  | quotaExceeded
  deriving DecidableEq, Repr

def Reason.text : Reason → String
  | .dependencyInvalid => "dependency_invalid"
  | .dependencyCycle => "dependency_cycle"
  | .typeChange => "type_change"
  | .quotaExceeded => "max_managed_monitors"

/-- What is wrong with a bundle, and where. -/
structure BundleError where
  reason : Reason
  uid : String
  msg : String
  deriving DecidableEq, Repr

def BundleError.error (e : BundleError) : String :=
  if e.uid ≠ "" then e.reason.text ++ " [" ++ e.uid ++ "]: " ++ e.msg
  else e.reason.text ++ ": " ++ e.msg

/-- A monitor of a bundle. Parsing sorts the dependency UIDs and drops duplicates. -/
structure DesiredMonitor where
  type : MonitorType
  enabled : Bool
  hash : String
  dependsOn : List String
  normalized : dependsOn.Pairwise (· < ·)
  deriving DecidableEq

abbrev DesiredProject := Dict String DesiredMonitor

variable (dp : DesiredProject)

def DesiredProject.depsOf (uid : String) : List String :=
  ((dp.get? uid).map DesiredMonitor.dependsOn).getD []

def checkDependency (uid dep : String) : Except BundleError Unit := do
  refuseIf (dep = uid) ⟨.dependencyInvalid, uid, "monitor depends on itself"⟩
  refuseIf (!dp.contains dep)
    ⟨.dependencyInvalid, uid, "depends_on " ++ dep.quote ++ " is not a monitor in this bundle"⟩

def cycleError : SearchError String → BundleError
  | .cycle uid dep => ⟨.dependencyCycle, uid, "dependency cycle through " ++ dep.quote⟩
  | .outOfFuel => ⟨.dependencyCycle, "", ""⟩

/-- Dependencies are in the bundle and have no cycle. -/
def checkDependencyDAG : Except BundleError Unit := do
  dp.entries.forM fun e => e.2.dependsOn.forM (checkDependency dp e.1)
  let _ ← (dfs dp.depsOf dp.keys).mapError cycleError
  pure ()

section Check

variable {dp : DesiredProject}

theorem mem_depsOf {uid dep : String} :
    dep ∈ dp.depsOf uid ↔ ∃ dm, dp.get? uid = some dm ∧ dep ∈ dm.dependsOn := by
  unfold DesiredProject.depsOf
  cases dp.get? uid <;> simp

theorem checkDependency_ok {uid dep : String} :
    checkDependency dp uid dep = .ok () ↔ dep ≠ uid ∧ dp.contains dep := by
  simp [checkDependency, bind_eq_ok, refuseIf_eq_ok]

theorem forM_checkDependency :
    dp.entries.forM (fun e => e.2.dependsOn.forM (checkDependency dp e.1)) =
    .ok ⟨⟩ ↔ ∀ uid, ∀ dep ∈ dp.depsOf uid, dep ≠ uid ∧ dp.contains dep := by
  simp only [forM_eq_ok, checkDependency_ok, mem_depsOf]
  constructor
  · rintro h uid dep ⟨dm, hdm, hdep⟩
    exact h (uid, dm) (mem_entries.2 hdm) dep hdep
  · rintro h ⟨uid, dm⟩ hmem dep hdep
    exact h uid dep ⟨dm, mem_entries.1 hmem, hdep⟩

theorem mem_keys_of_dep (h : ∀ uid, ∀ dep ∈ dp.depsOf uid, dep ≠ uid ∧ dp.contains dep) :
    ∀ uid ∈ dp.keys, ∀ dep ∈ dp.depsOf uid, dep ∈ dp.keys :=
  fun uid _ dep hdep => mem_keys.2 (h uid dep hdep).2

theorem checkDependencyDAG_ok_iff : checkDependencyDAG dp = .ok () ↔
      (∀ uid, ∀ dep ∈ dp.depsOf uid, dep ≠ uid ∧ dp.contains dep) ∧
        Acyclic (NextRel dp.depsOf) := by
  rw [checkDependencyDAG, bind_eq_ok]
  constructor
  · rintro ⟨⟨⟩, hall, hsearch⟩
    have hall := forM_checkDependency.1 hall
    obtain ⟨color, hdfs, -⟩ := bind_eq_ok.1 hsearch
    refine ⟨hall, ?_⟩
    have hno := (dfs_ok_iff (mem_keys_of_dep hall)).1 ⟨color, mapError_eq_ok.1 hdfs⟩
    intro n uid hw
    obtain ⟨dep, hdep, -⟩ := hw.uncons
    obtain ⟨dm, hdm, -⟩ := mem_depsOf.1 hdep
    refine hno uid ?_ n hw
    rw [mem_keys, contains, hdm]
    rfl
  · rintro ⟨hall, hacyclic⟩
    obtain ⟨color, hdfs⟩ := (dfs_ok_iff (mem_keys_of_dep hall)).2 fun x _ n => hacyclic n x
    exact ⟨⟨⟩, forM_checkDependency.2 hall, bind_eq_ok.2 ⟨color, mapError_eq_ok.2 hdfs, rfl⟩⟩

theorem checkDependency_ne_outOfFuel {uid dep : String} :
    checkDependency dp uid dep ≠ .error (cycleError .outOfFuel) := by
  unfold checkDependency refuseIf
  split
  · simp [cycleError, bind, Except.bind]
  · split <;> simp [cycleError, bind, Except.bind]

/-- **Bundle check**, with a search that is never cut off for its depth. -/
theorem checkDependencyDAG_exact (dp : DesiredProject) :
    (checkDependencyDAG dp = .ok () ↔ (∀ uid, ∀ dep ∈ dp.depsOf uid, dp.contains dep) ∧
      (∀ uid, uid ∉ dp.depsOf uid) ∧ Acyclic (NextRel dp.depsOf)) ∧
    checkDependencyDAG dp ≠ .error (cycleError .outOfFuel) := by
  refine ⟨?_, fun h => ?_⟩
  · rw [checkDependencyDAG_ok_iff, ← and_assoc]
    refine and_congr_left fun _ => ⟨fun h => ⟨fun uid dep hdep => (h uid dep hdep).2, ?_⟩, ?_⟩
    · exact fun uid hself => (h uid uid hself).1 rfl
    · rintro ⟨hnamed, hself⟩ uid dep hdep
      exact ⟨fun he => hself uid (he ▸ hdep), hnamed uid dep hdep⟩
  · rw [checkDependencyDAG] at h
    cases hnamed : dp.entries.forM fun e => e.2.dependsOn.forM (checkDependency dp e.1) with
    | error e =>
      rw [hnamed] at h
      cases h
      obtain ⟨_, -, he⟩ := exists_of_forM_error hnamed
      obtain ⟨_, -, he⟩ := exists_of_forM_error he
      exact checkDependency_ne_outOfFuel he
    | ok =>
      have hspec := dfs_searched (mem_keys_of_dep (forM_checkDependency.1 hnamed))
      rw [hnamed] at h
      cases hdfs : dfs dp.depsOf dp.keys with
      | ok color =>
        rw [hdfs] at h
        cases h
      | error e =>
        rw [hdfs] at h hspec
        cases e with
        | outOfFuel => exact hspec.1 rfl
        | cycle uid dep => simp [cycleError, Except.mapError, bind, Except.bind] at h

end Check

/-! ## The plan -/

/-- What an apply does with a monitor. -/
inductive Action
  | create
  | update
  | dependencyUpdate
  | noop
  | orphan
  | restore
  deriving DecidableEq, Repr

/-- An owned monitor as it is. -/
structure CurrentMonitor where
  uid : String
  type : MonitorType
  hash : String
  dependsOn : List String
  orphaned : Bool
  deriving DecidableEq, Repr

/-- What an apply will do, and whether it writes the dependencies. -/
structure PlanEntry where
  uid : String
  action : Action
  semanticChange : Bool
  dependencyChange : Bool
  deriving DecidableEq, Repr

/-- An orphan is restored; of another what has changed is written. -/
def planOwned (uid : String) (dm : DesiredMonitor) (c : CurrentMonitor) : PlanEntry :=
  let semantic := c.hash ≠ dm.hash
  let deps := c.dependsOn ≠ dm.dependsOn
  if c.orphaned then ⟨uid, .restore, semantic, deps⟩
  else if semantic then ⟨uid, .update, true, deps⟩
  else if deps then ⟨uid, .dependencyUpdate, false, true⟩
  else ⟨uid, .noop, false, false⟩

def planMonitor (cur : Dict String CurrentMonitor) (e : String × DesiredMonitor) :
    Except BundleError PlanEntry :=
  match cur.get? e.1 with
  | none => .ok ⟨e.1, .create, true, false⟩
  | some c =>
    if c.type ≠ e.2.type then
      .error ⟨.typeChange, e.1, "monitor type is immutable (was " ++ c.type.text.quote ++
        ", bundle declares " ++ e.2.type.text.quote ++ "); use a new UID"⟩
    else .ok (planOwned e.1 e.2 c)

/-- The plan for the desired and the current monitors. -/
def plan (desired : DesiredProject) (current : List CurrentMonitor) :
    Except BundleError (List PlanEntry) := do
  let cur := ofList (current.map fun c => (c.uid, c))
  let entries ← desired.entries.mapM (planMonitor cur)
  let orphans := (cur.entries.filter fun e => !desired.contains e.1 && !e.2.orphaned).map
    fun e => PlanEntry.mk e.1 .orphan false false
  pure ((entries ++ orphans).insertionSort fun a b => a.uid ≤ b.uid)

/-- The apply writes the dependency edges of this entry again. -/
def PlanEntry.reassert (e : PlanEntry) : Bool :=
  e.action = .create || e.action = .restore || e.dependencyChange

section Plan

variable {desired : DesiredProject} {current : List CurrentMonitor} {entries : List PlanEntry}

theorem planOwned_uid (uid : String) (dm : DesiredMonitor) (c : CurrentMonitor) :
    (planOwned uid dm c).uid = uid := by
  simp only [planOwned]
  split_ifs <;> rfl

variable {uid : String} {dm : DesiredMonitor}

theorem planOwned_reassert {c : CurrentMonitor}
    (hdeps : c.dependsOn ≠ dm.dependsOn) : (planOwned uid dm c).reassert := by
  simp only [planOwned]
  split_ifs <;> simp_all [PlanEntry.reassert]

/-- The entry of a bundle's monitor: its edges are written again, or the provider owns the monitor
with just these dependencies. -/
theorem planMonitor_ok {cur : Dict String CurrentMonitor}
    {e : PlanEntry} (h : planMonitor cur (uid, dm) = .ok e) : e.uid = uid ∧
      (e.reassert ∨ ∃ c, cur.get? uid = some c ∧ c.dependsOn = dm.dependsOn) := by
  unfold planMonitor at h
  split at h
  · cases h
    exact ⟨rfl, .inl rfl⟩
  · next c hc =>
    split at h
    · cases h
    cases h
    refine ⟨planOwned_uid uid dm c, ?_⟩
    by_cases hdeps : c.dependsOn = dm.dependsOn
    · exact .inr ⟨c, hc, hdeps⟩
    · exact .inl (planOwned_reassert hdeps)

theorem plan_desired (h : plan desired current = .ok entries) (hdm : desired.get? uid = some dm) :
    ∃ e ∈ entries, e.uid = uid ∧ (e.reassert ∨
        ∃ c, (ofList (current.map fun c => (c.uid, c))).get? uid = some c ∧
          c.dependsOn = dm.dependsOn) := by
  obtain ⟨planned, hplanned, hpure⟩ := bind_eq_ok.1 h
  cases hpure
  obtain ⟨e, he, hentry⟩ := exists_mem_of_mapM hplanned (mem_entries.2 hdm)
  refine ⟨e, ?_, planMonitor_ok hentry⟩
  rw [(List.perm_insertionSort _ _).mem_iff]
  exact List.mem_append_left _ he

theorem desired_of_reassert (h : plan desired current = .ok entries) {e : PlanEntry}
    (he : e ∈ entries) (hre : e.reassert) : ∃ dm, desired.get? e.uid = some dm := by
  obtain ⟨planned, hplanned, hpure⟩ := bind_eq_ok.1 h
  cases hpure
  rw [(List.perm_insertionSort _ _).mem_iff, List.mem_append] at he
  rcases he with he | he
  · obtain ⟨⟨uid, dm⟩, hmem, hentry⟩ := exists_of_mem_mapM hplanned he
    exact ⟨dm, (planMonitor_ok hentry).1 ▸ mem_entries.1 hmem⟩
  · obtain ⟨x, -, rfl⟩ := List.mem_map.1 he
    cases hre

end Plan

end Cerbix.FileProvider
