import Cerbix.Lib.Table
import Cerbix.Service.Evidence

/-!
# The health of a service now

`serviceHealthNowTx` (`internal/store/servicereport.go`) evaluates one service at an instant, and
`serviceNeighbourHealthTx` a set of them over one read of each relation. The evaluator looks at the
rows of a service's own monitors only, so each service of the batch gets what it gets alone
(`neighbourHealth_exact`).
-/

namespace Cerbix.Service

open Cerbix.Lib Cerbix.Domain Cerbix.Reliability List Member

/-- A service with its declarations. -/
structure ServiceRow where
  id : String
  projectID : String
  decls : Declarations

/-- A row of `service_member_refs` joined with its monitor. -/
structure MemberStatus where
  serviceID : String
  projectID : String
  name : String
  status : MonitorStatus
  deriving DecidableEq, Repr

/-- The relations a report reads; a monitor has one heartbeat at an instant. -/
structure ReportSnapshot where
  services : Table ServiceRow.id
  heartbeats : List Observation
  windows : String → List MaintenanceWindow
  members : List MemberStatus
  unique : UniqueObservations heartbeats

/-- How the SLI members are. -/
inductive SLIHealth
  | unknown | down | degraded | healthy
  deriving DecidableEq, Repr

/-- How all members are, whatever they are there for. -/
inductive DiagnosticsHealth
  | unknown | failing | ok
  deriving DecidableEq, Repr

/-- The health of a service at an instant. -/
structure ServiceHealthNow where
  unstable : Bool
  asOf : Int
  sli : SLIHealth
  diagnostics : DiagnosticsHealth
  failingMonitors : List String
  deriving DecidableEq, Repr

def sliHealth : Health → SLIHealth
  | .down => .down
  | .degraded => .degraded
  | .healthy => .healthy
  | _ => .unknown

/-- The loop over the members' names and statuses, and the verdict after it. -/
def ServiceHealthNow.diagnose (h : ServiceHealthNow) (rows : List (String × MonitorStatus)) :
    ServiceHealthNow :=
  let failing := (rows.filter fun r => r.2 = .down).map Prod.fst
  { h with
    failingMonitors := Text.sortStrings failing
    diagnostics :=
      if 0 < failing.length then .failing
      else if 0 < rows.countP (fun r => r.2 = .pending) ∨ rows.length = 0 then .unknown
      else .ok }

namespace ReportSnapshot

variable (s : ReportSnapshot) (projectID : String) (asOf : Int) (ids : List String)

def observations : List Observation :=
  observationsFor s.heartbeats ids asOf (asOf + 1000)

def spans : List MaintenanceSpan :=
  maintenanceSpansFor (s.windows projectID) ids asOf (asOf + 1000)

variable (d : Declarations)

/-- The epoch in force with the policies of its revision. -/
def epochOf : Option (Epoch × ServicePolicies) :=
  (d.epochAt asOf).bind fun e => (d.policiesOf e.revision).map fun p => (e, p)

def idsOf : List String := ((epochOf asOf d).map fun x => x.1.ids).getD []

/-- The layer of the SLI, from what was read. -/
def sliNow (obs : List Observation) (spans : List MaintenanceSpan) : ServiceHealthNow :=
  let h : ServiceHealthNow := ⟨true, asOf, .unknown, .unknown, []⟩
  match epochOf asOf d with
  | none => h
  | some (e, p) =>
    if e.members = [] then h
    else
      let out := stateAt (e.members.map EpochMember.toMember) obs spans p asOf
      { h with sli := sliHealth out.health }

def statusRows (serviceID : String) : List (String × MonitorStatus) :=
  ((s.members.filter fun r => r.serviceID = serviceID ∧ r.projectID = projectID).map
    fun r => (r.name, r.status)).dedup.insertionSort fun a b => a.1 ≤ b.1

/-- The health of one service. -/
def healthOf (svc : ServiceRow) : ServiceHealthNow :=
  let ids := idsOf asOf svc.decls
  (sliNow asOf svc.decls (s.observations asOf ids) (s.spans projectID asOf ids)).diagnose
    (s.statusRows projectID svc.id)

/-- `none` is `ErrNotFound`. -/
def serviceHealthNow (serviceID : String) : Option ServiceHealthNow :=
  ((s.services.get serviceID).filter fun svc => svc.projectID = projectID).map
    (s.healthOf projectID asOf)

def neighbourRows : List (String × String × MonitorStatus) :=
  ((s.members.filter fun r => r.serviceID ∈ ids ∧ r.projectID = projectID).map
    fun r => (r.serviceID, r.name, r.status)).dedup.insertionSort
      fun a b => a.1 < b.1 ∨ a.1 = b.1 ∧ a.2.1 ≤ b.2.1

/-- The health of several services from one read. -/
def serviceNeighbourHealth : List (String × ServiceHealthNow) :=
  let perService := s.services.rows.filter fun svc => svc.id ∈ ids ∧ svc.projectID = projectID
  let all := perService.flatMap fun svc => idsOf asOf svc.decls
  let obs := if all = [] then [] else s.observations asOf all
  let spans := if all = [] then [] else s.spans projectID asOf all
  perService.map fun svc =>
    let h := sliNow asOf svc.decls obs spans
    -- the entry that the loop over all rows made for the service, if it met one of its rows
    let rows := ((s.neighbourRows projectID ids).filter fun r => r.1 = svc.id).map Prod.snd
    (svc.id, if rows = [] then h else h.diagnose rows)

variable {s projectID asOf} {members : List Member} {ids ids' : List String}

theorem stateAt_of_members {obs obs' : List Observation} {spans spans' : List MaintenanceSpan}
    {t : Int} (p : ServicePolicies)
    (hobs : ∀ m ∈ members, (m.series obs).latestAt t = (m.series obs').latestAt t)
    (hspans : ∀ m ∈ members, (spans.any fun sp => sp.covers m.monitorID t) =
      spans'.any fun sp => sp.covers m.monitorID t) :
    stateAt members obs spans p t = stateAt members obs' spans' p t := by
  unfold stateAt censusAt buildSeries
  rw [map_map, map_map, map_congr_left fun m hm => ?_]
  rw [Function.comp_apply, Function.comp_apply, verdictAt_series_congr (hobs m hm)]
  have hst (ex : Bool) :
      (m.series obs').stateAt t spans ex = (m.series obs').stateAt t spans' ex := by
    unfold MemberSeries.stateAt
    rw [show (m.series obs').monitorID = m.monitorID from rfl, hspans m hm]
  simp only [MemberSeries.verdictAt, hst]

/-- What was read for more monitors stands for what was read for the members. -/
theorem stateAt_reads (p : ServicePolicies) (h : ∀ m ∈ members, m.monitorID ∈ ids)
    (h' : ∀ m ∈ members, m.monitorID ∈ ids') :
    stateAt members (s.observations asOf ids) (s.spans projectID asOf ids) p asOf =
      stateAt members (s.observations asOf ids') (s.spans projectID asOf ids') p asOf := by
  have hlatest {ids : List String} (m : Member) (hm : m.monitorID ∈ ids) :
      (m.series (s.observations asOf ids)).latestAt asOf = (m.series s.heartbeats).latestAt asOf :=
    latestAt_series_of_cofinal s.unique (fun _ => mem_of_mem_observationsFor)
      fun o ho hid ht => hid ▸ observationsFor_cofinal (hid ▸ hm) ho le_rfl (by omega) ht
  refine stateAt_of_members p (fun m hm => (hlatest m (h m hm)).trans (hlatest m (h' m hm)).symm)
    fun m hm => ?_
  simp only [spans, maintenanceSpansFor, any_map, any_filter, MaintenanceSpan.covers]
  refine congrArg₂ any rfl (funext fun w => ?_)
  grind [h m hm, h' m hm]

theorem sliNow_reads {d : Declarations} (h : ∀ id ∈ idsOf asOf d, id ∈ ids) :
    sliNow asOf d (if ids = [] then [] else s.observations asOf ids)
        (if ids = [] then [] else s.spans projectID asOf ids) =
      sliNow asOf d (s.observations asOf (idsOf asOf d))
        (s.spans projectID asOf (idsOf asOf d)) := by
  unfold sliNow
  cases he : epochOf asOf d with
  | none => rfl
  | some x =>
    have hmem : ∀ m ∈ x.1.members.map EpochMember.toMember, m.monitorID ∈ idsOf asOf d := by
      intro m hm
      obtain ⟨e, he', rfl⟩ := mem_map.1 hm
      rw [idsOf, he]
      exact mem_map_of_mem he'
    dsimp only
    split
    · rfl
    · next hne =>
      obtain ⟨m, hm⟩ := exists_mem_of_ne_nil _ hne
      have hsome := ne_nil_of_mem (h _ (hmem _ (mem_map_of_mem hm)))
      rw [if_neg hsome, if_neg hsome, stateAt_reads x.2 (fun m hm => h _ (hmem m hm)) hmem]

theorem neighbourRows_perm {id : String} (h : id ∈ ids) :
    (((s.neighbourRows projectID ids).filter fun r => r.1 = id).map Prod.snd).Perm
      (s.statusRows projectID id) := by
  have hnodup : (s.neighbourRows projectID ids).Nodup :=
    (perm_insertionSort _ _).nodup_iff.2 (nodup_dedup _)
  refine (perm_ext_iff_of_nodup (Nodup.map_on ?_ (hnodup.filter _))
    ((perm_insertionSort _ _).nodup_iff.2 (nodup_dedup _))).2 fun x => ?_
  · intro a ha b hb hab
    simp only [mem_filter, decide_eq_true_eq] at ha hb
    exact Prod.ext (ha.2.trans hb.2.symm) hab
  · simp [neighbourRows, (perm_insertionSort _ _).mem_iff]
    grind

theorem diagnose_perm {rows rows' : List (String × MonitorStatus)} (h : rows.Perm rows')
    (now : ServiceHealthNow) : now.diagnose rows = now.diagnose rows' := by
  have hdown := (h.filter fun r => r.2 = .down).map Prod.fst
  have hsort := Perm.eq_of_pairwise (fun a b _ _ => le_antisymm) (pairwise_insertionSort _ _)
    (pairwise_insertionSort _ _) ((Text.sortStrings_perm _).trans
      (hdown.trans (Text.sortStrings_perm _).symm))
  simp only [ServiceHealthNow.diagnose, Text.sortStrings, hsort, h.length_eq, h.countP_eq,
    hdown.length_eq]

theorem sliNow_diagnose_nil (obs : List Observation) (spans : List MaintenanceSpan) :
    (sliNow asOf d obs spans).diagnose [] = sliNow asOf d obs spans := by
  unfold sliNow
  split
  · rfl
  · split <;> rfl

/-- **The batch is the single evaluation of each.** The evaluator reads no row of a monitor that is
not a member. -/
theorem neighbourHealth_exact (ids : List String) :
    (∀ id h, (id, h) ∈ s.serviceNeighbourHealth projectID asOf ids ↔
      id ∈ ids ∧ s.serviceHealthNow projectID asOf id = some h) ∧ ∀ members obs spans p t,
      stateAt members (obs.filter fun o => o.monitorID ∈ members.map monitorID)
        (spans.filter fun sp => sp.monitorID = "" ∨ sp.monitorID ∈ members.map monitorID) p
        t = stateAt members obs spans p t := by
  refine ⟨fun id h => ?_, fun members obs spans p t => ?_⟩
  · have hmap : s.serviceNeighbourHealth projectID asOf ids = (s.services.rows.filter fun svc =>
        svc.id ∈ ids ∧ svc.projectID = projectID).map fun svc =>
          (svc.id, s.healthOf projectID asOf svc) := by
      refine map_congr_left fun svc hsvc => ?_
      have hin := (of_decide_eq_true (mem_filter.1 hsvc).2).1
      rw [sliNow_reads fun id hid => mem_flatMap.2 ⟨svc, hsvc, hid⟩, healthOf,
        ← diagnose_perm (neighbourRows_perm hin)]
      dsimp only
      split
      · next hnil => rw [hnil, sliNow_diagnose_nil]
      · rfl
    simp only [hmap, serviceHealthNow, mem_map, mem_filter, Prod.mk.injEq, decide_eq_true_eq,
      Option.map_eq_some_iff, Option.filter_eq_some_iff, Table.get_eq_some_iff]
    grind
  · refine stateAt_of_members p (fun m hm => ?_) fun m hm => ?_
    · have hfilter : ((obs.filter fun o => o.monitorID ∈ members.map monitorID).filter
          fun o => o.monitorID = m.monitorID) = obs.filter fun o => o.monitorID = m.monitorID := by
        rw [filter_filter]
        exact filter_congr fun o _ => by grind
      simp only [series, hfilter]
    · rw [any_filter]
      exact congrArg₂ any rfl (funext fun sp => by grind [MaintenanceSpan.covers])

end ReportSnapshot

open Declarations ReportSnapshot Go

/-- The declaration of a service whose input is the web probe. -/
def webDeclared : Declarations :=
  finalState (step plainConfig) (.empty 0)
    [.put (declareWeb ["web"] 0 (40 * minute) (100 * minute))]

/-- Two services share a probe, which is down. -/
def sharedProbe : ReportSnapshot where
  services := ⟨[⟨"shop", "p", webDeclared⟩, ⟨"search", "p", webDeclared⟩], by decide⟩
  heartbeats := [⟨"web", 108 * minute, true⟩, ⟨"web", 110 * minute, false⟩]
  windows _ := []
  members := [⟨"shop", "p", "web", .down⟩, ⟨"search", "p", "web", .down⟩]
  unique := by
    unfold UniqueObservations
    decide

theorem neighbourHealth_sharedProbe :
    ("shop", ⟨true, 111 * minute, .down, .failing, ["web"]⟩) ∈
        sharedProbe.serviceNeighbourHealth "p" (111 * minute) ["shop", "search"] ∧
      sharedProbe.serviceHealthNow "p" (111 * minute) "shop" =
        some ⟨true, 111 * minute, .down, .failing, ["web"]⟩ := by
  have hmem : ("shop", ⟨true, 111 * minute, .down, .failing, ["web"]⟩) ∈
      sharedProbe.serviceNeighbourHealth "p" (111 * minute) ["shop", "search"] := by
    decide +kernel
  exact ⟨hmem, (((neighbourHealth_exact ["shop", "search"]).1 "shop" _).1 hmem).2⟩

end Cerbix.Service
