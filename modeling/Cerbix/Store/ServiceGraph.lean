import Cerbix.Domain.ServiceImpact
import Cerbix.Lib.Except
import Cerbix.Lib.Run
import Cerbix.Lib.Table
import Cerbix.Store.Edges

/-!
# Writes to the service graph

`applyServiceDependenciesTx` of `internal/store/servicegraph.go`, the one mutator of the edges, with
its callers: the replacement over the API, a service created with its edges, and a service's
deletion (`services.go`). Each holds the project's `service_graph` lock, so a write is one step. The
cycle walk stops at the depth cap, which bounds every chain (`mem_reachedWithin_iff_walk`).
`serviceGraph_exact`: every run keeps the four bounds (`GraphBounds`), and a write is accepted
exactly if its result has them.
-/

namespace Cerbix.Store

open Cerbix.Lib Cerbix.Domain List Table

/-- A service, as far as its dependencies are concerned. -/
structure Service where
  id : String
  projectID : String
  slug : String
  graphGeneration : Nat
  /-- The provider of the service's `managed_services` row. -/
  managedBy : Option String
  id_ne : id ≠ ""
  slug_valid : validServiceSlug slug = true
  deriving DecidableEq

/-- Who changes the graph. -/
structure GraphActor where
  userID : String
  viaToken : Bool
  label : String
  deriving DecidableEq, Repr

/-- A change of the graph and who made it. -/
structure AuditRow where
  projectID : String
  actorUserID : Option String
  viaToken : Bool
  action : String
  target : String
  deriving DecidableEq, Repr

/-- The services with their dependencies. -/
structure GraphStore where
  services : Table Service.id
  edges : Edges
  audit : List AuditRow
  deriving DecidableEq

/-- Why a write is refused. -/
inductive GraphError
  | cycle
  | foreign
  | depth
  | limit
  | stale
  | notFound
  | managedByFile
  | pinnedByFile (provider service : String)
  | rendered (component page : String)
  | conflict
  | constraint
  deriving DecidableEq, Repr

def GraphError.message : GraphError → String
  | .cycle => "store: service dependency would create a cycle"
  | .foreign => "store: service dependencies must be services of the same project"
  | .depth => "store: service dependency chain would exceed the depth cap of 10"
  | .limit => "store: a service takes at most 20 direct dependencies"
  | .stale => "store: service dependencies changed concurrently (stale graph_generation)"
  | .notFound => "store: not found"
  | .managedByFile => "store: service is managed by a file provider"
  | .pinnedByFile provider service =>
    "store: service is pinned by " ++ provider ++ ": " ++ service ++ " declares it in depends_on"
  | .rendered component page =>
    "store: service is rendered by a status page component: component " ++ component.quote ++
      " on status page " ++ page.quote
  | .conflict => "store: conflict"
  | .constraint => "store: insert service dependency"

variable (st : GraphStore)

namespace GraphStore

def projectOf (id : String) : Option String :=
  (st.services.get id).map Service.projectID

def slugOf (id : String) : String :=
  ((st.services.get id).map Service.slug).getD id

end GraphStore

/-- What was added and what was removed. -/
def diffIDs (current next : List String) : List String × List String :=
  ((next.filter fun id => id ∉ current).insertionSort (· ≤ ·),
    (current.filter fun id => id ∉ next).insertionSort (· ≤ ·))

def mapSlugs (ids : List String) : List String :=
  (ids.map st.slugOf).insertionSort (· ≤ ·)

/-- The audit row of a change of parents. -/
def dependenciesAudit (projectID serviceID : String) (current next : List String)
    (actor : GraphActor) : AuditRow :=
  let (added, removed) := diffIDs current next
  { projectID
    actorUserID := if actor.userID = "" then none else some actor.userID
    viaToken := actor.viaToken
    action := "service.dependencies.replaced"
    target := "service=" ++ serviceID ++ " actor=" ++ actor.label ++
      " added=[" ++ ",".intercalate (mapSlugs st added) ++ "]" ++
      " removed=[" ++ ",".intercalate (mapSlugs st removed) ++ "]" }

/-- The service, if it is in the project. -/
def requireService (projectID id : String) : Except GraphError Service :=
  match (st.services.get id).filter fun s => s.projectID = projectID with
  | some svc => .ok svc
  | none => .error .notFound

def assertServiceNotFileManaged (svc : Service) : Except GraphError Unit :=
  refuseIf svc.managedBy.isSome .managedByFile

def namedServices (projectID serviceID : String) (parents : List String) : List String :=
  (st.services.rows.filter fun s =>
    s.projectID = projectID ∧ s.id ∈ parents ∧ s.id ≠ serviceID).map Service.id

/-- The parents are other services of the project, and none depends on the service. -/
def checkParents (projectID serviceID : String) (parents : List String) : Except GraphError Unit :=
  if parents = [] then .ok () else do
  refuseIf ((namedServices st projectID serviceID parents).length ≠ parents.length) .foreign
  refuseIf (serviceID ∈ reachedWithin (parentsOf st.edges) serviceGraphDepthCap parents) .cycle
  let maxUp := deepest (parentsOf st.edges) (serviceGraphDepthCap + 1) parents
  let maxDown := deepest (childrenOf st.edges) (serviceGraphDepthCap + 1) [serviceID]
  refuseIf (maxUp + 1 + maxDown > serviceGraphDepthCap) .depth

/-- One `INSERT INTO service_dependencies … SELECT … FROM services WHERE id = $1`, refused by the
table's primary key, its check or its composite foreign keys. -/
def insertServiceDependency (serviceID : String) (st : GraphStore) (parent : String) :
    Except GraphError GraphStore :=
  match st.projectOf serviceID with
  | none => .ok st
  | some projectID => do
    refuseIf (parent = serviceID ∨ st.projectOf parent ≠ some projectID ∨
      DependsOn st.edges serviceID parent) .constraint
    pure { st with edges := st.edges ++ [(serviceID, parent)] }

/-- Every change of parents is a new generation. -/
def bumpGraphGeneration (serviceID : String) : GraphStore :=
  { st with
    services := st.services.update (fun s => s.id = serviceID)
      (fun s => { s with graphGeneration := s.graphGeneration + 1 }) fun _ => rfl }

def currentParents (serviceID : String) : List String :=
  (parentsOf st.edges serviceID).dedup

/-- `applyServiceDependenciesTx`; the flag says whether anything changed. -/
def applyServiceDependencies (projectID serviceID : String)
    (requested : List String) (actor : GraphActor) : Except GraphError (GraphStore × Bool) := do
  let parents := dedupe requested
  refuseIf (parents.length > maxServiceDependencies) .limit
  let current := currentParents st serviceID
  if current.length = parents.length ∧ ∀ id ∈ parents, id ∈ current then
    pure (st, false)
  else do
    checkParents st projectID serviceID parents
    let cleared := { st with edges := clearParents st.edges serviceID }
    let inserted ← parents.foldlM (insertServiceDependency serviceID) cleared
    let bumped := bumpGraphGeneration inserted serviceID
    pure ({ bumped with
      audit := bumped.audit ++
        [dependenciesAudit st projectID serviceID current parents actor] }, true)

/-- The write of the API, which names the generation it read. -/
def replaceServiceDependencies (projectID serviceID : String)
    (parents : List String) (expectedGeneration : Nat) (actor : GraphActor) :
    Except GraphError GraphStore := do
  let svc ← requireService st projectID serviceID
  refuseIf (svc.graphGeneration ≠ expectedGeneration) .stale
  assertServiceNotFileManaged svc
  let (st', _) ← applyServiceDependencies st projectID serviceID parents actor
  pure st'

def newService (svc : Service) : Service := { svc with graphGeneration := 0, managedBy := none }

/-- A new service with its parents. -/
def createServiceWithDependencies (svc : Service) (parents : List String)
    (actor : GraphActor) : Except GraphError GraphStore := do
  refuseIf (st.services.get svc.id).isSome .constraint
  refuseIf (st.services.rows.any fun s => s.projectID = svc.projectID ∧ s.slug = svc.slug) .conflict
  let created := { st with services := st.services.insertNew (newService svc) }
  let (st', _) ← applyServiceDependencies created svc.projectID svc.id parents actor
  pure st'

/-- The services of a file that depend on the service. -/
def pinningServices (id : String) : List Service :=
  (st.services.rows.filter fun s => s.managedBy.isSome ∧ DependsOn st.edges s.id id).insertionSort
    fun s t => s.slug ≤ t.slug

def assertServiceNotPinnedByFileEdges (id : String) : Except GraphError Unit :=
  match (pinningServices st id).head? with
  | some s => .error (.pinnedByFile (s.managedBy.getD "") s.slug)
  | none => .ok ()

/-- `rendered` is the component and the page that show the service. -/
def assertServiceNotRendered : Option (String × String) → Except GraphError Unit
  | some (component, page) => .error (.rendered component page)
  | none => .ok ()

/-- A service that a file manages or depends on, or that is rendered, stays. -/
def deleteService (projectID id : String) (rendered : Option (String × String)) :
    Except GraphError GraphStore := do
  let svc ← requireService st projectID id
  assertServiceNotFileManaged svc
  assertServiceNotPinnedByFileEdges st id
  assertServiceNotRendered rendered
  let row : AuditRow :=
    { projectID
      actorUserID := none
      viaToken := false
      action := "service.deleted"
      target := "service=" ++ id }
  pure { services := st.services.delete fun s => s.id = id
         edges := st.edges.filter fun e => e.1 ≠ id ∧ e.2 ≠ id
         audit := st.audit ++ [row] }

/-- The writes of the graph. -/
inductive GraphOp
  /-- Any transaction that holds the row of a service of the project. -/
  | apply (projectID serviceID : String) (parents : List String) (actor : GraphActor)
  | replace (projectID serviceID : String) (parents : List String) (expectedGeneration : Nat)
      (actor : GraphActor)
  | create (svc : Service) (parents : List String) (actor : GraphActor)
  | delete (projectID id : String) (rendered : Option (String × String))
  | manage (id : String) (provider : Option String)

def setManagedBy (id : String) (provider : Option String) : GraphStore :=
  { st with
    services := st.services.update (fun s => s.id = id) (fun s => { s with managedBy := provider })
      fun _ => rfl }

def GraphOp.run : GraphOp → Except GraphError GraphStore
  | .apply projectID serviceID parents actor => do
    let _ ← requireService st projectID serviceID
    let (st', _) ← applyServiceDependencies st projectID serviceID parents actor
    pure st'
  | .replace projectID serviceID parents expectedGeneration actor =>
    replaceServiceDependencies st projectID serviceID parents expectedGeneration actor
  | .create svc parents actor => createServiceWithDependencies st svc parents actor
  | .delete projectID id rendered => deleteService st projectID id rendered
  | .manage id provider => pure (setManagedBy st id provider)

/-- A write that is refused is no step. -/
def graphStep (op : GraphOp) : Option GraphStore := (op.run st).toOption

/-- The graph has no cycle, stays in its project and within its limits. -/
structure GraphBounds (projectOf : String → Option String) (G : String → String → Prop) : Prop where
  acyclic : Acyclic G
  inside : ∀ a b, G a b → ∃ p, projectOf a = some p ∧ projectOf b = some p
  parents : ∀ a, ∀ ps : List String, ps.Nodup → (∀ p ∈ ps, G a p) →
    ps.length ≤ maxServiceDependencies
  depth : Depth G serviceGraphDepthCap

abbrev GraphStore.Bounded : Prop := GraphBounds st.projectOf (DependsOn st.edges)

section

variable {projectOf : String → Option String} {G : String → String → Prop} {c projectID : String}
  {parents : List String}

theorem graphBounds_of_no_edge (h : ∀ a b, ¬ G a b) : GraphBounds projectOf G where
  acyclic := acyclic_of_no_edge h
  inside a b hab := absurd hab (h a b)
  parents a ps _ hps := by
    cases ps with
    | nil => exact Nat.zero_le _
    | cons p ps => exact absurd (hps p mem_cons_self) (h a p)
  depth := depth_of_no_edge h _

theorem GraphBounds.anti {projectOf' : String → Option String} {G' : String → String → Prop}
    (h : GraphBounds projectOf G) (hG : ∀ a b, G' a b → G a b)
    (hin : ∀ a b, G' a b → projectOf' a = projectOf a ∧ projectOf' b = projectOf b) :
    GraphBounds projectOf' G' where
  acyclic := h.acyclic.mono hG
  inside a b hab := by
    obtain ⟨p, ha, hb⟩ := h.inside a b (hG a b hab)
    obtain ⟨ha', hb'⟩ := hin a b hab
    exact ⟨p, ha'.trans ha, hb'.trans hb⟩
  parents a ps hn hps := h.parents a ps hn fun p hp => hG a p (hps p hp)
  depth := h.depth.mono hG

/-- **When a replacement keeps the bounds**: the new parents are services of the project, not too
many, none reaches the written service, and no chain over a new edge is too long. -/
theorem graphBounds_replaceOut_iff (h : GraphBounds projectOf G) (hc : projectOf c = some projectID)
    (hn : parents.Nodup) : GraphBounds projectOf (replaceOut G c (· ∈ parents)) ↔
      (∀ p ∈ parents, projectOf p = some projectID) ∧ parents.length ≤ maxServiceDependencies ∧
        (∀ p ∈ parents, ∀ m, ¬ Walk G m p c) ∧
        ∀ i j a p b, Walk G i a c → p ∈ parents → Walk G j p b →
          i + 1 + j ≤ serviceGraphDepthCap := by
  constructor
  · intro h'
    have hout := (acyclic_replaceOut_iff h.acyclic).1 h'.acyclic
    refine ⟨?_, ?_, hout, (depth_replaceOut_iff h.depth hout).1 h'.depth⟩
    · intro p hp
      obtain ⟨q, hq, hpq⟩ := h'.inside c p (replaceOut_self.2 hp)
      rw [hpq, ← hq, hc]
    · exact h'.parents c parents hn fun p hp => replaceOut_self.2 hp
  · rintro ⟨hin, hlen, hout, hdepth⟩
    refine ⟨(acyclic_replaceOut_iff h.acyclic).2 hout, ?_, ?_,
      (depth_replaceOut_iff h.depth hout).2 hdepth⟩
    · rintro a b (⟨rfl, hb⟩ | ⟨-, hab⟩)
      · exact ⟨projectID, hc, hin b hb⟩
      · exact h.inside a b hab
    · intro a ps hps hall
      by_cases hac : a = c
      · subst hac
        have hsub : ∀ p ∈ ps, p ∈ parents := fun p hp => replaceOut_self.1 (hall p hp)
        exact (subperm_of_subset hps hsub).length_le.trans hlen
      · exact h.parents a ps hps fun p hp => (replaceOut_of_ne hac).1 (hall p hp)

end

/-! ## What a write does -/

section

variable {st st' : GraphStore} {projectID serviceID : String} {parents requested : List String}
  {actor : GraphActor} {svc : Service} {changed : Bool}

theorem requireService_eq_ok : requireService st projectID serviceID = .ok svc ↔
      st.services.get serviceID = some svc ∧ svc.projectID = projectID := by
  unfold requireService
  split
  · next svc' h =>
    rw [Option.filter_eq_some_iff, decide_eq_true_eq] at h
    constructor
    · rintro ⟨⟩
      exact h
    · rintro ⟨hget, -⟩
      rw [h.1] at hget
      cases hget
      rfl
  · next h =>
    refine iff_of_false (by simp) ?_
    rintro ⟨hget, hp⟩
    rw [hget] at h
    simp [hp] at h

open GraphStore

theorem requireService_project (h : requireService st projectID serviceID = .ok svc) :
    st.projectOf serviceID = some projectID := by
  obtain ⟨hget, hp⟩ := requireService_eq_ok.1 h
  rw [projectOf, hget, Option.map_some, hp]

theorem length_namedServices_iff (hn : parents.Nodup) :
    (namedServices st projectID serviceID parents).length = parents.length ↔
      ∀ p ∈ parents, p ≠ serviceID ∧ st.projectOf p = some projectID := by
  have hmem {x : String} : x ∈ namedServices st projectID serviceID parents ↔
      x ∈ parents ∧ x ≠ serviceID ∧ st.projectOf x = some projectID := by
    simp only [namedServices, mem_map, mem_filter, decide_eq_true_eq,
      projectOf, Option.map_eq_some_iff]
    constructor
    · rintro ⟨s, ⟨hs, hp, hin, hne⟩, rfl⟩
      exact ⟨hin, hne, s, get_of_mem hs, hp⟩
    · rintro ⟨hin, hne, s, hget, hp⟩
      obtain ⟨hs, rfl⟩ := get_eq_some_iff.1 hget
      exact ⟨s, ⟨hs, hp, hin, hne⟩, rfl⟩
  have hnodup : (namedServices st projectID serviceID parents).Nodup :=
    st.services.keyed.sublist (filter_sublist.map Service.id)
  rw [length_eq_iff_forall_mem hnodup hn fun x hx => (hmem.1 hx).1]
  exact forall₂_congr fun p hp => by rw [hmem]; simp [hp]

/-- **The cycle walk is exhaustive**: the depth of the graph is at most where it stops. -/
theorem mem_reachedWithin_iff_walk (h : st.Bounded) :
    serviceID ∈ reachedWithin (parentsOf st.edges) serviceGraphDepthCap parents ↔
      ∃ p ∈ parents, ∃ m, Walk (DependsOn st.edges) (m + 1) p serviceID := by
  rw [mem_reachedWithin, dependsOn_next]
  constructor
  · rintro ⟨k, -, p, hp, hw⟩
    exact ⟨p, hp, k, hw⟩
  · rintro ⟨p, hp, m, hw⟩
    exact ⟨m, h.depth _ _ _ hw, p, hp, hw⟩

theorem deepest_add_deepest_le_iff (h : st.Bounded) (hne : parents ≠ []) :
    deepest (parentsOf st.edges) (serviceGraphDepthCap + 1) parents + 1 +
        deepest (childrenOf st.edges) (serviceGraphDepthCap + 1) [serviceID] ≤
        serviceGraphDepthCap ↔
      ∀ i j a p b, Walk (DependsOn st.edges) i a serviceID → p ∈ parents →
        Walk (DependsOn st.edges) j p b → i + 1 + j ≤ serviceGraphDepthCap := by
  constructor
  · intro hle i j a p b hi hp hj
    have hup : j ≤ deepest (parentsOf st.edges) (serviceGraphDepthCap + 1) parents := by
      apply Walk.le_deepest (dependsOn_next ▸ hj) hp
      exact (h.depth _ _ _ hj).trans (Nat.le_succ _)
    have hdown : i ≤ deepest (childrenOf st.edges) (serviceGraphDepthCap + 1) [serviceID] := by
      apply Walk.le_deepest (dependedOnBy_next ▸ hi.reverse) (mem_singleton_self serviceID)
      exact (h.depth _ _ _ hi).trans (Nat.le_succ _)
    omega
  · intro hall
    obtain ⟨p, hp, b, hup⟩ := exists_walk_deepest (parentsOf st.edges)
        (serviceGraphDepthCap + 1) hne
    obtain ⟨c, hc, a, hdown⟩ := exists_walk_deepest (childrenOf st.edges) (serviceGraphDepthCap + 1)
      (cons_ne_nil serviceID [])
    obtain rfl := mem_singleton.1 hc
    rw [dependsOn_next] at hup
    rw [dependedOnBy_next, walk_flip_iff] at hdown
    have := hall _ _ _ _ _ hdown hp hup
    omega

theorem checkParents_eq_ok (h : st.Bounded) (hc : st.projectOf serviceID = some projectID)
    (hn : parents.Nodup) (hlen : parents.length ≤ maxServiceDependencies) {u : Unit} :
    checkParents st projectID serviceID parents = .ok u ↔
      GraphBounds st.projectOf (replaceOut (DependsOn st.edges) serviceID (· ∈ parents)) := by
  rw [graphBounds_replaceOut_iff h hc hn, checkParents]
  split
  · next hnil =>
    subst hnil
    exact iff_of_true rfl ⟨by simp, hlen, by simp, by simp⟩
  next hne =>
  simp only [bind_eq_ok, refuseIf_eq_ok, decide_eq_false_iff_not, not_not, Nat.not_lt,
    length_namedServices_iff hn, mem_reachedWithin_iff_walk h, deepest_add_deepest_le_iff h hne]
  constructor
  · rintro ⟨-, hin, -, hcycle, hdepth⟩
    refine ⟨fun p hp => (hin p hp).2, hlen, ?_, hdepth⟩
    intro p hp m hw
    cases m with
    | zero => exact (hin p hp).1 hw.eq_of_zero
    | succ m => exact hcycle ⟨p, hp, m, hw⟩
  · rintro ⟨hin, -, hout, hdepth⟩
    refine ⟨(), ?_, (), ?_, hdepth⟩
    · intro p hp
      refine ⟨?_, hin p hp⟩
      rintro rfl
      exact hout p hp 0 (.nil p)
    · rintro ⟨p, hp, m, hw⟩
      exact hout p hp _ hw

theorem foldlM_insertServiceDependency (hc : st.projectOf serviceID = some projectID)
    (hn : parents.Nodup) (hlegal : ∀ p ∈ parents, p ≠ serviceID ∧ st.projectOf p = some projectID ∧
      ¬ DependsOn st.edges serviceID p) : parents.foldlM (insertServiceDependency serviceID) st =
      .ok { st with edges := st.edges ++ parents.map fun p => (serviceID, p) } := by
  induction parents generalizing st with
  | nil => simp [pure, Except.pure]
  | cons p ps ih =>
    obtain ⟨hp, hps⟩ := nodup_cons.1 hn
    obtain ⟨hne, hproj, hnew⟩ := hlegal p mem_cons_self
    have hinsert : insertServiceDependency serviceID st p =
        .ok { st with edges := st.edges ++ [(serviceID, p)] } := by
      simp [insertServiceDependency, hc, hne, hproj, hnew, refuseIf, bind, Except.bind, pure,
        Except.pure]
    rw [foldlM_cons, hinsert]
    have happ : st.edges ++ (p :: ps).map (fun q => (serviceID, q)) =
        (st.edges ++ [(serviceID, p)]) ++ ps.map fun q => (serviceID, q) := by simp
    rw [happ]
    refine @ih { st with edges := st.edges ++ [(serviceID, p)] } hc hps ?_
    intro q hq
    obtain ⟨hne', hproj', hnew'⟩ := hlegal q (mem_cons_of_mem p hq)
    refine ⟨hne', hproj', ?_⟩
    rw [DependsOn, mem_append, mem_singleton]
    rintro (hmem | ⟨-, rfl⟩)
    · exact hnew' hmem
    · exact hp hq

theorem projectOf_bumpGraphGeneration (id : String) :
    (bumpGraphGeneration st serviceID).projectOf id = st.projectOf id := by
  simp only [projectOf, bumpGraphGeneration, get_update, Option.map_map]
  congr 1
  funext s
  by_cases hs : s.id = serviceID <;> simp [hs]

theorem unchanged_iff (hn : parents.Nodup) :
    ((currentParents st serviceID).length = parents.length ∧
        ∀ id ∈ parents, id ∈ currentParents st serviceID) ↔
      ∀ x, x ∈ parents ↔ DependsOn st.edges serviceID x := by
  have hmem {x : String} : x ∈ currentParents st serviceID ↔ DependsOn st.edges serviceID x := by
    rw [currentParents, mem_dedup, mem_parentsOf]
  simp only [hmem]
  constructor
  · rintro ⟨hlen, hall⟩ x
    refine ⟨hall x, fun hx => ?_⟩
    have hsub : ∀ y ∈ parents, y ∈ currentParents st serviceID := fun y hy => hmem.2 (hall y hy)
    exact (length_eq_iff_forall_mem hn (nodup_dedup _) hsub).1 hlen.symm x (hmem.2 hx)
  · intro hall
    refine ⟨?_, fun x hx => (hall x).1 hx⟩
    have hsub : ∀ y ∈ parents, y ∈ currentParents st serviceID := fun y hy => hmem.2 ((hall y).1 hy)
    exact ((length_eq_iff_forall_mem hn (nodup_dedup _) hsub).2
      fun y hy => (hall y).2 (hmem.1 hy)).symm

/-- What a change of parents leaves. -/
def writtenStore (st : GraphStore) (projectID serviceID : String) (parents : List String)
    (actor : GraphActor) : GraphStore :=
  let inserted := { st with edges := replaceParents st.edges serviceID parents }
  let bumped := bumpGraphGeneration inserted serviceID
  { bumped with
    audit := st.audit ++
      [dependenciesAudit st projectID serviceID (currentParents st serviceID) parents actor] }

theorem dependsOn_writtenStore :
    DependsOn (writtenStore st projectID serviceID parents actor).edges =
      replaceOut (DependsOn st.edges) serviceID (· ∈ parents) :=
  dependsOn_replaceParents

theorem projectOf_writtenStore (id : String) :
    (writtenStore st projectID serviceID parents actor).projectOf id = st.projectOf id :=
  projectOf_bumpGraphGeneration id

theorem insert_after_check (hc : st.projectOf serviceID = some projectID) (hn : parents.Nodup)
    (hok : GraphBounds st.projectOf (replaceOut (DependsOn st.edges) serviceID (· ∈ parents))) :
    parents.foldlM (insertServiceDependency serviceID)
        { st with edges := clearParents st.edges serviceID } =
      .ok { st with edges := replaceParents st.edges serviceID parents } := by
  refine @foldlM_insertServiceDependency { st with edges := clearParents st.edges serviceID }
    projectID serviceID parents hc hn ?_
  intro p hp
  have hedge : replaceOut (DependsOn st.edges) serviceID (· ∈ parents) serviceID p :=
    replaceOut_self.2 hp
  obtain ⟨q, hq, hpq⟩ := hok.inside _ _ hedge
  refine ⟨?_, ?_, ?_⟩
  · rintro rfl
    exact hok.acyclic 0 p (.cons hedge (.nil p))
  · exact hpq.trans (hq.symm.trans hc)
  · simp [clearParents, DependsOn]

/-- **What a write does** in a graph that has the four bounds: nothing, when the set is the stored
one; otherwise it is carried out exactly if the resulting graph has them too. -/
theorem applyServiceDependencies_eq_ok (h : st.Bounded)
    (hc : st.projectOf serviceID = some projectID) :
    applyServiceDependencies st projectID serviceID requested actor = .ok (st', changed) ↔
      ((∀ x, x ∈ dedupe requested ↔ DependsOn st.edges serviceID x) ∧ st' = st ∧ changed = false) ∨
      (¬ (∀ x, x ∈ dedupe requested ↔ DependsOn st.edges serviceID x) ∧ GraphBounds st.projectOf
          (replaceOut (DependsOn st.edges) serviceID (· ∈ dedupe requested)) ∧
        st' = writtenStore st projectID serviceID (dedupe requested) actor ∧ changed) := by
  have hn := dedupe_nodup requested
  rw [applyServiceDependencies]
  generalize dedupe requested = parents at hn ⊢
  rw [bind_eq_ok]
  simp only [refuseIf_eq_ok, decide_eq_false_iff_not, Nat.not_lt]
  by_cases hsame : ∀ x, x ∈ parents ↔ DependsOn st.edges serviceID x
  · have hlen : parents.length ≤ maxServiceDependencies :=
      h.parents serviceID parents hn fun p hp => (hsame p).1 hp
    rw [if_pos ((unchanged_iff hn).2 hsame)]
    simp [hsame, hlen, pure, Except.pure, eq_comm]
  · rw [if_neg fun hun => hsame ((unchanged_iff hn).1 hun)]
    simp only [hsame, false_and, not_false_eq_true, true_and, false_or, bind_eq_ok]
    constructor
    · rintro ⟨⟨⟩, hlen, ⟨⟩, hcheck, inserted, hins, hrun⟩
      have hok := (checkParents_eq_ok h hc hn hlen).1 hcheck
      rw [insert_after_check hc hn hok] at hins
      cases hins
      cases hrun
      exact ⟨hok, rfl, rfl⟩
    · rintro ⟨hok, rfl, rfl⟩
      have hlen := ((graphBounds_replaceOut_iff h hc hn).1 hok).2.1
      exact ⟨(), hlen, (), (checkParents_eq_ok h hc hn hlen).2 hok, _,
        insert_after_check hc hn hok, rfl⟩

theorem applyServiceDependencies_bounded (h : st.Bounded)
    (hc : st.projectOf serviceID = some projectID)
    (hrun : applyServiceDependencies st projectID serviceID requested actor = .ok (st', changed)) :
    st'.Bounded := by
  rcases (applyServiceDependencies_eq_ok h hc).1 hrun with ⟨-, rfl, -⟩ | ⟨-, hok, rfl, -⟩
  · exact h
  · rw [Bounded, dependsOn_writtenStore,
      show (writtenStore st projectID serviceID (dedupe requested) actor).projectOf =
        st.projectOf from
        funext projectOf_writtenStore]
    exact hok

end

/-! ## Every run -/

section

variable {st st' : GraphStore}

theorem projectOf_setManagedBy (id : String) (provider : Option String) (x : String) :
    (setManagedBy st id provider).projectOf x = st.projectOf x := by
  simp only [GraphStore.projectOf, setManagedBy, get_update, Option.map_map]
  congr 1
  funext s
  by_cases hs : s.id = id <;> simp [hs]

theorem bounded_insertNew (h : st.Bounded) (svc : Service) :
    ({ st with services := st.services.insertNew svc } : GraphStore).Bounded := by
  refine h.anti (fun _ _ => id) ?_
  have hkeep {a p : String} (ha : st.projectOf a = some p) :
      ({ st with services := st.services.insertNew svc } : GraphStore).projectOf a =
        st.projectOf a := by
    simp only [GraphStore.projectOf, Option.map_eq_some_iff] at ha ⊢
    obtain ⟨s, hs, -⟩ := ha
    rw [get_insertNew, hs, Option.some_or]
  intro a b hab
  obtain ⟨p, ha, hb⟩ := h.inside a b hab
  exact ⟨hkeep ha, hkeep hb⟩

theorem bounded_delete (h : st.Bounded) (id : String) (audit : List AuditRow) :
    ({ services := st.services.delete fun s => s.id = id
       edges := st.edges.filter fun e => e.1 ≠ id ∧ e.2 ≠ id
       audit } : GraphStore).Bounded := by
  refine h.anti (fun a b hab => dependsOn_of_filter hab) ?_
  have hkeep {a : String} (ha : a ≠ id) :
      ({ services := st.services.delete fun s => s.id = id, edges := st.edges, audit } :
        GraphStore).projectOf a = st.projectOf a := by
    simp only [GraphStore.projectOf, get_delete]
    cases hget : st.services.get a with
    | none => rfl
    | some s =>
      have hs : s.id ≠ id := by rwa [key_of_get hget]
      simp [Option.filter, hs]
  intro a b hab
  have hne := (mem_filter.1 hab).2
  simp only [decide_eq_true_eq] at hne
  exact ⟨hkeep hne.1, hkeep hne.2⟩

theorem graphStep_bounded {op : GraphOp} (h : st.Bounded) (hstep : graphStep st op = some st') :
    st'.Bounded := by
  have hrun : op.run st = .ok st' := toOption_eq_some.1 hstep
  cases op with
  | apply projectID serviceID parents actor =>
    obtain ⟨svc, hsvc, hrun⟩ := bind_eq_ok.1 hrun
    obtain ⟨⟨t, changed⟩, happly, hpure⟩ := bind_eq_ok.1 hrun
    cases hpure
    exact applyServiceDependencies_bounded h (requireService_project hsvc) happly
  | replace projectID serviceID parents generation actor =>
    obtain ⟨svc, hsvc, hrun⟩ := bind_eq_ok.1 hrun
    obtain ⟨-, -, hrun⟩ := bind_eq_ok.1 hrun
    obtain ⟨-, -, hrun⟩ := bind_eq_ok.1 hrun
    obtain ⟨⟨t, changed⟩, happly, hpure⟩ := bind_eq_ok.1 hrun
    cases hpure
    exact applyServiceDependencies_bounded h (requireService_project hsvc) happly
  | create svc parents actor =>
    obtain ⟨⟨⟩, hnew, hrun⟩ := bind_eq_ok.1 hrun
    obtain ⟨-, -, hrun⟩ := bind_eq_ok.1 hrun
    obtain ⟨⟨t, changed⟩, happly, hpure⟩ := bind_eq_ok.1 hrun
    cases hpure
    have hnone : st.services.get svc.id = none := by simpa using refuseIf_eq_ok.1 hnew
    refine applyServiceDependencies_bounded (bounded_insertNew h (newService svc)) ?_ happly
    rw [GraphStore.projectOf, get_insertNew, hnone]
    simp [newService]
  | delete projectID id rendered =>
    obtain ⟨svc, -, hrun⟩ := bind_eq_ok.1 hrun
    obtain ⟨⟨⟩, -, hrun⟩ := bind_eq_ok.1 hrun
    obtain ⟨⟨⟩, -, hrun⟩ := bind_eq_ok.1 hrun
    obtain ⟨⟨⟩, -, hrun⟩ := bind_eq_ok.1 hrun
    cases hrun
    exact bounded_delete h id _
  | manage id provider =>
    cases hrun
    rw [GraphStore.Bounded, show (setManagedBy st id provider).projectOf = st.projectOf from
      funext (projectOf_setManagedBy id provider)]
    exact h

def startStore (services : Table Service.id) : GraphStore := ⟨services, [], []⟩

theorem reach_bounded {services : Table Service.id}
    (h : Reach graphStep anyStep (startStore services) st) : st.Bounded := by
  refine h.invariant (I := GraphStore.Bounded) ?_ ?_
  · exact graphBounds_of_no_edge fun _ _ => not_mem_nil
  · intro s op s' hs _ hstep
    exact graphStep_bounded hs hstep

theorem mem_dedupe_of_existing {requested : List String}
    (hex : ∀ p ∈ requested, (st.services.get p).isSome) {x : String} :
    x ∈ dedupe requested ↔ x ∈ requested := by
  rw [mem_dedupe, and_iff_left_iff_imp]
  intro hx
  obtain ⟨svc, hsvc⟩ := Option.isSome_iff_exists.1 (hex x hx)
  rw [← key_of_get hsvc]
  exact svc.id_ne

theorem replaceServiceDependencies_eq_apply {svc : Service}
    (hsvc : st.services.get svc.id = some svc)
    (howner : svc.managedBy = none) (parents : List String) (actor : GraphActor) :
    replaceServiceDependencies st svc.projectID svc.id parents svc.graphGeneration actor =
      (applyServiceDependencies st svc.projectID svc.id parents actor).map Prod.fst := by
  have hreq := requireService_eq_ok.2 ⟨hsvc, rfl⟩
  have hfresh : refuseIf (svc.graphGeneration ≠ svc.graphGeneration) GraphError.stale = .ok () :=
    refuseIf_of_false (by simp)
  have hfree : assertServiceNotFileManaged svc = .ok () :=
    refuseIf_of_false (by rw [howner]; rfl)
  rw [replaceServiceDependencies, hreq]
  simp only [bind, Except.bind, hfresh, hfree]
  cases applyServiceDependencies st svc.projectID svc.id parents actor <;> rfl

/-- **Writes to the service graph are exact.** A replacement of a service's parents is accepted
exactly if the resulting graph has the four bounds. -/
theorem serviceGraph_exact {services : Table Service.id}
    (h : Reach graphStep anyStep (startStore services) st) : st.Bounded ∧
      ∀ svc parents actor, st.services.get svc.id = some svc →
        (∀ p ∈ parents, (st.services.get p).isSome) →
        ¬ (∀ x, x ∈ parents ↔ DependsOn st.edges svc.id x) →
        ((∃ r, applyServiceDependencies st svc.projectID svc.id parents actor = .ok r) ↔
            GraphBounds st.projectOf (replaceOut (DependsOn st.edges) svc.id (· ∈ parents))) ∧
          (∀ r, applyServiceDependencies st svc.projectID svc.id parents actor = .ok r →
            DependsOn r.1.edges = replaceOut (DependsOn st.edges) svc.id (· ∈ parents) ∧
              ∀ id, r.1.projectOf id = st.projectOf id) ∧
          (svc.managedBy = none →
            ((∃ st', replaceServiceDependencies st svc.projectID svc.id parents svc.graphGeneration
                actor = .ok st') ↔
              GraphBounds st.projectOf (replaceOut (DependsOn st.edges) svc.id
                (· ∈ parents)))) := by
  have hb := reach_bounded h
  refine ⟨hb, ?_⟩
  intro svc parents actor hsvc hex hdiff
  have hc : st.projectOf svc.id = some svc.projectID := by
    rw [GraphStore.projectOf, hsvc, Option.map_some]
  have hmem : ∀ x, x ∈ dedupe parents ↔ x ∈ parents := fun x => mem_dedupe_of_existing hex
  have hset : (· ∈ dedupe parents) = (· ∈ parents) := funext fun x => propext (hmem x)
  have hok {r : GraphStore × Bool} :
      applyServiceDependencies st svc.projectID svc.id parents actor = .ok r ↔
        GraphBounds st.projectOf (replaceOut (DependsOn st.edges) svc.id (· ∈ parents)) ∧
          r = (writtenStore st svc.projectID svc.id (dedupe parents) actor, true) := by
    obtain ⟨st', changed⟩ := r
    rw [applyServiceDependencies_eq_ok hb hc]
    simp [hmem, hdiff]
  have haccepted : (∃ r, applyServiceDependencies st svc.projectID svc.id parents actor = .ok r) ↔
      GraphBounds st.projectOf (replaceOut (DependsOn st.edges) svc.id (· ∈ parents)) := by
    constructor
    · rintro ⟨r, hr⟩
      exact (hok.1 hr).1
    · intro hbounds
      exact ⟨_, hok.2 ⟨hbounds, rfl⟩⟩
  refine ⟨haccepted, ?_, ?_⟩
  · intro r hr
    obtain ⟨-, rfl⟩ := hok.1 hr
    exact ⟨dependsOn_writtenStore.trans (by rw [hset]), projectOf_writtenStore⟩
  · intro howner
    rw [← haccepted, replaceServiceDependencies_eq_apply hsvc howner]
    cases applyServiceDependencies st svc.projectID svc.id parents actor <;> simp [Except.map]

end

def exampleService (id : String) (hid : id ≠ "") (hslug : validServiceSlug id = true) : Service :=
  { id
    projectID := "shop"
    slug := id
    graphGeneration := 0
    managedBy := none
    id_ne := hid
    slug_valid := hslug }

def exampleServices : Table Service.id :=
  ⟨[exampleService "checkout" (by decide) (by decide),
    exampleService "payments" (by decide) (by decide),
    exampleService "ledger" (by decide) (by decide)], by decide⟩

def exampleActor : GraphActor := ⟨"", false, "ops"⟩

def chainedStore : GraphStore :=
  finalState graphStep (startStore exampleServices)
    [.apply "shop" "checkout" ["payments"] exampleActor,
      .replace "shop" "payments" ["ledger", "ledger"] 0 exampleActor]

theorem serviceGraph_exact_chained : chainedStore.Bounded ∧
      ((∃ r, applyServiceDependencies chainedStore "shop" "ledger" ["checkout"]
        exampleActor = .ok r) ↔
        GraphBounds chainedStore.projectOf
          (replaceOut (DependsOn chainedStore.edges) "ledger" (· ∈ ["checkout"]))) := by
  have hreach : Reach graphStep anyStep (startStore exampleServices) chainedStore :=
    reach_finalState fun _ _ _ => trivial
  obtain ⟨hb, hexact⟩ := serviceGraph_exact hreach
  refine ⟨hb, (hexact (exampleService "ledger" (by decide) (by decide)) ["checkout"]
    exampleActor ?_ ?_ ?_).1⟩
  · decide +kernel
  · decide +kernel
  · intro hsame
    exact absurd ((hsame "checkout").1 mem_cons_self) (by unfold DependsOn; decide +kernel)

end Cerbix.Store
