import Cerbix.Domain.Incident
import Cerbix.Lib.Levels
import Cerbix.Store.ServiceGraph

/-!
# Impact correlation

`CorrelateIncident` of `internal/store/serviceimpact.go`: an attempt walks the service graph up and
down from each service of the incident's anchor, and links the incident, in both directions, with
the open incidents of the services it meets. A link row is inserted unless one with its incident,
service and role is there, so the first path that is written stays.

The walks find the canonical path, whichever end they start from (`walk_up_iff`, `walk_down_iff`).
So any attempt offers the same rows under the same keys (`offeredRows_spec`), and the attempt of the
later of two incidents writes the links of both (`correlateIncident_attempted`; together:
`impacts_determined`). For one incident alone the mirror fails (`own_root_without_own_affected`).
-/

namespace Cerbix.Store

open Cerbix.Lib Cerbix.Domain List Table

/-- The dependencies in one project, with the slugs that order them. -/
structure ProjectGraph where
  edges : Edges
  slug : Dict String String

variable (g : ProjectGraph)

namespace ProjectGraph

def slugOf (id : String) : String := (g.slug.get? id).getD ""

/-- The order in which the walks visit services. -/
def bySlug (ids : List String) : List String :=
  ids.insertionSort fun a b => g.slugOf a ≤ g.slugOf b

def parents (id : String) : List String := g.bySlug (parentsOf g.edges id)

def children (id : String) : List String := g.bySlug (childrenOf g.edges id)

/-- What a service depends on, with the path from it. -/
def walkUp (start : String) : Dict String (List String) :=
  search g.parents (fun base n => g.slugOf n :: base) pathKey g.bySlug serviceGraphDepthCap start
    [g.slugOf start]

/-- What depends on a service, with the path to it. -/
def walkDown (start : String) : Dict String (List String) :=
  search g.children (fun base n => base ++ [g.slugOf n]) pathKey g.bySlug serviceGraphDepthCap start
    [g.slugOf start]

end ProjectGraph

def loadProjectGraph (st : GraphStore) (projectID : String) : ProjectGraph where
  edges := st.edges.filter fun e => st.projectOf e.1 = some projectID
  slug := .ofList ((st.services.rows.filter fun s => s.projectID = projectID).map
    fun s => (s.id, s.slug))

/-- What an incident is about. -/
inductive Anchor
  | monitor (id : String)
  | service (id : String)
  | project
  deriving DecidableEq, Repr

/-- An incident, as far as correlation reads it. -/
structure AnchoredIncident where
  id : String
  anchor : Anchor
  startedAt : Int
  status : IncidentStatus
  deriving DecidableEq, Repr

def AnchoredIncident.open (i : AnchoredIncident) : Bool := i.status ≠ .resolved

inductive MemberRole
  | context
  | sli
  deriving DecidableEq, Repr

/-- A monitor of a service, and what it is there for. -/
structure MemberRef where
  serviceID : String
  monitorID : String
  role : MemberRole
  deriving DecidableEq, Repr

/-- The services that name the monitor. -/
def servicesOfMonitor (refs : List MemberRef) (monitorID : String) : List String :=
  ((refs.filter fun r => r.monitorID = monitorID ∧ r.role = .context).map MemberRef.serviceID)
    |>.insertionSort (· ≤ ·)

/-- The services that an incident is about. -/
def ownServices (refs : List MemberRef) : Anchor → List String
  | .monitor id => servicesOfMonitor refs id
  | .service id => [id]
  | .project => []

/-- A link between an incident and a service, with the path between them. -/
structure ImpactRow where
  incident : String
  service : String
  role : ImpactRole
  path : List String
  deriving DecidableEq, Repr

def ImpactRow.key (r : ImpactRow) : String × String × ImpactRole := (r.incident, r.service, r.role)

/-- The note in an incident's timeline about its new links. -/
structure ImpactNote where
  incident : String
  status : IncidentStatus
  body : String
  deriving DecidableEq, Repr

/-- What does not change in a run: the graph of the project and the members of its services. -/
structure ImpactContext where
  graph : GraphStore
  projectID : String
  refs : List MemberRef

open ImpactRow

/-- The incidents, their correlation events and their links. -/
structure ImpactStore where
  incidents : Table AnchoredIncident.id
  pending : List String
  impacts : Table key
  notes : List ImpactNote

/-! ## An attempt -/

section

variable (ctx : ImpactContext) (st : ImpactStore)

/-- The open incidents of a service, the anchor's own apart, the oldest first and not too many. -/
def witnesses (anchorID endpoint : String) : List String :=
  let found := st.incidents.rows.filter fun i =>
    i.open && decide (i.id ≠ anchorID) && decide (endpoint ∈ ownServices ctx.refs i.anchor)
  let oldest := found.insertionSort fun a b =>
    a.startedAt < b.startedAt ∨ (a.startedAt = b.startedAt ∧ a.id ≤ b.id)
  ((oldest.take maxCorrelationWitnessesPerService).map AnchoredIncident.id).insertionSort (· ≤ ·)

/-- A link that an attempt may write, and the incidents it rests on. -/
structure Candidate where
  row : ImpactRow
  witnesses : List String
  deriving DecidableEq, Repr

/-- What one more candidate does to the row that is kept under its key. -/
def mergeRow (prev c : ImpactRow) : ImpactRow :=
  if betterPath c.path prev.path then { prev with path := c.path } else prev

/-- Keep one candidate per key, with the better path and all witnesses. -/
def addCandidate (cs : List Candidate) (c : Candidate) : List Candidate :=
  match cs with
  | [] => [c]
  | prev :: rest =>
    if prev.row.key = c.row.key then
      { row := mergeRow prev.row c.row, witnesses := prev.witnesses ++ c.witnesses } :: rest
    else prev :: addCandidate rest c

/-- The links along a path up, in both directions. -/
def upCandidates (incidentID sOwn : String) (e : String × List String) : List Candidate :=
  (witnesses ctx st incidentID e.1).flatMap fun j =>
    [⟨⟨incidentID, e.1, .probableRoot, e.2⟩, [j]⟩, ⟨⟨j, sOwn, .affected, e.2⟩, [incidentID]⟩]

/-- The links along a path down, in both directions. -/
def downCandidates (incidentID sOwn : String) (e : String × List String) : List Candidate :=
  (witnesses ctx st incidentID e.1).flatMap fun j =>
    [⟨⟨incidentID, e.1, .affected, e.2⟩, [j]⟩, ⟨⟨j, sOwn, .probableRoot, e.2⟩, [j]⟩]

/-- The candidates of an attempt. The maps of the walks are visited in any order. -/
def candidates (incidentID : String) (own : List String)
    (order : MapOrder String (List String)) : List Candidate :=
  let g := loadProjectGraph ctx.graph ctx.projectID
  own.flatMap fun sOwn =>
    (order.visit (g.walkUp sOwn).entries).flatMap (upCandidates ctx st incidentID sOwn) ++
      (order.visit (g.walkDown sOwn).entries).flatMap (downCandidates ctx st incidentID sOwn)

def isOpen (id : String) : Bool := (st.incidents.get id).any AnchoredIncident.open

def candidateText (c : Candidate) : String :=
  c.row.incident ++ "|" ++ c.row.service ++ "|" ++ c.row.role.text

/-- Of the candidates, those of an open incident that rest on another open one. -/
def offeredRows (cs : List Candidate) : List ImpactRow :=
  let deduped := cs.foldl addCandidate []
  let sorted := deduped.insertionSort fun a b => candidateText a ≤ candidateText b
  (sorted.filter fun c => isOpen st c.row.incident && c.witnesses.any (isOpen st)).map Candidate.row

/-- The note about the rows that an attempt added to an incident. -/
def impactNote (rows : List ImpactRow) (incident : String) : Option ImpactNote :=
  let g := loadProjectGraph ctx.graph ctx.projectID
  let links := (rows.filter fun r => r.incident = incident).map fun r =>
    ServiceImpactLink.mk r.service (g.slugOf r.service) r.role r.path
  match st.incidents.get incident, renderImpactNote links with
  | some i, body => if body = "" then none else some ⟨incident, i.status, body⟩
  | none, _ => none

/-- Insert the links of an attempt that are new, with a note for each incident that gained one. -/
def writeLinks (cs : List Candidate) : ImpactStore :=
  let rows := offeredRows st cs
  let inserted := st.impacts.inserted rows
  { st with
    impacts := st.impacts.insertAll rows
    notes := st.notes ++
      (firstSeen [] (inserted.map incident)).filterMap (impactNote ctx st inserted) }

/-- `CorrelateIncident`, with the order in which Go visits a map. -/
def correlateIncident (incidentID : String) (order : MapOrder String (List String)) : ImpactStore :=
  match st.incidents.get incidentID with
  | none => st
  | some i =>
    let own := ownServices ctx.refs i.anchor
    if i.status = .resolved ∨ own = [] then st
    else if (loadProjectGraph ctx.graph ctx.projectID).edges = [] then st
    else writeLinks ctx st (candidates ctx st incidentID own order)

/-- What happens to incidents and their links. -/
inductive ImpactOp
  | openIncident (i : AnchoredIncident)
  /-- A delivery, or a repeated one, of an incident's correlation event. -/
  | deliver (incidentID : String) (order : MapOrder String (List String))

/-- An incident opens, or a correlation event is delivered. -/
def impactStep : ImpactOp → Option ImpactStore
  | .openIncident i =>
    if (st.incidents.get i.id).isSome ∨ i.status = .resolved then none else
    some { st with
      incidents := st.incidents.insertNew i
      pending := st.pending ++ [i.id] }
  | .deliver id order =>
    let st' := correlateIncident ctx st id order
    some { st' with pending := st'.pending.filter (· ≠ id) }

def emptyImpacts : ImpactStore := ⟨.empty, [], .empty, []⟩

end

/-! ## Canonical paths -/

section

variable {g : ProjectGraph}

/-- A walk of `n` edges from a root down to a service that depends on it, with the slugs
on the way. -/
inductive SlugWalk (g : ProjectGraph) : Nat → String → String → List String → Prop
  | nil (a : String) : SlugWalk g 0 a a [g.slugOf a]
  | cons {n : Nat} {a b c : String} {p : List String} : DependsOn g.edges b a → SlugWalk g n b c p →
      SlugWalk g (n + 1) a c (g.slugOf a :: p)

variable {n : Nat} {a b : String} {p : List String}

theorem SlugWalk.snoc {c : String} (h : SlugWalk g n a b p) (hbc : DependsOn g.edges c b) :
    SlugWalk g (n + 1) a c (p ++ [g.slugOf c]) := by
  induction h with
  | nil a => exact .cons hbc (.nil c)
  | cons hab _ ih => exact .cons hab (ih hbc)

theorem SlugWalk.unsnoc : ∀ {a c : String} {p : List String}, SlugWalk g (n + 1) a c p →
    ∃ b q, SlugWalk g n a b q ∧ DependsOn g.edges c b ∧ p = q ++ [g.slugOf c] := by
  induction n with
  | zero =>
    rintro a c p (_ | @⟨_, _, b, _, q, hab, hbc⟩)
    cases hbc
    exact ⟨a, [g.slugOf a], .nil a, hab, rfl⟩
  | succ n ih =>
    rintro a c p (_ | @⟨_, _, b, _, q, hab, hbc⟩)
    obtain ⟨d, r, hbd, hdc, rfl⟩ := ih hbc
    exact ⟨d, g.slugOf a :: r, .cons hab hbd, hdc, rfl⟩

theorem SlugWalk.walk (h : SlugWalk g n a b p) : Walk (DependsOn g.edges) n b a := by
  induction h with
  | nil a => exact .nil a
  | cons hab _ ih => exact ih.snoc hab

theorem SlugWalk.length (h : SlugWalk g n a b p) : p.length = n + 1 := by
  induction h with
  | nil a => rfl
  | cons _ _ ih => rw [length_cons, ih]

variable {s x : String} {l : List String} {root leaf : String}

open ProjectGraph

theorem label_up_iff :
    Label g.parents (fun base n => g.slugOf n :: base) s [g.slugOf s] n x l ↔
      SlugWalk g n x s l := by
  have hmem {a b : String} : b ∈ g.parents a ↔ DependsOn g.edges a b := by
    rw [parents, bySlug, (perm_insertionSort _ _).mem_iff, mem_parentsOf]
  constructor
  · intro h
    induction h with
    | nil => exact .nil s
    | snoc _ hy ih => exact .cons (hmem.1 hy) ih
  · intro h
    induction h with
    | nil a => exact .nil
    | cons hab _ ih => exact .snoc ih (hmem.2 hab)

theorem label_down_iff :
    Label g.children (fun base n => base ++ [g.slugOf n]) s [g.slugOf s] n x l ↔
      SlugWalk g n s x l := by
  have hmem {a b : String} : b ∈ g.children a ↔ DependsOn g.edges b a := by
    rw [children, bySlug, (perm_insertionSort _ _).mem_iff, mem_childrenOf]
  constructor
  · intro h
    induction h with
    | nil => exact .nil s
    | snoc _ hy ih => exact ih.snoc (hmem.1 hy)
  · induction n generalizing x l with
    | zero =>
      intro h
      cases h
      exact .nil
    | succ n ih =>
      intro h
      obtain ⟨b, q, hb, hbx, rfl⟩ := h.unsnoc
      exact .snoc (ih hb) (hmem.2 hbx)

/-- The canonical path from a root down to a service: no path between them is better. -/
def Canonical (g : ProjectGraph) (root leaf : String) (p : List String) : Prop :=
  (∃ k, SlugWalk g (k + 1) root leaf p) ∧ ∀ k q, SlugWalk g k root leaf q → pathRank p ≤ pathRank q

/-- Slugs keep paths apart, and no chain is longer than the cap. -/
structure ProjectGraph.Sound (g : ProjectGraph) : Prop where
  slug : ∀ id, '\x00' ∉ (g.slugOf id).toList
  depth : Depth (DependsOn g.edges) serviceGraphDepthCap

theorem SlugWalk.slugPath (hg : g.Sound) (h : SlugWalk g n a b p) : SlugPath p := by
  induction h with
  | nil a =>
    intro s hs
    rw [mem_singleton.1 hs]
    exact hg.slug a
  | cons _ _ ih =>
    intro s hs
    rcases mem_cons.1 hs with rfl | hs
    · exact hg.slug _
    · exact ih s hs

theorem Canonical.unique (hg : g.Sound) {q : List String}
    (hp : Canonical g root leaf p) (hq : Canonical g root leaf q) : p = q := by
  obtain ⟨⟨k, hk⟩, hleast⟩ := hp
  obtain ⟨⟨k', hk'⟩, hleast'⟩ := hq
  exact pathRank_inj (hk.slugPath hg) (hk'.slugPath hg)
    (le_antisymm (hleast _ q hk') (hleast' _ p hk))

theorem zero_le_char (c : Char) : '\x00' ≤ c := by
  exact UInt32.le_iff_toNat_le.2 (Nat.zero_le _)

theorem pathKey_cons_le {a b : List String} (s : String) (ha : a ≠ []) (hb : b ≠ [])
    (h : pathKey a ≤ pathKey b) : pathKey (s :: a) ≤ pathKey (s :: b) :=
  joined_cons_le _ _ (by simpa using ha) (by simpa using hb) h

theorem pathKey_snoc_le {a b : List String} (s : String) (hne : a ≠ []) (hlen : a.length = b.length)
    (ha : SlugPath a) (hb : SlugPath b) (h : pathKey a ≤ pathKey b) :
    pathKey (a ++ [s]) ≤ pathKey (b ++ [s]) := by
  rw [pathKey, pathKey, map_append, map_append]
  exact joined_snoc_le zero_le_char _ (by simpa using hne) (by simpa using hlen) ha.parts hb.parts h

theorem search_iff_canonical (hg : g.Sound) {next : String → List String}
    {extend : List String → String → List String}
    (hlabel : ∀ n l, Label next extend s [g.slugOf s] n x l ↔ SlugWalk g n root leaf l)
    (hmono : ∀ n x y l l', Label next extend s [g.slugOf s] n x l →
      Label next extend s [g.slugOf s] n x l' → pathKey l ≤ pathKey l' →
      pathKey (extend l y) ≤ pathKey (extend l' y)) :
    ((search next extend pathKey g.bySlug serviceGraphDepthCap s [g.slugOf s]).get? x = some p ↔
      Canonical g root leaf p) ∧ ∀ k q, SlugWalk g (k + 1) root leaf q →
      ((search next extend pathKey g.bySlug serviceGraphDepthCap s [g.slugOf s]).get?
        x).isSome := by
  have hperm : ∀ ks, (g.bySlug ks).Perm ks := fun ks => perm_insertionSort _ ks
  obtain ⟨hfound, hcomplete⟩ := search_spec hperm hmono serviceGraphDepthCap
  have hsound {q : List String}
      (hq : (search next extend pathKey g.bySlug serviceGraphDepthCap s [g.slugOf s]).get? x =
        some q) :
      Canonical g root leaf q := by
    obtain ⟨e, hpos, -, hshort, hl, hleast⟩ := hfound x q hq
    obtain ⟨k, rfl⟩ := Nat.exists_eq_succ_of_ne_zero hpos.ne'
    refine ⟨⟨k, (hlabel _ _).1 hl⟩, ?_⟩
    intro k' r hr
    have hlen := ((hlabel _ _).1 hl).length
    have hlen' := hr.length
    rw [pathRank, pathRank, Prod.Lex.toLex_le_toLex]
    rcases Nat.lt_or_ge k' (k + 1) with hlt | hge
    · exact absurd ((hlabel _ _).2 hr) (hshort.2 k' hlt r)
    rcases Nat.lt_or_ge (k + 1) k' with hlt' | hle
    · exact .inl (by simp only; omega)
    · obtain rfl : k' = k + 1 := by omega
      exact .inr ⟨hlen.trans hlen'.symm, hleast r ((hlabel _ _).2 hr)⟩
  have hmet {k : Nat} {q : List String} (hk : SlugWalk g (k + 1) root leaf q) :
      ((search next extend pathKey g.bySlug serviceGraphDepthCap s [g.slugOf s]).get?
        x).isSome := by
    obtain ⟨e, -, hshort⟩ := exists_shortest ((hlabel _ _).2 hk)
    have hpos : 0 < e := by
      rcases Nat.eq_zero_or_pos e with rfl | hpos
      · obtain ⟨l, hl⟩ := hshort.1
        obtain rfl := ((hlabel 0 l).1 hl).walk.eq_of_zero
        exact absurd hk.walk (hg.depth.acyclic k _)
      · exact hpos
    have hle : e ≤ serviceGraphDepthCap := by
      obtain ⟨l, hl⟩ := hshort.1
      exact hg.depth _ _ _ ((hlabel e l).1 hl).walk
    exact hcomplete x e hpos hle hshort
  refine ⟨⟨hsound, ?_⟩, fun _ _ => hmet⟩
  intro hp
  obtain ⟨⟨k, hk⟩, -⟩ := id hp
  obtain ⟨q, hq⟩ := Option.isSome_iff_exists.1 (hmet hk)
  rw [hq, (hsound hq).unique hg hp]

theorem walk_up_spec (hg : g.Sound) : ((g.walkUp s).get? a = some p ↔ Canonical g a s p) ∧
      ∀ k q, SlugWalk g (k + 1) a s q → ((g.walkUp s).get? a).isSome := by
  refine search_iff_canonical hg (fun n l => label_up_iff) ?_
  intro n x y l l' hl hl' hle
  have hlen := (label_up_iff.1 hl).length
  have hlen' := (label_up_iff.1 hl').length
  apply pathKey_cons_le _ _ _ hle
  · rintro rfl
    cases hlen
  · rintro rfl
    cases hlen'

theorem walk_up_iff (hg : g.Sound) : (g.walkUp s).get? a = some p ↔ Canonical g a s p :=
  (walk_up_spec hg).1

theorem walk_down_iff (hg : g.Sound) {d : String} :
    (g.walkDown s).get? d = some p ↔ Canonical g s d p := by
  refine (search_iff_canonical hg (fun n l => label_down_iff) ?_).1
  intro n x y l l' hl hl' hle
  have hlen := (label_down_iff.1 hl).length
  have hlen' := (label_down_iff.1 hl').length
  refine pathKey_snoc_le _ ?_ (hlen.trans hlen'.symm) ((label_down_iff.1 hl).slugPath hg)
    ((label_down_iff.1 hl').slugPath hg) hle
  rintro rfl
  cases hlen

theorem loadProjectGraph_sound {st : GraphStore} {projectID : String}
    (h : Depth (DependsOn (loadProjectGraph st projectID).edges) serviceGraphDepthCap) :
    (loadProjectGraph st projectID).Sound where
  slug id := by
    unfold slugOf
    cases hget : (loadProjectGraph st projectID).slug.get? id with
    | none => decide
    | some slug =>
      obtain ⟨svc, -, hsvc⟩ := mem_map.1 (Dict.mem_of_get?_ofList hget)
      rw [← (Prod.mk.inj hsvc).2]
      exact zero_not_mem_of_validServiceSlug svc.slug_valid
  depth := h

theorem GraphStore.Bounded.sound {st : GraphStore} (h : st.Bounded) (projectID : String) :
    (loadProjectGraph st projectID).Sound :=
  loadProjectGraph_sound (h.depth.mono fun _ _ hab => dependsOn_of_filter hab)

theorem exists_slugWalk (h : Walk (DependsOn g.edges) n b a) : ∃ p, SlugWalk g n a b p := by
  induction h with
  | nil a => exact ⟨_, .nil a⟩
  | cons hab _ ih =>
    obtain ⟨p, hp⟩ := ih
    exact ⟨_, hp.snoc hab⟩

theorem pathKey_lt {q : List String} (hlen : p.length = q.length) (hp : SlugPath p)
    (hq : SlugPath q)
    (h : p < q) : pathKey p < pathKey q := by
  refine joined_lt zero_le_char (by simpa using hlen) hp.parts hq.parts ?_
  exact List.map_lt (fun _ _ hst => String.lt_iff_toList_lt.1 hst) h

/-- No path from the root down to the service is shorter, and none as short comes before it in the
lexicographic order of the slugs. -/
def ShortestLeast (g : ProjectGraph) (root leaf : String) (p : List String) : Prop :=
  ∃ n, SlugWalk g n root leaf p ∧ ∀ m q, SlugWalk g m root leaf q → n < m ∨ n = m ∧ p ≤ q

theorem Canonical.shortestLeast (hg : g.Sound) (h : Canonical g root leaf p) :
    ShortestLeast g root leaf p := by
  obtain ⟨⟨k, hk⟩, hleast⟩ := h
  refine ⟨k + 1, hk, ?_⟩
  intro m q hq
  have hlen := hk.length
  have hlen' := hq.length
  rcases Prod.Lex.toLex_le_toLex.1 (hleast m q hq) with hlt | ⟨heq, hkey⟩
  · exact .inl (by simp only at hlt; omega)
  · refine .inr ⟨by simp only at heq; omega, not_lt.1 ?_⟩
    intro hlt
    exact absurd hkey (not_le.2 (pathKey_lt heq.symm (hq.slugPath hg) (hk.slugPath hg) hlt))

/-- **The walks find every ancestor and every descendant**, each by its shortest path and the least
of these, and the path between two services is the same from either end. -/
theorem walks_exact (st : GraphStore) (projectID s a : String)
    (hdepth : Depth (DependsOn (loadProjectGraph st projectID).edges) serviceGraphDepthCap) :
    let g := loadProjectGraph st projectID
    ((g.walkUp s).contains a ↔ ∃ n, Walk (DependsOn g.edges) (n + 1) s a) ∧
      ((g.walkDown s).contains a ↔ ∃ n, Walk (DependsOn g.edges) (n + 1) a s) ∧
      (∀ p, (g.walkUp s).get? a = some p → ShortestLeast g a s p) ∧
      (∀ p, (g.walkDown s).get? a = some p → ShortestLeast g s a p) ∧
      (g.walkUp s).get? a = (g.walkDown a).get? s := by
  intro g
  have hg : g.Sound := loadProjectGraph_sound hdepth
  have hsame (s a : String) : (g.walkUp s).get? a = (g.walkDown a).get? s :=
    Option.ext fun p => (walk_up_iff hg).trans (walk_down_iff hg).symm
  have hmet (s a : String) :
      (g.walkUp s).contains a ↔ ∃ n, Walk (DependsOn g.edges) (n + 1) s a := by
    constructor
    · intro h
      obtain ⟨p, hp⟩ := Option.isSome_iff_exists.1 h
      obtain ⟨⟨k, hk⟩, -⟩ := (walk_up_iff hg).1 hp
      exact ⟨k, hk.walk⟩
    · rintro ⟨n, hn⟩
      obtain ⟨q, hq⟩ := exists_slugWalk hn
      exact (walk_up_spec (p := q) hg).2 n q hq
  refine ⟨hmet s a, ?_, ?_, ?_, hsame s a⟩
  · rw [← hmet a s, Dict.contains, Dict.contains, hsame a s]
  · exact fun p hp => ((walk_up_iff hg).1 hp).shortestLeast hg
  · exact fun p hp => ((walk_down_iff hg).1 hp).shortestLeast hg

end

/-! ## The candidates of an attempt -/

section

theorem row_eq_of_key {r r' : ImpactRow} (h : r.key = r'.key) :
    { r with path := r'.path } = r' := by
  obtain ⟨i', s', role', path'⟩ := r'
  obtain ⟨rfl, rfl, rfl⟩ := h
  rfl

/-- What the deduplication has kept of the candidates `cs`. -/
structure Deduped (cs kept : List Candidate) : Prop where
  from_candidate : ∀ r ∈ kept, ∃ c ∈ cs, c.row = r.row
  best : ∀ r ∈ kept, ∀ c ∈ cs, c.row.key = r.row.key → pathRank r.row.path ≤ pathRank c.row.path
  all : ∀ c ∈ cs, ∃ r ∈ kept, r.row.key = c.row.key
  witnessed : ∀ r ∈ kept, r.witnesses ≠ []
  witnesses : ∀ r ∈ kept, ∀ w ∈ r.witnesses, ∃ c ∈ cs, w ∈ c.witnesses
  keyed : (kept.map fun r => r.row.key).Nodup

theorem mergeRow_key (prev c : ImpactRow) : (mergeRow prev c).key = prev.key := by
  unfold mergeRow
  split <;> rfl

theorem mergeRow_spec {prev c : ImpactRow} (hkey : prev.key = c.key) :
    (mergeRow prev c = prev ∨ mergeRow prev c = c) ∧
      pathRank (mergeRow prev c).path ≤ pathRank prev.path ∧
      pathRank (mergeRow prev c).path ≤ pathRank c.path := by
  unfold mergeRow
  split
  · next hbetter =>
    rw [row_eq_of_key hkey]
    exact ⟨.inr rfl, (betterPath_iff.1 hbetter).le, le_refl _⟩
  · next hworse =>
    exact ⟨.inl rfl, le_refl _, not_lt.1 fun hlt => hworse (betterPath_iff.2 hlt)⟩

variable {cs : List Candidate} {c : Candidate}

theorem map_key_addCandidate : (addCandidate cs c).map (fun r => r.row.key) =
    seeKey (cs.map fun r => r.row.key) c.row.key := by
  induction cs with
  | nil => rfl
  | cons p cs ih =>
    rw [addCandidate]
    split
    · next hp =>
      have hmem : c.row.key ∈ (p :: cs).map fun r => r.row.key := by simp [hp]
      rw [seeKey, if_pos hmem, map_cons, map_cons, mergeRow_key]
    · next hp => rw [map_cons, ih, map_cons, seeKey_cons_of_ne hp]

theorem of_mem_addCandidate {r : Candidate} (hn : (cs.map fun r => r.row.key).Nodup)
    (hr : r ∈ addCandidate cs c) : (r ∈ cs ∧ r.row.key ≠ c.row.key) ∨
      (∃ prev ∈ cs, prev.row.key = c.row.key ∧
        r = ⟨mergeRow prev.row c.row, prev.witnesses ++ c.witnesses⟩) ∨
      ((∀ prev ∈ cs, prev.row.key ≠ c.row.key) ∧ r = c) := by
  induction cs with
  | nil => exact .inr (.inr ⟨fun _ hp => absurd hp not_mem_nil, mem_singleton.1 hr⟩)
  | cons p cs ih =>
    rw [map_cons, nodup_cons] at hn
    rw [addCandidate] at hr
    split at hr
    · next hp =>
      rcases mem_cons.1 hr with rfl | hr
      · exact .inr (.inl ⟨p, mem_cons_self, hp, rfl⟩)
      · refine .inl ⟨mem_cons_of_mem p hr, fun hkey => hn.1 (mem_map.2 ⟨r, hr, ?_⟩)⟩
        exact hkey.trans hp.symm
    · next hp =>
      rcases mem_cons.1 hr with rfl | hr
      · exact .inl ⟨mem_cons_self, hp⟩
      · rcases ih hn.2 hr with ⟨hr, hne⟩ | ⟨prev, hprev, hmerged⟩ | ⟨hnone, rfl⟩
        · exact .inl ⟨mem_cons_of_mem p hr, hne⟩
        · exact .inr (.inl ⟨prev, mem_cons_of_mem p hprev, hmerged⟩)
        · exact .inr (.inr ⟨forall_mem_cons.2 ⟨hp, hnone⟩, rfl⟩)

theorem Deduped.add {kept : List Candidate} (h : Deduped cs kept) (hc : c.witnesses ≠ []) :
    Deduped (cs ++ [c]) (addCandidate kept c) := by
  have hin {d : Candidate} (hd : d ∈ cs) : d ∈ cs ++ [c] := mem_append_left _ hd
  have hlast : c ∈ cs ++ [c] := by simp
  refine ⟨?_, ?_, ?_, ?_, ?_, by rw [map_key_addCandidate]; exact seeKey_nodup h.keyed _⟩
  · intro r hr
    rcases of_mem_addCandidate h.keyed hr with ⟨hr, -⟩ | ⟨prev, hprev, hkey, rfl⟩ | ⟨-, rfl⟩
    · obtain ⟨d, hd, hrow⟩ := h.from_candidate r hr
      exact ⟨d, hin hd, hrow⟩
    · rcases (mergeRow_spec hkey).1 with heq | heq
      · obtain ⟨d, hd, hrow⟩ := h.from_candidate prev hprev
        exact ⟨d, hin hd, hrow.trans heq.symm⟩
      · exact ⟨c, hlast, heq.symm⟩
    · exact ⟨r, hlast, rfl⟩
  · intro r hr d hd hkey
    rw [mem_append, mem_singleton] at hd
    rcases of_mem_addCandidate h.keyed hr with
      ⟨hr, hne⟩ | ⟨prev, hprev, hprevkey, rfl⟩ | ⟨hnone, rfl⟩
    · rcases hd with hd | rfl
      · exact h.best r hr d hd hkey
      · exact absurd hkey.symm hne
    · rw [mergeRow_key] at hkey
      obtain ⟨-, hleprev, hlec⟩ := mergeRow_spec hprevkey
      rcases hd with hd | rfl
      · exact hleprev.trans (h.best prev hprev d hd hkey)
      · exact hlec
    · rcases hd with hd | rfl
      · obtain ⟨prev, hprev, hprevkey⟩ := h.all d hd
        exact absurd (hprevkey.trans hkey) (hnone prev hprev)
      · exact le_refl _
  · intro d hd
    rw [mem_append, mem_singleton] at hd
    have hmem : d.row.key ∈ (addCandidate kept c).map fun r => r.row.key := by
      rw [map_key_addCandidate, mem_seeKey]
      exact hd.imp (fun hd => mem_map.2 (h.all d hd)) (congrArg fun d : Candidate => d.row.key)
    exact mem_map.1 hmem
  · intro r hr
    rcases of_mem_addCandidate h.keyed hr with ⟨hr, -⟩ | ⟨prev, -, -, rfl⟩ | ⟨-, rfl⟩
    · exact h.witnessed r hr
    · simp [hc]
    · exact hc
  · intro r hr w hw
    rcases of_mem_addCandidate h.keyed hr with ⟨hr, -⟩ | ⟨prev, hprev, -, rfl⟩ | ⟨-, rfl⟩
    · obtain ⟨d, hd, hmem⟩ := h.witnesses r hr w hw
      exact ⟨d, hin hd, hmem⟩
    · rcases mem_append.1 hw with hw | hw
      · obtain ⟨d, hd, hmem⟩ := h.witnesses prev hprev w hw
        exact ⟨d, hin hd, hmem⟩
      · exact ⟨c, hlast, hw⟩
    · exact ⟨r, hlast, hw⟩

theorem deduped (cs : List Candidate) (hw : ∀ c ∈ cs, c.witnesses ≠ []) :
    Deduped cs (cs.foldl addCandidate []) := by
  have hrun : ∀ rest done kept : List Candidate, (∀ c ∈ rest, c.witnesses ≠ []) →
      Deduped done kept → Deduped (done ++ rest) (rest.foldl addCandidate kept) := by
    intro rest
    induction rest with
    | nil =>
      intro done kept _ h
      simpa using h
    | cons c rest ih =>
      intro done kept hrest h
      have hstep := ih _ _ (fun d hd => hrest d (mem_cons_of_mem c hd))
        (h.add (hrest c mem_cons_self))
      simpa using hstep
  refine hrun cs [] [] hw ⟨?_, ?_, ?_, ?_, ?_, nodup_nil⟩ <;> simp

end

/-! ## What an attempt writes -/

section

variable {ctx : ImpactContext} {st : ImpactStore}

abbrev ImpactContext.project (ctx : ImpactContext) : ProjectGraph :=
  loadProjectGraph ctx.graph ctx.projectID

abbrev ImpactContext.own (ctx : ImpactContext) (i : AnchoredIncident) : List String :=
  ownServices ctx.refs i.anchor

/-- A canonical path between a service and one of an incident's own, in the direction of
the role. -/
def LinkPath (ctx : ImpactContext) (role : ImpactRole) (own : List String) (service : String)
    (p : List String) : Prop :=
  match role with
  | .probableRoot => ∃ s ∈ own, Canonical ctx.project service s p
  | .affected => ∃ s ∈ own, Canonical ctx.project s service p

/-- The row that belongs to two incidents of the store: the first is linked with a service of the
second over the best path. -/
structure Linked (ctx : ImpactContext) (incidents : Table AnchoredIncident.id)
    (i j : AnchoredIncident)
    (row : ImpactRow) : Prop where
  first : i ∈ incidents.rows
  second : j ∈ incidents.rows
  different : j.id ≠ i.id
  incident : row.incident = i.id
  service : row.service ∈ ctx.own j
  path : LinkPath ctx row.role (ctx.own i) row.service row.path
  best : ∀ q, LinkPath ctx row.role (ctx.own i) row.service q → pathRank row.path ≤ pathRank q

/-- All incidents are open, and no service has more of them than an attempt selects. -/
structure Selectable (ctx : ImpactContext) (st : ImpactStore) : Prop where
  opened : ∀ i ∈ st.incidents.rows, i.open = true
  few : ∀ service, (st.incidents.rows.filter fun i => service ∈ ctx.own i).length ≤
    maxCorrelationWitnessesPerService

variable {id : String}

/-- **Where few incidents are open the selection drops none.** -/
theorem mem_witnesses (h : Selectable ctx st) {anchorID endpoint : String} :
    id ∈ witnesses ctx st anchorID endpoint ↔
      ∃ j ∈ st.incidents.rows, j.id = id ∧ j.id ≠ anchorID ∧ endpoint ∈ ctx.own j := by
  have hfew : (st.incidents.rows.filter fun i => i.open && decide (i.id ≠ anchorID) &&
      decide (endpoint ∈ ownServices ctx.refs i.anchor)).length ≤
      maxCorrelationWitnessesPerService := by
    refine le_trans (List.Sublist.length_le ?_) (h.few endpoint)
    refine monotone_filter_right _ fun i hi => ?_
    rw [Bool.and_eq_true] at hi
    exact hi.2
  simp only [witnesses, (perm_insertionSort _ _).mem_iff, mem_map]
  rw [take_of_length_le (by rwa [length_insertionSort])]
  constructor
  · rintro ⟨j, hj, rfl⟩
    simp only [(perm_insertionSort _ _).mem_iff, mem_filter, Bool.and_eq_true,
      decide_eq_true_eq] at hj
    exact ⟨j, hj.1, rfl, hj.2.1.2, hj.2.2⟩
  · rintro ⟨j, hj, rfl, hne, hend⟩
    refine ⟨j, ?_, rfl⟩
    simp only [(perm_insertionSort _ _).mem_iff, mem_filter, Bool.and_eq_true, decide_eq_true_eq]
    exact ⟨hj, ⟨h.opened j hj, hne⟩, hend⟩

/-- What an attempt for the incident `a` proposes to link: `a` with a service of another incident,
or another incident with a service of `a`. -/
def Proposed (ctx : ImpactContext) (st : ImpactStore) (a : AnchoredIncident)
    (row : ImpactRow) : Prop :=
  ∃ i j, i ∈ st.incidents.rows ∧ j ∈ st.incidents.rows ∧ (i = a ∨ j = a) ∧ j.id ≠ i.id ∧
    row.incident = i.id ∧ row.service ∈ ctx.own j ∧
      LinkPath ctx row.role (ctx.own i) row.service row.path

variable {row : ImpactRow}

theorem mem_linkCandidates (h : Selectable ctx st) {e : String} {own other : String → Candidate} :
    (∃ c ∈ (witnesses ctx st id e).flatMap fun j => [own j, other j], c.row = row) ↔
      ∃ j ∈ st.incidents.rows, j.id ≠ id ∧ e ∈ ctx.own j ∧
        (row = (own j.id).row ∨ row = (other j.id).row) := by
  simp only [mem_flatMap, mem_witnesses h, mem_cons, not_mem_nil, or_false]
  constructor
  · rintro ⟨c, ⟨w, ⟨j, hj, rfl, hne, he⟩, rfl | rfl⟩, rfl⟩
    · exact ⟨j, hj, hne, he, .inl rfl⟩
    · exact ⟨j, hj, hne, he, .inr rfl⟩
  · rintro ⟨j, hj, hne, he, rfl | rfl⟩
    · exact ⟨_, ⟨j.id, ⟨j, hj, rfl, hne, he⟩, .inl rfl⟩, rfl⟩
    · exact ⟨_, ⟨j.id, ⟨j, hj, rfl, hne, he⟩, .inr rfl⟩, rfl⟩

variable {order : MapOrder String (List String)}

theorem mem_candidates_iff (hb : ctx.graph.Bounded) (h : Selectable ctx st) {own : List String} :
    (∃ c ∈ candidates ctx st id own order, c.row = row) ↔
      ∃ s ∈ own, ∃ j ∈ st.incidents.rows, j.id ≠ id ∧ ∃ e ∈ ctx.own j, ∃ p,
        (Canonical ctx.project e s p ∧
          (row = ⟨id, e, .probableRoot, p⟩ ∨ row = ⟨j.id, s, .affected, p⟩)) ∨
        (Canonical ctx.project s e p ∧
          (row = ⟨id, e, .affected, p⟩ ∨ row = ⟨j.id, s, .probableRoot, p⟩)) := by
  have hg := hb.sound ctx.projectID
  have hvisit {d : Dict String (List String)} {e : String} {p : List String} :
      (e, p) ∈ order.visit d.entries ↔ d.get? e = some p := by
    rw [(order.perm _).mem_iff, Dict.mem_entries]
  simp only [candidates, mem_flatMap, mem_append]
  constructor
  · rintro ⟨c, ⟨s, hs, ⟨⟨e, p⟩, he, hc⟩ | ⟨⟨e, p⟩, he, hc⟩⟩, hrow⟩
    · obtain ⟨j, hj, hne, hend, hform⟩ := (mem_linkCandidates h).1 ⟨c, hc, hrow⟩
      exact ⟨s, hs, j, hj, hne, e, hend, p, .inl ⟨(walk_up_iff hg).1 (hvisit.1 he), hform⟩⟩
    · obtain ⟨j, hj, hne, hend, hform⟩ := (mem_linkCandidates h).1 ⟨c, hc, hrow⟩
      exact ⟨s, hs, j, hj, hne, e, hend, p, .inr ⟨(walk_down_iff hg).1 (hvisit.1 he), hform⟩⟩
  · rintro ⟨s, hs, j, hj, hne, e, hend, p, ⟨hcanon, hform⟩ | ⟨hcanon, hform⟩⟩
    · obtain ⟨c, hc, hrow⟩ : ∃ c ∈ upCandidates ctx st id s (e, p), c.row = row :=
        (mem_linkCandidates h).2 ⟨j, hj, hne, hend, hform⟩
      exact ⟨c, ⟨s, hs, .inl ⟨_, hvisit.2 ((walk_up_iff hg).2 hcanon), hc⟩⟩, hrow⟩
    · obtain ⟨c, hc, hrow⟩ : ∃ c ∈ downCandidates ctx st id s (e, p), c.row = row :=
        (mem_linkCandidates h).2 ⟨j, hj, hne, hend, hform⟩
      exact ⟨c, ⟨s, hs, .inr ⟨_, hvisit.2 ((walk_down_iff hg).2 hcanon), hc⟩⟩, hrow⟩

variable {a : AnchoredIncident}

theorem mem_candidates (hb : ctx.graph.Bounded) (h : Selectable ctx st) (ha : a ∈ st.incidents.rows)
    (order : MapOrder String (List String)) :
    (∃ c ∈ candidates ctx st a.id (ctx.own a) order, c.row = row) ↔ Proposed ctx st a row := by
  rw [mem_candidates_iff hb h]
  constructor
  · rintro ⟨s, hs, j, hj, hne, e, he, p, ⟨hcanon, rfl | rfl⟩ | ⟨hcanon, rfl | rfl⟩⟩
    · exact ⟨a, j, ha, hj, .inl rfl, hne, rfl, he, s, hs, hcanon⟩
    · exact ⟨j, a, hj, ha, .inr rfl, hne.symm, rfl, hs, e, he, hcanon⟩
    · exact ⟨a, j, ha, hj, .inl rfl, hne, rfl, he, s, hs, hcanon⟩
    · exact ⟨j, a, hj, ha, .inr rfl, hne.symm, rfl, hs, e, he, hcanon⟩
  · obtain ⟨incident, service, role, path⟩ := row
    rintro ⟨i, j, hi, hj, hanchor, hne, rfl, hservice, hpath⟩
    rcases hanchor with rfl | rfl
    · cases role with
      | probableRoot =>
        obtain ⟨s, hs, hcanon⟩ := hpath
        exact ⟨s, hs, j, hj, hne, service, hservice, path, .inl ⟨hcanon, .inl rfl⟩⟩
      | affected =>
        obtain ⟨s, hs, hcanon⟩ := hpath
        exact ⟨s, hs, j, hj, hne, service, hservice, path, .inr ⟨hcanon, .inl rfl⟩⟩
    · cases role with
      | probableRoot =>
        obtain ⟨e, he, hcanon⟩ := hpath
        exact ⟨service, hservice, i, hi, hne.symm, e, he, path, .inr ⟨hcanon, .inr rfl⟩⟩
      | affected =>
        obtain ⟨e, he, hcanon⟩ := hpath
        exact ⟨service, hservice, i, hi, hne.symm, e, he, path, .inl ⟨hcanon, .inr rfl⟩⟩

theorem witnesses_of_candidate (h : Selectable ctx st) (ha : a ∈ st.incidents.rows) {c : Candidate}
    (hc : c ∈ candidates ctx st a.id (ctx.own a) order) :
    c.witnesses ≠ [] ∧ ∀ w ∈ c.witnesses, isOpen st w := by
  have hopen {i : AnchoredIncident} (hi : i ∈ st.incidents.rows) : isOpen st i.id := by
    rw [isOpen, Table.get_of_mem hi]
    exact h.opened i hi
  simp only [candidates, mem_flatMap, mem_append] at hc
  obtain ⟨s, -, ⟨e, -, hc⟩ | ⟨e, -, hc⟩⟩ := hc
  all_goals
    simp only [upCandidates, downCandidates, mem_flatMap, mem_witnesses h, mem_cons,
      not_mem_nil, or_false] at hc
    obtain ⟨w, ⟨j, hj, rfl, -, -⟩, rfl | rfl⟩ := hc
    all_goals simp [hopen hj, hopen ha]

/-- **What an attempt offers**: for each key that it proposes, the row with the best of all link
paths. -/
theorem offeredRows_spec (hb : ctx.graph.Bounded) (h : Selectable ctx st)
    (ha : a ∈ st.incidents.rows) (order : MapOrder String (List String)) :
    (∀ row ∈ offeredRows st (candidates ctx st a.id (ctx.own a) order),
      ∃ i j, Linked ctx st.incidents i j row) ∧ ∀ row, Proposed ctx st a row →
      ∃ row' ∈ offeredRows st (candidates ctx st a.id (ctx.own a) order), row'.key = row.key := by
  have hwit : ∀ c ∈ candidates ctx st a.id (ctx.own a) order,
      c.witnesses ≠ [] ∧ ∀ w ∈ c.witnesses, isOpen st w := fun _ hc =>
    witnesses_of_candidate h ha hc
  have hded := deduped (candidates ctx st a.id (ctx.own a) order) fun c hc => (hwit c hc).1
  have hmem {row : ImpactRow} : row ∈ offeredRows st (candidates ctx st a.id (ctx.own a) order) ↔
      ∃ r ∈ (candidates ctx st a.id (ctx.own a) order).foldl addCandidate [], r.row = row := by
    simp only [offeredRows, mem_map, mem_filter, (perm_insertionSort _ _).mem_iff]
    constructor
    · rintro ⟨r, ⟨hr, -⟩, rfl⟩
      exact ⟨r, hr, rfl⟩
    · rintro ⟨r, hr, rfl⟩
      refine ⟨r, ⟨hr, ?_⟩, rfl⟩
      rw [Bool.and_eq_true]
      constructor
      · obtain ⟨c, hc, hrow⟩ := hded.from_candidate r hr
        obtain ⟨i, j, hi, -, -, -, hinc, -⟩ := (mem_candidates hb h ha order).1 ⟨c, hc, hrow⟩
        rw [hinc, isOpen, Table.get_of_mem hi]
        exact h.opened i hi
      · obtain ⟨w, hw⟩ := exists_mem_of_ne_nil _ (hded.witnessed r hr)
        obtain ⟨c, hc, hwc⟩ := hded.witnesses r hr w hw
        exact any_eq_true.2 ⟨w, hw, (hwit c hc).2 w hwc⟩
  refine ⟨?_, ?_⟩
  · intro row hrow
    obtain ⟨r, hr, rfl⟩ := hmem.1 hrow
    obtain ⟨c, hc, hcrow⟩ := hded.from_candidate r hr
    obtain ⟨i, j, hi, hj, hanchor, hne, hinc, hservice, hpath⟩ :=
      (mem_candidates hb h ha order).1 ⟨c, hc, hcrow⟩
    refine ⟨i, j, hi, hj, hne, hinc, hservice, hpath, ?_⟩
    -- Another link path is a candidate under the same key.
    intro q hq
    have hproposed : Proposed ctx st a { r.row with path := q } :=
      ⟨i, j, hi, hj, hanchor, hne, hinc, hservice, hq⟩
    obtain ⟨d, hd, hdrow⟩ := (mem_candidates hb h ha order).2 hproposed
    have := hded.best r hr d hd (by rw [hdrow]; rfl)
    rwa [hdrow] at this
  · intro row hrow
    obtain ⟨c, hc, rfl⟩ := (mem_candidates hb h ha order).2 hrow
    obtain ⟨r, hr, hkey⟩ := hded.all c hc
    exact ⟨r.row, hmem.2 ⟨r, hr, rfl⟩, hkey⟩

theorem not_proposed (h : ctx.own a = [] ∨ ctx.project.edges = []) (row : ImpactRow) :
    ¬ Proposed ctx st a row := by
  rintro ⟨i, j, -, -, hanchor, -, -, hservice, hpath⟩
  rcases h with hown | hedges
  · rcases hanchor with rfl | rfl
    · unfold LinkPath at hpath
      rw [hown] at hpath
      split at hpath <;> simp at hpath
    · rw [hown] at hservice
      cases hservice
  · have hno {a b : String} {p : List String} : ¬ Canonical ctx.project a b p := by
      rintro ⟨⟨k, hk⟩, -⟩
      obtain ⟨c, hc, -⟩ := hk.walk.uncons
      rw [hedges] at hc
      cases hc
    unfold LinkPath at hpath
    split at hpath <;> obtain ⟨s, -, hcanon⟩ := hpath <;> exact hno hcanon

/-- What a correlation attempt leaves as it was and what it adds. -/
structure Attempted (ctx : ImpactContext) (st : ImpactStore) (a : AnchoredIncident)
    (st' : ImpactStore) :
    Prop where
  incidents : st'.incidents = st.incidents
  pending : st'.pending = st.pending
  rows : ∀ row ∈ st'.impacts.rows, row ∈ st.impacts.rows ∨ ∃ i j, Linked ctx st.incidents i j row
  keeps : ∀ k, (st.impacts.get k).isSome → (st'.impacts.get k).isSome
  links : ∀ row, Proposed ctx st a row → (st'.impacts.get row.key).isSome

/-- **One attempt**, for an incident of the store. -/
theorem correlateIncident_attempted (hb : ctx.graph.Bounded) (h : Selectable ctx st)
    (ha : a ∈ st.incidents.rows) (order : MapOrder String (List String)) :
    Attempted ctx st a (correlateIncident ctx st a.id order) := by
  have hidle (hno : ctx.own a = [] ∨ ctx.project.edges = []) : Attempted ctx st a st :=
    ⟨rfl, rfl, fun _ hrow => .inl hrow, fun _ => id, fun row hrow =>
      absurd hrow (not_proposed hno row)⟩
  have hopen : a.status ≠ .resolved := by simpa [AnchoredIncident.open] using h.opened a ha
  simp only [correlateIncident, Table.get_of_mem ha]
  split
  · next hnone => exact hidle (.inl (hnone.resolve_left hopen))
  split
  · next hedges => exact hidle (.inr hedges)
  obtain ⟨hlinked, hproposed⟩ := offeredRows_spec hb h ha order
  refine ⟨rfl, rfl, ?_, ?_, ?_⟩
  · intro row hrow
    have hget : (st.impacts.insertAll
        (offeredRows st (candidates ctx st a.id (ctx.own a) order))).get row.key = some row :=
      get_of_mem hrow
    cases hold : st.impacts.get row.key with
    | none => exact .inr (hlinked row (mem_of_get_insertAll hget hold).1)
    | some old =>
      rw [get_insertAll_of_some hold] at hget
      cases hget
      exact .inl (get_eq_some_iff.1 hold).1
  · intro k hk
    obtain ⟨old, hold⟩ := Option.isSome_iff_exists.1 hk
    change (Table.get (st.impacts.insertAll _) k).isSome
    rw [get_insertAll_of_some hold]
    rfl
  · intro row hrow
    obtain ⟨row', hrow', hkey⟩ := hproposed row hrow
    obtain ⟨b, hget⟩ := get_insertAll_of_mem hrow' st.impacts
    change (Table.get (st.impacts.insertAll _) row.key).isSome
    rw [← hkey, hget]
    rfl

end

/-! ## Every run -/

section

variable {ctx : ImpactContext} {st st' : ImpactStore}

/-- Every link of the first incident with a service of the second is written. -/
def PairDone (ctx : ImpactContext) (st : ImpactStore) (i j : AnchoredIncident) : Prop :=
  ∀ row : ImpactRow, row.incident = i.id → row.service ∈ ctx.own j →
    LinkPath ctx row.role (ctx.own i) row.service row.path → (st.impacts.get row.key).isSome

/-- The links of a run are sound, and those of delivered incidents complete. -/
structure ImpactInv (ctx : ImpactContext) (st : ImpactStore) : Prop where
  opened : ∀ i ∈ st.incidents.rows, i.open = true
  sound : ∀ row ∈ st.impacts.rows, ∃ i j, Linked ctx st.incidents i j row
  done : ∀ i ∈ st.incidents.rows, ∀ j ∈ st.incidents.rows, j.id ≠ i.id →
    i.id ∈ st.pending ∨ j.id ∈ st.pending ∨ PairDone ctx st i j

/-- The cap on witnesses cuts nothing off. -/
def FewIncidents (ctx : ImpactContext) (st : ImpactStore) : Prop :=
  ∀ service, (st.incidents.rows.filter fun i => service ∈ ctx.own i).length ≤
    maxCorrelationWitnessesPerService

variable {i : AnchoredIncident} {row : ImpactRow} {j : AnchoredIncident}

theorem Linked.mono {incidents incidents' : Table AnchoredIncident.id}
    (h : Linked ctx incidents i j row) (hsub : ∀ i ∈ incidents.rows, i ∈ incidents'.rows) :
    Linked ctx incidents' i j row :=
  { h with first := hsub i h.first, second := hsub j h.second }

theorem ImpactInv.openIncident (h : ImpactInv ctx st) (hnew : st.incidents.get i.id = none)
    (hopen : i.status ≠ .resolved) : ImpactInv ctx { st with
      incidents := st.incidents.insertNew i
      pending := st.pending ++ [i.id] } := by
  have hrows : (st.incidents.insertNew i).rows = st.incidents.rows ++ [i] :=
    rows_insertNew_of_none hnew
  have hold {j : AnchoredIncident} (hj : j ∈ st.incidents.rows) :
      j ∈ (st.incidents.insertNew i).rows := by
    rw [hrows]
    exact mem_append_left _ hj
  have hcases {j : AnchoredIncident} (hj : j ∈ (st.incidents.insertNew i).rows) :
      j ∈ st.incidents.rows ∨ j = i := by
    rw [hrows, mem_append, mem_singleton] at hj
    exact hj
  refine ⟨?_, ?_, ?_⟩
  · intro j hj
    rcases hcases hj with hj | rfl
    · exact h.opened j hj
    · simpa [AnchoredIncident.open] using hopen
  · intro row hrow
    obtain ⟨k, l, hlinked⟩ := h.sound row hrow
    exact ⟨k, l, hlinked.mono fun _ => hold⟩
  · intro j hj k hk hne
    rcases hcases hj with hj | rfl
    · rcases hcases hk with hk | rfl
      · rcases h.done j hj k hk hne with hpend | hpend | hdone
        · exact .inl (mem_append_left _ hpend)
        · exact .inr (.inl (mem_append_left _ hpend))
        · exact .inr (.inr hdone)
      · exact .inr (.inl (by simp))
    · exact .inl (by simp)

theorem ImpactInv.deliver (hb : ctx.graph.Bounded) (hfew : FewIncidents ctx st)
    (h : ImpactInv ctx st)
    {id : String} {order : MapOrder String (List String)} :
    ImpactInv ctx { correlateIncident ctx st id order with
      pending := (correlateIncident ctx st id order).pending.filter (· ≠ id) } := by
  cases hget : st.incidents.get id with
  | none =>
    have hidle : correlateIncident ctx st id order = st := by rw [correlateIncident, hget]
    rw [hidle]
    refine ⟨h.opened, h.sound, ?_⟩
    have hother {i : AnchoredIncident} (hi : i ∈ st.incidents.rows) : i.id ≠ id :=
      get_eq_none_iff.1 hget i hi
    intro i hi j hj hne
    simp only [mem_filter, decide_eq_true_eq, hother hi, hother hj, ne_eq, not_false_eq_true,
      and_true]
    exact h.done i hi j hj hne
  | some a =>
    obtain ⟨ha, rfl⟩ := get_eq_some_iff.1 hget
    have hatt := correlateIncident_attempted hb ⟨h.opened, hfew⟩ ha order
    refine ⟨?_, ?_, ?_⟩
    · simp only [hatt.incidents]
      exact h.opened
    · intro row hrow
      simp only [hatt.incidents]
      rcases hatt.rows row hrow with hold | hlinked
      · exact h.sound row hold
      · exact hlinked
    · simp only [hatt.incidents, hatt.pending, mem_filter, decide_eq_true_eq]
      intro i hi j hj hne
      by_cases hanchor : i = a ∨ j = a
      · refine .inr (.inr ?_)
        intro row hinc hservice hpath
        exact hatt.links row ⟨i, j, hi, hj, hanchor, hne, hinc, hservice, hpath⟩
      · have hia : i.id ≠ a.id := fun heq =>
          hanchor (.inl (inj_on_of_nodup_map st.incidents.keyed hi ha heq))
        have hja : j.id ≠ a.id := fun heq =>
          hanchor (.inr (inj_on_of_nodup_map st.incidents.keyed hj ha heq))
        rcases h.done i hi j hj hne with hpend | hpend | hdone
        · exact .inl ⟨hpend, hia⟩
        · exact .inr (.inl ⟨hpend, hja⟩)
        · exact .inr (.inr fun row hinc hservice hpath =>
            hatt.keeps _ (hdone row hinc hservice hpath))

theorem impactStep_inv (hb : ctx.graph.Bounded) {op : ImpactOp}
    (hstep : impactStep ctx st op = some st') : (FewIncidents ctx st' → FewIncidents ctx st) ∧
      (FewIncidents ctx st → ImpactInv ctx st → ImpactInv ctx st') := by
  cases op with
  | openIncident i =>
    simp only [impactStep] at hstep
    split at hstep
    · cases hstep
    rename_i hok
    cases hstep
    rw [not_or, Option.not_isSome_iff_eq_none] at hok
    refine ⟨?_, fun _ h => h.openIncident hok.1 hok.2⟩
    intro hfew service
    refine le_trans (List.Sublist.length_le ?_) (hfew service)
    rw [rows_insertNew_of_none hok.1, filter_append]
    exact sublist_append_left _ _
  | deliver id order =>
    cases hstep
    refine ⟨?_, fun hfew h => h.deliver hb hfew⟩
    have hsame : (correlateIncident ctx st id order).incidents = st.incidents := by
      unfold correlateIncident
      split
      · rfl
      · simp only
        split_ifs <;> rfl
    intro hfew service
    rw [← hsame]
    exact hfew service

theorem reach_impactInv (hb : ctx.graph.Bounded)
    (h : Reach (impactStep ctx) anyStep emptyImpacts st) (hfew : FewIncidents ctx st) :
    ImpactInv ctx st := by
  refine h.invariant (I := fun st => FewIncidents ctx st → ImpactInv ctx st) ?_ ?_ hfew
  · intro _
    refine ⟨?_, ?_, ?_⟩ <;> intro _ hmem <;> cases hmem
  · intro s op s' hs _ hstep hfew'
    obtain ⟨hback, hkeep⟩ := impactStep_inv hb hstep
    exact hkeep (hback hfew') (hs (hback hfew'))

theorem LinkPath.slugPath (hb : ctx.graph.Bounded) {role : ImpactRole} {own : List String}
    {service : String} {p : List String} (h : LinkPath ctx role own service p) : SlugPath p := by
  have hg := hb.sound ctx.projectID
  unfold LinkPath at h
  split at h <;> obtain ⟨s, -, ⟨k, hk⟩, -⟩ := h <;> exact hk.slugPath hg

theorem ImpactInv.pairDone (h : ImpactInv ctx st) (hdone : st.pending = [])
    (hi : i ∈ st.incidents.rows) (hj : j ∈ st.incidents.rows) (hne : j.id ≠ i.id) :
    PairDone ctx st i j := by
  have hpair := h.done i hi j hj hne
  simpa only [hdone, not_mem_nil, false_or] using hpair

/-- **The rows of a run in which every event was delivered** are those that its incidents
call for. -/
theorem mem_impacts_iff (hb : ctx.graph.Bounded) (h : ImpactInv ctx st) (hdone : st.pending = []) :
    row ∈ st.impacts.rows ↔ ∃ i j, Linked ctx st.incidents i j row := by
  refine ⟨h.sound row, ?_⟩
  rintro ⟨i, j, hlinked⟩
  have hpair := h.pairDone hdone hlinked.first hlinked.second hlinked.different
  obtain ⟨row', hget⟩ := Option.isSome_iff_exists.1
    (hpair row hlinked.incident hlinked.service hlinked.path)
  obtain ⟨hmem, hkey⟩ := get_eq_some_iff.1 hget
  obtain ⟨i', j', hlinked'⟩ := h.sound row' hmem
  have hkeys := hkey
  simp only [key, Prod.mk.injEq] at hkeys
  obtain ⟨hinc, hservice, hrole⟩ := hkeys
  have hii : i' = i := inj_on_of_nodup_map st.incidents.keyed hlinked'.first hlinked.first
    (hlinked'.incident.symm.trans (hinc.trans hlinked.incident))
  have hpath' := hlinked'.path
  have hbest' := hlinked'.best
  rw [hii, hrole, hservice] at hpath' hbest'
  have hpath : row'.path = row.path :=
    pathRank_inj (hpath'.slugPath hb) (hlinked.path.slugPath hb)
      (le_antisymm (hbest' _ hlinked.path) (hlinked.best _ hpath'))
  have hrow : row' = row := by
    rw [← row_eq_of_key hkey, ← hpath]
  rwa [← hrow]

theorem mirrored (hb : ctx.graph.Bounded) (h : ImpactInv ctx st) (hdone : st.pending = [])
    (hi : i ∈ st.incidents.rows) (hj : j ∈ st.incidents.rows)
    (hne : j.id ≠ i.id) {back : ImpactRole} (hback : back ≠ row.role) (hrow : row ∈ st.impacts.rows)
    (hinc : row.incident = i.id) (hservice : row.service ∈ ctx.own j) :
    ∃ row' ∈ st.impacts.rows, row'.incident = j.id ∧ row'.role = back ∧
      row'.service ∈ ctx.own i := by
  obtain ⟨i', j', hlinked⟩ := (mem_impacts_iff hb h hdone).1 hrow
  have hii : i' = i := inj_on_of_nodup_map st.incidents.keyed hlinked.first hi
    (hlinked.incident.symm.trans hinc)
  subst hii
  have hpath := hlinked.path
  -- The same path, seen from the other end.
  obtain ⟨s, hs, hpath'⟩ : ∃ s ∈ ctx.own i', LinkPath ctx back (ctx.own j) s row.path := by
    unfold LinkPath at hpath
    split at hpath
    · next hrole =>
      obtain ⟨s, hs, hcanon⟩ := hpath
      refine ⟨s, hs, ?_⟩
      cases back with
      | probableRoot => exact absurd hrole.symm hback
      | affected => exact ⟨row.service, hservice, hcanon⟩
    · next hrole =>
      obtain ⟨s, hs, hcanon⟩ := hpath
      refine ⟨s, hs, ?_⟩
      cases back with
      | probableRoot => exact ⟨row.service, hservice, hcanon⟩
      | affected => exact absurd hrole.symm hback
  have hpair := h.pairDone hdone hj hi hne.symm
  obtain ⟨row', hget⟩ := Option.isSome_iff_exists.1 (hpair ⟨j.id, s, back, row.path⟩ rfl hs hpath')
  obtain ⟨hmem, hkey⟩ := get_eq_some_iff.1 hget
  simp only [key, Prod.mk.injEq] at hkey
  exact ⟨row', hmem, hkey.1, hkey.2.2, by rw [hkey.2.1]; exact hs⟩

/-- **Impact links do not depend on the order of openings and deliveries**, and the links of two
incidents mirror each other. -/
theorem impacts_determined (hb : ctx.graph.Bounded)
    (h : Reach (impactStep ctx) anyStep emptyImpacts st)
    (h' : Reach (impactStep ctx) anyStep emptyImpacts st')
    (hsame : ∀ i, i ∈ st.incidents.rows ↔ i ∈ st'.incidents.rows)
    (hfew : ∀ service, (st.incidents.rows.filter fun i => service ∈ ctx.own i).length ≤
      maxCorrelationWitnessesPerService) (hdone : st.pending = []) (hdone' : st'.pending = []) :
    (∀ row, row ∈ st.impacts.rows ↔ row ∈ st'.impacts.rows) ∧
      ∀ i ∈ st.incidents.rows, ∀ j ∈ st.incidents.rows, i.id ≠ j.id →
        ((∃ row ∈ st.impacts.rows, row.incident = i.id ∧ row.role = .probableRoot ∧
            row.service ∈ ctx.own j) ↔
          ∃ row ∈ st.impacts.rows, row.incident = j.id ∧ row.role = .affected ∧
            row.service ∈ ctx.own i) := by
  have hperm : st.incidents.rows.Perm st'.incidents.rows :=
    (perm_ext_iff_of_nodup st.incidents.keyed.of_map st'.incidents.keyed.of_map).2 hsame
  have hfew' : FewIncidents ctx st' := fun service => by
    rw [← (hperm.filter _).length_eq]
    exact hfew service
  have hinv := reach_impactInv hb h hfew
  have hinv' := reach_impactInv hb h' hfew'
  refine ⟨?_, ?_⟩
  · intro row
    rw [mem_impacts_iff hb hinv hdone, mem_impacts_iff hb hinv' hdone']
    constructor
    · rintro ⟨i, j, hlinked⟩
      exact ⟨i, j, hlinked.mono fun i => (hsame i).1⟩
    · rintro ⟨i, j, hlinked⟩
      exact ⟨i, j, hlinked.mono fun i => (hsame i).2⟩
  · intro i hi j hj hne
    constructor
    · rintro ⟨row, hrow, hinc, hrole, hservice⟩
      exact mirrored hb hinv hdone hi hj hne.symm (by rw [hrole]; decide) hrow hinc hservice
    · rintro ⟨row, hrow, hinc, hrole, hservice⟩
      exact mirrored hb hinv hdone hj hi hne (by rw [hrole]; decide) hrow hinc hservice

end

def sharedMonitor : ImpactContext where
  graph := chainedStore
  projectID := "shop"
  refs := [⟨"checkout", "probe", .context⟩, ⟨"payments", "probe", .context⟩]

theorem chainedStore_bounded : chainedStore.Bounded := by
  have hreach : Reach graphStep anyStep (startStore exampleServices) chainedStore :=
    reach_finalState fun _ _ _ => trivial
  exact reach_bounded hreach

def probeIncident : AnchoredIncident := ⟨"i1", .monitor "probe", 0, .investigating⟩

def paymentsIncident : AnchoredIncident := ⟨"i2", .service "payments", 1, .investigating⟩

/-- Both incidents open, and then their events are delivered. -/
def openedFirst : ImpactStore :=
  finalState (impactStep sharedMonitor) emptyImpacts
    [.openIncident probeIncident, .openIncident paymentsIncident, .deliver "i1" .inOrder,
      .deliver "i2" .inOrder]

/-- The second incident opens after the first one's event was delivered, and is delivered twice. -/
def deliveredFirst : ImpactStore :=
  finalState (impactStep sharedMonitor) emptyImpacts
    [.openIncident paymentsIncident, .deliver "i2" .inOrder, .openIncident probeIncident,
      .deliver "i1" .inOrder, .deliver "i2" .inOrder, .deliver "i1" .inOrder]

/-- **One incident alone need not mirror itself**: it has a probable root among its own services and
no affected link to one of them. -/
theorem own_root_without_own_affected :
    Reach (impactStep sharedMonitor) anyStep emptyImpacts openedFirst ∧ openedFirst.pending = [] ∧
      probeIncident ∈ openedFirst.incidents.rows ∧
      (∃ row ∈ openedFirst.impacts.rows, row.incident = probeIncident.id ∧
        row.role = .probableRoot ∧ row.service ∈ sharedMonitor.own probeIncident) ∧
      ¬ ∃ row ∈ openedFirst.impacts.rows, row.incident = probeIncident.id ∧
        row.role = .affected ∧ row.service ∈ sharedMonitor.own probeIncident := by
  refine ⟨reach_finalState fun _ _ _ => trivial, ?_⟩
  decide +kernel

theorem impacts_determined_shared :
    openedFirst.pending = [] ∧ deliveredFirst.pending = [] ∧ openedFirst.impacts.rows.length = 2 ∧
      ∀ row, row ∈ openedFirst.impacts.rows ↔ row ∈ deliveredFirst.impacts.rows := by
  refine ⟨by decide +kernel, by decide +kernel, by decide +kernel, ?_⟩
  refine (impacts_determined chainedStore_bounded (reach_finalState fun _ _ _ => trivial)
    (reach_finalState fun _ _ _ => trivial) ?_ ?_ (by decide +kernel) (by decide +kernel)).1
  · have hperm : openedFirst.incidents.rows.Perm deliveredFirst.incidents.rows := by decide +kernel
    exact fun i => hperm.mem_iff
  · intro service
    have htwo : openedFirst.incidents.rows.length ≤ maxCorrelationWitnessesPerService := by
      decide +kernel
    exact (length_filter_le _ _).trans htwo

theorem walks_exact_chained : let g := loadProjectGraph chainedStore "shop"
    (g.walkUp "checkout").get? "ledger" = some ["ledger", "payments", "checkout"] ∧
      (g.walkUp "checkout").get? "ledger" = (g.walkDown "ledger").get? "checkout" :=
  ⟨by decide +kernel, (walks_exact chainedStore "shop" "checkout" "ledger"
    (chainedStore_bounded.sound "shop").depth).2.2.2.2⟩

end Cerbix.Store
