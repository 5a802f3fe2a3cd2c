import Cerbix.Lib.Query
import Cerbix.Results.Record

/-!
# Deliveries of scheduled results

An executor's result is delivered at least once, in any order. `Folded` says what deliveries leave
behind: the distinct results as samples, and the threshold machine run over those newer than
everything before them. `folded_deliverAll` proves it for every sequence, and that delivering again
changes nothing.
-/

namespace Cerbix.Results

open Cerbix.Lib Cerbix.Domain Cerbix.Ledger Cerbix.Scheduler List ScheduledResult

def ScheduledResult.instant (hb : ScheduledResult) : Int := hb.ts.getD 0

/-- A result as it reaches the server. -/
structure Delivery where
  result : ScheduledResult
  dbNow : Int
  inMaintenance : Bool
  deriving DecidableEq, Repr

variable (cfg : ResultSettings)

def Delivery.passes (m : Monitor) (d : Delivery) : Bool :=
  d.result.ts.any fun ts => (d.result.stateRefusal cfg.revisionMode m).isNone &&
    (d.result.timestampRefusal cfg ts d.dbNow).isNone

namespace ResultTables

/-- Record one result. -/
def deliver (t : ResultTables) (d : Delivery) : ResultTables :=
  (t.recordScheduledResult cfg d.result d.dbNow d.inMaintenance).tables

def deliverAll (t : ResultTables) (ds : List Delivery) : ResultTables :=
  ds.foldl (deliver cfg) t

end ResultTables

def freshResults (rs : List ScheduledResult) : List ScheduledResult :=
  recordBreaking instant rs

/-- What deliveries of the results `rs` make of a monitor. -/
structure Folded (t₀ : ResultTables) (rs : List ScheduledResult) (t : ResultTables) : Prop where
  heartbeats : ∀ h, h ∈ t.heartbeats.rows ↔ ∃ r ∈ rs, h = r.heartbeat r.instant
  monitor : t.row.monitor = withStanding t₀.row.monitor (t₀.row.standing.after
    t₀.row.monitor.failureThreshold ((freshResults rs).map up))
  lastResultTs : t.row.lastResultTs = ((freshResults rs).map instant).getLast?
  outbox : t.outbox = t₀.outbox ++ numbered t₀.row.monitor.id t₀.row.stateSequence
    (t₀.row.standing.flips t₀.row.monitor.failureThreshold ((freshResults rs).map up))
  stateSequence : t.row.stateSequence = t₀.row.stateSequence +
    (t₀.row.standing.flips t₀.row.monitor.failureThreshold ((freshResults rs).map up)).length

/-! ## One delivery -/

section

variable {cfg : ResultSettings} {t₀ t : ResultTables} {rs : List ScheduledResult} {d : Delivery}

@[simp] theorem withStanding_withStanding (m : Monitor) (s s' : Standing) :
    withStanding (withStanding m s) s' = withStanding m s' := rfl

theorem passes_withStanding {m : Monitor} {s : Standing} :
    d.passes cfg (withStanding m s) = d.passes cfg m := rfl

open Delivery

open ResultTables

theorem deliver_of_passes (h : d.passes cfg t.row.monitor) :
    let t₁ := { t with
      slots := t.slots.releaseCanaryInflight t.row.monitor.id d.result.canaryRunKey }
    let t₂ := { t₁ with
      heartbeats := t₁.heartbeats.insertNew (d.result.heartbeat d.result.instant) }
    t.deliver cfg d = if (t.heartbeats.get d.result.instant).isSome then t₁
      else if t.row.lastResultTs.any fun last => d.result.instant ≤ last then t₂
      else (t₂.recordCheckStatus d.result.up).observedResult d.result.instant d.dbNow := by
  simp only [passes, Option.any_eq_true, Bool.and_eq_true, Option.isNone_iff_eq_none] at h
  obtain ⟨ts, hts, hstate, htime⟩ := h
  have hinstant : d.result.instant = ts := by rw [instant, hts, Option.getD_some]
  simp only [deliver, recordScheduledResult, hts, hstate, htime, hinstant]
  split
  · rfl
  · split <;> rfl

def Freed (t₀ : ResultTables) (rs : List ScheduledResult) (t : ResultTables) : Prop :=
  ∀ r ∈ rs, t.slots.releaseCanaryInflight t₀.row.monitor.id r.canaryRunKey = t.slots

variable {t' : ResultTables}

theorem freed_deliver (h : Freed t₀ rs t) (hid : t.row.monitor.id = t₀.row.monitor.id)
    (hslots : t'.slots = t.slots.releaseCanaryInflight t.row.monitor.id
      d.result.canaryRunKey) : Freed t₀ (rs ++ [d.result]) t' := by
  intro r hr
  rw [hslots, hid]
  rcases mem_append.1 hr with hr | hr
  · rw [CanaryInflight.release_comm, h r hr]
  · rw [mem_singleton.1 hr]
    exact CanaryInflight.release_release

variable {hb : ScheduledResult}

theorem mem_heartbeats_insertNew
    (h : ∀ h, h ∈ t.heartbeats.rows ↔ ∃ r ∈ rs, h = r.heartbeat r.instant)
    (hfree : t.heartbeats.get hb.instant = none) (h' : Heartbeat) :
    h' ∈ (t.heartbeats.insertNew (hb.heartbeat hb.instant)).rows ↔
      ∃ r ∈ rs ++ [hb], h' = r.heartbeat r.instant := by
  have hrows : (t.heartbeats.insertNew (hb.heartbeat hb.instant)).rows =
      t.heartbeats.rows ++ [hb.heartbeat hb.instant] := Table.rows_insertNew_of_none hfree
  simp only [hrows, mem_append, mem_singleton, h]
  constructor
  · rintro (⟨r, hr, he⟩ | he)
    · exact ⟨r, .inl hr, he⟩
    · exact ⟨hb, .inr rfl, he⟩
  · rintro ⟨r, hr | rfl, he⟩
    · exact .inl ⟨r, hr, he⟩
    · exact .inr he

theorem Folded.passes (h : Folded t₀ rs t) (hpass : d.passes cfg t₀.row.monitor) :
    d.passes cfg t.row.monitor := by
  rw [h.monitor, passes_withStanding]
  exact hpass

theorem Folded.watermark (h : Folded t₀ rs t) (x : Int) :
    (t.row.lastResultTs.any fun last => x ≤ last) = !rs.all fun r => r.instant < x := by
  rw [h.lastResultTs, ← getLast?_recordBreaking instant rs x, freshResults]
  cases ((recordBreaking instant rs).map instant).getLast? with
  | none => rfl
  | some last => simp only [Option.any_some, Option.all_some, ← decide_not, Int.not_lt]

theorem freshResults_of_old (h : ¬ rs.all fun r => r.instant < hb.instant) :
    freshResults (rs ++ [hb]) = freshResults rs := by
  rw [freshResults, recordBreaking_concat, if_neg h, append_nil]
  rfl

theorem freshResults_of_new (h : rs.all fun r => r.instant < hb.instant) :
    freshResults (rs ++ [hb]) = freshResults rs ++ [hb] := by
  rw [freshResults, recordBreaking_concat, if_pos h]
  rfl

theorem Folded.kept (h : Folded t₀ rs t) (hold : ¬ rs.all fun r => r.instant < hb.instant)
    (hrow : t'.row = t.row) (hout : t'.outbox = t.outbox)
    (hbeats : ∀ h, h ∈ t'.heartbeats.rows ↔ ∃ r ∈ rs ++ [hb], h = r.heartbeat r.instant) :
    Folded t₀ (rs ++ [hb]) t' := by
  refine ⟨hbeats, ?_, ?_, ?_, ?_⟩
  all_goals rw [freshResults_of_old hold]
  · rw [hrow]
    exact h.monitor
  · rw [hrow]
    exact h.lastResultTs
  · rw [hout]
    exact h.outbox
  · rw [hrow]
    exact h.stateSequence

theorem Folded.applied (h : Folded t₀ rs t) (hnew : rs.all fun r => r.instant < hb.instant)
    (dbNow : Int) (hrow : t'.row = t.row) (hout : t'.outbox = t.outbox)
    (hbeats : ∀ h, h ∈ t'.heartbeats.rows ↔ ∃ r ∈ rs ++ [hb], h = r.heartbeat r.instant) :
    Folded t₀ (rs ++ [hb]) ((t'.recordCheckStatus hb.up).observedResult hb.instant dbNow) := by
  have hstanding : t'.row.standing = t₀.row.standing.after t₀.row.monitor.failureThreshold
      ((freshResults rs).map up) := by
    rw [LiveRow.standing, hrow, h.monitor]
    rfl
  have hthreshold : t'.row.monitor.failureThreshold = t₀.row.monitor.failureThreshold := by
    rw [hrow, h.monitor]
    rfl
  have hid : t'.row.monitor.id = t₀.row.monitor.id := by
    rw [hrow, h.monitor]
    rfl
  rw [recordCheckStatus_eq, LiveRow.observed, hstanding, hthreshold, hid]
  refine ⟨hbeats, ?_, ?_, ?_, ?_⟩
  all_goals
    rw [freshResults_of_new hnew]
    simp only [observedResult, map_append, map_singleton,
      Standing.after_concat, Standing.flips_concat]
  · rw [hrow, h.monitor, withStanding_withStanding]
  · rw [List.getLast?_concat]
  · rw [hout, h.outbox, hrow, h.stateSequence, numbered_append, append_assoc]
  · rw [hrow, h.stateSequence, length_append]
    omega

theorem Folded.deliver (h : Folded t₀ rs t) (hpass : d.passes cfg t₀.row.monitor)
    (hdistinct : ∀ r ∈ rs, r.instant = d.result.instant → r = d.result) :
    Folded t₀ (rs ++ [d.result]) (t.deliver cfg d) := by
  rw [deliver_of_passes (h.passes hpass)]
  split
  · next hdup =>
    -- the sample that is there is this result's own
    obtain ⟨sample, hget⟩ := Option.isSome_iff_exists.1 hdup
    obtain ⟨hmem, hts⟩ := Table.get_eq_some_iff.1 hget
    obtain ⟨r, hr, rfl⟩ := (h.heartbeats sample).1 hmem
    have hsame : r = d.result := hdistinct r hr hts
    subst hsame
    refine h.kept ?_ rfl rfl fun h' => ?_
    · intro hall
      exact Int.lt_irrefl _ (of_decide_eq_true (all_eq_true.1 hall _ hr))
    · rw [h.heartbeats]
      constructor
      · rintro ⟨r, hr, he⟩
        exact ⟨r, mem_append_left _ hr, he⟩
      · rintro ⟨r', hr', he⟩
        rcases mem_append.1 hr' with hr' | hr'
        · exact ⟨r', hr', he⟩
        · exact ⟨_, hr, by rw [he, mem_singleton.1 hr']⟩
  · next hfree =>
    have hnone : t.heartbeats.get d.result.instant = none := by simpa using hfree
    have hbeats := mem_heartbeats_insertNew h.heartbeats hnone
    split
    · next hold =>
      rw [h.watermark, Bool.not_eq_true'] at hold
      exact h.kept (by rw [hold]; exact Bool.false_ne_true) rfl rfl hbeats
    · next hnew =>
      rw [h.watermark, Bool.not_eq_true', Bool.not_eq_false] at hnew
      exact h.applied hnew d.dbNow rfl rfl hbeats

theorem deliver_again (h : Folded t₀ rs t) (hf : Freed t₀ rs t)
    (hpass : d.passes cfg t₀.row.monitor) (hmem : d.result ∈ rs) : t.deliver cfg d = t := by
  have hid : t.row.monitor.id = t₀.row.monitor.id := by
    rw [h.monitor]
    rfl
  have hdup : (t.heartbeats.get d.result.instant).isSome := by
    have hrow := (h.heartbeats _).2 ⟨d.result, hmem, rfl⟩
    rw [show t.heartbeats.get d.result.instant = _ from Table.get_of_mem hrow]
    rfl
  rw [deliver_of_passes (h.passes hpass)]
  rw [if_pos hdup, hid, hf d.result hmem]

theorem slots_deliver (h : d.passes cfg t.row.monitor) : (t.deliver cfg d).slots =
      t.slots.releaseCanaryInflight t.row.monitor.id d.result.canaryRunKey := by
  rw [deliver_of_passes h]
  split
  · rfl
  · split
    · rfl
    · rw [recordCheckStatus_eq]
      rfl

/-! ## Every sequence of deliveries -/

theorem Folded.deliverAll (cfg : ResultSettings) (ds : List Delivery) :
    ∀ {rs : List ScheduledResult} {t : ResultTables},
    Folded t₀ rs t → Freed t₀ rs t → (∀ d ∈ ds, d.passes cfg t₀.row.monitor) →
    (∀ r ∈ rs ++ ds.map result, ∀ r' ∈ rs ++ ds.map result, r.instant = r'.instant → r = r') →
    Folded t₀ (rs ++ ds.map result) (t.deliverAll cfg ds) ∧
      Freed t₀ (rs ++ ds.map result) (t.deliverAll cfg ds) := by
  induction ds with
  | nil =>
    intro rs t h hf _ _
    rw [map_nil, append_nil]
    exact ⟨h, hf⟩
  | cons d ds ih =>
    intro rs t h hf hpass hdistinct
    have hd := hpass d mem_cons_self
    have hsnoc : rs ++ (d :: ds).map result = (rs ++ [d.result]) ++ ds.map result := by simp
    rw [hsnoc] at hdistinct ⊢
    have hown : ∀ r ∈ rs, r.instant = d.result.instant → r = d.result := by
      intro r hr
      apply hdistinct
      · simp [hr]
      · simp
    have hpass' : d.passes cfg t.row.monitor := h.passes hd
    refine ih (h.deliver hd hown) ?_ (fun e he => hpass e (mem_cons_of_mem d he)) hdistinct
    refine freed_deliver hf ?_ (slots_deliver hpass')
    rw [h.monitor]
    rfl

end

def probedMonitor : ResultTables where
  row := ⟨⟨1, .http, true, false, 0, 60, 10, 0, 0, 2, false, 3, .pending, 0, none⟩,
    none, 7, none, 0,
    none⟩
  heartbeats := .empty
  outbox := []
  slots := .empty

def resultSettings : ResultSettings := ⟨.enforce, 0, 0, withExpectedRunPolicy 14 10000⟩

def probedAt (ts : Int) (up : Bool) (dbNow : Int) : Delivery :=
  ⟨⟨some ts, up, 5, 200, "", 3, none, none, none, none⟩, dbNow, false⟩

/-- Two failures, an older success between them, the first failure again, and a recovery. -/
def probedDeliveries : List Delivery :=
  [probedAt 10 false 11, probedAt 30 false 31, probedAt 20 true 32, probedAt 10 false 33,
    probedAt 40 true 41]

end Cerbix.Results
