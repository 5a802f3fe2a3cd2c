import Cerbix.Results.Record

/-!
# Pings and the dead-man's switch

A ping is stamped when it arrives and serialised later on its monitor's row lock, so pings need not
commit in the order of their receipt. `PushOrdered` is what the watermark promises nevertheless;
written without comparing, it keeps the promise where they do (`pushOrdered_of_inOrder`) and breaks
it with two that cross (`crossedPings_not_pushOrdered`).
-/

namespace Cerbix.Results

open Cerbix.Lib Cerbix.Domain Cerbix.Ledger Cerbix.Scheduler List Ping

/-- What happens to a push monitor. -/
inductive PushOp
  | ping (p : Ping) (inMaintenance : Bool)
  | deadman (revision cutoff at' : Int) (inMaintenance : Bool)
  deriving DecidableEq, Repr

namespace ResultTables

def push (t : ResultTables) : PushOp → ResultTables
  | .ping p inMaintenance => (t.recordPushResult p inMaintenance).1
  | .deadman revision cutoff at' inMaintenance =>
    (t.recordDeadmanResult revision cutoff at' inMaintenance).1

def pushAll (t : ResultTables) (ops : List PushOp) : ResultTables := ops.foldl push t

end ResultTables

variable (ops : List PushOp)

def pings : List Ping :=
  ops.filterMap fun
    | .ping p _ => some p
    | .deadman .. => none

/-- The transactions with these pings in the places of theirs. -/
def withPings : List PushOp → List Ping → List PushOp
  | .ping _ inMaintenance :: ops, p :: ps => .ping p inMaintenance :: withPings ops ps
  | .deadman revision cutoff at' inMaintenance :: ops, ps =>
    .deadman revision cutoff at' inMaintenance :: withPings ops ps
  | _, _ => []

def inReceiptOrder : List PushOp :=
  withPings ops ((pings ops).mergeSort fun p q => p.receivedAt ≤ q.receivedAt)

/-- What the watermark of a push monitor promises, over the transactions that committed. -/
structure PushOrdered (t₀ : ResultTables) (ops : List PushOp) : Prop where
  watermark : (t₀.pushAll ops).row.lastResultTs = ((pings ops).map receivedAt).max?
  standing : (t₀.pushAll ops).row.standing = (t₀.pushAll (inReceiptOrder ops)).row.standing
  /-- A dead-man's DOWN is applied only at a cutoff no earlier than every ping committed before. -/
  deadman : ∀ before revision cutoff at' inMaintenance after,
    ops = before ++ .deadman revision cutoff at' inMaintenance :: after →
    ((t₀.pushAll before).recordDeadmanResult revision cutoff at' inMaintenance).2.applied →
    ∀ p ∈ pings before, p.receivedAt ≤ cutoff

def InOrder : Prop :=
  (pings ops).Pairwise fun p q => p.receivedAt ≤ q.receivedAt

instance (ops : List PushOp) : Decidable (InOrder ops) :=
  inferInstanceAs (Decidable (Pairwise _ _))

theorem withPings_pings : withPings ops (pings ops) = ops := by
  induction ops with
  | nil => rfl
  | cons op ops ih =>
    cases op with
    | ping p inMaintenance => exact congrArg (PushOp.ping p inMaintenance :: ·) ih
    | deadman revision cutoff at' inMaintenance =>
      exact congrArg (PushOp.deadman revision cutoff at' inMaintenance :: ·) ih

variable {ops : List PushOp} {t : ResultTables}

theorem InOrder.inReceiptOrder_eq (h : InOrder ops) : inReceiptOrder ops = ops := by
  unfold inReceiptOrder
  rw [mergeSort_of_pairwise (h.imp fun hle => decide_eq_true hle), withPings_pings]

theorem pings_append (ops ops' : List PushOp) : pings (ops ++ ops') = pings ops ++ pings ops' :=
  filterMap_append

theorem InOrder.of_append {ops' : List PushOp} (h : InOrder (ops ++ ops')) : InOrder ops := by
  unfold InOrder at h
  rw [pings_append, pairwise_append] at h
  exact h.1

/-! ## The watermark -/

def Pushes (t : ResultTables) : Prop := t.row.monitor.type = .push ∧ t.row.monitor.enabled

theorem recordCheckStatus_keeps (t : ResultTables) (up : Bool) :
    (t.recordCheckStatus up).row.monitor.type = t.row.monitor.type ∧
      (t.recordCheckStatus up).row.monitor.enabled = t.row.monitor.enabled ∧
      (t.recordCheckStatus up).row.lastResultTs = t.row.lastResultTs := by
  rw [recordCheckStatus_eq]
  exact ⟨rfl, rfl, rfl⟩

open ResultTables

theorem Pushes.ping (h : Pushes t) (p : Ping) (inMaintenance : Bool) :
    Pushes (t.push (.ping p inMaintenance)) ∧
      (t.push (.ping p inMaintenance)).row.lastResultTs = some p.receivedAt := by
  simp only [push, recordPushResult]
  rw [if_neg (by simp [h.1, h.2])]
  refine ⟨?_, rfl⟩
  simp only [Pushes, observedResult, recordCheckStatus_keeps]
  exact h

theorem Pushes.deadman (h : Pushes t) (revision cutoff at' : Int) (inMaintenance : Bool) :
    Pushes (t.push (.deadman revision cutoff at' inMaintenance)) ∧
      (t.push (.deadman revision cutoff at' inMaintenance)).row.lastResultTs =
        t.row.lastResultTs := by
  simp only [push, recordDeadmanResult]
  split
  · exact ⟨h, rfl⟩
  · simp only [Pushes, recordCheckStatus_keeps, and_true]
    exact h

theorem lastResultTs_pushAll {t₀ : ResultTables} (h : Pushes t₀) (hnew : t₀.row.lastResultTs = none)
    (ops : List PushOp) : Pushes (t₀.pushAll ops) ∧
      (t₀.pushAll ops).row.lastResultTs = ((pings ops).map receivedAt).getLast? := by
  induction ops using reverseRecOn with
  | nil => exact ⟨h, hnew⟩
  | append_singleton ops op ih =>
    rw [pushAll, foldl_append, foldl_cons, foldl_nil, pings_append, map_append]
    cases op with
    | ping p inMaintenance =>
      obtain ⟨hp, hts⟩ := ih.1.ping p inMaintenance
      refine ⟨hp, hts.trans ?_⟩
      exact (getLast?_concat).symm
    | deadman revision cutoff at' inMaintenance =>
      obtain ⟨hp, hts⟩ := ih.1.deadman revision cutoff at' inMaintenance
      refine ⟨hp, hts.trans (ih.2.trans ?_)⟩
      exact congrArg getLast? (append_nil _).symm

theorem InOrder.le_getLast (h : InOrder ops) {last : Int}
    (hlast : ((pings ops).map receivedAt).getLast? = some last) :
    last ∈ (pings ops).map receivedAt ∧ ∀ p ∈ pings ops, p.receivedAt ≤ last := by
  obtain ⟨rest, hrest⟩ := getLast?_eq_some_iff.1 hlast
  have hsorted : ((pings ops).map receivedAt).Pairwise (· ≤ ·) := pairwise_map.2 h
  refine ⟨hrest ▸ mem_append_right _ (mem_singleton_self last), fun p hp => ?_⟩
  have hmem : p.receivedAt ∈ rest ++ [last] := hrest ▸ mem_map_of_mem hp
  rw [hrest, pairwise_append] at hsorted
  rcases mem_append.1 hmem with hmem | hmem
  · exact hsorted.2.2 _ hmem _ (mem_singleton_self last)
  · exact Int.le_of_eq (mem_singleton.1 hmem)

theorem lastResultTs_lt_of_applied {revision cutoff at' : Int} {inMaintenance : Bool}
    (h : (t.recordDeadmanResult revision cutoff at' inMaintenance).2.applied) :
    ∀ last, t.row.lastResultTs = some last → last < cutoff := by
  intro last hlast
  unfold recordDeadmanResult at h
  split at h
  · cases h
  rename_i hstale
  have hfresh : t.freshness < cutoff := by
    simp only [deadmanStale, Bool.not_eq_true', Bool.not_eq_false, Bool.and_eq_true,
      decide_eq_true_eq] at hstale
    exact hstale.2
  have hle : last ≤ t.freshness := by
    unfold freshness
    rw [hlast]
    split
    · next heq =>
      cases heq
      exact Int.le_max_right _ _
    · next heq => cases heq
    · next heq =>
      cases heq
      exact Int.le_refl _
    · next heq => cases heq
  exact Int.lt_of_le_of_lt hle hfresh

/-- **Push ordering**, where pings commit in the order of their receipt. -/
theorem pushOrdered_of_inOrder {t₀ : ResultTables} (h : Pushes t₀)
    (hnew : t₀.row.lastResultTs = none) {ops : List PushOp} (hord : InOrder ops) :
    PushOrdered t₀ ops where
  watermark := by
    rw [(lastResultTs_pushAll h hnew ops).2]
    cases hlast : ((pings ops).map receivedAt).getLast? with
    | none =>
      rw [getLast?_eq_none_iff.1 hlast]
      rfl
    | some last =>
      obtain ⟨hmem, hle⟩ := hord.le_getLast hlast
      refine (max?_eq_some_iff.2 ⟨hmem, fun x hx => ?_⟩).symm
      obtain ⟨p, hp, rfl⟩ := mem_map.1 hx
      exact hle p hp
  standing := by rw [hord.inReceiptOrder_eq]
  deadman := by
    rintro before revision cutoff at' inMaintenance after rfl happlied p hp
    cases hlast : ((pings before).map receivedAt).getLast? with
    | none =>
      have hnil := map_eq_nil_iff.1 (getLast?_eq_none_iff.1 hlast)
      rw [hnil] at hp
      cases hp
    | some last =>
      have hts := (lastResultTs_pushAll h hnew before).2.trans hlast
      have hlt := lastResultTs_lt_of_applied happlied last hts
      exact Int.le_of_lt (Int.lt_of_le_of_lt ((hord.of_append.le_getLast hlast).2 p hp) hlt)

/-- A push monitor that is down after one failure, created at 0. -/
def pushMonitor : ResultTables where
  row := ⟨⟨1, .push, true, false, 0, 60, 10, 0, 0, 1, false, 3, .pending, 0, none⟩,
    none, 0, none, 0,
    none⟩
  heartbeats := .empty
  outbox := []
  slots := .empty

def pinged (up : Bool) (receivedAt : Int) : PushOp := .ping ⟨up, "", receivedAt, none⟩ false

/-- The ping received at 10 commits before the one received at 5; the dead-man's cutoff is 7. -/
def crossedPings : List PushOp := [pinged true 10, pinged false 5, .deadman 3 7 20 false]

/-- The watermark went back to 5, so the dead-man's DOWN is applied, and the standing is not the one
of the pings in the order of receipt. -/
theorem crossedPings_not_pushOrdered : ¬PushOrdered pushMonitor crossedPings ∧
      (pushMonitor.pushAll crossedPings).row.standing = ⟨.down, 2⟩ ∧
      (pushMonitor.pushAll [pinged false 5, pinged true 10, .deadman 3 7 20 false]).row.standing =
        ⟨.up, 0⟩ := by
  refine ⟨fun h => ?_, by decide, by decide⟩
  have hw := h.watermark
  revert hw
  decide

theorem orderedPings_pushOrdered :
    PushOrdered pushMonitor [pinged false 5, .deadman 3 7 8 false, pinged true 10,
      .deadman 3 7 20 false] :=
  pushOrdered_of_inOrder ⟨rfl, rfl⟩ rfl (by decide)

end Cerbix.Results
