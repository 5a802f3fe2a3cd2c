import Cerbix.Alerting.Evaluation

/-!
# Deliveries, and the rows as a board of announcements

The outbox (`internal/store/outbox.go`) and the worker that empties it (`internal/outbox/outbox.go`,
the `service_alert` topic). A worker holds the copy its claim returned and its lease may run out
while it sends, so several may hold one event; only the settling write compares the token. Each
statement is a step; how a send ends, and whether a write is lost, is its input.

`AlertTables.board` reads a board of numbered announcements off the rows: latches, open episodes,
enqueued events, and the onsets that are undelivered or were heard. An evaluation is a move of its
identity (`Evaluated.move`), a lifecycle close a run of edges down (`closeServiceEpisodes_moves`);
the outbox is seen only through the events that are left.
-/

namespace Cerbix.Alerting

open Cerbix.Lib Cerbix.Domain List Function

def maxAttempts : Nat := 10

/-- How long a claim is valid, and when a failed attempt is due again: 10s doubling to an hour. -/
def claimLease (attempts : Nat) : Int :=
  min (3600 * Go.second) (10 * Go.second * 2 ^ min attempts 12)

/-- `ChannelDelivery`: the recipients asked for, those that still are channels, and the sends that
succeeded. -/
structure ChannelDelivery where
  requested : Nat
  resolved : Nat
  delivered : Nat
  deriving DecidableEq, Repr

namespace AlertTables

variable (s : AlertTables)

def updateClaimed (id token : Nat) (f : OutboxEvent → OutboxEvent) : AlertTables :=
  { s with
    outbox := s.outbox.map fun r => if r.id = id ∧ r.claimToken = some token then f r else r }

def holdsClaim (id token : Nat) : Bool :=
  s.outbox.any fun r => r.id = id ∧ r.claimToken = some token

/-- A worker takes a due event. -/
def claimDueOutbox (id : Nat) (now : Int) : Option AlertTables :=
  match s.outbox.find? fun r => r.id = id && r.status = .pending && r.nextAttemptAt ≤ now with
  | none => none
  | some r =>
    some { s with
      outbox := s.outbox.map fun r =>
        if r.id = id then
          { r with
            attempts := r.attempts + 1, nextAttemptAt := now + claimLease r.attempts
            claimToken := some s.nextID, updatedAt := now }
        else r
      workers := s.workers ++ [⟨r.id, r.alert, r.attempts + 1, s.nextID, .claimed⟩]
      nextID := s.nextID + 1 }

/-- An operator has a dead event tried again. -/
def replayDeadOutbox (id : Nat) (now : Int) : AlertTables :=
  { s with
    outbox := s.outbox.map fun r =>
      if r.id = id ∧ r.status = .dead then
        { r with status := .pending, attempts := 0, nextAttemptAt := now, updatedAt := now }
      else r }

def purgeDeliveredOutbox (before : Int) : AlertTables :=
  { s with outbox := s.outbox.filter fun r => !(r.status = .delivered && r.updatedAt < before) }

/-- `MarkServiceAlertDelivered`: matched by the sequence; a close never counts. -/
def markServiceAlertDelivered (a : ServiceAlert) : AlertTables :=
  if a.firing then s.modifyLatch a.key (·.credit a.seq) else s

/-- Nobody will hear the onset. -/
def markServiceAlertUndeliverable (a : ServiceAlert) : AlertTables :=
  if a.firing then s.modifyLatch a.key (·.condemn a.seq) else s

/-! ## The worker -/

def setStage (i : Nat) (d : Delivery) (stage : Stage) : AlertTables :=
  { s with workers := s.workers.set i { d with stage := stage } }

def dropWorker (i : Nat) : AlertTables := { s with workers := s.workers.eraseIdx i }

/-- A worker gives its event back. -/
def releaseOutboxClaim (i : Nat) (now : Int) : Option AlertTables :=
  match s.workers[i]? with
  | some d =>
    if d.stage = .claimed then
      let released := s.updateClaimed d.id d.claimToken fun r =>
        if r.status = .pending then
          { r with
            attempts := r.attempts - 1, nextAttemptAt := now, claimToken := none, updatedAt := now }
        else r
      some (released.dropWorker i)
    else none
  | none => none

/-- The ordering gate: an onset whose latch is gone or ahead of it is dropped. -/
def superseded (a : ServiceAlert) : Bool :=
  a.firing &&
    match s.latch a.key with
    | none => true
    | some l => a.seq < l.emittedSeq

/-- `Worker.deliver` up to the send: the installation's silence, the deliverer, the gate, an empty
recipient snapshot. -/
def gate (i : Nat) (silenced configured : Bool) : Option AlertTables :=
  match s.workers[i]? with
  | some d =>
    if d.stage ≠ .claimed then none
    else if silenced then some (s.setStage i d (.settling false))
    else if !configured then some (s.setStage i d (.settling true))
    else if s.superseded d.alert then some (s.setStage i d (.settling false))
    else if d.alert.recipients.isEmpty then some (s.setStage i d .unreached)
    else some (s.setStage i d .sending)
  | none => none

/-- A worker tells the channels. -/
def send (i : Nat) (res : ChannelDelivery) (failed : Bool) : Option AlertTables :=
  match s.workers[i]? with
  | some d =>
    if d.stage = .sending ∧ res.delivered ≤ res.resolved ∧ res.resolved ≤ res.requested ∧
        res.requested = d.alert.recipients.length then
      let stage := if !failed && res.resolved = 0 then .unreached else .sent res.delivered failed
      let s' := s.setStage i d stage
      some { s' with heard := if 0 < res.delivered then s.heard ++ [d.alert] else s.heard }
    else none
  | none => none

/-- What the worker records about the announcement; the write may be lost. -/
def record (i : Nat) (recorded : Bool) : Option AlertTables :=
  match s.workers[i]? with
  | some d =>
    match d.stage with
    | .unreached =>
      let s' := if recorded then s.markServiceAlertUndeliverable d.alert else s
      some (s'.setStage i d (.settling false))
    | .sent delivered failed =>
      let s' := if 0 < delivered && recorded then s.markServiceAlertDelivered d.alert else s
      some (s'.setStage i d (.settling failed))
    | _ => none
  | none => none

/-- `MarkOutboxDelivered` or `FailOutbox`. A failed last attempt leaves a dead row, and its
announcement to be condemned. -/
def settle (i : Nat) (now : Int) : Option AlertTables :=
  match s.workers[i]? with
  | some d =>
    match d.stage with
    | .settling false =>
      let s' := s.updateClaimed d.id d.claimToken fun r =>
        { r with status := .delivered, updatedAt := now }
      some (s'.dropWorker i)
    | .settling true =>
      let s' := s.updateClaimed d.id d.claimToken fun r =>
        { r with status := if maxAttempts ≤ r.attempts then .dead else .pending, updatedAt := now }
      if s.holdsClaim d.id d.claimToken && maxAttempts ≤ d.attempts then
        some (s'.setStage i d .dying)
      else some (s'.dropWorker i)
    | _ => none
  | none => none

/-- The last attempt failed. -/
def condemnDead (i : Nat) (recorded : Bool) : Option AlertTables :=
  match s.workers[i]? with
  | some d =>
    if d.stage = .dying then
      let s' := if recorded then s.markServiceAlertUndeliverable d.alert else s
      some (s'.dropWorker i)
    else none
  | none => none

/-- A worker is gone, and its claim stays. -/
def crash (i : Nat) : Option AlertTables :=
  if i < s.workers.length then some (s.dropWorker i) else none

end AlertTables

/-- What workers do. -/
inductive DeliveryOp
  | claim (id : Nat) (now : Int)
  | release (worker : Nat) (now : Int)
  | gate (worker : Nat) (silenced configured : Bool)
  | send (worker : Nat) (res : ChannelDelivery) (failed : Bool)
  | record (worker : Nat) (recorded : Bool)
  | settle (worker : Nat) (now : Int)
  | condemnDead (worker : Nat) (recorded : Bool)
  | crash (worker : Nat)
  | replay (id : Nat) (now : Int)
  | purge (before : Int)
  deriving DecidableEq, Repr

def AlertTables.deliver (s : AlertTables) : DeliveryOp → Option AlertTables
  | .claim id now => s.claimDueOutbox id now
  | .release i now => s.releaseOutboxClaim i now
  | .gate i silenced configured => s.gate i silenced configured
  | .send i res failed => s.send i res failed
  | .record i recorded => s.record i recorded
  | .settle i now => s.settle i now
  | .condemnDead i recorded => s.condemnDead i recorded
  | .crash i => s.crash i
  | .replay id now => some (s.replayDeadOutbox id now)
  | .purge before => some (s.purgeDeliveredOutbox before)

/-- The episode and who is to hear of it. -/
abbrev Announcement := Option Nat × List Nat

def ServiceAlert.announcement (a : ServiceAlert) : Announcement := (a.episodeID, a.recipients)

def Episode.announcement (e : Episode) : Announcement := (some e.id, e.recipients)

def ServiceAlert.notice (a : ServiceAlert) : Notice AlertKey Announcement :=
  ⟨a.key, a.firing, a.announcement⟩

def ServiceAlert.onset (a : ServiceAlert) : Onset AlertKey Announcement :=
  ⟨a.key, a.seq, a.announcement⟩

namespace AlertTables

/-- The alerts somebody may still deliver: their row is not delivered (a dead one can be replayed),
or a worker holds a copy. -/
def outstanding (s : AlertTables) : List ServiceAlert :=
  (s.outbox.filter fun r => r.status ≠ .delivered).map OutboxEvent.alert ++
    s.workers.map Delivery.alert

/-- What the tables say of each signal, and what was said and heard of it. -/
def board (s : AlertTables) : Board AlertKey Announcement where
  latch := s.latch
  current k := (s.openEpisode k).map fun e => (e.announcement, e.emittedSeq)
  log := s.log.map ServiceAlert.notice
  onsets := { o | ∃ a ∈ s.outstanding, a.firing ∧ a.onset = o }
  heard := { x | ∃ a ∈ s.heard, a.firing ∧ a.announcement = x }

variable {s s' : AlertTables} {k : AlertKey}

theorem board_current {ep : Episode} (h : s.openEpisode k = some ep) :
    s.board.current k = some (ep.announcement, ep.emittedSeq) := by
  simp [board, h]

theorem board_current_eq_none (h : s.openEpisode k = none) : s.board.current k = none := by
  simp [board, h]

/-! ## Writes of the rows -/

theorem board_closeOpen (k : AlertKey) (asOf : Int) (reason : CloseReason) :
    (s.closeOpen k asOf reason).board =
      { s.board with current := update s.board.current k none } := by
  refine Board.ext rfl (funext fun k' => ?_) rfl rfl rfl
  simp only [board, openEpisode_closeOpen]
  rcases eq_or_ne k' k with rfl | hne
  · simp
  · simp [hne]

theorem mem_outstanding_enqueueOutbox {a b : ServiceAlert} {now : Int} :
    b ∈ (s.enqueueOutbox a now).outstanding ↔ b = a ∨ b ∈ s.outstanding := by
  have hrow : (s.enqueueOutbox a now).outstanding =
      (s.outbox.filter fun r => r.status ≠ .delivered).map OutboxEvent.alert ++ [a] ++
        s.workers.map Delivery.alert := by
    simp [outstanding, enqueueOutbox]
  rw [hrow, outstanding, mem_append, mem_append, mem_append, mem_singleton,
    or_comm (b := b = a), or_assoc]

theorem board_enqueueOutbox (a : ServiceAlert) (now : Int) : (s.enqueueOutbox a now).board =
      { s.board with
        log := s.board.log ++ [a.notice]
        onsets := if a.firing then insert a.onset s.board.onsets else s.board.onsets } := by
  refine Board.ext rfl rfl (by simp [board, enqueueOutbox]) (Set.ext fun o => ?_) rfl
  have hiff : o ∈ (s.enqueueOutbox a now).board.onsets ↔
      (a.firing ∧ a.onset = o) ∨ o ∈ s.board.onsets := by
    constructor
    · rintro ⟨b, hb, hf, ho⟩
      rcases mem_outstanding_enqueueOutbox.1 hb with rfl | hb
      · exact .inl ⟨hf, ho⟩
      · exact .inr ⟨b, hb, hf, ho⟩
    · rintro (⟨hf, ho⟩ | ⟨b, hb, h⟩)
      · exact ⟨a, mem_outstanding_enqueueOutbox.2 (.inl rfl), hf, ho⟩
      · exact ⟨b, mem_outstanding_enqueueOutbox.2 (.inr hb), h⟩
  rw [hiff]
  split
  · next hf => simp only [hf, true_and, Set.mem_insert_iff, eq_comm]
  · next hf => simp only [hf, Bool.false_eq_true, false_and, false_or]

theorem board_emitOnset (em : Emission) (recipients : List Nat) :
    (s.emitOnset em recipients).board =
      { s.board with
        current := update s.board.current em.key
          (some ((s.opened em recipients).announcement, em.seq))
        log := s.board.log ++ [⟨em.key, true, (s.opened em recipients).announcement⟩]
        onsets := insert ⟨em.key, em.seq, (s.opened em recipients).announcement⟩
          s.board.onsets } := by
  have hcur : (s.emitOnset em recipients).board.current = update s.board.current em.key
      (some ((s.opened em recipients).announcement, em.seq)) := by
    funext k'
    simp only [board, openEpisode_emitOnset]
    rcases eq_or_ne k' em.key with rfl | hne
    · simp [opened]
    · simp [hne]
  rw [← hcur]
  unfold emitOnset
  rw [board_enqueueOutbox]
  rfl

namespace RowWrite

variable {l : Latch} (h : RowWrite k l s s')

include h

theorem episodes : s'.episodes = s.episodes := by rw [h.same]

theorem openEpisode : s'.openEpisode = s.openEpisode := by
  funext k'
  rw [AlertTables.openEpisode, h.episodes, AlertTables.openEpisode]

theorem board : s'.board = { s.board with latch := update s.board.latch k (some l) } := by
  have hcur := h.openEpisode
  refine Board.ext (funext fun k' => ?_) ?_ ?_ ?_ ?_
  · rcases eq_or_ne k' k with rfl | hne
    · simpa [AlertTables.board] using h.self
    · simpa [AlertTables.board, update_of_ne hne] using h.other k' hne
  · simp only [AlertTables.board, hcur]
  · rw [h.same]
    rfl
  · rw [h.same]
    rfl
  · rw [h.same]
    rfl

end RowWrite

theorem Evaluated.move (h : Evaluated k s s') : Board.Move k s.board s'.board := by
  cases h with
  | quiet hrow =>
    rw [hrow.board]
    exact .observe
  | onset em hkey hseq _ hrow =>
    subst hkey
    rw [hrow.board, board_emitOnset, hseq]
    exact .raise _
  | close asOf reason state hopen hrow =>
    rw [hrow.board, board_enqueueOutbox, board_closeOpen]
    exact .lower (board_current hopen)

theorem board_modifyLatch (k : AlertKey) (f : Latch → Latch) :
    (s.modifyLatch k f).board = s.board.modify k f := by
  cases k with
  | health =>
    refine Board.ext (funext fun k' => ?_) rfl rfl rfl rfl
    cases k' with
    | health => simp [board, modifyLatch, latch, Board.modify, comp_def]
    | burn i rule => rfl
  | burn i rule =>
    refine Board.ext (funext fun k' => ?_) rfl rfl rfl rfl
    cases k' with
    | health => rfl
    | burn i' rule' =>
      simp only [board, modifyLatch, latch]
      rw [find?_update_key (f := fun l : BurnLatch => { l with toLatch := f l.toLatch })
        fun _ => rfl]
      rcases eq_or_ne (AlertKey.burn i' rule') (.burn i rule) with he | hne
      · simp [Board.modify, he, latch, comp_def]
      · simp [Board.modify, hne, latch]

/-! ## Lifecycle closes -/

section

variable {asOf : Int} {reason : CloseReason} {ep : Episode}

theorem openEpisode_endEpisode (k : AlertKey) :
    (endEpisode asOf reason s ep).openEpisode k = if k = ep.key then none else s.openEpisode k := by
  rw [← openEpisode_closeOpen ep.key k asOf reason]
  unfold endEpisode modifyLatch
  split <;> rfl

theorem board_endEpisode (hagree : s.board.Agree) (hopen : s.openEpisode ep.key = some ep) :
    (endEpisode asOf reason s ep).board = s.board.lower ep.key ep.announcement := by
  obtain ⟨hl, -, hseq⟩ := hagree.latchAt_of_open (board_current hopen)
  rw [endEpisode, board_modifyLatch, board_enqueueOutbox, board_closeOpen]
  refine Board.ext ?_ rfl rfl rfl rfl
  simp only [Board.modify, Board.lower, hl, Option.map_some, Latch.lower, hseq]

theorem endEpisode_same : endEpisode asOf reason s ep =
      { s with
        live := (endEpisode asOf reason s ep).live
        latches := (endEpisode asOf reason s ep).latches
        episodes := (s.closeOpen ep.key asOf reason).episodes
        outbox := (endEpisode asOf reason s ep).outbox
        nextID := (endEpisode asOf reason s ep).nextID
        log := (endEpisode asOf reason s ep).log } := by
  unfold endEpisode modifyLatch
  split <;> rfl

theorem openEpisode_foldl_endEpisode (k : AlertKey) (eps : List Episode) :
    ∀ s : AlertTables, (eps.foldl (endEpisode asOf reason) s).openEpisode k =
      if k ∈ eps.map Episode.key then none else s.openEpisode k := by
  induction eps with
  | nil => simp
  | cons ep eps ih =>
    intro s
    rw [foldl_cons, ih, openEpisode_endEpisode]
    by_cases h : k = ep.key <;> simp [h]

theorem foldl_endEpisode_moves {P : AlertKey → Prop} {eps : List Episode}
    (hP : ∀ ep ∈ eps, P ep.key) : ∀ {s : AlertTables}, s.board.Agree → (eps.map Episode.key).Nodup →
      (∀ ep ∈ eps, s.openEpisode ep.key = some ep) →
      Board.Moves P s.board (eps.foldl (endEpisode asOf reason) s).board := by
  induction eps with
  | nil => exact fun _ _ _ => .refl
  | cons ep eps ih =>
    intro s hagree hn hopen
    rw [map_cons, nodup_cons] at hn
    have hmove : Board.Move ep.key s.board (endEpisode asOf reason s ep).board := by
      have hep := hopen ep mem_cons_self
      rw [board_endEpisode hagree hep]
      exact .lower (board_current hep)
    refine .head ⟨ep.key, hP ep mem_cons_self, hmove⟩
      (ih (fun e he => hP e (mem_cons_of_mem ep he)) (hagree.move hmove) hn.2 ?_)
    intro e he
    have hne : e.key ≠ ep.key := fun h => hn.1 (h ▸ mem_map_of_mem he)
    rw [openEpisode_endEpisode, if_neg hne, hopen e (mem_cons_of_mem ep he)]

end

variable {f : EpisodeCloseFilter} {asOf : Int} {reason : CloseReason}

theorem openEpisode_closeServiceEpisodes (k : AlertKey) :
    (s.closeServiceEpisodes f asOf reason).openEpisode k =
      if f.ends k then none else s.openEpisode k := by
  have hfold : (s.closeServiceEpisodes f asOf reason).openEpisode k =
      ((s.episodes.filter fun e => e.isOpen && f.ends e.key).foldl (endEpisode asOf reason)
        s).openEpisode k := by
    unfold closeServiceEpisodes
    simp only
    split <;> rfl
  rw [hfold, openEpisode_foldl_endEpisode]
  cases hep : s.openEpisode k with
  | none => simp
  | some ep =>
    obtain ⟨hmem, ho, rfl⟩ := openEpisode_spec hep
    by_cases hf : f.ends ep.key
    · rw [if_pos (mem_map.2 ⟨ep, mem_filter.2 ⟨hmem, by simp [ho, hf]⟩, rfl⟩), if_pos hf]
    · rw [if_neg, if_neg hf]
      intro h
      obtain ⟨e, he, hkey⟩ := mem_map.1 h
      have := (mem_filter.1 he).2
      simp [hkey, hf] at this

theorem latch_endEpisode {ep : Episode} {k : AlertKey} (hk : k ≠ ep.key) :
    (endEpisode asOf reason s ep).latch k = s.latch k := by
  have hboard : (endEpisode asOf reason s ep).board.latch k = s.board.latch k := by
    rw [endEpisode, board_modifyLatch]
    exact update_of_ne hk _ _
  exact hboard

theorem latch_closeServiceEpisodes {k : AlertKey} (hk : f.ends k = false) :
    (s.closeServiceEpisodes f asOf reason).latch k = s.latch k := by
  have hfold : (s.closeServiceEpisodes f asOf reason).latch k =
      ((s.episodes.filter fun e => e.isOpen && f.ends e.key).foldl (endEpisode asOf reason)
        s).latch k := by
    unfold closeServiceEpisodes
    simp only
    split <;> rfl
  rw [hfold]
  refine List.foldlRecOn (motive := fun t : AlertTables => t.latch k = s.latch k) _ _ rfl
    fun t ht ep hep => ?_
  have hends := (mem_filter.1 hep).2
  rw [latch_endEpisode, ht]
  rintro rfl
  simp [hk] at hends

theorem closeServiceEpisodes_moves (hu : s.OpenUnique) (hagree : s.board.Agree) :
    Board.Moves (fun k => s.board.latch k ≠ none) s.board
      (s.closeServiceEpisodes f asOf reason).board := by
  have hfold : (s.closeServiceEpisodes f asOf reason).board =
      ((s.episodes.filter fun e => e.isOpen && f.ends e.key).foldl (endEpisode asOf reason)
        s).board := by
    unfold closeServiceEpisodes
    simp only
    split <;> rfl
  have hopen : ∀ ep ∈ s.episodes.filter fun e => e.isOpen && f.ends e.key,
      s.openEpisode ep.key = some ep := by
    intro ep hep
    rw [mem_filter, Bool.and_eq_true] at hep
    exact hu.openEpisode_of_mem hep.1 hep.2.1
  rw [hfold]
  refine foldl_endEpisode_moves (fun ep hep => ?_) hagree ?_ hopen
  · obtain ⟨l, hl, -⟩ := hagree.opened _ _ _ (board_current (hopen ep hep))
    simp [hl]
  · rw [show (fun e : Episode => e.isOpen && f.ends e.key) = fun e => f.ends e.key && e.isOpen from
      funext fun e => Bool.and_comm .., ← filter_filter]
    exact hu.sublist (filter_sublist.map _)

end AlertTables

end Cerbix.Alerting
