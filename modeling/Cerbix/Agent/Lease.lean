import Cerbix.Domain.Monitor
import Cerbix.Lib.Query
import Cerbix.Lib.Run
import Cerbix.Lib.Table

/-!
# The lease of a pull job

Agents claim jobs of a region from `pull_jobs`, probe a batch one job after the other and post its
results at the end (`internal/agent/agent.go`, `internal/store/pulljobs.go`). A lease is sized by
the job's own timeout (`pullLeaseFor` in `internal/scheduler/scheduler.go`), whatever stands in
front of it: `canary_exclusive`, `canary_handed_twice`.
-/

namespace Cerbix.Agent

open Cerbix.Lib Cerbix.Domain List

abbrev AgentID := Nat

abbrev PullJobID := Nat

abbrev ClaimToken := Nat × PullJobID

/-- A job, as far as its lease depends on it. -/
structure PullPayload where
  canary : Bool
  timeoutSeconds : Int
  attempts : Int
  workflowKind : Option String
  deriving DecidableEq

/-- How long all attempts of a job can take. -/
def PullPayload.longestRun (p : PullPayload) : Int := p.timeoutSeconds * p.attempts

/-- A job in the queue, with its lease. -/
structure PullJob where
  id : PullJobID
  payload : PullPayload
  createdAt : Int
  expiresAt : Int
  protocolVersion : Nat
  leaseSeconds : Option Int
  claimToken : Option ClaimToken
  leaseExpiresAt : Option Int
  deriving DecidableEq

/-- A job of a batch that an agent has claimed and not posted. -/
structure Held where
  agent : AgentID
  job : PullJobID
  token : ClaimToken
  leaseEnd : Int
  canary : Bool
  deriving DecidableEq

/-- `handed` has every canary that a claim returned, `died` those whose agent died with them. -/
structure PullQueue where
  jobs : Table PullJob.id
  nextID : PullJobID
  claims : Nat
  held : List Held
  handed : List PullJobID
  died : List PullJobID

def PullQueue.empty : PullQueue := ⟨.empty, 0, 0, [], [], []⟩

/-- What an agent asks for and can run. -/
structure ClaimRequest where
  max : Nat
  maxProtocolVersion : Nat
  workflowKinds : List String

/-- What agents and the server do. -/
inductive PullOp
  | enqueue (payload : PullPayload) (ttlSeconds : Int) (protocolVersion : Nat) (now : Int)
  | claim (agent : AgentID) (request : ClaimRequest) (now : Int)
  | post (agent : AgentID) (accepted : Bool)
  | die (agent : AgentID)
  | purge (now : Int)

def pullJobLeaseSeconds : Int := 30

/-- A job whose timeout exceeds the usual lease has a longer one. -/
def pullLeaseFor (p : PullPayload) : Option Int :=
  if p.timeoutSeconds ≤ pullJobLeaseSeconds then none else some (p.timeoutSeconds + 60)

def PullJob.lease (r : PullJob) : Int := seconds (r.leaseSeconds.getD pullJobLeaseSeconds)

/-- An agent that can run the job may have it: it is neither leased nor expired. -/
def PullJob.claimable (request : ClaimRequest) (now : Int) (r : PullJob) : Bool :=
  r.protocolVersion ≤ request.maxProtocolVersion && now < r.expiresAt &&
    r.leaseExpiresAt.all (· ≤ now) && r.payload.workflowKind.all (· ∈ request.workflowKinds)

def ClaimRequest.limit (request : ClaimRequest) : Nat :=
  if request.max = 0 then 16 else min request.max 64

def canaryIDs (batch : List PullJob) : List PullJobID :=
  (batch.filter (·.payload.canary)).map PullJob.id

def heldCanaries (held : List Held) : List PullJobID := (held.filter (·.canary)).map Held.job

namespace PullQueue

variable (st : PullQueue)

def enqueue (payload : PullPayload) (ttlSeconds : Int) (protocolVersion : Nat) (now : Int) :
    PullQueue :=
  let ttl := if ttlSeconds ≤ 0 then 60 else ttlSeconds
  { st with
    jobs := st.jobs.insertNew ⟨st.nextID, payload, now, now + seconds ttl, protocolVersion,
      pullLeaseFor payload, none, none⟩
    nextID := st.nextID + 1 }

/-- The oldest claimable jobs, as many as were asked for. -/
def claimed (request : ClaimRequest) (now : Int) : List PullJob :=
  (orderBy PullJob.createdAt (st.jobs.rows.filter (·.claimable request now))).take request.limit

variable (agent : AgentID)

def hold (now : Int) (r : PullJob) : Held :=
  ⟨agent, r.id, (st.claims, r.id), now + r.lease, r.payload.canary⟩

/-- Lease the jobs to the agent under new tokens. -/
def claimPullJobs (request : ClaimRequest) (now : Int) : PullQueue :=
  let batch := st.claimed request now
  { st with
    jobs := st.jobs.update (fun r => r.id ∈ batch.map PullJob.id)
      (fun r => { r with
        claimToken := some (st.claims, r.id)
        leaseExpiresAt := some (now + r.lease) }) fun _ => rfl
    claims := st.claims + 1
    held := batch.map (st.hold agent now) ++ st.held
    handed := canaryIDs batch ++ st.handed }

def letGo : PullQueue :=
  { st with held := st.held.filter fun h => h.agent ≠ agent }

/-- Only the last token of a job deletes it. -/
def ackPullJobs (tokens : List ClaimToken) : PullQueue :=
  { st with jobs := st.jobs.delete fun r => r.claimToken.any (· ∈ tokens) }

def heldBy : List Held := st.held.filter fun h => h.agent = agent

/-- How many agents hold the canary. -/
def holders (id : PullJobID) : Nat := (heldCanaries st.held).count id

end PullQueue

/-- An agent claims its next batch after it has posted the last one. -/
def pullStep (st : PullQueue) : PullOp → Option PullQueue
  | .enqueue payload ttl protocolVersion now => some (st.enqueue payload ttl protocolVersion now)
  | .claim agent request now =>
    if st.heldBy agent = [] then some (st.claimPullJobs agent request now) else none
  | .post agent accepted =>
    let acked := if accepted then st.ackPullJobs ((st.heldBy agent).map Held.token) else st
    some (acked.letGo agent)
  | .die agent =>
    some { st.letGo agent with died := heldCanaries (st.heldBy agent) ++ st.died }
  | .purge now => some { st with jobs := st.jobs.delete fun r => r.expiresAt ≤ now }

/-- Jobs are claimed before the lease of a canary that is held ends, and every post is accepted. -/
def LeasesHold (st : PullQueue) : PullOp → Prop
  | .claim _ _ now => ∀ h ∈ st.held, h.canary = true → now < h.leaseEnd
  | .post _ accepted => accepted = true
  | _ => True

instance (st : PullQueue) (op : PullOp) : Decidable (LeasesHold st op) :=
  match op with
  | .claim _ _ now =>
    inferInstanceAs (Decidable (∀ h ∈ st.held, h.canary = true → now < h.leaseEnd))
  | .post _ accepted => inferInstanceAs (Decidable (accepted = true))
  | .enqueue .. | .die _ | .purge _ => .isTrue trivial

/-! ## The invariant -/

/-- A canary has one holder at most, and is handed out again only after a holder died. -/
structure LeaseInv (st : PullQueue) : Prop where
  fresh : ∀ id, st.nextID ≤ id → (∀ r ∈ st.jobs.rows, r.id ≠ id) ∧ st.holders id = 0 ∧
    st.handed.count id = 0 ∧ st.died.count id = 0
  row : ∀ r ∈ st.jobs.rows, r.payload.canary = true →
    st.handed.count r.id = st.holders r.id + st.died.count r.id
  lease : ∀ h ∈ st.held, h.canary = true → ∀ r ∈ st.jobs.rows, r.id = h.job →
    r.claimToken = some h.token ∧ r.leaseExpiresAt = some h.leaseEnd
  once : ∀ id, st.handed.count id ≤ 1 + st.died.count id
  exclusive : ∀ id, st.holders id ≤ 1

section

variable {st : PullQueue} {agent : AgentID} {request : ClaimRequest} {now : Int} {id : PullJobID}
  {r : PullJob}

theorem mem_claimed (h : r ∈ st.claimed request now) :
    r ∈ st.jobs.rows ∧ r.claimable request now := by
  have hsorted := mem_of_mem_take h
  unfold orderBy at hsorted
  rw [mem_insertionSort] at hsorted
  exact mem_filter.1 hsorted

theorem claimed_keyed (st : PullQueue) (request : ClaimRequest) (now : Int) :
    ((st.claimed request now).map PullJob.id).Nodup := by
  have hperm := perm_insertionSort (fun a b => PullJob.createdAt a ≤ PullJob.createdAt b)
    (st.jobs.rows.filter (·.claimable request now))
  have hsorted := (hperm.map PullJob.id).nodup_iff.2
    (st.jobs.keyed.sublist (filter_sublist.map PullJob.id))
  exact hsorted.sublist ((take_sublist _ _).map PullJob.id)

theorem heldCanaries_hold (batch : List PullJob) :
    heldCanaries (batch.map (st.hold agent now)) = canaryIDs batch := by
  unfold heldCanaries canaryIDs
  rw [filter_map, map_map]
  rfl

theorem mem_heldCanaries {held : List Held} :
    id ∈ heldCanaries held ↔ ∃ h ∈ held, h.canary ∧ h.job = id := by
  simp [heldCanaries, and_assoc]

open PullQueue

theorem holders_letGo (st : PullQueue) (agent : AgentID) (id : PullJobID) :
    st.holders id = (st.letGo agent).holders id + (heldCanaries (st.heldBy agent)).count id := by
  have hperm := filter_append_perm (fun h => decide (h.agent ≠ agent)) st.held
  have hcount := ((hperm.filter (·.canary)).map Held.job).count_eq id
  simpa [holders, letGo, heldBy, heldCanaries] using hcount.symm

/-- While its lease holds, a canary that is held is not claimed. -/
theorem held_not_claimed (hst : LeaseInv st) (hok : LeasesHold st (.claim agent request now))
    {h : Held} (hh : h ∈ st.held) (hc : h.canary) (hr : r ∈ st.claimed request now) :
    r.id ≠ h.job := by
  intro hjob
  obtain ⟨hrow, hclaimable⟩ := mem_claimed hr
  obtain ⟨-, hlease⟩ := hst.lease h hh hc r hrow hjob
  have hopen : now < h.leaseEnd := hok h hh hc
  simp only [PullJob.claimable, hlease, Option.all_some, Bool.and_eq_true, decide_eq_true_eq]
    at hclaimable
  omega

/-- A canary that is claimed is with nobody, and every earlier agent of it died. -/
theorem claimed_cases (hst : LeaseInv st) (hok : LeasesHold st (.claim agent request now))
    (id : PullJobID) : (canaryIDs (st.claimed request now)).count id = 0 ∨
      (canaryIDs (st.claimed request now)).count id = 1 ∧ st.holders id = 0 ∧
        st.handed.count id = st.died.count id := by
  have hle := nodup_iff_count_le_one.1 ((claimed_keyed st request now).sublist
    (filter_sublist.map PullJob.id) : (canaryIDs (st.claimed request now)).Nodup) id
  rcases Nat.eq_zero_or_pos ((canaryIDs (st.claimed request now)).count id) with hzero | hpos
  · exact .inl hzero
  obtain ⟨r, hr, rfl⟩ := mem_map.1 (count_pos_iff.1 hpos)
  obtain ⟨hclaimed, hcanary⟩ := mem_filter.1 hr
  have hnone : st.holders r.id = 0 := by
    refine count_eq_zero.2 fun hmem => ?_
    obtain ⟨h, hh, hc, hjob⟩ := mem_heldCanaries.1 hmem
    exact held_not_claimed hst hok hh hc hclaimed hjob.symm
  have hrow := hst.row r (mem_claimed hclaimed).1 hcanary
  exact .inr ⟨by omega, hnone, by omega⟩

theorem row_of_claim (h : r ∈ (st.claimPullJobs agent request now).jobs.rows) :
    ∃ r₀ ∈ st.jobs.rows, r.id = r₀.id ∧ r.payload = r₀.payload ∧
      if r₀.id ∈ (st.claimed request now).map PullJob.id then
        r.claimToken = some (st.claims, r₀.id) ∧ r.leaseExpiresAt = some (now + r₀.lease)
      else r = r₀ := by
  obtain ⟨r₀, hr₀, rfl⟩ := mem_map.1 h
  refine ⟨r₀, hr₀, ?_⟩
  by_cases hc : r₀.id ∈ (st.claimed request now).map PullJob.id <;> simp [hc]

theorem inv_claim (hst : LeaseInv st) (hok : LeasesHold st (.claim agent request now)) :
    LeaseInv (st.claimPullJobs agent request now) := by
  have hheld : ∀ id, (st.claimPullJobs agent request now).holders id =
      (canaryIDs (st.claimed request now)).count id + st.holders id := fun id => by
    rw [← @heldCanaries_hold st agent now, holders, holders]
    simp [claimPullJobs, heldCanaries]
  have hhanded : ∀ id, (st.claimPullJobs agent request now).handed.count id =
      (canaryIDs (st.claimed request now)).count id + st.handed.count id := fun id =>
    count_append
  have hdied : (st.claimPullJobs agent request now).died = st.died := rfl
  refine ⟨fun id hid => ?_, fun r hr hcanary => ?_, fun h hh hc r hr hjob => ?_, fun id => ?_,
    fun id => ?_⟩
  · obtain ⟨hnew, hnone, hno, hlive⟩ := hst.fresh id hid
    have hzero : (canaryIDs (st.claimed request now)).count id = 0 := by
      refine count_eq_zero.2 fun hmem => ?_
      obtain ⟨r, hr, rfl⟩ := mem_map.1 hmem
      exact hnew r (mem_claimed (mem_filter.1 hr).1).1 rfl
    refine ⟨fun r hr heq => ?_, by rw [hheld, hzero, hnone], by rw [hhanded, hzero, hno], hlive⟩
    obtain ⟨r₀, hr₀, hid₀, -⟩ := row_of_claim hr
    exact hnew r₀ hr₀ (hid₀.symm.trans heq)
  · obtain ⟨r₀, hr₀, hid, hpayload, -⟩ := row_of_claim hr
    have hrow := hst.row r₀ hr₀ (hpayload ▸ hcanary)
    rw [hheld, hhanded, hdied, hid, hrow, Nat.add_assoc]
  · obtain ⟨r₀, hr₀, hid, hpayload, hstamp⟩ := row_of_claim hr
    rcases mem_append.1 hh with hh | hh
    · obtain ⟨r₁, hr₁, rfl⟩ := mem_map.1 hh
      obtain rfl : r₁ = r₀ := by
        have h₁ := Table.get_of_mem (mem_claimed hr₁).1
        rw [show r₁.id = r₀.id from hjob.symm.trans hid, Table.get_of_mem hr₀] at h₁
        exact (Option.some.inj h₁).symm
      rwa [if_pos (mem_map_of_mem hr₁)] at hstamp
    · rw [if_neg] at hstamp
      · rw [hstamp]
        exact hst.lease h hh hc r₀ hr₀ (hid.symm.trans hjob)
      · intro hmem
        obtain ⟨r₁, hr₁, heq⟩ := mem_map.1 hmem
        exact held_not_claimed hst hok hh hc hr₁ (heq.trans (hid.symm.trans hjob))
  · have honce := hst.once id
    rw [hhanded, hdied]
    rcases claimed_cases hst hok id with hzero | ⟨hone, -, heq⟩ <;> omega
  · have hexcl := hst.exclusive id
    rw [hheld]
    rcases claimed_cases hst hok id with hzero | ⟨hone, hnone, -⟩ <;> omega

theorem inv_delete (hst : LeaseInv st) (p : PullJob → Bool) :
    LeaseInv { st with jobs := st.jobs.delete p } := by
  have hsub : ∀ r ∈ (st.jobs.delete p).rows, r ∈ st.jobs.rows := fun r hr =>
    (mem_filter.1 hr).1
  exact ⟨fun id hid => ⟨fun r hr => (hst.fresh id hid).1 r (hsub r hr), (hst.fresh id hid).2⟩,
    fun r hr => hst.row r (hsub r hr), fun h hh hc r hr => hst.lease h hh hc r (hsub r hr),
    hst.once, hst.exclusive⟩

theorem inv_letGo (hst : LeaseInv st) (agent : AgentID) {died : List PullJobID}
    (hdied : ∀ id, st.died.count id ≤ died.count id)
    (hfresh : ∀ id, st.nextID ≤ id → died.count id = 0) (hrow : ∀ r ∈ st.jobs.rows,
      st.holders r.id + st.died.count r.id = (st.letGo agent).holders r.id + died.count r.id) :
    LeaseInv { st.letGo agent with died := died } := by
  have hle : ∀ id, (st.letGo agent).holders id ≤ st.holders id := fun id => by
    rw [holders_letGo st agent id]
    exact Nat.le_add_right _ _
  refine ⟨fun id hid => ?_, fun r hr hc => (hst.row r hr hc).trans (hrow r hr),
    fun h hh => hst.lease h (mem_filter.1 hh).1, fun id => ?_, fun id => ?_⟩
  · obtain ⟨hnew, hnone, hno, -⟩ := hst.fresh id hid
    exact ⟨hnew, Nat.le_zero.1 (hnone ▸ hle id), hno, hfresh id hid⟩
  · exact (hst.once id).trans (Nat.add_le_add_left (hdied id) 1)
  · exact (hle id).trans (hst.exclusive id)

theorem inv_post (hst : LeaseInv st) (agent : AgentID) :
    LeaseInv ((st.ackPullJobs ((st.heldBy agent).map Held.token)).letGo agent) := by
  refine inv_letGo (inv_delete hst _) agent (fun _ => Nat.le_refl _)
    (fun id hid => (hst.fresh id hid).2.2.2) fun r hr => ?_
  obtain ⟨hrow, hkept⟩ := mem_filter.1 hr
  -- a canary of the batch that has a row carries the batch's token, and is deleted
  have hgone : (heldCanaries (st.heldBy agent)).count r.id = 0 := by
    refine count_eq_zero.2 fun hmem => ?_
    obtain ⟨h, hh, hc, hjob⟩ := mem_heldCanaries.1 hmem
    obtain ⟨htoken, -⟩ := hst.lease h (mem_filter.1 hh).1 hc r hrow hjob.symm
    simp only [htoken, Option.any_some, mem_map, Bool.not_eq_true', decide_eq_false_iff_not,
      not_exists, not_and] at hkept
    exact hkept h hh rfl
  have hsplit := holders_letGo st agent r.id
  rw [hgone] at hsplit
  exact congrArg (· + st.died.count r.id) hsplit

theorem inv_enqueue (hst : LeaseInv st) (payload : PullPayload) (ttl : Int) (version : Nat)
    (now : Int) : LeaseInv (st.enqueue payload ttl version now) := by
  obtain ⟨hnew, hnone, hno, hlive⟩ := hst.fresh st.nextID (Nat.le_refl _)
  have hrows : ∀ r ∈ (st.enqueue payload ttl version now).jobs.rows,
      r ∈ st.jobs.rows ∨ r.id = st.nextID := by
    intro r hr
    rw [enqueue, Table.rows_insertNew_of_none (Table.get_eq_none_iff.2 hnew),
      mem_append, mem_singleton] at hr
    exact hr.imp_right fun heq => by rw [heq]
  refine ⟨fun id hid => ?_, fun r hr hc => ?_, fun h hh hc r hr hjob => ?_, hst.once, hst.exclusive⟩
  · have hlt : st.nextID < id := hid
    refine ⟨fun r hr => ?_, (hst.fresh id hlt.le).2⟩
    rcases hrows r hr with hr | heq
    · exact (hst.fresh id hlt.le).1 r hr
    · rw [heq]
      exact hlt.ne
  · rcases hrows r hr with hr | heq
    · exact hst.row r hr hc
    · rw [heq]
      exact hno.trans (congrArg₂ (· + ·) hnone hlive).symm
  · rcases hrows r hr with hr | heq
    · exact hst.lease h hh hc r hr hjob
    · exact absurd (mem_heldCanaries.2 ⟨h, hh, hc, hjob.symm.trans heq⟩) (count_eq_zero.1 hnone)

theorem pullStep_inv {st' : PullQueue} {op : PullOp} (hst : LeaseInv st) (hok : LeasesHold st op)
    (h : pullStep st op = some st') : LeaseInv st' := by
  cases op with
  | enqueue payload ttl version now =>
    cases h
    exact inv_enqueue hst payload ttl version now
  | claim agent request now =>
    unfold pullStep at h
    dsimp only at h
    split at h
    · cases h
      exact inv_claim hst hok
    · cases h
  | post agent accepted =>
    obtain rfl : accepted := hok
    cases h
    exact inv_post hst agent
  | die agent =>
    cases h
    refine inv_letGo hst agent (fun id => ?_) (fun id hid => ?_) fun r _ => ?_
    · rw [count_append]
      exact Nat.le_add_left _ _
    · obtain ⟨-, hnone, -, hlive⟩ := hst.fresh id hid
      have hsplit := holders_letGo st agent id
      rw [count_append]
      omega
    · rw [holders_letGo st agent r.id, count_append, Nat.add_assoc]
  | purge now =>
    cases h
    exact inv_delete hst _

end

theorem leaseInv_empty : LeaseInv .empty where
  fresh _ _ := ⟨by rintro _ ⟨⟩, rfl, rfl, rfl⟩
  row := by rintro _ ⟨⟩
  lease := by rintro _ ⟨⟩
  once _ := Nat.zero_le _
  exclusive _ := Nat.zero_le _

/-- **A canary is with one agent**, and is handed out again only if its agent died, in every run
that claims jobs before the lease of a held canary ends and accepts every post. -/
theorem canary_exclusive {st : PullQueue} (h : Reach pullStep LeasesHold .empty st) :
    (∀ id, st.holders id ≤ 1) ∧ ∀ id, st.handed.count id ≤ 1 + st.died.count id := by
  have hinv : LeaseInv st := h.invariant (I := LeaseInv) leaseInv_empty
    fun _ _ _ hst hok hstep => pullStep_inv hst hok hstep
  exact ⟨hinv.exclusive, hinv.once⟩

/-- An HTTP monitor of three attempts of 30 seconds. -/
def slowProbe : PullPayload := ⟨false, 30, 3, none⟩

def shortCanary : PullPayload := ⟨true, 20, 1, some "http"⟩

def anyJob : ClaimRequest := ⟨16, 4, ["http"]⟩

/-- Both jobs are claimed at once. The second agent polls after 31 seconds. -/
def canaryBehindProbe : List PullOp :=
  [.enqueue slowProbe 300 4 0, .enqueue shortCanary 300 4 1, .claim 1 anyJob (seconds 1),
    .claim 2 anyJob (seconds 32)]

/-- The only job is claimed, probed and posted within its lease, and the post fails. -/
def failedPost : List PullOp :=
  [.enqueue shortCanary 300 4 0, .claim 1 anyJob (seconds 1), .post 1 false,
    .claim 2 anyJob (seconds 32)]

/-- **A canary is handed out twice** while its agent lives: the probe in front of it may take 90
seconds, its lease is 30. -/
theorem canary_handed_twice : (slowProbe.longestRun = 90 ∧ pullLeaseFor shortCanary = none ∧
      Reach pullStep anyStep .empty (finalState pullStep .empty canaryBehindProbe) ∧
      (finalState pullStep .empty canaryBehindProbe).holders 1 = 2) ∧
    Reach pullStep anyStep .empty (finalState pullStep .empty failedPost) ∧
      (finalState pullStep .empty failedPost).handed = [0, 0] ∧
      (finalState pullStep .empty failedPost).died = [] := by
  refine ⟨⟨rfl, rfl, reach_finalState fun _ _ _ => trivial, by decide +kernel⟩,
    reach_finalState fun _ _ _ => trivial, ?_, ?_⟩
  · decide +kernel
  · decide +kernel

/-- The canary is posted within its lease; its next job goes to the second agent. -/
def leasedRun : List PullOp :=
  [.enqueue shortCanary 300 4 0, .claim 1 anyJob (seconds 1), .claim 2 anyJob (seconds 20),
    .post 1 true, .enqueue shortCanary 300 4 (seconds 60), .claim 2 anyJob (seconds 61)]

theorem canary_exclusive_leasedRun : (finalState pullStep .empty leasedRun).handed = [1, 0] ∧
      ∀ id, (finalState pullStep .empty leasedRun).holders id ≤ 1 := by
  have hrun : AllowedRun pullStep LeasesHold .empty leasedRun := by decide +kernel
  exact ⟨by decide +kernel, (canary_exclusive (reach_of_allowedRun hrun)).1⟩

end Cerbix.Agent
