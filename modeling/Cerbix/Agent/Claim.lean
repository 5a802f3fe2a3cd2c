import Cerbix.Lib.Go
import Cerbix.Lib.Run

/-!
# The carrier generation of a claimed job

An agent takes the generation of a job from the server's stamps, or else from the endpoint
(`internal/agent/agent.go`). The endpoint is chosen before the request; what bounds the stamps is
computed again when the response is decoded, from a downgrade that ends with time:
`claim_generations_iff`, `decoded_after_downgrade`.
-/

namespace Cerbix.Agent

open Cerbix.Lib List

/-- The generations that a claim's answer states. -/
inductive Stamps
  | absent
  | malformed
  | null
  | versions (vs : List Int)
  deriving DecidableEq

/-- The answer to a claim, as far as the agent checks it. -/
structure ClaimBody where
  jobs : Nat
  tokens : Nat
  stamped : Stamps
  deriving DecidableEq

/-- Why a claim brought nothing. -/
inductive ClaimError
  | transport
  | status (code : Nat)
  | undecodable
  | tokensDesync (jobs tokens : Nat)
  | stampsMalformed
  | stampsNull
  | stampsDesync (jobs stamps : Nat)
  | outside (generation : Int) (job : Nat) (endpoint : Int)
  deriving DecidableEq

/-- What the agent knows of the endpoint of generation 4; the zero time is no downgrade. -/
structure LedgerEndpoint where
  ledgerProven : Bool
  ledgerAbsentUntil : Int
  deriving DecidableEq

def protocolV4 : Int := 4

def ledgerReprobeAfter : Int := 5 * Go.minute

namespace LedgerEndpoint

variable (credentials : Bool)

def envelopeCapability : Nat := if credentials then 2 else 0

/-- The generation without the ledger endpoint. -/
def claimGeneration : Int :=
  match envelopeCapability credentials with
  | 2 => 3
  | 1 => 2
  | _ => 1

variable (l : LedgerEndpoint)

def ledgerCapability : Nat :=
  if 2 ≤ envelopeCapability credentials ∧ l.ledgerProven = true then 1 else 0

def mayTryLedgerEndpoint (now : Int) : Bool :=
  2 ≤ envelopeCapability credentials &&
    (Go.isZero l.ledgerAbsentUntil || !decide (now < l.ledgerAbsentUntil))

/-- The generation that a claim is tried with. -/
def jobClaimGeneration (now : Int) : Int :=
  if mayTryLedgerEndpoint credentials l now then protocolV4 else claimGeneration credentials

/-- The endpoint is not asked again for a while. -/
def noteLedgerEndpointAbsent (now : Int) : LedgerEndpoint := ⟨false, now + ledgerReprobeAfter⟩

def noteLedgerEndpointLive : LedgerEndpoint := ⟨true, 0⟩

end LedgerEndpoint

open LedgerEndpoint

/-- The generation of each job, as stamped or as the endpoint's. -/
def resolveStampedGenerations (endpoint : Int) (b : ClaimBody) : Except ClaimError (List Int) :=
  if b.jobs ≠ b.tokens then .error (.tokensDesync b.jobs b.tokens)
  else
    match b.stamped with
    | .absent => .ok (replicate b.jobs endpoint)
    | .malformed => .error .stampsMalformed
    | .null => .error .stampsNull
    | .versions vs =>
      if vs.length ≠ b.jobs then .error (.stampsDesync b.jobs vs.length)
      else
        match vs.zipIdx.find? fun e => e.1 < 1 || endpoint < e.1 with
        | some (v, i) => .error (.outside v i endpoint)
        | none => .ok vs

/-- One claim: the clock where it is read, and the status of each answer, `none` without one. -/
structure ClaimCall where
  chosenAt : Int
  first : Option Nat
  absentAt : Int
  fallback : Option Nat
  decodedAt : Int

section Claim

variable (credentials : Bool) (l : LedgerEndpoint) (c : ClaimCall)

/-- The ledger endpoint is absent, and the claim is repeated without it. -/
def fallsBack : Bool :=
  jobClaimGeneration credentials l c.chosenAt ≠ claimGeneration credentials && c.first = some 404

def served : Int × Option Nat :=
  if fallsBack credentials l c then (claimGeneration credentials, c.fallback)
  else (jobClaimGeneration credentials l c.chosenAt, c.first)

def noted : LedgerEndpoint :=
  if fallsBack credentials l c then noteLedgerEndpointAbsent c.absentAt
  else if jobClaimGeneration credentials l c.chosenAt ≠ claimGeneration credentials &&
    c.first = some 200 then noteLedgerEndpointLive
  else l

/-- One claim with its fallback. -/
def claim (body : Option ClaimBody) : Except ClaimError (List Int) :=
  match (served credentials l c).2 with
  | none => .error .transport
  | some code =>
    if code ≠ 200 then .error (.status code)
    else
      match body with
      | none => .error .undecodable
      | some b =>
        resolveStampedGenerations
          (jobClaimGeneration credentials (noted credentials l c) c.decodedAt) b

end Claim

/-- What the agent knows of the endpoint, and what it answered. -/
structure AgentState where
  ledger : LedgerEndpoint
  answers : List Nat

def freshAgent : AgentState := ⟨⟨false, 0⟩, []⟩

def claimStep (credentials : Bool) (s : AgentState) (c : ClaimCall) : Option AgentState :=
  some ⟨noted credentials s.ledger c,
    if jobClaimGeneration credentials s.ledger c.chosenAt = protocolV4 then
      s.answers ++ c.first.toList
    else s.answers⟩

/-- The generations of a response by the endpoint that served it. -/
structure GenerationsRight (endpoint : Int) (b : ClaimBody) (r : Except ClaimError (List Int)) :
    Prop where
  between : ∀ gs, r = .ok gs → ∀ g ∈ gs, 1 ≤ g ∧ g ≤ endpoint
  stamped : ∀ gs vs, r = .ok gs → b.stamped = .versions vs → gs = vs
  unstamped : ∀ gs, r = .ok gs → b.stamped = .absent → gs = replicate b.jobs endpoint
  refused : ∀ v i e, r = .error (.outside v i e) →
    ∃ vs, b.stamped = .versions vs ∧ ∃ v' ∈ vs, v' < 1 ∨ endpoint < v'

def ClaimRight (credentials : Bool) (l : LedgerEndpoint) (c : ClaimCall) : Prop :=
  ∀ b, GenerationsRight (served credentials l c).1 b (claim credentials l c (some b))

/-- A response of the older endpoint is decoded before the downgrade ends. -/
def DecodedInTime (credentials : Bool) (l : LedgerEndpoint) (c : ClaimCall) : Prop :=
  served credentials l c = (3, some 200) →
    Go.isZero (noted credentials l c).ledgerAbsentUntil = false ∧
      c.decodedAt < (noted credentials l c).ledgerAbsentUntil

/-- The endpoint has answered and was not absent since. -/
def LedgerProved (answers : List Nat) : Prop :=
  ∃ before after, answers = before ++ 200 :: after ∧ 404 ∉ after

/-! ## Proofs -/

theorem resolve_right {endpoint : Int} (hpos : 1 ≤ endpoint) (b : ClaimBody) :
    GenerationsRight endpoint b (resolveStampedGenerations endpoint b) := by
  obtain ⟨jobs, tokens, stamped⟩ := b
  cases stamped with
  | versions vs =>
    have hin (hnone : vs.zipIdx.find? (fun e => e.1 < 1 || endpoint < e.1) = none) :
        ∀ g ∈ vs, 1 ≤ g ∧ g ≤ endpoint := by
      intro g hg
      obtain ⟨i, hi⟩ := getElem?_of_mem hg
      simpa using find?_eq_none.1 hnone (g, i) (mem_zipIdx_iff_getElem?.2 hi)
    have hout {e : Int × Nat}
        (he : vs.zipIdx.find? (fun e => e.1 < 1 || endpoint < e.1) = some e) :
        e.1 ∈ vs ∧ (e.1 < 1 ∨ endpoint < e.1) := by
      refine ⟨?_, by simpa using find?_some he⟩
      exact mem_of_getElem? (mem_zipIdx_iff_getElem?.1 (mem_of_find?_eq_some he))
    constructor <;> grind [resolveStampedGenerations]
  | _ => constructor <;> grind [resolveStampedGenerations]

section Endpoint

variable {credentials : Bool} {l : LedgerEndpoint} {c : ClaimCall}

theorem served_pos : 1 ≤ (served credentials l c).1 := by
  cases credentials <;>
    grind [served, jobClaimGeneration, claimGeneration, protocolV4]

/-- The endpoint is computed as it was when it served, unless the downgrade has ended: an answer of
generation 4 ends it itself. -/
theorem recomputed_eq_iff (h : (served credentials l c).2 = some 200) :
    jobClaimGeneration credentials (noted credentials l c) c.decodedAt =
      (served credentials l c).1 ↔
      DecodedInTime credentials l c := by
  cases credentials <;>
    grind [DecodedInTime, served, noted, jobClaimGeneration, mayTryLedgerEndpoint,
      claimGeneration, envelopeCapability, protocolV4, noteLedgerEndpointLive, Go.isZero]

theorem claimRight_iff : ClaimRight credentials l c ↔ DecodedInTime credentials l c := by
  constructor
  · intro h hserved
    -- a single job without a stamp tells the two endpoints apart
    have hstatus : (served credentials l c).2 = some 200 := by rw [hserved]
    refine (recomputed_eq_iff hstatus).1 ?_ hserved
    have hone := (h ⟨1, 1, .absent⟩).unstamped
      [jobClaimGeneration credentials (noted credentials l c) c.decodedAt]
      (by simp [claim, hstatus, resolveStampedGenerations]) rfl
    simpa using hone
  · intro htime b
    by_cases hstatus : (served credentials l c).2 = some 200
    · have hsame := (recomputed_eq_iff hstatus).2 htime
      simpa [claim, hstatus, hsame] using resolve_right served_pos b
    · constructor <;> grind [claim]

end Endpoint

theorem ledgerProved_step {credentials : Bool} {s s' : AgentState} {c : ClaimCall}
    (h : ledgerCapability credentials s.ledger = 1 → LedgerProved s.answers)
    (hst : claimStep credentials s c = some s') :
    ledgerCapability credentials s'.ledger = 1 → LedgerProved s'.answers := by
  cases hst
  -- an answer that is no 404 leaves what was proved, and a 200 proves it
  have hanswer {code : Nat} (hcode : code = 200 ∨ code ≠ 404 ∧ LedgerProved s.answers) :
      LedgerProved (s.answers ++ [code]) := by
    rcases hcode with rfl | ⟨hcode, before, after, heq, hno⟩
    · exact ⟨s.answers, [], by simp, by simp⟩
    · exact ⟨before, after ++ [code], by simp [heq], by simp [hno, hcode.symm]⟩
  cases credentials with
  | false => grind [ledgerCapability, envelopeCapability]
  | true =>
    cases hfirst : c.first <;> simp only [Option.toList_none, Option.toList_some, append_nil] <;>
      grind [ledgerCapability, noted, fallsBack, jobClaimGeneration, claimGeneration,
        protocolV4, noteLedgerEndpointAbsent]

/-- **A claim assigns right exactly if the older endpoint's response is decoded before the downgrade
ends**; and the ledger capability is announced only after a claim of generation 4 that no 404 has
followed. -/
theorem claim_generations_iff (credentials : Bool) {s : AgentState}
    (h : Reach (claimStep credentials) anyStep freshAgent s) :
    (ledgerCapability credentials s.ledger = 1 → LedgerProved s.answers) ∧
      ∀ c, ClaimRight credentials s.ledger c ↔ DecodedInTime credentials s.ledger c := by
  refine ⟨?_, fun c => claimRight_iff⟩
  refine h.invariant (I := fun s => ledgerCapability credentials s.ledger = 1 →
    LedgerProved s.answers)
    ?_ fun s c s' hs _ hst => ledgerProved_step hs hst
  intro hcap
  cases credentials <;> cases hcap

def downgraded : AgentState :=
  finalState (claimStep true) freshAgent [⟨1, some 404, 1, some 200, 2⟩]

/-- A claim sent a second before the downgrade ends, whose response comes ten seconds later. -/
def longPoll : ClaimCall :=
  ⟨ledgerReprobeAfter - Go.second, some 200, 0, none, ledgerReprobeAfter + 9 * Go.second⟩

/-- **A job of the older endpoint is taken for one of generation 4**, unstamped or stamped as this
endpoint does not stamp. -/
theorem decoded_after_downgrade :
    Reach (claimStep true) anyStep freshAgent downgraded ∧ served true downgraded.ledger longPoll =
      (3, some 200) ∧
      claim true downgraded.ledger longPoll (some ⟨1, 1, .absent⟩) = .ok [4] ∧
      claim true downgraded.ledger longPoll (some ⟨1, 1, .versions [4]⟩) = .ok [4] := by
  refine ⟨reach_finalState fun _ _ _ => trivial, ?_, ?_, ?_⟩ <;> decide +kernel

theorem claim_generations_decodedInTime :
    let later := finalState (claimStep true) downgraded
      [⟨ledgerReprobeAfter + 2, some 200, 0, none, ledgerReprobeAfter + 2⟩]
    ClaimRight true downgraded.ledger ⟨10, some 200, 0, none, 20⟩ ∧
      (ledgerCapability true later.ledger = 1 → LedgerProved later.answers) := by
  have hdown : Reach (claimStep true) anyStep freshAgent downgraded :=
    reach_finalState fun _ _ _ => trivial
  refine ⟨((claim_generations_iff true hdown).2 _).2 fun _ => by decide +kernel, ?_⟩
  exact (claim_generations_iff true (.step hdown trivial rfl)).1

end Cerbix.Agent
