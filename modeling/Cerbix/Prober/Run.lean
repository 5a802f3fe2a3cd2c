import Cerbix.Prober.Canary

/-!
# Running a probe and judging it

`Runner.Run` runs the prober of a monitor's type, judges the result and makes the heartbeat
(`internal/prober/prober.go`). All probe types share the judgement: without conditions, any
connected result is up, unless the monitor is an HTTP one. A canary encodes its failures
differently, so its heartbeat is right exactly when no stage failed or the submit request got no
answer (`canaryVerdictRight_iff`, `rejectedSubmit_up`).
-/

namespace Cerbix.Prober

open Cerbix.Lib Cerbix.Domain Go

/-! ## The runner -/

/-- The monitor that an executor is given. -/
structure ProbedMonitor where
  id : String
  type : MonitorType
  timeoutSeconds : Int
  retries : Int
  conditions : List String
  config : List (String × String)
  executionRevision : Int
  deriving DecidableEq, Repr

/-- The result that an executor reports. -/
structure Heartbeat where
  monitorID : String
  ts : Int
  executionRevision : Int
  canaryRunKey : String
  up : Bool
  latencyMS : Int
  code : Int
  msg : String
  deriving DecidableEq, Repr

abbrev ProbeFn := ProbedMonitor → (done start : Int) → Int × ProbeResult

section Runner

variable (evaluateAll : List String → ProbeResult → Except String (Option String))
  (registry : MonitorType → Option ProbeFn)

variable (m : ProbedMonitor)

/-- `judge`. `evaluateAll` names the first condition that fails, if one does. -/
def judge (res : ProbeResult) : Bool × String :=
  if !res.connected then
    if res.msg ≠ "" then (false, res.msg) else (false, "connection failed")
  else if m.conditions.isEmpty then
    if m.type = .http then
      if 200 ≤ res.code ∧ res.code < 300 then (true, "")
      else (false, "unexpected status " ++ toString res.code)
    else (true, "")
  else match evaluateAll m.conditions res with
    | .error err => (false, "condition error: " ++ err)
    | .ok (some failed) => (false, "failed condition: " ++ failed)
    | .ok none => (true, "")

def ProbeResult.zero : ProbeResult := .of false 0 0 ""

def canaryRunKeyOf : String := (m.config.lookup "canary_run").getD ""

def heartbeatOf (ts : Int) (up : Bool) (res : ProbeResult) (msg : String) : Heartbeat :=
  ⟨m.id, ts, m.executionRevision, canaryRunKeyOf m, up, res.latencyMS, res.code, msg⟩

/-- The attempts of `Run`: the last result and whether it was up. `parent` is when the caller's
context is done. -/
def runAttempts (prober : ProbeFn) (m : ProbedMonitor) (parent : Int) :
    (attempts : Nat) → ProbeResult → Int → Int × ProbeResult × Bool
  | 0, res, now => (now, res, false)
  | attempts + 1, _, now =>
    let (ended, res) := prober m (min parent (now + m.timeoutSeconds * second)) now
    if (judge evaluateAll m res).1 then (ended, res, true)
    else if parent ≤ ended then (ended, res, false)
    else runAttempts prober m parent attempts res ended

/-- One run of a monitor's probe. -/
def run (parent now : Int) : Heartbeat :=
  match registry m.type with
  | none =>
    heartbeatOf m now false .zero ("unsupported monitor type " ++ Text.quote m.type.text)
  | some prober =>
    let (ended, res, up) :=
      runAttempts evaluateAll prober m parent (m.retries + 1).toNat .zero now
    let msg := (judge evaluateAll m res).2
    if up then heartbeatOf m ended true res msg
    else heartbeatOf m ended false res (if msg = "" then res.msg else msg)

end Runner

section

variable (unmarshal : String → Option Json)
  (parseCanaryConfig : List (String × String) → Option CanaryWorkflow)

/-- The stage of a journey that failed, if one did. Its latency is judged on the time the journey
really took. -/
def journeyFailure (config : List (String × String)) (target : Target) (done start : Int) :
    Option CanaryFailure :=
  match parseCanaryConfig config with
  | none => some ⟨.submit, "workflow unreadable"⟩
  | some w =>
    let secrets := canaryBindingValues config w
    match submitStage w secrets done target start with
    | (_, .error f) => some f
    | (answered, .ok resp) =>
      if resp.status ∉ w.submit.acceptedStatus then some ⟨.submit, "status not accepted"⟩
      else match canaryCorrelation unmarshal w.correlate resp with
        | .error f => some f
        | .ok _ =>
          match awaitStage unmarshal w secrets done target answered with
          | (_, .error f) => some f
          | (ended, .ok doc) =>
            if ∃ path ∈ w.result.requiredJSONFields, canaryLookup doc path = none then
              some ⟨.assertResult, "missing required field"⟩
            else match canaryLookupString doc w.result.lifecyclePath with
              | none => some ⟨.assertResult, "missing lifecycle path"⟩
              | some lifecycle =>
                if w.cleanup.kind = .lifecyclePrefix ∧
                    Text.hasPrefix lifecycle w.cleanup.objectPrefix = false then
                  some ⟨.cleanupValidation, "result outside the declared prefix"⟩
                else if w.result.maxLatency * second < ended - start then
                  some ⟨.assertResult, "latency exceeded"⟩
                else none

/-- The document is one that the workflow declares a success. -/
def DeclaredSuccess (c : CanaryCompletion) (doc : Json) : Prop :=
  match c.kind with
  | .pollJSON => ∃ poll, c.poll = some poll ∧
      canaryLookupString doc poll.success.path = some poll.success.value
  | .sse => ∀ sse, c.sse = some sse →
      ∀ path ∈ sse.requiredJSONFields, (canaryLookup doc path).isSome

/-- Every stage of the workflow succeeded in time. -/
def JourneyPassed (config : List (String × String)) (target : Target) (done start : Int) : Prop :=
  ∃ w answered resp ended doc lifecycle, parseCanaryConfig config = some w ∧
    submitStage w (canaryBindingValues config w) done target start = (answered, .ok resp) ∧
    resp.status ∈ w.submit.acceptedStatus ∧
    (∃ id, canaryCorrelation unmarshal w.correlate resp = .ok id) ∧
    awaitStage unmarshal w (canaryBindingValues config w) done target answered = (ended, .ok doc) ∧
    DeclaredSuccess w.completion doc ∧
    (∀ path ∈ w.result.requiredJSONFields, (canaryLookup doc path).isSome) ∧
    canaryLookupString doc w.result.lifecyclePath = some lifecycle ∧
    (w.cleanup.kind = .lifecyclePrefix → Text.hasPrefix lifecycle w.cleanup.objectPrefix) ∧
    ended - start ≤ w.result.maxLatency * second

variable {unmarshal parseCanaryConfig}

/-! ## The await stage ends in the declared state -/

variable {doc : Json}

theorem pollVerdict_ok {poll : CanaryPoll} {resp : Response}
    (h : pollVerdict unmarshal poll resp = some (.ok doc)) :
    canaryLookupString doc poll.success.path = some poll.success.value := by
  unfold pollVerdict awaitFailure at h
  split at h
  · cases h
  split at h
  · cases h
  split at h
  · next hv =>
    cases h
    exact hv
  · split at h <;> cases h

variable {secrets : Secrets} {done : Int}

theorem pollLoop_ok {poll : CanaryPoll} {headers : List CanaryHeader} {replies : Nat → Reply}
    (left : Nat) : ∀ {attempt : Nat} {now t : Int},
    pollLoop unmarshal poll headers secrets done replies left attempt now = (t, .ok doc) →
      canaryLookupString doc poll.success.path = some poll.success.value := by
  induction left with
  | zero =>
    intro attempt now t h
    cases h
  | succ left ih =>
    intro attempt now t h
    unfold pollLoop at h
    dsimp only at h
    split at h
    · cases h
    split at h
    · cases h
    split at h
    · next v hv =>
      cases h
      exact pollVerdict_ok hv
    · exact ih h

variable {sse : CanarySSE}

theorem eventVerdict_ok {name payload : String}
    (h : eventVerdict unmarshal sse name payload = some (.ok doc)) :
    ∀ path ∈ sse.requiredJSONFields, (canaryLookup doc path).isSome := by
  unfold eventVerdict awaitFailure at h
  split at h
  · cases h
  split at h
  · cases h
  split at h
  · cases h
  split at h
  · cases h
  split at h
  · next hall =>
    cases h
    exact List.all_eq_true.1 hall
  · cases h

theorem streamStep_ok {st : StreamState} {text : String}
    (h : streamStep unmarshal sse st text = .error (.ok doc)) :
    ∀ path ∈ sse.requiredJSONFields, (canaryLookup doc path).isSome := by
  unfold streamStep awaitFailure at h
  dsimp only at h
  split at h
  · cases h
  split at h
  · cases h
  split at h
  · split at h
    · next v hv =>
      cases h
      exact eventVerdict_ok hv
    · cases h
  · split at h
    · cases h
    split at h
    · cases h
    split at h
    · split at h <;> cases h
    · cases h

theorem streamLoop_ok {rest : StreamLine} (lines : List StreamLine) :
    ∀ {st : StreamState} {now t : Int},
    streamLoop unmarshal sse done rest lines st now = (t, .ok doc) →
      ∀ path ∈ sse.requiredJSONFields, (canaryLookup doc path).isSome := by
  induction lines with
  | nil =>
    intro st now t h
    unfold streamLoop streamEnd awaitFailure at h
    dsimp only at h
    split_ifs at h <;> cases h
  | cons line lines ih =>
    intro st now t h
    unfold streamLoop at h
    dsimp only at h
    split at h
    · cases h
    split at h
    · next v hv =>
      cases h
      exact streamStep_ok hv
    · exact ih h

theorem awaitSSE_ok {headers : List CanaryHeader} {stream : EventStream} {now t : Int}
    (h : awaitSSE unmarshal sse headers secrets done stream now = (t, .ok doc)) :
    ∀ path ∈ sse.requiredJSONFields, (canaryLookup doc path).isSome := by
  unfold awaitSSE at h
  dsimp only at h
  split at h
  · cases h
  split at h
  · cases h
  split at h
  · cases h
  split at h
  · cases h
  split at h
  · cases h
  · exact streamLoop_ok _ h

theorem await_declaredSuccess {w : CanaryWorkflow} {target : Target} {now t : Int}
    (h : await unmarshal w secrets done target now = (t, .ok doc)) :
    DeclaredSuccess w.completion doc := by
  unfold await at h
  unfold DeclaredSuccess
  cases hk : w.completion.kind with
  | sse =>
    rw [hk] at h
    intro sse hsse
    rw [hsse] at h
    exact awaitSSE_ok h
  | pollJSON =>
    rw [hk] at h
    cases hp : w.completion.poll with
    | none =>
      -- Without its block there is no attempt to make.
      rw [hp] at h
      cases h
    | some poll =>
      rw [hp] at h
      exact ⟨poll, rfl, pollLoop_ok _ h⟩

/-! ## The heartbeat -/

section

variable {config : List (String × String)} {target : Target} {done start : Int}

theorem journeyPassed_iff : JourneyPassed unmarshal parseCanaryConfig config target done start ↔
      journeyFailure unmarshal parseCanaryConfig config target done start = none := by
  constructor
  · rintro ⟨w, answered, resp, ended, doc, lifecycle, hw, hsub, hstatus, ⟨id, hid⟩, hawait, -,
      hreq, hlife, hpre, hlat⟩
    have hnone : ¬ ∃ path ∈ w.result.requiredJSONFields, canaryLookup doc path = none := by
      rintro ⟨path, hp, hl⟩
      have := hreq path hp
      rw [hl] at this
      cases this
    unfold journeyFailure
    simp only [hw, hsub, hstatus, not_true_eq_false, if_false, hid, hawait, hnone, hlife]
    rw [if_neg, if_neg (by omega)]
    rintro ⟨hk, hp⟩
    rw [hpre hk] at hp
    cases hp
  · intro h
    unfold journeyFailure at h
    dsimp only at h
    split at h
    · cases h
    rename_i w hw
    split at h
    · cases h
    rename_i answered resp hsub
    split at h
    · cases h
    rename_i hstatus
    split at h
    · cases h
    rename_i id hid
    split at h
    · cases h
    rename_i ended doc hawait
    split at h
    · cases h
    rename_i hreq
    split at h
    · cases h
    rename_i lifecycle hlife
    split at h
    · cases h
    rename_i hpre
    split at h
    · cases h
    rename_i hlat
    push Not at hstatus hreq hpre hlat
    refine ⟨w, answered, resp, ended, doc, lifecycle, hw, hsub, hstatus,
      ⟨id, hid⟩, hawait, await_declaredSuccess hawait, ?_, hlife, ?_, hlat⟩
    · intro path hp
      exact Option.isSome_iff_ne_none.2 (hreq path hp)
    · intro hk
      exact Bool.eq_true_of_not_eq_false (hpre hk)

def SubmitAnswered (parseCanaryConfig : List (String × String) → Option CanaryWorkflow)
    (config : List (String × String)) (target : Target) (done start : Int) : Prop :=
  ∃ w answered resp, parseCanaryConfig config = some w ∧
    submitStage w (canaryBindingValues config w) done target start = (answered, .ok resp)

theorem canaryProbe_connected (h : SubmitAnswered parseCanaryConfig config target done start) :
    (canaryProbe unmarshal parseCanaryConfig config target done start).2.connected := by
  obtain ⟨w, answered, resp, hw, hsub⟩ := h
  unfold canaryProbe
  simp only [hw, hsub]
  split
  · rfl
  split
  · rfl
  split
  · rfl
  split
  · rfl
  · split
    · rfl
    · split
      · rfl
      · split <;> rfl

theorem canaryProbe_unanswered (unmarshal : String → Option Json)
    (h : ¬ SubmitAnswered parseCanaryConfig config target done start) :
    ∃ f, journeyFailure unmarshal parseCanaryConfig config target done start = some f ∧
      (canaryProbe unmarshal parseCanaryConfig config target done start).2.connected = false ∧
      (canaryProbe unmarshal parseCanaryConfig config target done start).2.msg = f.text := by
  unfold journeyFailure canaryProbe
  cases hw : parseCanaryConfig config with
  | none => exact ⟨_, rfl, rfl, rfl⟩
  | some w =>
    dsimp only
    rcases hsub : submitStage w (canaryBindingValues config w) done target start with ⟨t, f | resp⟩
    · exact ⟨f, rfl, rfl, rfl⟩
    · exact absurd ⟨w, t, resp, hw, hsub⟩ h

theorem CanaryFailure.text_ne_empty (f : CanaryFailure) : f.text ≠ "" := by
  intro h
  have hlen := congrArg String.length h
  unfold CanaryFailure.text at hlen
  rw [String.length_append, String.length_append] at hlen
  have : (": " : String).length = 2 := by decide
  have : ("" : String).length = 0 := by decide
  omega

variable (evaluateAll : List String → ProbeResult → Except String (Option String))
  {registry : MonitorType → Option ProbeFn} {m : ProbedMonitor}

/-- A canary without retries and conditions is up exactly when its probe is connected, and says what
the probe says when it is not. -/
theorem run_canary {prober : ProbeFn} (hreg : registry m.type = some prober)
    (htype : m.type = .asyncCanary) (hcond : m.conditions = []) (hretry : m.retries = 0)
    (parent now : Int) :
    let res := (prober m (min parent (now + m.timeoutSeconds * second)) now).2
    (run evaluateAll registry m parent now).up = res.connected ∧
      (res.connected = false → res.msg ≠ "" →
        (run evaluateAll registry m parent now).msg = res.msg) := by
  have hjudge (res : ProbeResult) : judge evaluateAll m res = if res.connected then (true, "")
      else if res.msg ≠ "" then (false, res.msg) else (false, "connection failed") := by
    unfold judge
    rw [hcond, htype]
    cases res.connected <;> rfl
  have hone : (m.retries + 1).toNat = 1 := by
    rw [hretry]
    rfl
  intro res
  have hres : (prober m (min parent (now + m.timeoutSeconds * second)) now).2 = res := rfl
  unfold run
  rw [hreg, hone]
  simp only [runAttempts, hres, hjudge]
  cases hc : res.connected with
  | true => simp [heartbeatOf]
  | false =>
    by_cases hm : res.msg = ""
    · simp [hm, heartbeatOf]
    · simp [hc, hm, heartbeatOf]

end

/-- The heartbeat is up exactly when every stage passed, and a failed stage is what it says. -/
def VerdictRight (unmarshal : String → Option Json)
    (parseCanaryConfig : List (String × String) → Option CanaryWorkflow)
    (config : List (String × String)) (target : Target) (done start : Int) (hb : Heartbeat) :
    Prop :=
  (hb.up = true ↔ JourneyPassed unmarshal parseCanaryConfig config target done start) ∧
    ∀ f, journeyFailure unmarshal parseCanaryConfig config target done start = some f →
      hb.up = false ∧ hb.msg = f.text

variable (unmarshal parseCanaryConfig) in
def canaryRegistry (others : MonitorType → Option ProbeFn) (target : Target) :
    MonitorType → Option ProbeFn
  | .asyncCanary => some fun m done start =>
      canaryProbe unmarshal parseCanaryConfig m.config target done start
  | t => others t

/-- **A canary's heartbeat is its journey's verdict** exactly when the journey did not fail after
its submit was answered. -/
theorem canaryVerdictRight_iff
    (evaluateAll : List String → ProbeResult → Except String (Option String))
    (others : MonitorType → Option ProbeFn) (m : ProbedMonitor) (target : Target)
    (parent now : Int) (htype : m.type = .asyncCanary) (hcond : m.conditions = [])
    (hretry : m.retries = 0) : VerdictRight unmarshal parseCanaryConfig m.config target
        (min parent (now + m.timeoutSeconds * second)) now
        (run evaluateAll (canaryRegistry unmarshal parseCanaryConfig others target) m parent now) ↔
      (SubmitAnswered parseCanaryConfig m.config target
          (min parent (now + m.timeoutSeconds * second)) now →
        journeyFailure unmarshal parseCanaryConfig m.config target
          (min parent (now + m.timeoutSeconds * second)) now = none) := by
  have hreg : canaryRegistry unmarshal parseCanaryConfig others target m.type =
      some fun m done start => canaryProbe unmarshal parseCanaryConfig m.config target
        done start := by
    rw [htype]
    rfl
  obtain ⟨hup, hmsg⟩ := run_canary evaluateAll hreg htype hcond hretry parent now
  unfold VerdictRight
  by_cases hans : SubmitAnswered parseCanaryConfig m.config target
      (min parent (now + m.timeoutSeconds * second)) now
  · rw [canaryProbe_connected hans] at hup
    rw [hup, ← journeyPassed_iff]
    constructor
    · intro h _
      exact h.1.1 rfl
    · intro h
      refine ⟨⟨fun _ => h hans, fun _ => rfl⟩, fun f hf => ?_⟩
      rw [journeyPassed_iff.1 (h hans)] at hf
      cases hf
  · obtain ⟨f, hf, hc, hm⟩ := canaryProbe_unanswered unmarshal hans
    rw [hc] at hup
    have hsays := hmsg hc (by rw [hm]; exact f.text_ne_empty)
    refine iff_of_true ⟨?_, ?_⟩ fun h => absurd h hans
    · rw [hup, journeyPassed_iff, hf]
      exact iff_of_false (by decide) (by simp)
    · intro g hg
      cases hf.symm.trans hg
      exact ⟨hup, hsays.trans hm⟩

end

def taskWorkflow : CanaryWorkflow where
  secrets := []
  submit :=
    { kind := .httpJSON
      method := "POST"
      url := ⟨"https", none, "api.example", "", [.text "tasks"]⟩
      submitTimeout := 5
      acceptedStatus := [202]
      headers := []
      fixtureRef := ""
      multipart := none
      body := [("task", .str "ping")] }
  correlate := ⟨.responseHeader, "", "task-id"⟩
  completion :=
    { kind := .pollJSON
      url := ⟨"https", none, "api.example", "", [.text "tasks", .correlation]⟩
      timeout := 30
      headers := []
      sse := none
      poll := some ⟨1, 3, ⟨"status", "done", []⟩, ⟨"", "", []⟩⟩ }
  result := ⟨10, ["status"], "path"⟩
  cleanup := ⟨.none, "", true⟩

/-- A target that refuses the submit with a server error. -/
def refusingTarget : Target where
  submit := ⟨1000000, 0, .answer 500 [] ""⟩
  poll := fun _ => ⟨0, 0, .transport "connection refused"⟩
  stream := ⟨0, .transport "connection refused", [], ⟨0, ""⟩⟩

def unreachableTarget : Target :=
  { refusingTarget with submit := ⟨1000000, 0, .transport "connection refused"⟩ }

def taskMonitor : ProbedMonitor where
  id := "m"
  type := .asyncCanary
  timeoutSeconds := 60
  retries := 0
  conditions := []
  config := []
  executionRevision := 1

def taskHeartbeat (target : Target) : Heartbeat :=
  run (fun _ _ => .ok none)
    (canaryRegistry (fun _ => none) (fun _ => some taskWorkflow) (fun _ => none) target)
    taskMonitor (60 * second) 0

/-- The submit is answered with a status that is not accepted, and the canary is up. -/
theorem rejectedSubmit_up :
    validateCanaryWorkflow (fun _ => 15) (fun _ => true) taskWorkflow 60 = .ok () ∧
      journeyFailure (fun _ => none) (fun _ => some taskWorkflow) [] refusingTarget
        (60 * second) 0 = some ⟨.submit, "status not accepted"⟩ ∧
      (taskHeartbeat refusingTarget).up = true ∧ (taskHeartbeat refusingTarget).msg = "" ∧
      ¬ VerdictRight (fun _ => none) (fun _ => some taskWorkflow) [] refusingTarget
        (60 * second) 0 (taskHeartbeat refusingTarget) := by
  have hfail : journeyFailure (fun _ => none) (fun _ => some taskWorkflow) [] refusingTarget
      (60 * second) 0 = some ⟨.submit, "status not accepted"⟩ := by decide +kernel
  have hup : (taskHeartbeat refusingTarget).up = true := by decide +kernel
  refine ⟨by rfl, hfail, hup, by decide +kernel, fun h => ?_⟩
  have hdown := (h.2 _ hfail).1
  cases hdown

/-- A target that cannot be reached is reported down, with the stage that failed. -/
theorem unreachableSubmit_down : (taskHeartbeat unreachableTarget).up = false ∧
      (taskHeartbeat unreachableTarget).msg = "submit: connection refused" ∧
      VerdictRight (fun _ => none) (fun _ => some taskWorkflow) [] unreachableTarget
        (60 * second) 0 (taskHeartbeat unreachableTarget) := by
  refine ⟨by decide +kernel, by decide +kernel, ?_⟩
  refine (canaryVerdictRight_iff (fun _ _ => .ok none) (fun _ => none) taskMonitor
    unreachableTarget (60 * second) 0 rfl rfl rfl).2 ?_
  rintro ⟨w, answered, resp, hw, hsub⟩
  cases hw
  cases hsub

end Cerbix.Prober
