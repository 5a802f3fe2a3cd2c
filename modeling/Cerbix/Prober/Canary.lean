import Cerbix.Domain.CanaryWorkflow
import Cerbix.Domain.Monitor
import Cerbix.Lib.Go

/-!
# The canary executor

One run of a typed canary against a target (`internal/prober/canary.go`): submit, correlate, await
the result by polling or on an event stream, assert it, and validate where it was left. Every exit
is a `ProbeResult`, which `Prober.Run` judges. The target is whatever answers the requests, with its
delays in nanoseconds; a request ends at the answer or when its context is done. `unmarshal` is the
JSON decoder.
-/

namespace Cerbix.Prober

open Cerbix.Lib Cerbix.Domain Text

/-- What came of a request: an error of the transport, or an answer. -/
inductive Outcome
  | transport (cls : String)
  | answer (status : Int) (headers : List (String × String)) (body : String)
  deriving DecidableEq, Repr

/-- What a target does with a request, and how long it takes. -/
structure Reply where
  headerDelay : Nat
  bodyDelay : Nat
  outcome : Outcome
  deriving DecidableEq, Repr

structure StreamLine where
  delay : Nat
  text : String
  deriving DecidableEq, Repr

/-- What a target streams once it is asked. -/
structure EventStream where
  headerDelay : Nat
  outcome : Outcome
  lines : List StreamLine
  rest : StreamLine
  deriving DecidableEq, Repr

/-- The probed system, as far as one run sees it. -/
structure Target where
  submit : Reply
  poll : Nat → Reply
  stream : EventStream

/-- The stage at which a run failed, and how. -/
structure CanaryFailure where
  stage : CanaryStage
  cls : String
  deriving DecidableEq, Repr

def CanaryFailure.text (f : CanaryFailure) : String := f.stage.text ++ ": " ++ f.cls

def canaryMaxResponseBytes : Nat := 256 * 1024
def canaryMaxSSELineBytes : Nat := 16 * 1024
def canaryMaxSSEEventBytes : Nat := 64 * 1024
def canaryMaxSSETotalBytes : Nat := 8 * 1024 * 1024

def canaryStatusClass (code : Int) : String := toString (code.tdiv 100) ++ "xx"

/-- The bindings with their values. -/
abbrev Secrets := List (String × String)

def canaryBindingField (binding : String) : String := "canary_secret_" ++ binding

/-- The values of the workflow's bindings, read off the injected configuration. -/
def canaryBindingValues (config : List (String × String)) (w : CanaryWorkflow) : Secrets :=
  w.secrets.filterMap fun (binding, _) =>
    match config.lookup (canaryBindingField binding) with
    | none => none
    | some v => if v = "" then none else some (binding, v)

mutual

/-- A body with the values of its bindings. -/
def canaryRenderValue (secrets : Secrets) : CanaryValue → Except String Json
  | .str s => .ok (.str s)
  | .bool b => .ok (.bool b)
  | .num token => .ok (.num token)
  | .secret binding =>
    match secrets.lookup binding with
    | none => .error "credential unavailable"
    | some v => .ok (.str v)
  | .list items => (canaryRenderList secrets items).map .arr
  | .object fields => (canaryRenderMap secrets fields).map .obj

def canaryRenderList (secrets : Secrets) : List CanaryValue → Except String (List Json)
  | [] => .ok []
  | v :: rest => do
    let item ← canaryRenderValue secrets v
    let items ← canaryRenderList secrets rest
    return item :: items

def canaryRenderMap (secrets : Secrets) :
    List (String × CanaryValue) → Except String (List (String × Json))
  | [] => .ok []
  | (k, v) :: rest => do
    let item ← canaryRenderValue secrets v
    let items ← canaryRenderMap secrets rest
    return (k, item) :: items

end

/-- The body of a submit. -/
inductive CanaryPayload
  | json (fields : List (String × Json))
  | multipart (fileField fixture : String) (fields : List (String × Json))

/-- `canaryBuildBody`. A workflow of the multipart kind has its block once it is accepted. -/
def canaryBuildBody (w : CanaryWorkflow) (secrets : Secrets) : Except String CanaryPayload :=
  match w.submit.kind with
  | .httpJSON => (canaryRenderMap secrets w.submit.body).map .json
  | .multipartFixture =>
    if w.submit.fixtureRef ∉ canaryFixtures then .error "fixture unavailable"
    else
      let mp := w.submit.multipart.getD ⟨"", []⟩
      (canaryRenderMap secrets mp.fields).map (.multipart mp.fileField w.submit.fixtureRef)

/-- An answer that was read to its end. -/
structure Response where
  status : Int
  headers : List (String × String)
  body : String
  deriving DecidableEq, Repr

def Response.values (r : Response) (name : String) : List String :=
  (r.headers.filter fun h => lower h.1 = lower name).map Prod.snd

/-- A header refers to a binding that has no value. -/
def credentialMissing (headers : List CanaryHeader) (secrets : Secrets) : Bool :=
  headers.any fun h => h.secretRef ≠ "" && (secrets.lookup h.secretRef).isNone

/-- `do`: one request and its answer, within the context that is done at `done`. -/
def canaryDo (stage : CanaryStage) (headers : List CanaryHeader) (secrets : Secrets) (done : Int)
    (reply : Reply) (now : Int) : Int × Except CanaryFailure Response :=
  if credentialMissing headers secrets then (now, .error ⟨stage, "credential unavailable"⟩)
  else
    let answered := now + reply.headerDelay
    if done ≤ answered then (max now done, .error ⟨stage, "timeout"⟩)
    else match reply.outcome with
      | .transport cls => (answered, .error ⟨stage, cls⟩)
      | .answer status headers body =>
        let read := answered + reply.bodyDelay
        if done ≤ read then (done, .error ⟨stage, "response could not be read"⟩)
        else if canaryMaxResponseBytes < body.utf8ByteSize then
          (read, .error ⟨stage, "response too large"⟩)
        else (read, .ok ⟨status, headers, body⟩)

/-- The value at a path of a document. -/
def canaryLookup (doc : Json) (path : String) : Option Json := doc.follow (split '.' path)

def canaryLookupString (doc : Json) (path : String) : Option String :=
  (canaryLookup doc path).bind Json.scalar?

/-- What is put into a path may not be empty, long, or have controls. -/
def validateCanaryCorrelationID (raw : String) : Except String Unit :=
  if raw = "" then .error "correlation id is empty"
  else if 256 < raw.utf8ByteSize then .error "correlation id is longer than 256 bytes"
  else if containsAny raw fun c => c.toNat < 0x20 || c.toNat = 0x7f then
    .error "correlation id contains a control character"
  else if raw = "." || raw = ".." then .error "correlation id is a relative path segment"
  else if containsAny raw fun c => c = '/' || c = '\\' then
    .error "correlation id contains a path separator"
  else .ok ()

section Journey

variable (unmarshal : String → Option Json)

/-- The correlation id as the answer to the submit has it. -/
def correlationSource (c : CanaryCorrelate) (resp : Response) : Except String String :=
  match c.source with
  | .responseHeader =>
    match resp.values c.headerName with
    | [] => .error "correlation header missing"
    | [raw] => .ok raw
    | _ => .error "correlation header repeated"
  | .responseJSON =>
    match unmarshal resp.body with
    | none => .error "submit response is not JSON"
    | some doc =>
      match canaryLookupString doc c.path with
      | none => .error "correlation path missing"
      | some raw => .ok raw

/-- The correlation id, checked. -/
def canaryCorrelation (c : CanaryCorrelate) (resp : Response) : Except CanaryFailure String :=
  match correlationSource unmarshal c resp with
  | .error cls => .error ⟨.correlate, cls⟩
  | .ok raw =>
    match validateCanaryCorrelationID raw with
    | .error cls => .error ⟨.correlate, cls⟩
    | .ok () => .ok raw

/-! ## Awaiting the result -/

def awaitFailure (cls : String) : Except CanaryFailure Json := .error ⟨.awaitResult, cls⟩

/-- What one poll says: the result, a failure, or `none` when the target is not done. -/
def pollVerdict (poll : CanaryPoll) (resp : Response) : Option (Except CanaryFailure Json) :=
  if resp.status < 200 || 299 < resp.status then
    some (awaitFailure ("poll status " ++ canaryStatusClass resp.status))
  else match unmarshal resp.body with
    | none => some (awaitFailure "poll response is not JSON")
    | some doc =>
      if canaryLookupString doc poll.success.path = some poll.success.value then some (.ok doc)
      else if poll.failure.path ≠ "" &&
          (canaryLookupString doc poll.failure.path).any (· ∈ poll.failure.values) then
        some (awaitFailure "declared failure state")
      else none

/-- The first attempt is made at once, the others after the interval. -/
def pollStart (poll : CanaryPoll) (attempt : Nat) (now : Int) : Int :=
  if attempt = 0 then now else now + max 0 (poll.interval * Go.second)

/-- The polling loop of `await`, with `left` attempts to make. -/
def pollLoop (poll : CanaryPoll) (headers : List CanaryHeader) (secrets : Secrets) (done : Int)
    (replies : Nat → Reply) : (left attempt : Nat) → (now : Int) → Int × Except CanaryFailure Json
  | 0, _, now => (now, awaitFailure "poll attempts exhausted")
  | left + 1, attempt, now =>
    let start := pollStart poll attempt now
    if attempt ≠ 0 ∧ done ≤ start then (max now done, awaitFailure "completion timed out")
    else match canaryDo .awaitResult headers secrets done (replies attempt) start with
      | (now, .error f) => (now, .error f)
      | (now, .ok resp) =>
        match pollVerdict unmarshal poll resp with
        | some verdict => (now, verdict)
        | none => pollLoop poll headers secrets done replies left (attempt + 1) now

/-- How much was read, and the event being read. -/
structure StreamState where
  total : Nat
  eventName : String
  data : String
  deriving DecidableEq, Repr

/-- What a complete event decides; most decide nothing. -/
def eventVerdict (sse : CanarySSE) (name payload : String) : Option (Except CanaryFailure Json) :=
  if name = "" then none
  else if name ∈ sse.failureEvents then some (awaitFailure "declared failure event")
  else if name ≠ sse.successEvent then none
  else match unmarshal payload with
    | none => some (awaitFailure "success event payload is not JSON")
    | some doc =>
      if sse.requiredJSONFields.all fun path => (canaryLookup doc path).isSome then some (.ok doc)
      else some (awaitFailure "success event is missing a required field")

def appendData (data line : String) : String := (if data = "" then "" else data ++ "\n") ++ line

/-- Read one line of the stream. -/
def streamStep (sse : CanarySSE) (st : StreamState) (text : String) :
    Except (Except CanaryFailure Json) StreamState :=
  let st := { st with total := st.total + text.utf8ByteSize + 1 }
  if canaryMaxSSETotalBytes < st.total then .error (awaitFailure "response too large")
  else if canaryMaxSSELineBytes < text.utf8ByteSize + 1 then
    .error (awaitFailure "event line too large")
  else
    let trimmed := trimRightWhere (fun c => c = '\r' || c = '\n') text
    if trimmed = "" then
      match eventVerdict unmarshal sse st.eventName st.data with
      | some verdict => .error verdict
      | none => .ok { st with eventName := "", data := "" }
    else if hasPrefix trimmed ":" then .ok st
    else if hasPrefix trimmed "event:" then
      .ok { st with eventName := trimSpace (trimPrefix trimmed "event:") }
    else if hasPrefix trimmed "data:" then
      let data := appendData st.data (trimPrefix (trimPrefix trimmed "data:") " ")
      if canaryMaxSSEEventBytes < data.utf8ByteSize then .error (awaitFailure "event too large")
      else .ok { st with data := data }
    else .ok st

/-- The stream ends without an event that decides. -/
def streamEnd (done : Int) (rest : StreamLine) (st : StreamState) (now : Int) :
    Int × Except CanaryFailure Json :=
  let ended := now + rest.delay
  if done ≤ ended then (max now done, awaitFailure "completion timed out")
  else if canaryMaxSSETotalBytes < st.total + rest.text.utf8ByteSize then
    (ended, awaitFailure "response too large")
  else if canaryMaxSSELineBytes < rest.text.utf8ByteSize then
    (ended, awaitFailure "event line too large")
  else (ended, awaitFailure "stream ended without a terminal event")

/-- Read the stream until an event decides or the time is up. -/
def streamLoop (sse : CanarySSE) (done : Int) (rest : StreamLine) :
    List StreamLine → StreamState → Int → Int × Except CanaryFailure Json
  | [], st, now => streamEnd done rest st now
  | line :: lines, st, now =>
    let arrived := now + line.delay
    if done ≤ arrived then (max now done, awaitFailure "completion timed out")
    else match streamStep unmarshal sse st line.text with
      | .error verdict => (arrived, verdict)
      | .ok st => streamLoop sse done rest lines st arrived

/-- Wait for the run by its stream of events. -/
def awaitSSE (sse : CanarySSE) (headers : List CanaryHeader) (secrets : Secrets) (done : Int)
    (stream : EventStream) (now : Int) : Int × Except CanaryFailure Json :=
  if credentialMissing headers secrets then (now, awaitFailure "credential unavailable")
  else
    let answered := now + stream.headerDelay
    if done ≤ answered then (max now done, awaitFailure "timeout")
    else match stream.outcome with
      | .transport cls => (answered, awaitFailure cls)
      | .answer status headers body =>
        if status < 200 || 299 < status then
          (answered, awaitFailure ("stream status " ++ canaryStatusClass status))
        else
          let contentType := ((Response.mk status headers body).values "Content-Type").headD ""
          if !hasPrefix (lower (trimSpace contentType)) "text/event-stream" then
            (answered, awaitFailure "stream content type is not text/event-stream")
          else streamLoop unmarshal sse done stream.rest stream.lines ⟨0, "", ""⟩ answered

variable (w : CanaryWorkflow)

/-- `await`. A workflow whose kind lacks its block is refused when its document is parsed. -/
def await (secrets : Secrets) (done : Int) (target : Target) (now : Int) :
    Int × Except CanaryFailure Json :=
  match w.completion.kind with
  | .sse =>
    awaitSSE unmarshal (w.completion.sse.getD ⟨"", [], []⟩) w.completion.headers secrets done
      target.stream now
  | .pollJSON =>
    let poll := w.completion.poll.getD ⟨0, 0, ⟨"", "", []⟩, ⟨"", "", []⟩⟩
    pollLoop unmarshal poll w.completion.headers secrets done target.poll poll.maxAttempts.toNat 0
      now

/-- `Result`, the raw outcome of one probe attempt. -/
structure ProbeResult where
  connected : Bool
  code : Int
  body : String
  latencyMS : Int
  certExpiryDays : Int
  value : Rat
  msg : String
  deriving DecidableEq, Repr

def ProbeResult.of (connected : Bool) (code latencyMS : Int) (msg : String) : ProbeResult :=
  ⟨connected, code, "", latencyMS, 0, 0, msg⟩

/-- The time since the start, in whole milliseconds. -/
def sinceMS (start now : Int) : Int := (Go.sub now start).tdiv (10 ^ 6)

/-- The submit and its answer. -/
def submitStage (secrets : Secrets) (done : Int) (target : Target)
    (now : Int) : Int × Except CanaryFailure Response :=
  match canaryBuildBody w secrets with
  | .error cls => (now, .error ⟨.submit, cls⟩)
  | .ok _ =>
    canaryDo .submit w.submit.headers secrets (min done (now + w.submit.submitTimeout * Go.second))
      target.submit now

/-- Wait for the run, no longer than the completion allows. -/
def awaitStage (secrets : Secrets) (done : Int) (target : Target)
    (now : Int) : Int × Except CanaryFailure Json :=
  await unmarshal w secrets (min done (now + w.completion.timeout * Go.second)) target now

variable (parseCanaryConfig : List (String × String) → Option CanaryWorkflow)

open CanaryFailure

/-- `canaryProber.Probe`, begun at `start` in a context that is done at `done`. -/
def canaryProbe (config : List (String × String)) (target : Target) (done start : Int) :
    Int × ProbeResult :=
  match parseCanaryConfig config with
  | none => (start, .of false 0 0 (text ⟨.submit, "workflow unreadable"⟩))
  | some w =>
    let secrets := canaryBindingValues config w
    match submitStage w secrets done target start with
    -- A body that cannot be built takes no time, so its latency is the zero the source leaves.
    | (now, .error f) => (now, .of false 0 (sinceMS start now) f.text)
    | (now, .ok resp) =>
      if resp.status ∉ w.submit.acceptedStatus then
        (now, .of true resp.status (sinceMS start now) (text ⟨.submit, "status not accepted"⟩))
      else match canaryCorrelation unmarshal w.correlate resp with
        | .error f => (now, .of true resp.status (sinceMS start now) f.text)
        | .ok _ =>
          match awaitStage unmarshal w secrets done target now with
          | (now, .error f) => (now, .of true 0 (sinceMS start now) f.text)
          | (now, .ok doc) =>
            if w.result.requiredJSONFields.any fun path => (canaryLookup doc path).isNone then
              (now, .of true 0 (sinceMS start now) (text ⟨.assertResult, "missing required field"⟩))
            else match canaryLookupString doc w.result.lifecyclePath with
              | none =>
                (now, .of true 0 (sinceMS start now)
                  (text ⟨.assertResult, "missing lifecycle path"⟩))
              | some lifecycle =>
                if w.cleanup.kind = .lifecyclePrefix ∧
                    !hasPrefix lifecycle w.cleanup.objectPrefix then
                  (now, .of true 0 (sinceMS start now) (text
                      ⟨.cleanupValidation, "result outside the declared prefix"⟩))
                else if w.result.maxLatency * 1000 < sinceMS start now then
                  (now, .of true 0 (sinceMS start now) (text ⟨.assertResult, "latency exceeded"⟩))
                else (now, .of true 0 (sinceMS start now) "")

end Journey

end Cerbix.Prober
