import Cerbix.Lib.Except
import Cerbix.Lib.Text

/-!
# The typed canary workflow

The document of an `async_canary` monitor, and `ValidateCanaryWorkflow`
(`internal/domain/canary.go`). A URL is the parsed one, with the correlation placeholder as a
segment of its path; refusals of texts that do not parse to such a URL are left out. A map is the
list of its entries in the order of its keys. `encodedSize` is the length of a body's canonical
encoding, `isNumber` whether a number token parses.
-/

namespace Cerbix.Domain

open Cerbix.Lib Text

/-! ## The document -/

/-- A value of a submit body. A number keeps its token, a secret names its binding. -/
inductive CanaryValue
  | str (s : String)
  | num (token : String)
  | bool (b : Bool)
  | object (fields : List (String × CanaryValue))
  | list (items : List CanaryValue)
  | secret (binding : String)

/-- A header has a literal value or refers to a binding. -/
structure CanaryHeader where
  name : String
  value : String
  secretRef : String
  deriving DecidableEq, Repr

/-- The form of a multipart submit: the field of the file, and the others. -/
structure CanaryMultipart where
  fileField : String
  fields : List (String × CanaryValue)

/-- How a workflow submits its work. -/
inductive CanarySubmitKind
  | httpJSON | multipartFixture
  deriving DecidableEq, Repr

/-- One segment of a path: a text, or the placeholder of the correlation id. -/
inductive PathSegment
  | text (s : String)
  | correlation
  deriving DecidableEq, Repr

/-- A parsed URL, as far as the workflow's checks read it. -/
structure CanaryURL where
  scheme : String
  userinfo : Option String
  hostname : String
  port : String
  path : List PathSegment
  deriving DecidableEq, Repr

/-- The request that starts a run. -/
structure CanarySubmit where
  kind : CanarySubmitKind
  method : String
  url : CanaryURL
  submitTimeout : Int
  acceptedStatus : List Int
  headers : List CanaryHeader
  fixtureRef : String
  multipart : Option CanaryMultipart
  body : List (String × CanaryValue)

/-- Where the id of the started run is read. -/
inductive CanaryCorrelateSource
  | responseJSON | responseHeader
  deriving DecidableEq, Repr

/-- How the id of the started run is read off the answer to the submit. -/
structure CanaryCorrelate where
  source : CanaryCorrelateSource
  path : String
  headerName : String
  deriving DecidableEq, Repr

/-- The events that end a run which is followed as a stream. -/
structure CanarySSE where
  successEvent : String
  failureEvents : List String
  requiredJSONFields : List String
  deriving DecidableEq, Repr

/-- A path of a polled document with the values that match there. -/
structure CanaryPollMatch where
  path : String
  value : String
  values : List String
  deriving DecidableEq, Repr

/-- How often a run is polled, and what ends it. -/
structure CanaryPoll where
  interval : Int
  maxAttempts : Int
  success : CanaryPollMatch
  failure : CanaryPollMatch
  deriving DecidableEq, Repr

/-- How a workflow waits for its run to end. -/
inductive CanaryCompletionKind
  | sse | pollJSON
  deriving DecidableEq, Repr

/-- The request that waits for the run. -/
structure CanaryCompletion where
  kind : CanaryCompletionKind
  url : CanaryURL
  timeout : Int
  headers : List CanaryHeader
  sse : Option CanarySSE
  poll : Option CanaryPoll
  deriving DecidableEq, Repr

/-- What the result of a completed run has to satisfy. -/
structure CanaryResult where
  maxLatency : Int
  requiredJSONFields : List String
  lifecyclePath : String
  deriving DecidableEq, Repr

/-- Who removes what a run left behind. -/
inductive CanaryCleanupKind
  | lifecyclePrefix | none
  deriving DecidableEq, Repr

/-- What a run leaves behind, and whether that was acknowledged. -/
structure CanaryCleanup where
  kind : CanaryCleanupKind
  objectPrefix : String
  acknowledged : Bool
  deriving DecidableEq, Repr

/-- A canary: submit, correlate, wait, assert, with the secrets it binds. -/
structure CanaryWorkflow where
  secrets : List (String × String)
  submit : CanarySubmit
  correlate : CanaryCorrelate
  completion : CanaryCompletion
  result : CanaryResult
  cleanup : CanaryCleanup

/-- The stage that an outcome is reported at. -/
inductive CanaryStage
  | submit | correlate | awaitResult | assertResult | cleanupValidation
  deriving DecidableEq, Repr

def CanaryStage.text : CanaryStage → String
  | .submit => "submit"
  | .correlate => "correlate"
  | .awaitResult => "await_result"
  | .assertResult => "assert_result"
  | .cleanupValidation => "cleanup_validation"

/-- The bounds of a workflow, here and below. -/
def canaryMaxBindings : Nat := 8
def canaryMaxHeadersPerRequest : Nat := 16
def canaryMaxHeaderValueBytes : Nat := 1024
def canaryMaxBodyDepth : Nat := 8
def canaryMaxBodyKeysPerObject : Nat := 64
def canaryMaxBodyListElements : Nat := 32
def canaryMaxBodyBytes : Nat := 8 * 1024
def canaryMaxStringLeafBytes : Nat := 1024
def canaryMaxMultipartFields : Nat := 16
def canaryMaxRequiredFields : Nat := 16
def canaryMaxFailureValues : Nat := 8
def canaryMaxSubmitTimeout : Int := 60
def canaryMaxPollInterval : Int := 60
def canaryMaxPollAttempts : Int := 600
def canaryMaxJSONPathDepth : Nat := 8
def canaryMaxJSONPathBytes : Nat := 200

/-- A token of RFC 7230 of at most 64 characters. -/
def canaryHeaderName (s : String) : Bool :=
  let token (c : Char) : Bool := isLetter c || isDigit c || c ∈ "!#$%&'*+.^_`|~-".toList
  matchesClass token token 63 s

/-- What a binding may be called (`canaryBindingNameText`). -/
def canaryBindingName : String → Bool :=
  matchesClass (fun c => 'a' ≤ c && c ≤ 'z')
    (fun c => ('a' ≤ c && c ≤ 'z') || isDigit c || c = '_' || c = '-') 39

/-- What a key of a body may be called. -/
def canaryBodyKey : String → Bool :=
  matchesClass (fun c => isLetter c || c = '_')
    (fun c => isLetter c || isDigit c || c = '_' || c = '.' || c = '-') 63

def canaryBindingNameText : String := "^[a-z][a-z0-9_-]\x7b0,39\x7d$"

def canaryJSONPathText : String :=
  "^[A-Za-z_][A-Za-z0-9_]*(\\.([A-Za-z_][A-Za-z0-9_]*|[0-9]+))*$"

/-- A segment of a path that is a name and not an index. -/
def pathName (s : String) : Bool :=
  matchesClass (fun c => isLetter c || c = '_')
    (fun c => isLetter c || isDigit c || c = '_') s.length s

/-- `canaryJSONPath`: a name, then names and indices, separated by dots. -/
def canaryJSONPath (s : String) : Bool :=
  match split '.' s with
  | [] => false
  | first :: rest =>
    pathName first && rest.all fun seg => pathName seg || (seg ≠ "" && seg.toList.all isDigit)

/-- Headers that may carry a credential only by reference. -/
def canaryCredentialHeaders : List String :=
  ["authorization", "proxy-authorization", "cookie", "x-api-key", "api-key", "x-auth-token",
    "auth-token", "x-access-token", "access-token", "private-token"]

/-- Headers that the executor sets itself. -/
def canaryReservedHeaders : List String :=
  ["idempotency-key", "host", "content-length", "transfer-encoding"]

def canaryFixtures : List String := ["small_wav_v1"]

/-! ## URLs -/

/-- What is wrong with a URL, at the write and at a redirect alike. -/
inductive CanaryHopRule
  | ok | notHTTPS | noHost | userinfo
  deriving DecidableEq, Repr

/-- `CanaryHopViolation`: the first of the three rules the URL breaks. -/
def canaryHopViolation (u : CanaryURL) : CanaryHopRule :=
  if u.scheme ≠ "https" then .notHTTPS
  else if u.hostname = "" ∧ u.port = "" then .noHost
  else if u.userinfo.isSome then .userinfo
  else .ok

/-- The refusal of a declared URL. -/
def CanaryHopRule.writeMessage : CanaryHopRule → String
  | .notHTTPS => "must be https in v1"
  | .noHost => "must name a host"
  | .userinfo => "must not carry credentials in its URL userinfo"
  | .ok => ""

/-- The refusal of a hop while the canary runs. -/
def CanaryHopRule.hopReason : CanaryHopRule → String
  | .notHTTPS => "redirect refused: hop is not https"
  | .noHost => "redirect refused: hop names no host"
  | .userinfo => "redirect refused: hop carries userinfo"
  | .ok => ""

/-- `validateCanaryURL`: only the URL of the completion has a placeholder, and one at most. -/
def validateCanaryURL (pos : String) (u : CanaryURL) (allowCorrelation : Bool) :
    Except String Unit :=
  let placeholders := u.path.count .correlation
  if !allowCorrelation && 0 < placeholders then
    .error (pos ++ ": template substitution is only legal in completion.url")
  else if 1 < placeholders then
    .error (pos ++ ": at most one \x7b\x7b correlation_id \x7d\x7d is allowed")
  else
    let violation := canaryHopViolation u
    if violation ≠ .ok then .error (pos ++ ": " ++ violation.writeMessage) else .ok ()

/-- The host and port that two URLs are compared by. -/
def canaryHostOf (u : CanaryURL) : String :=
  lower u.hostname ++ ":" ++ (if u.port = "" then "443" else u.port)

/-! ## Paths, headers and bodies

Each check returns the bindings it has seen used. -/

def validateCanaryJSONPath (pos path : String) : Except String Unit :=
  if path = "" then .error (pos ++ ": a path is required")
  else if canaryMaxJSONPathBytes < path.utf8ByteSize then
    .error (pos ++ ": path is longer than 200 bytes")
  else if !canaryJSONPath path then
    .error (pos ++ ": " ++ quote path ++ " is not a valid path (" ++ canaryJSONPathText ++ ")")
  else if canaryMaxJSONPathDepth < (split '.' path).length then
    .error (pos ++ ": path is deeper than 8 segments")
  else .ok ()

/-- The loop of `validateCanaryFieldList` over the fields, after those of `seen`. -/
def validateCanaryFields (pos : String) (seen : List String) : List String → Except String Unit
  | [] => .ok ()
  | f :: rest => do
    validateCanaryJSONPath pos f
    refuseIf (f ∈ seen) (pos ++ ": " ++ quote f ++ " is listed twice")
    validateCanaryFields pos (f :: seen) rest

/-- The paths that must be present: bounded, valid and distinct. -/
def validateCanaryFieldList (pos : String) (fields : List String) : Except String Unit :=
  if canaryMaxRequiredFields < fields.length then
    .error (pos ++ ": at most 16 paths are allowed")
  else validateCanaryFields pos [] fields

/-- One header, given those before it; the result is the binding it uses. -/
def validateCanaryHeader (stage : String) (declared seen : List String) (multipart : Bool)
    (h : CanaryHeader) : Except String (List String) :=
  let name := lower (trimSpace h.name)
  if !canaryHeaderName name then
    .error (stage ++ ": " ++ quote h.name ++ " is not a valid header name")
  else if name ∈ seen then
    .error (stage ++ ": header " ++ quote name ++ " is declared twice; one header is one location")
  else if name ∈ canaryReservedHeaders || (multipart && name = "content-type") then
    .error (stage ++ ": header " ++ quote name ++ " is set by the runner and must not be declared")
  else if h.secretRef ≠ "" && h.value ≠ "" then
    .error (stage ++ ": header " ++ quote name ++ " takes a value or a secret_ref, not both")
  else if h.secretRef ≠ "" then
    if h.secretRef ∈ declared then .ok [h.secretRef]
    else .error (stage ++ ": header " ++ quote name ++ " references binding " ++
      quote h.secretRef ++ ", which workflow.secrets does not declare")
  else if name ∈ canaryCredentialHeaders then
    .error (stage ++ ": header " ++ quote name ++
      " is credential-bearing and takes a secret_ref, never a literal")
  else if h.value = "" then
    .error (stage ++ ": header " ++ quote name ++ " has no value")
  else if canaryMaxHeaderValueBytes < h.value.utf8ByteSize then
    .error (stage ++ ": header " ++ quote name ++ " value is longer than 1024 bytes")
  else .ok []

def validateCanaryHeaderList (stage : String) (declared : List String) (multipart : Bool) :
    List String → List CanaryHeader → Except String (List String)
  | _, [] => .ok []
  | seen, h :: rest => do
    let used ← validateCanaryHeader stage declared seen multipart h
    let more ← validateCanaryHeaderList stage declared multipart
      (lower (trimSpace h.name) :: seen) rest
    return used ++ more

/-- The headers of a request, and the bindings they use. -/
def validateCanaryHeaders (stage : String) (headers : List CanaryHeader) (declared : List String)
    (multipart : Bool) : Except String (List String) :=
  if canaryMaxHeadersPerRequest < headers.length then
    .error (stage ++ ": at most 16 headers are allowed")
  else validateCanaryHeaderList stage declared multipart [] headers

/-- A request with such a header may not be sent to another host. -/
def canaryHeadersCarryBinding (headers : List CanaryHeader) : Bool :=
  headers.any fun h => h.secretRef ≠ ""

section Validation

variable (encodedSize : List (String × CanaryValue) → Nat) (isNumber : String → Bool)

/-- `validateCanaryValue`; `room` is how many levels may still be entered. -/
def validateCanaryValue (pos : String) (declared : List String) :
    (room : Nat) → CanaryValue → Except String (List String)
  | 0, _ => .error (pos ++ ": nested deeper than 8")
  | room + 1, v =>
    match v with
    | .str s =>
      if canaryMaxStringLeafBytes < s.utf8ByteSize then
        .error (pos ++ ": string is longer than 1024 bytes")
      else .ok []
    | .num token => if isNumber token then .ok [] else
        .error (pos ++ ": " ++ quote token ++ " is not a number")
    | .bool _ => .ok []
    | .secret binding =>
      if binding ∈ declared then .ok [binding]
      else .error (pos ++ ": references binding " ++ quote binding ++
        ", which workflow.secrets does not declare")
    | .object fields =>
      if canaryMaxBodyKeysPerObject < fields.length then
        .error (pos ++ ": at most 64 keys per object")
      else do
        let used ← fields.mapM fun (k, item) =>
          if !canaryBodyKey k then .error (pos ++ ": " ++ quote k ++ " is not a valid key")
          else validateCanaryValue (pos ++ "." ++ k) declared room item
        return used.flatten
    | .list items =>
      if canaryMaxBodyListElements < items.length then
        .error (pos ++ ": at most 32 list elements")
      else do
        let used ← items.zipIdx.mapM fun (item, i) =>
          validateCanaryValue (pos ++ "[" ++ toString i ++ "]") declared room item
        return used.flatten

/-- The body of a submit, and the bindings it uses. -/
def validateCanaryBody (body : List (String × CanaryValue)) (declared : List String) :
    Except String (List String) :=
  if canaryMaxBodyKeysPerObject < body.length then
    .error "submit.body: at most 64 keys per object"
  else do
    let used ← body.mapM fun (k, v) =>
      if !canaryBodyKey k then .error ("submit.body: " ++ quote k ++ " is not a valid key")
      else validateCanaryValue isNumber ("submit.body." ++ k) declared canaryMaxBodyDepth v
    refuseIf (canaryMaxBodyBytes < encodedSize body)
      "submit.body: canonical encoding is longer than 8192 bytes"
    return used.flatten

/-! ## Stages -/

/-- The declared bindings, each with the secret it names. -/
def validateCanarySecrets (secrets : List (String × String)) : Except String (List String) :=
  if canaryMaxBindings < secrets.length then
    .error "workflow: at most 8 secret bindings are allowed"
  else
    secrets.mapM fun (name, secret) =>
      if !canaryBindingName name then
        .error ("workflow: " ++ quote name ++ " is not a valid binding name (" ++
          canaryBindingNameText ++ ")")
      else if blank secret then
        .error ("workflow: binding " ++ quote name ++ " names no project secret")
      else .ok name

/-- The answers to a submit that count as accepted are distinct and 2xx. -/
def validateAcceptedStatus (seen : List Int) : List Int → Except String Unit
  | [] => .ok ()
  | code :: rest =>
    if code < 200 || 299 < code then
      .error ("submit: accepted_status must be 2xx, got " ++ toString code)
    else if code ∈ seen then
      .error ("submit: accepted_status lists " ++ toString code ++ " twice")
    else validateAcceptedStatus (code :: seen) rest

/-- The block that the kind of submit asks for, and no other. -/
def validateSubmitBody (s : CanarySubmit) (declared : List String) : Except String (List String) :=
  match s.kind with
  | .httpJSON =>
    if s.fixtureRef ≠ "" || s.multipart.isSome then
      .error "submit: fixture_ref and multipart belong to multipart_fixture, not http_json"
    else if s.body.isEmpty then .error "submit: http_json needs a body"
    else validateCanaryBody encodedSize isNumber s.body declared
  | .multipartFixture =>
    if !s.body.isEmpty then .error "submit: body belongs to http_json, not multipart_fixture"
    else if s.fixtureRef ∉ canaryFixtures then
      .error ("submit: fixture_ref " ++ quote s.fixtureRef ++ " is not a registry key")
    else
      match s.multipart with
      | none => .error "submit: multipart.file_field is required for multipart_fixture"
      | some mp =>
        if blank mp.fileField then
          .error "submit: multipart.file_field is required for multipart_fixture"
        else if canaryMaxMultipartFields < mp.fields.length then
          .error "submit: at most 16 multipart fields are allowed"
        else do
          let used ← mp.fields.mapM fun (k, v) =>
            if !canaryBodyKey k then
              .error ("submit: multipart field " ++ quote k ++ " is not a valid name")
            else match v with
              | .object _ | .list _ =>
                .error ("submit: multipart field " ++ quote k ++
                  " must be a scalar or a secret_ref")
              | _ =>
                validateCanaryValue isNumber ("submit.multipart." ++ k) declared
                  canaryMaxBodyDepth v
          return used.flatten

/-- The submit block, and the bindings it uses. -/
def validateCanarySubmit (s : CanarySubmit) (declared : List String) (monitorTimeout : Int) :
    Except String (List String) := do
  refuseIf (s.method ≠ "POST") ("submit: method must be POST in v1, got " ++ quote s.method)
  validateCanaryURL "submit.url" s.url false
  refuseIf (s.submitTimeout < 1 || canaryMaxSubmitTimeout < s.submitTimeout)
    "submit: submit_timeout must be between 1 and 60 seconds"
  refuseIf (0 < monitorTimeout && monitorTimeout < s.submitTimeout)
    "submit: submit_timeout must not exceed the monitor's timeout"
  refuseIf s.acceptedStatus.isEmpty "submit: accepted_status must name at least one status"
  validateAcceptedStatus [] s.acceptedStatus
  let used ← validateCanaryHeaders "submit" s.headers declared (s.kind = .multipartFixture)
  let more ← validateSubmitBody encodedSize isNumber s declared
  return used ++ more

/-- The correlate block: a path or a header name, as the source asks. -/
def validateCanaryCorrelate (c : CanaryCorrelate) : Except String Unit :=
  match c.source with
  | .responseJSON =>
    if c.headerName ≠ "" then .error "correlate: header_name belongs to response_header"
    else validateCanaryJSONPath "correlate.path" c.path
  | .responseHeader =>
    if c.path ≠ "" then .error "correlate: path belongs to response_json"
    else if !canaryHeaderName c.headerName then
      .error ("correlate: header_name " ++ quote c.headerName ++ " is not a valid header name")
    else .ok ()

/-- The block of a completion by events. -/
def validateCanarySSE (sse : CanarySSE) : Except String Unit :=
  if blank sse.successEvent then .error "completion: sse.success_event is required"
  else if canaryMaxFailureValues < sse.failureEvents.length then
    .error "completion: at most 8 failure_events are allowed"
  else validateCanaryFieldList "completion.sse.required_json_fields" sse.requiredJSONFields

/-- The failure match of a poll lists its values. -/
def validateCanaryPollFailure (failure : CanaryPollMatch) : Except String Unit := do
  validateCanaryJSONPath "completion.poll.failure.path" failure.path
  refuseIf failure.values.isEmpty "completion: poll failure needs at least one value"
  refuseIf (canaryMaxFailureValues < failure.values.length)
    "completion: at most 8 poll failure values are allowed"
  refuseIf (failure.value ≠ "") "completion: poll failure takes values, not a single value"

/-- The block of a completion by polling; all attempts fit into the timeout. -/
def validateCanaryPoll (poll : CanaryPoll) (timeout : Int) : Except String Unit := do
  refuseIf (poll.interval < 1 || canaryMaxPollInterval < poll.interval)
    "completion: poll interval must be between 1 and 60 seconds"
  refuseIf (poll.maxAttempts < 1 || canaryMaxPollAttempts < poll.maxAttempts)
    "completion: poll max_attempts must be between 1 and 600"
  refuseIf (timeout < poll.interval * poll.maxAttempts)
    "completion: poll interval × max_attempts must not exceed the completion timeout"
  validateCanaryJSONPath "completion.poll.success.path" poll.success.path
  refuseIf (blank poll.success.value) "completion: poll success.value is required"
  refuseIf (!poll.success.values.isEmpty) "completion: poll success takes one value, not a list"
  if poll.failure.path ≠ "" || !poll.failure.values.isEmpty then
    validateCanaryPollFailure poll.failure

/-- The block that the kind of completion asks for, and no other. -/
def validateCompletionBlock (c : CanaryCompletion) : Except String Unit :=
  match c.kind with
  | .sse =>
    if c.poll.isSome then .error "completion: poll_json fields belong to poll_json"
    else match c.sse with
      | none => .error "completion: sse needs its own block"
      | some sse => validateCanarySSE sse
  | .pollJSON =>
    if c.sse.isSome then .error "completion: sse fields belong to sse"
    else match c.poll with
      | none => .error "completion: poll_json needs its own block"
      | some poll => validateCanaryPoll poll c.timeout

/-- The completion block, and the bindings it uses. -/
def validateCanaryCompletion (c : CanaryCompletion) (s : CanarySubmit) (declared : List String)
    (monitorTimeout : Int) : Except String (List String) := do
  validateCanaryURL "completion.url" c.url true
  refuseIf (c.timeout < 1) "completion: timeout must be positive"
  refuseIf (0 < monitorTimeout && monitorTimeout < c.timeout)
    "completion: timeout must not exceed the monitor's timeout"
  let used ← validateCanaryHeaders "completion" c.headers declared false
  refuseIf (canaryHeadersCarryBinding c.headers && canaryHostOf s.url ≠ canaryHostOf c.url)
    ("completion: a header carrying a binding requires the completion host to equal the " ++
      "submit host")
  validateCompletionBlock c
  return used

/-- The result block. -/
def validateCanaryResult (r : CanaryResult) (monitorTimeout : Int) : Except String Unit := do
  refuseIf (r.maxLatency < 1) "result: max_latency must be positive"
  refuseIf (0 < monitorTimeout && monitorTimeout < r.maxLatency)
    "result: max_latency must not exceed the monitor's timeout"
  refuseIf r.requiredJSONFields.isEmpty "result: required_json_fields must name at least one field"
  validateCanaryFieldList "result.required_json_fields" r.requiredJSONFields
  validateCanaryJSONPath "result.lifecycle_path" r.lifecyclePath

/-- The cleanup block. -/
def validateCanaryCleanup (c : CanaryCleanup) : Except String Unit :=
  match c.kind with
  | .lifecyclePrefix =>
    if blank c.objectPrefix then .error "cleanup: lifecycle_prefix needs a prefix"
    else if canaryMaxStringLeafBytes < c.objectPrefix.utf8ByteSize then
      .error "cleanup: prefix is too long"
    else .ok ()
  | .none =>
    if c.objectPrefix ≠ "" then .error "cleanup: prefix belongs to lifecycle_prefix"
    else if !c.acknowledged then
      .error "cleanup: kind \"none\" requires acknowledged: true"
    else .ok ()

/-- `ValidateCanaryWorkflow`. A declared binding that no position uses is refused too. -/
def validateCanaryWorkflow (w : CanaryWorkflow) (monitorTimeout : Int) : Except String Unit := do
  let declared ← validateCanarySecrets w.secrets
  let used ← validateCanarySubmit encodedSize isNumber w.submit declared monitorTimeout
  validateCanaryCorrelate w.correlate
  let more ← validateCanaryCompletion w.completion w.submit declared monitorTimeout
  validateCanaryResult w.result monitorTimeout
  validateCanaryCleanup w.cleanup
  match declared.find? fun name => name ∉ used ++ more with
  | none => .ok ()
  | some name => .error ("workflow: binding " ++ quote name ++ " is declared and never used")

end Validation

theorem canaryHopViolation_ok_https {u : CanaryURL} (h : canaryHopViolation u = .ok) :
    u.scheme = "https" := by
  unfold canaryHopViolation at h
  split at h
  · cases h
  · next hs => exact not_not.1 hs

theorem validateCanaryURL_ok {pos : String} {u : CanaryURL} {allow : Bool}
    (h : validateCanaryURL pos u allow = .ok ()) : canaryHopViolation u = .ok := by
  unfold validateCanaryURL at h
  dsimp only at h
  split at h
  · cases h
  split at h
  · cases h
  split at h
  · cases h
  · next hv => exact not_not.1 hv

section Accepted

variable {encodedSize : List (String × CanaryValue) → Nat} {isNumber : String → Bool}

theorem validateCanarySubmit_url {s : CanarySubmit} {declared used : List String} {timeout : Int}
    (h : validateCanarySubmit encodedSize isNumber s declared timeout = .ok used) :
    canaryHopViolation s.url = .ok := by
  unfold validateCanarySubmit at h
  obtain ⟨_, _, h⟩ := bind_eq_ok.1 h
  obtain ⟨_, hurl, _⟩ := bind_eq_ok.1 h
  exact validateCanaryURL_ok hurl

theorem validateCanaryCompletion_url {c : CanaryCompletion} {s : CanarySubmit}
    {declared used : List String} {timeout : Int}
    (h : validateCanaryCompletion c s declared timeout = .ok used) :
    canaryHopViolation c.url = .ok := by
  unfold validateCanaryCompletion at h
  obtain ⟨_, hurl, _⟩ := bind_eq_ok.1 h
  exact validateCanaryURL_ok hurl

theorem validateCanaryWorkflow_urls {w : CanaryWorkflow} {timeout : Int}
    (h : validateCanaryWorkflow encodedSize isNumber w timeout = .ok ()) :
    canaryHopViolation w.submit.url = .ok ∧ canaryHopViolation w.completion.url = .ok := by
  unfold validateCanaryWorkflow at h
  obtain ⟨declared, -, h⟩ := bind_eq_ok.1 h
  obtain ⟨used, hsubmit, h⟩ := bind_eq_ok.1 h
  obtain ⟨_, _, h⟩ := bind_eq_ok.1 h
  obtain ⟨more, hcompletion, -⟩ := bind_eq_ok.1 h
  exact ⟨validateCanarySubmit_url hsubmit, validateCanaryCompletion_url hcompletion⟩

end Accepted

end Cerbix.Domain
