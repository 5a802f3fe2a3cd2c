import Cerbix.Prober.Canary

/-!
# Redirects and credentials

The requests a canary sends when its target answers with redirects: the redirect policy of
`canaryProber.client`, with `net/http` around it, which makes each redirected request from the first
one's headers and repeats the first body on 307 and 308.

`StaysHome` says that no request carries a binding's value away from the declared origin. The policy
compares a hop with the one before it and never looks at the body (`secondHop_leaks`), so it holds
exactly for the chains of `Contained` (`staysHome_iff`).
-/

namespace Cerbix.Prober

open Cerbix.Lib Cerbix.Domain List

/-! ## Requests -/

/-- A literal, or the value of a binding. -/
inductive Datum
  | literal (s : String)
  | binding (name : String)
  deriving DecidableEq, Repr

/-- A request as it is sent. -/
structure WireRequest where
  url : CanaryURL
  headers : List (String × Datum)
  body : Option (List (String × CanaryValue))

def setHeader (headers : List (String × Datum)) (name : String) (v : Datum) :
    List (String × Datum) :=
  headers.filter (fun h => h.1 ≠ name) ++ [(name, v)]

def headerKey (h : CanaryHeader) : String := Text.lower (Text.trimSpace h.name)

/-- The headers that the workflow declares; a later one replaces an earlier. -/
def declaredHeaders (headers : List CanaryHeader) : List (String × Datum) :=
  headers.foldl (fun hs h =>
    if h.secretRef ≠ "" then setHeader hs (headerKey h) (.binding h.secretRef)
    else setHeader hs (headerKey h) (.literal h.value)) []

/-- The headers that carry a secret. -/
def bindingBacked (headers : List CanaryHeader) : List String :=
  (headers.filter fun h => h.secretRef ≠ "").map headerKey

/-- The requests a workflow makes: the submit with its idempotency key, a poll, and the opening of a
stream, with the correlation id. -/
inductive CanaryRequest
  | submit (idempotency : String)
  | poll (correlation : String)
  | stream (correlation : String)

def submitFields (s : CanarySubmit) : List (String × CanaryValue) :=
  match s.kind with
  | .httpJSON => s.body
  | .multipartFixture => (s.multipart.map CanaryMultipart.fields).getD []

def submitContentType (s : CanarySubmit) : String :=
  match s.kind with
  | .httpJSON => "application/json"
  | .multipartFixture => "multipart/form-data"

/-- `canarySubstitute`: the id takes the place of the placeholder, as one segment. -/
def canarySubstitute (u : CanaryURL) (correlation : String) : CanaryURL :=
  { u with path := u.path.map fun
      | .correlation => .text correlation
      | .text s => .text s }

variable (w : CanaryWorkflow)

namespace CanaryRequest

def declaredURL : CanaryRequest → CanaryURL
  | .submit _ => w.submit.url
  | .poll _ | .stream _ => w.completion.url

def headers (w : CanaryWorkflow) : CanaryRequest → List CanaryHeader
  | .submit _ => w.submit.headers
  | .poll _ | .stream _ => w.completion.headers

/-- The request before any redirect. -/
def initial : CanaryRequest → WireRequest
  | .submit idempotency =>
    let headers := setHeader (declaredHeaders w.submit.headers) "content-type"
      (.literal (submitContentType w.submit))
    { url := w.submit.url
      headers :=
        if idempotency = "" then headers
        else setHeader headers "idempotency-key" (.literal idempotency)
      body := some (submitFields w.submit) }
  | .poll correlation =>
    { url := canarySubstitute w.completion.url correlation
      headers := declaredHeaders w.completion.headers
      body := none }
  | .stream correlation =>
    { url := canarySubstitute w.completion.url correlation
      headers := setHeader (declaredHeaders w.completion.headers) "accept"
        (.literal "text/event-stream")
      body := none }

end CanaryRequest

inductive RedirectStatus
  | movedPermanently | found | seeOther | temporary | permanent
  deriving DecidableEq, Repr

/-- Only 307 and 308 send the body again. -/
def RedirectStatus.keepsBody : RedirectStatus → Bool
  | .temporary | .permanent => true
  | _ => false

/-- A redirect that a target answers. -/
structure Hop where
  status : RedirectStatus
  url : CanaryURL
  deriving DecidableEq, Repr

/-- What two URLs of one origin share. -/
def canaryOrigin (u : CanaryURL) : String × String × String :=
  let scheme := Text.lower u.scheme
  (scheme, Text.lower u.hostname, if u.port ≠ "" then u.port
    else if scheme = "https" then "443"
    else if scheme = "http" then "80"
    else "")

def canaryMaxRedirects : Nat := 3

/-- The request to the next URL. `net/http` also drops `Authorization` on another host. -/
def redirected (first : WireRequest) (hop : Hop) : WireRequest where
  url := hop.url
  headers := first.headers
  body := if hop.status.keepsBody then first.body else none

variable (backed : List String)

/-- What the policy leaves of a request it allows: no headers from bindings when the origin changes.
Header names are kept as the policy compares them, trimmed and in lower case. -/
def dropBindingBacked (prev : CanaryURL) (req : WireRequest) : WireRequest :=
  if canaryOrigin req.url ≠ canaryOrigin prev then
    { req with headers := req.headers.filter fun h => h.1 ∉ backed }
  else req

/-- `CheckRedirect`: what the policy leaves of the request, or its refusal. `prev` is the URL of the
request before, `via` how many there were. -/
def checkRedirect (via : Nat) (prev : CanaryURL) (req : WireRequest) : Except String WireRequest :=
  if canaryMaxRedirects ≤ via then .error "too many redirects"
  else
    let violation := canaryHopViolation req.url
    if violation ≠ .ok then .error violation.hopReason
    else .ok (dropBindingBacked backed prev req)

/-- The requests after the first, until one is refused. -/
def followRedirects (backed : List String) (first : WireRequest) :
    (via : Nat) → (prev : CanaryURL) → List Hop → List WireRequest
  | _, _, [] => []
  | via, prev, hop :: rest =>
    match checkRedirect backed via prev (redirected first hop) with
    | .error _ => []
    | .ok req => req :: followRedirects backed first (via + 1) hop.url rest

/-- All requests that one logical request leads to. -/
def sentRequests (r : CanaryRequest) (hops : List Hop) : List WireRequest :=
  let first := r.initial w
  first :: followRedirects (bindingBacked (r.headers w)) first 1 first.url hops

mutual

/-- The bindings of a value. -/
def valueBindings : CanaryValue → List String
  | .secret binding => [binding]
  | .list items => listBindings items
  | .object fields => fieldBindings fields
  | .str _ | .num _ | .bool _ => []

def listBindings : List CanaryValue → List String
  | [] => []
  | v :: rest => valueBindings v ++ listBindings rest

def fieldBindings : List (String × CanaryValue) → List String
  | [] => []
  | (_, v) :: rest => valueBindings v ++ fieldBindings rest

end

/-- The bindings whose values the headers carry. -/
def WireRequest.headerBindings (req : WireRequest) : List String :=
  req.headers.filterMap fun h =>
    match h.2 with
    | .literal _ => none
    | .binding name => some name

/-- The bindings whose values the body carries. -/
def WireRequest.bodyBindings (req : WireRequest) : List String :=
  (req.body.map fieldBindings).getD []

/-- **No request leaves the declared origin with a credential.** -/
def StaysHome (r : CanaryRequest) (hops : List Hop) : Prop :=
  ∀ req ∈ sentRequests w r hops, ∀ b ∈ req.headerBindings ++ req.bodyBindings,
    req.url.scheme = "https" ∧ canaryOrigin req.url = canaryOrigin (r.declaredURL w)

/-- The hop is allowed, and so was each before it. -/
def Followed (before : List Hop) (hop : Hop) : Prop :=
  before.length + 1 < canaryMaxRedirects ∧ ∀ h ∈ before ++ [hop], canaryHopViolation h.url = .ok

def lastURL (first : CanaryURL) (before : List Hop) : CanaryURL :=
  (before.getLast?.map Hop.url).getD first

/-- A hop followed away from the declared origin changes the origin, if a header of the first
request is from a binding, and does not repeat the body, if that has a binding. -/
def Contained (r : CanaryRequest) (hops : List Hop) : Prop :=
  ∀ before hop after, hops = before ++ hop :: after → Followed before hop →
    canaryOrigin hop.url ≠ canaryOrigin (r.declaredURL w) → ((r.initial w).headerBindings = [] ∨
        canaryOrigin hop.url ≠ canaryOrigin (lastURL (r.declaredURL w) before)) ∧
      ((r.initial w).bodyBindings = [] ∨ hop.status.keepsBody = false)

/-- The headers from bindings are all among `backed`. -/
def Backed (headers : List (String × Datum)) : Prop :=
  ∀ h ∈ headers, ∀ b, h.2 = .binding b → h.1 ∈ backed

section Headers

variable {backed : List String} {hs : List (String × Datum)}

theorem Backed.setHeader (h : Backed backed hs) {name : String} {v : Datum}
    (hv : ∀ b, v = .binding b → name ∈ backed) : Backed backed (setHeader hs name v) := by
  intro x hx b hb
  rcases mem_append.1 hx with hx | hx
  · exact h x (mem_of_mem_filter hx) b hb
  · rw [mem_singleton] at hx
    subst hx
    exact hv b hb

theorem Backed.setLiteral (h : Backed backed hs) (name s : String) :
    Backed backed (Prober.setHeader hs name (.literal s)) :=
  h.setHeader fun _ hb => by cases hb

theorem backed_declaredHeaders (headers : List CanaryHeader) :
    Backed (bindingBacked headers) (declaredHeaders headers) := by
  suffices hfold : ∀ (rest : List CanaryHeader) (hs : List (String × Datum)),
      (∀ h ∈ rest, h ∈ headers) → Backed (bindingBacked headers) hs →
      Backed (bindingBacked headers) (rest.foldl (fun hs h =>
        if h.secretRef ≠ "" then Prober.setHeader hs (headerKey h) (.binding h.secretRef)
        else Prober.setHeader hs (headerKey h) (.literal h.value)) hs) from
    hfold headers [] (fun _ h => h) (by intro x hx; cases hx)
  intro rest
  induction rest with
  | nil => exact fun _ _ h => h
  | cons a rest ih =>
    intro hs hin h
    rw [foldl_cons]
    refine ih _ (fun x hx => hin x (mem_cons_of_mem _ hx)) ?_
    split
    · next href =>
      refine h.setHeader fun b _ => ?_
      exact mem_map_of_mem (mem_filter.2 ⟨hin a mem_cons_self, by simpa using href⟩)
    · exact h.setLiteral _ _

theorem backed_initial (r : CanaryRequest) :
    Backed (bindingBacked (r.headers w)) (r.initial w).headers := by
  have hdecl := backed_declaredHeaders (r.headers w)
  cases r with
  | submit idempotency =>
    unfold CanaryRequest.initial
    dsimp only
    split
    · exact hdecl.setLiteral _ _
    · exact (hdecl.setLiteral _ _).setLiteral _ _
  | poll correlation => exact hdecl
  | stream correlation => exact hdecl.setLiteral _ _

end Headers

/-! ## What a hop carries -/

section

variable {backed : List String} {first : WireRequest}

theorem url_dropBindingBacked (prev : CanaryURL) (hop : Hop) :
    (dropBindingBacked backed prev (redirected first hop)).url = hop.url := by
  unfold dropBindingBacked
  split <;> rfl

theorem headerBindings_dropBindingBacked (hb : Backed backed first.headers) (prev : CanaryURL)
    (hop : Hop) : (dropBindingBacked backed prev (redirected first hop)).headerBindings =
      if canaryOrigin hop.url ≠ canaryOrigin prev then [] else first.headerBindings := by
  unfold dropBindingBacked
  have hurl : (redirected first hop).url = hop.url := rfl
  rw [hurl]
  split
  · unfold WireRequest.headerBindings
    rw [filterMap_eq_nil_iff]
    intro h hh
    obtain ⟨hmem, hnot⟩ := mem_filter.1 hh
    cases hv : h.2 with
    | literal s => rfl
    | binding b =>
      have hin := hb h hmem b hv
      simp [hin] at hnot
  · rfl

theorem bodyBindings_dropBindingBacked (prev : CanaryURL) (hop : Hop) :
    (dropBindingBacked backed prev (redirected first hop)).bodyBindings =
      if hop.status.keepsBody then first.bodyBindings else [] := by
  have hbody : (dropBindingBacked backed prev (redirected first hop)).body =
      if hop.status.keepsBody then first.body else none := by
    unfold dropBindingBacked
    split <;> rfl
  unfold WireRequest.bodyBindings
  rw [hbody]
  split <;> rfl

variable {req : WireRequest}

theorem checkRedirect_eq_ok {via : Nat} {prev : CanaryURL} {hop : Hop} :
    checkRedirect backed via prev (redirected first hop) = .ok req ↔
      via < canaryMaxRedirects ∧ canaryHopViolation hop.url = .ok ∧
        req = dropBindingBacked backed prev (redirected first hop) := by
  have hurl : (redirected first hop).url = hop.url := rfl
  unfold checkRedirect
  rw [hurl]
  by_cases hvia : canaryMaxRedirects ≤ via
  · rw [if_pos hvia]
    exact iff_of_false (by intro h; cases h) (by omega)
  · rw [if_neg hvia]
    by_cases hv : canaryHopViolation hop.url = .ok
    · simp only [hv, ne_eq, not_true_eq_false, if_false, Except.ok.injEq, true_and]
      exact ⟨fun h => ⟨by omega, h.symm⟩, fun h => h.2.symm⟩
    · simp only [ne_eq, hv, false_and, and_false, iff_false]
      intro h
      cases h

theorem mem_followRedirects (hops : List Hop) : ∀ {via : Nat} {prev : CanaryURL},
    req ∈ followRedirects backed first via prev hops ↔
      ∃ before hop after, hops = before ++ hop :: after ∧
        (via + before.length < canaryMaxRedirects ∧
          ∀ h ∈ before ++ [hop], canaryHopViolation h.url = .ok) ∧
        req = dropBindingBacked backed (lastURL prev before) (redirected first hop) := by
  induction hops with
  | nil =>
    intro via prev
    refine iff_of_false (by intro h; cases h) ?_
    rintro ⟨before, hop, after, h, -⟩
    simp at h
  | cons hop rest ih =>
    intro via prev
    have hstep : req ∈ followRedirects backed first via prev (hop :: rest) ↔
        (via < canaryMaxRedirects ∧ canaryHopViolation hop.url = .ok) ∧
          (req = dropBindingBacked backed prev (redirected first hop) ∨
            req ∈ followRedirects backed first (via + 1) hop.url rest) := by
      rw [followRedirects]
      cases hc : checkRedirect backed via prev (redirected first hop) with
      | error e =>
        refine iff_of_false (by simp) ?_
        rintro ⟨⟨hvia, hv⟩, -⟩
        rw [checkRedirect_eq_ok.2 ⟨hvia, hv, rfl⟩] at hc
        cases hc
      | ok sent =>
        obtain ⟨hvia, hv, rfl⟩ := checkRedirect_eq_ok.1 hc
        simp [hvia, hv]
    rw [hstep, ih]
    constructor
    · rintro ⟨⟨hvia, hv⟩, rfl | ⟨before, hop', after, rfl, ⟨hlen, hok⟩, rfl⟩⟩
      · exact ⟨[], hop, rest, rfl, ⟨by simpa using hvia, by simpa using hv⟩, rfl⟩
      refine ⟨hop :: before, hop', after, rfl, ⟨by simp only [length_cons]; omega, ?_⟩, ?_⟩
      · intro h hh
        rcases mem_cons.1 hh with rfl | hh
        · exact hv
        · exact hok h hh
      · unfold lastURL
        cases before <;> simp [List.getLast?_cons]
    · rintro ⟨before, hop', after, heq, ⟨hlen, hok⟩, rfl⟩
      cases before with
      | nil =>
        cases heq
        exact ⟨⟨by simpa using hlen, hok hop (by simp)⟩, .inl rfl⟩
      | cons hop₀ before =>
        cases heq
        simp only [length_cons] at hlen
        refine ⟨⟨by omega, hok hop (by simp)⟩, .inr ⟨before, hop', after, rfl, ⟨by omega, ?_⟩, ?_⟩⟩
        · intro h hh
          exact hok h (mem_cons_of_mem _ hh)
        · unfold lastURL
          cases before <;> simp [List.getLast?_cons]

end

/-! ## Containment -/

section

variable {w : CanaryWorkflow} {r : CanaryRequest}

theorem canaryOrigin_initial : canaryOrigin (r.initial w).url = canaryOrigin (r.declaredURL w) := by
  cases r <;> rfl

theorem scheme_initial : (r.initial w).url.scheme = (r.declaredURL w).scheme := by
  cases r <;> rfl

theorem canaryOrigin_lastURL (before : List Hop) : canaryOrigin (lastURL (r.initial w).url before) =
      canaryOrigin (lastURL (r.declaredURL w) before) := by
  unfold lastURL
  cases before.getLast? with
  | none => exact canaryOrigin_initial
  | some hop => rfl

/-- The request that a hop leads to. -/
def hopRequest (w : CanaryWorkflow) (r : CanaryRequest) (before : List Hop) (hop : Hop) :
    WireRequest :=
  dropBindingBacked (bindingBacked (r.headers w)) (lastURL (r.initial w).url before)
    (redirected (r.initial w) hop)

variable {hops : List Hop}

theorem mem_sentRequests {req : WireRequest} : req ∈ sentRequests w r hops ↔ req = r.initial w ∨
      ∃ before hop after, hops = before ++ hop :: after ∧ Followed before hop ∧
        req = hopRequest w r before hop := by
  have hvia (n : Nat) : 1 + n < canaryMaxRedirects ↔ n + 1 < canaryMaxRedirects := by
    rw [Nat.add_comm]
  unfold sentRequests
  rw [mem_cons, mem_followRedirects]
  simp only [hvia]
  rfl

theorem bindings_hopRequest (before : List Hop) (hop : Hop) :
    (hopRequest w r before hop).headerBindings ++ (hopRequest w r before hop).bodyBindings = [] ↔
      ((r.initial w).headerBindings = [] ∨
        canaryOrigin hop.url ≠ canaryOrigin (lastURL (r.declaredURL w) before)) ∧
      ((r.initial w).bodyBindings = [] ∨ hop.status.keepsBody = false) := by
  unfold hopRequest
  rw [append_eq_nil_iff, headerBindings_dropBindingBacked (backed_initial w r),
    bodyBindings_dropBindingBacked, canaryOrigin_lastURL]
  refine and_congr ?_ ?_
  · split
    · next h => exact iff_of_true rfl (.inr h)
    · next h => exact ⟨.inl, fun hor => hor.resolve_right h⟩
  · cases hk : hop.status.keepsBody with
    | true => simp
    | false => simp

theorem contained_of_staysHome (h : StaysHome w r hops) : Contained w r hops := by
  intro before hop after heq hfollowed haway
  rw [← bindings_hopRequest before hop]
  by_contra hne
  obtain ⟨b, hb⟩ := exists_mem_of_ne_nil _ hne
  have hhome := (h _ (mem_sentRequests.2 (.inr ⟨before, hop, after, heq, hfollowed, rfl⟩)) b hb).2
  exact haway ((congrArg canaryOrigin (url_dropBindingBacked _ hop).symm).trans hhome)

theorem staysHome_of_contained (hdeclared : (r.declaredURL w).scheme = "https")
    (h : Contained w r hops) : StaysHome w r hops := by
  intro req hreq b hb
  rcases mem_sentRequests.1 hreq with rfl | ⟨before, hop, after, heq, hfollowed, rfl⟩
  · exact ⟨scheme_initial.trans hdeclared, canaryOrigin_initial⟩
  have hurl : (hopRequest w r before hop).url = hop.url := url_dropBindingBacked _ hop
  rw [hurl]
  refine ⟨canaryHopViolation_ok_https (hfollowed.2 hop (by simp)), ?_⟩
  by_contra haway
  rw [(bindings_hopRequest before hop).2 (h before hop after heq hfollowed haway)] at hb
  cases hb

/-- **Credentials stay with the declared origin** of an accepted workflow's request exactly when the
chain of redirects is contained. -/
theorem staysHome_iff (encodedSize : List (String × CanaryValue) → Nat) (isNumber : String → Bool)
    (timeout : Int) (hw : validateCanaryWorkflow encodedSize isNumber w timeout = .ok ())
    (hops : List Hop) : StaysHome w r hops ↔ Contained w r hops := by
  refine ⟨contained_of_staysHome, staysHome_of_contained ?_⟩
  obtain ⟨hsubmit, hcompletion⟩ := validateCanaryWorkflow_urls hw
  cases r with
  | submit _ => exact canaryHopViolation_ok_https hsubmit
  | poll _ => exact canaryHopViolation_ok_https hcompletion
  | stream _ => exact canaryHopViolation_ok_https hcompletion

end

def keyedWorkflow : CanaryWorkflow where
  secrets := [("key", "api")]
  submit :=
    { kind := .httpJSON
      method := "POST"
      url := ⟨"https", none, "api.example", "", [.text "tasks"]⟩
      submitTimeout := 5
      acceptedStatus := [202]
      headers := [⟨"x-api-key", "", "key"⟩]
      fixtureRef := ""
      multipart := none
      body := [("token", .secret "key")] }
  correlate := ⟨.responseHeader, "", "task-id"⟩
  completion :=
    { kind := .pollJSON
      url := ⟨"https", none, "api.example", "", [.text "tasks", .correlation]⟩
      timeout := 30
      headers := []
      sse := none
      poll := some ⟨1, 3, ⟨"status", "done", []⟩, ⟨"", "", []⟩⟩ }
  result := ⟨10, ["status"], "path"⟩
  cleanup := ⟨.none, "", true⟩

def otherHost (path : String) : CanaryURL := ⟨"https", none, "other.example", "", [.text path]⟩

/-- A second hop within another host gets the header back, and a 307 to another host sends the body
again. -/
theorem secondHop_leaks :
    validateCanaryWorkflow (fun _ => 21) (fun _ => true) keyedWorkflow 60 = .ok () ∧
      ¬ StaysHome keyedWorkflow (.submit "") [⟨.found, otherHost "a"⟩, ⟨.found, otherHost "b"⟩] ∧
      ¬ StaysHome keyedWorkflow (.submit "") [⟨.temporary, otherHost "a"⟩] := by
  refine ⟨by rfl, ?_, ?_⟩
  · intro h
    have hsecond := (contained_of_staysHome h [⟨.found, otherHost "a"⟩] ⟨.found, otherHost "b"⟩ []
      rfl (by unfold Followed; decide +kernel) (by decide +kernel)).1
    revert hsecond
    decide +kernel
  · intro h
    have hbody := (contained_of_staysHome h [] ⟨.temporary, otherHost "a"⟩ [] rfl
      (by unfold Followed; decide +kernel) (by decide +kernel)).2
    revert hbody
    decide +kernel

/-- A chain that leaves by a 302 and comes back loses its header on the way and leaks nothing. -/
theorem returningChain_staysHome :
    validateCanaryWorkflow (fun _ => 21) (fun _ => true) keyedWorkflow 60 = .ok () ∧
      StaysHome keyedWorkflow (.submit "")
        [⟨.found, otherHost "a"⟩, ⟨.temporary, ⟨"https", none, "API.example", "443", []⟩⟩] := by
  have hw : validateCanaryWorkflow (fun _ => 21) (fun _ => true) keyedWorkflow 60 = .ok () := by rfl
  refine ⟨hw, (staysHome_iff _ _ _ hw _).2 ?_⟩
  intro before hop after heq _ haway
  rcases before with _ | ⟨_, _ | ⟨_, before⟩⟩
  · cases heq
    exact ⟨.inr haway, .inr rfl⟩
  · cases heq
    exact absurd (by decide +kernel) haway
  · simp at heq

end Cerbix.Prober
