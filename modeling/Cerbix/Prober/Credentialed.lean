import Cerbix.Dispatch.Binding

/-!
# What a credentialed probe does on the network

The probers of the credentialed types (`internal/prober/postgres.go`, `mysql.go`, `redis.go`,
`promql.go`, `rabbitmq.go`) as far as the monitor decides what they do (`probePlan`).

The execution digest takes an absent setting for its default, but the probers have defaults of their
own: `tls` is digested as `"true"` and probed as plaintext, `sslmode` digested as `"require"` and
probed as `"prefer"`; and `promql` without authentication sends a user name that is not digested.
Bodies with equal parts are probed alike exactly when they agree on those (`probePlan_eq_iff`).
-/

namespace Cerbix.Prober

open Cerbix.Lib Cerbix.Domain Cerbix.Dispatch Text Settings

/-! ## Plans -/

/-- What a probe opens and sends. -/
inductive Wire
  | postgres (host : String) (port : Nat) (sslmode user password database query : String)
  | mysql (addr user passwd dbName : String) (timeoutSeconds : Int) (tlsConfig query : String)
  /-- `tls` is the choice of `InsecureSkipVerify` on a TLS connection, none in plaintext. -/
  | redis (host addr : String) (tls : Option Bool) (auth : List String)
  | http (url : String) (basicAuth : Option (String × String)) (skipVerify : Bool)
  | amqp (addr : String)
  | refused (msg : String)
  deriving DecidableEq, Repr

/-- What a probe does, how long it may take and how often it tries. -/
structure ProbePlan where
  wire : Wire
  timeoutSeconds : Int
  attempts : Nat
  deriving DecidableEq, Repr

section Plans

variable (splitHostPort : String → Option (String × String)) (queryEscape : String → String)
-- the error of `url.Parse`, if there is one
variable (urlError : String → Option String)

def parsePort (p : String) : Option Nat := (digits p.toList).filter (· < 65536)

/-- The host and port of a target; the port is the protocol's own if it has none. -/
def hostPort (target : String) (defaultPort : Nat) : String × Nat :=
  match splitHostPort (trimSpace target) with
  | some (h, p) => (h, (parsePort p).getD defaultPort)
  | none => (trimSpace target, defaultPort)

def joinHostPort (host : String) (port : Nat) : String :=
  if containsAny host (· = ':') then "[" ++ host ++ "]:" ++ itoa port
  else host ++ ":" ++ itoa port

def hostPortAddr (target : String) (defaultPort : Nat) : String :=
  joinHostPort (hostPort splitHostPort target defaultPort).1
    (hostPort splitHostPort target defaultPort).2

/-- A blank query is the trivial one. -/
def statement (query : String) : String := if blank query then "SELECT 1" else query

/-- What the driver takes an absent `sslmode` for. -/
def sslmodeRead (sslmode : String) : String := if sslmode = "" then "prefer" else sslmode

variable (m : MonitorBody)

/-- The probe of Postgres. -/
def postgresPlan : Wire :=
  let (host, port) := hostPort splitHostPort m.target 5432
  .postgres host port (sslmodeRead (m.config.value "sslmode")) (m.config.value "username")
    (m.config.value "password") (m.config.value "database") (statement (m.config.value "query"))

def flagRead (v : String) : Bool := v = "true"

def mysqlTLSConfig (config : Settings) : String :=
  if !flagRead (config.value "tls") then ""
  else if flagRead (config.value "tls_skip_verify") then "skip-verify"
  else "true"

/-- The probe of MySQL. -/
def mysqlPlan : Wire :=
  .mysql (hostPortAddr splitHostPort m.target 3306) (m.config.value "username")
    (m.config.value "password") (m.config.value "database") m.timeoutSeconds
    (mysqlTLSConfig m.config) (statement (m.config.value "query"))

/-- No `AUTH` is sent without a password. -/
def redisAuth (user password : String) : List String :=
  if password = "" then [] else if user = "" then ["AUTH", password] else ["AUTH", user, password]

/-- The probe of Redis. -/
def redisPlan : Wire :=
  .redis (hostPort splitHostPort m.target 6379).1 (hostPortAddr splitHostPort m.target 6379)
    (if flagRead (m.config.value "tls") then some (flagRead (m.config.value "tls_skip_verify"))
      else none)
    (redisAuth (m.config.value "username") (m.config.value "password"))

/-- No credentials are sent without a user name. -/
def basicAuth (config : Settings) : Option (String × String) :=
  if config.value "username" = "" then none
  else some (config.value "username", config.value "password")

def promqlURL (target query : String) : String :=
  trimRightWhere (· = '/') target ++ "/api/v1/query?query=" ++ queryEscape (trimSpace query)

/-- The probe of Prometheus. A target that is no URL is not refused here. -/
def promqlPlan : Wire :=
  if blank (m.config.value "query") then .refused "no query configured"
  else .http (promqlURL queryEscape m.target (m.config.value "query")) (basicAuth m.config) false

def managementPath (path : String) : String :=
  let path := if path = "" then "/api/overview" else path
  if hasPrefix path "/" then path else "/" ++ path

/-- `rabbitMgmtURL`, for a path with its default and its slash. The scheme of a target that parses
is how it begins. -/
def rabbitMgmtURL (target path : String) (tlsEnabled : Bool) : Except String String :=
  let t := trimSpace target
  if hasPrefix t "http://" || hasPrefix t "https://" then
    match urlError t with
    | some err => .error err
    | none =>
      if tlsEnabled && !hasPrefix t "https://" then
        .error "rabbitmq management target must use https when tls is enabled"
      else .ok (trimRightWhere (· = '/') t ++ path)
  else if tlsEnabled then .ok ("https://" ++ (hostPortAddr splitHostPort t 15671 ++ path))
  else .ok ("http://" ++ (hostPortAddr splitHostPort t 15672 ++ path))

/-- The request to the management API, or why there is none. -/
def managementWire (auth : Option (String × String)) (skipVerify : Bool) :
    Except String String → Wire
  | .error err => .refused ("bad request: " ++ err)
  | .ok url => .http url auth skipVerify

def managementPlan : Wire :=
  managementWire (basicAuth m.config) (flagRead (m.config.value "tls_skip_verify"))
    (rabbitMgmtURL splitHostPort urlError m.target (managementPath (m.config.value "path"))
      (flagRead (m.config.value "tls")))

/-- The probe of RabbitMQ in either mode. -/
def rabbitmqPlan : Wire :=
  if lower (m.config.value "mode") = "management" then managementPlan splitHostPort urlError m
  else .amqp (hostPortAddr splitHostPort m.target 5672)

/-- The probe of a credentialed type. -/
def credentialedWire : Wire :=
  match m.type with
  | .postgres => postgresPlan splitHostPort m
  | .mysql => mysqlPlan splitHostPort m
  | .redis => redisPlan splitHostPort m
  | .promql => promqlPlan queryEscape m
  | .rabbitmq => rabbitmqPlan splitHostPort urlError m
  | _ => .refused "not a credentialed type"

/-- All that a probe of the body does. -/
def probePlan : ProbePlan :=
  ⟨credentialedWire splitHostPort queryEscape urlError m, m.timeoutSeconds, (m.retries + 1).toNat⟩

end Plans

/-- The password, where the body asks for one. -/
def injectPassword (password : String) (m : MonitorBody) : MonitorBody :=
  match resolveCredentialRequirement m.type m.config with
  | .ok .required => { m with config := m.config.set "password" password }
  | _ => m

/-! ## Readings that the digest determines -/

section

variable {α : Type} {g₁ g₂ : Option String} {d : String} {read : String → α}

theorem read_eq (h : g₁.getD d = g₂.getD d) (hd : read "" = read d) :
    read (g₁.getD "") = read (g₂.getD "") := by
  cases g₁ <;> cases g₂ <;> simp_all

theorem read_eq_iff (h : g₁.getD d = g₂.getD d) (hd : read "" ≠ read d) :
    read (g₁.getD "") = read (g₂.getD "") ↔ g₁.isSome = g₂.isSome := by
  cases g₁ <;> cases g₂ <;> simp_all [Ne.symm]

end

/-- The settings of a variant that the digest covers. -/
def boundKeys (variant : CredVariant) : List String :=
  sortStrings ((variant.fields.filter fun f => f.binding = .execution).map CredField.key)

/-- The digest covers the key as it is stored. -/
def verbatimKey (key : String) : Bool :=
  key = syntheticScenarioKey || (scenarioBindingFromRefKey key).isSome ||
    key = canaryWorkflowKey || key = canaryRunKeyName || (canaryBindingFromRefKey key).isSome

variable {typ : MonitorType} {variant : CredVariant} {m : MonitorBody}

theorem executionBindingKeys_of_credentialed (h : credentialedType typ) (s : Settings) :
    executionBindingKeys typ s =
      (do let variant ← resolveVariant typ s; return boundKeys variant) := by
  cases typ <;> first | rfl | exact absurd h (by decide)

/-- A setting that the digest covers, absent or not. -/
structure BoundField (variant : CredVariant) (key default : String) : Prop where
  bound : key ∈ boundKeys variant
  field : (variant.fields.find? fun f => f.key = key).map CredField.default = some default
  plain : verbatimKey key = false

instance (variant : CredVariant) (key default : String) :
    Decidable (BoundField variant key default) :=
  decidable_of_iff (key ∈ boundKeys variant ∧
    (variant.fields.find? fun f => f.key = key).map CredField.default = some default ∧
    verbatimKey key = false)
    ⟨fun ⟨h₁, h₂, h₃⟩ => ⟨h₁, h₂, h₃⟩, fun h => ⟨h.bound, h.field, h.plain⟩⟩

theorem canonicalSettingValue_of_bound {s : Settings}
    {key default : String} (hv : resolveVariant typ s = .ok variant)
    (hf : BoundField variant key default) :
    canonicalSettingValue typ s key = .ok ((s.get? key).getD default) := by
  have hplain := hf.plain
  unfold verbatimKey at hplain
  rw [canonicalSettingValue, if_neg (by rw [hplain]; decide), hv]
  show schemaSettingValue variant s key = _
  unfold schemaSettingValue
  cases s.get? key with
  | some v => rfl
  | none =>
    obtain ⟨f, hfind, rfl⟩ := Option.map_eq_some_iff.1 hf.field
    simp [hfind]

section SameBinding

variable {m₁ m₂ : MonitorBody} {variant : CredVariant}

theorem resolveVariant_keys (hc : credentialedType m₁.type) (h : SameBinding m₁ m₂)
    {v₁ v₂ : CredVariant} (h₁ : resolveVariant m₁.type m₁.config = .ok v₁)
    (h₂ : resolveVariant m₂.type m₂.config = .ok v₂) : boundKeys v₁ = boundKeys v₂ := by
  have hkeys := h.keys
  rw [executionBindingKeys_of_credentialed hc, executionBindingKeys_of_credentialed (h.type ▸ hc),
    h₁, h₂] at hkeys
  exact Except.ok.inj hkeys

variable (hc : credentialedType m₁.type = true) (h : SameBinding m₁ m₂)
  (h₁ : resolveVariant m₁.type m₁.config = .ok variant)
  (h₂ : resolveVariant m₂.type m₂.config = .ok variant)
include hc h h₁ h₂

theorem getD_eq_of_bound (key default : String) (hf : BoundField variant key default) :
    (m₁.config.get? key).getD default = (m₂.config.get? key).getD default := by
  have hkeys : executionBindingKeys m₁.type m₁.config = .ok (boundKeys variant) := by
    rw [executionBindingKeys_of_credentialed hc, h₁]
    rfl
  have hval := h.values _ hkeys key hf.bound
  rw [canonicalSettingValue_of_bound h₁ hf, canonicalSettingValue_of_bound h₂ hf] at hval
  exact Except.ok.inj hval

theorem username_eq (hf : BoundField variant "username" "") :
    m₁.config.value "username" = m₂.config.value "username" :=
  getD_eq_of_bound hc h h₁ h₂ "username" "" hf

theorem skipVerify_eq (hf : BoundField variant "tls_skip_verify" "false") :
    flagRead (m₁.config.value "tls_skip_verify") = flagRead (m₂.config.value "tls_skip_verify") :=
  read_eq (getD_eq_of_bound hc h h₁ h₂ "tls_skip_verify" "false" hf) (by decide)

theorem tls_eq_iff (hf : BoundField variant "tls" "true") :
    flagRead (m₁.config.value "tls") = flagRead (m₂.config.value "tls") ↔
      m₁.config.contains "tls" = m₂.config.contains "tls" :=
  read_eq_iff (getD_eq_of_bound hc h h₁ h₂ "tls" "true" hf) (by decide)

end SameBinding

variable (password : String)

theorem injectPassword_of_variant (hv : resolveVariant m.type m.config = .ok variant) :
    (variant.requirement = .required →
      injectPassword password m = { m with config := m.config.set "password" password }) ∧
    (variant.requirement = .forbidden → injectPassword password m = m) := by
  have hr : resolveCredentialRequirement m.type m.config = .ok variant.requirement := by
    unfold resolveCredentialRequirement
    rw [hv]
    rfl
  constructor <;> intro h <;> rw [injectPassword, hr, h]

@[simp] theorem injectPassword_frame (m : MonitorBody) : (injectPassword password m).type = m.type ∧
      (injectPassword password m).timeoutSeconds = m.timeoutSeconds ∧
      (injectPassword password m).retries = m.retries := by
  unfold injectPassword
  split <;> exact ⟨rfl, rfl, rfl⟩

/-! ## Bodies with equal parts -/

section

variable (splitHostPort : String → Option (String × String)) (queryEscape : String → String)
  (urlError : String → Option String) {m₁ m₂ : MonitorBody} (password : String)

theorem postgresPlan_eq_iff (h : SameBinding m₁ m₂) (ht : m₁.type = .postgres) :
    postgresPlan splitHostPort (injectPassword password m₁) =
        postgresPlan splitHostPort (injectPassword password m₂) ↔
      m₁.config.contains "sslmode" = m₂.config.contains "sslmode" := by
  have hv₁ : resolveVariant m₁.type m₁.config = .ok postgresVariant := by rw [ht]; rfl
  have hv₂ : resolveVariant m₂.type m₂.config = .ok postgresVariant := by rw [← h.type, ht]; rfl
  have hc : credentialedType m₁.type = true := by rw [ht]; rfl
  have hset := getD_eq_of_bound hc h hv₁ hv₂
  have huser := username_eq hc h hv₁ hv₂ (by decide)
  have hdatabase : m₁.config.value "database" = m₂.config.value "database" :=
    hset "database" "" (by decide)
  have hquery : statement (m₁.config.value "query") = statement (m₂.config.value "query") :=
    read_eq (hset "query" "SELECT 1" (by decide)) (by decide +kernel)
  have hssl : sslmodeRead (m₁.config.value "sslmode") = sslmodeRead (m₂.config.value "sslmode") ↔
      m₁.config.contains "sslmode" = m₂.config.contains "sslmode" :=
    read_eq_iff (hset "sslmode" "require" (by decide)) (by decide +kernel)
  rw [(injectPassword_of_variant password hv₁).1 rfl,
    (injectPassword_of_variant password hv₂).1 rfl]
  simp only [postgresPlan, value_set, String.reduceEq, ↓reduceIte, h.target, huser,
    hdatabase, hquery,
    Wire.postgres.injEq, hssl, true_and, and_true]

theorem mysqlPlan_eq_iff (h : SameBinding m₁ m₂) (ht : m₁.type = .mysql) :
    mysqlPlan splitHostPort (injectPassword password m₁) =
        mysqlPlan splitHostPort (injectPassword password m₂) ↔
      m₁.config.contains "tls" = m₂.config.contains "tls" := by
  have hv₁ : resolveVariant m₁.type m₁.config = .ok mysqlVariant := by rw [ht]; rfl
  have hv₂ : resolveVariant m₂.type m₂.config = .ok mysqlVariant := by rw [← h.type, ht]; rfl
  have hc : credentialedType m₁.type = true := by rw [ht]; rfl
  have hset := getD_eq_of_bound hc h hv₁ hv₂
  have huser := username_eq hc h hv₁ hv₂ (by decide)
  have hdatabase : m₁.config.value "database" = m₂.config.value "database" :=
    hset "database" "" (by decide)
  have hquery : statement (m₁.config.value "query") = statement (m₂.config.value "query") :=
    read_eq (hset "query" "SELECT 1" (by decide)) (by decide +kernel)
  have hskip := skipVerify_eq hc h hv₁ hv₂ (by decide)
  rw [(injectPassword_of_variant password hv₁).1 rfl,
    (injectPassword_of_variant password hv₂).1 rfl,
    ← tls_eq_iff hc h hv₁ hv₂ (by decide)]
  simp only [mysqlPlan, mysqlTLSConfig, value_set, String.reduceEq, ↓reduceIte, h.target, h.timeout,
    huser, hdatabase, hquery, hskip, Wire.mysql.injEq]
  cases flagRead (m₁.config.value "tls") <;> cases flagRead (m₂.config.value "tls") <;>
    cases flagRead (m₂.config.value "tls_skip_verify") <;> decide

theorem redisPlan_eq_iff (h : SameBinding m₁ m₂) (ht : m₁.type = .redis) :
    redisPlan splitHostPort (injectPassword password m₁) =
        redisPlan splitHostPort (injectPassword password m₂) ↔
      m₁.config.contains "tls" = m₂.config.contains "tls" := by
  have hv₁ : resolveVariant m₁.type m₁.config = .ok redisVariant := by rw [ht]; rfl
  have hv₂ : resolveVariant m₂.type m₂.config = .ok redisVariant := by rw [← h.type, ht]; rfl
  have hc : credentialedType m₁.type = true := by rw [ht]; rfl
  have huser := username_eq hc h hv₁ hv₂ (by decide)
  have hskip := skipVerify_eq hc h hv₁ hv₂ (by decide)
  rw [(injectPassword_of_variant password hv₁).1 rfl,
    (injectPassword_of_variant password hv₂).1 rfl,
    ← tls_eq_iff hc h hv₁ hv₂ (by decide)]
  simp only [redisPlan, value_set, String.reduceEq, ↓reduceIte, h.target, huser, hskip,
    Wire.redis.injEq]
  cases flagRead (m₁.config.value "tls") <;> cases flagRead (m₂.config.value "tls") <;>
    cases flagRead (m₂.config.value "tls_skip_verify") <;> decide

variable {v₁ v₂ : CredVariant}

theorem promqlPlan_eq_iff (h : SameBinding m₁ m₂) (ht : m₁.type = .promql)
    (h₁ : resolveVariant m₁.type m₁.config = .ok v₁)
    (h₂ : resolveVariant m₂.type m₂.config = .ok v₂) :
    promqlPlan queryEscape (injectPassword password m₁) =
        promqlPlan queryEscape (injectPassword password m₂) ↔
      m₁.config.get? "auth_mode" = some "basic" ∨ blank (m₁.config.value "query") ∨
        basicAuth m₁.config = basicAuth m₂.config := by
  have hc : credentialedType m₁.type = true := by rw [ht]; rfl
  have hkeys := resolveVariant_keys hc h h₁ h₂
  rcases resolveVariant_promql (ht ▸ h₁) with ⟨rfl, hnone⟩ | ⟨rfl, hbasic⟩
  · obtain rfl : v₂ = promqlNoneVariant := by
      rcases resolveVariant_promql ((h.type.symm.trans ht) ▸ h₂) with ⟨rfl, -⟩ | ⟨rfl, -⟩
      · rfl
      · exact absurd hkeys (by decide)
    have hquery : m₁.config.value "query" = m₂.config.value "query" :=
      getD_eq_of_bound hc h h₁ h₂ "query" "" (by decide)
    rw [(injectPassword_of_variant password h₁).2 rfl,
      (injectPassword_of_variant password h₂).2 rfl]
    simp only [promqlPlan, h.target, hquery, hnone]
    by_cases hb : blank (m₂.config.value "query") = true
    · simp [hb]
    · simp [hb]
  · obtain rfl : v₂ = promqlBasicVariant := by
      rcases resolveVariant_promql ((h.type.symm.trans ht) ▸ h₂) with ⟨rfl, -⟩ | ⟨rfl, -⟩
      · exact absurd hkeys (by decide)
      · rfl
    have hquery : m₁.config.value "query" = m₂.config.value "query" :=
      getD_eq_of_bound hc h h₁ h₂ "query" "" (by decide)
    have huser := username_eq hc h h₁ h₂ (by decide)
    rw [(injectPassword_of_variant password h₁).1 rfl,
      (injectPassword_of_variant password h₂).1 rfl]
    simp [promqlPlan, basicAuth, value_set, h.target, hquery, hbasic, huser]

/-- Whether the target alone decides the management URL: it says `https`, or it does not parse. -/
def schemeFixed (target : String) : Bool :=
  hasPrefix (trimSpace target) "https://" || (hasPrefix (trimSpace target) "http://" &&
      (urlError (trimSpace target)).isSome)

theorem https_ne_http (s t : String) : "https://" ++ s ≠ "http://" ++ t := by
  intro h
  have := congrArg (fun u => u.toList[4]?) h
  simp at this

theorem rabbitMgmtURL_eq_iff (target path : String) :
    rabbitMgmtURL splitHostPort urlError target path true =
        rabbitMgmtURL splitHostPort urlError target path false ↔
      schemeFixed urlError target := by
  unfold rabbitMgmtURL schemeFixed
  by_cases hs : hasPrefix (trimSpace target) "https://" = true
  · simp [hs]
  · by_cases hp : hasPrefix (trimSpace target) "http://" = true
    · cases hu : urlError (trimSpace target) <;> simp [hp, hu]
    · simp [hs, hp, https_ne_http]

theorem managementWire_injective (auth : Option (String × String)) (skipVerify : Bool) :
    Function.Injective (managementWire auth skipVerify) := by
  intro a b h
  cases a <;> cases b <;> simp_all [managementWire]

theorem rabbitmqPlan_eq_iff (h : SameBinding m₁ m₂) (ht : m₁.type = .rabbitmq)
    (h₁ : resolveVariant m₁.type m₁.config = .ok v₁)
    (h₂ : resolveVariant m₂.type m₂.config = .ok v₂) :
    rabbitmqPlan splitHostPort urlError (injectPassword password m₁) =
        rabbitmqPlan splitHostPort urlError (injectPassword password m₂) ↔
      m₁.config.get? "mode" = some "amqp" ∨ schemeFixed urlError m₁.target ∨
        m₁.config.contains "tls" = m₂.config.contains "tls" := by
  have hc : credentialedType m₁.type = true := by rw [ht]; rfl
  have hkeys := resolveVariant_keys hc h h₁ h₂
  rcases resolveVariant_rabbitmq (ht ▸ h₁) with ⟨rfl, hamqp₁⟩ | ⟨rfl, hmode₁⟩
  · rcases resolveVariant_rabbitmq ((h.type.symm.trans ht) ▸ h₂) with ⟨rfl, hamqp₂⟩ | ⟨rfl, -⟩
    · rw [(injectPassword_of_variant password h₁).2 rfl,
        (injectPassword_of_variant password h₂).2 rfl]
      have hread {s : Settings} (hs : s.get? "mode" = some "amqp") :
          ¬ lower (s.value "mode") = "management" := by
        rw [value, hs]
        decide +kernel
      simp [rabbitmqPlan, hread hamqp₁, hread hamqp₂, h.target, hamqp₁]
    · exact absurd hkeys (by decide)
  · rcases resolveVariant_rabbitmq ((h.type.symm.trans ht) ▸ h₂) with ⟨rfl, -⟩ | ⟨rfl, hmode₂⟩
    · exact absurd hkeys (by decide)
    have hread {s : Settings} (hs : s.get? "mode" = some "management") :
        lower (s.value "mode") = "management" := by
      rw [value, hs]
      decide +kernel
    have huser := username_eq hc h h₁ h₂ (by decide)
    have hskip := skipVerify_eq hc h h₁ h₂ (by decide)
    have hpath : managementPath (m₁.config.value "path") =
        managementPath (m₂.config.value "path") :=
      read_eq (getD_eq_of_bound hc h h₁ h₂ "path" "/api/overview" (by decide)) (by decide)
    rw [(injectPassword_of_variant password h₁).1 rfl,
      (injectPassword_of_variant password h₂).1 rfl,
      ← tls_eq_iff hc h h₁ h₂ (by decide), hmode₁,
      ← rabbitMgmtURL_eq_iff splitHostPort urlError m₁.target
        (managementPath (m₁.config.value "path"))]
    simp only [rabbitmqPlan, managementPlan, basicAuth, value_set, String.reduceEq, ↓reduceIte,
      hread hmode₁, hread hmode₂, h.target, huser, hskip, hpath,
        (managementWire_injective _ _).eq_iff]
    cases flagRead (m₁.config.value "tls") <;> cases flagRead (m₂.config.value "tls") <;>
      simp [eq_comm]

/-- What two bodies have to agree on besides the digest: whether the setting that chooses the
transport is stated, and the account an unauthenticated `promql` probe sends all the same. -/
def AgreeOutsideDigest (m₁ m₂ : MonitorBody) : Prop :=
  match m₁.type with
  | .postgres => m₁.config.contains "sslmode" = m₂.config.contains "sslmode"
  | .mysql | .redis => m₁.config.contains "tls" = m₂.config.contains "tls"
  | .promql => m₁.config.get? "auth_mode" = some "basic" ∨
      blank (m₁.config.value "query") = true ∨ basicAuth m₁.config = basicAuth m₂.config
  | .rabbitmq => m₁.config.get? "mode" = some "amqp" ∨ schemeFixed urlError m₁.target = true ∨
      m₁.config.contains "tls" = m₂.config.contains "tls"
  | _ => True

theorem resolveVariant_of_parts {m : MonitorBody} {parts : List String}
    (hc : credentialedType m.type) (h : executionDTOParts m = .ok parts) :
    ∃ v, resolveVariant m.type m.config = .ok v := by
  obtain ⟨keys, -, hkeys, -, -⟩ := executionDTOParts_eq_ok h
  rw [executionBindingKeys_of_credentialed hc] at hkeys
  obtain ⟨v, hv, -⟩ := bind_eq_ok.1 hkeys
  exact ⟨v, hv⟩

/-- **Bodies with equal parts are probed alike exactly when they agree outside the digest.** -/
theorem probePlan_eq_iff {parts : List String} (hc : credentialedType m₁.type = true)
    (h₁ : executionDTOParts m₁ = .ok parts) (h₂ : executionDTOParts m₂ = .ok parts) :
    probePlan splitHostPort queryEscape urlError (injectPassword password m₁) =
        probePlan splitHostPort queryEscape urlError (injectPassword password m₂) ↔
      AgreeOutsideDigest urlError m₁ m₂ := by
  have h := executionDTOParts_agree h₁ h₂
  obtain ⟨v₁, hv₁⟩ := resolveVariant_of_parts hc h₁
  obtain ⟨v₂, hv₂⟩ := resolveVariant_of_parts (h.type ▸ hc) h₂
  simp only [probePlan, ProbePlan.mk.injEq, injectPassword_frame, h.timeout, h.retries, and_true,
    credentialedWire, AgreeOutsideDigest, ← h.type]
  cases ht : m₁.type with
  | postgres => exact postgresPlan_eq_iff splitHostPort password h ht
  | mysql => exact mysqlPlan_eq_iff splitHostPort password h ht
  | redis => exact redisPlan_eq_iff splitHostPort password h ht
  | promql => exact promqlPlan_eq_iff queryEscape password h ht hv₁ hv₂
  | rabbitmq => exact rabbitmqPlan_eq_iff splitHostPort urlError password h ht hv₁ hv₂
  | _ =>
    rw [ht] at hc
    exact absurd hc (by decide)

end

def cacheBody : MonitorBody where
  id := "m1"
  projectID := "p1"
  type := .redis
  target := "cache.example"
  region := "eu"
  enabled := true
  intervalSeconds := 60
  timeoutSeconds := 5
  retries := 1
  conditions := []
  executionRevision := 3
  config := .ofList [("username", "probe"), ("tls", "true"), ("tls_skip_verify", "false")]

def without (key : String) (m : MonitorBody) : MonitorBody :=
  { m with config := m.config.eraseWhere (· = key) }

/-- Without `tls_skip_verify` the cache is probed as before. -/
theorem cacheBody_without_skipVerify :
    executionDTOParts (without "tls_skip_verify" cacheBody) = executionDTOParts cacheBody ∧
      probePlan (fun _ => none) id (fun _ => none) (injectPassword "hunter2" cacheBody) =
        probePlan (fun _ => none) id (fun _ => none)
          (injectPassword "hunter2" (without "tls_skip_verify" cacheBody)) := by
  have hparts : executionDTOParts (without "tls_skip_verify" cacheBody) =
      executionDTOParts cacheBody := by decide
  refine ⟨hparts, ?_⟩
  obtain ⟨parts, hok⟩ : ∃ parts, executionDTOParts cacheBody = .ok parts := ⟨_, rfl⟩
  have hagree : AgreeOutsideDigest (fun _ => none) cacheBody
      (without "tls_skip_verify" cacheBody) := by
    show cacheBody.config.contains "tls" =
      (without "tls_skip_verify" cacheBody).config.contains "tls"
    decide +kernel
  exact (probePlan_eq_iff _ _ _ _ (by decide) hok (hparts.trans hok)).2 hagree

/-- **An edited job that still authenticates.** Without `tls` the parts are the same, and the
password is sent in plaintext. -/
theorem cacheBody_without_tls :
    executionDTOParts (without "tls" cacheBody) = executionDTOParts cacheBody ∧
      (executionDTOParts cacheBody).isOk = true ∧
      (probePlan (fun _ => none) id (fun _ => none) (injectPassword "hunter2" cacheBody)).wire =
        .redis "cache.example" "cache.example:6379" (some false) ["AUTH", "probe", "hunter2"] ∧
      (probePlan (fun _ => none) id (fun _ => none)
          (injectPassword "hunter2" (without "tls" cacheBody))).wire =
        .redis "cache.example" "cache.example:6379" none ["AUTH", "probe", "hunter2"] := by
  decide +kernel

end Cerbix.Prober
