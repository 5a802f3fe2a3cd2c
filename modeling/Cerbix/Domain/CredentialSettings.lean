import Cerbix.Domain.CanaryWorkflow
import Cerbix.Domain.Monitor
import Cerbix.Lib.Dict

/-!
# Settings of credentialed monitors

The registry of `internal/domain/credsettings.go`: the settings of a credentialed type, which of
them hold a credential and which are digested, with the value an absent one stands for. A scenario
or a canary workflow declares its credentials by reference keys in the flat configuration
(`internal/domain/syntheticbindings.go`, `canarycanonical.go`); `BindingFamily` holds what the two
differ in.
-/

namespace Cerbix.Domain

open Cerbix.Lib List Text Dict

/-- The settings of a monitor; `Config` in the database. -/
abbrev Settings := Dict String String

variable (s : Settings)

/-- A key that is absent reads as the empty text. -/
def Settings.value (key : String) : String := (s.get? key).getD ""

theorem Settings.value_set (k v j : String) :
    Settings.value (s.set k v) j = if j = k then v else s.value j := by
  unfold Settings.value
  rw [get?_set]
  split <;> rfl

/-! ## The registry -/

/-- Who writes the settings. -/
inductive CredentialSurface
  | file | api | apiUpdate
  deriving DecidableEq, Repr

/-- What a setting is for: the probe itself, a secret, or a reference to one. -/
inductive BindingClass
  | execution | secretValue | secretRef
  deriving DecidableEq, Repr

/-- Whether a monitor has to have a credential or may not. -/
inductive CredentialRequirement
  | required | forbidden
  deriving DecidableEq, Repr

/-- One setting of a schema, with its checks and its default. -/
structure CredField where
  key : String
  binding : BindingClass
  required : Bool := false
  maxLen : Nat := 0
  enum : Option (List String) := none
  enumMsg : String := ""
  boolean : Bool := false
  default : String := ""
  writeDefault : Bool := false
  defIfBlank : Bool := false

/-- The settings of one variant of a type. -/
structure CredVariant where
  fields : List CredField
  requirement : CredentialRequirement
  crossChecks : List (Settings → Except String Unit)

/-- The variants of a type, told apart by the discriminator. -/
structure CredSchema where
  discriminator : String := ""
  discriminatorDefault : String := ""
  missingErr : String := ""
  invalidErr : String := ""
  variants : List (String × CredVariant)

def maxCredFieldLen : Nat := 256
def maxQueryLen : Nat := 1024
def maxPathLen : Nat := 512

def sslModes : List String := ["disable", "require", "verify-ca", "verify-full"]

/-- The settings of an encrypted connection. -/
def tlsFields : List CredField :=
  [{ key := "tls", binding := .execution, boolean := true, default := "true",
     writeDefault := true },
   { key := "tls_skip_verify", binding := .execution, boolean := true, default := "false" }]

/-- The credential slot: a secret or a reference to one. -/
def passwordFields : List CredField :=
  [{ key := "password", binding := .secretValue }, { key := "password_ref", binding := .secretRef }]

def usernameField : CredField :=
  { key := "username", binding := .execution, required := true, maxLen := maxCredFieldLen }

def databaseField : CredField :=
  { key := "database", binding := .execution, required := true, maxLen := maxCredFieldLen }

def queryField : CredField :=
  { key := "query", binding := .execution, maxLen := maxQueryLen, default := "SELECT 1",
    writeDefault := true, defIfBlank := true }

def promqlQueryNotBlank : Except String Unit :=
  refuseIf (s.contains "query" && blank (s.value "query"))
    "settings: promql `query` must not be blank"

/-- Verification is only skipped where there is TLS. -/
def tlsPairCheck : Except String Unit :=
  refuseIf (s.value "tls_skip_verify" = "true" && s.value "tls" = "false")
    "settings: tls_skip_verify requires tls: true"

def postgresVariant : CredVariant where
  requirement := .required
  crossChecks := []
  fields := [usernameField, databaseField,
    { key := "sslmode", binding := .execution, enum := some sslModes, default := "require",
      writeDefault := true,
      enumMsg := "settings: sslmode must be one of disable|require|verify-ca|verify-full" },
    queryField] ++ passwordFields

def mysqlVariant : CredVariant where
  requirement := .required
  crossChecks := [tlsPairCheck]
  fields := [usernameField, databaseField] ++ tlsFields ++ [queryField] ++ passwordFields

def redisVariant : CredVariant where
  requirement := .required
  crossChecks := [tlsPairCheck]
  fields := [{ key := "username", binding := .execution, maxLen := maxCredFieldLen }] ++
    tlsFields ++
    passwordFields

def promqlFields : List CredField :=
  [{ key := "auth_mode", binding := .execution, default := "none" },
   { key := "query", binding := .execution, required := true, maxLen := maxQueryLen }]

def promqlNoneVariant : CredVariant where
  requirement := .forbidden
  crossChecks := [promqlQueryNotBlank]
  fields := promqlFields

def promqlBasicVariant : CredVariant where
  requirement := .required
  crossChecks := [promqlQueryNotBlank]
  fields := promqlFields ++ [usernameField] ++ passwordFields

def modeField : CredField := { key := "mode", binding := .execution, required := true }

def rabbitmqAMQPVariant : CredVariant where
  requirement := .forbidden
  crossChecks := []
  fields := [modeField]

def rabbitmqManagementVariant : CredVariant where
  requirement := .required
  crossChecks := [tlsPairCheck]
  fields := [modeField, usernameField,
    { key := "path", binding := .execution, maxLen := maxPathLen, default := "/api/overview",
      writeDefault := true, defIfBlank := true }] ++ tlsFields ++ passwordFields

/-- The schema of a type, if it has one. -/
def credentialSchemas : MonitorType → Option CredSchema
  | .postgres => some { variants := [("", postgresVariant)] }
  | .mysql => some { variants := [("", mysqlVariant)] }
  | .redis => some { variants := [("", redisVariant)] }
  | .promql => some {
      discriminator := "auth_mode"
      discriminatorDefault := "none"
      invalidErr := "settings: promql `auth_mode` must be `none` or `basic`"
      variants := [("none", promqlNoneVariant), ("basic", promqlBasicVariant)] }
  | .rabbitmq => some {
      discriminator := "mode"
      missingErr := "settings: rabbitmq requires `mode` (amqp|management)"
      invalidErr := "settings: rabbitmq mode must be amqp|management"
      variants := [("amqp", rabbitmqAMQPVariant), ("management", rabbitmqManagementVariant)] }
  | _ => none

variable (typ : MonitorType)

/-- The type has a credential schema. -/
def credentialedType : Bool := (credentialSchemas typ).isSome

/-- The setting that chooses the variant, or its default. -/
def discriminatorValue (schema : CredSchema) (s : Settings) : Except String String :=
  match s.get? schema.discriminator with
  | some value => .ok value
  | none =>
    if schema.discriminatorDefault = "" then .error schema.missingErr
    else .ok schema.discriminatorDefault

/-- The variant that the settings choose. -/
def resolveVariant (s : Settings) : Except String CredVariant := do
  match credentialSchemas typ with
  | none => .error ("settings: monitor type " ++ quote typ.text ++
      " has no credential settings schema")
  | some schema =>
    let value ← if schema.discriminator = "" then .ok "" else discriminatorValue schema s
    match schema.variants.lookup value with
    | none => .error schema.invalidErr
    | some variant => .ok variant

/-- Whether the chosen variant asks for a credential. -/
def resolveCredentialRequirement (s : Settings) : Except String CredentialRequirement := do
  let variant ← resolveVariant typ s
  return variant.requirement

variable {s : Settings} {v : CredVariant}

theorem resolveVariant_promql (h : resolveVariant .promql s = .ok v) :
    (v = promqlNoneVariant ∧ s.get? "auth_mode" ≠ some "basic") ∨
      (v = promqlBasicVariant ∧ s.get? "auth_mode" = some "basic") := by
  obtain ⟨value, hvalue, h⟩ := bind_eq_ok.1 h
  have hread : value = (s.get? "auth_mode").getD "none" := by
    unfold discriminatorValue at hvalue
    cases hg : s.get? "auth_mode" with
    | none => simpa [hg] using hvalue.symm
    | some w => simpa [hg] using hvalue.symm
  by_cases hbasic : value = "basic"
  · subst hbasic
    obtain rfl : promqlBasicVariant = v := by simpa [lookup_cons_eq] using h
    right
    refine ⟨rfl, ?_⟩
    cases hg : s.get? "auth_mode" with
    | none => rw [hg] at hread; exact absurd hread (by decide)
    | some w => rw [hg] at hread; exact congrArg some hread.symm
  · by_cases hnone : value = "none"
    · subst hnone
      obtain rfl : promqlNoneVariant = v := by simpa using h
      left
      refine ⟨rfl, fun hg => ?_⟩
      rw [hg] at hread
      exact absurd hread (by decide)
    · simp [lookup_cons_eq, hbasic, hnone] at h

theorem resolveVariant_rabbitmq (h : resolveVariant .rabbitmq s = .ok v) :
    (v = rabbitmqAMQPVariant ∧ s.get? "mode" = some "amqp") ∨
      (v = rabbitmqManagementVariant ∧ s.get? "mode" = some "management") := by
  obtain ⟨value, hvalue, h⟩ := bind_eq_ok.1 h
  have hread : s.get? "mode" = some value := by
    unfold discriminatorValue at hvalue
    cases hg : s.get? "mode" with
    | none => simp [hg] at hvalue
    | some w => simpa [hg] using hvalue
  by_cases hamqp : value = "amqp"
  · subst hamqp
    obtain rfl : rabbitmqAMQPVariant = v := by simpa using h
    exact .inl ⟨rfl, hread⟩
  · by_cases hmgmt : value = "management"
    · subst hmgmt
      obtain rfl : rabbitmqManagementVariant = v := by simpa [lookup_cons_eq] using h
      exact .inr ⟨rfl, hread⟩
    · simp [lookup_cons_eq, hamqp, hmgmt] at h

/-- All variants of all schemas. -/
def credVariants : List CredVariant :=
  [postgresVariant, mysqlVariant, redisVariant, promqlNoneVariant, promqlBasicVariant,
    rabbitmqAMQPVariant, rabbitmqManagementVariant]

variable {typ : MonitorType} {family : BindingFamily} {binding : String} {f : CredField}
  {surface : CredentialSurface}

theorem mem_credVariants (h : resolveVariant typ s = .ok v) : v ∈ credVariants := by
  cases typ with
  | postgres => cases h; simp [credVariants]
  | mysql => cases h; simp [credVariants]
  | redis => cases h; simp [credVariants]
  | promql => rcases resolveVariant_promql h with ⟨rfl, -⟩ | ⟨rfl, -⟩ <;> simp [credVariants]
  | rabbitmq => rcases resolveVariant_rabbitmq h with ⟨rfl, -⟩ | ⟨rfl, -⟩ <;> simp [credVariants]
  | _ => cases h

theorem secretFields_of_resolveVariant (h : resolveVariant typ s = .ok v)
    (hr : v.requirement = .required) :
    sortStrings ((v.fields.filter fun f => f.binding = .secretValue).map CredField.key) =
      ["password"] := by
  have hall : ∀ v ∈ credVariants, v.requirement = .required →
      sortStrings ((v.fields.filter fun f => f.binding = .secretValue).map CredField.key) =
        ["password"] := by decide +kernel
  exact hall v (mem_credVariants h) hr

/-! ## Bindings declared in the configuration -/

/-- A family of reference keys: the type whose monitors may carry them, how a key begins, and the
settings digested with the references. -/
structure BindingFamily where
  type : MonitorType
  head : String
  documents : List String
  deriving DecidableEq, Repr

def refSuffixText : String := "_ref"

def syntheticScenarioKey : String := "scenario"
def canaryWorkflowKey : String := "workflow"
def canaryRunKeyName : String := "canary_run"

/-- The bindings of a synthetic monitor's scenario. -/
def scenarioFamily : BindingFamily := ⟨.synthetic, "scenario_secret_", [syntheticScenarioKey]⟩

/-- The bindings of a canary's workflow. -/
def canaryFamily : BindingFamily :=
  ⟨.asyncCanary, "canary_secret_", [canaryWorkflowKey, canaryRunKeyName]⟩

namespace BindingFamily

variable (family : BindingFamily)

/-- The binding that a reference key declares. -/
def bindingFromRefKey (key : String) : Option String :=
  if !hasPrefix key family.head || !hasSuffix key refSuffixText then none
  else
    let name := trimSuffix (trimPrefix key family.head) refSuffixText
    if canaryBindingName name then some name else none

/-- The keys of a configuration that declare a binding. -/
def refKeys (config : Settings) : List String :=
  config.keys.filter fun key => (family.bindingFromRefKey key).isSome

/-- The envelope's field for a binding. -/
def bindingField (binding : String) : String := family.head ++ binding

/-- The envelope's field for a reference key. -/
def fieldOfRefKey (key : String) : String :=
  family.bindingField ((family.bindingFromRefKey key).getD "")

/-- One envelope field for each declared binding, for the family's type and no other. -/
def expectedFields (typ : MonitorType) (s : Settings) : List String :=
  if typ ≠ family.type then []
  else
    sortStrings
      (((family.refKeys s).filter fun key => !blank (s.value key)).map family.fieldOfRefKey)

/-- The keys that the execution of a monitor with bindings depends on. -/
def executionKeys (typ : MonitorType) (s : Settings) : List String :=
  if typ ≠ family.type then []
  else if (family.refKeys s).isEmpty then []
  else sortStrings (family.documents ++ family.refKeys s)

variable {family}

theorem mem_refKeys {config : Settings} {key : String} : key ∈ family.refKeys config ↔
    config.contains key ∧ (family.bindingFromRefKey key).isSome := by
  rw [refKeys, mem_filter, Dict.mem_keys]

theorem hasSuffix_of_bindingFromRefKey {key : String} (h : (family.bindingFromRefKey key).isSome) :
    hasSuffix key refSuffixText := by
  unfold bindingFromRefKey at h
  split at h
  · cases h
  rename_i hcond
  simp only [Bool.or_eq_true, Bool.not_eq_true', not_or, Bool.not_eq_false] at hcond
  exact hcond.2

variable {s : Settings} {t : Settings}

theorem refKeys_congr
    (h : ∀ key, (family.bindingFromRefKey key).isSome → s.contains key = t.contains key) :
    family.refKeys s = family.refKeys t :=
  filter_keys_eq_of_contains h

theorem expectedFields_congr {typ : MonitorType} (hkeys : family.refKeys s = family.refKeys t)
    (hvalue : ∀ key ∈ family.refKeys s, s.value key = t.value key) :
    family.expectedFields typ s = family.expectedFields typ t := by
  have hfilter : (family.refKeys s).filter (fun key => !blank (s.value key)) =
      (family.refKeys t).filter (fun key => !blank (t.value key)) := by
    rw [← hkeys]
    exact filter_congr fun key hkey => by rw [hvalue key hkey]
  unfold expectedFields
  rw [hfilter]

theorem expectedFields_perm (hblank : ∀ key ∈ family.refKeys s, blank (s.value key) = false) :
    (family.expectedFields family.type s).Perm ((family.refKeys s).map family.fieldOfRefKey) := by
  have hall : (family.refKeys s).filter (fun key => !blank (s.value key)) = family.refKeys s :=
    filter_eq_self.2 fun key hkey => by rw [hblank key hkey]; rfl
  rw [expectedFields, if_neg (not_not.2 rfl), hall]
  exact sortStrings_perm _

end BindingFamily

def scenarioBindingFromRefKey : String → Option String := scenarioFamily.bindingFromRefKey
def scenarioSecretRefKeys : Settings → List String := scenarioFamily.refKeys
def scenarioExpectedFields : MonitorType → Settings → List String := scenarioFamily.expectedFields
def scenarioExecutionKeys : MonitorType → Settings → List String := scenarioFamily.executionKeys

def canaryBindingFromRefKey : String → Option String := canaryFamily.bindingFromRefKey
def canarySecretRefKeys : Settings → List String := canaryFamily.refKeys
def canaryExpectedFields : MonitorType → Settings → List String := canaryFamily.expectedFields
def canaryExecutionKeys : MonitorType → Settings → List String := canaryFamily.executionKeys

/-- The binding that a field of an envelope is for. -/
def scenarioBindingFromField (field : String) : Option String :=
  if !hasPrefix field scenarioFamily.head then none
  else
    let name := trimPrefix field scenarioFamily.head
    if canaryBindingName name then some name else none

variable {key : String}

theorem BindingFamily.canaryBindingName_of_refKey
    (h : family.bindingFromRefKey key = some binding) : canaryBindingName binding := by
  unfold bindingFromRefKey at h
  split at h
  · cases h
  dsimp only at h
  split at h
  · next hname => exact Option.some.inj h ▸ hname
  · cases h

open BindingFamily

theorem scenarioBindingFromField_fieldOfRefKey
    (h : scenarioFamily.bindingFromRefKey key = some binding) :
    scenarioBindingFromField (scenarioFamily.fieldOfRefKey key) = some binding := by
  have hfield : scenarioFamily.fieldOfRefKey key = scenarioFamily.head ++ binding := by
    rw [fieldOfRefKey, h]
    rfl
  unfold scenarioBindingFromField
  rw [hfield, hasPrefix_append, trimPrefix_append]
  simp [canaryBindingName_of_refKey h]

theorem scenarioBindingFromField_of_expected {f : String}
    (h : f ∈ scenarioExpectedFields typ s) : (scenarioBindingFromField f).isSome := by
  unfold scenarioExpectedFields expectedFields at h
  split at h
  · cases h
  rw [mem_sortStrings] at h
  obtain ⟨key, hkey, rfl⟩ := mem_map.1 h
  obtain ⟨binding, hb⟩ := Option.isSome_iff_exists.1 (mem_refKeys.1 (mem_filter.1 hkey).1).2
  rw [scenarioBindingFromField_fieldOfRefKey hb]
  rfl

/-! ## What the schema expects -/

/-- The secrets of the chosen variant, where it requires a credential. -/
def credentialExpectedFields (typ : MonitorType) (s : Settings) : Except String (List String) := do
  let variant ← resolveVariant typ s
  if variant.requirement ≠ .required then .ok []
  else .ok (sortStrings
    ((variant.fields.filter fun f => f.binding = .secretValue).map CredField.key))

/-- The fields that an envelope for the monitor has to carry. -/
def expectedCredentialFields (typ : MonitorType) (s : Settings) : Except String (List String) :=
  let declared := sortStrings (scenarioExpectedFields typ s ++ canaryExpectedFields typ s)
  if !credentialedType typ then
    if !declared.isEmpty then .ok declared
    else do
      let _ ← resolveVariant typ s
      return []
  else do
    let typed ← credentialExpectedFields typ s
    if declared.isEmpty then return typed
    else return sortStrings (typed ++ declared)

/-- The settings that the digest of the body covers. -/
def executionBindingKeys (typ : MonitorType) (s : Settings) : Except String (List String) :=
  let declared := scenarioExecutionKeys typ s ++ canaryExecutionKeys typ s
  if !credentialedType typ then
    if !declared.isEmpty then .ok declared
    else do
      let _ ← resolveVariant typ s
      return []
  else do
    let variant ← resolveVariant typ s
    return sortStrings
      (declared ++ (variant.fields.filter fun f => f.binding = .execution).map CredField.key)

/-- A setting or its default; a key outside the schema is an error. -/
def schemaSettingValue (variant : CredVariant) (s : Settings) (key : String) :
    Except String String :=
  match s.get? key with
  | some v => .ok v
  | none =>
    match variant.fields.find? fun f => f.key = key with
    | some f => .ok f.default
    | none => .error ("settings: key " ++ quote key ++ " is not part of this schema")

/-- The text under which the digest of the body covers a setting. -/
def canonicalSettingValue (typ : MonitorType) (s : Settings) (key : String) :
    Except String String :=
  if key = syntheticScenarioKey || (scenarioBindingFromRefKey key).isSome ||
      key = canaryWorkflowKey || key = canaryRunKeyName || (canaryBindingFromRefKey key).isSome then
    .ok (s.value key)
  else do
    let variant ← resolveVariant typ s
    schemaSettingValue variant s key

theorem expectedCredentialFields_of_schema (h : resolveVariant typ s = .ok v)
    (hr : v.requirement = .required) : expectedCredentialFields typ s = .ok ["password"] := by
  have hsecret := secretFields_of_resolveVariant h hr
  have hfields : credentialExpectedFields typ s = .ok ["password"] := by
    rw [credentialExpectedFields, h, ← hsecret]
    show (if v.requirement ≠ .required then _ else _) = _
    rw [if_neg (not_not.2 hr)]
  have hc : credentialedType typ := by cases typ <;> first | rfl | cases h
  have hnone : scenarioExpectedFields typ s = [] ∧ canaryExpectedFields typ s = [] := by
    cases typ <;> first | exact ⟨rfl, rfl⟩ | cases h
  unfold expectedCredentialFields
  simp only [hc, hnone.1, hnone.2, hfields]
  rfl

theorem expectedCredentialFields_of_bindings {fields : List String}
    (hc : credentialedType typ = false) : expectedCredentialFields typ s = .ok fields ↔
      fields = sortStrings (scenarioExpectedFields typ s ++ canaryExpectedFields typ s) ∧
        fields ≠ [] := by
  have hnone : ∀ v, resolveVariant typ s ≠ .ok v := by
    intro v hv
    unfold resolveVariant at hv
    rw [credentialedType, Option.isSome_eq_false_iff, Option.isNone_iff_eq_none] at hc
    rw [hc] at hv
    cases hv
  unfold expectedCredentialFields
  simp only [hc, Bool.not_false, if_true]
  split
  · next hne =>
    rw [Except.ok.injEq, eq_comm]
    refine ⟨fun h => ⟨h, h ▸ by simpa using hne⟩, And.left⟩
  · next hempty =>
    constructor
    · intro h
      obtain ⟨v, hv, -⟩ := bind_eq_ok.1 h
      exact absurd hv (hnone v)
    · rintro ⟨rfl, hne⟩
      exact absurd (by simpa using hempty) hne

theorem mem_executionBindingKeys
    (hfamily : family = scenarioFamily ∨ family = canaryFamily) {keys : List String}
    (h : executionBindingKeys family.type s = .ok keys)
    (hkey : (family.bindingFromRefKey key).isSome) : key ∈ keys ↔ key ∈ family.refKeys s := by
  have hcred : credentialedType family.type = false := by rcases hfamily with rfl | rfl <;> rfl
  have hdeclared : scenarioExecutionKeys family.type s ++ canaryExecutionKeys family.type s =
      family.executionKeys family.type s := by
    rcases hfamily with rfl | rfl
    · exact append_nil _
    · rfl
  have hdoc : key ∉ family.documents := by
    intro hmem
    have hsuffix := hasSuffix_of_bindingFromRefKey hkey
    have hnone : ∀ doc ∈ family.documents, hasSuffix doc refSuffixText = false := by
      rcases hfamily with rfl | rfl <;> decide +kernel
    rw [hnone key hmem] at hsuffix
    cases hsuffix
  unfold executionBindingKeys at h
  simp only [hcred, hdeclared, Bool.not_false, if_true] at h
  split at h
  · next hne =>
    cases h
    unfold executionKeys at hne ⊢
    rw [if_neg (not_not.2 rfl)] at hne ⊢
    by_cases hrefs : (family.refKeys s).isEmpty
    · rw [if_pos hrefs] at hne
      cases hne
    · rw [if_neg hrefs, mem_sortStrings, mem_append, or_iff_right hdoc]
  · obtain ⟨v, hv, -⟩ := bind_eq_ok.1 h
    rcases hfamily with rfl | rfl <;> cases hv

/-- Write the default of a field that is absent, or blank where that counts as absent. -/
def normalizeField (s : Settings) (f : CredField) : Settings :=
  if f.default = "" || !f.writeDefault then s
  else if !s.contains f.key || (f.defIfBlank && blank (s.value f.key)) then
    s.set f.key f.default
  else s

/-- Write the defaults of the chosen variant. -/
def normalizeCredentialSettings (typ : MonitorType) (s : Settings) : Settings :=
  match resolveVariant typ s with
  | .error _ => s
  | .ok variant => variant.fields.foldl normalizeField s

/-- The checks that a field declares. -/
def validateField (f : CredField) (s : Settings) : Except String Unit := do
  refuseIf (f.required && s.value f.key = "") ("settings: `" ++ f.key ++ "` is required")
  if s.contains f.key then
    refuseIf (0 < f.maxLen && f.maxLen < (s.value f.key).utf8ByteSize)
      ("settings: `" ++ f.key ++ "` exceeds " ++ toString f.maxLen ++ " bytes")
    refuseIf (f.enum.any fun allowed => s.value f.key ∉ allowed) f.enumMsg
    refuseIf (f.boolean && s.value f.key ≠ "true" && s.value f.key ≠ "false")
      ("settings: " ++ f.key ++ " must be \"true\" or \"false\"")

/-- What a secret may be called (`secretNamePattern`). -/
def validSecretName : String → Bool :=
  matchesClass (fun c => 'a' ≤ c && c ≤ 'z')
    (fun c => ('a' ≤ c && c ≤ 'z') || isDigit c || c = '-') 62

def secretNamePattern : String := "^[a-z][a-z0-9-]\x7b0,62\x7d$"

/-- `credentialSlot`: which of `password` and `password_ref` a surface takes. -/
def credentialSlot (s : Settings) (surface : CredentialSurface) : Except String Unit := do
  let hasValue := s.contains "password"
  let hasRef := s.contains "password_ref"
  match surface with
  | .file =>
    refuseIf hasValue "settings: inline `password` is forbidden in bundles; use password_ref"
    refuseIf (!hasRef) "settings: `password_ref` is required for this type in a bundle"
  | .api =>
    refuseIf (hasValue = hasRef) "settings: exactly one of `password` or `password_ref` is required"
  | .apiUpdate =>
    refuseIf (hasValue && hasRef)
      "settings: exactly one of `password` or `password_ref` is required"
  refuseIf (hasRef && !validSecretName (s.value "password_ref"))
    ("settings: password_ref must be a secret name matching " ++ secretNamePattern)

/-- Every key is known, every field passes, and so do the cross checks. -/
def validateCredentialSettings (typ : MonitorType) (s : Settings) (surface : CredentialSurface) :
    Except String Unit := do
  let variant ← resolveVariant typ s
  match s.keys.find? fun k => !(variant.fields.any fun f => f.key = k) with
  | some k => .error ("settings: unknown key " ++ quote k ++ " for this monitor type: " ++
      "settings: unknown key for this monitor type")
  | none =>
    variant.fields.forM fun f => validateField f s
    variant.crossChecks.forM fun check => check s
    if variant.requirement = .required then credentialSlot s surface

/-- Write the defaults, then validate. -/
def prepareCredentialSettings (typ : MonitorType) (s : Settings) (surface : CredentialSurface) :
    Except String Settings := do
  let normalized := normalizeCredentialSettings typ s
  validateCredentialSettings typ normalized surface
  return normalized

/-- `CredentialUpdateOmitsSlot`: an update that leaves the stored credential alone. -/
def credentialUpdateOmitsSlot (typ : MonitorType) (s : Settings) : Bool :=
  match resolveCredentialRequirement typ s with
  | .ok .required => !s.contains "password" && !s.contains "password_ref"
  | _ => false

/-! ## The credential slot of prepared settings -/

theorem writeDefault_of_mem (hv : v ∈ credVariants) (hf : f ∈ v.fields) (hw : f.writeDefault) :
    f.key ≠ "password" ∧ hasSuffix f.key refSuffixText = false := by
  have hall : ∀ v ∈ credVariants, ∀ f ∈ v.fields, f.writeDefault →
      f.key ≠ "password" ∧ hasSuffix f.key refSuffixText = false := by decide +kernel
  exact hall v hv f hf hw

theorem refKey_of_mem (hv : v ∈ credVariants) (hf : f ∈ v.fields)
    (hkey : hasSuffix f.key refSuffixText) :
    f.key = "password_ref" ∧ v.requirement = .required := by
  have hall : ∀ v ∈ credVariants, ∀ f ∈ v.fields, hasSuffix f.key refSuffixText →
      f.key = "password_ref" ∧ v.requirement = .required := by decide +kernel
  exact hall v hv f hf hkey

theorem get?_normalizeCredentialSettings (hkey : key = "password" ∨ hasSuffix key refSuffixText) :
    (normalizeCredentialSettings typ s).get? key = s.get? key := by
  unfold normalizeCredentialSettings
  split
  · rfl
  rename_i v hv
  have hwrite : ∀ f ∈ v.fields, f.writeDefault → f.key ≠ key := by
    intro f hf hw heq
    obtain ⟨hpw, href⟩ := writeDefault_of_mem (mem_credVariants hv) hf hw
    rcases hkey with rfl | hkey
    · exact hpw heq
    · rw [heq, hkey] at href
      cases href
  clear hv
  generalize v.fields = fields at hwrite
  induction fields generalizing s with
  | nil => rfl
  | cons f fields ih =>
    rw [foldl_cons, ih fun g hg => hwrite g (mem_cons_of_mem f hg)]
    unfold normalizeField
    split
    · rfl
    rename_i hcond
    simp only [Bool.or_eq_true, Bool.not_eq_true', not_or, Bool.not_eq_false] at hcond
    split
    · rw [get?_set, if_neg]
      exact (hwrite f mem_cons_self hcond.2).symm
    · rfl

/-- What prepared settings hold of the credential: at most one of its two forms, the reference under
an inventory name, and no other key that ends as a reference key does. -/
structure CredentialSlotWF (s : Settings) : Prop where
  only : ∀ key, hasSuffix key refSuffixText = true → s.contains key → key = "password_ref"
  exclusive : s.contains "password" → s.contains "password_ref" → False
  named : s.contains "password_ref" → validSecretName (s.value "password_ref") = true

theorem CredentialSlotWF.named_ne (h : CredentialSlotWF s) : s.get? "password_ref" ≠ some "" := by
  intro hg
  have hvalid := h.named (by rw [Dict.contains, hg]; rfl)
  unfold Settings.value at hvalid
  rw [hg] at hvalid
  revert hvalid
  decide +kernel

theorem credentialSlot_eq_ok (h : credentialSlot s surface = .ok ()) :
    (s.contains "password" → s.contains "password_ref" → False) ∧
      (s.contains "password_ref" → validSecretName (s.value "password_ref")) := by
  unfold credentialSlot at h
  have hname : refuseIf (s.contains "password_ref" && !validSecretName (s.value "password_ref"))
      ("settings: password_ref must be a secret name matching " ++ secretNamePattern) = .ok () →
      s.contains "password_ref" → validSecretName (s.value "password_ref") := by
    intro hok href
    have := refuseIf_eq_ok.1 hok
    rw [href, Bool.true_and, Bool.not_eq_false'] at this
    exact this
  cases surface with
  | file =>
    obtain ⟨⟨⟩, hno, h⟩ := bind_eq_ok.1 h
    obtain ⟨⟨⟩, -, h⟩ := bind_eq_ok.1 h
    refine ⟨fun hv _ => ?_, hname h⟩
    rw [refuseIf_eq_ok.1 hno] at hv
    cases hv
  | api =>
    obtain ⟨⟨⟩, hone, h⟩ := bind_eq_ok.1 h
    refine ⟨fun hv hr => of_decide_eq_false (refuseIf_eq_ok.1 hone) ?_, hname h⟩
    rw [hv, hr]
  | apiUpdate =>
    obtain ⟨⟨⟩, hone, h⟩ := bind_eq_ok.1 h
    refine ⟨fun hv hr => ?_, hname h⟩
    have := refuseIf_eq_ok.1 hone
    rw [hv, hr] at this
    cases this

theorem prepareCredentialSettings_eq_ok {p : Settings}
    (h : prepareCredentialSettings typ s surface = .ok p) :
    p = normalizeCredentialSettings typ s ∧ CredentialSlotWF p := by
  obtain ⟨⟨⟩, hvalid, h⟩ := bind_eq_ok.1 h
  obtain rfl : normalizeCredentialSettings typ s = p := by simpa [pure, Except.pure] using h
  refine ⟨rfl, ?_⟩
  generalize normalizeCredentialSettings typ s = p at hvalid
  obtain ⟨v, hv, hvalid⟩ := bind_eq_ok.1 hvalid
  split at hvalid
  · cases hvalid
  next hknown =>
  have hfield : ∀ key, p.contains key → ∃ f ∈ v.fields, f.key = key := by
    intro key hkey
    have := List.find?_eq_none.1 hknown key (mem_keys.2 hkey)
    simpa using this
  have honly : ∀ key, hasSuffix key refSuffixText → p.contains key →
      key = "password_ref" ∧ v.requirement = .required := by
    intro key hsuffix hkey
    obtain ⟨f, hf, rfl⟩ := hfield key hkey
    exact refKey_of_mem (mem_credVariants hv) hf hsuffix
  obtain ⟨⟨⟩, -, hvalid⟩ := bind_eq_ok.1 hvalid
  obtain ⟨⟨⟩, -, hvalid⟩ := bind_eq_ok.1 hvalid
  have hslot : p.contains "password_ref" → credentialSlot p surface = .ok () := by
    intro href
    rw [if_pos (honly "password_ref" (by decide +kernel) href).2] at hvalid
    exact hvalid
  refine ⟨fun key hsuffix hkey => (honly key hsuffix hkey).1, fun hpw href => ?_, fun href => ?_⟩
  · exact (credentialSlot_eq_ok (hslot href)).1 hpw href
  · exact (credentialSlot_eq_ok (hslot href)).2 href

end Cerbix.Domain
