import Cerbix.Dispatch.Envelope
import Cerbix.Lib.Placeholder

/-!
# The gate of the executors

`ValidateAndMaterialize` (`internal/dispatch/credentials.go`), which every job crosses before a
prober sees it: it checks the carrier, decides from the delivered body whether a credential is
required, compares the envelope's fields with those the schema expects, opens them and injects the
values.

The values of a scenario replace placeholders in its text, one binding after the other
(`replaceInTurn`); `substituteAtOnce` replaces all of them in the text as it was delivered. The two
agree where the text is flat and no value has a brace (`replaceInTurn_eq`).
-/

namespace Cerbix.Dispatch

open Cerbix.Lib Cerbix.Domain List Text

/-! ## Injection -/

def scenarioPlaceholder (binding : String) : String :=
  "\x7b\x7bsecret:" ++ binding ++ "\x7d\x7d"

/-- Write the value for each placeholder; there has to be one. -/
def replaceScenarioBinding (scenario binding value : String) : Option String :=
  if contains scenario (scenarioPlaceholder binding) then
    some (replaceAll scenario (scenarioPlaceholder binding) (Json.escape value))
  else none

/-- Write one opened field into the configuration. -/
def injectField (typ : MonitorType) (config : Settings) (entry : String × String) :
    Except String Settings :=
  if typ = .asyncCanary then .ok (config.set entry.1 entry.2)
  else
    match scenarioBindingFromField entry.1 with
    | none => .ok (config.set entry.1 entry.2)
    | some binding =>
      match replaceScenarioBinding (config.value syntheticScenarioKey) binding entry.2 with
      | none => .error ("dispatch: scenario has no placeholder for binding " ++ quote binding)
      | some next => .ok (config.set syntheticScenarioKey next)

/-- Write the opened fields in the order of Go's map. -/
def injectFields (typ : MonitorType) (order : MapOrder String String) (fields : Dict String String)
    (config : Settings) : Except String Settings :=
  (order.visit fields.entries).foldlM (injectField typ) config

def scenarioBindingsOf (fields : List (String × String)) : List (String × String) :=
  fields.filterMap fun e => (scenarioBindingFromField e.1).map fun binding => (binding, e.2)

def replaceInTurn (scenario : String) (bindings : List (String × String)) : Option String :=
  bindings.foldlM (fun s b => replaceScenarioBinding s b.1 b.2) scenario

variable {typ : MonitorType} {config : Settings} {config' : Settings} {m : MonitorBody}
  {r : CredentialRequirement}

theorem injectField_scenario (htyp : typ ≠ .asyncCanary)
    {entry : String × String} {binding : String}
    (hb : scenarioBindingFromField entry.1 = some binding) :
    injectField typ config entry = .ok config' ↔
      ∃ next, replaceScenarioBinding (config.value syntheticScenarioKey) binding entry.2 =
        some next ∧
        config' = config.set syntheticScenarioKey next := by
  unfold injectField
  rw [if_neg htyp, hb]
  cases h : replaceScenarioBinding (config.value syntheticScenarioKey) binding entry.2 <;>
    simp [h, eq_comm]

theorem injectScenario_from (htyp : typ ≠ .asyncCanary) (config : Settings) :
    ∀ {visited : List (String × String)} {s : String} {config' : Settings},
      (∀ e ∈ visited, (scenarioBindingFromField e.1).isSome) →
      (visited.foldlM (injectField typ) (config.set syntheticScenarioKey s) = .ok config' ↔
        ∃ t, replaceInTurn s (scenarioBindingsOf visited) = some t ∧
          config' = config.set syntheticScenarioKey t)
  | [], s, config', _ => by
    simp [replaceInTurn, scenarioBindingsOf, pure, Except.pure, eq_comm]
  | e :: visited, s, config', hall => by
    obtain ⟨binding, hb⟩ := Option.isSome_iff_exists.1 (hall e mem_cons_self)
    have hrest : ∀ e' ∈ visited, (scenarioBindingFromField e'.1).isSome := fun e' he' =>
      hall e' (mem_cons_of_mem e he')
    have hturn : replaceInTurn s (scenarioBindingsOf (e :: visited)) =
        (replaceScenarioBinding s binding e.2).bind fun next =>
          replaceInTurn next (scenarioBindingsOf visited) := by
      simp [replaceInTurn, scenarioBindingsOf, hb]
    rw [foldlM_cons, bind_eq_ok, hturn]
    simp only [injectField_scenario htyp hb, Settings.value_set, Dict.set_set,
      Option.bind_eq_some_iff]
    constructor
    · rintro ⟨_, ⟨next, hnext, rfl⟩, h⟩
      obtain ⟨t, ht, hc⟩ := (injectScenario_from htyp config hrest).1 h
      exact ⟨t, ⟨next, hnext, ht⟩, hc⟩
    · rintro ⟨t, ⟨next, hnext, ht⟩, hc⟩
      exact ⟨_, ⟨next, hnext, rfl⟩, (injectScenario_from htyp config hrest).2 ⟨t, ht, hc⟩⟩

theorem injectFields_scenario (htyp : typ ≠ .asyncCanary)
    {visited : List (String × String)} (hne : visited ≠ [])
    (hall : ∀ e ∈ visited, (scenarioBindingFromField e.1).isSome) :
    visited.foldlM (injectField typ) config = .ok config' ↔
      ∃ t, replaceInTurn (config.value syntheticScenarioKey) (scenarioBindingsOf visited) = some t ∧
        config' = config.set syntheticScenarioKey t := by
  rw [← injectScenario_from htyp config hall]
  cases visited with
  | nil => exact absurd rfl hne
  | cons e visited =>
    obtain ⟨binding, hb⟩ := Option.isSome_iff_exists.1 (hall e mem_cons_self)
    -- the first step reads the scenario and writes it, so that writing it back before changes
    -- nothing
    have hfirst : injectField typ (config.set syntheticScenarioKey
        (config.value syntheticScenarioKey)) e
        = injectField typ config e := by
      unfold injectField
      rw [if_neg htyp, if_neg htyp, hb]
      simp [Settings.value_set, Dict.set_set]
    rw [foldlM_cons, foldlM_cons, hfirst]

theorem injectFields_plain : ∀ {visited : List (String × String)} {config : Settings},
    (typ = .asyncCanary ∨ ∀ e ∈ visited, scenarioBindingFromField e.1 = none) →
    visited.foldlM (injectField typ) config = .ok (config.setAll visited)
  | [], config, _ => rfl
  | e :: visited, config, h => by
    have hstep : injectField typ config e = .ok (config.set e.1 e.2) := by
      unfold injectField
      rcases h with h | h
      · rw [if_pos h]
      · rw [h e mem_cons_self]
        split <;> rfl
    have hrest : typ = .asyncCanary ∨ ∀ e' ∈ visited, scenarioBindingFromField e'.1 = none :=
      h.imp_right fun h e' he' => h e' (mem_cons_of_mem e he')
    rw [foldlM_cons, hstep]
    exact injectFields_plain hrest

theorem injectFields_named {order : MapOrder String String} {fields : Dict String String}
    (h : typ = .asyncCanary ∨ ∀ f, fields.contains f → scenarioBindingFromField f = none) :
    injectFields typ order fields config = .ok (config.setAll fields.entries) := by
  have hperm := order.perm fields.entries
  have hnames : typ = .asyncCanary ∨
      ∀ e ∈ order.visit fields.entries, scenarioBindingFromField e.1 = none := by
    refine h.imp_right fun h e he => h e.1 ?_
    have hget := Dict.mem_entries.1 (hperm.mem_iff.1 he)
    rw [Dict.contains, hget]
    rfl
  rw [injectFields, injectFields_plain hnames, Dict.setAll_perm config hperm fields.keys_nodup]

/-- A binding's placeholder, and its value as it stands inside a JSON string. -/
def scenarioRule (b : String × String) : Rule :=
  ⟨("secret:" ++ b.1).toList, (Json.escape b.2).toList⟩

/-- Write the bindings' values for their placeholders. `read` says what the elements of the text
stand for. -/
def substitutionRule {α : Type} (read : α → Char) (bindings : List (String × String))
    (xs : List α) :
    Option (Nat × List Char) :=
  substRule (bindings.map scenarioRule) (xs.map read)

/-- Every placeholder of the scenario with its own value. -/
def substituteAtOnce (scenario : String) (bindings : List (String × String)) : String :=
  String.ofList (rewrite (fun c => [c]) (substitutionRule id bindings) 0 scenario.toList)

def injectedExactly (typ : MonitorType) (fields : Dict String String)
    (config : Settings) : Settings :=
  if typ = .synthetic then
    config.set syntheticScenarioKey
      (substituteAtOnce (config.value syntheticScenarioKey) (scenarioBindingsOf fields.entries))
  else config.setAll fields.entries

/-! ## In turn and at once -/

section InTurn

variable {s t : String} {b : String × String} {bs bs' : List (String × String)}
  {fields : Dict String String}

theorem toList_scenarioPlaceholder (binding : String) :
    (scenarioPlaceholder binding).toList = braced ("secret:" ++ binding).toList := by
  simp [scenarioPlaceholder, braced]

theorem toList_substituteAtOnce :
    (substituteAtOnce s bs).toList = substitute (bs.map scenarioRule) s.toList := by
  have hrule : substitutionRule id bs = substRule (bs.map scenarioRule) := by
    funext xs
    rw [substitutionRule, map_id]
  rw [substituteAtOnce, hrule, String.toList_ofList, substitute]

theorem replaceScenarioBinding_eq_some : replaceScenarioBinding s b.1 b.2 = some t ↔
    braced (scenarioRule b).name <:+: s.toList ∧
      t.toList = substitute [scenarioRule b] s.toList := by
  have hplace := toList_scenarioPlaceholder b.1
  have hcontains : contains s (scenarioPlaceholder b.1) ↔
      braced (scenarioRule b).name <:+: s.toList := by
    rw [contains_iff, hplace]
    rfl
  have hreplace : (replaceAll s (scenarioPlaceholder b.1) (Json.escape b.2)).toList =
      substitute [scenarioRule b] s.toList := toList_replaceAll hplace
  unfold replaceScenarioBinding
  rw [← hcontains, ← hreplace, String.toList_inj]
  split
  · next h => simp [h, eq_comm]
  · next h => simp [h]

/-- The bindings that are replaced in turn, as rules in turn. -/
theorem replaceInTurn_eq_some : ∀ {bs : List (String × String)} {s t : String},
    replaceInTurn s bs = some t →
      t.toList = (bs.map scenarioRule).foldl (fun ys r => substitute [r] ys) s.toList
  | [], s, t, h => by
    obtain rfl : s = t := by simpa [replaceInTurn] using h
    rfl
  | b :: bs, s, t, h => by
    obtain ⟨next, hnext, h⟩ := Option.bind_eq_some_iff.1 h
    rw [replaceInTurn_eq_some h, (replaceScenarioBinding_eq_some.1 hnext).2]
    rfl

/-- **In turn or at once**, in whatever order: the same text. -/
theorem replaceInTurn_eq (hflat : flat s.toList) (hplain : PlainRules (bs.map scenarioRule))
    (hperm : bs.Perm bs') (h : replaceInTurn s bs = some t) : t = substituteAtOnce s bs' := by
  rw [← String.toList_inj, toList_substituteAtOnce, replaceInTurn_eq_some h,
    foldl_substitute hplain hflat, substitute_perm hplain (hperm.map scenarioRule)]

/-- A flat text with a placeholder for each binding has one for the next when its turn comes. -/
theorem isSome_replaceInTurn : ∀ {bs : List (String × String)} {s : String},
    PlainRules (bs.map scenarioRule) →
    (∀ b ∈ bs, braced (scenarioRule b).name <:+: s.toList) → (replaceInTurn s bs).isSome
  | [], s, _, _ => rfl
  | b :: bs, s, hplain, hall => by
    have hnext := (@replaceScenarioBinding_eq_some s (String.ofList
      (substitute [scenarioRule b] s.toList)) b).2 ⟨hall b mem_cons_self, String.toList_ofList⟩
    have hturn : replaceInTurn s (b :: bs) = replaceInTurn (String.ofList
        (substitute [scenarioRule b] s.toList)) bs := by
      rw [replaceInTurn, foldlM_cons, hnext]
      rfl
    rw [hturn]
    refine isSome_replaceInTurn hplain.tail fun b' hb' => ?_
    rw [String.toList_ofList]
    have hmem := mem_map_of_mem (f := scenarioRule) hb'
    exact braced_infix_substitute (hplain.plain _ mem_cons_self) (hplain.tail.plain _ hmem).name
      (hplain.name_ne _ hmem) _ (hall b' (mem_cons_of_mem b hb'))

theorem plain_of_bindingName {binding : String} (h : canaryBindingName binding) :
    plain ("secret:" ++ binding).toList := by
  have hbinding : plain binding.toList := by
    refine plain_iff.2 ⟨fun hmem => ?_, fun hmem => ?_⟩ <;>
      · exact absurd (of_matchesClass h hmem) (by decide +kernel)
  rw [String.toList_append, plain_append]
  exact ⟨by decide +kernel, hbinding⟩

theorem plain_scenarioRule {binding value : String} (hname : canaryBindingName binding)
    (hne : value ≠ "") (hvalue : plain value.toList) : (scenarioRule (binding, value)).Plain := by
  constructor <;> dsimp only [scenarioRule]
  · exact plain_of_bindingName hname
  · exact plain_escape hvalue
  · exact escape_ne_nil hne

theorem scenarioBindingFromField_eq_some {field binding : String}
    (h : scenarioBindingFromField field = some binding) :
    field = scenarioFamily.head ++ binding ∧ canaryBindingName binding := by
  unfold scenarioBindingFromField at h
  split at h
  · cases h
  next hhead =>
  dsimp only at h
  split at h
  · next hname =>
    obtain rfl := Option.some.inj h
    exact ⟨(append_trimPrefix (by simpa using hhead)).symm, hname⟩
  · cases h

theorem plainRules_of_fields
    (hfields : ∀ f p, fields.get? f = some p → p ≠ "" ∧ plain p.toList) :
    PlainRules ((scenarioBindingsOf fields.entries).map scenarioRule) := by
  constructor
  · intro r hr
    obtain ⟨b, hb, rfl⟩ := mem_map.1 hr
    obtain ⟨e, he, hbinding⟩ := mem_filterMap.1 hb
    obtain ⟨binding, hname, rfl⟩ := Option.map_eq_some_iff.1 hbinding
    obtain ⟨hne, hplain⟩ := hfields e.1 e.2 (Dict.mem_entries.1 he)
    exact plain_scenarioRule (scenarioBindingFromField_eq_some hname).2 hne hplain
  · have hmap : ((scenarioBindingsOf fields.entries).map scenarioRule).map Rule.name =
        fields.keys.filterMap fun f =>
          (scenarioBindingFromField f).map fun binding => ("secret:" ++ binding).toList := by
      simp only [scenarioBindingsOf, Dict.keys, map_filterMap, filterMap_map, Option.map_map]
      rfl
    rw [hmap]
    refine fields.keys_nodup.filterMap fun f f' name hf hf' => ?_
    obtain ⟨binding, hb, rfl⟩ := Option.map_eq_some_iff.1 hf
    obtain ⟨binding', hb', heq⟩ := Option.map_eq_some_iff.1 hf'
    obtain rfl := (String.append_right_inj _).1 (String.toList_inj.1 heq)
    rw [(scenarioBindingFromField_eq_some hb).1, (scenarioBindingFromField_eq_some hb').1]

theorem scenarioBindingsOf_visit (order : MapOrder String String) :
    (scenarioBindingsOf (order.visit fields.entries)).Perm (scenarioBindingsOf fields.entries) :=
  (order.perm fields.entries).filterMap _

theorem plainRules_of_visit (order : MapOrder String String)
    (hfields : ∀ f p, fields.get? f = some p → p ≠ "" ∧ plain p.toList) :
    PlainRules ((scenarioBindingsOf (order.visit fields.entries)).map scenarioRule) :=
  (plainRules_of_fields hfields).perm ((scenarioBindingsOf_visit order).symm.map scenarioRule)

/-- The opened values, visited in any order, are written at once. -/
theorem replaceInTurn_of_visit (order : MapOrder String String) (hflat : flat s.toList)
    (hfields : ∀ f p, fields.get? f = some p → p ≠ "" ∧ plain p.toList)
    (h : replaceInTurn s (scenarioBindingsOf (order.visit fields.entries)) = some t) :
    t = substituteAtOnce s (scenarioBindingsOf fields.entries) :=
  replaceInTurn_eq hflat (plainRules_of_visit order hfields) (scenarioBindingsOf_visit order) h

end InTurn

/-! ## The gate -/

/-- The monitor with its credentials. -/
structure Materialized where
  monitor : MonitorBody
  usedCredential : Bool
  deriving DecidableEq

/-- The version of envelope that a generation carries. -/
def envelopeForCarrier (carrierGeneration : Int) : Except String Int :=
  if carrierGeneration = protocolV2 then .ok envelopeV1
  else if carrierGeneration = protocolV3 || carrierGeneration = protocolV4 then .ok envelopeV2
  else if carrierGeneration = protocolV1 then
    .error ("dispatch: carrier generation " ++ itoa carrierGeneration ++
      " carries no credential envelope")
  else .error ("dispatch: no envelope generation for carrier " ++ itoa carrierGeneration)

/-- A carrier brings an envelope of its own version. -/
def carrierEnvelopeAdmissible (carrierGeneration : Int) :
    Option CredentialEnvelope → Except String Unit
  | none => .ok ()
  | some e => do
    refuseIf (e.v ≠ envelopeV1 && e.v ≠ envelopeV2)
      ("dispatch: unsupported credential envelope version " ++ itoa e.v)
    refuseIf (carrierGeneration < protocolV2)
      ("dispatch: credential envelope on carrier generation " ++ itoa carrierGeneration)
    let want ← envelopeForCarrier carrierGeneration
    refuseIf (e.v ≠ want) ("dispatch: envelope generation " ++ itoa e.v ++
      " on carrier generation " ++ itoa carrierGeneration ++ ", which carries envelope " ++
      itoa want)

def requireLedgerFields (carrierGeneration : Int) : Bool := protocolV4 ≤ carrierGeneration

def CheckJob.ledgerFieldsMissing (job : CheckJob) : String :=
  if job.jobID = "" then "job_id"
  else if job.issuedAt = none then "issued_at"
  else if job.dueAt = none then "due_at"
  else ""

/-- What the schema of the monitor's type requires; a type without a schema forbids a credential. -/
def schemaRequirement (m : MonitorBody) : Except String CredentialRequirement :=
  if credentialedType m.type then
    (resolveCredentialRequirement m.type m.config).mapError
      ("dispatch: unresolved credential schema: " ++ ·)
  else .ok .forbidden

/-- The requirement with the declared bindings, which only their own type may carry. -/
def gateRequirement (m : MonitorBody) : Except String CredentialRequirement := do
  let resolved ← schemaRequirement m
  refuseIf (!(scenarioSecretRefKeys m.config).isEmpty && m.type ≠ .synthetic)
    ("dispatch: " ++ m.type.text ++ " monitor carries a scenario secret binding")
  refuseIf (!(canarySecretRefKeys m.config).isEmpty && m.type ≠ .asyncCanary)
    ("dispatch: " ++ m.type.text ++ " monitor carries a canary secret binding")
  return if (scenarioSecretRefKeys m.config).isEmpty && (canarySecretRefKeys m.config).isEmpty then
    resolved else .required

/-- A job of the first generation has its password inline. -/
def checkInlineCredential (m : MonitorBody) : Except String Unit := do
  let expected ← (expectedCredentialFields m.type m.config).mapError
    ("dispatch: unresolved credential schema: " ++ ·)
  match expected.find? fun name => m.config.value name = "" with
  | some name => .error ("dispatch: legacy job requires an inline " ++ quote name ++
      " credential")
  | none => .ok ()

def checkField (fields : Dict String Ciphertext) (name : String) : Except String Unit :=
  match fields.get? name with
  | none => .error ("dispatch: envelope is missing the " ++ quote name ++ " field")
  | some c => refuseIf (c = .foreign "") ("dispatch: envelope field " ++ quote name ++
      " is empty")

/-- The envelope has the expected fields and no others. -/
def checkFieldSet (fields : Dict String Ciphertext) (expected : List String) :
    Except String Unit := do
  refuseIf (fields.size ≠ expected.length) ("dispatch: envelope carries " ++
    itoa fields.size ++ " fields, schema expects " ++ itoa expected.length)
  expected.forM (checkField fields)

section Gate

variable (sha256 : Bytes → Bytes) {κ : Type} [DecidableEq κ] (ring : Option (CredentialKeyring κ))
  (vault : Vault κ Bytes String) (order : MapOrder String String)

/-- Open the envelope and write its fields. -/
def materialize (ring : CredentialKeyring κ) (job : CheckJob) (e : CredentialEnvelope) :
    Except String MonitorBody := do
  let fields ← openEnvelope sha256 ring vault job e
  match fields.entries.find? fun entry => entry.2 = "" with
  | some entry => .error ("dispatch: credential field " ++ quote entry.1 ++
      " decrypted to an empty value")
  | none =>
    let config ← injectFields job.monitor.type order fields job.monitor.config
    return { job.monitor with config := config }

/-- A job of the first generation. -/
def legacyJob (job : CheckJob) : Except String Materialized := do
  refuseIf (!(scenarioSecretRefKeys job.monitor.config).isEmpty)
    "dispatch: a scenario secret binding requires a generation-2 carrier"
  refuseIf (!(canarySecretRefKeys job.monitor.config).isEmpty)
    "dispatch: a canary secret binding requires a generation-2 carrier"
  checkInlineCredential job.monitor
  return ⟨job.monitor, false⟩

/-- A job that has to have an envelope. -/
def envelopeJob (job : CheckJob) : Except String Materialized :=
  match job.credentialEnvelope with
  | none => .error "dispatch: credential required by schema but no envelope present"
  | some e => do
    refuseIf (!(scenarioSecretRefKeys job.monitor.config).isEmpty && e.v < envelopeV2)
      "dispatch: a scenario secret binding requires a body-bound envelope"
    refuseIf (!(canarySecretRefKeys job.monitor.config).isEmpty && e.v < envelopeV2)
      "dispatch: a canary secret binding requires a body-bound envelope"
    match ring with
    | none => .error "dispatch: no dispatch key"
    | some ring =>
      let expected ← (expectedCredentialFields job.monitor.type job.monitor.config).mapError
        ("dispatch: unresolved credential schema: " ++ ·)
      checkFieldSet e.fields expected
      let monitor ← materialize sha256 vault order ring job e
      return ⟨monitor, true⟩

/-- `ValidateAndMaterialize`. -/
def validateAndMaterialize (delivered : DeliveredJob) : Except String Materialized := do
  carrierEnvelopeAdmissible delivered.carrierGeneration delivered.job.credentialEnvelope
  refuseIf (requireLedgerFields delivered.carrierGeneration &&
      delivered.job.ledgerFieldsMissing ≠ "")
    ("dispatch: generation-4 job is missing its identity: carrier " ++
      itoa delivered.carrierGeneration ++ ", field " ++ delivered.job.ledgerFieldsMissing)
  let requirement ← gateRequirement delivered.job.monitor
  match requirement with
  | .forbidden =>
    refuseIf delivered.job.credentialEnvelope.isSome
      "dispatch: credential envelope on a schema that forbids one"
    return ⟨delivered.job.monitor, false⟩
  | .required =>
    if delivered.carrierGeneration ≤ protocolV1 then legacyJob delivered.job
    else envelopeJob sha256 ring vault order delivered.job

end Gate

/-! ## What the gate lets through -/

/-- The body asks for a credential. -/
def RequiresCredential (m : MonitorBody) : Prop :=
  schemaRequirement m = .ok .required ∨ scenarioSecretRefKeys m.config ≠ [] ∨
    canarySecretRefKeys m.config ≠ []

/-- The body may not have one. -/
def ForbidsCredential (m : MonitorBody) : Prop :=
  schemaRequirement m = .ok .forbidden ∧ scenarioSecretRefKeys m.config = [] ∧
    canarySecretRefKeys m.config = []

theorem gateRequirement_eq_ok : gateRequirement m = .ok r ↔
      (scenarioSecretRefKeys m.config ≠ [] → m.type = .synthetic) ∧
      (canarySecretRefKeys m.config ≠ [] → m.type = .asyncCanary) ∧
      ∃ resolved, schemaRequirement m = .ok resolved ∧
        r = if scenarioSecretRefKeys m.config = [] ∧ canarySecretRefKeys m.config = [] then resolved
          else .required := by
  unfold gateRequirement
  simp only [bind_eq_ok, refuseIf_eq_ok]
  constructor
  · rintro ⟨resolved, hres, -, hs, -, hc, h⟩
    refine ⟨by simpa using hs, by simpa using hc, resolved, hres, ?_⟩
    simpa [pure, Except.pure] using h.symm
  · rintro ⟨hs, hc, resolved, hres, rfl⟩
    refine ⟨resolved, hres, ⟨⟩, by simpa using hs, ⟨⟩, by simpa using hc, ?_⟩
    simp [pure, Except.pure]

theorem gateRequirement_of_requires
    (hreq : RequiresCredential m) (h : gateRequirement m = .ok r) : r = .required := by
  obtain ⟨-, -, resolved, hres, rfl⟩ := gateRequirement_eq_ok.1 h
  split
  · next hnone =>
    rcases hreq with hreq | hreq | hreq
    · exact Except.ok.inj (hres.symm.trans hreq)
    · exact absurd hnone.1 hreq
    · exact absurd hnone.2 hreq
  · rfl

theorem checkFieldSet_eq_ok {fields : Dict String Ciphertext} {expected : List String} {u : Unit} :
    checkFieldSet fields expected = .ok u ↔ fields.size = expected.length ∧
      ∀ name ∈ expected, ∃ c, fields.get? name = some c ∧ c ≠ .foreign "" := by
  have hfield (name : String) : checkField fields name = .ok ⟨⟩ ↔
      ∃ c, fields.get? name = some c ∧ c ≠ .foreign "" := by
    unfold checkField
    cases fields.get? name <;> simp [refuseIf_eq_ok]
  unfold checkFieldSet
  rw [bind_eq_ok]
  simp only [refuseIf_eq_ok]
  rw [forM_eq_ok]
  simp [hfield]

section Accepted

variable {sha256 : Bytes → Bytes} {κ : Type} [DecidableEq κ] {ring : Option (CredentialKeyring κ)}
  {vault : Vault κ Bytes String} {order : MapOrder String String} {job : CheckJob}
  {e : CredentialEnvelope} {M : Materialized} {carrierGeneration : Int}

theorem materialize_eq_ok {ring : CredentialKeyring κ}
    {m : MonitorBody} : materialize sha256 vault order ring job e = .ok m ↔
      ∃ fields config, openEnvelope sha256 ring vault job e = .ok fields ∧
        (∀ f p, fields.get? f = some p → p ≠ "") ∧
        injectFields job.monitor.type order fields job.monitor.config = .ok config ∧
        m = { job.monitor with config := config } := by
  unfold materialize
  rw [bind_eq_ok]
  refine exists_congr fun fields => ?_
  have hempty : (fields.entries.find? fun entry => entry.2 = "") = none ↔
      ∀ f p, fields.get? f = some p → p ≠ "" := by
    simp [Dict.mem_entries]
  cases hfind : fields.entries.find? fun entry => entry.2 = "" with
  | some entry =>
    have hnot : ¬ ∀ f p, fields.get? f = some p → p ≠ "" := by rw [← hempty, hfind]; simp
    constructor
    · rintro ⟨-, h⟩
      cases h
    · rintro ⟨config, -, hplain, -⟩
      exact absurd hplain hnot
  | none =>
    have hplain := hempty.1 hfind
    rw [bind_eq_ok]
    constructor
    · rintro ⟨hopen, config, hinject, h⟩
      exact ⟨config, hopen, hplain, hinject, by simpa [pure, Except.pure] using h.symm⟩
    · rintro ⟨config, hopen, -, hinject, rfl⟩
      exact ⟨hopen, config, hinject, rfl⟩

/-- What the gate has checked when it accepts a job. -/
structure Accepted (sha256 : Bytes → Bytes) (ring : Option (CredentialKeyring κ))
    (vault : Vault κ Bytes String) (order : MapOrder String String) (job : CheckJob)
    (e : CredentialEnvelope) (keys : CredentialKeyring κ) (names : List String)
    (fields : Dict String String) (config : Settings) : Prop where
  envelope : job.credentialEnvelope = some e
  keyring : ring = some keys
  scenario : scenarioSecretRefKeys job.monitor.config ≠ [] → envelopeV2 ≤ e.v
  canary : canarySecretRefKeys job.monitor.config ≠ [] → envelopeV2 ≤ e.v
  expected : expectedCredentialFields job.monitor.type job.monitor.config = .ok names
  fieldSet : checkFieldSet e.fields names = .ok ()
  opened : openEnvelope sha256 keys vault job e = .ok fields
  plain : ∀ f p, fields.get? f = some p → p ≠ ""
  injected : injectFields job.monitor.type order fields job.monitor.config = .ok config

theorem envelopeJob_eq_ok : envelopeJob sha256 ring vault order job = .ok M ↔
      ∃ e keys names fields config,
        Accepted sha256 ring vault order job e keys names fields config ∧
          M = ⟨{ job.monitor with config := config }, true⟩ := by
  unfold envelopeJob
  constructor
  · intro h
    cases henv : job.credentialEnvelope with
    | none => simp [henv] at h
    | some e =>
      simp only [henv] at h
      obtain ⟨_, hscenario, h⟩ := bind_eq_ok.1 h
      obtain ⟨_, hcanary, h⟩ := bind_eq_ok.1 h
      cases ring with
      | none => cases h
      | some keys =>
        obtain ⟨names, hnames, h⟩ := bind_eq_ok.1 h
        obtain ⟨_, hset, h⟩ := bind_eq_ok.1 h
        obtain ⟨m, hm, h⟩ := bind_eq_ok.1 h
        obtain ⟨fields, config, hopen, hplain, hinject, rfl⟩ := materialize_eq_ok.1 hm
        refine ⟨e, keys, names, fields, config, ⟨henv, rfl, ?_, ?_, mapError_eq_ok.1 hnames, hset,
          hopen, hplain, hinject⟩, by simpa [pure, Except.pure] using h.symm⟩
        · simpa using refuseIf_eq_ok.1 hscenario
        · simpa using refuseIf_eq_ok.1 hcanary
  · rintro ⟨e, keys, names, fields, config, h, rfl⟩
    have hscenario : (!(scenarioSecretRefKeys job.monitor.config).isEmpty &&
        e.v < envelopeV2 : Bool) =
        false := by simpa using h.scenario
    have hcanary : (!(canarySecretRefKeys job.monitor.config).isEmpty && e.v < envelopeV2 : Bool) =
        false := by simpa using h.canary
    have hm := materialize_eq_ok.2 ⟨fields, config, h.opened, h.plain, h.injected, rfl⟩
    rw [h.envelope, h.keyring]
    simp only [refuseIf_of_false hscenario, refuseIf_of_false hcanary,
      mapError_eq_ok.2 h.expected, hm]
    show (checkFieldSet e.fields names).bind _ = _
    rw [h.fieldSet]
    rfl

theorem carrierEnvelopeAdmissible_eq_ok {u : Unit} :
    carrierEnvelopeAdmissible carrierGeneration (some e) = .ok u ↔
      (e.v = envelopeV1 ∨ e.v = envelopeV2) ∧ protocolV2 ≤ carrierGeneration ∧
        envelopeForCarrier carrierGeneration = .ok e.v := by
  unfold carrierEnvelopeAdmissible
  simp only [bind_eq_ok, refuseIf_eq_ok, Bool.and_eq_false_iff, decide_eq_false_iff_not, not_not,
    not_lt, exists_const]
  constructor
  · rintro ⟨hversion, hcarrier, want, hwant, rfl⟩
    exact ⟨hversion, hcarrier, hwant⟩
  · rintro ⟨hversion, hcarrier, hwant⟩
    exact ⟨hversion, hcarrier, e.v, hwant, rfl⟩

theorem envelopeForCarrier_bound {version : Int}
    (hgen : protocolV3 ≤ carrierGeneration)
    (h : envelopeForCarrier carrierGeneration = .ok version) :
    version = envelopeV2 := by
  unfold envelopeForCarrier at h
  split at h
  · next heq =>
    rw [heq] at hgen
    exact absurd hgen (by decide)
  split at h
  · exact (Except.ok.inj h).symm
  split at h <;> cases h

/-- **What the gate lets through**, by the three ways through it. -/
theorem validateAndMaterialize_eq_ok {delivered : DeliveredJob} :
    validateAndMaterialize sha256 ring vault order delivered = .ok M ↔
      carrierEnvelopeAdmissible delivered.carrierGeneration delivered.job.credentialEnvelope =
        .ok () ∧
      (requireLedgerFields delivered.carrierGeneration → delivered.job.ledgerFieldsMissing = "") ∧
      ((gateRequirement delivered.job.monitor = .ok .forbidden ∧
          delivered.job.credentialEnvelope = none ∧ M = ⟨delivered.job.monitor, false⟩) ∨
        (gateRequirement delivered.job.monitor = .ok .required ∧
          delivered.carrierGeneration ≤ protocolV1 ∧ legacyJob delivered.job = .ok M) ∨
        (gateRequirement delivered.job.monitor = .ok .required ∧
          protocolV1 < delivered.carrierGeneration ∧
          envelopeJob sha256 ring vault order delivered.job = .ok M)) := by
  unfold validateAndMaterialize
  rw [bind_eq_ok]
  constructor
  · rintro ⟨⟨⟩, hadmissible, h⟩
    obtain ⟨_, hledger, h⟩ := bind_eq_ok.1 h
    obtain ⟨r, hr, h⟩ := bind_eq_ok.1 h
    refine ⟨hadmissible, fun hreq => ?_, ?_⟩
    · have hmissing := refuseIf_eq_ok.1 hledger
      rw [hreq] at hmissing
      simpa using hmissing
    · cases r with
      | forbidden =>
        obtain ⟨_, hnone, h⟩ := bind_eq_ok.1 h
        refine .inl ⟨hr, ?_, by simpa [pure, Except.pure] using h.symm⟩
        simpa using refuseIf_eq_ok.1 hnone
      | required =>
        dsimp only at h
        split at h
        · next hle => exact .inr (.inl ⟨hr, hle, h⟩)
        · next hlt => exact .inr (.inr ⟨hr, not_le.1 hlt, h⟩)
  · rintro ⟨hadmissible, hledger, hways⟩
    have hledger' : (requireLedgerFields delivered.carrierGeneration &&
        delivered.job.ledgerFieldsMissing ≠ "" : Bool) = false := by
      by_cases hreq : requireLedgerFields delivered.carrierGeneration
      · simp [hledger hreq]
      · simp [hreq]
    refine ⟨(), hadmissible, bind_eq_ok.2 ⟨(), refuseIf_of_false hledger', bind_eq_ok.2 ?_⟩⟩
    rcases hways with ⟨hr, hnone, rfl⟩ | ⟨hr, hle, h⟩ | ⟨hr, hlt, h⟩
    · refine ⟨.forbidden, hr, bind_eq_ok.2 ⟨(), refuseIf_of_false ?_, rfl⟩⟩
      rw [hnone]
      rfl
    · exact ⟨.required, hr, by dsimp only; rw [if_pos hle]; exact h⟩
    · exact ⟨.required, hr, by dsimp only; rw [if_neg (not_le.2 hlt)]; exact h⟩

end Accepted

end Cerbix.Dispatch
