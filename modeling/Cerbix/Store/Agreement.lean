import Cerbix.Store.MaterializeRow
import Mathlib.Data.List.Dedup

/-!
# Core and the executors agree on a job

For a row written through the validated paths (`Validated`), materialized and delivered as it is,
`agreement_iff` says when the gate accepts the job and yields its monitor with the credentials core
resolved and nothing else changed. In a scenario a placeholder may be written with escapes
(`substituteParsed`), and a value may look like one; the theorem asks that neither happens
(`PlainRow`). `sealed_accepted_iff` is the gate on what core sealed, for any settings.
-/

namespace Cerbix.Store

open Cerbix.Lib Cerbix.Domain Cerbix.Dispatch List Except Option

/-- What the validated write paths leave in a row: a credentialed type's settings pass some
surface's validation, and bindings are declared by their own type only. -/
structure Validated (row : ExecutionRow) : Prop where
  settings : credentialedType row.monitor.type → ∃ surface,
    validateCredentialSettings row.monitor.type row.stored surface = .ok ()
  scenario : scenarioSecretRefKeys row.stored ≠ [] → row.monitor.type = .synthetic
  canary : canarySecretRefKeys row.stored ≠ [] → row.monitor.type = .asyncCanary

/-- Replace the placeholders that the scenario has once its JSON strings are read. -/
def substituteParsed (scenario : String) (bindings : List (String × String)) : String :=
  String.ofList (Text.rewrite Json.Glyph.raw (substitutionRule Json.Glyph.char bindings) 0
    (Json.glyphs scenario.toList))

/-- The configuration with the resolved credentials and nothing else changed. -/
def withCredentials (typ : MonitorType) (fields : Dict String String)
    (config : Settings) : Settings :=
  if typ = .synthetic ∧ fields.size ≠ 0 then
    config.set syntheticScenarioKey
      (substituteParsed (config.value syntheticScenarioKey) (scenarioBindingsOf fields.entries))
  else config.setAll fields.entries

/-- The characters that placeholders are written with. -/
def placeholderChar (c : Char) : Bool :=
  ('a' ≤ c && c ≤ 'z') || Text.isDigit c || c ∈ "_-:\x7b\x7d".toList

/-- The plaintext of a secret that a setting of the row refers to. -/
def BoundSecret (cipher : Option Cipher) (row : ExecutionRow) (p : String) : Prop :=
  ∃ c ∈ cipher, ∃ key, ∃ ref ∈ row.bound.get? key,
    c.decryptBytes ref.ciphertext row.monitor.projectID ref.secretID = some p

/-- A scenario that has a placeholder for each declared binding, none of them nested in another or
written with escapes, and no brace in a secret. -/
structure PlainRow (cipher : Option Cipher) (row : ExecutionRow) : Prop where
  flat : Text.flat (row.monitor.config.value syntheticScenarioKey).toList
  escapes : ∀ g ∈ Json.glyphs (row.monitor.config.value syntheticScenarioKey).toList,
    Text.Inert placeholderChar g
  used : ∀ key ∈ declaredRefKeys scenarioFamily row, ∀ b ∈ scenarioFamily.bindingFromRefKey key,
    Text.contains (row.monitor.config.value syntheticScenarioKey) (scenarioPlaceholder b)
  plain : ∀ p, BoundSecret cipher row p → Text.plain p.toList

theorem carrierFor_window {regionGeneration : Int} {hasEnvelope hasWindow : Bool}
    {typ : MonitorType}
    (h : protocolV4 ≤ carrierFor regionGeneration hasEnvelope hasWindow typ) : hasWindow := by
  unfold carrierFor at h
  dsimp only at h
  generalize (if typ = .asyncCanary && protocolV3 < regionGeneration then protocolV3
    else regionGeneration : Int) = g at h
  split at h
  · next hcond => exact (Bool.and_eq_true_iff.1 hcond).1
  split at h
  · exact absurd h (by decide)
  split at h
  · exact absurd h (by decide)
  next hg =>
  split at h
  · exact absurd h (by decide)
  · exact absurd (lt_of_lt_of_le (by decide) h) hg

theorem envelopeForCarrier_eq_ok {carrierGeneration version : Int}
    (h : envelopeForCarrier carrierGeneration = .ok version) :
    protocolV2 ≤ carrierGeneration ∧ (version = envelopeV1 ∨ version = envelopeV2) := by
  unfold envelopeForCarrier at h
  split at h
  · next heq => exact ⟨heq.ge, .inl (ok.inj h).symm⟩
  split at h
  · next heq =>
    refine ⟨?_, .inr (ok.inj h).symm⟩
    rcases (Bool.or_eq_true_iff.1 heq) with heq | heq <;>
      · rw [of_decide_eq_true heq]
        decide
  split at h <;> cases h

variable {row : ExecutionRow}

theorem ledgerFields_of_stampJob {unix generation : Int} {envelope : Option CredentialEnvelope}
    (hwindow : protocolV4 ≤ generation → row.dueAt.isSome) (h : requireLedgerFields generation) :
    (stampJob { plainJob row unix with credentialEnvelope := envelope }
      generation).job.ledgerFieldsMissing = "" := by
  have hgen : protocolV4 ≤ generation := by simpa [requireLedgerFields] using h
  have hdue : row.dueAt ≠ none := by
    rw [← isSome_iff_ne_none]
    exact hwindow hgen
  simp [CheckJob.ledgerFieldsMissing, stampJob, withCarrier, plainJob, row.identified,
    not_lt.2 hgen,
    hdue]

/-! ## The requirement of a validated row -/

theorem resolveVariant_jobMonitor (row : ExecutionRow) (unix : Int) (typ : MonitorType) :
    resolveVariant typ (jobMonitor row unix).config = resolveVariant typ row.stored := by
  have hmode : (jobMonitor row unix).config.get? "mode" = row.stored.get? "mode" :=
    jobMonitor_get? row unix (by decide) (by decide) (by decide)
  have hauth : (jobMonitor row unix).config.get? "auth_mode" = row.stored.get? "auth_mode" :=
    jobMonitor_get? row unix (by decide) (by decide) (by decide)
  cases typ <;> first | rfl | simp [resolveVariant, credentialSchemas,
    discriminatorValue, hmode, hauth]

theorem Validated.variant (hrow : Validated row) (hcred : credentialedType row.monitor.type) :
    ∃ v, resolveVariant row.monitor.type row.stored = .ok v ∧
      (∀ key, row.stored.contains key → ∃ f ∈ v.fields, f.key = key) := by
  obtain ⟨surface, hvalid⟩ := hrow.settings hcred
  obtain ⟨v, hv, hvalid⟩ := bind_eq_ok.1 hvalid
  refine ⟨v, hv, fun key hkey => ?_⟩
  split at hvalid
  · cases hvalid
  next hknown =>
  have := List.find?_eq_none.1 hknown key (Dict.mem_keys.2 hkey)
  simpa using this

theorem Validated.noCredential (hrow : Validated row) (hcred : credentialedType row.monitor.type)
    {v : CredVariant} (hv : resolveVariant row.monitor.type row.stored = .ok v)
    (hr : v.requirement = .forbidden) :
    row.stored.value "password" = "" ∧ row.stored.value "password_ref" = "" := by
  obtain ⟨v', hv', hknown⟩ := hrow.variant hcred
  obtain rfl := ok.inj (hv.symm.trans hv')
  have hfields : ∀ f ∈ v.fields, f.key ≠ "password" ∧ f.key ≠ "password_ref" := by
    cases htype : row.monitor.type with
    | postgres => rw [htype] at hv; cases hv; cases hr
    | mysql => rw [htype] at hv; cases hv; cases hr
    | redis => rw [htype] at hv; cases hv; cases hr
    | promql =>
      rw [htype] at hv
      rcases resolveVariant_promql hv with ⟨rfl, -⟩ | ⟨rfl, -⟩
      · decide
      · cases hr
    | rabbitmq =>
      rw [htype] at hv
      rcases resolveVariant_rabbitmq hv with ⟨rfl, -⟩ | ⟨rfl, -⟩
      · decide
      · cases hr
    | _ => rw [htype] at hv; cases hv
  have hvalue : ∀ key, (∀ f ∈ v.fields, f.key ≠ key) → row.stored.value key = "" := by
    intro key hkey
    cases hget : row.stored.get? key with
    | none => rw [Settings.value, hget]; rfl
    | some w =>
      obtain ⟨f, hf, rfl⟩ := hknown key (by rw [Dict.contains, hget]; rfl)
      exact absurd rfl (hkey f hf)
  exact ⟨hvalue _ fun f hf => (hfields f hf).1, hvalue _ fun f hf => (hfields f hf).2⟩

theorem Validated.declaredRefKeys_eq (hrow : Validated row) {family : BindingFamily}
    (hfamily : family = scenarioFamily ∨ family = canaryFamily) :
    declaredRefKeys family row = family.refKeys row.stored := by
  unfold declaredRefKeys
  split
  · rfl
  · next hne =>
    by_contra hrefs
    rcases hfamily with rfl | rfl
    · exact hne (hrow.scenario fun h => hrefs h.symm)
    · exact hne (hrow.canary fun h => hrefs h.symm)

theorem Validated.gateRequirement (hrow : Validated row) (unix : Int)
    {resolved : CredentialRequirement}
    (hres : schemaRequirement (jobMonitor row unix) = .ok resolved) :
    gateRequirement (jobMonitor row unix) = .ok
      (if declaresBindings row then .required else resolved) := by
  have hs : scenarioSecretRefKeys (jobMonitor row unix).config =
      declaredRefKeys scenarioFamily row :=
    (jobMonitor_refKeys row unix _).trans (hrow.declaredRefKeys_eq (.inl rfl)).symm
  have hc : canarySecretRefKeys (jobMonitor row unix).config = declaredRefKeys canaryFamily row :=
    (jobMonitor_refKeys row unix _).trans (hrow.declaredRefKeys_eq (.inr rfl)).symm
  refine gateRequirement_eq_ok.2 ⟨?_, ?_, resolved, hres, ?_⟩
  · rw [hs, hrow.declaredRefKeys_eq (.inl rfl), jobMonitor_type]
    exact hrow.scenario
  · rw [hc, hrow.declaredRefKeys_eq (.inr rfl), jobMonitor_type]
    exact hrow.canary
  · rw [hs, hc, declaresBindings]
    by_cases h₁ : declaredRefKeys scenarioFamily row = [] <;>
      by_cases h₂ : declaredRefKeys canaryFamily row = [] <;> simp [h₂]

theorem Validated.schemaRequirement (hrow : Validated row) (unix : Int) :
    (credentialedType row.monitor.type = false ∧
        schemaRequirement (jobMonitor row unix) = .ok .forbidden) ∨
      (credentialedType row.monitor.type ∧ ∃ v, resolveVariant row.monitor.type row.stored = .ok v ∧
          schemaRequirement (jobMonitor row unix) = .ok v.requirement) := by
  unfold Dispatch.schemaRequirement
  rw [jobMonitor_type]
  by_cases hcred : credentialedType row.monitor.type
  · obtain ⟨v, hv, -⟩ := hrow.variant hcred
    refine .inr ⟨hcred, v, hv, ?_⟩
    rw [if_pos hcred, resolveCredentialRequirement, resolveVariant_jobMonitor, hv]
    rfl
  · exact .inl ⟨by simpa using hcred, by rw [if_neg hcred]⟩

section

variable {cipher : Option Cipher} {row : ExecutionRow} {fields : Dict String String}

def declaredFields (row : ExecutionRow) : List String :=
  (declaredRefKeys scenarioFamily row).map scenarioFamily.fieldOfRefKey ++
    (declaredRefKeys canaryFamily row).map canaryFamily.fieldOfRefKey

theorem declaredFields_eq_nil_iff : declaredFields row = [] ↔ declaresBindings row = false := by
  simp [declaredFields, declaresBindings]

theorem declaredFields_eq_nil (hcred : credentialedType row.monitor.type) :
    declaredFields row = [] := by
  have hne : ∀ family, family = scenarioFamily ∨ family = canaryFamily →
      row.monitor.type ≠ family.type := by
    rintro family (rfl | rfl) htype <;>
      · rw [htype] at hcred
        exact absurd hcred (by decide)
  unfold declaredFields declaredRefKeys
  rw [if_neg (hne _ (.inl rfl)), if_neg (hne _ (.inr rfl))]
  rfl

theorem resolveFields_of_credentialed (hcred : credentialedType row.monitor.type)
    (h : resolveFields cipher row = .ok fields) :
    (fields = .empty ∧ row.stored.value "password" = "" ∧ row.stored.value "password_ref" = "") ∨
      ∃ plain, fields = Dict.empty.set "password" plain ∧
        (row.stored.value "password" ≠ "" ∨ row.stored.value "password_ref" ≠ "") := by
  have hnone := declaredFields_eq_nil hcred
  simp only [declaredFields, append_eq_nil_iff, map_eq_nil_iff] at hnone
  unfold resolveFields at h
  rw [hnone.1, hnone.2] at h
  change resolvePassword cipher row .empty = .ok fields at h
  unfold resolvePassword at h
  simp only [hcred, Bool.and_true, decide_eq_true_eq] at h
  split at h
  · next href =>
    obtain ⟨plain, -, h⟩ := bind_eq_ok.1 h
    exact .inr ⟨plain, by simpa [pure, Except.pure] using h.symm, .inr href⟩
  next href =>
  split at h
  · next hvalue =>
    split at h
    · cases h
    split at h
    · cases h
    next plain _ => exact .inr ⟨plain, (Except.ok.inj h).symm, .inl hvalue⟩
  · next hvalue =>
    exact .inl ⟨(Except.ok.inj h).symm, not_not.1 hvalue, not_not.1 href⟩

theorem contains_declaredFields (hcred : credentialedType row.monitor.type = false)
    (h : resolveFields cipher row = .ok fields) (f : String) :
    fields.contains f ↔ f ∈ declaredFields row := by
  rw [contains_resolveFields h hcred 0, mem_append, scenarioExpectedFields, canaryExpectedFields,
    (expectedFields_jobMonitor h 0 (.inl rfl)).mem_iff,
      (expectedFields_jobMonitor h 0 (.inr rfl)).mem_iff,
    declaredFields, mem_append]

theorem boundSecret_of_resolveRef {key name plain : String}
    (h : resolveRef cipher row.monitor.projectID row.bound key name = .ok plain) :
    BoundSecret cipher row plain := by
  unfold resolveRef at h
  cases cipher with
  | none => cases h
  | some c =>
    cases href : row.bound.get? key with
    | none => simp [href] at h
    | some ref =>
      simp only [href] at h
      split at h
      · cases h
      split at h
      · next p hp =>
        obtain rfl := ok.inj h
        exact ⟨c, rfl, key, ref, href, hp⟩
      · cases h

theorem resolveBindings_bound {family : BindingFamily} :
    ∀ {keys : List String} {fields fields' : Dict String String},
      keys.foldlM (resolveBinding cipher family row) fields = .ok fields' →
      (∀ f p, fields.get? f = some p → BoundSecret cipher row p) →
      ∀ f p, fields'.get? f = some p → BoundSecret cipher row p
  | [], fields, fields', h, hall => by
    obtain rfl : fields = fields' := by simpa [pure, Except.pure] using h
    exact hall
  | key :: keys, fields, fields', h, hall => by
    rw [foldlM_cons] at h
    obtain ⟨next, hnext, h⟩ := bind_eq_ok.1 h
    obtain ⟨plain, hplain, hnext⟩ := bind_eq_ok.1 hnext
    obtain rfl : fields.set (family.fieldOfRefKey key) plain = next := by
      simpa [pure, Except.pure] using hnext
    refine resolveBindings_bound h fun f p hp => ?_
    rw [Dict.get?_set] at hp
    split at hp
    · cases hp
      exact boundSecret_of_resolveRef hplain
    · exact hall f p hp

/-- **A resolved binding is a bound secret.** -/
theorem resolveFields_bound (hcred : credentialedType row.monitor.type = false)
    (h : resolveFields cipher row = .ok fields) :
    ∀ f p, fields.get? f = some p → BoundSecret cipher row p := by
  obtain ⟨canary, hcanary, h⟩ := bind_eq_ok.1 h
  obtain ⟨declared, hscenario, h⟩ := bind_eq_ok.1 h
  have hdeclared := resolveBindings_bound hscenario
    (resolveBindings_bound hcanary fun f p hp => by cases hp)
  rcases resolvePassword_eq_ok h with rfl | ⟨htrue, -⟩
  · exact hdeclared
  · exact absurd (hcred.symm.trans htrue) (by decide)

theorem size_eq_iff_nodup {names : List String} (h : ∀ f, fields.contains f ↔ f ∈ names) :
    fields.size = names.length ↔ names.Nodup := by
  have hperm : fields.keys.Perm names.dedup := by
    refine (perm_ext_iff_of_nodup fields.keys_nodup (nodup_dedup names)).2 fun f => ?_
    rw [Dict.mem_keys, mem_dedup, h]
  rw [← Dict.length_keys, hperm.length_eq]
  constructor
  · intro hlen
    rw [← List.Sublist.eq_of_length (dedup_sublist names) hlen]
    exact nodup_dedup names
  · intro hnodup
    rw [dedup_eq_self.2 hnodup]

end

/-! ## The gate on what core sealed -/

section

variable {sha256 : Bytes → Bytes} {κ : Type} [DecidableEq κ] {ring : CredentialKeyring κ}
  {vault vault' : Vault κ Bytes String} {fields : Dict String String} {e : CredentialEnvelope}

theorem checkFieldSet_of_sealed {sc : SealContext} (h : Sealed sha256 ring sc fields vault vault' e)
    {names : List String} {u : Unit} : checkFieldSet e.fields names = .ok u ↔
      fields.size = names.length ∧ ∀ name ∈ names, fields.contains name := by
  obtain ⟨binding, -, -, hopen⟩ := h.bound
  have hcontains (name : String) : e.fields.contains name ↔ fields.contains name := by
    rw [← Dict.mem_keys, h.keys, Dict.mem_keys]
  rw [checkFieldSet_eq_ok, ← Dict.length_keys, h.keys, Dict.length_keys]
  refine and_congr_right fun _ => forall₂_congr fun name _ => ?_
  rw [← hcontains]
  constructor
  · rintro ⟨c, hc, -⟩
    rw [Dict.contains, hc]
    rfl
  · intro hname
    obtain ⟨c, hc⟩ := isSome_iff_exists.1 hname
    obtain ⟨p, hp⟩ := isSome_iff_exists.1 ((hcontains name).1 hname)
    obtain ⟨n, rfl, -⟩ := Vault.decrypt_eq_some_iff.1 (hopen name p c hp hc)
    exact ⟨_, hc, by simp⟩

/-- **The gate on a sealed row** accepts when the names are those it expects, and yields the
injection of the sealed values. -/
theorem sealed_accepted_iff {row : ExecutionRow} {unix version generation : Int}
    {names : List String}
    {config : Settings} {order : MapOrder String String} (later : Vault κ Bytes String)
    (hsealed : Sealed sha256 ring (sealContext row unix version) fields vault vault' e)
    (hversion : envelopeForCarrier generation = .ok version)
    (hwindow : protocolV4 ≤ generation → row.dueAt.isSome)
    (hreq : gateRequirement (jobMonitor row unix) = .ok .required)
    (hscenario : scenarioSecretRefKeys (jobMonitor row unix).config ≠ [] → envelopeV2 ≤ version)
    (hcanary : canarySecretRefKeys (jobMonitor row unix).config ≠ [] → envelopeV2 ≤ version)
    (hnames : expectedCredentialFields (jobMonitor row unix).type (jobMonitor row unix).config =
      .ok names) : validateAndMaterialize sha256 (some ring) (vault' ++ later) order
        (stampJob { plainJob row unix with credentialEnvelope := some e } generation) =
      .ok ⟨{ jobMonitor row unix with config := config }, true⟩ ↔
    fields.size = names.length ∧ (∀ name ∈ names, fields.contains name) ∧
      injectFields (jobMonitor row unix).type order fields (jobMonitor row unix).config =
        .ok config := by
  obtain ⟨hcarrier, hversions⟩ := envelopeForCarrier_eq_ok hversion
  have hv : e.v = version := by rw [hsealed.header]; rfl
  have hbody : (jobMonitor row unix).region = row.monitor.region ∧
      (jobMonitor row unix).id = row.monitor.id ∧
      (jobMonitor row unix).executionRevision = row.monitor.executionRevision := by
    unfold jobMonitor
    split <;> exact ⟨rfl, rfl, rfl⟩
  have hopen : openEnvelope sha256 ring (vault' ++ later)
      (stampJob { plainJob row unix with credentialEnvelope := some e } generation).job e =
        .ok fields :=
    openEnvelope_of_sealed hsealed hcarrier rfl hbody.1 hbody.2.1 hbody.2.2
  rw [← and_assoc, ← checkFieldSet_of_sealed (u := ()) hsealed, validateAndMaterialize_eq_ok]
  constructor
  · rintro ⟨-, -, ⟨hr, -, -⟩ | ⟨-, hle, -⟩ | ⟨-, -, henvelope⟩⟩
    · exact absurd (hr.symm.trans hreq) (by decide)
    · exact absurd (hcarrier.trans hle) (by decide)
    obtain ⟨e', keys, names', fields', config', hacc, hM⟩ := envelopeJob_eq_ok.1 henvelope
    obtain rfl := some.inj hacc.envelope
    obtain rfl := some.inj hacc.keyring
    obtain rfl := ok.inj (hacc.opened.symm.trans hopen)
    obtain rfl := ok.inj (hacc.expected.symm.trans hnames)
    have hconfig := congrArg (fun M => M.monitor.config) hM
    dsimp only at hconfig
    exact ⟨hacc.fieldSet, hconfig ▸ hacc.injected⟩
  · rintro ⟨hset, hinjected⟩
    refine ⟨carrierEnvelopeAdmissible_eq_ok.2 ⟨hv ▸ hversions, hcarrier, hv ▸ hversion⟩,
      ledgerFields_of_stampJob hwindow, .inr (.inr ⟨hreq, lt_of_lt_of_le (by decide) hcarrier, ?_⟩)⟩
    exact envelopeJob_eq_ok.2 ⟨e, ring, names, fields, config,
      ⟨rfl, rfl, hv ▸ hscenario, hv ▸ hcanary, hnames, hset, hopen, hsealed.plain, hinjected⟩, rfl⟩

end

section

variable {sha256 : Bytes → Bytes} {κ : Type} [DecidableEq κ] {ring : Option (CredentialKeyring κ)}
  {vault : Vault κ Bytes String} {order : MapOrder String String}

theorem jobMonitor_password {row : ExecutionRow} (unix : Int)
    (hcred : credentialedType row.monitor.type) :
    (jobMonitor row unix).config.value "password" = "" := by
  have htype : row.monitor.type ≠ .asyncCanary := by
    intro htype
    rw [htype] at hcred
    exact absurd hcred (by decide)
  unfold jobMonitor
  rw [if_neg (by simp [htype]), Settings.value, row.noPassword]
  rfl

theorem legacyJob_eq_ok {job : CheckJob} {M : Materialized} {names : List String}
    (hnames : expectedCredentialFields job.monitor.type job.monitor.config = .ok names)
    (h : legacyJob job = .ok M) : ∀ name ∈ names, job.monitor.config.value name ≠ "" := by
  obtain ⟨_, -, h⟩ := bind_eq_ok.1 h
  obtain ⟨_, -, h⟩ := bind_eq_ok.1 h
  obtain ⟨_, hinline, -⟩ := bind_eq_ok.1 h
  obtain ⟨names', hnames', hinline⟩ := bind_eq_ok.1 hinline
  obtain rfl := ok.inj (hnames.symm.trans (mapError_eq_ok.1 hnames'))
  cases hfind : names.find? fun name => job.monitor.config.value name = "" with
  | some name => simp [hfind] at hinline
  | none => simpa using hfind

theorem plain_accepted_iff {row : ExecutionRow} {unix generation : Int} (hrow : Validated row)
    (hwindow : protocolV4 ≤ generation → row.dueAt.isSome) (hbinds : declaresBindings row = false) :
    validateAndMaterialize sha256 ring vault order (stampJob (plainJob row unix) generation) =
        .ok ⟨jobMonitor row unix, false⟩ ↔
      schemaRequirement (jobMonitor row unix) ≠ .ok .required := by
  rw [validateAndMaterialize_eq_ok]
  rcases hrow.schemaRequirement unix with ⟨-, hschema⟩ | ⟨hcred, v, hv, hschema⟩
  · have hr := hrow.gateRequirement unix hschema
    rw [hbinds] at hr
    rw [hschema]
    refine iff_of_true ⟨rfl, ledgerFields_of_stampJob hwindow, .inl ⟨hr, rfl, rfl⟩⟩ (by decide)
  · have hr := hrow.gateRequirement unix hschema
    rw [hbinds] at hr
    rw [hschema]
    cases hreq : v.requirement with
    | forbidden =>
      rw [hreq] at hr
      refine iff_of_true ⟨rfl, ledgerFields_of_stampJob hwindow, .inl ⟨hr, rfl, rfl⟩⟩ (by decide)
    | required =>
      refine iff_of_false ?_ fun hne => hne rfl
      rintro ⟨-, -, ⟨hforbidden, -, -⟩ | ⟨-, -, hlegacy⟩ | ⟨-, -, henvelope⟩⟩
      · rw [hreq] at hr
        exact absurd (hforbidden.symm.trans hr) (by decide)
      · have hnames : expectedCredentialFields (jobMonitor row unix).type
          (jobMonitor row unix).config =
            .ok ["password"] := by
          refine expectedCredentialFields_of_schema ?_ hreq
          rw [jobMonitor_type, resolveVariant_jobMonitor, hv]
        exact legacyJob_eq_ok hnames hlegacy "password" mem_cons_self
          (jobMonitor_password unix hcred)
      · cases henvelope

end

/-! ## Agreement -/

section

variable {cipher : Option Cipher} {sha256 : Bytes → Bytes} {κ : Type} [DecidableEq κ]
  {forRegion : String → Option (CredentialKeyring κ)} {encodedSize : CheckJob → Nat}
  {row : ExecutionRow} {fields : Dict String String}

theorem expected_of_resolved (hrow : Validated row) (unix : Int)
    (hfields : resolveFields cipher row = .ok fields) (hsize : fields.size ≠ 0) :
    gateRequirement (jobMonitor row unix) = .ok .required ∧ ∃ names,
      expectedCredentialFields (jobMonitor row unix).type (jobMonitor row unix).config =
          .ok names ∧
        (fields.size = names.length ∧ (∀ name ∈ names, fields.contains name) ↔
          (declaredFields row).Nodup) := by
  rcases hrow.schemaRequirement unix with ⟨hcred, hschema⟩ | ⟨hcred, v, hv, hschema⟩
  · have hnames := contains_declaredFields hcred hfields
    have hne : declaredFields row ≠ [] := by
      intro hnil
      obtain ⟨x, hx⟩ := exists_mem_of_ne_nil _ fun h => hsize (congrArg List.length h)
      have hget := Dict.mem_entries.1 (show (x.1, x.2) ∈ fields.entries from hx)
      have hmem := (hnames x.1).1 (by rw [Dict.contains, hget]; rfl)
      rw [hnil] at hmem
      cases hmem
    have hbinds : declaresBindings row := by
      rw [← Bool.not_eq_false, ← declaredFields_eq_nil_iff]
      exact hne
    have hperm : (Text.sortStrings (scenarioExpectedFields row.monitor.type
        (jobMonitor row unix).config ++
        canaryExpectedFields row.monitor.type (jobMonitor row unix).config)).Perm
          (declaredFields row) :=
      (Text.sortStrings_perm _).trans ((expectedFields_jobMonitor hfields unix (.inl rfl)).append
        (expectedFields_jobMonitor hfields unix (.inr rfl)))
    refine ⟨by rw [hrow.gateRequirement unix hschema, if_pos hbinds],
      Text.sortStrings (scenarioExpectedFields row.monitor.type (jobMonitor row unix).config ++
        canaryExpectedFields row.monitor.type (jobMonitor row unix).config), ?_, ?_⟩
    · rw [jobMonitor_type]
      refine (expectedCredentialFields_of_bindings hcred).2 ⟨rfl, fun hnil => hne ?_⟩
      rw [hnil] at hperm
      exact nil_perm.1 hperm
    · rw [hperm.length_eq, size_eq_iff_nodup hnames, and_iff_left]
      intro name hname
      exact (hnames name).2 (hperm.mem_iff.1 hname)
  · rcases resolveFields_of_credentialed hcred hfields with ⟨rfl, -, -⟩ | ⟨plain, rfl, hstored⟩
    · exact absurd rfl hsize
    have hreq : v.requirement = .required := by
      cases hreq : v.requirement with
      | required => rfl
      | forbidden =>
        obtain ⟨hnone, hnoref⟩ := hrow.noCredential hcred hv hreq
        rcases hstored with h | h
        · exact absurd hnone h
        · exact absurd hnoref h
    rw [hreq] at hschema
    have hr := hrow.gateRequirement unix hschema
    refine ⟨by rw [hr]; split <;> rfl, ["password"], ?_, ?_⟩
    · refine expectedCredentialFields_of_schema ?_ hreq
      rw [jobMonitor_type, resolveVariant_jobMonitor, hv]
    · rw [declaredFields_eq_nil hcred]
      refine iff_of_true ⟨rfl, fun name hname => ?_⟩ nodup_nil
      obtain rfl := mem_singleton.1 hname
      rfl

theorem jobMonitor_of_synthetic (htype : row.monitor.type = .synthetic) (unix : Int) :
    jobMonitor row unix = row.monitor := by
  unfold jobMonitor
  rw [if_neg (by simp [htype])]

theorem schemaRequirement_jobMonitor (unix : Int) :
    schemaRequirement (jobMonitor row unix) = schemaRequirement row.monitor := by
  unfold jobMonitor
  split
  · next hcanary =>
    have htype : row.monitor.type = .asyncCanary := by simp_all
    rw [schemaRequirement, schemaRequirement, htype]
    rfl
  · rfl

theorem placeholderChar_of_braced {binding : String} (h : canaryBindingName binding) :
    ∀ c ∈ Text.braced ("secret:" ++ binding).toList, placeholderChar c := by
  have hhead : "secret:".toList.all placeholderChar := by decide +kernel
  intro c hc
  simp only [Text.braced, String.toList_append, mem_cons, mem_append, not_mem_nil, or_false] at hc
  rcases hc with rfl | rfl | (hc | hc) | rfl | rfl
  · decide
  · decide
  · exact all_eq_true.1 hhead c hc
  · have hclass := Text.of_matchesClass h hc
    simp only [placeholderChar, Bool.or_eq_true] at hclass ⊢
    simp only [decide_eq_true_eq] at hclass ⊢
    rcases hclass with hclass | ((hclass | hclass) | rfl) | rfl
    · exact .inl (.inl hclass)
    · exact .inl (.inl hclass)
    · exact .inl (.inr hclass)
    · exact .inr (by decide)
    · exact .inr (by decide)
  · decide
  · decide

/-- Under inert escapes the placeholders of the parsed scenario are those of its text. -/
theorem PlainRow.substituteParsed_eq (hplain : PlainRow cipher row)
    (hfields : ∀ f p, fields.get? f = some p → p ≠ "" ∧ Text.plain p.toList) :
    substituteParsed (row.monitor.config.value syntheticScenarioKey)
        (scenarioBindingsOf fields.entries) =
      substituteAtOnce (row.monitor.config.value syntheticScenarioKey)
        (scenarioBindingsOf fields.entries) := by
  obtain ⟨hraw, hglyphs⟩ :=
    Text.glyphs_raw (row.monitor.config.value syntheticScenarioKey).toList
  have hrules : ∀ r ∈ (scenarioBindingsOf fields.entries).map scenarioRule,
      ∀ c ∈ Text.braced r.name, placeholderChar c := by
    intro r hr
    obtain ⟨b, hb, rfl⟩ := mem_map.1 hr
    obtain ⟨e, -, hbinding⟩ := mem_filterMap.1 hb
    obtain ⟨binding, hname, rfl⟩ := Option.map_eq_some_iff.1 hbinding
    exact placeholderChar_of_braced (scenarioBindingFromField_eq_some hname).2
  rw [← String.toList_inj, toList_substituteAtOnce, substituteParsed, String.toList_ofList]
  have hwalk := Text.rewrite_glyphs (plainRules_of_fields hfields)
    (by decide : placeholderChar '\\' = false) hrules
    fun g hg => ⟨hplain.escapes g hg, hglyphs g hg⟩
  rw [hraw] at hwalk
  exact hwalk

/-- Every field of a scenario's envelope is for a binding that the row declares. -/
theorem declared_of_visit (order : MapOrder String String) (htype : row.monitor.type = .synthetic)
    (hfields : resolveFields cipher row = .ok fields) {x : String × String}
    (hx : x ∈ order.visit fields.entries) :
    ∃ key ∈ declaredRefKeys scenarioFamily row, ∃ b,
      scenarioFamily.bindingFromRefKey key = some b ∧ scenarioBindingFromField x.1 = some b := by
  have hcred : credentialedType row.monitor.type = false := by rw [htype]; rfl
  have hget := Dict.mem_entries.1 ((order.perm _).mem_iff.1 (show (x.1, x.2) ∈ _ from hx))
  have hmem := (contains_declaredFields hcred hfields x.1).1 (by rw [Dict.contains, hget]; rfl)
  have hnone : declaredRefKeys canaryFamily row = [] := if_neg (by rw [htype]; decide)
  rw [declaredFields, hnone, map_nil, append_nil] at hmem
  obtain ⟨key, hkey, hx⟩ := mem_map.1 hmem
  have hkeys : declaredRefKeys scenarioFamily row = scenarioFamily.refKeys row.stored :=
    if_pos htype
  have hrefs : key ∈ scenarioFamily.refKeys row.stored := hkeys ▸ hkey
  obtain ⟨b, hb⟩ := isSome_iff_exists.1 (BindingFamily.mem_refKeys.1 hrefs).2
  exact ⟨key, hkey, b, hb, hx ▸ scenarioBindingFromField_fieldOfRefKey hb⟩

/-- A row without bindings has a password or nothing. -/
theorem eq_password_of_resolved (hfields : resolveFields cipher row = .ok fields)
    (hscenario : row.monitor.type ≠ .synthetic) (hcanary : row.monitor.type ≠ .asyncCanary)
    {f : String} (hf : fields.contains f) : f = "password" := by
  obtain ⟨-, declared, hnames, hpassword⟩ := resolveFields_eq_ok hfields
  have hscenarios : declaredRefKeys scenarioFamily row = [] := if_neg hscenario
  have hcanaries : declaredRefKeys canaryFamily row = [] := if_neg hcanary
  have hdeclared : ¬ declared.contains f := by
    rw [hnames, hscenarios, hcanaries]
    simp
  rcases hpassword with rfl | ⟨-, plain, rfl⟩
  · exact absurd hf hdeclared
  · exact ((Dict.contains_set _ _ _ _).1 hf).resolve_right hdeclared

theorem injectFields_resolved_scenario (order : MapOrder String String)
    (htype : row.monitor.type = .synthetic) (hplain : PlainRow cipher row)
    (hfields : resolveFields cipher row = .ok fields) (hsize : fields.size ≠ 0)
    (hne : ∀ f p, fields.get? f = some p → p ≠ "") :
    injectFields row.monitor.type order fields row.monitor.config =
      .ok (withCredentials row.monitor.type fields row.monitor.config) := by
  have hcred : credentialedType row.monitor.type = false := by rw [htype]; rfl
  have hvalues : ∀ f p, fields.get? f = some p → p ≠ "" ∧ Text.plain p.toList := fun f p hp =>
    ⟨hne f p hp, hplain.plain p (resolveFields_bound hcred hfields f p hp)⟩
  have hall : ∀ x ∈ order.visit fields.entries, (scenarioBindingFromField x.1).isSome := by
    intro x hx
    obtain ⟨_, _, b, _, hb⟩ := declared_of_visit order htype hfields hx
    exact isSome_iff_exists.2 ⟨b, hb⟩
  have hvisited : order.visit fields.entries ≠ [] := by
    intro hnil
    have hlen := (order.perm fields.entries).length_eq
    rw [hnil] at hlen
    exact hsize hlen.symm
  have hturn : (replaceInTurn (row.monitor.config.value syntheticScenarioKey)
      (scenarioBindingsOf (order.visit fields.entries))).isSome := by
    refine isSome_replaceInTurn (plainRules_of_visit order hvalues) fun b hb => ?_
    obtain ⟨x, hx, hbinding⟩ := mem_filterMap.1 hb
    obtain ⟨key, hkey, binding, hkeyb, hname⟩ := declared_of_visit order htype hfields hx
    rw [hname] at hbinding
    cases hbinding
    have hused := Text.contains_iff.1 (hplain.used key hkey binding hkeyb)
    rwa [toList_scenarioPlaceholder] at hused
  obtain ⟨t, ht⟩ := isSome_iff_exists.1 hturn
  rw [withCredentials, if_pos ⟨htype, hsize⟩, injectFields,
    injectFields_scenario (by rw [htype]; decide) hvisited hall,
    hplain.substituteParsed_eq hvalues]
  exact ⟨t, ht, by rw [replaceInTurn_of_visit order hplain.flat hvalues ht]⟩

/-- **The resolved credentials are injected**, and nothing else changes. -/
theorem injectFields_resolved (unix : Int) (order : MapOrder String String)
    (hfields : resolveFields cipher row = .ok fields) (hsize : fields.size ≠ 0)
    (hne : ∀ f p, fields.get? f = some p → p ≠ "")
    (hplain : row.monitor.type = .synthetic → PlainRow cipher row) :
    injectFields (jobMonitor row unix).type order fields (jobMonitor row unix).config =
      .ok (withCredentials (jobMonitor row unix).type fields (jobMonitor row unix).config) := by
  by_cases htype : row.monitor.type = .synthetic
  · rw [jobMonitor_of_synthetic htype]
    exact injectFields_resolved_scenario order htype (hplain htype) hfields hsize hne
  · rw [jobMonitor_type, withCredentials, if_neg fun h => htype h.1]
    refine injectFields_named ?_
    by_cases hcanary : row.monitor.type = .asyncCanary
    · exact .inl hcanary
    · refine .inr fun f hf => ?_
      obtain rfl := eq_password_of_resolved hfields htype hcanary hf
      decide +kernel

theorem stored_password_iff (hschema : schemaRequirement row.monitor = .ok .required)
    (hfields : resolveFields cipher row = .ok fields) :
    (row.stored.value "password" ≠ "" ∨ row.stored.value "password_ref" ≠ "") ↔
      fields.size ≠ 0 := by
  have hcred : credentialedType row.monitor.type := by
    unfold schemaRequirement at hschema
    split at hschema
    · assumption
    · cases hschema
  rcases resolveFields_of_credentialed hcred hfields with ⟨rfl, hnone, href⟩ | ⟨plain, rfl, hsome⟩
  · exact iff_of_false (by simp [hnone, href]) fun h => h rfl
  · exact iff_of_true hsome Nat.one_ne_zero

end

def exampleRun (row : ExecutionRow) : SealLog Nat × Except MaterializeReason DeliveredJob :=
  materializeRow (some exampleCipher) id (fun _ => some euRing) (fun _ => 0) row 3 0 .empty

theorem plainRow_scenarioRow : PlainRow (some exampleCipher) (scenarioRow "y") where
  flat := by decide +kernel
  escapes := by
    have hraw : (Json.glyphs (((scenarioRow "y").monitor.config.value
        syntheticScenarioKey).toList)).all fun g => g.raw = [g.char] := by decide +kernel
    exact fun g hg => .inl (by simpa using all_eq_true.1 hraw g hg)
  used := by
    have hused : ∀ key ∈ declaredRefKeys scenarioFamily (scenarioRow "y"),
        (scenarioFamily.bindingFromRefKey key).all fun b => Text.contains
          ((scenarioRow "y").monitor.config.value syntheticScenarioKey)
          (scenarioPlaceholder b) := by decide +kernel
    intro key hkey b hb
    have := hused key hkey
    rw [hb] at this
    exact this
  plain := by
    have hplain : ∀ entry ∈ (scenarioRow "y").bound.entries,
        (exampleCipher.decryptBytes entry.2.ciphertext "" "").all fun p =>
          Text.plain p.toList := by decide +kernel
    rintro p ⟨c, hc, key, ref, href, hp⟩
    obtain rfl := Option.some.inj hc
    have := hplain (key, ref) (Dict.mem_entries.2 href)
    rwa [show exampleCipher.decryptBytes ref.ciphertext "" "" = some p from hp] at this

end Cerbix.Store
