import Cerbix.Lib.Run
import Cerbix.Store.MaterializeRow

/-!
# Credentials from core to the executors

Core seals the credentials of scheduled jobs and of tests (`coreStep`); `CoreLog` are the `SealLog`s
its runs reach. A job is delivered with a body anyone may have edited, on a carrier of trusted
generation, and crosses the gate of an executor.

With encryption and hash ideal, a field that opens was sealed for this region, key, monitor and
revision (`Opened.origin`), and the fields are those the schema expects (`Accepted.contains_iff`).
The gate does not compare the envelope's id with the job's own, and replaces the placeholders of a
scenario in turn; where neither matters it is secure (`gateSecure_of_plain`).
-/

namespace Cerbix.Dispatch

open Cerbix.Lib Cerbix.Domain Cerbix.Store List Option Function

/-- What makes core seal something. -/
inductive CoreStep (κ : Type)
  | row (cipher : Option Cipher) (forRegion : String → Option (CredentialKeyring κ))
      (encodedSize : CheckJob → Nat) (row : ExecutionRow) (regionGeneration unix : Int)
  | test (cipher : Option Cipher) (forRegion : String → Option (CredentialKeyring κ))
      (m : MonitorBody) (carrierGeneration : Int) (found : Option TestQuery)

section Core

variable (sha256 : Bytes → Bytes) {κ : Type} [DecidableEq κ]

/-- Core materializes a row or a test, and may seal. -/
def coreStep (log : SealLog κ) : CoreStep κ → Option (SealLog κ)
  | .row cipher forRegion encodedSize row regionGeneration unix =>
    some (materializeRow cipher sha256 forRegion encodedSize row regionGeneration unix log).1
  | .test cipher forRegion m carrierGeneration found =>
    some (materializeTest cipher sha256 forRegion m carrierGeneration found log).1

/-- Outside the credentialed types the call's fields are those that its body declares. -/
def SealCall.NamesDeclared (call : SealCall κ) : Prop :=
  credentialedType call.context.body.type = false → ∀ f, call.fields.contains f ↔
    f ∈ scenarioExpectedFields call.context.body.type call.context.body.config ++
      canaryExpectedFields call.context.body.type call.context.body.config

/-- What holds of all that core ever sealed. -/
structure CoreLog (log : SealLog κ) : Prop where
  grounded : log.Grounded sha256
  names : ∀ call ∈ log.calls, call.NamesDeclared

variable {sha256} {log : SealLog κ} {log' : SealLog κ}

theorem CoreLog.record {ring : CredentialKeyring κ} {sc : SealContext}
    {fields : Dict String String} {e : CredentialEnvelope} (hlog : CoreLog sha256 log)
    (hnames : (⟨ring.primaryID, ring.primaryKey, sc, fields⟩ : SealCall κ).NamesDeclared)
    (h : log.record sha256 ring sc fields = .ok (log', e)) : CoreLog sha256 log' := by
  refine ⟨hlog.grounded.record h, fun call hcall => ?_⟩
  rw [(SealLog.record_eq_ok h).2] at hcall
  rcases mem_concat.1 hcall with hcall | rfl
  · exact hlog.names call hcall
  · exact hnames

theorem CoreLog.step {a : CoreStep κ} (hlog : CoreLog sha256 log)
    (h : coreStep sha256 log a = some log') : CoreLog sha256 log' := by
  cases a with
  | row cipher forRegion encodedSize row regionGeneration unix =>
    cases h
    rcases @materializeRow_log cipher sha256 κ forRegion encodedSize row regionGeneration unix log
      with heq | hrecord
    · rw [heq]
      exact hlog
    · obtain ⟨fields, ring, version, e, hfields, hrecord⟩ := hrecord
      refine hlog.record (fun hcred f => ?_) hrecord
      have htype : (sealContext row unix version).body.type = row.monitor.type :=
        jobMonitor_type row unix
      rw [htype] at hcred ⊢
      exact contains_resolveFields hfields hcred unix f
  | test cipher forRegion m carrierGeneration found =>
    cases h
    rcases @materializeTest_log cipher sha256 κ forRegion m carrierGeneration found log
      with heq | ⟨hcred, hrecord⟩
    · rw [heq]
      exact hlog
    · obtain ⟨fields, ring, version, jobID, monitorID, e, hrecord⟩ := hrecord
      refine hlog.record (fun hnot => ?_) hrecord
      exact absurd (hcred.symm.trans hnot) (by decide)

theorem coreLog_of_reach (h : Reach (coreStep sha256) anyStep SealLog.empty log) :
    CoreLog sha256 log := by
  refine h.invariant ?_ fun s a s' hs _ hstep => hs.step hstep
  exact ⟨fun x hx => absurd hx not_mem_nil, fun call hcall => absurd hcall not_mem_nil⟩

end Core

/-- The id that names a delivered job: its own, else the one in its envelope. `ProbeErrorHeartbeat`
names it so. -/
def CheckJob.identity (job : CheckJob) (e : CredentialEnvelope) : String :=
  if job.jobID = "" then e.jobID else job.jobID

section Claim

variable (sha256 : Bytes → Bytes) {κ : Type} [DecidableEq κ]

/-- The envelope's ciphertext for the field is one the call sealed, with this value and for this
job. -/
structure SealedFor (log : SealLog κ) (ring : CredentialKeyring κ) (delivered : DeliveredJob)
    (e : CredentialEnvelope) (field plain : String) (call : SealCall κ) : Prop where
  mem : call ∈ log.calls
  produced : ∃ n x, e.fields.get? field = some (.token n) ∧ log.vault[n]? = some x ∧
    call.Produced sha256 field plain x
  key : ring.byID.get? e.keyID = some call.key
  keyID : call.keyID = e.keyID
  region : call.context.region = delivered.job.monitor.region
  monitorID : call.context.monitorID = delivered.job.monitor.id
  revision : call.context.revision = delivered.job.monitor.executionRevision
  jobID : call.context.jobID = delivered.job.identity e
  body : protocolV3 ≤ delivered.carrierGeneration → ∃ parts,
    executionDTOParts call.context.body = .ok parts ∧
      executionDTOParts delivered.job.monitor = .ok parts

/-- The gate's monitor has exactly the values injected that were sealed for the delivered job, for
exactly the expected fields. -/
def InjectsSealed (log : SealLog κ) (ring : Option (CredentialKeyring κ)) (delivered : DeliveredJob)
    (M : Materialized) : Prop :=
  ∃ e keys names, ∃ fields : Dict String String,
    delivered.job.credentialEnvelope = some e ∧ ring = some keys ∧
    expectedCredentialFields delivered.job.monitor.type delivered.job.monitor.config = .ok names ∧
    (∀ f, fields.contains f ↔ f ∈ names) ∧
    (∀ f p, fields.get? f = some p → ∃ call, SealedFor sha256 log keys delivered e f p call) ∧
    M.monitor = { delivered.job.monitor with
      config := injectedExactly delivered.job.monitor.type fields delivered.job.monitor.config }

/-- The gate accepts only what was sealed for the job, and refuses an envelope that is forbidden. -/
structure GateSecure (log : SealLog κ) (ring : Option (CredentialKeyring κ))
    (order : MapOrder String String) (delivered : DeliveredJob) : Prop where
  required : RequiresCredential delivered.job.monitor → ∀ M,
    validateAndMaterialize sha256 ring log.vault order delivered = .ok M →
      InjectsSealed sha256 log ring delivered M
  forbidden : ForbidsCredential delivered.job.monitor → delivered.job.credentialEnvelope ≠ none →
    ∀ M, validateAndMaterialize sha256 ring log.vault order delivered ≠ .ok M
  canonical : Injective canonicalAAD

end Claim

section

variable {sha256 : Bytes → Bytes} {κ : Type} [DecidableEq κ] {log : SealLog κ}
  {keys : CredentialKeyring κ} {job : CheckJob} {e : CredentialEnvelope}
  {fields : Dict String String}

/-- The call of `Seal` that a field's plaintext comes from. -/
structure Origin (sha256 : Bytes → Bytes) (log : SealLog κ) (ring : CredentialKeyring κ)
    (job : CheckJob) (e : CredentialEnvelope) (field plain : String) (call : SealCall κ) :
    Prop where
  mem : call ∈ log.calls
  produced : ∃ n x, e.fields.get? field = some (.token n) ∧ log.vault[n]? = some x ∧
    call.Produced sha256 field plain x
  key : ring.byID.get? e.keyID = some call.key
  keyID : call.keyID = e.keyID
  region : call.context.region = job.monitor.region
  monitorID : call.context.monitorID = job.monitor.id
  revision : call.context.revision = job.monitor.executionRevision
  jobID : call.context.jobID = e.jobID
  body : envelopeV2 ≤ e.v → call.fields.keys = e.fields.keys ∧ ∃ parts,
    executionDTOParts call.context.body = .ok parts ∧ executionDTOParts job.monitor = .ok parts

variable {f p : String}

/-- **A value that opens was sealed for this job**, as far as the envelope says which job it is. -/
theorem Opened.origin (hsha : Injective sha256) (hlog : log.Grounded sha256)
    (h : Opened sha256 keys log.vault job e fields) (hp : fields.get? f = some p) :
    ∃ call, Origin sha256 log keys job e f p call := by
  obtain ⟨key, binding, hkey, hbinding, hopen⟩ := h.opened
  obtain ⟨c, hc, hdecrypt⟩ := hopen f p hp
  obtain ⟨n, rfl, hn⟩ := Vault.decrypt_eq_some_iff.1 hdecrypt
  obtain ⟨call, hcall, f', p', hproduced⟩ := hlog _ (mem_of_getElem? hn)
  obtain ⟨binding', fields', hbinding', hplain, hx⟩ := id hproduced
  simp only [Sealing.mk.injEq] at hx
  obtain ⟨rfl, had, rfl⟩ := hx
  obtain ⟨hv, hregion, hkeyID, hid, hrev, rfl, hjob, hbound⟩ := envelopeAAD_inj had
  refine ⟨call, hcall, ⟨n, _, hc, hn, hproduced⟩, hkey, hkeyID.symm, ?_, hid.symm, hrev.symm,
    hjob.symm, fun hle => ?_⟩
  · exact hregion.symm.trans h.region
  · obtain ⟨parts, hparts, rfl⟩ := bindingFor_eq_ok hle hbinding
    obtain ⟨parts', hparts', rfl⟩ := bindingFor_eq_ok (hle.trans_eq hv) hbinding'
    obtain ⟨hset, hbody⟩ := ExecutionBinding.mk.inj (hbound hle)
    obtain rfl := map_utf8_injective (canonicalAAD_injective (hsha hbody))
    exact ⟨(fieldSetDigest_injective hsha hset).symm, parts, hparts', hparts⟩

end

/-! ## The expected fields -/

section

variable {sha256 : Bytes → Bytes} {κ : Type} [DecidableEq κ] {log : SealLog κ}
  {ring : Option (CredentialKeyring κ)} {order : MapOrder String String} {job : CheckJob}
  {e : CredentialEnvelope} {keys : CredentialKeyring κ} {names : List String}
  {fields : Dict String String} {config : Settings} {r : CredentialRequirement}

theorem requires_cases {m : MonitorBody} (hreq : RequiresCredential m)
    (hr : gateRequirement m = .ok r) {names : List String}
    (hnames : expectedCredentialFields m.type m.config = .ok names) :
    (credentialedType m.type ∧ names = ["password"]) ∨
      ∃ family, (family = scenarioFamily ∨ family = canaryFamily) ∧ m.type = family.type ∧
        family.refKeys m.config ≠ [] := by
  obtain ⟨hscenario, hcanary, -⟩ := gateRequirement_eq_ok.1 hr
  rcases hreq with hreq | hreq | hreq
  · left
    unfold schemaRequirement at hreq
    split at hreq
    · next hcred =>
      refine ⟨hcred, ?_⟩
      obtain ⟨v, hv, hreq⟩ := bind_eq_ok.1 (mapError_eq_ok.1 hreq)
      have hexpected := expectedCredentialFields_of_schema hv
          (by simpa [pure, Except.pure] using hreq)
      exact Except.ok.inj (hnames.symm.trans hexpected)
    · cases hreq
  · exact .inr ⟨scenarioFamily, .inl rfl, hscenario hreq, hreq⟩
  · exact .inr ⟨canaryFamily, .inr rfl, hcanary hreq, hreq⟩

theorem keys_of_checkFieldSet {envelope : Dict String Ciphertext} {name : String} {u : Unit}
    (h : checkFieldSet envelope [name] = .ok u) : envelope.keys = [name] := by
  obtain ⟨hsize, hall⟩ := checkFieldSet_eq_ok.1 h
  obtain ⟨c, hc, -⟩ := hall name mem_cons_self
  have hmem : name ∈ envelope.keys := Dict.mem_keys.2 (by rw [Dict.contains, hc]; rfl)
  rw [← Dict.length_keys] at hsize
  obtain ⟨k, hk⟩ := length_eq_one_iff.1 hsize
  rw [hk, mem_singleton] at hmem
  rw [hk, hmem]

/-- **The opened fields are the expected ones.** Equal numbers are not enough, for a binding may be
declared twice; that core seals what the body declares is. -/
theorem Accepted.contains_iff (hsha : Injective sha256) (hlog : CoreLog sha256 log)
    (h : Accepted sha256 ring log.vault order job e keys names fields config)
    (hreq : RequiresCredential job.monitor) (hr : gateRequirement job.monitor = .ok r)
    (f : String) :
    fields.contains f ↔ f ∈ names := by
  have hopened := openEnvelope_eq_ok h.opened
  rw [← Dict.mem_keys, hopened.keys]
  rcases requires_cases hreq hr h.expected with ⟨-, rfl⟩ | ⟨family, hfamily, htype, hrefs⟩
  · rw [keys_of_checkFieldSet h.fieldSet]
  have hv : envelopeV2 ≤ e.v := by
    rcases hfamily with rfl | rfl
    · exact h.scenario hrefs
    · exact h.canary hrefs
  have hcred : credentialedType job.monitor.type = false := by
    rw [htype]
    rcases hfamily with rfl | rfl <;> rfl
  obtain ⟨rfl, hne⟩ := (expectedCredentialFields_of_bindings hcred).1 h.expected
  -- some field was opened, and its call says what the others are
  obtain ⟨g, hg⟩ := exists_mem_of_ne_nil _ hne
  obtain ⟨c, hc, -⟩ := (checkFieldSet_eq_ok.1 h.fieldSet).2 g hg
  have hgkeys : g ∈ fields.keys := by
    rw [hopened.keys]
    exact Dict.mem_keys.2 (by rw [Dict.contains, hc]; rfl)
  obtain ⟨p, hp⟩ := isSome_iff_exists.1 (Dict.mem_keys.1 hgkeys)
  obtain ⟨call, horigin⟩ := hopened.origin hsha hlog.grounded hp
  obtain ⟨hkeys, parts, hcall, hjob⟩ := horigin.body hv
  have hsame := executionDTOParts_agree hjob hcall
  obtain ⟨bound, _, hbound, -, -⟩ := executionDTOParts_eq_ok hjob
  have hexpected : ∀ other, other = scenarioFamily ∨ other = canaryFamily →
      other.expectedFields job.monitor.type job.monitor.config =
        other.expectedFields call.context.body.type call.context.body.config := by
    intro other hother
    by_cases hot : job.monitor.type = other.type
    · exact hsame.expectedFields_eq hother hot hbound
    · rw [BindingFamily.expectedFields, if_pos hot, BindingFamily.expectedFields,
        if_pos (by rw [← hsame.type]; exact hot)]
  rw [← hkeys, Dict.mem_keys, hlog.names call horigin.mem (by rw [← hsame.type]; exact hcred),
    Text.mem_sortStrings, scenarioExpectedFields, canaryExpectedFields, hexpected _ (.inl rfl),
    hexpected _ (.inr rfl)]

/-- **The injected values are exactly the opened ones.** In a scenario this asks that no placeholder
is nested in another, and that no value makes one. -/
theorem Accepted.config_eq (hsha : Injective sha256) (hlog : CoreLog sha256 log)
    (h : Accepted sha256 ring log.vault order job e keys names fields config)
    (hreq : RequiresCredential job.monitor) (hr : gateRequirement job.monitor = .ok r)
    (hscenario : job.monitor.type = .synthetic →
      Text.flat (job.monitor.config.value syntheticScenarioKey).toList ∧
        ∀ f p, fields.get? f = some p → Text.plain p.toList) :
    config = injectedExactly job.monitor.type fields job.monitor.config := by
  have hnames := h.contains_iff hsha hlog hreq hr
  have hinjected := h.injected
  by_cases htype : job.monitor.type = .synthetic
  · have hcred : credentialedType job.monitor.type = false := by rw [htype]; rfl
    obtain ⟨hexpected, hne⟩ := (expectedCredentialFields_of_bindings hcred).1 h.expected
    have hall : ∀ x ∈ order.visit fields.entries, (scenarioBindingFromField x.1).isSome := by
      intro x hx
      have hget := Dict.mem_entries.1 ((order.perm _).mem_iff.1 hx)
      have hmem := (hnames x.1).1 (by rw [Dict.contains, hget]; rfl)
      have hnone : canaryExpectedFields job.monitor.type job.monitor.config = [] := by
        rw [htype]
        rfl
      rw [hexpected, Text.mem_sortStrings, hnone, append_nil] at hmem
      exact scenarioBindingFromField_of_expected hmem
    have hvisited : order.visit fields.entries ≠ [] := by
      obtain ⟨g, hg⟩ := exists_mem_of_ne_nil _ hne
      obtain ⟨p, hp⟩ := isSome_iff_exists.1 ((hnames g).2 hg)
      exact ne_nil_of_mem ((order.perm _).mem_iff.2 (Dict.mem_entries.2 hp))
    obtain ⟨t, ht, rfl⟩ := (injectFields_scenario (by rw [htype]; decide) hvisited hall).1 hinjected
    obtain ⟨hflat, hplain⟩ := hscenario htype
    rw [injectedExactly, if_pos htype, replaceInTurn_of_visit order hflat
      (fun f p hp => ⟨h.plain f p hp, hplain f p hp⟩) ht]
  · have hplain : job.monitor.type = .asyncCanary ∨
        ∀ f, fields.contains f → scenarioBindingFromField f = none := by
      rcases requires_cases hreq hr h.expected with ⟨-, rfl⟩ | ⟨family, rfl | rfl, hfamily, -⟩
      · refine .inr fun f hf => ?_
        obtain rfl := mem_singleton.1 ((hnames f).1 hf)
        decide +kernel
      · exact absurd hfamily htype
      · exact .inl hfamily
    rw [injectFields_named hplain] at hinjected
    rw [injectedExactly, if_neg htype]
    exact (Except.ok.inj hinjected).symm

end

/-! ## The gate on a delivered job -/

section

variable {sha256 : Bytes → Bytes} {κ : Type} [DecidableEq κ] {log : SealLog κ}
  {ring : Option (CredentialKeyring κ)} {order : MapOrder String String} {delivered : DeliveredJob}
  {M : Materialized}

theorem accepted_of_validate (hgen : protocolV2 ≤ delivered.carrierGeneration)
    (hreq : RequiresCredential delivered.job.monitor)
    (h : validateAndMaterialize sha256 ring log.vault order delivered = .ok M) :
    gateRequirement delivered.job.monitor = .ok .required ∧ ∃ e keys names fields config,
      Accepted sha256 ring log.vault order delivered.job e keys names fields config ∧
      envelopeForCarrier delivered.carrierGeneration = .ok e.v ∧
      M = ⟨{ delivered.job.monitor with config := config }, true⟩ := by
  obtain ⟨hadmissible, -, hways⟩ := validateAndMaterialize_eq_ok.1 h
  rcases hways with ⟨hr, -, -⟩ | ⟨-, hle, -⟩ | ⟨hr, -, henvelope⟩
  · exact absurd (gateRequirement_of_requires hreq hr) (by decide)
  · exact absurd (hgen.trans hle) (by decide)
  obtain ⟨e, keys, names, fields, config, hacc, hM⟩ := envelopeJob_eq_ok.1 henvelope
  rw [hacc.envelope] at hadmissible
  exact ⟨hr, e, keys, names, fields, config, hacc,
    (carrierEnvelopeAdmissible_eq_ok.1 hadmissible).2.2, hM⟩

variable {keys : CredentialKeyring κ} {e : CredentialEnvelope}

omit [DecidableEq κ] in
theorem Origin.sealedFor {f p : String} {call : SealCall κ}
    (h : Origin sha256 log keys delivered.job e f p call)
    (hcarrier : envelopeForCarrier delivered.carrierGeneration = .ok e.v)
    (hid : e.jobID = delivered.job.identity e) :
    SealedFor sha256 log keys delivered e f p call := by
  refine ⟨h.mem, h.produced, h.key, h.keyID, h.region, h.monitorID, h.revision, h.jobID.trans hid,
    fun hgen => ?_⟩
  exact (h.body (envelopeForCarrier_bound hgen hcarrier).ge).2

theorem identity_eq {job : CheckJob} (h : job.jobID = "" ∨ job.jobID = e.jobID) :
    e.jobID = job.identity e := by
  unfold CheckJob.identity
  split
  · rfl
  · next hsome => exact (h.resolve_left hsome).symm

/-- No placeholder of the delivered scenario is nested in another, and no value that core sealed for
the monitor has a brace. -/
structure PlainScenario (log : SealLog κ) (m : MonitorBody) : Prop where
  flat : Text.flat (m.config.value syntheticScenarioKey).toList
  plain : ∀ call ∈ log.calls, call.context.monitorID = m.id →
    ∀ f p, call.fields.get? f = some p → Text.plain p.toList

end

variable (row : ExecutionRow)

def exampleStep : CoreStep Nat :=
  .row (some exampleCipher) (fun _ => some euRing) (fun _ => 0) row 3 0

def exampleLog : SealLog Nat := finalState (coreStep id) .empty [exampleStep row]

theorem exampleLog_reach : Reach (coreStep id) anyStep SealLog.empty (exampleLog row) :=
  reach_finalState fun _ _ _ => trivial

def cacheJob : DeliveredJob := sealedJob (cacheRow "c0") [("password", .token 0)]

def scenarioJob (first : String) : DeliveredJob :=
  sealedJob (scenarioRow first) [("scenario_secret_a", .token 0), ("scenario_secret_b", .token 1)]

def scenarioGate (first : String) : Except String Materialized :=
  validateAndMaterialize id (some euRing) (exampleLog (scenarioRow first)).vault .inOrder
    (scenarioJob first)

/-- The scenario of a job as the prober gets it. -/
def probed (first text : String) : Materialized :=
  ⟨{ (scenarioJob first).job.monitor with
    config := (scenarioJob first).job.monitor.config.set syntheticScenarioKey text }, true⟩

def renamedCacheJob : DeliveredJob := { cacheJob with job := { cacheJob.job with jobID := "j9" } }

theorem not_gateSecure_renamed :
    ¬ GateSecure id (exampleLog (cacheRow "c0")) (some euRing) .inOrder renamedCacheJob := by
  intro hsecure
  have hM : validateAndMaterialize id (some euRing) (exampleLog (cacheRow "c0")).vault .inOrder
      renamedCacheJob = .ok ⟨{ cacheJob.job.monitor with
        config := cacheJob.job.monitor.config.set "password" "hunter2" }, true⟩ := by
    decide +kernel
  obtain ⟨e, keys, names, fields, he, -, hexpected, hcontains, hsealed, -⟩ :=
    hsecure.required (.inl (by decide +kernel)) _ hM
  have hnames : expectedCredentialFields renamedCacheJob.job.monitor.type
      renamedCacheJob.job.monitor.config = .ok ["password"] := by decide +kernel
  obtain rfl := Except.ok.inj (hnames.symm.trans hexpected)
  obtain ⟨p, hp⟩ := isSome_iff_exists.1 ((hcontains "password").2 mem_cons_self)
  obtain ⟨call, hcall⟩ := hsealed "password" p hp
  have hjob : call.context.jobID = "j9" := hcall.jobID
  have hcalls : ∀ call ∈ (exampleLog (cacheRow "c0")).calls, call.context.jobID ≠ "j9" := by
    decide +kernel
  exact hcalls call hcall.mem hjob

theorem not_gateSecure_nested :
    ¬ GateSecure id (exampleLog (scenarioRow "c1")) (some euRing) .inOrder (scenarioJob "c1") := by
  intro hsecure
  have hM : scenarioGate "c1" = .ok (probed "c1" "x x") := by decide +kernel
  obtain ⟨e, keys, names, fields, he, -, hexpected, hcontains, hsealed, hconfig⟩ :=
    hsecure.required (.inr (.inl (by decide +kernel))) _ hM
  have hnames : expectedCredentialFields (scenarioJob "c1").job.monitor.type
      (scenarioJob "c1").job.monitor.config = .ok ["scenario_secret_a", "scenario_secret_b"] := by
    decide +kernel
  obtain rfl := Except.ok.inj (hnames.symm.trans hexpected)
  -- the two tokens of the envelope say what was sealed
  have hmessage : ∀ f p, fields.get? f = some p → ∃ n x,
      e.fields.get? f = some (.token n) ∧ (exampleLog (scenarioRow "c1")).vault[n]? = some x ∧
        x.message = p := by
    intro f p hp
    obtain ⟨call, hcall⟩ := hsealed f p hp
    obtain ⟨n, x, hc, hn, _, _, -, -, rfl⟩ := hcall.produced
    exact ⟨n, _, hc, hn, rfl⟩
  have hfields : fields =
      .ofList [("scenario_secret_a", scenarioPlaceholder "b"), ("scenario_secret_b", "x")] := by
    cases he
    refine Dict.ext_get? fun f => ?_
    by_cases hmem : f ∈ ["scenario_secret_a", "scenario_secret_b"]
    · obtain ⟨p, hp⟩ := isSome_iff_exists.1 ((hcontains f).2 hmem)
      obtain ⟨n, x, hc, hn, rfl⟩ := hmessage f p hp
      rw [hp]
      rcases mem_pair.1 hmem with rfl | rfl <;>
        · cases hc
          cases hn
          decide +kernel
    · have hkeys : (Dict.ofList [("scenario_secret_a", scenarioPlaceholder "b"),
          ("scenario_secret_b", "x")]).keys = ["scenario_secret_a", "scenario_secret_b"] := by
        decide +kernel
      rw [not_isSome_iff_eq_none.1 (mt (hcontains f).1 hmem)]
      exact (not_isSome_iff_eq_none.1 (mt Dict.mem_keys.2 (by rwa [hkeys]))).symm
  subst hfields
  have hscenario := congrArg (fun m => m.config.get? syntheticScenarioKey) hconfig
  exact absurd hscenario (by decide +kernel)

end Cerbix.Dispatch
