import Cerbix.Dispatch.Binding
import Cerbix.Lib.Vault

/-!
# Credential envelopes

`internal/dispatch/credentials.go`: core seals the credential of a job field by field
(`sealEnvelope`, `Seal` in the source). The associated data bind a ciphertext to the region, the
key, the monitor, its revision, the field and the job, and from version 2 on to the set of fields
and the execution digest of the body (`envelopeAAD_inj`). `SealLog` is what core has sealed so far.

Encryption is the ideal one of `Lib.Vault`, the hash is a parameter.
-/

namespace Cerbix.Dispatch

open Cerbix.Lib Cerbix.Domain List Text Dict

/-! ## Jobs -/

/-- Generations of the carrier; envelopes come with the second, their body digest with the third. -/
def protocolV1 : Int := 1
def protocolV2 : Int := 2
def protocolV3 : Int := 3
def protocolV4 : Int := 4
/-- Versions of the envelope; the second binds the field set and the body. -/
def envelopeV1 : Int := 1
def envelopeV2 : Int := 2

/-- The sealed credentials that travel with a job. -/
structure CredentialEnvelope where
  v : Int
  region : String
  keyID : String
  jobID : String
  fields : Dict String Ciphertext
  deriving DecidableEq

/-- The job that core publishes. -/
structure CheckJob where
  monitor : MonitorBody
  protocolVersion : Int
  jobID : String
  issuedAt : Option Int
  dueAt : Option Int
  credentialEnvelope : Option CredentialEnvelope
  deriving DecidableEq

/-- A job with the generation of the carrier that brought it. -/
structure DeliveredJob where
  job : CheckJob
  carrierGeneration : Int
  deriving DecidableEq

/-- The keys of a region. The primary one, which seals, is among them. -/
structure CredentialKeyring (κ : Type) where
  primaryID : String
  primaryKey : κ
  byID : Dict String κ
  primary : byID.get? primaryID = some primaryKey

/-- What a credential is sealed for. -/
structure SealContext where
  envelopeVersion : Int
  region : String
  jobID : String
  monitorID : String
  revision : Int
  body : MonitorBody
  deriving DecidableEq

/-- The digests that an envelope of the second version authenticates. -/
structure ExecutionBinding where
  fieldSet : Bytes
  body : Bytes
  deriving DecidableEq, Repr

/-- The parts, each with its length before it. -/
def canonicalAAD (parts : List Bytes) : Bytes := frame parts

/-- What the ciphertext of a field is bound to. -/
def envelopeAAD (e : CredentialEnvelope) (monitorID : String) (revision : Int) (field : String)
    (binding : ExecutionBinding) : Bytes :=
  canonicalAAD ([utf8 (itoa e.v), utf8 e.region, utf8 e.keyID, utf8 monitorID, utf8 (itoa revision),
      utf8 field, utf8 e.jobID] ++
      if envelopeV2 ≤ e.v then [binding.fieldSet, binding.body] else [])

section Envelope

variable (sha256 : Bytes → Bytes)

/-- The digest of the names of all fields, with their number. -/
def fieldSetDigest (names : List String) : Bytes :=
  sha256 (canonicalAAD ((itoa names.length :: names).map utf8))

/-- The digest of the parts of a body that its execution depends on. -/
def executionBodyDigest (m : MonitorBody) : Except String Bytes := do
  let parts ← executionDTOParts m
  return sha256 (canonicalAAD (parts.map utf8))

/-- The digests of a version; the first has none. -/
def bindingFor (version : Int) (body : MonitorBody) (names : List String) :
    Except String ExecutionBinding :=
  if version < envelopeV2 then .ok ⟨[], []⟩
  else do
    let digest ← (executionBodyDigest sha256 body).mapError ("dispatch: execution binding: " ++ ·)
    return ⟨fieldSetDigest sha256 names, digest⟩

variable {κ : Type} [DecidableEq κ]

/-- Seal the fields one by one; an empty secret is refused. -/
def sealFields (key : κ) (aad : String → Bytes) : Vault κ Bytes String → List (String × String) →
      Except String (Vault κ Bytes String × List (String × Ciphertext))
  | vault, [] => .ok (vault, [])
  | vault, (field, plain) :: rest => do
    refuseIf (plain = "") ("dispatch: seal credential field " ++ quote field ++
      ": secret: empty plaintext")
    let (vault, sealed) := vault.encrypt ⟨key, aad field, plain⟩
    let (vault, tail) ← sealFields key aad vault rest
    return (vault, (field, sealed) :: tail)

/-- The envelope that carries the fields. -/
def SealContext.envelope (sc : SealContext) (keyID : String) (fields : Dict String Ciphertext) :
    CredentialEnvelope :=
  ⟨sc.envelopeVersion, sc.region, keyID, sc.jobID, fields⟩

/-- `Seal`. -/
def sealEnvelope (ring : CredentialKeyring κ) (sc : SealContext) (fields : Dict String String)
    (vault : Vault κ Bytes String) : Except String (Vault κ Bytes String × CredentialEnvelope) := do
  refuseIf (sc.region = "" || sc.jobID = "" || sc.monitorID = "" || sc.revision < 1)
    "dispatch: incomplete credential envelope context"
  refuseIf (sc.envelopeVersion ≠ envelopeV1 && sc.envelopeVersion ≠ envelopeV2)
    ("dispatch: unsupported credential envelope version " ++ itoa sc.envelopeVersion)
  refuseIf (fields.contains "") "dispatch: empty credential field name"
  let binding ← bindingFor sha256 sc.envelopeVersion sc.body fields.keys
  let header := sc.envelope ring.primaryID .empty
  let (vault, sealed) ← sealFields ring.primaryKey
    (fun field => envelopeAAD header sc.monitorID sc.revision field binding) vault fields.entries
  return (vault, sc.envelope ring.primaryID (.ofList sealed))

/-- Why a ciphertext did not open. -/
def decryptError : Ciphertext → String
  | .foreign text =>
    if hasPrefix text "enc:v2a:" then "secret: authentication failed for this value and context"
    else "secret: value is not an AAD-bound ciphertext"
  | .token _ => "secret: authentication failed for this value and context"

/-- Open one field. -/
def openField (vault : Vault κ Bytes String) (key : κ) (aad : String → Bytes) (field : String)
    (c : Ciphertext) : Except String String :=
  match vault.decrypt key (aad field) c with
  | some plain => .ok plain
  | none => .error ("dispatch: decrypt credential field " ++ quote field ++ ": " ++
      decryptError c)

/-- `Open`. -/
def openEnvelope (ring : CredentialKeyring κ) (vault : Vault κ Bytes String) (job : CheckJob)
    (e : CredentialEnvelope) : Except String (Dict String String) := do
  refuseIf (e.v ≠ envelopeV1 && e.v ≠ envelopeV2)
    ("dispatch: unsupported credential envelope version " ++ itoa e.v)
  refuseIf (job.protocolVersion < protocolV2)
    "dispatch: credential envelope requires an envelope-bearing protocol version"
  refuseIf (e.region = "" || e.region ≠ job.monitor.region || e.jobID = "")
    "dispatch: credential envelope context mismatch"
  match ring.byID.get? e.keyID with
  | none => .error ("dispatch: unknown credential key id " ++ quote e.keyID)
  | some key =>
    let binding ← bindingFor sha256 e.v job.monitor e.fields.keys
    e.fields.mapM (openField vault key fun field =>
      envelopeAAD e job.monitor.id job.monitor.executionRevision field binding)

end Envelope

/-! ## What is sealed, and what opens -/

theorem map_utf8_injective : ∀ {xs ys : List String}, xs.map utf8 = ys.map utf8 → xs = ys :=
  fun h => (map_injective_iff.2 utf8_injective) h

theorem canonicalAAD_injective : Function.Injective canonicalAAD := frame_injective

/-- **Associated data determine what they were built from**: the digests only from version 2 on. -/
theorem envelopeAAD_inj {e₁ e₂ : CredentialEnvelope} {id₁ id₂ f₁ f₂ : String} {r₁ r₂ : Int}
    {b₁ b₂ : ExecutionBinding} (h : envelopeAAD e₁ id₁ r₁ f₁ b₁ = envelopeAAD e₂ id₂ r₂ f₂ b₂) :
    e₁.v = e₂.v ∧ e₁.region = e₂.region ∧ e₁.keyID = e₂.keyID ∧ id₁ = id₂ ∧ r₁ = r₂ ∧ f₁ = f₂ ∧
      e₁.jobID = e₂.jobID ∧ (envelopeV2 ≤ e₁.v → b₁ = b₂) := by
  have hparts := canonicalAAD_injective h
  simp only [cons_append, List.cons.injEq, utf8_injective.eq_iff, itoa_injective.eq_iff] at hparts
  obtain ⟨hv, hregion, hkey, hid, hrev, hfield, hjob, hrest⟩ := hparts
  refine ⟨hv, hregion, hkey, hid, hrev, hfield, hjob, fun hle => ?_⟩
  rw [if_pos hle, if_pos (hv ▸ hle)] at hrest
  obtain ⟨f₁, d₁⟩ := b₁
  obtain ⟨f₂, d₂⟩ := b₂
  simpa using hrest

section Specs

variable {sha256 : Bytes → Bytes}

theorem bindingFor_eq_ok {version : Int} {body : MonitorBody} {names : List String}
    {binding : ExecutionBinding} (hv : envelopeV2 ≤ version)
    (h : bindingFor sha256 version body names = .ok binding) :
    ∃ parts, executionDTOParts body = .ok parts ∧
      binding = ⟨fieldSetDigest sha256 names, sha256 (canonicalAAD (parts.map utf8))⟩ := by
  rw [bindingFor, if_neg (not_lt.2 hv)] at h
  obtain ⟨digest, hdigest, h⟩ := bind_eq_ok.1 h
  obtain ⟨parts, hparts, hdigest⟩ := bind_eq_ok.1 (mapError_eq_ok.1 hdigest)
  obtain rfl : sha256 (canonicalAAD (parts.map utf8)) = digest := by
    simpa [pure, Except.pure] using hdigest
  exact ⟨parts, hparts, by simpa [pure, Except.pure] using h.symm⟩

theorem fieldSetDigest_injective (hsha : Function.Injective sha256) :
    Function.Injective (fieldSetDigest sha256) := by
  intro ns ms h
  exact (List.cons.inj (map_utf8_injective (canonicalAAD_injective (hsha h)))).2

variable {κ : Type} [DecidableEq κ] {aad : String → Bytes} {sc : SealContext}
  {vault' : Vault κ Bytes String} {job : CheckJob}

theorem sealFields_eq_ok {key : κ} : ∀ {xs : List (String × String)}
    {vault vault' : Vault κ Bytes String} {cs : List (String × Ciphertext)},
    sealFields key aad vault xs = .ok (vault', cs) →
    vault' = vault ++ xs.map (fun x => ⟨key, aad x.1, x.2⟩) ∧
      List.Forall₂ (fun x c => x.1 = c.1 ∧ x.2 ≠ "" ∧
        vault'.decrypt key (aad x.1) c.2 = some x.2) xs cs
  | [], vault, vault', cs, h => by
    obtain ⟨rfl, rfl⟩ : vault = vault' ∧ [] = cs := by simpa [sealFields] using h
    exact ⟨(append_nil _).symm, .nil⟩
  | (field, plain) :: xs, vault, vault', cs, h => by
    obtain ⟨_, hne, h⟩ := bind_eq_ok.1 h
    obtain ⟨⟨vault'', tail⟩, htail, h⟩ := bind_eq_ok.1 h
    obtain ⟨rfl, rfl⟩ : vault'' = vault' ∧ (field, .token vault.length) :: tail = cs := by
      simpa [pure, Except.pure] using h
    obtain ⟨rfl, hall⟩ := sealFields_eq_ok htail
    refine ⟨by simp, .cons ⟨rfl, ?_, ?_⟩ hall⟩
    · simpa using refuseIf_eq_ok.1 hne
    · exact Vault.decrypt_append (Vault.decrypt_encrypt vault ⟨key, aad field, plain⟩) _

/-- What a seal that succeeds has checked and produced. -/
structure Sealed (sha256 : Bytes → Bytes) (ring : CredentialKeyring κ) (sc : SealContext)
    (fields : Dict String String) (vault vault' : Vault κ Bytes String) (e : CredentialEnvelope) :
    Prop where
  region : sc.region ≠ ""
  jobID : sc.jobID ≠ ""
  version : sc.envelopeVersion = envelopeV1 ∨ sc.envelopeVersion = envelopeV2
  header : e = sc.envelope ring.primaryID e.fields
  keys : e.fields.keys = fields.keys
  plain : ∀ f p, fields.get? f = some p → p ≠ ""
  bound : ∃ binding, bindingFor sha256 sc.envelopeVersion sc.body fields.keys = .ok binding ∧
    vault' = vault ++ fields.entries.map (fun x =>
      ⟨ring.primaryKey, envelopeAAD e sc.monitorID sc.revision x.1 binding, x.2⟩) ∧
    ∀ f p c, fields.get? f = some p → e.fields.get? f = some c →
      vault'.decrypt ring.primaryKey (envelopeAAD e sc.monitorID sc.revision f binding) c = some p

variable {ring : CredentialKeyring κ} {fields : Dict String String} {vault : Vault κ Bytes String}
  {e : CredentialEnvelope}

theorem sealEnvelope_eq_ok (h : sealEnvelope sha256 ring sc fields vault = .ok (vault', e)) :
    Sealed sha256 ring sc fields vault vault' e := by
  obtain ⟨_, hcontext, h⟩ := bind_eq_ok.1 h
  obtain ⟨_, hversion, h⟩ := bind_eq_ok.1 h
  obtain ⟨_, _, h⟩ := bind_eq_ok.1 h
  obtain ⟨binding, hbinding, h⟩ := bind_eq_ok.1 h
  obtain ⟨⟨vault'', sealed⟩, hsealed, h⟩ := bind_eq_ok.1 h
  obtain ⟨rfl, rfl⟩ : vault'' = vault' ∧ sc.envelope ring.primaryID (.ofList sealed) = e := by
    simpa [pure, Except.pure] using h
  obtain ⟨hvault, hall⟩ := sealFields_eq_ok hsealed
  have hfst : fields.entries.map Prod.fst = sealed.map Prod.fst :=
    map_eq_map_of_forall₂ hall fun x c hxc => hxc.1
  have hentries : (ofList sealed).entries = sealed :=
    entries_ofList (by rw [← hfst]; exact fields.sorted)
  have hlook : ∀ f p, fields.get? f = some p → ∃ c, sealed.lookup f = some c ∧ p ≠ "" ∧
      vault''.decrypt ring.primaryKey (envelopeAAD (sc.envelope ring.primaryID .empty) sc.monitorID
        sc.revision f binding) c = some p := fun f p hp =>
    lookup_of_forall₂ (R := fun f p c => p ≠ "" ∧
      vault''.decrypt ring.primaryKey (envelopeAAD (sc.envelope ring.primaryID .empty) sc.monitorID
        sc.revision f binding) c = some p) hall hp
  have hcontext' := refuseIf_eq_ok.1 hcontext
  have hversion' := refuseIf_eq_ok.1 hversion
  simp only [Bool.or_eq_false_iff, decide_eq_false_iff_not] at hcontext'
  simp only [Bool.and_eq_false_iff, decide_eq_false_iff_not, not_not] at hversion'
  refine ⟨hcontext'.1.1.1, hcontext'.1.1.2, hversion', rfl, ?_, ?_, binding, hbinding, ?_, ?_⟩
  · show (ofList sealed).keys = fields.keys
    rw [Dict.keys, hentries, ← hfst]
    rfl
  · intro f p hp
    obtain ⟨c, -, hne, -⟩ := hlook f p hp
    exact hne
  · exact hvault
  · intro f p c hp hc
    obtain ⟨c', hc', -, hopen⟩ := hlook f p hp
    have hcc : c' = c := by
      have hget : (ofList sealed).get? f = some c := hc
      rw [get?, hentries, hc'] at hget
      exact Option.some.inj hget
    exact hcc ▸ hopen

/-- What an open that succeeds has checked and read. -/
structure Opened (sha256 : Bytes → Bytes) (ring : CredentialKeyring κ)
    (vault : Vault κ Bytes String)
    (job : CheckJob) (e : CredentialEnvelope) (fields : Dict String String) : Prop where
  version : e.v = envelopeV1 ∨ e.v = envelopeV2
  region : e.region = job.monitor.region
  keys : fields.keys = e.fields.keys
  opened : ∃ key binding, ring.byID.get? e.keyID = some key ∧
    bindingFor sha256 e.v job.monitor e.fields.keys = .ok binding ∧
    ∀ f p, fields.get? f = some p → ∃ c, e.fields.get? f = some c ∧ vault.decrypt key
        (envelopeAAD e job.monitor.id job.monitor.executionRevision f binding) c = some p

theorem openField_eq_ok {key : κ} {field p : String} {c : Ciphertext} :
    openField vault key aad field c = .ok p ↔ vault.decrypt key (aad field) c = some p := by
  unfold openField
  cases vault.decrypt key (aad field) c <;> simp

theorem openEnvelope_eq_ok (h : openEnvelope sha256 ring vault job e = .ok fields) :
    Opened sha256 ring vault job e fields := by
  obtain ⟨_, hversion, h⟩ := bind_eq_ok.1 h
  obtain ⟨_, _, h⟩ := bind_eq_ok.1 h
  obtain ⟨_, hregion, h⟩ := bind_eq_ok.1 h
  have hversion' := refuseIf_eq_ok.1 hversion
  have hregion' := refuseIf_eq_ok.1 hregion
  simp only [Bool.and_eq_false_iff, decide_eq_false_iff_not, not_not] at hversion'
  simp only [Bool.or_eq_false_iff, decide_eq_false_iff_not, not_not] at hregion'
  cases hkey : ring.byID.get? e.keyID with
  | none => simp [hkey] at h
  | some key =>
    simp only [hkey] at h
    obtain ⟨binding, hbinding, h⟩ := bind_eq_ok.1 h
    obtain ⟨hkeys, hopen⟩ := mapM_eq_ok h
    refine ⟨hversion', hregion'.1.2, hkeys, key, binding, hkey, hbinding, fun f p hp => ?_⟩
    obtain ⟨c, hc, hp⟩ := hopen f p hp
    exact ⟨c, hc, openField_eq_ok.1 hp⟩

/-- **What was sealed opens**: for the monitor it was sealed for, with any later seals. -/
theorem openEnvelope_of_sealed {later : Vault κ Bytes String}
    (h : Sealed sha256 ring sc fields vault vault' e)
    (hprotocol : protocolV2 ≤ job.protocolVersion) (hbody : job.monitor = sc.body)
    (hregion : job.monitor.region = sc.region) (hid : job.monitor.id = sc.monitorID)
    (hrevision : job.monitor.executionRevision = sc.revision) :
    openEnvelope sha256 ring (vault' ++ later) job e = .ok fields := by
  obtain ⟨binding, hbinding, -, hopen⟩ := h.bound
  have hheader := h.header
  have hv : e.v = sc.envelopeVersion := by rw [hheader]; rfl
  have hreg : e.region = sc.region := by rw [hheader]; rfl
  have hkey : e.keyID = ring.primaryID := by rw [hheader]; rfl
  have hjob : e.jobID = sc.jobID := by rw [hheader]; rfl
  have hversion : (e.v ≠ envelopeV1 && e.v ≠ envelopeV2 : Bool) = false := by
    rcases h.version with hver | hver <;> rw [hv, hver] <;> decide
  have hcontext : (e.region = "" || e.region ≠ job.monitor.region || e.jobID = "" : Bool) =
      false := by
    rw [hreg, hjob, hregion]
    simp [h.region, h.jobID]
  unfold openEnvelope
  rw [refuseIf_of_false hversion, refuseIf_of_false (by simpa using hprotocol),
    refuseIf_of_false hcontext, hkey, ring.primary]
  show (do
    let binding ← bindingFor sha256 e.v job.monitor e.fields.keys
    e.fields.mapM _) = _
  rw [hv, hbody, h.keys, hbinding]
  refine mapM_eq_ok_of_keys h.keys.symm fun f c p hc hp => openField_eq_ok.2 ?_
  rw [← hbody, hid, hrevision]
  exact Vault.decrypt_append (hopen f p c hp hc) later

end Specs

/-- A call of `Seal` that succeeded. -/
structure SealCall (κ : Type) where
  keyID : String
  key : κ
  context : SealContext
  fields : Dict String String

/-- The sealing is that of the call's field. -/
def SealCall.Produced (sha256 : Bytes → Bytes) {κ : Type} (call : SealCall κ) (field plain : String)
    (x : Sealing κ Bytes String) : Prop :=
  ∃ binding fields,
    bindingFor sha256 call.context.envelopeVersion call.context.body call.fields.keys =
      .ok binding ∧
    call.fields.get? field = some plain ∧
    x = ⟨call.key, envelopeAAD (call.context.envelope call.keyID fields) call.context.monitorID
      call.context.revision field binding, plain⟩

/-- All that core ever sealed. -/
structure SealLog (κ : Type) where
  vault : Vault κ Bytes String
  calls : List (SealCall κ)

namespace SealLog

variable (sha256 : Bytes → Bytes) {κ : Type} [DecidableEq κ]

def empty : SealLog κ := ⟨[], []⟩

/-- Seal, and note the call. -/
def record (log : SealLog κ) (ring : CredentialKeyring κ) (sc : SealContext)
    (fields : Dict String String) : Except String (SealLog κ × CredentialEnvelope) := do
  let (vault, e) ← sealEnvelope sha256 ring sc fields log.vault
  return (⟨vault, log.calls ++ [⟨ring.primaryID, ring.primaryKey, sc, fields⟩]⟩, e)

/-- Every sealing in the vault was produced by a call of the log. -/
def Grounded (log : SealLog κ) : Prop :=
  ∀ x ∈ log.vault, ∃ call ∈ log.calls, ∃ f p, call.Produced sha256 f p x

variable {sha256} {log log' : SealLog κ} {ring : CredentialKeyring κ} {sc : SealContext}
  {fields : Dict String String} {e : CredentialEnvelope}

theorem record_eq_ok (h : log.record sha256 ring sc fields = .ok (log', e)) :
    Sealed sha256 ring sc fields log.vault log'.vault e ∧
      log'.calls = log.calls ++ [⟨ring.primaryID, ring.primaryKey, sc, fields⟩] := by
  obtain ⟨⟨vault, e'⟩, hseal, h⟩ := bind_eq_ok.1 h
  obtain ⟨rfl, rfl⟩ : SealLog.mk vault (log.calls ++
      [⟨ring.primaryID, ring.primaryKey, sc, fields⟩]) =
      log' ∧ e' = e := by simpa [pure, Except.pure] using h
  exact ⟨sealEnvelope_eq_ok hseal, rfl⟩

theorem Grounded.record (hg : log.Grounded sha256)
    (h : log.record sha256 ring sc fields = .ok (log', e)) : log'.Grounded sha256 := by
  obtain ⟨hsealed, hcalls⟩ := record_eq_ok h
  obtain ⟨binding, hbinding, hvault, -⟩ := hsealed.bound
  intro x hx
  rw [hvault] at hx
  rw [hcalls]
  rcases mem_append.1 hx with hx | hx
  · obtain ⟨call, hcall, hrest⟩ := hg x hx
    exact ⟨call, mem_append_left _ hcall, hrest⟩
  · obtain ⟨⟨f, p⟩, hfp, rfl⟩ := mem_map.1 hx
    refine ⟨_, mem_append_right _ (mem_singleton.2 rfl), f, p, binding, e.fields, hbinding,
      mem_entries.1 hfp, ?_⟩
    rw [hsealed.header]
    rfl

end SealLog

end Cerbix.Dispatch
