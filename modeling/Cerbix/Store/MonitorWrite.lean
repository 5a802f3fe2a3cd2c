import Cerbix.Domain.CredentialSettings

/-!
# Writing a monitor's configuration

What every writer of `monitors.config` shares (`internal/store/monitors.go`). A submitted
configuration is prepared, its references to the project's inventory are resolved to secret ids
(`get?_monitorRefSettings`, `get?_monitorSecretBindings`), and the values of two keys are encrypted.
An update carries forward the scenario and the inline password it did not submit, as the stored
ciphertext (`marshalConfigForUpdate_eq_ok`).
-/

namespace Cerbix.Store

open Cerbix.Lib Cerbix.Domain Option Text Dict

abbrev SecretID := Nat

/-- Why a write of a monitor is refused. -/
inductive MonitorWriteError
  | settings (msg : String)
  | noAtRestKey (key : String)
  | noStoredCredential
  | noStoredPassword
  | secretsFeatureDisabled
  | secretRefNotFound (setting name : String)
  | notFound
  | managedByFile
  | slugImmutable (stored submitted : String)
  | typeImmutable (stored declared : MonitorType)
  | duplicateID
  deriving DecidableEq, Repr

def MonitorWriteError.text : MonitorWriteError → String
  | .settings msg => msg
  | .noAtRestKey key => "store: no at-rest encryption key configured: " ++ quote key ++
      " needs security.encryption_key to be stored"
  | .noStoredCredential => "store: credential settings require an existing credential to preserve"
  | .noStoredPassword =>
      "store: credential settings require an existing write-only password to preserve"
  | .secretsFeatureDisabled => "store: secret inventory is disabled"
  | .secretRefNotFound setting name => "store: secret reference " ++ quote name ++
      " for setting " ++ quote setting ++ " was not found in the project"
  | .notFound => "store: not found"
  | .managedByFile => "store: monitor is managed by a file provider"
  | .slugImmutable stored submitted => "store: monitor slug is immutable: " ++ quote stored ++
      " is stored, " ++ quote submitted ++ " was submitted"
  | .typeImmutable stored declared => "monitor type is immutable (was " ++ quote stored.text ++
      ", bundle declares " ++ quote declared.text ++ "); use a new UID"
  | .duplicateID => "store: insert monitor: duplicate key value violates unique constraint"

/-! ## Encryption at rest -/

/-- The store's cipher, `none` without a key. The function is what the calls of one write return,
each under its own nonce. -/
abbrev AtRestCipher := Option (String → String)

variable (cipher : AtRestCipher)

/-- `Encrypt` leaves the empty text as it is, and everything when there is no key. -/
def AtRestCipher.encrypt (s : String) : String :=
  match cipher with
  | none => s
  | some enc => if s = "" then s else enc s

def encryptedMonitorConfigKeys : List String := ["password", syntheticScenarioKey]

def writerOnlyMonitorConfigKeys : List String := [syntheticScenarioKey]

/-- The settings as they are stored, secrets encrypted. -/
def marshalConfig (config : Settings) : Except MonitorWriteError Settings :=
  match cipher, writerOnlyMonitorConfigKeys.find? fun k => !blank (config.value k) with
  | none, some k => .error (.noAtRestKey k)
  | _, _ => .ok (config.mapValues fun k v =>
      if k ∈ encryptedMonitorConfigKeys then cipher.encrypt v else v)

def carryKey (old submitted : Settings) (k : String) : Settings :=
  if !blank (submitted.value k) then submitted
  else if old.value k = "" then submitted
  else submitted.set k (old.value k)

/-- `carryWriterOnlyConfigTx`: a stored value that was not submitted moves as its ciphertext. -/
def carryWriterOnlyConfig (old submitted : Settings) : Settings :=
  writerOnlyMonitorConfigKeys.foldl (carryKey old) submitted

/-- `marshalConfigForUpdateTx`. `old` is the row that the statement reads. -/
def marshalConfigForUpdate (old config : Settings) (preserveInline : Bool) :
    Except MonitorWriteError Settings := do
  let encoded ← marshalConfig cipher config
  let carried := carryWriterOnlyConfig old encoded
  if !preserveInline then return carried
  else if old.value "password" = "" then .error .noStoredPassword
  else return carried.set "password" (old.value "password")

section Marshal

variable {cipher : AtRestCipher} {old config stored : Settings} {key : String}

theorem marshalConfig_eq_ok (h : marshalConfig cipher config = .ok stored) (key : String) :
    stored.get? key = (config.get? key).map fun v =>
      if key ∈ encryptedMonitorConfigKeys then cipher.encrypt v else v := by
  unfold marshalConfig at h
  split at h
  · cases h
  · cases h
    exact get?_mapValues _ _ _

theorem get?_marshalConfig (h : marshalConfig cipher config = .ok stored)
    (hkey : key ∉ encryptedMonitorConfigKeys) : stored.get? key = config.get? key := by
  rw [marshalConfig_eq_ok h, funext fun v => if_neg hkey]
  exact map_id'

theorem get?_carryWriterOnlyConfig (hkey : key ≠ syntheticScenarioKey) :
    (carryWriterOnlyConfig old config).get? key = config.get? key := by
  show (carryKey old config syntheticScenarioKey).get? key = config.get? key
  unfold carryKey
  split
  · rfl
  · split
    · rfl
    · rw [get?_set, if_neg hkey]

/-- **What an update stores**, the scenario apart: the submitted settings with the password
encrypted, or the stored password when it is preserved. -/
theorem marshalConfigForUpdate_eq_ok {preserveInline : Bool}
    (h : marshalConfigForUpdate cipher old config preserveInline = .ok stored) :
    (∀ key, key ∉ encryptedMonitorConfigKeys → stored.get? key = config.get? key) ∧
      stored.get? "password" = (if preserveInline then old.get? "password"
          else (config.get? "password").map cipher.encrypt) ∧
      (preserveInline → old.value "password" ≠ "") := by
  unfold marshalConfigForUpdate at h
  obtain ⟨encoded, henc, h⟩ := bind_eq_ok.1 h
  have hcarried : ∀ key, key ≠ syntheticScenarioKey →
      (carryWriterOnlyConfig old encoded).get? key = encoded.get? key := fun key hkey =>
    get?_carryWriterOnlyConfig hkey
  have hother : ∀ key, key ∉ encryptedMonitorConfigKeys →
      (carryWriterOnlyConfig old encoded).get? key = config.get? key := by
    intro key hkey
    rw [hcarried key fun hs => hkey (by simp [encryptedMonitorConfigKeys, hs])]
    exact get?_marshalConfig henc hkey
  split at h
  · next hpreserve =>
    obtain rfl : carryWriterOnlyConfig old encoded = stored := by
      simpa [pure, Except.pure] using h
    simp only [Bool.not_eq_true'] at hpreserve
    subst hpreserve
    refine ⟨hother, ?_, Bool.false_ne_true.elim⟩
    rw [hcarried _ (by decide), marshalConfig_eq_ok henc]
    exact congrArg (fun f => Option.map f _) (funext fun v => if_pos (by decide))
  · split at h
    · cases h
    next hpreserve hold =>
    obtain rfl : (carryWriterOnlyConfig old encoded).set "password" (old.value "password") =
        stored := by simpa [pure, Except.pure] using h
    simp only [Bool.not_eq_true', Bool.not_eq_false] at hpreserve
    subst hpreserve
    refine ⟨fun key hkey => ?_, ?_, fun _ => hold⟩
    · rw [get?_set, if_neg fun hk => hkey (by simp [encryptedMonitorConfigKeys, hk])]
      exact hother key hkey
    · rw [get?_set]
      unfold Settings.value at hold ⊢
      cases hg : old.get? "password" with
      | none => simp [hg] at hold
      | some v => rfl

end Marshal

variable (typ : MonitorType)

/-- The settings of a new monitor, checked. -/
def prepareCreate (input : Settings) : Except MonitorWriteError Settings :=
  if credentialedType typ then
    (prepareCredentialSettings typ input .api).mapError .settings
  else .ok input

/-- `prepareCredentialUpdate`: the prepared settings, and whether the stored credential is kept. -/
def prepareCredentialUpdate (input : Settings) : Except MonitorWriteError (Settings × Bool) := do
  let prepared ← (prepareCredentialSettings typ input .apiUpdate).mapError .settings
  return (prepared, credentialUpdateOmitsSlot typ input)

/-- The settings of an update, and whether it leaves the slot out. -/
def prepareUpdate (input : Settings) : Except MonitorWriteError (Settings × Bool) :=
  if credentialedType typ then prepareCredentialUpdate typ input else .ok (input, false)

/-- `storedCredentialTx`: the reference of the stored row, and whether it has an inline password. -/
def storedCredential (stored : Settings) : String × Bool :=
  (stored.value "password_ref", stored.value "password" ≠ "")

/-- `storedCredentialTx` and the switch after it. -/
def restoreCredential (stored config : Settings) (preserve : Bool) :
    Except MonitorWriteError (Settings × Bool) :=
  if !preserve then .ok (config, false)
  else
    let credential := storedCredential stored
    if credential.1 ≠ "" then .ok (config.set "password_ref" credential.1, false)
    else if credential.2 then .ok (config, true)
    else .error .noStoredCredential

variable {typ : MonitorType} {input : Settings}

theorem credentialedType_of_omits {s : Settings}
    (h : credentialUpdateOmitsSlot typ s) : credentialedType typ := by
  cases typ <;> first | rfl | cases h

theorem prepareUpdate_eq_ok {prepared : Settings} {preserve : Bool}
    (h : prepareUpdate typ input = .ok (prepared, preserve)) :
    preserve = credentialUpdateOmitsSlot typ input ∧
      (∀ key, key = "password" ∨ hasSuffix key refSuffixText → prepared.get? key = input.get? key) ∧
      (credentialedType typ → CredentialSlotWF prepared) := by
  unfold prepareUpdate at h
  split at h
  · obtain ⟨p, hp, h⟩ := bind_eq_ok.1 h
    obtain ⟨hnorm, hwf⟩ := prepareCredentialSettings_eq_ok (mapError_eq_ok.1 hp)
    obtain ⟨rfl, rfl⟩ : p = prepared ∧ credentialUpdateOmitsSlot typ input = preserve := by
      simpa [pure, Except.pure] using h
    refine ⟨rfl, fun key hkey => ?_, fun _ => hwf⟩
    rw [hnorm]
    exact get?_normalizeCredentialSettings hkey
  · next htyp =>
    obtain ⟨rfl, rfl⟩ : input = prepared ∧ false = preserve := by simpa using h
    refine ⟨?_, fun key _ => rfl, fun h => absurd h htyp⟩
    cases homit : credentialUpdateOmitsSlot typ input with
    | false => rfl
    | true => exact absurd (credentialedType_of_omits homit) htyp

theorem get?_of_omits (h : credentialUpdateOmitsSlot typ input) :
    input.get? "password" = none ∧ input.get? "password_ref" = none := by
  unfold credentialUpdateOmitsSlot at h
  split at h
  · simpa [Dict.contains] using h
  · cases h

/-! ## References to the inventory -/

def addRef (refs : Settings) (key name : String) : Settings :=
  if name = "" then refs else refs.set key name

def addBindings (family : BindingFamily) (typ : MonitorType) (config refs : Settings) : Settings :=
  if typ ≠ family.type then refs
  else (family.refKeys config).foldl
    (fun refs key => addRef refs key (trimSpace (config.value key))) refs

/-- The secrets that the settings refer to. -/
def monitorRefSettings (typ : MonitorType) (config : Settings) : Settings :=
  let refs := if credentialedType typ then
      addRef .empty "password_ref" (config.value "password_ref")
    else .empty
  addBindings canaryFamily typ config (addBindings scenarioFamily typ config refs)

/-- `monitorSecretBindings`: the secrets that the references name. `idByName` is the project's
inventory as the locking read returns it. -/
def monitorSecretBindings (secretsEnabled : Bool) (idByName : String → Option SecretID)
    (typ : MonitorType) (config : Settings) : Except MonitorWriteError (Dict String SecretID) :=
  let refs := monitorRefSettings typ config
  if refs.size = 0 then .ok .empty
  else if !secretsEnabled then .error .secretsFeatureDisabled
  else refs.mapM fun setting name =>
    match idByName name with
    | some id => .ok id
    | none => .error (.secretRefNotFound setting name)

section Refs

variable {typ : MonitorType} {config refs : Settings} {key : String}

theorem get?_addRef (name : String) (j : String) :
    (addRef refs key name).get? j = if j = key ∧ name ≠ "" then some name else refs.get? j := by
  unfold addRef
  by_cases hname : name = ""
  · simp [hname]
  · rw [if_neg hname, get?_set]
    by_cases hj : j = key <;> simp [hj, hname]

theorem get?_foldl_addRef (keys : List String) : ∀ refs : Settings,
    (keys.foldl (fun refs key => addRef refs key (trimSpace (config.value key))) refs).get? key =
      if key ∈ keys ∧ trimSpace (config.value key) ≠ "" then
        some (trimSpace (config.value key))
      else refs.get? key := by
  induction keys with
  | nil => simp
  | cons k keys ih =>
    intro refs
    rw [List.foldl_cons, ih, get?_addRef]
    by_cases hk : key = k
    · subst hk
      by_cases htrim : trimSpace (config.value key) = ""
      · simp [htrim]
      · simp [htrim]
    · simp [hk]

/-- Whether the key is a binding of the family that a monitor of the type resolves. -/
def BindingFamily.Binds (family : BindingFamily) (typ : MonitorType) (config : Settings)
    (key : String) : Prop :=
  typ = family.type ∧ key ∈ family.refKeys config ∧ trimSpace (config.value key) ≠ ""

instance (family : BindingFamily) : Decidable (BindingFamily.Binds family typ config key) :=
  inferInstanceAs (Decidable (_ ∧ _))

theorem get?_addBindings (family : BindingFamily) (key : String) :
    (addBindings family typ config refs).get? key =
      if BindingFamily.Binds family typ config key then some (trimSpace (config.value key))
      else refs.get? key := by
  unfold addBindings
  by_cases htyp : typ = family.type
  · rw [if_neg fun h => h htyp, get?_foldl_addRef]
    by_cases hkey : key ∈ family.refKeys config ∧ trimSpace (config.value key) ≠ ""
    · rw [if_pos hkey, if_pos ⟨htyp, hkey⟩]
    · rw [if_neg hkey, if_neg fun h => hkey h.2]
  · rw [if_pos htyp, if_neg fun h => htyp h.1]

/-- **Which settings are references**, and to what name. -/
theorem get?_monitorRefSettings : (monitorRefSettings typ config).get? key =
    if BindingFamily.Binds canaryFamily typ config key ∨
        BindingFamily.Binds scenarioFamily typ config key then
      some (trimSpace (config.value key))
    else if credentialedType typ ∧ key = "password_ref" ∧ config.value "password_ref" ≠ "" then
      some (config.value "password_ref") else none := by
  unfold monitorRefSettings
  rw [get?_addBindings, get?_addBindings]
  by_cases hc : BindingFamily.Binds canaryFamily typ config key
  · rw [if_pos hc, if_pos (.inl hc)]
  rw [if_neg hc]
  by_cases hs : BindingFamily.Binds scenarioFamily typ config key
  · rw [if_pos hs, if_pos (.inr hs)]
  have hnone : ¬(BindingFamily.Binds canaryFamily typ config key ∨
      BindingFamily.Binds scenarioFamily typ config key) := not_or.2 ⟨hc, hs⟩
  rw [if_neg hs, if_neg hnone]
  by_cases htyp : credentialedType typ = true
  · rw [if_pos htyp, get?_addRef]
    simp [htyp]
  · simp [htyp]

theorem binds_credentialed {family : BindingFamily}
    (hfamily : family = canaryFamily ∨ family = scenarioFamily)
    (htyp : credentialedType typ) : ¬BindingFamily.Binds family typ config key := by
  rintro ⟨rfl, -, -⟩
  rcases hfamily with rfl | rfl <;> cases htyp

theorem get?_monitorRefSettings_of_credentialed (htyp : credentialedType typ) :
    (monitorRefSettings typ config).get? key =
      if key = "password_ref" ∧ config.value "password_ref" ≠ "" then
        some (config.value "password_ref")
      else none := by
  rw [get?_monitorRefSettings, if_neg]
  · simp [htyp]
  · exact not_or.2 ⟨binds_credentialed (.inl rfl) htyp, binds_credentialed (.inr rfl) htyp⟩

theorem get?_monitorRefSettings_password_ref (htyp : credentialedType typ)
    (hne : config.get? "password_ref" ≠ some "") :
    (monitorRefSettings typ config).get? "password_ref" = config.get? "password_ref" := by
  rw [get?_monitorRefSettings_of_credentialed htyp]
  unfold Settings.value
  cases hg : config.get? "password_ref" with
  | none => rfl
  | some name =>
    have hname : name ≠ "" := fun h => hne (by rw [hg, h])
    simp [hname]

/-- **What the references resolve to.** Each names a secret, and the binding of a setting is the
secret its reference names. -/
theorem get?_monitorSecretBindings {secretsEnabled : Bool} {idByName : String → Option SecretID}
    {bindings : Dict String SecretID}
    (h : monitorSecretBindings secretsEnabled idByName typ config = .ok bindings) (key : String) :
    bindings.get? key = ((monitorRefSettings typ config).get? key).bind idByName ∧
      ((monitorRefSettings typ config).contains key → bindings.contains key) := by
  unfold monitorSecretBindings at h
  dsimp only at h
  split at h
  · next hsize =>
    cases h
    have hnone : (monitorRefSettings typ config).get? key = none := by
      unfold Dict.get?
      rw [List.eq_nil_of_length_eq_zero hsize]
      rfl
    exact ⟨by rw [hnone]; rfl, fun hc => by rw [Dict.contains, hnone] at hc; cases hc⟩
  · split at h
    · cases h
    obtain ⟨hkeys, hvals⟩ := Dict.mapM_eq_ok h
    have hcontains : bindings.contains key = (monitorRefSettings typ config).contains key := by
      rw [Bool.eq_iff_iff, ← Dict.mem_keys, ← Dict.mem_keys, hkeys]
    refine ⟨?_, fun hc => hcontains.trans hc⟩
    cases hb : bindings.get? key with
    | none =>
      have hnone : (monitorRefSettings typ config).get? key = none := by
        rw [Dict.contains, hb] at hcontains
        exact isSome_eq_false_iff.1 hcontains.symm |> isNone_iff_eq_none.1
      rw [hnone]
      rfl
    | some id =>
      obtain ⟨name, hname, hid⟩ := hvals key id hb
      rw [hname]
      cases hl : idByName name with
      | none => simp [hl] at hid
      | some id' =>
        rw [hl] at hid
        cases hid
        exact hl.symm

end Refs

end Cerbix.Store
