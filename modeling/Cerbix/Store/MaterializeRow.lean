import Cerbix.Dispatch.Credentials

/-!
# Building the jobs of a batch

`materializeRow` (`internal/store/materialize.go`) turns a row of the authoritative read into a job:
it stamps a canary's run, resolves the credentials the configuration refers to, picks the carrier,
seals the envelope and stamps the job, or names the reason why there is none. `materializeTest` does
the same for a monitor that is not stored yet. Either records at most one call in the log of what
was sealed (`materializeRow_log`, `materializeTest_log`), and for a type without a schema seals the
fields the executors expect (`contains_resolveFields`).
-/

namespace Cerbix.Store

open Cerbix.Lib Cerbix.Domain Cerbix.Dispatch BindingFamily Dict

/-- Why there is no job. -/
inductive MaterializeReason
  | skippedCurrentState | missingReference | decryptFailed | noDispatchKey | payloadTooLarge
  | carrierTooOld
  deriving DecidableEq, Repr

def maxMaterializedJobBytes : Nat := 1048576

/-- A secret that a setting refers to. The inventory has no secret without a name. -/
structure MaterializedRef where
  secretID : String
  name : String
  ciphertext : String
  named : name ≠ ""

/-- The store's own cipher: values of the configuration, and secrets of the inventory, which are
bound to their project and id. -/
structure Cipher where
  decrypt : String → Option String
  decryptBytes : (ciphertext projectID secretID : String) → Option String

/-- One row of the read. `stored` is the column; the configuration of `monitor` is what an execution
may see: `scanMonitorForExecution` decrypts the scenario and drops the password. The database
generates the id. -/
structure ExecutionRow where
  monitor : MonitorBody
  stored : Settings
  bound : Dict String MaterializedRef
  jobID : String
  issuedAt : Int
  dueAt : Option Int
  visible : ∀ key, key ≠ "password" → key ≠ syntheticScenarioKey →
    monitor.config.get? key = stored.get? key
  noPassword : monitor.config.get? "password" = none
  identified : jobID ≠ ""

/-- The instant as `CanaryRunKeyAt` reads it, in whole seconds. -/
def canaryRunKeyAt (intervalSeconds unix : Int) : String :=
  if intervalSeconds ≤ 0 then "" else Text.itoa (unix.tdiv intervalSeconds)

/-- The generation that a job travels on. -/
def carrierFor (regionGeneration : Int) (hasEnvelope hasWindow : Bool) (typ : MonitorType) : Int :=
  let regionGeneration :=
    if typ = .asyncCanary && protocolV3 < regionGeneration then protocolV3 else regionGeneration
  if hasWindow && protocolV4 ≤ regionGeneration then protocolV4
  else if !hasEnvelope then protocolV1
  else if protocolV3 < regionGeneration then protocolV3
  else if regionGeneration < protocolV2 then protocolV2
  else regionGeneration

def withCarrier (job : CheckJob) (generation : Int) : CheckJob :=
  { job with
    protocolVersion := generation
    dueAt := if generation < protocolV4 then none else job.dueAt }

def stampJob (job : CheckJob) (generation : Int) : DeliveredJob :=
  ⟨withCarrier job generation, generation⟩

variable (row : ExecutionRow)

section Resolve

variable (cipher : Option Cipher)

/-- The plaintext of a referenced secret. -/
def resolveRef (projectID : String) (bound : Dict String MaterializedRef) (key refName : String) :
    Except MaterializeReason String :=
  match cipher, bound.get? key with
  | some c, some ref =>
    if ref.name ≠ refName || ref.secretID = "" || ref.ciphertext = "" then .error .missingReference
    else match c.decryptBytes ref.ciphertext projectID ref.secretID with
      | some plain => .ok plain
      | none => .error .decryptFailed
  | _, _ => .error .missingReference

def resolveBinding (family : BindingFamily) (row : ExecutionRow) (fields : Dict String String)
    (key : String) : Except MaterializeReason (Dict String String) := do
  let plain ← resolveRef cipher row.monitor.projectID row.bound key
    (Text.trimSpace (row.stored.value key))
  return fields.set (family.fieldOfRefKey key) plain

def declaredRefKeys (family : BindingFamily) (row : ExecutionRow) : List String :=
  if row.monitor.type = family.type then family.refKeys row.stored else []

/-- The password of a credentialed type, by reference or inline. -/
def resolvePassword (row : ExecutionRow) (fields : Dict String String) :
    Except MaterializeReason (Dict String String) :=
  if row.stored.value "password_ref" ≠ "" && credentialedType row.monitor.type then do
    let plain ← resolveRef cipher row.monitor.projectID row.bound "password_ref"
      (row.stored.value "password_ref")
    return fields.set "password" plain
  else if row.stored.value "password" ≠ "" && credentialedType row.monitor.type then
    match cipher with
    | none => .error .decryptFailed
    | some c =>
      match c.decrypt (row.stored.value "password") with
      | none => .error .decryptFailed
      | some plain => .ok (fields.set "password" plain)
  else .ok fields

/-- All secrets of a monitor. -/
def resolveFields (row : ExecutionRow) : Except MaterializeReason (Dict String String) := do
  let fields ← (declaredRefKeys canaryFamily row).foldlM (resolveBinding cipher canaryFamily row)
    .empty
  let fields ← (declaredRefKeys scenarioFamily row).foldlM
      (resolveBinding cipher scenarioFamily row)
    fields
  resolvePassword cipher row fields

end Resolve

/-- The monitor of the job; a canary is given its run. -/
def jobMonitor (unix : Int) : MonitorBody :=
  if row.monitor.type = .asyncCanary && 0 < row.monitor.intervalSeconds then
    { row.monitor with
      config := row.stored.set canaryRunKeyName
        (canaryRunKeyAt row.monitor.intervalSeconds unix) }
  else row.monitor

def plainJob (unix : Int) : CheckJob :=
  ⟨jobMonitor row unix, protocolV1, row.jobID, some row.issuedAt, row.dueAt, none⟩

/-- What the secrets of the job are sealed for. -/
def sealContext (unix version : Int) : SealContext :=
  ⟨version, row.monitor.region, row.jobID, row.monitor.id, row.monitor.executionRevision,
    jobMonitor row unix⟩

def declaresBindings : Bool :=
  !(declaredRefKeys scenarioFamily row).isEmpty || !(declaredRefKeys canaryFamily row).isEmpty

/-- The envelope of the carrier covers the body. -/
def carrierBindsBody (carrierGeneration : Int) : Bool :=
  match envelopeForCarrier carrierGeneration with
  | .ok version => envelopeV2 ≤ version
  | .error _ => false

section Materialize

variable (cipher : Option Cipher) (sha256 : Bytes → Bytes) {κ : Type}
  (forRegion : String → Option (CredentialKeyring κ)) (encodedSize : CheckJob → Nat)

/-- The job with its secrets sealed. -/
def sealJob (row : ExecutionRow) (unix carrierGeneration : Int) (fields : Dict String String)
    (log : SealLog κ) : SealLog κ × Except MaterializeReason DeliveredJob :=
  match forRegion row.monitor.region with
  | none => (log, .error .noDispatchKey)
  | some ring =>
    match envelopeForCarrier carrierGeneration with
    | .error _ => (log, .error .decryptFailed)
    | .ok version =>
      match log.record sha256 ring (sealContext row unix version) fields with
      | .error _ => (log, .error .decryptFailed)
      | .ok (log, envelope) =>
        let sealed := stampJob { plainJob row unix with credentialEnvelope := some envelope }
          carrierGeneration
        if maxMaterializedJobBytes < encodedSize sealed.job then (log, .error .payloadTooLarge)
        else (log, .ok sealed)

/-- `materializeRow`. -/
def materializeRow (row : ExecutionRow) (regionGeneration unix : Int) (log : SealLog κ) :
    SealLog κ × Except MaterializeReason DeliveredJob :=
  let plain := stampJob (plainJob row unix)
    (carrierFor regionGeneration false row.dueAt.isSome row.monitor.type)
  let carrierGeneration := carrierFor regionGeneration true row.dueAt.isSome row.monitor.type
  if !row.monitor.enabled || !row.monitor.type.active then (log, .error .skippedCurrentState)
  else if !credentialedType row.monitor.type && !declaresBindings row then (log, .ok plain)
  else if declaresBindings row && !carrierBindsBody carrierGeneration then
    (log, .error .carrierTooOld)
  else
    match resolveFields cipher row with
    | .error reason => (log, .error reason)
    | .ok fields =>
      if fields.size = 0 then (log, .ok plain)
      else sealJob sha256 forRegion encodedSize row unix carrierGeneration fields log

/-- What the query of a test finds when the project exists: new ids, and the named secret. -/
structure TestQuery where
  monitorID : String
  jobID : String
  secret : Option (String × String)

/-- The secrets of a connection test. -/
def testFields (m : MonitorBody) (found : Option TestQuery) :
    Except MaterializeReason (TestQuery × Dict String String) :=
  if m.config.value "password_ref" ≠ "" then
    match found with
    | some ⟨monitorID, jobID, some (secretID, ciphertext)⟩ =>
      match cipher.bind fun c => c.decryptBytes ciphertext m.projectID secretID with
      | none => .error .decryptFailed
      | some plain =>
        .ok (⟨monitorID, jobID, some (secretID, ciphertext)⟩, empty.set "password" plain)
    | _ => .error .missingReference
  else
    match found with
    | none => .error .skippedCurrentState
    | some query =>
      .ok (query, match m.config.get? "password" with
        | some password => empty.set "password" password
        | none => .empty)

def testMonitor (m : MonitorBody) (monitorID : String) : MonitorBody :=
  { m with
    id := monitorID
    executionRevision := 1
    config := m.config.eraseWhere fun key => key = "password" }

/-- The job of a connection test. -/
def materializeTest (m : MonitorBody) (carrierGeneration : Int) (found : Option TestQuery)
    (log : SealLog κ) : SealLog κ × Except MaterializeReason DeliveredJob :=
  let carrierGeneration := if carrierGeneration ≤ 0 then protocolV2 else carrierGeneration
  if !credentialedType m.type then (log, .ok (stampJob ⟨m, 0, "", none, none, none⟩ protocolV1))
  else
    match testFields cipher m found with
    | .error reason => (log, .error reason)
    | .ok (query, fields) =>
      let job : CheckJob := ⟨testMonitor m query.monitorID, 0, "", none, none, none⟩
      if fields.size = 0 then (log, .ok (stampJob job protocolV1))
      else
        match forRegion m.region with
        | none => (log, .error .noDispatchKey)
        | some ring =>
          match envelopeForCarrier carrierGeneration with
          | .error _ => (log, .error .decryptFailed)
          | .ok version =>
            match log.record sha256 ring
              ⟨version, m.region, query.jobID, query.monitorID, 1, job.monitor⟩ fields with
            | .error _ => (log, .error .decryptFailed)
            | .ok (log, envelope) =>
              (log, .ok (stampJob { job with credentialEnvelope := some envelope }
                carrierGeneration))

end Materialize

/-! ## What a row leaves behind -/

section

variable {cipher : Option Cipher} {sha256 : Bytes → Bytes} {κ : Type}
  {forRegion : String → Option (CredentialKeyring κ)} {encodedSize : CheckJob → Nat}

theorem materializeRow_log (row : ExecutionRow) (regionGeneration unix : Int) (log : SealLog κ) :
    (materializeRow cipher sha256 forRegion encodedSize row regionGeneration unix log).1 = log ∨
      ∃ fields ring version e, resolveFields cipher row = .ok fields ∧
        log.record sha256 ring (sealContext row unix version) fields =
          .ok ((materializeRow cipher sha256 forRegion encodedSize row regionGeneration unix log).1,
            e) := by
  unfold materializeRow
  dsimp only
  split
  · exact .inl rfl
  split
  · exact .inl rfl
  split
  · exact .inl rfl
  split
  · exact .inl rfl
  next fields hfields =>
  split
  · exact .inl rfl
  unfold sealJob
  split
  · exact .inl rfl
  next ring _ =>
  split
  · exact .inl rfl
  next version _ =>
  split
  · exact .inl rfl
  next log' e hrecord =>
  refine .inr ⟨fields, ring, version, e, hfields, ?_⟩
  dsimp only
  split <;> exact hrecord

theorem materializeTest_log (m : MonitorBody) (carrierGeneration : Int) (found : Option TestQuery)
    (log : SealLog κ) :
    (materializeTest cipher sha256 forRegion m carrierGeneration found log).1 = log ∨
      credentialedType m.type ∧ ∃ fields ring version jobID monitorID e,
        log.record sha256 ring ⟨version, m.region, jobID, monitorID, 1, testMonitor m monitorID⟩
          fields =
          .ok ((materializeTest cipher sha256 forRegion m carrierGeneration found log).1, e) := by
  unfold materializeTest
  dsimp only
  split
  · exact .inl rfl
  next htype =>
  split
  · exact .inl rfl
  next query fields _ =>
  split
  · exact .inl rfl
  split
  · exact .inl rfl
  next ring _ =>
  split
  · exact .inl rfl
  next version _ =>
  split
  · exact .inl rfl
  next log' e hrecord =>
  exact .inr ⟨by simpa using htype, fields, ring, version, query.jobID, query.monitorID, e, hrecord⟩

/-- **The jobs of a row**: without an envelope when there is no credential, else with the sealed
one. -/
theorem materializeRow_eq_ok {row : ExecutionRow} {regionGeneration unix : Int}
    {log log' : SealLog κ} {delivered : DeliveredJob}
    (h : materializeRow cipher sha256 forRegion encodedSize row regionGeneration unix log =
      (log', .ok delivered)) : ∃ fields, resolveFields cipher row = .ok fields ∧
      ((fields.size = 0 ∧ delivered = stampJob (plainJob row unix)
          (carrierFor regionGeneration false row.dueAt.isSome row.monitor.type)) ∨
        (fields.size ≠ 0 ∧ ∃ ring version e, forRegion row.monitor.region = some ring ∧
          envelopeForCarrier (carrierFor regionGeneration true row.dueAt.isSome row.monitor.type) =
            .ok version ∧
          (declaresBindings row → envelopeV2 ≤ version) ∧
          log.record sha256 ring (sealContext row unix version) fields = .ok (log', e) ∧
          delivered = stampJob { plainJob row unix with credentialEnvelope := some e }
            (carrierFor regionGeneration true row.dueAt.isSome row.monitor.type))) := by
  unfold materializeRow at h
  dsimp only at h
  split at h
  · cases h
  split at h
  · next hplain =>
    simp only [Bool.and_eq_true, Bool.not_eq_true', declaresBindings, Bool.or_eq_false_iff,
      Bool.not_eq_false', List.isEmpty_iff] at hplain
    obtain ⟨hcred, hscenario, hcanary⟩ := hplain
    refine ⟨.empty, ?_, .inl ⟨rfl, ?_⟩⟩
    · unfold resolveFields resolvePassword
      simp [hscenario, hcanary, hcred]
    · simpa using (Prod.mk.inj h).2.symm
  split at h
  · cases h
  next hbinds =>
  split at h
  · cases h
  next fields hfields =>
  refine ⟨fields, hfields, ?_⟩
  split at h
  · next hsize =>
    exact .inl ⟨hsize, by simpa using (Prod.mk.inj h).2.symm⟩
  next hsize =>
  refine .inr ⟨hsize, ?_⟩
  unfold sealJob at h
  split at h
  · cases h
  next ring hring =>
  split at h
  · cases h
  next version hversion =>
  split at h
  · cases h
  next log'' e hrecord =>
  dsimp only at h
  split at h
  · cases h
  obtain ⟨rfl, rfl⟩ : log'' = log' ∧ _ = delivered := by simpa using h
  refine ⟨ring, version, e, hring, hversion, fun hdeclares => ?_, hrecord, rfl⟩
  simpa [hdeclares, carrierBindsBody, hversion] using hbinds

end

/-! ## The names of the resolved fields -/

section

variable {cipher : Option Cipher} {key : String}

theorem resolveRef_eq_ok {projectID refName plain : String} {bound : Dict String MaterializedRef}
    (h : resolveRef cipher projectID bound key refName = .ok plain) : refName ≠ "" := by
  unfold resolveRef at h
  split at h
  · next c ref _ =>
    split at h
    · cases h
    rename_i hnamed
    simp only [Bool.or_eq_true, decide_eq_true_eq, not_or, not_not] at hnamed
    exact hnamed.1.1 ▸ ref.named
  · cases h

variable {family : BindingFamily} {row : ExecutionRow} {fields : Dict String String}
  {fields' : Dict String String}

theorem resolveBinding_eq_ok (h : resolveBinding cipher family row fields key = .ok fields') :
    Text.blank (row.stored.value key) = false ∧
      ∃ plain, fields' = fields.set (family.fieldOfRefKey key) plain := by
  obtain ⟨plain, hplain, h⟩ := bind_eq_ok.1 h
  refine ⟨?_, plain, by simpa [pure, Except.pure] using h.symm⟩
  rw [← Bool.not_eq_true, Text.blank_iff]
  exact resolveRef_eq_ok hplain

theorem resolveBindings_eq_ok : ∀ {keys : List String} {fields fields' : Dict String String},
      keys.foldlM (resolveBinding cipher family row) fields = .ok fields' →
      (∀ key ∈ keys, Text.blank (row.stored.value key) = false) ∧
        ∀ f, fields'.contains f ↔ fields.contains f ∨ f ∈ keys.map family.fieldOfRefKey
  | [], fields, fields', h => by
    obtain rfl : fields = fields' := by simpa [pure, Except.pure] using h
    simp
  | key :: keys, fields, fields', h => by
    rw [List.foldlM_cons] at h
    obtain ⟨next, hnext, h⟩ := bind_eq_ok.1 h
    obtain ⟨hblank, plain, rfl⟩ := resolveBinding_eq_ok hnext
    obtain ⟨hrest, hnames⟩ := resolveBindings_eq_ok h
    refine ⟨List.forall_mem_cons.2 ⟨hblank, hrest⟩, fun f => ?_⟩
    rw [hnames, contains_set, List.map_cons, List.mem_cons]
    tauto

theorem resolvePassword_eq_ok (h : resolvePassword cipher row fields = .ok fields') :
    fields' = fields ∨ credentialedType row.monitor.type ∧ ∃ plain, fields' =
      fields.set "password" plain := by
  unfold resolvePassword at h
  split at h
  · next hcond =>
    obtain ⟨plain, -, h⟩ := bind_eq_ok.1 h
    exact .inr ⟨by simpa using And.right (by simpa using hcond), plain,
      by simpa [pure, Except.pure] using h.symm⟩
  split at h
  · next hcond =>
    split at h
    · cases h
    split at h
    · cases h
    next plain _ =>
    exact .inr ⟨by simpa using And.right (by simpa using hcond), plain, (Except.ok.inj h).symm⟩
  · exact .inl (Except.ok.inj h).symm

theorem resolveFields_eq_ok (h : resolveFields cipher row = .ok fields) :
    (∀ family, family = scenarioFamily ∨ family = canaryFamily →
      ∀ key ∈ declaredRefKeys family row, Text.blank (row.stored.value key) = false) ∧
    ∃ declared : Dict String String,
      (∀ f, declared.contains f ↔
        f ∈ (declaredRefKeys scenarioFamily row).map scenarioFamily.fieldOfRefKey ∨
        f ∈ (declaredRefKeys canaryFamily row).map canaryFamily.fieldOfRefKey) ∧
      (fields = declared ∨
        credentialedType row.monitor.type ∧ ∃ plain, fields = declared.set "password" plain) := by
  obtain ⟨canary, hcanary, h⟩ := bind_eq_ok.1 h
  obtain ⟨declared, hscenario, h⟩ := bind_eq_ok.1 h
  obtain ⟨hblankC, hnamesC⟩ := resolveBindings_eq_ok hcanary
  obtain ⟨hblankS, hnamesS⟩ := resolveBindings_eq_ok hscenario
  refine ⟨?_, declared, fun f => ?_, resolvePassword_eq_ok h⟩
  · rintro family (rfl | rfl)
    · exact hblankS
    · exact hblankC
  · rw [hnamesS, hnamesC]
    simp [contains, or_comm]

theorem jobMonitor_get? (row : ExecutionRow) (unix : Int) (hpassword : key ≠ "password")
    (hscenario : key ≠ syntheticScenarioKey) (hrun : key ≠ canaryRunKeyName) :
    (jobMonitor row unix).config.get? key = row.stored.get? key := by
  unfold jobMonitor
  split
  · exact (get?_set _ _ _ _).trans (if_neg hrun)
  · exact row.visible key hpassword hscenario

theorem jobMonitor_type (row : ExecutionRow) (unix : Int) :
    (jobMonitor row unix).type = row.monitor.type := by
  unfold jobMonitor
  split <;> rfl

theorem jobMonitor_ref (row : ExecutionRow) (unix : Int)
    (hkey : (family.bindingFromRefKey key).isSome) :
    (jobMonitor row unix).config.get? key = row.stored.get? key := by
  have hsuffix := hasSuffix_of_bindingFromRefKey hkey
  refine jobMonitor_get? row unix ?_ ?_ ?_ <;>
    · rintro rfl
      exact absurd hsuffix (by decide +kernel)

theorem jobMonitor_refKeys (row : ExecutionRow) (unix : Int) (family : BindingFamily) :
    family.refKeys (jobMonitor row unix).config = family.refKeys row.stored :=
  refKeys_congr fun key hkey => by
    rw [contains, jobMonitor_ref row unix hkey, contains]

/-- **A resolved binding is an expected field**, once for every reference key. -/
theorem expectedFields_jobMonitor (h : resolveFields cipher row = .ok fields) (unix : Int)
    (hfamily : family = scenarioFamily ∨ family = canaryFamily) :
    (family.expectedFields row.monitor.type (jobMonitor row unix).config).Perm
      ((declaredRefKeys family row).map family.fieldOfRefKey) := by
  have hblank := (resolveFields_eq_ok h).1 family hfamily
  unfold declaredRefKeys at hblank ⊢
  by_cases htype : row.monitor.type = family.type
  · rw [if_pos htype] at hblank ⊢
    rw [htype]
    rw [← jobMonitor_refKeys row unix family] at hblank ⊢
    refine expectedFields_perm fun key hkey => ?_
    have hsome := (mem_refKeys.1 hkey).2
    rw [Settings.value, jobMonitor_ref row unix hsome]
    exact hblank key hkey
  · rw [if_neg htype, expectedFields, if_pos htype]
    exact .refl _

theorem contains_resolveFields (h : resolveFields cipher row = .ok fields)
    (hcred : credentialedType row.monitor.type = false) (unix : Int) (f : String) :
    fields.contains f ↔ f ∈ scenarioExpectedFields row.monitor.type (jobMonitor row unix).config ++
        canaryExpectedFields row.monitor.type (jobMonitor row unix).config := by
  obtain ⟨-, declared, hnames, hfields⟩ := resolveFields_eq_ok h
  obtain rfl : fields = declared := by
    rcases hfields with rfl | ⟨htrue, -⟩
    · rfl
    · rw [hcred] at htrue
      cases htrue
  rw [hnames, List.mem_append, scenarioExpectedFields, canaryExpectedFields,
    (expectedFields_jobMonitor h unix (.inl rfl)).mem_iff,
    (expectedFields_jobMonitor h unix (.inr rfl)).mem_iff]

end

/-! ## A cache and a scenario

One region with one key. The password of the cache is stored under a ciphertext; the scenario names
two secrets, the first of which has the placeholder of the second in it. -/

def euRing : CredentialKeyring Nat where
  primaryID := "k1"
  primaryKey := 7
  byID := .ofList [("k1", 7)]
  primary := by decide +kernel

def exampleBody (type : MonitorType) (target : String) (config : Settings) : MonitorBody :=
  ⟨"m1", "p1", type, target, "eu", true, 60, 5, 0, [], 1, config⟩

def exampleCipher : Cipher where
  decrypt _ := some "hunter2"
  decryptBytes ciphertext _ _ :=
    some (if ciphertext = "c1" then scenarioPlaceholder "b" else ciphertext)

def cacheRow (password : String) : ExecutionRow where
  monitor := exampleBody .redis "cache:6379" (.ofList [("tls", "true")])
  stored := (ofList [("tls", "true")]).set "password" password
  bound := .empty
  jobID := "j1"
  issuedAt := 0
  dueAt := none
  visible key hpassword _ := by rw [get?_set, if_neg hpassword]; rfl
  noPassword := by decide +kernel
  identified := by decide

def scenarioSettings : Settings :=
  .ofList [("scenario_secret_a_ref", "sa"), ("scenario_secret_b_ref", "sb")]

/-- Two bindings, the first of them to the given ciphertext. -/
def scenarioRow (first : String) : ExecutionRow where
  monitor := exampleBody .synthetic "" (scenarioSettings.set syntheticScenarioKey
    (scenarioPlaceholder "a" ++ " " ++ scenarioPlaceholder "b"))
  stored := scenarioSettings.set syntheticScenarioKey "c9"
  bound := .ofList [("scenario_secret_a_ref", ⟨"1", "sa", first, by decide⟩),
    ("scenario_secret_b_ref", ⟨"2", "sb", "x", by decide⟩)]
  jobID := "j2"
  issuedAt := 0
  dueAt := none
  visible key _ hscenario := by
    show (set _ _ _).get? key = _
    rw [get?_set, get?_set, if_neg hscenario, if_neg hscenario]
  noPassword := by decide +kernel
  identified := by decide

/-- The job of a row with the envelope that core sealed for it, on the third carrier. -/
def sealedJob (fields : List (String × Ciphertext)) : DeliveredJob :=
  stampJob { plainJob row 0 with
    credentialEnvelope := some ⟨envelopeV2, "eu", "k1", row.jobID, .ofList fields⟩ } protocolV3

end Cerbix.Store
