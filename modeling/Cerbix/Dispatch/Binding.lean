import Cerbix.Domain.CredentialSettings
import Cerbix.Lib.Framing

/-!
# The execution binding of a job

`executionDTOParts` lists what of a job's body a credential is bound to
(`internal/dispatch/execbinding.go`): type, target, timeout, retries, conditions and the digested
settings with their canonical values. Bodies with the same parts agree on each of those
(`executionDTOParts_agree`), a setting up to a default that is stated or left out.
-/

namespace Cerbix.Dispatch

open Cerbix.Lib Cerbix.Domain List BindingFamily Text

/-- The monitor as it travels with a job. -/
structure MonitorBody where
  id : String
  projectID : String
  type : MonitorType
  target : String
  region : String
  enabled : Bool
  intervalSeconds : Int
  timeoutSeconds : Int
  retries : Int
  conditions : List String
  executionRevision : Int
  config : Settings
  deriving DecidableEq

def executionDTOVersion : String := "1"

def boundSetting (m : MonitorBody) (key : String) : Except String (String × String) := do
  let value ← canonicalSettingValue m.type m.config key
  return (key, value)

def dtoParts (m : MonitorBody) (settings : List (String × String)) : List String :=
  [executionDTOVersion, m.type.text, m.target, itoa m.timeoutSeconds, itoa m.retries,
    itoa m.conditions.length] ++ (m.conditions ++ (itoa settings.length ::
      settings.flatMap fun e => [e.1, e.2]))

def executionDTOParts (m : MonitorBody) : Except String (List String) := do
  let keys ← executionBindingKeys m.type m.config
  let settings ← keys.mapM (boundSetting m)
  return dtoParts m settings

/-! ## What the parts determine -/

variable {m₁ m₂ m : MonitorBody} {parts keys : List String}

theorem dtoParts_inj {s₁ s₂ : List (String × String)} (h : dtoParts m₁ s₁ = dtoParts m₂ s₂) :
    m₁.type = m₂.type ∧ m₁.target = m₂.target ∧ m₁.timeoutSeconds = m₂.timeoutSeconds ∧
      m₁.retries = m₂.retries ∧ m₁.conditions = m₂.conditions ∧ s₁ = s₂ := by
  simp only [dtoParts, cons_append, nil_append, List.cons.injEq, true_and] at h
  obtain ⟨htype, htarget, htimeout, hretries, hcount, h⟩ := h
  have hlen : m₁.conditions.length = m₂.conditions.length :=
    Int.ofNat_inj.1 (itoa_injective hcount)
  obtain ⟨hconditions, h⟩ := append_inj h hlen
  exact ⟨MonitorType.text_injective htype, htarget, itoa_injective htimeout,
    itoa_injective hretries, hconditions, flatMap_pair_injective (List.cons.inj h).2⟩

theorem executionDTOParts_eq_ok (h : executionDTOParts m = .ok parts) :
    ∃ keys settings, executionBindingKeys m.type m.config = .ok keys ∧
      List.Forall₂ (fun k e => e.1 = k ∧ canonicalSettingValue m.type m.config k = .ok e.2)
        keys settings ∧ parts = dtoParts m settings := by
  obtain ⟨keys, hkeys, h⟩ := bind_eq_ok.1 h
  obtain ⟨settings, hsettings, h⟩ := bind_eq_ok.1 h
  refine ⟨keys, settings, hkeys, ?_, ?_⟩
  · refine (mapM_eq_ok hsettings).imp fun k e he => ?_
    obtain ⟨v, hv, he⟩ := bind_eq_ok.1 he
    obtain rfl : (k, v) = e := by simpa [pure, Except.pure] using he
    exact ⟨rfl, hv⟩
  · simpa [pure, Except.pure] using h.symm

/-- The digest of the body cannot tell the monitors apart. -/
structure SameBinding (m₁ m₂ : MonitorBody) : Prop where
  type : m₁.type = m₂.type
  target : m₁.target = m₂.target
  timeout : m₁.timeoutSeconds = m₂.timeoutSeconds
  retries : m₁.retries = m₂.retries
  conditions : m₁.conditions = m₂.conditions
  keys : executionBindingKeys m₁.type m₁.config = executionBindingKeys m₂.type m₂.config
  values : ∀ keys, executionBindingKeys m₁.type m₁.config = .ok keys → ∀ k ∈ keys,
    canonicalSettingValue m₁.type m₁.config k = canonicalSettingValue m₂.type m₂.config k

theorem forall₂_keys {settings : List (String × String)}
    (h : List.Forall₂ (fun k e => e.1 = k ∧ canonicalSettingValue m.type m.config k = .ok e.2)
      keys settings) : keys = settings.map Prod.fst ∧
      ∀ e ∈ settings, canonicalSettingValue m.type m.config e.1 = .ok e.2 := by
  induction h with
  | nil => exact ⟨rfl, fun _ he => absurd he not_mem_nil⟩
  | @cons k e keys settings hke _ ih =>
    obtain ⟨rfl, hv⟩ := hke
    refine ⟨by rw [map_cons, ← ih.1], fun e' he' => ?_⟩
    rcases mem_cons.1 he' with rfl | he'
    · exact hv
    · exact ih.2 e' he'

/-- **Equal parts bind the same execution**, as far as the digest covers it. -/
theorem executionDTOParts_agree
    (h₁ : executionDTOParts m₁ = .ok parts) (h₂ : executionDTOParts m₂ = .ok parts) :
    SameBinding m₁ m₂ := by
  obtain ⟨keys₁, s₁, hkeys₁, hvals₁, rfl⟩ := executionDTOParts_eq_ok h₁
  obtain ⟨keys₂, s₂, hkeys₂, hvals₂, hparts⟩ := executionDTOParts_eq_ok h₂
  obtain ⟨htype, htarget, htimeout, hretries, hconditions, rfl⟩ := dtoParts_inj hparts
  obtain ⟨hfst₁, hval₁⟩ := forall₂_keys hvals₁
  obtain ⟨hfst₂, hval₂⟩ := forall₂_keys hvals₂
  refine ⟨htype, htarget, htimeout, hretries, hconditions, ?_, ?_⟩
  · rw [hkeys₁, hkeys₂, hfst₁, hfst₂]
  · intro keys hkeys k hk
    obtain rfl : keys₁ = keys := Except.ok.inj (hkeys₁.symm.trans hkeys)
    rw [hfst₁] at hk
    obtain ⟨e, he, rfl⟩ := mem_map.1 hk
    rw [hval₁ e he, hval₂ e he]

/-- **Equal parts declare the same bindings**, for the types that declare any. -/
theorem SameBinding.expectedFields_eq (h : SameBinding m₁ m₂)
    {family : BindingFamily} (hfamily : family = scenarioFamily ∨ family = canaryFamily)
    (htype : m₁.type = family.type) (hkeys : executionBindingKeys m₁.type m₁.config = .ok keys) :
    family.expectedFields m₁.type m₁.config = family.expectedFields m₂.type m₂.config := by
  have hkeys₂ : executionBindingKeys family.type m₂.config = .ok keys := by
    rw [← htype, h.type, ← h.keys, hkeys]
  have hmem (key : String) (hkey : (family.bindingFromRefKey key).isSome) :
      key ∈ family.refKeys m₁.config ↔ key ∈ family.refKeys m₂.config := by
    rw [← mem_executionBindingKeys hfamily (htype ▸ hkeys) hkey,
      mem_executionBindingKeys hfamily hkeys₂ hkey]
  have hrefs : family.refKeys m₁.config = family.refKeys m₂.config := by
    refine refKeys_congr fun key hkey => ?_
    have := hmem key hkey
    simp only [mem_refKeys, hkey, and_true] at this
    exact Bool.eq_iff_iff.2 this
  have hread (m : MonitorBody) (key : String) (hkey : (family.bindingFromRefKey key).isSome) :
      canonicalSettingValue m.type m.config key = .ok (m.config.value key) := by
    unfold canonicalSettingValue
    rcases hfamily with rfl | rfl
    · simp [scenarioBindingFromRefKey, hkey]
    · simp [canaryBindingFromRefKey, hkey]
  rw [← h.type]
  refine expectedFields_congr hrefs fun key hkey => ?_
  have hsome := (mem_refKeys.1 hkey).2
  have hvalue := h.values keys hkeys key
    ((mem_executionBindingKeys hfamily (htype ▸ hkeys) hsome).2 hkey)
  rw [hread m₁ key hsome, hread m₂ key hsome] at hvalue
  exact Except.ok.inj hvalue

end Cerbix.Dispatch
