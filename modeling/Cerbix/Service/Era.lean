import Cerbix.Service.System

/-!
# Contiguity eras

A declaration that brings a service back from a declared silence starts a new era: the watermark is
cleared and the cursor jumps to the new boundary, skipping only time without reliability inputs
(`EraSound`). But the revision with the current number, by which the write decides, need not have
been in force before the new boundary, and the cursor need not have reached the silence. Nothing
else can go wrong (`era_sound_iff`).
-/

namespace Cerbix.Service

open Cerbix.Lib Cerbix.Domain Declarations List Go Tables Revision

namespace Declarations

variable {cfg : Config} {d : Declarations} {w : DeclarationWrite} {r : Declared} {t : Int}

theorem governing_put_of_lt (hi : d.Inv) (hput : d.put cfg w = .ok r)
    (ht : t < r.effectiveAt) : r.decls.governing t = d.governing t := by
  obtain ⟨-, -, -, -, policies, members, -, hd⟩ := put_spec hput
  rw [hd]
  show inForce _ _ (d.insertRevision _ _ _ _).effectiveRevisions t = _
  rw [effectiveRevisions_insertRevision]
  exact inForce_place_of_lt hi.revisionStarts (by exact ht)

theorem sli_eq_nil_of_current (h : d.prevHadInputs = false) {x : Revision}
    (hx : x ∈ d.effectiveRevisions) (hn : x.revision = d.currentRevision) : x.sli = [] := by
  by_contra hne
  have : d.prevHadInputs := by
    simp only [prevHadInputs, any_eq_true, decide_eq_true_eq]
    exact ⟨x, mem_revisions_of_effective hx, hn, hne⟩
  simp [this] at h

variable (d : Declarations)

/-- The revisions with SLI members. -/
def measuring : List Revision :=
  d.effectiveRevisions.filter fun r => r.sli ≠ []

/-- Where the last measured time before a boundary ends: where the last revision with inputs does,
or at the boundary. -/
def measuredUntil (boundary : Int) : Option Int :=
  (inForce effectiveAt revision d.measuring (boundary - canonicalBucket)).map
    fun r => (nextStart d r).elim boundary (min boundary)

/-- The revision in force just before the boundary is the one with the current number, unless it has
no inputs anyway. -/
def LooksAtInForce (boundary : Int) : Prop :=
  ∀ r, d.governing (boundary - canonicalBucket) = some r →
    r.revision = d.currentRevision ∨ r.sli = []

def MeasuredSince (start boundary : Int) : Prop :=
  start < boundary ∧ ∀ b, Aligned b → start ≤ b → b < boundary →
    ∃ r, d.governing b = some r ∧ r.sli ≠ []

end Declarations

/-! ## Eras -/

/-- What a declaration write may do to the row of a service: a new era follows a bucket without
inputs, the cursor skips no measured bucket, and the watermark of a service that kept measuring
stays. -/
structure EraSound (d : Declarations) (boundary : Int) (m m' : Materialization) : Prop where
  silent : m' ≠ m → ∀ r, d.governing (boundary - canonicalBucket) = some r → r.sli = []
  skips : ∀ b, Aligned b → m.eraStart ≤ b → m.materializedThrough ≤ b →
    b < m'.materializedThrough → ∀ r, d.governing b = some r → r.sli = []
  keeps : d.MeasuredSince m.eraStart boundary → m'.sealedThrough = m.sealedThrough

/-- The cursor has walked all measured time before the boundary. -/
def CursorReachedSilence (d : Declarations) (boundary : Int) (m : Materialization) : Prop :=
  ∀ t, d.measuredUntil boundary = some t → t ≤ m.materializedThrough

/-- A declaration write starts an era: it has inputs, the revision with the current number has
none, and the row is not yet the one an era at the boundary begins with. -/
def StartsEra (d : Declarations) (w : DeclarationWrite) (boundary : Int) (m : Materialization) :
    Prop :=
  dedupeIDs w.sli ≠ [] ∧ 0 < d.currentRevision ∧ d.prevHadInputs = false ∧
    m.startEra boundary ≠ m

theorem trackDeclaration_cases {d : Declarations} {w : DeclarationWrite}
    {r : Declarations.Declared} {m m' : Materialization} (hsli : r.sli = dedupeIDs w.sli)
    (h : trackDeclaration d r (some m) = some m') :
    (m' = m ∧ ¬ StartsEra d w r.effectiveAt m) ∨
      (StartsEra d w r.effectiveAt m ∧ m' = m.startEra r.effectiveAt) := by
  unfold trackDeclaration at h
  rw [hsli] at h
  split at h
  · next hnil =>
    cases h
    exact .inl ⟨rfl, fun hstart => hstart.1 hnil⟩
  next hne =>
  split at h
  · next hc =>
    have hprev : d.prevHadInputs = false := by simpa using hc.2
    by_cases heq : m.startEra r.effectiveAt = m
    · refine .inl ⟨?_, fun hstart => hstart.2.2.2 heq⟩
      cases h
      exact heq
    · cases h
      exact .inr ⟨⟨hne, hc.1, hprev, heq⟩, rfl⟩
  · next hc =>
    cases h
    refine .inl ⟨rfl, fun hstart => hc ⟨hstart.2.1, ?_⟩⟩
    simp [hstart.2.2.1]

section NextStart

variable {d : Declarations} {r x : Revision} {n : Int}

theorem nextStart_spec (h : nextStart d r = some n) :
    ∃ y ∈ d.effectiveRevisions, r.effectiveAt < y.effectiveAt ∧ y.effectiveAt = n := by
  obtain ⟨hmem, -⟩ := List.min?_eq_some_iff.1 h
  obtain ⟨y, hy, rfl⟩ := mem_map.1 hmem
  rw [mem_filter, decide_eq_true_eq] at hy
  exact ⟨y, hy.1, hy.2, rfl⟩

theorem nextStart_le (hx : x ∈ d.effectiveRevisions) (hlt : r.effectiveAt < x.effectiveAt) :
    ∃ n, nextStart d r = some n ∧ n ≤ x.effectiveAt := by
  have hmem : x.effectiveAt ∈ (d.effectiveRevisions.filter fun r' =>
      r.effectiveAt < r'.effectiveAt).map effectiveAt :=
    mem_map_of_mem (mem_filter.2 ⟨hx, decide_eq_true hlt⟩)
  cases hn : nextStart d r with
  | none =>
    rw [nextStart, List.min?_eq_none_iff] at hn
    simp [hn] at hmem
  | some n => exact ⟨n, rfl, (List.min?_eq_some_iff.1 hn).2 _ hmem⟩

end NextStart

section Measured

variable {d : Declarations} {boundary t b : Int} {m m' : Materialization}

theorem measuredUntil_spec (hi : d.Inv) (hb : Aligned boundary)
    (h : d.measuredUntil boundary = some t) : ∃ r, r.sli ≠ [] ∧ t ≤ boundary ∧ Aligned t ∧
      Governs effectiveAt d.effectiveRevisions (t - canonicalBucket) r := by
  obtain ⟨r, hr, ht⟩ := Option.map_eq_some_iff.1 h
  have hg := governs_of_inForce hr
  obtain ⟨hmem, hsli⟩ := mem_filter.1 hg.mem
  have hr' := hi.aligned r (mem_revisions_of_effective hmem)
  have hpos := canonicalBucket_pos
  refine ⟨r, by simpa using hsli, ?_⟩
  cases hn : nextStart d r with
  | none =>
    rw [hn] at ht
    subst ht
    refine ⟨le_rfl, hb, hmem, hg.start_le, fun x hx hle => ?_⟩
    by_contra hlt
    obtain ⟨n, hn', -⟩ := nextStart_le hx (not_le.1 hlt)
    simp [hn] at hn'
  | some n =>
    rw [hn, Option.elim_some] at ht
    obtain ⟨y, hy, hlt, hyn⟩ := nextStart_spec hn
    have hyal := hi.aligned y (mem_revisions_of_effective hy)
    have htal : Aligned t := by
      rcases min_choice boundary n with he | he <;> rw [← ht, he]
      · exact hb
      · exact hyn ▸ hyal
    have hrt : r.effectiveAt < t := by
      have := hg.start_le
      omega
    have := hr'.add_le_of_lt htal hrt
    refine ⟨by omega, htal, hmem, by omega, fun x hx hle => ?_⟩
    by_contra hgt
    obtain ⟨n', hn', hle'⟩ := nextStart_le hx (not_le.1 hgt)
    obtain rfl : n = n' := Option.some.inj (hn.symm.trans hn')
    omega

theorem sli_eq_nil_of_measuredUntil_le (hbal : Aligned boundary) (hb : Aligned b)
    (hlt : b < boundary) (hle : ∀ t, d.measuredUntil boundary = some t → t ≤ b) {r : Revision}
    (hr : d.governing b = some r) : r.sli = [] := by
  by_contra hne
  have hg := governs_of_inForce hr
  have hstep := hb.add_le_of_lt hbal hlt
  have hmem : r ∈ d.measuring := mem_filter.2 ⟨hg.mem, by simpa using hne⟩
  have hstart : r.effectiveAt ≤ boundary - canonicalBucket := by
    have := hg.start_le
    omega
  obtain ⟨r₀, hr₀⟩ := exists_inForce revision hmem hstart
  have hg₀ := governs_of_inForce hr₀
  have hle₀ : r.effectiveAt ≤ r₀.effectiveAt := hg₀.latest r hmem hstart
  have ht : (nextStart d r₀).elim boundary (min boundary) ≤ b :=
    hle _ (by rw [Declarations.measuredUntil, hr₀]; rfl)
  cases hn : nextStart d r₀ with
  | none =>
    rw [hn, Option.elim_none] at ht
    omega
  | some n =>
    rw [hn, Option.elim_some] at ht
    obtain ⟨y, hy, hlt', rfl⟩ := nextStart_spec hn
    have := hg.latest y hy (by omega)
    omega

theorem EraSound.congr {d' : Declarations} (hd : ∀ t, t < boundary → d'.governing t = d.governing t)
    (hm : m'.materializedThrough ≤ max m.materializedThrough boundary)
    (h : EraSound d boundary m m') : EraSound d' boundary m m' where
  silent hne r hr := by
    have := canonicalBucket_pos
    rw [hd _ (by omega)] at hr
    exact h.silent hne r hr
  skips b hb hera hcur hlt r hr := by
    rw [hd b (by omega)] at hr
    exact h.skips b hb hera hcur hlt r hr
  keeps hmeasured := by
    refine h.keeps ⟨hmeasured.1, fun b hb hle hlt => ?_⟩
    obtain ⟨r, hr, hsli⟩ := hmeasured.2 b hb hle hlt
    exact ⟨r, by rw [← hd b hlt]; exact hr, hsli⟩

theorem EraSound.cursorReachedSilence (hi : d.Inv) (hb : Aligned boundary) (hok : m.Ok)
    (h : EraSound d boundary m (m.startEra boundary)) : CursorReachedSilence d boundary m := by
  intro t ht
  by_contra hlt
  obtain ⟨x, hsli, hle, hal, hg⟩ := measuredUntil_spec hi hb ht
  have hpos := canonicalBucket_pos
  have hstep := hok.cursor.add_le_of_lt hal (not_le.1 hlt)
  have hera := hok.le
  refine hsli (h.skips (t - canonicalBucket) hal.prev (by omega) (by omega) ?_ x ?_)
  · exact lt_of_lt_of_le (by omega) (le_max_right _ _)
  · exact (inForce_eq_some_iff hi.revisionStarts).2 hg

theorem eraSound_startEra (hb : Aligned boundary) (hok : m.Ok) (hprev : d.prevHadInputs = false)
    (hlook : d.LooksAtInForce boundary) (hcur : CursorReachedSilence d boundary m) :
    EraSound d boundary m (m.startEra boundary) := by
  have hpos := canonicalBucket_pos
  have hsilent : ∀ r, d.governing (boundary - canonicalBucket) = some r → r.sli = [] := by
    intro r hr
    rcases hlook r hr with hn | hnil
    · exact sli_eq_nil_of_current hprev (governs_of_inForce hr).mem hn
    · exact hnil
  refine ⟨fun _ => hsilent, ?_, ?_⟩
  · intro b hbal _ hle hlt r hr
    have hlt' : b < boundary := by
      simp only [Materialization.startEra] at hlt
      omega
    exact sli_eq_nil_of_measuredUntil_le hb hbal hlt' (fun t ht => (hcur t ht).trans hle) hr
  · -- a service that measured up to the boundary measured just before it
    rintro ⟨hlt, hmeasured⟩
    have hstep := hok.era.add_le_of_lt hb hlt
    obtain ⟨r, hr, hsli⟩ := hmeasured _ hb.prev (by omega) (by omega)
    exact absurd (hsilent r hr) hsli

theorem eraSound_self : EraSound d boundary m m :=
  ⟨fun h => absurd rfl h, fun b _ _ h₁ h₂ => by omega, fun _ => rfl⟩

end Measured

/-- **A new era is sound exactly when the write looked at the revision in force before its boundary
and the cursor had reached the silence**, for every declaration write in every reachable state. -/
theorem era_sound_iff (cfg : Config) (clock : Int) (monitors : List String) (s s' : Tables)
    (hs : Reach (Tables.step cfg) anyStep (.empty clock monitors) s) (w : DeclarationWrite)
    (hw : s.step cfg (.put w) = some s') (m m' : Materialization)
    (hm : s.materialization = some m) (hm' : s'.materialization = some m') (boundary : Int)
    (hb : s.decls.boundaryOf w = .ok boundary) : EraSound s'.decls boundary m m' ↔
      (StartsEra s.decls w boundary m →
        s.decls.LooksAtInForce boundary ∧ CursorReachedSilence s.decls boundary m) := by
  have hbase := Tables.base_of_reach hs
  have hok := hbase.row m hm
  have hbal := boundaryOf_aligned hb
  obtain ⟨hnow, ⟨w, r, hop, hp, rfl⟩ | ⟨_, _, hop, -⟩ | hact⟩ := Tables.step_cases hw
  · cases hop
    obtain rfl : boundary = r.effectiveAt :=
      Except.ok.inj (hb.symm.trans (put_spec hp).boundary)
    have hgov := fun t (ht : t < r.effectiveAt) =>
      governing_put_of_lt hbase.decls hp ht
    have htrack : trackDeclaration s.decls r (some m) = some m' := hm ▸ hm'
    rcases trackDeclaration_cases (put_spec hp).sli htrack with ⟨rfl, hnot⟩ | ⟨hstart, rfl⟩
    · exact ⟨fun _ hstart => absurd hstart hnot, fun _ => eraSound_self⟩
    constructor
    · intro h _
      have h' := h.congr (fun t ht => (hgov t ht).symm) le_rfl
      exact ⟨fun x hx => .inr (h'.silent hstart.2.2.2 x hx),
        h'.cursorReachedSilence hbase.decls hbal hok⟩
    · intro h
      obtain ⟨hlook, hcur⟩ := h hstart
      exact (eraSound_startEra hbal hok hstart.2.2.1 hlook hcur).congr hgov le_rfl
  · cases hop
  · cases hact

def measuredService : List ServiceOp :=
  [.put (declareWeb ["web"] 0 0 (100 * minute)), .advance 2 (110 * minute)]

def silentService : List ServiceOp :=
  measuredService ++ [.put (declareWeb [] 1 0 (110 * minute + 5)), .advance 10 (120 * minute)]

def revival : DeclarationWrite := declareWeb ["web"] 2 0 (130 * minute + 10)

theorem era_sound_silentService :
    EraSound (webService (silentService ++ [.put revival])).decls (131 * minute)
      ⟨100 * minute, 112 * minute, 100 * minute, some (111 * minute)⟩
      ⟨100 * minute, 131 * minute, 131 * minute, none⟩ := by
  refine (era_sound_iff plainConfig 0 ["web"] (webService silentService) _ (webService_reach _)
    revival (by decide) _ _ (by decide) (by decide) (131 * minute) (by decide)).2 fun _ => ?_
  refine ⟨fun r hr => .inl ?_, fun t ht => ?_⟩
  · revert r
    decide
  · revert t
    decide

def silenceReplaced : List ServiceOp :=
  measuredService ++ [.put (declareWeb [] 1 0 (110 * minute + 5))]

/-- A write at the same boundary starts a new era although the service was measuring all along. -/
theorem silenceReplaced_not_sound :
    ∃ s s' m m', Reach (Tables.step plainConfig) anyStep (.empty 0 ["web"]) s ∧
      s.step plainConfig (.put (declareWeb ["web"] 2 0 (110 * minute + 10))) = some s' ∧
      s.materialization = some m ∧ s'.materialization = some m' ∧
      m = ⟨100 * minute, 102 * minute, 100 * minute, some (102 * minute)⟩ ∧
      m' = ⟨100 * minute, 111 * minute, 111 * minute, none⟩ ∧
      ¬ EraSound s'.decls (111 * minute) m m' := by
  refine ⟨_, _, _, _, webService_reach silenceReplaced, rfl, rfl, rfl, by decide, by decide, ?_⟩
  intro h
  have hnil := h.silent (by decide) _ rfl
  revert hnil
  decide

end Cerbix.Service
