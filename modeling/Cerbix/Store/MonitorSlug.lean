import Cerbix.Domain.ServiceImpact
import Mathlib.Data.List.DropRight

/-!
# Monitor slugs

A monitor created without a slug gets one from its name: `NormalizeMonitorSlug`
(`internal/domain/monitor.go`) derives a base, and `resolveMonitorSlugTx`
(`internal/store/services.go`) the first of the base and its numbered variants that is free in the
project. The backfill of migration 00065 derives its base by regular expressions;
`resolveMonitorSlugTx_spec` has both. Beyond ASCII, the lower case of a character is what the tables
of Go and of the database say.
-/

namespace Cerbix.Store

open Cerbix.Domain List String

def lowered (table : Char → Char) (c : Char) : Char := if c.toNat < 128 then c.toLower else table c

def slugLetter (c : Char) : Bool := 'a' ≤ c && c ≤ 'z'

def slugChar (c : Char) : Bool := slugLetter c || ('0' ≤ c && c ≤ '9')

/-- A turn of the loop of `NormalizeMonitorSlug`, on what is written and `lastDash`. -/
def slugStep (b : List Char × Bool) (r : Char) : List Char × Bool :=
  if slugChar r then (b.1 ++ [r], false)
  else if ¬b.2 ∧ b.1 ≠ [] then (b.1 ++ ['-'], true)
  else b

def trimDashes (s : List Char) : List Char := s.rdropWhile (· == '-')

def withLetter (s : List Char) : List Char :=
  if s.head?.any slugLetter then s else trimDashes ("monitor-".toList ++ s)

variable (table : Char → Char) (name : String)

def normalizeMonitorSlug : List Char :=
  let b := (name.toList.map (lowered table)).foldl slugStep ([], false)
  let out := trimDashes (b.1.dropWhile (· == '-'))
  withLetter (if 55 < out.length then trimDashes (out.take 55) else out)

/-- `regexp_replace(base, '[^a-z0-9]+', '-', 'g')`, where `run` says that a match goes on. -/
def collapse : (run : Bool) → List Char → List Char
  | _, [] => []
  | run, c :: cs =>
    if slugChar c then c :: collapse false cs
    else if run then collapse true cs else '-' :: collapse true cs

def backfillBase : List Char :=
  let base := collapse false (name.toList.map (lowered table))
  withLetter (trimDashes ((trimDashes (base.dropWhile (· == '-'))).take 55))

def numbered (base : List Char) (n : Nat) : List Char :=
  let suffix := '-' :: (toString n).toList
  let maxLen := 63 - suffix.length
  (if maxLen < base.length then trimDashes (base.take maxLen) else base) ++ suffix

/-- The loop looks at the base and at fifty numbered variants, up to the first that is free. -/
def resolveMonitorSlugTx (taken : String → Bool) (slug : String) : Except String String :=
  if slug ≠ "" then
    if validMonitorSlug slug then .ok slug
    else .error ("store: monitor slug " ++ slug.quote ++ " must match ^[a-z][a-z0-9-]\x7b0,62\x7d$")
  else
    let base := normalizeMonitorSlug table name
    let candidates := base :: (range 50).map fun n => numbered base (n + 1)
    match (candidates.map ofList).find? fun candidate => !taken candidate with
    | some candidate => .ok candidate
    | none => .error ("store: could not derive a free slug from " ++ name.quote)

variable {s t cs : List Char} {c : Char} {run dash : Bool}

theorem collapse_chars : ∀ {run}, ∀ c ∈ collapse run cs, slugChar c || c == '-' := by
  induction cs with
  | nil => exact fun c hc => (not_mem_nil hc).elim
  | cons d cs ih =>
    intro run c hc
    unfold collapse at hc
    split_ifs at hc with hd
    · rcases mem_cons.1 hc with rfl | hc
      · simp [hd]
      · exact ih c hc
    · exact ih c hc
    · rcases mem_cons.1 hc with rfl | hc
      · rfl
      · exact ih c hc

/-- The loop writes what the expression leaves, but for a dash at the start. -/
theorem foldl_slugStep : ∀ {out dash},
    (cs.foldl slugStep (out, dash)).1 = out ++ collapse (dash || decide (out = [])) cs := by
  induction cs with
  | nil => simp [collapse]
  | cons c cs ih =>
    intro out dash
    rw [foldl_cons, slugStep, collapse]
    by_cases hc : slugChar c
    · simp [hc, ih]
    · cases dash <;> by_cases hout : out = [] <;> simp [hc, hout, ih]

theorem dropWhile_collapse : (collapse run cs).dropWhile (· == '-') = collapse true cs := by
  induction cs generalizing run with
  | nil => rfl
  | cons c cs ih =>
    rw [collapse, collapse]
    by_cases hc : slugChar c
    · have hdash : c ≠ '-' := by
        rintro rfl
        cases hc
      simp [hc, hdash]
    · cases run <;> simp [hc, ih]

theorem normalizeMonitorSlug_eq_backfillBase :
    normalizeMonitorSlug table name = backfillBase table name := by
  unfold normalizeMonitorSlug backfillBase
  simp only [foldl_slugStep, nil_append, dropWhile_collapse]
  split_ifs with h
  · rfl
  · rw [take_of_length_le (not_lt.1 h), trimDashes, trimDashes, rdropWhile_idempotent]

/-- The form of a slug, on the characters of the text. -/
structure WellFormed (s : List Char) : Prop where
  letter : s.head?.any slugLetter
  length : s.length ≤ 63
  chars : ∀ c ∈ s, slugChar c || c == '-'

theorem WellFormed.valid (h : WellFormed s) : validMonitorSlug (ofList s) := by
  cases s with
  | nil => cases h.letter
  | cons c cs =>
    have hlen := h.length
    rw [length_cons] at hlen
    have hchars := fun d hd => h.chars d (mem_cons_of_mem c hd)
    simp only [slugChar, slugLetter] at hchars
    simp only [validMonitorSlug, toList_ofList, Bool.and_eq_true, all_eq_true, decide_eq_true_eq]
    exact ⟨⟨by simpa [slugLetter] using h.letter, by omega⟩, hchars⟩

theorem letter_trimDashes (h : s.head?.any slugLetter) : (trimDashes s).head?.any slugLetter := by
  obtain ⟨t, ht⟩ := rdropWhile_prefix (· == '-') s
  cases hs : s.rdropWhile (· == '-') with
  | nil =>
    rw [rdropWhile_eq_nil_iff] at hs
    cases s with
    | nil => exact h
    | cons c cs =>
      have hc := hs c mem_cons_self
      simp only [beq_iff_eq] at hc
      subst hc
      cases h
  | cons d ds =>
    rw [hs] at ht
    rw [← ht] at h
    simpa [trimDashes, hs] using h

theorem trimDashes_sublist : trimDashes s <+ s := by
  have hstart : trimDashes s <+: s := rdropWhile_prefix _ s
  exact hstart.sublist

theorem WellFormed.withLetter (hlen : s.length ≤ 55) (hs : ∀ c ∈ s, slugChar c || c == '-') :
    WellFormed (withLetter s) := by
  unfold Store.withLetter
  split_ifs with h
  · exact ⟨h, by omega, hs⟩
  · refine ⟨letter_trimDashes rfl, ?_, fun c hc => ?_⟩
    · exact trimDashes_sublist.length_le.trans (length_append.trans_le (Nat.add_le_add_left hlen 8))
    · rcases mem_append.1 (trimDashes_sublist.mem hc) with hc | hc
      · exact all_eq_true.1 (by decide : "monitor-".toList.all fun c => slugChar c || c == '-') c hc
      · exact hs c hc

theorem backfillBase_wellFormed : WellFormed (backfillBase table name) := by
  refine .withLetter (trimDashes_sublist.length_le.trans (length_take_le ..)) fun c hc => ?_
  have hc := trimDashes_sublist.mem (mem_of_mem_take (trimDashes_sublist.mem hc))
  exact collapse_chars c ((dropWhile_sublist _).mem hc)

theorem digits_of_le_fifty : ∀ n < 51, (toString n).toList.length ≤ 2 ∧
    (toString n).toList.all slugChar := by
  decide +kernel

theorem WellFormed.numbered (h : WellFormed s) {n : Nat} (hn : n < 51) :
    WellFormed (numbered s n) := by
  obtain ⟨hlen, hdigits⟩ := digits_of_le_fifty n hn
  unfold Store.numbered
  generalize (toString n).toList = digits at *
  have htrim : ∀ t, t.head?.any slugLetter → t.length + (digits.length + 1) ≤ 63 → t <+ s →
      WellFormed (t ++ '-' :: digits) := by
    intro t hletter hle hsub
    refine ⟨?_, by simpa using hle, fun c hc => ?_⟩
    · cases t with
      | nil => cases hletter
      | cons d ds => exact hletter
    · rcases mem_append.1 hc with hc | hc
      · exact h.chars c (hsub.mem hc)
      · rcases mem_cons.1 hc with rfl | hc
        · rfl
        · simp [all_eq_true.1 hdigits c hc]
  simp only [length_cons]
  split_ifs with hlong
  · refine htrim _ (letter_trimDashes ?_) ?_ (trimDashes_sublist.trans (take_sublist ..))
    · rw [head?_take, if_neg (by omega)]
      exact h.letter
    · have := (trimDashes_sublist (s := s.take (63 - (digits.length + 1)))).length_le
      have := length_take_le (63 - (digits.length + 1)) s
      omega
  · exact htrim s h.letter (by omega) (.refl s)

/-- **Slug derivation.** A derived slug is well formed and free, the derivation is refused only if
the base and its fifty variants are taken, and the backfill derives the same base from an ASCII
name. -/
theorem resolveMonitorSlugTx_spec (taken : String → Bool) :
    (∀ slug, resolveMonitorSlugTx table name taken "" = .ok slug →
      validMonitorSlug slug ∧ taken slug = false) ∧
    (∀ e, resolveMonitorSlugTx table name taken "" = .error e →
      taken (ofList (normalizeMonitorSlug table name)) ∧ ∀ n, 1 ≤ n → n ≤ 50 →
        taken (ofList (numbered (normalizeMonitorSlug table name) n))) ∧
    ((∀ c ∈ name.toList, c.toNat < 128) → ∀ collation,
      normalizeMonitorSlug table name = backfillBase collation name) := by
  have hbase := backfillBase_wellFormed table name
  rw [← normalizeMonitorSlug_eq_backfillBase] at hbase
  refine ⟨fun slug h => ?_, fun e h => ?_, fun hascii collation => ?_⟩
  · simp only [resolveMonitorSlugTx, ne_eq, not_true_eq_false, if_false] at h
    split at h
    · next candidate hfind =>
      cases h
      refine ⟨?_, by simpa using find?_some hfind⟩
      obtain ⟨s, hs, rfl⟩ := mem_map.1 (mem_of_find?_eq_some hfind)
      rcases mem_cons.1 hs with rfl | hs
      · exact hbase.valid
      · obtain ⟨n, hn, rfl⟩ := mem_map.1 hs
        exact (hbase.numbered (by have := mem_range.1 hn; omega)).valid
    · cases h
  · simp only [resolveMonitorSlugTx, ne_eq, not_true_eq_false, if_false] at h
    split at h
    · cases h
    rename_i hfind
    simp only [find?_eq_none, Bool.not_eq_true', Bool.not_eq_false] at hfind
    refine ⟨hfind _ (mem_map_of_mem mem_cons_self), fun n h₁ h₅₀ => hfind _ (mem_map_of_mem ?_)⟩
    refine mem_cons_of_mem _ (mem_map.2 ⟨n - 1, mem_range.2 (by omega), ?_⟩)
    rw [Nat.sub_add_cancel h₁]
  · rw [normalizeMonitorSlug_eq_backfillBase, backfillBase, backfillBase]
    rw [map_congr_left fun c hc => ?_]
    unfold lowered
    rw [if_pos (hascii c hc), if_pos (hascii c hc)]

end Cerbix.Store
