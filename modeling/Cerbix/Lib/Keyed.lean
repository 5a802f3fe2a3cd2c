import Mathlib.Data.List.Sort

/-!
# Records kept under a key, in first-seen order

A map from keys to mutable records with the slice of its keys in first-seen order, as a list of
records. `upsert` changes the record of a key, creating it when it is missing. A run of upserts is
one independent run per key (`foldl_upsert`).
-/

namespace Cerbix.Lib

open List Function

section Keyed

variable {κ α ν : Type*} [DecidableEq κ] (key : α → κ) (fresh : κ → α)

/-- Apply `f` to the record under `k`; a missing record is created first, at the end. -/
def upsert (k : κ) (f : α → α) : List α → List α
  | [] => [f (fresh k)]
  | a :: rest => if key a = k then f a :: rest else a :: upsert k f rest

def seeKey (ks : List κ) (k : κ) : List κ := if k ∈ ks then ks else ks ++ [k]

/-- The keys of `new` that are not in `ks` are appended in the order they are first seen. -/
def firstSeen (ks new : List κ) : List κ := new.foldl seeKey ks

variable {ks : List κ} {as : List α}

theorem seeKey_nodup (h : ks.Nodup) (k : κ) : (seeKey ks k).Nodup := by
  unfold seeKey
  split
  · exact h
  · next hk => exact Nodup.append h (by simp) (by simpa using hk)

theorem mem_seeKey {k k' : κ} : k' ∈ seeKey ks k ↔ k' ∈ ks ∨ k' = k := by
  unfold seeKey
  split
  · next h => exact ⟨.inl, fun h' => h'.elim id fun e => e ▸ h⟩
  · simp

theorem seeKey_cons_of_ne {a k : κ} (h : a ≠ k) : seeKey (a :: ks) k = a :: seeKey ks k := by
  unfold seeKey
  by_cases hk : k ∈ ks <;> simp [hk, Ne.symm h]

variable (new : List κ)

theorem firstSeen_nodup : ∀ {ks : List κ}, ks.Nodup → (firstSeen ks new).Nodup := by
  induction new with
  | nil => exact id
  | cons k new ih => exact fun h => ih (seeKey_nodup h _)

theorem mem_firstSeen : ∀ {ks : List κ} {k : κ}, k ∈ firstSeen ks new ↔ k ∈ ks ∨ k ∈ new := by
  induction new with
  | nil => intro ks k; simp [firstSeen]
  | cons k₀ new ih =>
    intro ks k
    rw [show firstSeen ks (k₀ :: new) = firstSeen (seeKey ks k₀) new from rfl, ih, mem_seeKey,
      mem_cons, or_assoc]

theorem firstSeen_of_subset : ∀ {ks : List κ}, (∀ k ∈ new, k ∈ ks) → firstSeen ks new = ks := by
  induction new with
  | nil => intro ks _; rfl
  | cons k new ih =>
    intro ks h
    have hk : seeKey ks k = ks := if_pos (h k (by simp))
    rw [show firstSeen ks (k :: new) = firstSeen (seeKey ks k) new from rfl, hk]
    exact ih fun u hu => h u (by simp [hu])

theorem upsert_map {g : κ → α} (hg : ∀ k, key (g k) = k) {k : κ} {f : α → α} :
    ∀ {ks : List κ}, ks.Nodup → (k ∉ ks → g k = fresh k) →
      upsert key fresh k f (ks.map g) = (seeKey ks k).map (Function.update g k (f (g k))) := by
  intro ks
  induction ks with
  | nil => intro _ hf; simp [upsert, seeKey, hf]
  | cons a ks ih =>
    intro hn hf
    obtain ⟨ha, hn'⟩ := nodup_cons.1 hn
    by_cases hak : a = k
    · subst hak
      have htail : ∀ b ∈ ks, Function.update g a (f (g a)) b = g b := fun b hb =>
        update_of_ne (fun e : b = a => ha (e ▸ hb)) _ _
      simp [upsert, hg, seeKey, map_congr_left htail]
    · have ih' := ih hn' fun h => hf (by simp [Ne.symm hak, h])
      simp [upsert, hg, hak, ih', seeKey_cons_of_ne hak]

variable {key fresh} {k : κ} {f : α → α}

theorem find?_upsert_self (hf : ∀ a, key (f a) = key a) (hfresh : key (fresh k) = k) (as : List α) :
    (upsert key fresh k f as).find? (fun a => key a = k) =
      some (f ((as.find? fun a => key a = k).getD (fresh k))) := by
  induction as with
  | nil => simp [upsert, hf, hfresh]
  | cons a as ih => by_cases ha : key a = k <;> simp [upsert, ha, hf, ih]

theorem find?_upsert_of_ne (hf : ∀ a, key (f a) = key a) (hfresh : key (fresh k) = k) {k' : κ}
    (hne : k' ≠ k) (as : List α) :
    (upsert key fresh k f as).find? (fun a => key a = k') = as.find? fun a => key a = k' := by
  induction as with
  | nil => simp [upsert, hf, hfresh, hne.symm]
  | cons a as ih =>
    by_cases ha : key a = k
    · simp [upsert, ha, hf, hne.symm]
    · rw [upsert, if_neg ha, find?_cons, find?_cons, ih]

theorem map_key_upsert (hf : ∀ a, key (f a) = key a) (hfresh : key (fresh k) = k) (as : List α) :
    (upsert key fresh k f as).map key = seeKey (as.map key) k := by
  induction as with
  | nil => simp [upsert, seeKey, hf, hfresh]
  | cons a as ih =>
    by_cases ha : key a = k
    · simp [upsert, seeKey, ha, hf]
    · rw [upsert, if_neg ha, map_cons, ih, map_cons, seeKey_cons_of_ne ha]

theorem key_of_mem_upsert (hf : ∀ a, key (f a) = key a) (hfresh : key (fresh k) = k) {a : α}
    (ha : a ∈ upsert key fresh k f as) : key a = k ∨ ∃ a' ∈ as, key a' = key a := by
  have hmem := mem_map_of_mem (f := key) ha
  rw [map_key_upsert hf hfresh, mem_seeKey, mem_map] at hmem
  exact hmem.symm

omit fresh in
theorem find?_key_of_mem (hn : (as.map key).Nodup) {a : α} (ha : a ∈ as) :
    (as.find? fun b => key b = key a) = some a := by
  induction as with
  | nil => cases ha
  | cons b as ih =>
    rw [map_cons, nodup_cons] at hn
    rcases mem_cons.1 ha with rfl | ha
    · simp
    · have hne : key b ≠ key a := fun h => hn.1 (h ▸ mem_map_of_mem ha)
      rw [find?_cons_of_neg (by simpa using hne)]
      exact ih hn.2 ha

omit fresh in
theorem find?_update_key (hf : ∀ a, key (f a) = key a) (k' : κ) (as : List α) :
    (as.map fun a => if key a = k then f a else a).find? (fun a => key a = k') =
      (as.find? fun a => key a = k').map fun a => if k' = k then f a else a := by
  induction as with
  | nil => rfl
  | cons a as ih =>
    rw [map_cons, find?_cons, ih]
    have hkey : key (if key a = k then f a else a) = key a := by split <;> simp [hf]
    rw [hkey]
    by_cases ha : key a = k' <;> simp [ha]

variable (key fresh)

/-- **A run of upserts is one independent run per key.** -/
theorem foldl_upsert (kv : ν → κ) (step : α → ν → α) (hstep : ∀ a v, key (step a v) = key a)
    (vs : List ν) :
    ∀ (ks : List κ) (g : κ → α), ks.Nodup → (∀ k, key (g k) = k) → (∀ k ∉ ks, g k = fresh k) →
      vs.foldl (fun as v => upsert key fresh (kv v) (fun a => step a v) as) (ks.map g) =
        (firstSeen ks (vs.map kv)).map fun k => (vs.filter fun v => kv v = k).foldl step (g k) := by
  induction vs with
  | nil => intro ks g _ _ _; rfl
  | cons v vs ih =>
    intro ks g hn hg hf
    rw [foldl_cons, upsert_map key fresh hg hn (hf _), ih _ _ (seeKey_nodup hn _)]
    · refine map_congr_left fun k _ => ?_
      by_cases hk : kv v = k
      · subst hk; simp
      · simp [hk, update_of_ne (Ne.symm hk)]
    · intro k
      by_cases hk : k = kv v
      · subst hk; simp [hstep, hg]
      · simp [update_of_ne hk, hg]
    · intro k hk
      rw [mem_seeKey, not_or] at hk
      rw [update_of_ne hk.2, hf k hk.1]

end Keyed

section Update

variable {α : Type*} {p q : α → Bool} {f : α → α}

theorem find?_update_of_fails (hf : ∀ a, p a → q (f a) = false) (as : List α) :
    (as.map fun a => if p a then f a else a).find? q = as.find? fun a => q a && !p a := by
  induction as with
  | nil => rfl
  | cons a as ih =>
    rw [map_cons, find?_cons, find?_cons, ih]
    by_cases ha : p a
    · simp [ha, hf a ha]
    · simp [ha]

theorem filter_update_of_fails (hf : ∀ a, p a → q (f a) = false) (as : List α) :
    (as.map fun a => if p a then f a else a).filter q = as.filter fun a => q a && !p a := by
  induction as with
  | nil => rfl
  | cons a as ih =>
    rw [map_cons, filter_cons, filter_cons, ih]
    by_cases ha : p a
    · simp [ha, hf a ha]
    · simp [ha]

variable {as : List α}

theorem mem_set_of_ne {i : Nat} {a a' b : α} (hi : as[i]? = some a) (ha' : a' ∈ as)
    (hne : a' ≠ a) : a' ∈ as.set i b := by
  obtain ⟨j, hj⟩ := getElem?_of_mem ha'
  have hij : i ≠ j := by
    rintro rfl
    exact hne (Option.some.inj (hj.symm.trans hi))
  exact mem_of_getElem? ((getElem?_set_ne hij).trans hj)

theorem mem_eraseIdx_of_ne {i : Nat} {a a' : α} (hi : as[i]? = some a) (ha' : a' ∈ as)
    (hne : a' ≠ a) : a' ∈ as.eraseIdx i := by
  obtain ⟨j, hj⟩ := getElem?_of_mem ha'
  refine mem_eraseIdx_iff_getElem?.2 ⟨j, ?_, hj⟩
  rintro rfl
  exact hne (Option.some.inj (hj.symm.trans hi))

end Update

end Cerbix.Lib
