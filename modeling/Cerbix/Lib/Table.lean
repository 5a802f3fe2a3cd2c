import Mathlib.Data.List.Nodup
import Mathlib.Data.Option.Basic

/-!
# Tables with a primary key

`Table key` is a list of rows of which no two have the same key; the uniqueness is a field. The
operations are those of a database: insert unless a row is there (`insertNew`, `insertAll`, and
`inserted` for the rows really inserted), `update` and `delete` the rows that satisfy a predicate.
Each has one equation for what `get` reads afterwards, and proofs use only those.
-/

namespace Cerbix.Lib

open List

/-- Rows of type `α`, no two under the same `key`. -/
structure Table {α κ : Type} (key : α → κ) where
  rows : List α
  keyed : (rows.map key).Nodup

namespace Table

variable {α κ : Type} {key : α → κ} {t : Table key} {k : κ} {a : α} {as : List α}

@[ext] theorem ext {u : Table key} (h : t.rows = u.rows) : t = u := by
  cases u
  cases h
  rfl

instance [DecidableEq α] : DecidableEq (Table key) := fun t u =>
  decidable_of_iff (t.rows = u.rows) Table.ext_iff.symm

def empty : Table key := ⟨[], nodup_nil⟩

variable [DecidableEq κ]

/-- The row with the key. -/
def get (t : Table key) (k : κ) : Option α := t.rows.find? fun a => key a = k

theorem get_eq_some_iff : t.get k = some a ↔ a ∈ t.rows ∧ key a = k := by
  constructor
  · intro h
    exact ⟨mem_of_find?_eq_some h, by simpa using find?_some h⟩
  · rintro ⟨ha, rfl⟩
    obtain ⟨b, hb⟩ : ∃ b, t.get (key a) = some b :=
      Option.isSome_iff_exists.1 (find?_isSome.2 ⟨a, ha, by simp⟩)
    have hkey : key b = key a := by simpa using find?_some hb
    rw [hb, inj_on_of_nodup_map t.keyed (mem_of_find?_eq_some hb) ha hkey]

theorem get_of_mem (ha : a ∈ t.rows) : t.get (key a) = some a :=
  get_eq_some_iff.2 ⟨ha, rfl⟩

theorem key_of_get (h : t.get k = some a) : key a = k :=
  (get_eq_some_iff.1 h).2

theorem get_eq_none_iff : t.get k = none ↔ ∀ a ∈ t.rows, key a ≠ k := by
  simp [get]

theorem filter_key_of_get (h : t.get k = some a) : (t.rows.filter fun b => key b = k) = [a] := by
  obtain ⟨ha, hk⟩ := get_eq_some_iff.1 h
  refine perm_singleton.1 ((perm_ext_iff_of_nodup ?_ (nodup_singleton a)).2 ?_)
  · exact t.keyed.of_map.filter _
  intro b
  simp only [mem_filter, decide_eq_true_eq, mem_singleton]
  constructor
  · rintro ⟨hb, hbk⟩
    exact inj_on_of_nodup_map t.keyed hb ha (hbk.trans hk.symm)
  · rintro rfl
    exact ⟨ha, hk⟩

/-! ## Insert -/

/-- `INSERT … ON CONFLICT DO NOTHING`. -/
def insertNew (t : Table key) (a : α) : Table key :=
  if h : t.get (key a) = none then
    ⟨t.rows ++ [a], by
      rw [map_append, map_singleton]
      refine Nodup.append t.keyed (nodup_singleton _) ?_
      rw [disjoint_singleton, mem_map]
      rintro ⟨b, hb, hk⟩
      exact get_eq_none_iff.1 h b hb hk⟩
  else t

theorem rows_insertNew_of_none (h : t.get (key a) = none) :
    (t.insertNew a).rows = t.rows ++ [a] := by
  unfold insertNew
  rw [dif_pos h]

theorem get_insertNew (t : Table key) (a : α) (k : κ) :
    (t.insertNew a).get k = (t.get k).or (if key a = k then some a else none) := by
  unfold insertNew
  split
  · rw [get, get]
    by_cases hk : key a = k <;> simp
  · next h =>
    split
    · next hk =>
      subst hk
      obtain ⟨b, hb⟩ := Option.ne_none_iff_exists'.1 h
      rw [hb]
      rfl
    · rw [Option.or_none]

def insertAll (t : Table key) (as : List α) : Table key := as.foldl insertNew t

theorem get_insertAll (as : List α) : ∀ (t : Table key) (k : κ),
    (t.insertAll as).get k = (t.get k).or (as.find? fun a => key a = k) := by
  induction as with
  | nil =>
    intro t k
    simp [insertAll]
  | cons a as ih =>
    intro t k
    rw [show t.insertAll (a :: as) = (t.insertNew a).insertAll as from rfl, ih, get_insertNew]
    by_cases hk : key a = k <;> simp [hk]

theorem get_insertAll_of_some (h : t.get k = some a) (as : List α) :
    (t.insertAll as).get k = some a := by
  rw [get_insertAll, h, Option.some_or]

theorem get_insertAll_of_mem (h : a ∈ as) (t : Table key) :
    ∃ b, (t.insertAll as).get (key a) = some b := by
  rw [get_insertAll, ← Option.isSome_iff_exists, Option.isSome_or, Bool.or_eq_true, find?_isSome]
  exact .inr ⟨a, h, by simp⟩

theorem mem_of_get_insertAll
    (h : (t.insertAll as).get k = some a) (hnone : t.get k = none) : a ∈ as ∧ key a = k := by
  rw [get_insertAll, hnone] at h
  exact ⟨mem_of_find?_eq_some h, by simpa using find?_some h⟩

/-- The rows of `as` that `insertAll` really inserts, in order. -/
def inserted (t : Table key) : List α → List α
  | [] => []
  | a :: as =>
    if t.get (key a) = none then a :: (t.insertNew a).inserted as else t.inserted as

theorem mem_inserted : ∀ {t : Table key} {a : α}, a ∈ t.inserted as →
    a ∈ as ∧ t.get (key a) = none ∧ (t.insertAll as).get (key a) = some a := by
  induction as with
  | nil =>
    intro t a ha
    cases ha
  | cons b as ih =>
    intro t a ha
    rw [inserted] at ha
    split at ha
    · next hb =>
      rcases mem_cons.1 ha with rfl | ha
      · refine ⟨mem_cons_self, hb, ?_⟩
        rw [get_insertAll, hb]
        simp
      · obtain ⟨hmem, hnone, hget⟩ := ih ha
        rw [get_insertNew, Option.or_eq_none_iff] at hnone
        exact ⟨mem_cons_of_mem b hmem, hnone.1, hget⟩
    · next hb =>
      obtain ⟨hmem, hnone, hget⟩ := ih ha
      have hsame : t.insertNew b = t := dif_neg hb
      refine ⟨mem_cons_of_mem b hmem, hnone, ?_⟩
      rw [show t.insertAll (b :: as) = (t.insertNew b).insertAll as from rfl, hsame]
      exact hget

theorem inserted_keyed (as : List α) : ∀ t : Table key, ((t.inserted as).map key).Nodup := by
  induction as with
  | nil =>
    intro t
    exact nodup_nil
  | cons a as ih =>
    intro t
    rw [inserted]
    split
    · next ha =>
      rw [map_cons, nodup_cons]
      refine ⟨?_, ih _⟩
      intro hmem
      obtain ⟨b, hb, hk⟩ := mem_map.1 hmem
      have hnone := (mem_inserted hb).2.1
      rw [hk, get_insertNew, ha, if_pos rfl] at hnone
      cases hnone
    · exact ih t

/-- Rewrite some rows; keys stay. -/
def update (t : Table key) (p : α → Bool) (f : α → α) (hf : ∀ a, key (f a) = key a) : Table key :=
  ⟨t.rows.map fun a => if p a then f a else a, by
    rw [map_map]
    have hkey : key ∘ (fun a => if p a then f a else a) = key := by
      funext a
      by_cases hp : p a <;> simp [hp, hf]
    rw [hkey]
    exact t.keyed⟩

theorem get_update (t : Table key) (p : α → Bool) (f : α → α) (hf : ∀ a, key (f a) = key a)
    (k : κ) : (t.update p f hf).get k = (t.get k).map fun a => if p a then f a else a := by
  have hkey : (fun a => decide (key a = k)) ∘ (fun a => if p a then f a else a) =
      fun a => decide (key a = k) := by
    funext a
    by_cases hp : p a <;> simp [hp, hf]
  rw [get, get, update, find?_map, hkey]

theorem get_update_of_some {p : α → Bool} {f : α → α}
    (hf : ∀ a, key (f a) = key a) (h : t.get k = some a) :
    (t.update p f hf).get k = some (if p a then f a else a) := by
  rw [get_update, h, Option.map_some]

/-- Delete some rows. -/
def delete (t : Table key) (p : α → Bool) : Table key :=
  ⟨t.rows.filter fun a => !p a, t.keyed.sublist (filter_sublist.map key)⟩

theorem get_delete (t : Table key) (p : α → Bool) (k : κ) :
    (t.delete p).get k = (t.get k).filter fun a => !p a := by
  cases h : t.get k with
  | none =>
    refine get_eq_none_iff.2 fun a ha => ?_
    exact get_eq_none_iff.1 h a (mem_filter.1 ha).1
  | some a =>
    obtain ⟨ha, hk⟩ := get_eq_some_iff.1 h
    by_cases hp : p a
    · rw [Option.filter_some, if_neg (by simp [hp]), get_eq_none_iff]
      intro b hb hbk
      obtain ⟨hb, hpb⟩ := mem_filter.1 hb
      have hab : b = a := inj_on_of_nodup_map t.keyed hb ha (hbk.trans hk.symm)
      rw [hab, hp] at hpb
      cases hpb
    · rw [Option.filter_some, if_pos (by simp [hp]), get_eq_some_iff]
      exact ⟨mem_filter.2 ⟨ha, by simp [hp]⟩, hk⟩

end Table

end Cerbix.Lib
