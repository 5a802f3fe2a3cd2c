import Mathlib.Data.List.Basic
import Mathlib.Data.List.Induction
import Cerbix.Lib.Keyed

/-!
# Grouping and ordering rows

`groupBy key rows` is `GROUP BY`: one group for each key, with its rows. Grouping the rows of
several tags at once and keeping one tag's groups is grouping the rows of that tag
(`groupBy_tagged`). `orderBy` is a stable `ORDER BY`, which filtering commutes with
(`filter_orderBy`). Last, the elements of a list whose key exceeds the keys of all before them.
-/

namespace Cerbix.Lib

open List

variable {κ τ α : Type*} [DecidableEq κ] [DecidableEq τ]

/-- `GROUP BY`, the groups in the order of their first rows. -/
def groupBy (key : α → κ) (rows : List α) : List (κ × List α) :=
  (firstSeen [] (rows.map key)).map fun k => (k, rows.filter fun a => key a = k)

def tagged (tags : List τ) (rows : τ → List α) : List (τ × α) :=
  tags.flatMap fun t => (rows t).map fun a => (t, a)

theorem firstSeen_filter (p : κ → Bool) (new : List κ) : ∀ ks : List κ,
    (firstSeen ks new).filter p = firstSeen (ks.filter p) (new.filter p) := by
  have hsee (ks : List κ) (k : κ) :
      (seeKey ks k).filter p = if p k then seeKey (ks.filter p) k else ks.filter p := by
    unfold seeKey
    by_cases hp : p k
    · by_cases hk : k ∈ ks
      · simp [hk]
      · simp [hk, hp]
    · by_cases hk : k ∈ ks
      · simp [hk]
      · simp [hk, hp]
  induction new with
  | nil => exact fun _ => rfl
  | cons k new ih =>
    intro ks
    have hstep : firstSeen ks (k :: new) = firstSeen (seeKey ks k) new := rfl
    rw [hstep, ih, hsee, filter_cons]
    split <;> rfl

theorem firstSeen_map {f : κ → τ} (hf : Function.Injective f) (new : List κ) : ∀ ks : List κ,
    firstSeen (ks.map f) (new.map f) = (firstSeen ks new).map f := by
  have hsee (ks : List κ) (k : κ) : seeKey (ks.map f) (f k) = (seeKey ks k).map f := by
    unfold seeKey
    simp only [mem_map_of_injective hf]
    split
    · rfl
    · rw [map_append, map_singleton]
  induction new with
  | nil => exact fun _ => rfl
  | cons k new ih =>
    intro ks
    have hstep : firstSeen ks (k :: new) = firstSeen (seeKey ks k) new := rfl
    have hstep' : firstSeen (ks.map f) ((k :: new).map f) =
        firstSeen (seeKey (ks.map f) (f k)) (new.map f) := rfl
    rw [hstep, hstep', hsee, ih]

variable {tags : List τ} {l : List Int}

theorem filter_tagged (hn : tags.Nodup) (rows : τ → List α) {t : τ} (ht : t ∈ tags) :
    ((tagged tags rows).filter fun x => x.1 = t) = (rows t).map fun a => (t, a) := by
  have hone (u : τ) : ((rows u).map fun a => (u, a)).filter (fun x : τ × α => x.1 = t) =
      if u = t then (rows u).map fun a => (u, a) else [] := by
    rw [filter_map]
    by_cases hu : u = t
    · have hall : (fun x : τ × α => decide (x.1 = t)) ∘ (fun a => (u, a)) = fun _ => true := by
        funext a
        simp [hu]
      rw [hall, if_pos hu, filter_true]
    · have hnone : (fun x : τ × α => decide (x.1 = t)) ∘ (fun a => (u, a)) = fun _ => false := by
        funext a
        simp [hu]
      rw [hnone, if_neg hu, filter_false, map_nil]
  unfold tagged
  rw [filter_flatMap]
  simp only [hone]
  induction tags with
  | nil => cases ht
  | cons u tags ih =>
    obtain ⟨hu, hn⟩ := nodup_cons.1 hn
    rw [flatMap_cons]
    by_cases hut : u = t
    · subst hut
      have hrest : (tags.flatMap fun v => if v = u then (rows v).map fun a => (v, a) else []) =
          [] :=
        by
        refine flatMap_eq_nil_iff.2 fun v hv => if_neg ?_
        rintro rfl
        exact hu hv
      rw [if_pos rfl, hrest, append_nil]
    · rw [if_neg hut]
      exact ih hn ((mem_cons.1 ht).resolve_left fun h => hut h.symm)

/-- **Grouping by tag and key**, kept to the groups of one tag, is grouping the rows of that tag. -/
theorem groupBy_tagged (hn : tags.Nodup) (rows : τ → List α) (key : α → κ) {t : τ} (ht : t ∈ tags) :
    ((groupBy (fun x : τ × α => (x.1, key x.2)) (tagged tags rows)).filter fun g => g.1.1 = t).map
        (fun g => (g.1.2, g.2.map Prod.snd)) = groupBy key (rows t) := by
  have hkeys : (firstSeen [] ((tagged tags rows).map fun x => (x.1, key x.2))).filter
      (fun k => k.1 = t) = (firstSeen [] ((rows t).map key)).map fun k => (t, k) := by
    have hinj : Function.Injective fun k : κ => (t, k) := fun _ _ h => congrArg Prod.snd h
    rw [firstSeen_filter, filter_map]
    have hcomp : ((fun k : τ × κ => decide (k.1 = t)) ∘ fun x : τ × α => (x.1, key x.2)) =
        fun x => decide (x.1 = t) := rfl
    rw [hcomp, filter_tagged hn rows ht, map_map, ← firstSeen_map hinj, map_map]
    rfl
  have hgroup (k : κ) : ((tagged tags rows).filter fun x => (x.1, key x.2) = (t, k)).map Prod.snd =
      (rows t).filter fun a => key a = k := by
    have hsplit : (tagged tags rows).filter (fun x => (x.1, key x.2) = (t, k)) =
        ((tagged tags rows).filter fun x => x.1 = t).filter fun x => key x.2 = k := by
      rw [filter_filter]
      refine filter_congr fun x _ => ?_
      simp [Bool.and_comm]
    rw [hsplit, filter_tagged hn rows ht, filter_map, map_map]
    exact map_id _
  unfold groupBy
  rw [filter_map, map_map]
  have hcomp : ((fun g : (τ × κ) × List (τ × α) => decide (g.1.1 = t)) ∘ fun k =>
      (k, (tagged tags rows).filter fun x => (x.1, key x.2) = k)) = fun k => decide (k.1 = t) := rfl
  rw [hcomp, hkeys, map_map]
  refine map_congr_left fun k _ => ?_
  exact congrArg (Prod.mk k) (hgroup k)

section

variable (key : α → Int)

/-- `ORDER BY`, stable. -/
def orderBy (rows : List α) : List α := rows.insertionSort fun a b => key a ≤ key b

variable {key}

theorem filter_orderedInsert (p : α → Bool) (a : α) {l : List α}
    (hl : l.Pairwise fun a b => key a ≤ key b) :
    (l.orderedInsert (fun a b => key a ≤ key b) a).filter p =
      if p a then (l.filter p).orderedInsert (fun a b => key a ≤ key b) a else l.filter p := by
  induction l with
  | nil => cases hp : p a <;> simp [hp]
  | cons b l ih =>
    obtain ⟨hb, hl⟩ := pairwise_cons.1 hl
    rw [orderedInsert_cons]
    by_cases hab : key a ≤ key b
    · -- Whatever is kept of the rest is not below `a`.
      have hfirst : (filter p (b :: l)).orderedInsert (fun a b => key a ≤ key b) a =
          a :: filter p (b :: l) := by
        cases hf : filter p (b :: l) with
        | nil => rfl
        | cons c m =>
          have hc : c ∈ b :: l := mem_of_mem_filter (hf ▸ mem_cons_self)
          refine (orderedInsert_cons ..).trans (if_pos ?_)
          rcases mem_cons.1 hc with rfl | hc
          · exact hab
          · exact le_trans hab (hb c hc)
      rw [if_pos hab, hfirst, filter_cons]
    · rw [if_neg hab, filter_cons, filter_cons, ih hl]
      cases hpa : p a <;> cases hpb : p b <;> simp [hab]

theorem filter_orderBy (p : α → Bool) (rows : List α) :
    (orderBy key rows).filter p = orderBy key (rows.filter p) := by
  unfold orderBy
  induction rows with
  | nil => rfl
  | cons a rows ih =>
    rw [insertionSort_cons, filter_orderedInsert p a (pairwise_insertionSort _ rows), ih,
      filter_cons]
    split <;> rfl

end

theorem map_eq_map_of_forall₂ {β γ : Type*} {R : α → β → Prop} {f : α → γ} {g : β → γ} {l : List α}
    {l' : List β} (h : Forall₂ R l l') (hfg : ∀ a b, R a b → f a = g b) : l.map f = l'.map g := by
  induction h with
  | nil => rfl
  | cons hab _ ih => rw [map_cons, map_cons, hfg _ _ hab, ih]

theorem min?_getD_le {a : Int} (ha : a ∈ l) (d : Int) : l.min?.getD d ≤ a := by
  obtain ⟨m, hm⟩ := Option.isSome_iff_exists.1 (isSome_min?_of_mem ha)
  rw [hm]
  exact (min?_eq_some_iff.1 hm).2 a ha

theorem le_max?_getD {a : Int} (ha : a ∈ l) (d : Int) : a ≤ l.max?.getD d := by
  obtain ⟨m, hm⟩ := Option.isSome_iff_exists.1 (isSome_max?_of_mem ha)
  rw [hm]
  exact (max?_eq_some_iff.1 hm).2 a ha

variable {α : Type*} (key : α → Int)

/-- The elements whose key exceeds those of all earlier ones. -/
def recordBreaking (l : List α) : List α :=
  (l.zipIdx.filter fun (a, i) => (l.take i).all fun b => key b < key a).map Prod.fst

@[simp] theorem recordBreaking_nil : recordBreaking key [] = [] := rfl

theorem recordBreaking_concat (l : List α) (a : α) : recordBreaking key (l ++ [a]) =
      recordBreaking key l ++ if l.all fun b => key b < key a then [a] else [] := by
  have hold : l.zipIdx.filter (fun (b, i) => ((l ++ [a]).take i).all fun c => key c < key b) =
      l.zipIdx.filter fun (b, i) => (l.take i).all fun c => key c < key b := by
    refine filter_congr fun ⟨b, i⟩ hb => ?_
    have hi : i ≤ l.length := Nat.le_of_lt (by simpa using snd_lt_of_mem_zipIdx hb)
    dsimp only
    rw [take_append_of_le_length hi]
  have hnew : ([(a, l.length)].filter fun (b, i) => ((l ++ [a]).take i).all fun c =>
      key c < key b) =
      if l.all fun b => key b < key a then [(a, l.length)] else [] := by
    rw [filter_singleton]
    dsimp only
    rw [take_left, cond_eq_ite]
  unfold recordBreaking
  rw [zipIdx_append, filter_append, hold, map_append]
  simp only [Nat.zero_add, zipIdx_cons, zipIdx_nil]
  rw [hnew]
  split <;> rfl

theorem getLast?_recordBreaking (l : List α) (x : Int) :
    (((recordBreaking key l).map key).getLast?.all fun y => y < x) = l.all fun a => key a < x := by
  induction l using reverseRecOn with
  | nil => rfl
  | append_singleton l a ih =>
    rw [recordBreaking_concat]
    simp only [all_append, all_cons, all_nil, Bool.and_true]
    split
    · next hall =>
      rw [map_append, map_singleton, getLast?_concat, Option.all_some]
      by_cases ha : key a < x
      · have hl : l.all fun b => key b < x := by
          rw [all_eq_true] at hall ⊢
          intro b hb
          have hlt := of_decide_eq_true (hall b hb)
          exact decide_eq_true (Int.lt_trans hlt ha)
        rw [hl, Bool.true_and]
      · rw [decide_eq_false ha, Bool.and_false]
    · next hall =>
      rw [append_nil, ih]
      obtain ⟨b, hb, hle⟩ : ∃ b ∈ l, key a ≤ key b := by simpa using hall
      cases hl : l.all fun b => key b < x with
      | false => rfl
      | true =>
        have hlt := of_decide_eq_true (all_eq_true.1 hl b hb)
        rw [decide_eq_true (Int.lt_of_le_of_lt hle hlt), Bool.true_and]

end Cerbix.Lib
