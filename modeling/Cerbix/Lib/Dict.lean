import Cerbix.Lib.Except
import Cerbix.Lib.Query
import Mathlib.Data.String.Basic

/-!
# Maps with a canonical form

`Dict κ β` is a finite map, kept as the list of its entries in the strict order of the keys. The
order is a field, so maps that answer every lookup alike are equal (`Dict.ext_get?`). Proofs use
what `get?` reads after each operation.
-/

namespace Cerbix.Lib

open List

/-- A map as its entries in the order of the keys. -/
structure Dict (κ β : Type) [LinearOrder κ] where
  entries : List (κ × β)
  sorted : (entries.map Prod.fst).Pairwise (· < ·)

namespace Dict

variable {κ β γ : Type} [LinearOrder κ]

instance [DecidableEq β] : DecidableEq (Dict κ β) := fun d e =>
  decidable_of_iff (d.entries = e.entries) ⟨fun h => by cases d; cases e; cases h; rfl,
    fun h => h ▸ rfl⟩

def empty : Dict κ β := ⟨[], .nil⟩

variable (d : Dict κ β)

def get? (k : κ) : Option β := d.entries.lookup k

def contains (k : κ) : Bool := (d.get? k).isSome

def keys : List κ := d.entries.map Prod.fst

def size : Nat := d.entries.length

theorem lookup_cons_eq (j k : κ) (v : β) (xs : List (κ × β)) :
    ((k, v) :: xs).lookup j = if j = k then some v else xs.lookup j := by
  rw [lookup_cons]
  by_cases h : j = k
  · simp [h]
  · rw [beq_eq_false_iff_ne.2 h, if_neg h]

variable {k : κ} {d : Dict κ β} {v : β} {kvs : List (κ × β)} {e : Dict κ γ} {ε : Type}
  {f : κ → β → Except ε γ} {R : κ → β → γ → Prop}

theorem lookup_eq_none_of_lt : ∀ {xs : List (κ × β)}, (∀ k' ∈ xs.map Prod.fst, k < k') →
    xs.lookup k = none
  | [], _ => rfl
  | (k', v) :: xs, h => by
    have hlt : k < k' := h k' (by simp)
    rw [lookup_cons_eq, if_neg hlt.ne]
    exact lookup_eq_none_of_lt fun j hj => h j (mem_cons_of_mem _ hj)

theorem lookup_isSome_iff : ∀ {xs : List (κ × β)}, (xs.lookup k).isSome ↔ k ∈ xs.map Prod.fst
  | [] => by simp
  | (k', v) :: xs => by
    rw [lookup_cons_eq, map_cons, mem_cons]
    by_cases h : k = k'
    · simp [h]
    · rw [if_neg h, lookup_isSome_iff, or_iff_right h]

theorem entries_eq_of_lookup : ∀ {xs ys : List (κ × β)}, (xs.map Prod.fst).Pairwise (· < ·) →
    (ys.map Prod.fst).Pairwise (· < ·) → (∀ k, xs.lookup k = ys.lookup k) → xs = ys
  | [], [], _, _, _ => rfl
  | [], (k, v) :: ys, _, _, h => by simpa using h k
  | (k, v) :: xs, [], _, _, h => by simpa using h k
  | (k, v) :: xs, (k', v') :: ys, hx, hy, h => by
    rw [map_cons, pairwise_cons] at hx hy
    have hk : k = k' := by
      -- the smaller of the two first keys is missing from the other list
      rcases lt_trichotomy k k' with hlt | heq | hgt
      · have hnone : ((k', v') :: ys).lookup k = none := by
          refine lookup_eq_none_of_lt fun j hj => ?_
          rcases mem_cons.1 hj with rfl | hj
          · exact hlt
          · exact hlt.trans (hy.1 j hj)
        have := h k
        rw [hnone] at this
        simp at this
      · exact heq
      · have hnone : ((k, v) :: xs).lookup k' = none := by
          refine lookup_eq_none_of_lt fun j hj => ?_
          rcases mem_cons.1 hj with rfl | hj
          · exact hgt
          · exact hgt.trans (hx.1 j hj)
        have := h k'
        rw [hnone] at this
        simp at this
    subst hk
    have hv : v = v' := by simpa using h k
    subst hv
    have htail : ∀ j, xs.lookup j = ys.lookup j := by
      intro j
      by_cases hj : j = k
      · rw [hj, lookup_eq_none_of_lt hx.1, lookup_eq_none_of_lt hy.1]
      · have := h j
        rwa [lookup_cons_eq, lookup_cons_eq, if_neg hj, if_neg hj] at this
    rw [entries_eq_of_lookup hx.2 hy.2 htail]

@[ext] theorem ext_get? {e : Dict κ β} (h : ∀ k, d.get? k = e.get? k) : d = e := by
  cases d with | mk xs hx =>
  cases e with | mk ys hy =>
  obtain rfl := entries_eq_of_lookup hx hy h
  rfl

@[simp] theorem get?_empty (k : κ) : (empty : Dict κ β).get? k = none := rfl

theorem none_or_of_exclusive {j : κ} (h : d.contains j → d.contains k → False) :
    d.get? j = none ∨ d.get? k = none := by
  by_contra hne
  obtain ⟨hj, hk⟩ := not_or.1 hne
  exact h (Option.isSome_iff_ne_none.2 hj) (Option.isSome_iff_ne_none.2 hk)

theorem mem_keys : k ∈ d.keys ↔ d.contains k :=
  lookup_isSome_iff.symm

theorem keys_nodup (d : Dict κ β) : d.keys.Nodup := d.sorted.imp ne_of_lt

theorem length_keys (d : Dict κ β) : d.keys.length = d.size := length_map _

/-! ## Writing -/

def setEntry (k : κ) (v : β) : List (κ × β) → List (κ × β)
  | [] => [(k, v)]
  | (k', v') :: xs =>
    if k < k' then (k, v) :: (k', v') :: xs
    else if k = k' then (k, v) :: xs
    else (k', v') :: setEntry k v xs

theorem mem_map_setEntry {j : κ} : ∀ {xs : List (κ × β)},
    j ∈ (setEntry k v xs).map Prod.fst → j = k ∨ j ∈ xs.map Prod.fst
  | [], h => by simpa [setEntry] using h
  | (k', v') :: xs, h => by
    rw [setEntry] at h
    split at h
    · simpa using h
    split at h
    · next hk =>
      rcases mem_cons.1 h with h | h
      · exact .inl h
      · exact .inr (mem_cons_of_mem _ h)
    · rcases mem_cons.1 h with h | h
      · exact .inr (h ▸ mem_cons_self)
      · exact (mem_map_setEntry h).imp_right (mem_cons_of_mem _)

theorem sorted_setEntry : ∀ {xs : List (κ × β)},
    (xs.map Prod.fst).Pairwise (· < ·) → ((setEntry k v xs).map Prod.fst).Pairwise (· < ·)
  | [], _ => by simp [setEntry]
  | (k', v') :: xs, h => by
    have hx := h
    rw [map_cons, pairwise_cons] at hx
    rw [setEntry]
    split
    · next hlt =>
      rw [map_cons, pairwise_cons]
      refine ⟨fun j hj => ?_, h⟩
      rcases mem_cons.1 hj with rfl | hj
      · exact hlt
      · exact hlt.trans (hx.1 j hj)
    · next hlt =>
      split
      · next heq =>
        subst heq
        exact h
      · next hne =>
        rw [map_cons, pairwise_cons]
        refine ⟨fun j hj => ?_, sorted_setEntry hx.2⟩
        rcases mem_map_setEntry hj with rfl | hj
        · exact lt_of_le_of_ne (not_lt.1 hlt) (Ne.symm hne)
        · exact hx.1 j hj

theorem lookup_setEntry (j : κ) : ∀ {xs : List (κ × β)},
    (setEntry k v xs).lookup j = if j = k then some v else xs.lookup j
  | [] => by
    rw [setEntry, lookup_cons_eq]
  | (k', v') :: xs => by
    rw [setEntry]
    split
    · rw [lookup_cons_eq j k]
    split
    · next heq =>
      subst heq
      rw [lookup_cons_eq, lookup_cons_eq]
      by_cases h : j = k <;> simp [h]
    · next hne =>
      rw [lookup_cons_eq, lookup_cons_eq, lookup_setEntry j]
      by_cases h : j = k'
      · rw [if_pos h, if_neg fun hk => hne (hk.symm.trans h), if_pos h]
      · rw [if_neg h, if_neg h]

/-- Write the value of a key. -/
def set (d : Dict κ β) (k : κ) (v : β) : Dict κ β :=
  ⟨setEntry k v d.entries, sorted_setEntry d.sorted⟩

theorem get?_set (d : Dict κ β) (k j : κ) (v : β) :
    (d.set k v).get? j = if j = k then some v else d.get? j := lookup_setEntry j

theorem contains_set (d : Dict κ β) (k j : κ) (v : β) :
    (d.set k v).contains j ↔ j = k ∨ d.contains j := by
  rw [contains, get?_set, contains]
  by_cases h : j = k <;> simp [h]

theorem set_set (d : Dict κ β) (k : κ) (v w : β) : (d.set k v).set k w = d.set k w := by
  refine ext_get? fun j => ?_
  simp only [get?_set]
  split <;> rfl

def eraseWhere (d : Dict κ β) (p : κ → Bool) : Dict κ β :=
  ⟨d.entries.filter fun e => !p e.1, d.sorted.sublist (filter_sublist.map Prod.fst)⟩

def setAll (d : Dict κ β) (kvs : List (κ × β)) : Dict κ β := kvs.foldl (fun d e => d.set e.1 e.2) d

/-- Of several values of one key the last counts. -/
def ofList (kvs : List (κ × β)) : Dict κ β := empty.setAll kvs

theorem get?_setAll (kvs : List (κ × β)) : ∀ (d : Dict κ β) (j : κ),
    (d.setAll kvs).get? j = (kvs.reverse.lookup j).or (d.get? j) := by
  induction kvs with
  | nil => intro d j; rfl
  | cons e kvs ih =>
    intro d j
    rw [show d.setAll (e :: kvs) = (d.set e.1 e.2).setAll kvs from rfl, ih, get?_set,
      reverse_cons, lookup_append]
    rw [lookup_cons_eq]
    split <;> simp

theorem lookup_eq_some_iff {j : κ} : ∀ {xs : List (κ × β)}, (xs.map Prod.fst).Nodup →
    (xs.lookup j = some v ↔ (j, v) ∈ xs)
  | [], _ => by simp
  | (k, w) :: xs, h => by
    rw [map_cons, nodup_cons] at h
    rw [lookup_cons_eq]
    by_cases hj : j = k
    · subst hj
      have hnot : (j, v) ∉ xs := fun hmem => h.1 (mem_map.2 ⟨_, hmem, rfl⟩)
      simp [hnot, eq_comm]
    · simp [hj, lookup_eq_some_iff h.2]

theorem get?_setAll_entries (d e : Dict κ β) (j : κ) :
    (d.setAll e.entries).get? j = (e.get? j).or (d.get? j) := by
  rw [get?_setAll]
  congr 1
  refine Option.ext fun v => ?_
  have hnodup : (e.entries.map Prod.fst).Nodup := e.keys_nodup
  rw [lookup_eq_some_iff (by rw [map_reverse, nodup_reverse]; exact hnodup),
    mem_reverse, ← lookup_eq_some_iff hnodup]
  rfl

theorem mem_of_get?_ofList (h : (ofList kvs).get? k = some v) : (k, v) ∈ kvs := by
  rw [ofList, get?_setAll, show (empty : Dict κ β).get? k = none from rfl, Option.or_none,
    List.lookup_eq_some_iff] at h
  obtain ⟨xs, ys, hkvs, -⟩ := h
  rw [← List.mem_reverse, hkvs]
  simp

theorem get?_ofList_of_unique (hmem : (k, v) ∈ kvs)
    (huniq : ∀ w, (k, w) ∈ kvs → w = v) : (ofList kvs).get? k = some v := by
  cases h : (ofList kvs).get? k with
  | some w => rw [huniq w (mem_of_get?_ofList h)]
  | none =>
    rw [ofList, get?_setAll, show (empty : Dict κ β).get? k = none from rfl, Option.or_none,
      lookup_eq_none_iff] at h
    simpa using h (k, v) (mem_reverse.2 hmem)

theorem setAll_perm {xs ys : List (κ × β)} (d : Dict κ β) (hperm : xs.Perm ys)
    (hnodup : (ys.map Prod.fst).Nodup) : d.setAll xs = d.setAll ys := by
  have hnodup' : (xs.map Prod.fst).Nodup := (hperm.map Prod.fst).nodup_iff.2 hnodup
  refine ext_get? fun j => ?_
  rw [get?_setAll, get?_setAll]
  congr 1
  refine Option.ext fun v => ?_
  rw [lookup_eq_some_iff (by rw [map_reverse, nodup_reverse]; exact hnodup'),
    lookup_eq_some_iff (by rw [map_reverse, nodup_reverse]; exact hnodup),
    mem_reverse, mem_reverse, hperm.mem_iff]

theorem setEntry_append : ∀ {xs : List (κ × β)}, (∀ k' ∈ xs.map Prod.fst, k' < k) →
    setEntry k v xs = xs ++ [(k, v)]
  | [], _ => rfl
  | (k', v') :: xs, h => by
    have hlt : k' < k := h k' (by simp)
    rw [setEntry, if_neg hlt.not_gt, if_neg hlt.ne', cons_append,
      setEntry_append fun j hj => h j (mem_cons_of_mem _ hj)]

theorem entries_setAll : ∀ {kvs : List (κ × β)} {d : Dict κ β},
    ((d.entries ++ kvs).map Prod.fst).Pairwise (· < ·) → (d.setAll kvs).entries = d.entries ++ kvs
  | [], d, _ => (append_nil _).symm
  | (k, v) :: kvs, d, h => by
    have hstep : (d.set k v).entries = d.entries ++ [(k, v)] := by
      refine setEntry_append fun j hj => ?_
      rw [map_append, pairwise_append] at h
      exact h.2.2 j hj k (by simp)
    have hrest : (((d.set k v).entries ++ kvs).map Prod.fst).Pairwise (· < ·) := by
      rw [hstep, append_assoc]
      exact h
    rw [show d.setAll ((k, v) :: kvs) = (d.set k v).setAll kvs from rfl,
      entries_setAll hrest, hstep,
      append_assoc]
    rfl

theorem entries_ofList (h : (kvs.map Prod.fst).Pairwise (· < ·)) : (ofList kvs).entries = kvs :=
  entries_setAll (d := empty) h

theorem filter_keys_eq_of_contains {p : κ → Bool}
    (h : ∀ k, p k → d.contains k = e.contains k) : d.keys.filter p = e.keys.filter p := by
  refine List.Perm.eq_of_pairwise (fun a b _ _ hab hba => absurd hab hba.not_gt)
    (d.sorted.sublist filter_sublist) (e.sorted.sublist filter_sublist) ?_
  refine (perm_ext_iff_of_nodup (d.keys_nodup.filter p) (e.keys_nodup.filter p)).2 fun k => ?_
  rw [mem_filter, mem_filter, mem_keys, mem_keys]
  exact and_congr_left fun hk => by rw [h k hk]

theorem mem_entries : (k, v) ∈ d.entries ↔ d.get? k = some v := by
  obtain ⟨xs, hx⟩ := d
  show (k, v) ∈ xs ↔ xs.lookup k = some v
  induction xs with
  | nil => simp
  | cons e xs ih =>
    obtain ⟨k', v'⟩ := e
    rw [map_cons, pairwise_cons] at hx
    rw [mem_cons, lookup_cons_eq, ih hx.2]
    by_cases h : k = k'
    · subst h
      rw [lookup_eq_none_of_lt hx.1]
      simp [eq_comm]
    · simp [h]

/-! ## Maps of values -/

def mapValues (f : κ → β → γ) (d : Dict κ β) : Dict κ γ :=
  ⟨d.entries.map fun e => (e.1, f e.1 e.2), by
    rw [map_map]
    exact d.sorted⟩

theorem get?_mapValues (f : κ → β → γ) (d : Dict κ β) (k : κ) :
    (d.mapValues f).get? k = (d.get? k).map (f k) := by
  obtain ⟨xs, hxs⟩ := d
  show (xs.map fun e => (e.1, f e.1 e.2)).lookup k = (xs.lookup k).map (f k)
  clear hxs
  induction xs with
  | nil => rfl
  | cons e xs ih =>
    obtain ⟨k', v⟩ := e
    rw [map_cons, lookup_cons_eq, lookup_cons_eq, ih]
    by_cases h : k = k'
    · subst h
      simp
    · simp [h]

def mapM {ε : Type} (f : κ → β → Except ε γ) (d : Dict κ β) : Except ε (Dict κ γ) := do
  let kvs ← d.entries.mapM fun e => do
    let w ← f e.1 e.2
    return (e.1, w)
  return ofList kvs

theorem mapM_eq_ok (h : d.mapM f = .ok e) : e.keys = d.keys ∧
      ∀ k w, e.get? k = some w → ∃ v, d.get? k = some v ∧ f k v = .ok w := by
  obtain ⟨kvs, hkvs, h⟩ := bind_eq_ok.1 h
  obtain rfl : ofList kvs = e := by simpa [pure, Except.pure] using h
  have hfst : kvs.map Prod.fst = d.entries.map Prod.fst := by
    refine (map_eq_map_of_forall₂ (Lib.mapM_eq_ok hkvs) fun x y hy => ?_).symm
    obtain ⟨w, -, hy⟩ := bind_eq_ok.1 hy
    obtain rfl : (x.1, w) = y := by simpa [pure, Except.pure] using hy
    rfl
  have hentries : (ofList kvs).entries = kvs := entries_ofList (by rw [hfst]; exact d.sorted)
  refine ⟨by rw [keys, hentries, hfst, keys], fun k w hw => ?_⟩
  rw [← mem_entries, hentries] at hw
  obtain ⟨x, hx, hf⟩ := exists_of_mem_mapM hkvs hw
  obtain ⟨w', hw', hf⟩ := bind_eq_ok.1 hf
  obtain ⟨rfl, rfl⟩ : x.1 = k ∧ w' = w := by simpa [pure, Except.pure] using hf
  exact ⟨x.2, mem_entries.1 hx, hw'⟩

theorem ofList_entries (d : Dict κ β) : ofList d.entries = d := by
  refine ext_get? fun k => ?_
  rw [get?, entries_ofList d.sorted, get?]

omit [LinearOrder κ] in
theorem mapM_of_forall₂ : ∀ {xs : List (κ × β)}
    {ys : List (κ × γ)}, List.Forall₂ (fun x y => x.1 = y.1 ∧ f x.1 x.2 = .ok y.2) xs ys →
    (xs.mapM fun e => do
      let w ← f e.1 e.2
      return (e.1, w)) = .ok ys
  | [], [], .nil => rfl
  | x :: xs, y :: ys, .cons ⟨hk, hf⟩ hrest => by
    rw [mapM_cons, mapM_of_forall₂ hrest, hf]
    show Except.ok ((x.1, y.2) :: ys) = .ok (y :: ys)
    rw [hk]

theorem lookup_of_forall₂ : ∀ {xs : List (κ × β)}
    {ys : List (κ × γ)}, List.Forall₂ (fun x y => x.1 = y.1 ∧ R x.1 x.2 y.2) xs ys →
    xs.lookup k = some v → ∃ w, ys.lookup k = some w ∧ R k v w
  | (j, a) :: xs, (j', b) :: ys, .cons hxy hrest, h => by
    obtain ⟨rfl, hR⟩ : j = j' ∧ R j a b := hxy
    rw [lookup_cons_eq] at h ⊢
    by_cases hk : k = j
    · subst hk
      rw [if_pos rfl] at h ⊢
      cases h
      exact ⟨b, rfl, hR⟩
    · rw [if_neg hk] at h ⊢
      exact lookup_of_forall₂ hrest h

omit [LinearOrder κ] in
theorem forall₂_of_keys_eq : ∀ {xs : List (κ × β)} {ys : List (κ × γ)},
    xs.map Prod.fst = ys.map Prod.fst → (∀ k v w, (k, v) ∈ xs → (k, w) ∈ ys → R k v w) →
    List.Forall₂ (fun x y => x.1 = y.1 ∧ R x.1 x.2 y.2) xs ys
  | [], [], _, _ => .nil
  | (k, v) :: xs, (k', w) :: ys, hkeys, h => by
    simp only [map_cons, List.cons.injEq] at hkeys
    obtain ⟨rfl, hkeys⟩ := hkeys
    refine .cons ⟨rfl, h k v w mem_cons_self mem_cons_self⟩ ?_
    exact forall₂_of_keys_eq hkeys fun j a b ha hb =>
      h j a b (mem_cons_of_mem _ ha) (mem_cons_of_mem _ hb)

theorem mapM_eq_ok_of_keys (hkeys : e.keys = d.keys)
    (h : ∀ k v w, d.get? k = some v → e.get? k = some w → f k v = .ok w) : d.mapM f = .ok e := by
  have hall := forall₂_of_keys_eq (R := fun k v w => f k v = .ok w) hkeys.symm
    fun k v w hv hw => h k v w (mem_entries.1 hv) (mem_entries.1 hw)
  rw [mapM, mapM_of_forall₂ hall]
  show Except.ok (ofList e.entries) = .ok e
  rw [ofList_entries]

end Dict

/-- An order in which a loop over a map may visit its entries. -/
structure MapOrder (κ β : Type) where
  visit : List (κ × β) → List (κ × β)
  perm : ∀ xs, (visit xs).Perm xs

namespace MapOrder

variable {κ β : Type}

def inOrder : MapOrder κ β := ⟨id, fun _ => .refl _⟩

end MapOrder

end Cerbix.Lib
