import Cerbix.Lib.Digraph
import Cerbix.Lib.Keyed

/-!
# Tables of dependency edges

What the monitor graph and the service graph of `internal/store` share: a table of rows "the first
depends on the second", the requested parent ids without duplicates (`dedupe` in
`internal/store/dependencies.go`), the count that says whether all are rows of the project, and the
replacement of one row's parent set (`dependsOn_replaceParents`). `dependsOn_next` and
`dependedOnBy_next` are what the recursive queries over the table walk along.
-/

namespace Cerbix.Store

open Cerbix.Lib List

/-- The ids with duplicates and empty ones removed, order preserved. -/
def dedupe (ids : List String) : List String := firstSeen [] (ids.filter (· ≠ ""))

theorem mem_dedupe {ids : List String} {x : String} : x ∈ dedupe ids ↔ x ∈ ids ∧ x ≠ "" := by
  simp [dedupe, mem_firstSeen]

theorem dedupe_nodup (ids : List String) : (dedupe ids).Nodup :=
  firstSeen_nodup _ nodup_nil

abbrev Edges := List (String × String)

variable (edges : Edges)

/-- The first depends on the second. -/
def DependsOn : String → String → Prop := fun a b => (a, b) ∈ edges

instance (edges : Edges) (a b : String) : Decidable (DependsOn edges a b) :=
  inferInstanceAs (Decidable ((a, b) ∈ edges))

def parentsOf (a : String) : List String :=
  (edges.filter fun e => e.1 = a).map Prod.snd

def childrenOf (a : String) : List String :=
  (edges.filter fun e => e.2 = a).map Prod.fst

def clearParents (a : String) : Edges := edges.filter fun e => e.1 ≠ a

def replaceParents (a : String) (parents : List String) : Edges :=
  clearParents edges a ++ parents.map fun p => (a, p)

section Tables

variable {edges : Edges} {a b : String}

theorem mem_parentsOf : b ∈ parentsOf edges a ↔ DependsOn edges a b := by
  simp [parentsOf, DependsOn]

theorem mem_childrenOf : b ∈ childrenOf edges a ↔ DependsOn edges b a := by
  simp [childrenOf, DependsOn]

theorem dependsOn_next : NextRel (parentsOf edges) = DependsOn edges := by
  funext a b
  exact propext mem_parentsOf

theorem dependedOnBy_next : NextRel (childrenOf edges) = fun a b => DependsOn edges b a := by
  funext a b
  exact propext mem_childrenOf

theorem dependsOn_clearParents {c : String} :
    DependsOn (clearParents edges c) a b ↔ DependsOn edges a b ∧ a ≠ c := by
  simp [clearParents, DependsOn]

theorem dependsOn_replaceParents {c : String} {parents : List String} :
    DependsOn (replaceParents edges c parents) = replaceOut (DependsOn edges) c (· ∈ parents) := by
  funext a b
  apply propext
  rw [DependsOn, replaceParents, mem_append]
  change DependsOn (clearParents edges c) a b ∨ _ ↔ _
  rw [dependsOn_clearParents, and_comm, or_comm]
  apply or_congr_left
  simp only [mem_map, Prod.mk.injEq]
  constructor
  · rintro ⟨p, hp, rfl, rfl⟩
    exact ⟨rfl, hp⟩
  · rintro ⟨rfl, hb⟩
    exact ⟨b, hb, rfl, rfl⟩

theorem dependsOn_of_filter {p : String × String → Bool} (h : DependsOn (edges.filter p) a b) :
    DependsOn edges a b :=
  mem_of_mem_filter h

end Tables

theorem length_eq_iff_forall_mem {rows ids : List String} (hrows : rows.Nodup) (hids : ids.Nodup)
    (hsub : ∀ x ∈ rows, x ∈ ids) : rows.length = ids.length ↔ ∀ x ∈ ids, x ∈ rows := by
  have hsubperm := subperm_of_subset hrows hsub
  constructor
  · intro hlen x hx
    exact (hsubperm.perm_of_length_le hlen.ge).mem_iff.2 hx
  · intro hall
    exact Nat.le_antisymm hsubperm.length_le (subperm_of_subset hids hall).length_le

end Cerbix.Store
