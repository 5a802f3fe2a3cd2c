import Cerbix.Lib.Joined
import Mathlib.Data.List.Sort
import Mathlib.Data.Prod.Lex

/-!
# The service impact graph: bounds, roles, slugs and paths

The constants of `internal/domain/serviceimpact.go`, the note it renders, and the shape of a slug,
shared by monitors and services (`ValidMonitorSlug` in `internal/domain/monitor.go`,
`ValidServiceSlug` in `service.go`).

An impact path is a list of slugs, the root first, compared by length and then by the slugs joined
with a zero character. No slug holds that character, so paths that are neither better nor worse are
the same (`pathRank_inj`).
-/

namespace Cerbix.Domain

open Cerbix.Lib List

/-- The bound of every walk over the service graph, and of every chain a write may make. -/
def serviceGraphDepthCap : Nat := 10

def maxServiceDependencies : Nat := 20

def maxCorrelationWitnessesPerService : Nat := 5

/-- What a service is to an incident. -/
inductive ImpactRole
  | probableRoot
  | affected
  deriving DecidableEq, Repr

def ImpactRole.text : ImpactRole → String
  | .probableRoot => "probable_root"
  | .affected => "affected"

def validMonitorSlug (s : String) : Bool :=
  match s.toList with
  | [] => false
  | c :: cs =>
    ('a' ≤ c && c ≤ 'z') && decide (cs.length ≤ 62) &&
      cs.all fun d => ('a' ≤ d && d ≤ 'z') || ('0' ≤ d && d ≤ '9') || d == '-'

def validServiceSlug (s : String) : Bool := validMonitorSlug s

variable (path : List String)

def pathKey : List Char := joined '\x00' (path.map String.toList)

/-- The canonical order of paths: shorter first, then by the joined slugs. -/
def betterPath (a b : List String) : Bool :=
  if a.length ≠ b.length then a.length < b.length else pathKey a < pathKey b

/-- Shorter paths come first, then by their text. -/
def pathRank : ℕ ×ₗ List Char := toLex (path.length, pathKey path)

theorem betterPath_iff {a b : List String} : betterPath a b ↔ pathRank a < pathRank b := by
  simp only [betterPath, pathRank, Prod.Lex.toLex_lt_toLex]
  split
  · next h => simp [h]
  · next h =>
    have h : a.length = b.length := not_not.1 h
    simp [h]

theorem zero_not_mem_of_validServiceSlug {s : String} (h : validServiceSlug s) :
    '\x00' ∉ s.toList := by
  unfold validServiceSlug validMonitorSlug at h
  split at h
  · cases h
  rename_i c cs hs
  rw [hs]
  intro hmem
  simp only [Bool.and_eq_true, all_eq_true] at h
  rcases mem_cons.1 hmem with rfl | hmem
  · exact absurd h.1.1.1 (by decide)
  · exact absurd (h.2 _ hmem) (by decide)

def SlugPath : Prop := ∀ s ∈ path, '\x00' ∉ s.toList

theorem SlugPath.parts {path : List String} (h : SlugPath path) :
    ∀ a ∈ path.map String.toList, '\x00' ∉ a := by
  intro a ha
  obtain ⟨s, hs, rfl⟩ := mem_map.1 ha
  exact h s hs

theorem pathRank_inj {a b : List String} (ha : SlugPath a) (hb : SlugPath b)
    (h : pathRank a = pathRank b) : a = b := by
  obtain ⟨hlen, hkey⟩ := Prod.mk.inj h
  have hmap := joined_inj (by rw [length_map, length_map, hlen]) ha.parts hb.parts hkey
  exact (map_injective_iff.2 fun s t hst => String.toList_inj.1 hst) hmap

/-- A link as a note shows it. -/
structure ServiceImpactLink where
  serviceID : String
  slug : String
  role : ImpactRole
  path : List String
  deriving DecidableEq, Repr

def impactMarker : String := "🕸 Impact:"

def impactNoteNameCap : Nat := 8

/-- The services of one role: the nearest first, then by slug. -/
def impactNotePart (links : List ServiceImpactLink) (via : Bool) : String :=
  let sorted := links.insertionSort fun a b =>
    a.path.length < b.path.length ∨ (a.path.length = b.path.length ∧ a.slug ≤ b.slug)
  let names := (sorted.take impactNoteNameCap).map fun l =>
    if via && !l.path.isEmpty then l.slug ++ " (via " ++ " → ".intercalate l.path ++ ")" else l.slug
  let extra := links.length - impactNoteNameCap
  ", ".intercalate names ++ if 0 < extra then ", +" ++ toString extra ++ " more" else ""

def renderImpactNote (links : List ServiceImpactLink) : String :=
  let roots := links.filter fun l => l.role = .probableRoot
  let affected := links.filter fun l => l.role = .affected
  if roots.isEmpty && affected.isEmpty then "" else
  let segs := (if roots.isEmpty then [] else ["probable root — " ++ impactNotePart roots true]) ++
    if affected.isEmpty then [] else ["affected — " ++ impactNotePart affected false]
  impactMarker ++ " " ++ "; ".intercalate segs ++ "."

end Cerbix.Domain
