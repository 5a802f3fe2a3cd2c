import Cerbix.Domain.Monitor
import Cerbix.Lib.Dict
import Cerbix.Lib.Framing
import Cerbix.Lib.Text

/-!
# Evaluation semantics

What an evaluation epoch compares of its members, as `internal/domain/execsemantics.go` encodes it:
parts with their lengths before them, a count before each list. Equal encodings encode equal values,
up to the digest (`epoch_identified`).
-/

namespace Cerbix.Domain.ExecSemantics

open Cerbix.Lib List Text Function

/-- The projection of a monitor. A map is its entries in the order of the keys, as the encoding
visits it. -/
structure EvaluationSemantics where
  type : MonitorType
  target : String
  method : String
  region : String
  intervalSeconds : Int
  timeoutSeconds : Int
  retries : Int
  graceSeconds : Int
  enabled : Bool
  conditions : List String
  config : Dict String String
  credentialRefs : Dict String String
  credentialGenerations : Dict String String
  deriving DecidableEq

/-- A member of an epoch, as its hash covers it. -/
structure EpochMember where
  monitorID : String
  semantics : EvaluationSemantics
  staleAfter : Int
  armedAt : Int
  deriving DecidableEq

def mapParts (m : Dict String String) : List String :=
  itoa m.size :: m.entries.flatMap fun e => [e.1, e.2]

def EvaluationSemantics.parts (e : EvaluationSemantics) : List String :=
  ["cerbix.evalsem.v1", e.type.text, e.target, e.method, e.region, itoa e.intervalSeconds,
    itoa e.timeoutSeconds, itoa e.retries, itoa e.graceSeconds,
    if e.enabled then "true" else "false", itoa e.conditions.length] ++ (e.conditions ++
      (mapParts e.config ++ (mapParts e.credentialRefs ++ mapParts e.credentialGenerations)))

def EvaluationSemantics.canonical (e : EvaluationSemantics) : Bytes := frame (e.parts.map utf8)

/-- What `EpochSnapshotHash` feeds to SHA-256, with `format` for `time.RFC3339Nano`. -/
def snapshotPreimage (format : Int → String) (members : List EpochMember) : Bytes :=
  frame (utf8 "cerbix.epochsnap.v1" :: utf8 (itoa members.length) ::
    members.flatMap fun m => [utf8 m.monitorID, m.semantics.canonical,
      utf8 (itoa m.staleAfter), utf8 (format m.armedAt)])

def epochSnapshotHash {δ : Type} (sha256 : Bytes → δ) (format : Int → String)
    (members : List EpochMember) : δ :=
  sha256 (snapshotPreimage format members)

/-- The entries of a map end where their count says. -/
theorem mapParts_append_inj {m n : Dict String String} {xs ys : List String}
    (h : mapParts m ++ xs = mapParts n ++ ys) : m = n ∧ xs = ys := by
  obtain ⟨hsize, h⟩ := List.cons.inj h
  have hlen : m.entries.length = n.entries.length := Int.ofNat_inj.1 (itoa_injective hsize)
  obtain ⟨hentries, hrest⟩ := append_inj h (by simp [hlen])
  refine ⟨?_, hrest⟩
  cases n
  cases flatMap_pair_injective hentries
  rfl

theorem canonical_injective : Injective EvaluationSemantics.canonical := by
  intro a b h
  have h := utf8_injective.list_map (frame_injective h)
  simp only [EvaluationSemantics.parts, cons_append, nil_append, List.cons.injEq, true_and] at h
  obtain ⟨htype, htarget, hmethod, hregion, hinterval, htimeout, hretries, hgrace, henabled, hcount,
    h⟩ := h
  obtain ⟨hconditions, h⟩ := append_inj h (Int.ofNat_inj.1 (itoa_injective hcount))
  obtain ⟨hconfig, h⟩ := mapParts_append_inj h
  obtain ⟨hrefs, h⟩ := mapParts_append_inj h
  obtain ⟨hgenerations, -⟩ := mapParts_append_inj (congrArg (· ++ []) h)
  have henabled : a.enabled = b.enabled := by
    cases ha : a.enabled <;> cases hb : b.enabled <;> simp [ha, hb] at henabled ⊢
  cases a
  cases MonitorType.text_injective htype
  cases itoa_injective hinterval
  cases itoa_injective htimeout
  cases itoa_injective hretries
  cases itoa_injective hgrace
  simp_all

theorem snapshotPreimage_injective {format : Int → String} (hformat : Injective format) :
    Injective (snapshotPreimage format) := by
  intro ms ns h
  have h := (List.cons.inj (List.cons.inj (frame_injective h)).2).2
  refine flatMap_injective (k := 3) (fun _ => rfl) ?_ h
  intro m n hmn
  simp only [List.cons.injEq, and_true] at hmn
  obtain ⟨hid, hsemantics, hstale, harmed⟩ := hmn
  cases n
  cases utf8_injective hid
  cases canonical_injective hsemantics
  cases itoa_injective (utf8_injective hstale)
  cases hformat (utf8_injective harmed)
  rfl

/-- **The encodings lose nothing**: equal canonical forms are of equal semantics, equal preimages of
equal snapshots, and so are equal hashes if the digest has no collisions. -/
theorem epoch_identified {δ : Type} {sha256 : Bytes → δ} {format : Int → String}
    (hformat : Injective format) :
    (∀ a b : EvaluationSemantics, a.canonical = b.canonical → a = b) ∧
      (∀ ms ns, snapshotPreimage format ms = snapshotPreimage format ns → ms = ns) ∧
      (Injective sha256 → ∀ ms ns,
        epochSnapshotHash sha256 format ms = epochSnapshotHash sha256 format ns → ms = ns) :=
  ⟨fun _ _ h => canonical_injective h, fun _ _ h => snapshotPreimage_injective hformat h,
    fun hsha _ _ h => snapshotPreimage_injective hformat (hsha h)⟩

def plainSemantics (target : String) : EvaluationSemantics :=
  ⟨.http, target, "GET", "eu", 60, 10, 0, 0, true, [], .empty, .empty, .empty⟩

/-- A rendering that at the epoch writes what `time.RFC3339Nano` does. -/
def epochRendering (t : Int) : String :=
  if t = 0 then "1970-01-01T00:00:00Z" else "+" ++ itoa t

theorem epochRendering_injective : Injective epochRendering := by
  intro s t h
  have hne (n : Int) : "1970-01-01T00:00:00Z" ≠ "+" ++ itoa n := by
    intro heq
    have hhead := congrArg (fun text => text.toList.head?) heq
    rw [String.toList_append] at hhead
    exact absurd hhead (by simp)
  unfold epochRendering at h
  split at h <;> split at h
  · next hs ht => rw [hs, ht]
  · exact absurd h (hne t)
  · exact absurd h.symm (hne s)
  · exact itoa_injective ((String.append_right_inj _).1 h)

theorem epoch_identified_targets :
    epochSnapshotHash id epochRendering [⟨"m1", plainSemantics "https://a", 180, 0⟩] ≠
      epochSnapshotHash id epochRendering [⟨"m1", plainSemantics "https://b", 180, 0⟩] := by
  intro h
  have := (epoch_identified epochRendering_injective).2.2 injective_id _ _ h
  exact absurd this (by decide)

end Cerbix.Domain.ExecSemantics
