import Cerbix.Lib.Text
import Mathlib

/-!
# Framing

`frame` writes a list of byte strings as their number and then each with its length before it, the
numbers in base 128 as Go's `binary.PutUvarint` writes them. No two lists have the same encoding
(`frame_injective`), so hashing or authenticating it is hashing the list itself. Nor have two texts
(`utf8_injective`) or two numbers in decimal (`itoa_injective`).
-/

namespace Cerbix.Lib

open List UInt8 Function

abbrev Bytes := List UInt8

/-- The digits of `n` in base 128, least significant first, all but the last marked; `fuel` bounds
their number. -/
def uvarintDigits : (fuel n : Nat) → Bytes
  | 0, _ => []
  | fuel + 1, n =>
    if n < 128 then [ofNat n] else ofNat (n % 128 + 128) :: uvarintDigits fuel (n / 128)

/-- `binary.PutUvarint`. -/
def uvarint (n : Nat) : Bytes := uvarintDigits (n + 1) n

/-- The number of the parts, and each part after its length. -/
def frame (parts : List Bytes) : Bytes :=
  uvarint parts.length ++ parts.flatMap fun p => uvarint p.length ++ p

theorem uvarintDigits_append_inj : ∀ {f g m n : Nat} {xs ys : Bytes}, m < f → n < g →
    uvarintDigits f m ++ xs = uvarintDigits g n ++ ys → m = n ∧ xs = ys
  | f + 1, g + 1, m, n, xs, ys, hf, hg, h => by
    rw [uvarintDigits, uvarintDigits] at h
    split at h <;> split at h
    · simp only [cons_append, cons.injEq] at h
      refine ⟨?_, h.2⟩
      have hb := congrArg toNat h.1
      rw [toNat_ofNat', toNat_ofNat'] at hb
      omega
    · have hb := congrArg toNat (cons.inj h).1
      rw [toNat_ofNat', toNat_ofNat'] at hb
      omega
    · have hb := congrArg toNat (cons.inj h).1
      rw [toNat_ofNat', toNat_ofNat'] at hb
      omega
    · obtain ⟨hd, ht⟩ := cons.inj h
      have hb := congrArg toNat hd
      rw [toNat_ofNat', toNat_ofNat'] at hb
      obtain ⟨hq, hxy⟩ := uvarintDigits_append_inj (by omega) (by omega) ht
      exact ⟨by omega, hxy⟩

theorem uvarint_append_inj {m n : Nat} {xs ys : Bytes} (h : uvarint m ++ xs = uvarint n ++ ys) :
    m = n ∧ xs = ys :=
  uvarintDigits_append_inj (Nat.lt_succ_self m) (Nat.lt_succ_self n) h

theorem flatMap_framed_inj : ∀ {ps qs : List Bytes}, ps.length = qs.length →
    (ps.flatMap fun p => uvarint p.length ++ p) = (qs.flatMap fun q => uvarint q.length ++ q) →
      ps = qs
  | [], [], _, _ => rfl
  | p :: ps, q :: qs, hlen, h => by
    rw [flatMap_cons, flatMap_cons, append_assoc, append_assoc] at h
    obtain ⟨hpq, h⟩ := uvarint_append_inj h
    obtain ⟨hhead, htail⟩ := append_inj h hpq
    rw [hhead, flatMap_framed_inj (Nat.succ.inj hlen) htail]

/-- **The framing loses nothing.** -/
theorem frame_injective : Injective frame := by
  intro ps qs h
  obtain ⟨hlen, h⟩ := uvarint_append_inj h
  exact flatMap_framed_inj hlen h

example : frame [[1], [2, 3]] ≠ frame [[1, 2], [3]] := by decide +kernel

theorem flatMap_injective {α β : Type} {f : α → List β} {k : Nat} (hlen : ∀ a, (f a).length = k + 1)
    (hf : Injective f) : Injective (flatMap f)
  | [], [], _ => rfl
  | [], b :: bs, h | b :: bs, [], h => by
    have := congrArg length h
    simp only [flatMap_nil, flatMap_cons, length_append, length_nil, hlen] at this
    omega
  | a :: as, b :: bs, h => by
    rw [flatMap_cons] at h
    obtain ⟨hab, h⟩ := append_inj h ((hlen a).trans (hlen b).symm)
    rw [hf hab, flatMap_injective hlen hf h]

theorem flatMap_pair_injective {α : Type} : Injective (flatMap fun e : α × α => [e.1, e.2]) :=
  flatMap_injective (fun _ => rfl) fun _ _ h => by simpa [Prod.ext_iff] using h

/-- The bytes of a text. -/
def utf8 (s : String) : Bytes := s.toUTF8.data.toList

theorem Text.itoa_injective : Injective Text.itoa := fun _ _ => Int.repr_injective

theorem utf8_injective : Injective utf8 := by
  intro s t h
  have hdata : s.toUTF8.data = t.toUTF8.data := Array.toList_inj.1 h
  exact String.toByteArray_inj.1 (ByteArray.ext hdata)

end Cerbix.Lib
