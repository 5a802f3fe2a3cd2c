import Mathlib.Data.List.Basic

/-!
# Ideal authenticated encryption

A `Vault` remembers what was sealed. A ciphertext is the name of an entry, or a text that no seal
produced. It opens only under the key and the associated data of its entry (`decrypt_eq_some_iff`),
and what was sealed opens to itself whatever is sealed later (`decrypt_encrypt`, `decrypt_append`).
-/

namespace Cerbix.Lib

open List

/-- A message under a key, with the data it is bound to. -/
structure Sealing (κ α μ : Type) where
  key : κ
  ad : α
  message : μ
  deriving DecidableEq, Repr

/-- What was sealed so far. -/
abbrev Vault (κ α μ : Type) := List (Sealing κ α μ)

/-- What the `n`-th seal returned, or a text that no seal did. -/
inductive Ciphertext
  | token (n : Nat)
  | foreign (text : String)
  deriving DecidableEq, Repr

namespace Vault

variable {κ α μ : Type} [DecidableEq κ] [DecidableEq α]

/-- Seal a message: the vault remembers it, and the ciphertext names it. -/
def encrypt (v : Vault κ α μ) (x : Sealing κ α μ) : Vault κ α μ × Ciphertext :=
  (v ++ [x], .token v.length)

/-- The message of an entry, for who has its key and its associated data. -/
def decrypt (v : Vault κ α μ) (key : κ) (ad : α) : Ciphertext → Option μ
  | .foreign _ => none
  | .token n => (v[n]?.filter fun x => x.key = key ∧ x.ad = ad).map Sealing.message

variable {v : Vault κ α μ} {c : Ciphertext}

/-- **A ciphertext that opens was sealed**, under that key and for that associated data. -/
theorem decrypt_eq_some_iff {key : κ} {ad : α} {m : μ} :
    v.decrypt key ad c = some m ↔ ∃ n, c = .token n ∧ v[n]? = some ⟨key, ad, m⟩ := by
  cases c with
  | foreign text => simp [decrypt]
  | token n =>
    simp only [decrypt, Option.map_eq_some_iff, Option.filter_eq_some_iff, decide_eq_true_eq,
      Ciphertext.token.injEq, exists_eq_left']
    constructor
    · rintro ⟨x, ⟨hx, rfl, rfl⟩, rfl⟩
      exact hx
    · intro h
      exact ⟨⟨key, ad, m⟩, ⟨h, rfl, rfl⟩, rfl⟩

/-- What was sealed opens to itself, under its key and for its associated data. -/
theorem decrypt_encrypt (v : Vault κ α μ) (x : Sealing κ α μ) :
    (v.encrypt x).1.decrypt x.key x.ad (v.encrypt x).2 = some x.message := by
  refine decrypt_eq_some_iff.2 ⟨v.length, rfl, ?_⟩
  show (v ++ [x])[v.length]? = some x
  rw [getElem?_append_right (Nat.le_refl _), Nat.sub_self]
  rfl

/-- What is sealed later changes nothing. -/
theorem decrypt_append {key : κ} {ad : α} {m : μ}
    (h : v.decrypt key ad c = some m) (w : Vault κ α μ) :
    Vault.decrypt (v ++ w) key ad c = some m := by
  obtain ⟨n, rfl, hn⟩ := decrypt_eq_some_iff.1 h
  refine decrypt_eq_some_iff.2 ⟨n, rfl, ?_⟩
  rw [List.getElem?_append_left (List.getElem?_eq_some_iff.1 hn).1, hn]

end Vault

end Cerbix.Lib
