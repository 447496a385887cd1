import Blocktrail.Bitcoin.Script

/-! # Key derivation and authenticated encryption

What the libraries of both SDKs offer: PBKDF2 with SHA-512, and AES-GCM with a tag of 16 bytes.
-/

open Bitcoin

namespace Crypt

/-- A derived key has 256 bits. -/
abbrev Key := { b : Bytes // b.length = 32 }
abbrev Tag := { b : Bytes // b.length = 16 }

/-- PBKDF2 makes at least one iteration. -/
abbrev Count := { n : Nat // 0 < n }

structure Ciphers where
  /-- PBKDF2 of a password and a salt. -/
  pbkdf2 : Bytes → Bytes → Count → Key
  /-- AES-GCM of an IV, a plaintext and the header it authenticates. -/
  gcmSeal : Key → Bytes → Bytes → Bytes → Bytes × Tag
  /-- The plaintext of a ciphertext, where the tag fits the IV, the ciphertext, the tag and the header. -/
  gcmOpen : Key → Bytes → Bytes → Bytes → Bytes → Option Bytes
  gcmOpen_eq_some : ∀ key iv ciphertext tag header plaintext,
    gcmOpen key iv ciphertext tag header = some plaintext ↔
      (gcmSeal key iv plaintext header).1 = ciphertext ∧ ((gcmSeal key iv plaintext header).2 : Bytes) = tag

namespace Ciphers

variable (c : Ciphers)

theorem gcmOpen_of_tag_length {tag : Bytes} (h : tag.length ≠ 16) (key : Key) (iv ciphertext header : Bytes) :
    c.gcmOpen key iv ciphertext tag header = none := by
  rw [Option.eq_none_iff_forall_ne_some]
  intro plaintext hp
  obtain ⟨-, ht⟩ := (c.gcmOpen_eq_some ..).mp hp
  exact h (ht ▸ (c.gcmSeal key iv plaintext header).2.property)

end Ciphers

/-! ## Ciphers that hide nothing -/

/-- The plaintext is its own ciphertext, under any tag that the key, the IV and the header determine. -/
def clearCiphers (derive : Bytes → Bytes → Count → Key) (tagOf : Key → Bytes → Bytes → Tag) : Ciphers where
  pbkdf2 := derive
  gcmSeal key iv plaintext header := (plaintext, tagOf key iv header)
  gcmOpen key iv ciphertext tag header := if (tagOf key iv header : Bytes) = tag then some ciphertext else none
  gcmOpen_eq_some key iv ciphertext tag header plaintext := by
    by_cases h : (tagOf key iv header : Bytes) = tag
    · rw [if_pos h, Option.some.injEq]
      exact ⟨fun he => ⟨he.symm, h⟩, fun he => he.1.symm⟩
    · simp [h]

/-- The first bytes, filled up with zeros. -/
def padTo (n : Nat) (b : Bytes) : Bytes := (b ++ List.replicate n 0).take n

theorem padTo_length (n : Nat) (b : Bytes) : (padTo n b).length = n := by simp [padTo]

theorem length_take_key (key : Key) : (key.val.take 16).length = 16 := by simp [key.property]

/-- The key shows the start of the password and the count, and the tag shows the key. -/
def sampleCiphers : Ciphers :=
  clearCiphers (fun password _ count => ⟨padTo 32 (UInt8.ofNat count :: password), padTo_length ..⟩)
    fun key _ _ => ⟨key.val.take 16, length_take_key key⟩

end Crypt
