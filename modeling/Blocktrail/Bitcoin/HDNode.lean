import Blocktrail.Bitcoin.Script

/-! # BIP32 keys

`HDNode` is a parameter: the curve and the hashes under it are assumed. The checks it makes are here.
-/

open Text

namespace Bitcoin

/-- What keys are derived with: the parts of `HDNode` that compute on keys, and the letters of the host. -/
structure HDLib (Node : Type) where
  lowerCase : LowerCase
  /-- The master key of a seed of an accepted length. -/
  master : Bytes → Network → Except JsError Node
  /-- The child key of an index that passed the checks of `derive`. -/
  child : Node → Nat → Node
  neutered : Node → Node
  isNeutered : Node → Bool
  getPublicKeyBuffer : Node → PubKey
  getAddress : Node → Str
  toBase58 : Node → Str
  fromBase58 : Str → Network → Except JsError Node

def HIGHEST_BIT : Nat := 0x80000000

namespace HDLib

variable {Node : Type} (lib : HDLib Node)

def fromSeedBuffer (seed : Bytes) (network : Network) : Except JsError Node :=
  if seed.length < 16 then .error ⟨"TypeError", "Seed should be at least 128 bits"⟩
  else if seed.length > 64 then .error ⟨"TypeError", "Seed should be at most 512 bits"⟩
  else lib.master seed network

/-- `derive(index)`, where `none` is NaN. -/
def derive (n : Node) (index : Option Int) : Except JsError Node :=
  match index with
  | some (Int.ofNat i) =>
    if i < 2 ^ 32 then
      if HIGHEST_BIT ≤ i ∧ lib.isNeutered n then .error ⟨"TypeError", "Could not derive hardened child key"⟩
      else .ok (lib.child n i)
    else .error ⟨"TfTypeError", "Expected UInt32"⟩
  | _ => .error ⟨"TfTypeError", "Expected UInt32"⟩

def deriveHardened (n : Node) (index : Nat) : Except JsError Node :=
  if index < HIGHEST_BIT then lib.derive n (some (index + HIGHEST_BIT : Nat))
  else .error ⟨"TfTypeError", "Expected UInt31"⟩

/-- What the SDK relies on: a public key derives the public keys of the children of its private key. -/
structure Lawful : Prop where
  isNeutered_neutered : ∀ n, lib.isNeutered (lib.neutered n) = true
  isNeutered_child : ∀ n i, lib.isNeutered (lib.child n i) = lib.isNeutered n
  getPublicKeyBuffer_neutered : ∀ n, lib.getPublicKeyBuffer (lib.neutered n) = lib.getPublicKeyBuffer n
  child_neutered : ∀ n i, i < HIGHEST_BIT → lib.child (lib.neutered n) i = lib.neutered (lib.child n i)

theorem derive_lt (n : Node) {i : Nat} (h : i < HIGHEST_BIT) :
    lib.derive n (some i) = .ok (lib.child n i) := by
  have h32 : i < 2 ^ 32 := Nat.lt_trans h (by decide)
  have hb : ¬(HIGHEST_BIT ≤ i ∧ lib.isNeutered n) := fun ⟨hh, _⟩ => absurd h (Nat.not_lt.mpr hh)
  show (if i < 2 ^ 32 then _ else _) = _
  rw [if_pos h32, if_neg hb]

theorem derive_private {n : Node} (hn : lib.isNeutered n = false) {i : Nat} (h : i < 2 ^ 32) :
    lib.derive n (some i) = .ok (lib.child n i) := by
  show (if i < 2 ^ 32 then _ else _) = _
  rw [if_pos h, if_neg (by simp [hn])]

theorem derive_public_ge {n : Node} (hn : lib.isNeutered n) {i : Nat} (h : HIGHEST_BIT ≤ i) :
    ∃ e, lib.derive n (some i) = .error e := by
  show ∃ e, (if i < 2 ^ 32 then _ else _) = _
  split
  · rw [if_pos ⟨h, hn⟩]
    exact ⟨_, rfl⟩
  · exact ⟨_, rfl⟩

theorem derive_public (n : Node) (hn : lib.isNeutered n) (i : Nat) :
    (lib.derive n (some i)).toOption = if i < HIGHEST_BIT then some (lib.child n i) else none := by
  split
  · next h => rw [derive_lt lib n h]; rfl
  · next h =>
    obtain ⟨e, he⟩ := derive_public_ge lib hn (Nat.not_lt.mp h)
    rw [he]
    rfl

end HDLib

end Bitcoin
