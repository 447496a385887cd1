import Blocktrail.Bitcoin.Address
import Blocktrail.Bitcoin.Paths
import Blocktrail.Lib.Encoding

/-! # Keys to evaluate with

`SampleNode` keeps the seed and the path of a key in the clear. It obeys the laws of `HDNode`, so a
statement about every `HDLib` can be evaluated on it.
-/

open Text

namespace Bitcoin

structure SampleNode where
  seed : Bytes
  path : List Nat
  isPrivate : Bool
deriving DecidableEq

/-- The first 32 bytes, filled up with zeros. -/
def pad32 (b : Bytes) : Bytes := (b ++ List.replicate 32 0).take 32

theorem pad32_length (b : Bytes) : (pad32 b).length = 32 := by simp [pad32]

/-- The path from the last index on, then the seed. -/
def SampleNode.pubKey (n : SampleNode) : PubKey where
  bytes := 0x02 :: pad32 (n.path.map UInt8.ofNat ++ n.seed)
  length_eq := by simp [pad32_length]
  compressed := Or.inl rfl

def sampleHD : HDLib SampleNode where
  lowerCase := .ascii
  master seed _ := .ok ⟨seed, [], true⟩
  child n i := { n with path := i :: n.path }
  neutered n := { n with isPrivate := false }
  isNeutered n := !n.isPrivate
  getPublicKeyBuffer n := n.pubKey
  getAddress n := n.seed.map fun b => Char.ofNat b.toNat
  toBase58 n := n.seed.map fun b => Char.ofNat b.toNat
  fromBase58 s _ := .ok ⟨s.map fun c => UInt8.ofNat c.toNat, [], false⟩

theorem sampleHD_lawful : sampleHD.Lawful where
  isNeutered_neutered _ := rfl
  isNeutered_child _ _ := rfl
  getPublicKeyBuffer_neutered _ := rfl
  child_neutered _ _ _ := rfl

theorem toNat_charOfByte (b : UInt8) : (Char.ofNat b.toNat).toNat = b.toNat := by
  have h : b.toNat.isValidChar := Or.inl (Nat.lt_trans b.toNat_lt (by decide))
  rw [Char.ofNat, dif_pos h]
  rfl

theorem charOfByte_injective : Function.Injective fun b : UInt8 => Char.ofNat b.toNat := by
  intro a b h
  have ht := congrArg Char.toNat h
  dsimp only at ht
  rw [toNat_charOfByte, toNat_charOfByte] at ht
  exact UInt8.toNat_inj.mp ht

theorem sampleHD_root_unique {seed : Bytes} {network : Network} {root key : SampleNode}
    (hp : root.path = []) (hr : root.isPrivate = true) (hs : sampleHD.fromSeedBuffer seed network = .ok key)
    (ha : sampleHD.getAddress key = sampleHD.getAddress root) : key = root := by
  unfold HDLib.fromSeedBuffer at hs
  split at hs
  · cases hs
  split at hs <;> cases hs
  have hseed : seed = root.seed := List.map_injective_iff.mpr charOfByte_injective ha
  subst hseed
  rcases root with ⟨seed, path, isPrivate⟩
  cases hp
  cases hr
  rfl

def sampleHashes : Hashes where
  hash160 b := ⟨(pad32 (b.drop 2)).take 20, by simp [pad32_length]⟩
  sha256 b := ⟨pad32 (b.drop 2), pad32_length _⟩

def sampleCodec : AddressCodec where
  toASM b := Hex.encode b
  toBase58Check b v := Hex.encode (v :: b)
  toCashAddress b _ prefix' := prefix' ++ ':' :: Hex.encode b
  toBech32 b _ prefix' := prefix' ++ '1' :: Hex.encode b

/-- Reads the base58 addresses of `sampleCodec`, and the cash addresses of its script hashes. -/
def sampleDecoder : AddressDecoder where
  fromBech32 _ := .error ⟨"Error", "Mixed-case string"⟩
  fromCashAddress address :=
    match address.splitOn ':' with
    | [prefix', hash] => .ok (prefix', "scripthash", Hex.decode hash)
    | _ => .error ⟨"Error", "Invalid address"⟩
  fromBase58Check address :=
    if ':' ∈ address then .error ⟨"Error", "Non-base58 character"⟩
    else
      match Hex.decode address with
      | version :: hash => .ok (version, hash)
      | [] => .error ⟨"TypeError", "Too short"⟩

end Bitcoin
