import Mathlib.Logic.Equiv.Basic
import Blocktrail.Bitcoin.OutputScript
import Blocktrail.Bitcoin.Sample

/-! # Addresses to evaluate with

Addresses whose texts hold the version and the hash in the clear, one character a byte. `respelling` exchanges some of
these texts with the texts that the library has for them.
-/

open Text

namespace Bitcoin

def charOfByte (b : Byte) : Char := Char.ofNat b.toNat

def byteOfChar (c : Char) : Byte := UInt8.ofNat c.toNat

theorem byteOfChar_charOfByte (b : Byte) : byteOfChar (charOfByte b) = b := by
  rw [byteOfChar, charOfByte, toNat_charOfByte, UInt8.ofNat_toNat]

def plain (b : Bytes) : Str := b.map charOfByte

def charBytes (s : Str) : Bytes := s.map byteOfChar

theorem charBytes_plain (b : Bytes) : charBytes (plain b) = b := by
  have h : byteOfChar ∘ charOfByte = id := funext byteOfChar_charOfByte
  rw [charBytes, plain, List.map_map, h, List.map_id]

/-- A hash is 20 bytes, in characters of one byte. -/
def plainHash (s : Str) : Option Bytes :=
  if plain (charBytes s) = s ∧ s.length = 20 then some (charBytes s) else none

theorem plainHash_eq_some_iff {s : Str} {hash : Bytes} :
    plainHash s = some hash ↔ s = plain hash ∧ hash.length = 20 := by
  unfold plainHash
  constructor
  · intro h
    split at h
    next hs =>
      cases h
      exact ⟨hs.1.symm, by simpa [charBytes] using hs.2⟩
    next => cases h
  · rintro ⟨rfl, h⟩
    rw [charBytes_plain, if_pos ⟨rfl, by simpa [plain] using h⟩]

/-! ## Plain texts -/

def plainBase58 (hash : Bytes) (version : Byte) : Str := '#' :: charOfByte version :: plain hash

def readPlainBase58 : Str → Option (Byte × Bytes)
  | '#' :: c :: s => if charOfByte (byteOfChar c) = c then (plainHash s).map fun hash => (byteOfChar c, hash) else none
  | _ => none

def plainCash (hash : Bytes) (type prefix' : Str) : Str :=
  '@' :: (if type = P2PKH then 'q' else 'p') :: (plain hash ++ prefix')

def readPlainCash : Str → Option (Str × Str × Bytes)
  | '@' :: c :: s =>
    if c = 'q' then (plainHash (s.take 20)).map fun hash => (s.drop 20, P2PKH, hash)
    else if c = 'p' then (plainHash (s.take 20)).map fun hash => (s.drop 20, P2SH, hash)
    else none
  | _ => none

theorem readPlainBase58_eq_some {s : Str} {version : Byte} {hash : Bytes}
    (h : readPlainBase58 s = some (version, hash)) : s = plainBase58 hash version ∧ hash.length = 20 := by
  unfold readPlainBase58 at h
  split at h
  next c t =>
    split at h
    next hc =>
      rw [Option.map_eq_some_iff] at h
      obtain ⟨hash', hh, he⟩ := h
      cases he
      rw [plainHash_eq_some_iff] at hh
      exact ⟨by rw [plainBase58, hc, hh.1], hh.2⟩
    next => cases h
  next => cases h

theorem readPlainBase58_plainBase58 {hash : Bytes} (h : hash.length = 20) (version : Byte) :
    readPlainBase58 (plainBase58 hash version) = some (version, hash) := by
  have hh : plainHash (plain hash) = some hash := plainHash_eq_some_iff.mpr ⟨rfl, h⟩
  simp [plainBase58, readPlainBase58, byteOfChar_charOfByte, hh]

theorem readPlainCash_plainCash {hash : Bytes} (h : hash.length = 20) {type : Str} (ht : type = P2PKH ∨ type = P2SH)
    (prefix' : Str) : readPlainCash (plainCash hash type prefix') = some (prefix', type, hash) := by
  have hlength : (plain hash).length = 20 := by rw [plain, List.length_map, h]
  have htake : (plain hash ++ prefix').take 20 = plain hash := List.take_left' hlength
  have hdrop : (plain hash ++ prefix').drop 20 = prefix' := List.drop_left' hlength
  have hh : plainHash (plain hash) = some hash := plainHash_eq_some_iff.mpr ⟨rfl, h⟩
  rcases ht with rfl | rfl
  · simp [plainCash, readPlainCash, htake, hdrop, hh]
  · simp [plainCash, readPlainCash, P2SH_ne_P2PKH, htake, hdrop, hh]

theorem readPlainCash_eq_some {s prefix' type : Str} {hash : Bytes} (h : readPlainCash s = some (prefix', type, hash)) :
    hash.length = 20 ∧ (type = P2PKH ∨ type = P2SH) ∧ readPlainBase58 s = none := by
  unfold readPlainCash at h
  split at h
  next c t =>
    have hb : readPlainBase58 ('@' :: c :: t) = none := rfl
    split_ifs at h
    · rw [Option.map_eq_some_iff] at h
      obtain ⟨hash', hh, he⟩ := h
      cases he
      exact ⟨(plainHash_eq_some_iff.mp hh).2, Or.inl rfl, hb⟩
    · rw [Option.map_eq_some_iff] at h
      obtain ⟨hash', hh, he⟩ := h
      cases he
      exact ⟨(plainHash_eq_some_iff.mp hh).2, Or.inr rfl, hb⟩
  next => cases h

/-! ## The texts of the library -/

def knownHash : Bytes :=
  [0x76, 0xa0, 0x40, 0x53, 0xbd, 0xa0, 0xa8, 0x8b, 0xda, 0x51, 0x77, 0xb8, 0x6a, 0x15, 0xc3, 0xb2, 0x9f, 0x55, 0x98,
    0x73]

def respelling : Equiv.Perm Str :=
  (Equiv.swap (plainBase58 knownHash 0x00) "1BpEi6DfDAUFd7GtittLSdBeYJvcoaVggu".toList).trans
  ((Equiv.swap (plainBase58 knownHash 0xc4) "2N44ThNe8NXHyv4bsX8AoVCXquBRW94Ls7W".toList).trans
  (Equiv.swap (plainCash knownHash P2PKH "bitcoincash".toList)
    "bitcoincash:qpm2qsznhks23z7629mms6s4cwef74vcwvy22gdx6a".toList))

/-- A test vector of version 1, with its 40 bytes. -/
def witnessV1 : Str := "bc1pw508d6qejxtdg4y5r3zarvary0c5xw7kw508d6qejxtdg4y5r3zarvary0c5xw7k7grplx"

def program40 : Bytes :=
  [0x75, 0x1e, 0x76, 0xe8, 0x19, 0x91, 0x96, 0xd4, 0x54, 0x94, 0x1c, 0x45, 0xd1, 0xb3, 0xa3, 0x23, 0xf1, 0x43, 0x3b,
    0xd6, 0x75, 0x1e, 0x76, 0xe8, 0x19, 0x91, 0x96, 0xd4, 0x54, 0x94, 0x1c, 0x45, 0xd1, 0xb3, 0xa3, 0x23, 0xf1, 0x43,
    0x3b, 0xd6]

/-- The test vector of version 0, whose 20 bytes these are the first of. -/
def witnessV0 : Str := "bc1qw508d6qejxtdg4y5r3zarvary0c5xw7kv8f3t4"

def renamedCodec : AddressCodec where
  toASM b := Hex.encode b
  toBase58Check hash version := respelling (plainBase58 hash version)
  toCashAddress hash type prefix' := respelling (plainCash hash type prefix')
  toBech32 b _ prefix' := prefix' ++ '1' :: Hex.encode b

def renamedDecoder : AddressDecoder where
  fromBech32 s :=
    if s = witnessV1 then .ok ("bc".toList, 1, program40)
    else if s = witnessV0 then .ok ("bc".toList, 0, program40.take 20)
    else .error ⟨"Error", s ++ " too short"⟩
  fromCashAddress s :=
    match readPlainCash (respelling.symm s) with
    | some r => .ok r
    | none => .error ⟨"Error", "Missing prefix"⟩
  fromBase58Check s :=
    match readPlainBase58 (respelling.symm s) with
    | some r => .ok r
    | none => .error ⟨"Error", "Non-base58 character"⟩

theorem readPlainCash_of_witness {s : Str} (h : s = witnessV1 ∨ s = witnessV0) :
    readPlainCash (respelling.symm s) = none := by
  rcases h with rfl | rfl
  · decide +kernel
  · decide +kernel

theorem renamedDecoder_lawful : renamedDecoder.Lawful where
  length_base58 s version hash h := by
    unfold renamedDecoder at h
    dsimp only at h
    split at h <;> cases h
    next hr => exact (readPlainBase58_eq_some hr).2
  cash s prefix' type hash h := by
    unfold renamedDecoder at h
    dsimp only at h
    split at h <;> cases h
    next hr =>
      obtain ⟨hlength, htype, -⟩ := readPlainCash_eq_some hr
      exact ⟨hlength, htype⟩
  cash_not_base58 s r h := by
    obtain ⟨prefix', type, hash⟩ := r
    unfold renamedDecoder at h ⊢
    dsimp only at h ⊢
    split at h <;> cases h
    next hr =>
      rw [(readPlainCash_eq_some hr).2.2]
      exact ⟨_, rfl⟩
  cash_not_bech32 s prefix' r h _ hrp r' hb := by
    unfold renamedDecoder at h hb
    dsimp only at h hb
    have hs : s = witnessV1 ∨ s = witnessV0 := by
      split_ifs at hb with hone hzero
      · exact Or.inl hone
      · exact Or.inr hzero
    rw [readPlainCash_of_witness hs] at h
    cases h

end Bitcoin
