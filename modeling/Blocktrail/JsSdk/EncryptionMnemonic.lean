import Blocktrail.Crypt.Bip39
import Blocktrail.Crypt.Padding
import Blocktrail.Lib.Encoding
import Blocktrail.Lib.Throwing

/-! # Backup mnemonics, in JavaScript

`bip39` takes and gives entropies in hex.
-/

open Text Throwing Bitcoin Crypt.Bip39

namespace JsSdk

namespace EncryptionMnemonic

variable (sha256 : Bytes → Hash256) (wordlist : Wordlist)

/-! ## `bip39` -/

def invalidMnemonic (message : Str) : JsError := ⟨"AssertionError", message⟩

/-- `bytesToBinary`: each byte with `lpad(x.toString(2), '0', 8)`. -/
def bytesToBinary (bytes : Bytes) : List Bool := bytes.flatMap fun x => Bits.ofNat 8 x.toNat

def checksumBits (entropyBuffer : Bytes) : List Bool :=
  let ENT := entropyBuffer.length * 8
  let CS := ENT / 32
  (bytesToBinary (sha256 entropyBuffer)).take CS

/-- `bip39.entropyToMnemonic`. The pattern has no match in the empty string. -/
def entropyToMnemonic (entropy : Str) : Except JsError Str :=
  let entropyBuffer := Hex.decode entropy
  let bits := bytesToBinary entropyBuffer ++ checksumBits sha256 entropyBuffer
  if bits = [] then .error ⟨"TypeError", "chunks is null"⟩
  else .ok ([' '].intercalate ((Series.chunk 11 bits).map fun binary => wordlist.words.getD (Bits.value binary) []))

/-- `bip39.mnemonicToEntropy`. -/
def mnemonicToEntropy (mnemonic : Str) : Except JsError Str :=
  let words := mnemonic.splitOn ' '
  if words.length % 3 ≠ 0 then .error (invalidMnemonic "Invalid mnemonic")
  else if ¬∀ word ∈ words, word ∈ wordlist.words then .error (invalidMnemonic "Invalid mnemonic")
  else
    let bits := words.flatMap fun word => Bits.ofNat 11 (wordlist.words.idxOf word)
    let dividerIndex := bits.length / 33 * 32
    let entropy := bits.take dividerIndex
    let checksum := bits.drop dividerIndex
    let entropyBuffer := (Series.chunk 8 entropy).map fun bin => UInt8.ofNat (Bits.value bin)
    let newChecksum := checksumBits sha256 entropyBuffer
    if newChecksum ≠ checksum then .error (invalidMnemonic "Invalid mnemonic checksum")
    else .ok (Hex.encode entropyBuffer)

/-! ## `EncryptionMnemonic` -/

def chunkSize : Nat := 4
def paddingDummy : Byte := 0x81

/-- The padding in hex. The first byte of no data is not above `0x80`. -/
def derivePadding (data : Bytes) : Except JsError Str :=
  if data[0]?.any (0x80 < ·) then
    .error ⟨"Error", "Mnemonic sanity check - first byte can never be above 0x80"⟩
  else .ok (List.replicate (chunkSize - data.length % chunkSize) (Hex.encode [paddingDummy])).flatten

def encode (data : Bytes) : Except JsError Str := do
  let padding ← derivePadding data
  let mnemonic ← entropyToMnemonic sha256 wordlist (padding ++ Hex.encode data)
  match mnemonicToEntropy sha256 wordlist mnemonic with
  | .ok _ => return mnemonic
  | .error _ => throw ⟨"Error", "BIP39 library produced an invalid mnemonic"⟩

def decode (mnemonic : Str) : Except JsError Bytes := do
  let entropy ← mnemonicToEntropy sha256 wordlist mnemonic
  let decoded := Hex.decode entropy
  let padFinish := (decoded.takeWhile (· = paddingDummy)).length
  let data := decoded.drop padFinish
  let padding ← derivePadding data
  if padding ≠ Hex.encode (decoded.take padFinish) then
    throw ⟨"Error", "There is only one way to pad a string"⟩
  return data

/-! ## What they compute -/

variable {sha256 wordlist}

theorem bytesToBinary_eq (b : Bytes) : bytesToBinary b = bitsOf b := by
  rw [bitsOf, Bits.join, List.flatMap_map]
  rfl

theorem checksumBits_eq (b : Bytes) : checksumBits sha256 b = checksum sha256 b := by
  rw [checksumBits, bytesToBinary_eq]
  rfl

theorem entropyToMnemonic_encode {entropy : Bytes} (h : entropy ≠ []) :
    entropyToMnemonic sha256 wordlist (Hex.encode entropy) = .ok (mnemonic sha256 wordlist entropy) := by
  have hbits : bitsOf entropy ++ checksum sha256 entropy ≠ [] := by
    intro hnil
    have hlen := congrArg List.length (List.append_eq_nil_iff.mp hnil).1
    rw [length_bitsOf, List.length_nil] at hlen
    exact h (List.eq_nil_of_length_eq_zero (by omega))
  rw [entropyToMnemonic, Hex.decode_encode, bytesToBinary_eq, checksumBits_eq, if_neg hbits, mnemonic, indices, Bits.split, List.map_map]
  rfl

theorem mnemonicToEntropy_ok_iff {m s : Str} :
    mnemonicToEntropy sha256 wordlist m = .ok s ↔
      ∃ entropy, entropyOf? sha256 wordlist m = some entropy ∧ Hex.encode entropy = s := by
  have hbits (words : List Str) :
      words.flatMap (fun word => Bits.ofNat 11 (wordlist.words.idxOf word)) = wordBits wordlist words := by
    rw [wordBits, Bits.join, List.flatMap_map]
  have hbytes (bits : List Bool) :
      (Series.chunk 8 bits).map (fun bin => UInt8.ofNat (Bits.value bin)) = bytesOf bits := by
    rw [bytesOf, Bits.split, List.map_map]
    rfl
  unfold mnemonicToEntropy entropyOf?
  simp only [hbits, hbytes, checksumBits_eq]
  split
  · next h => simp [h]
  · next h1 =>
    split
    · next h => simp [h]
    · next h2 =>
      split
      · next h => simp [h]
      · next h3 =>
        rw [not_not] at h1 h2 h3
        rw [if_pos ⟨h1, h2, h3⟩]
        simp

theorem hex_padding (n : Nat) : (List.replicate n (Hex.encode [paddingDummy])).flatten =
    Hex.encode (List.replicate n paddingDummy) := by
  induction n with
  | zero => rfl
  | succ n ih =>
    rw [List.replicate_succ, List.flatten_cons, ih, ← Hex.encode_append]
    rfl

theorem derivePadding_ok_iff {data : Bytes} {s : Str} :
    derivePadding data = .ok s ↔ Crypt.LowFirst data ∧ Hex.encode (Crypt.paddingOf data) = s := by
  have hlow : data[0]?.any (0x80 < ·) = false ↔ Crypt.LowFirst data := by
    unfold Crypt.LowFirst
    rcases data[0]? with _ | x
    · simp
    · simp [UInt8.not_lt]
  unfold derivePadding
  rw [hex_padding]
  by_cases h : Crypt.LowFirst data
  · rw [hlow.mpr h, if_neg (by decide), Except.ok.injEq]
    exact ⟨fun hs => ⟨h, hs⟩, fun hs => hs.2⟩
  · rw [if_pos (by simpa using mt hlow.mp h)]
    simp [h]

/-- **Encoding.** Data that starts low has the mnemonic of its padded bytes. -/
theorem encode_eq {data : Bytes} (hlow : Crypt.LowFirst data) (hlen : data.length ≤ 1023) :
    encode sha256 wordlist data = .ok (mnemonic sha256 wordlist (Crypt.padded data)) := by
  have he := Crypt.isEntropy_padded hlen
  have hne : Crypt.padded data ≠ [] := List.length_pos_iff.mp he.1
  have hback : mnemonicToEntropy sha256 wordlist (mnemonic sha256 wordlist (Crypt.padded data)) =
      .ok (Hex.encode (Crypt.padded data)) :=
    mnemonicToEntropy_ok_iff.mpr ⟨_, entropyOf?_eq_some.mpr ⟨he, rfl⟩, rfl⟩
  unfold encode
  rw [derivePadding_ok_iff.mpr ⟨hlow, rfl⟩, ok_bind, ← Hex.encode_append]
  change entropyToMnemonic sha256 wordlist (Hex.encode (Crypt.padded data)) >>= _ = _
  rw [entropyToMnemonic_encode hne, ok_bind, hback]
  rfl

/-- **Decoding.** The mnemonics that are accepted are those of the padded data. -/
theorem decode_ok_iff {m : Str} {data : Bytes} :
    decode sha256 wordlist m = .ok data ↔
      Crypt.LowFirst data ∧ data.length ≤ 1023 ∧ mnemonic sha256 wordlist (Crypt.padded data) = m := by
  constructor
  · intro h
    obtain ⟨s, hs, h⟩ := exists_of_bind_ok h
    obtain ⟨entropy, hentropy, rfl⟩ := mnemonicToEntropy_ok_iff.mp hs
    obtain ⟨he, hm⟩ := entropyOf?_eq_some.mp hentropy
    rw [Hex.decode_encode] at h
    obtain ⟨padding, hpadding, h⟩ := exists_of_bind_ok h
    obtain ⟨hlow, rfl⟩ := derivePadding_ok_iff.mp hpadding
    split at h
    · cases h
    · next hsame =>
      rw [not_not] at hsame
      have hpad := Hex.encode_injective hsame
      obtain rfl := Except.ok.inj h
      have hjoin : Crypt.padded (entropy.drop (entropy.takeWhile (· = paddingDummy)).length) = entropy := by
        rw [Crypt.padded, hpad, List.take_append_drop]
      rw [← hjoin] at he
      exact ⟨hlow, Crypt.length_le_of_isEntropy he, by rw [hjoin, hm]⟩
  · rintro ⟨hlow, hlen, rfl⟩
    have he := Crypt.isEntropy_padded hlen
    unfold decode
    rw [mnemonicToEntropy_ok_iff.mpr ⟨_, entropyOf?_eq_some.mpr ⟨he, rfl⟩, rfl⟩, ok_bind, Hex.decode_encode]
    have hpad : (Crypt.padded data).take ((Crypt.padded data).takeWhile (· = paddingDummy)).length =
        Crypt.paddingOf data := by
      have htake : (Crypt.padded data).takeWhile (· = paddingDummy) = Crypt.paddingOf data := Crypt.takeWhile_padded hlow
      rw [htake, Crypt.padded, List.take_left]
    have hdata : (Crypt.padded data).drop ((Crypt.padded data).takeWhile (· = paddingDummy)).length = data :=
      Crypt.drop_padded hlow
    dsimp only
    rw [hdata, derivePadding_ok_iff.mpr ⟨hlow, rfl⟩, ok_bind, hpad, if_neg (not_not.mpr rfl)]
    rfl

end EncryptionMnemonic

end JsSdk
