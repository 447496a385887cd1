import Blocktrail.Crypt.Padding
import Blocktrail.Lib.Throwing
import Blocktrail.PhpSdk.Keys

/-! # Backup mnemonics, in PHP

The mnemonics of `bitcoin-php` convert numerals, which have no leading zeros, and fill them up again.
-/

open Text Throwing Bitcoin Crypt.Bip39

namespace PhpSdk

namespace EncryptionMnemonic

variable (sha256 : Bytes → Hash256) (wordList : Wordlist)

/-! ## `Bip39Mnemonic` -/

/-- `baseConvert` to base two. -/
def binary (n : Nat) : List Bool := if n < 2 then [n == 1] else binary (n / 2) ++ [n % 2 == 1]
termination_by n
decreasing_by omega

/-- `str_pad` with zeros on the left. -/
def strPad (n : Nat) (bits : List Bool) : List Bool := List.replicate (n - bits.length) false ++ bits

def invalidArgument (message : Str) : PhpError := ⟨"InvalidArgumentException", message⟩

def calculateChecksum (entropy : Bytes) (CSlen : Nat) : List Bool :=
  let hashBits := strPad 256 (binary (Bits.value (bitsOf (sha256 entropy))))
  hashBits.take CSlen

/-- `getWord`. -/
def getWord (index : Nat) : Except PhpError Str :=
  match wordList.words[index]? with
  | some word => .ok word
  | none => .error (invalidArgument "does not contain a word for index")

def entropyToWords (entropy : Bytes) : Except PhpError (List Str) :=
  let ENT := entropy.length * 8
  let CS := ENT / 32
  let entBits := binary (Bits.value (bitsOf entropy))
  let csBits := calculateChecksum sha256 entropy CS
  let bits := strPad (ENT + CS) (entBits ++ csBits)
  (Series.chunk 11 bits).mapM fun bit => getWord wordList (Bits.value bit)

def entropyToMnemonic (entropy : Bytes) : Except PhpError Str := do
  let words ← entropyToWords sha256 wordList entropy
  return [' '].intercalate words

def mnemonicToEntropy (mnemonic : Str) : Except PhpError Bytes :=
  let words := mnemonic.splitOn ' '
  if words.length % 3 ≠ 0 then .error (invalidArgument "Invalid mnemonic")
  else if ¬∀ word ∈ words, word ∈ wordList.words then .error (invalidArgument "does not contain word")
  else
    let bits := words.flatMap fun word => strPad 11 (binary (wordList.words.idxOf word))
    let CS := bits.length / 33
    let csBits := bits.drop (bits.length - CS)
    let entBits := bits.take (bits.length - CS)
    let entropy := (Series.chunk 8 entBits).map fun eBits => UInt8.ofNat (Bits.value eBits)
    if csBits ≠ calculateChecksum sha256 entropy CS then .error (invalidArgument "Checksum does not match")
    else .ok entropy

/-! ## `EncryptionMnemonic` -/

def CHUNK_SIZE : Nat := 4
def PADDING_DUMMY : Byte := 0x81

def derivePadding (data : Bytes) : Except PhpError Bytes :=
  if 0 < data.length ∧ 0x80 < data.headD 0 then
    .error ⟨"RuntimeException", "Sanity check: data for mnemonic is not valid"⟩
  else .ok (List.replicate (CHUNK_SIZE - data.length % CHUNK_SIZE) PADDING_DUMMY)

def encode (data : Bytes) : Except PhpError Str := do
  let padding ← derivePadding data
  let mnemonic ← entropyToMnemonic sha256 wordList (padding ++ data)
  match mnemonicToEntropy sha256 wordList mnemonic with
  | .ok _ => return mnemonic
  | .error _ => throw ⟨"RuntimeException", "BIP39 produced an invalid mnemonic"⟩

/-- Where every byte is padding, the loop ends at the end of the string, with a notice. -/
def decode (mnemonic : Str) : Except PhpError Bytes := do
  let decoded ← mnemonicToEntropy sha256 wordList mnemonic
  let padFinish := (decoded.takeWhile (· = PADDING_DUMMY)).length
  let data := decoded.drop padFinish
  let padding ← derivePadding data
  if padding ≠ decoded.take padFinish then
    throw ⟨"RuntimeException", "The data was incorrectly padded"⟩
  return data

/-! ## What they compute -/

variable {sha256 wordList}

theorem ofNat_zero (w : Nat) : Bits.ofNat w 0 = List.replicate w false := by
  induction w with
  | zero => rfl
  | succ w ih =>
    rw [Bits.ofNat, Nat.zero_div, ih, List.replicate_succ']
    rfl

theorem strPad_concat (n : Nat) (bits : List Bool) (b : Bool) :
    strPad (n + 1) (bits ++ [b]) = strPad n bits ++ [b] := by
  rw [strPad, strPad, List.length_append, List.length_singleton, Nat.add_sub_add_right, List.append_assoc]

theorem strPad_binary {w n : Nat} (hw : 0 < w) (h : n < 2 ^ w) : strPad w (binary n) = Bits.ofNat w n := by
  induction w generalizing n with
  | zero => omega
  | succ w ih =>
    rw [binary, Bits.ofNat]
    split
    · next hn =>
      have hbit : (n == 1) = (n % 2 == 1) := by
        rw [Nat.mod_eq_of_lt hn]
      have hhalf : n / 2 = 0 := by omega
      rw [hbit, hhalf, ofNat_zero]
      rfl
    · next hn =>
      have hw : 0 < w := by
        rcases w with _ | w
        · rw [Nat.zero_add, Nat.pow_one] at h
          omega
        · omega
      have hhalf : n / 2 < 2 ^ w := by
        rw [Nat.pow_succ] at h
        omega
      rw [strPad_concat, ih hw hhalf]

theorem strPad_append (n : Nat) (bits cs : List Bool) :
    strPad (n + cs.length) (bits ++ cs) = strPad n bits ++ cs := by
  rw [strPad, strPad, List.length_append, Nat.add_sub_add_right, List.append_assoc]

theorem strPad_bitsOf {b : Bytes} (h : b ≠ []) :
    strPad (b.length * 8) (binary (Bits.value (bitsOf b))) = bitsOf b := by
  have hlen : (bitsOf b).length = b.length * 8 := by rw [length_bitsOf, Nat.mul_comm]
  have hpos := List.length_pos_iff.mpr h
  rw [strPad_binary (by omega) (hlen ▸ Bits.value_lt _), ← hlen, Bits.ofNat_value]

theorem calculateChecksum_eq (entropy : Bytes) :
    calculateChecksum sha256 entropy (entropy.length * 8 / 32) = checksum sha256 entropy := by
  have hlen : (sha256 entropy).val.length * 8 = 256 := by rw [(sha256 entropy).property]
  have hne : (sha256 entropy).val ≠ [] := by
    rw [← List.length_pos_iff, (sha256 entropy).property]
    decide
  rw [calculateChecksum, ← hlen, strPad_bitsOf hne]
  rfl

theorem entropyToMnemonic_eq {entropy : Bytes} (h : IsEntropy entropy) :
    entropyToMnemonic sha256 wordList entropy = .ok (mnemonic sha256 wordList entropy) := by
  have hne : entropy ≠ [] := List.length_pos_iff.mp h.1
  have hsum : (checksum sha256 entropy).length = entropy.length * 8 / 32 := by
    rw [length_checksum h]
    omega
  have hword : ∀ bit ∈ Series.chunk 11 (bitsOf entropy ++ checksum sha256 entropy),
      getWord wordList (Bits.value bit) = .ok (wordList.word (Bits.value bit)) := by
    intro bit hbit
    have hlt : Bits.value bit < 2048 := lt_of_mem_indices h (List.mem_map_of_mem hbit)
    rw [← wordList.length_eq] at hlt
    rw [getWord, List.getElem?_eq_getElem hlt, Wordlist.word, List.getD_eq_getElem _ _ hlt]
  unfold entropyToMnemonic entropyToWords
  dsimp only
  rw [calculateChecksum_eq, ← hsum, strPad_append, strPad_bitsOf hne, mapM_ok hword, mnemonic, indices, Bits.split,
    List.map_map]
  rfl

theorem mnemonicToEntropy_ok_iff {m : Str} {entropy : Bytes} :
    mnemonicToEntropy sha256 wordList m = .ok entropy ↔ entropyOf? sha256 wordList m = some entropy := by
  have hbytes (bits : List Bool) :
      (Series.chunk 8 bits).map (fun bin => UInt8.ofNat (Bits.value bin)) = bytesOf bits := by
    rw [bytesOf, Bits.split, List.map_map]
    rfl
  unfold mnemonicToEntropy entropyOf?
  simp only [hbytes]
  split
  · next h => simp [h]
  · next h1 =>
    split
    · next h => simp [h]
    · next h2 =>
      rw [not_not] at h1 h2
      have hbits : (m.splitOn ' ').flatMap (fun word => strPad 11 (binary (wordList.words.idxOf word))) =
          wordBits wordList (m.splitOn ' ') := by
        rw [wordBits, Bits.join, List.flatMap_map]
        refine List.flatMap_congr fun w hw => strPad_binary (by decide) ?_
        have := List.idxOf_lt_length_of_mem (h2 w hw)
        rw [wordList.length_eq] at this
        exact this
      obtain ⟨k, hk⟩ := Nat.dvd_of_mod_eq_zero h1
      have hlen : (wordBits wordList (m.splitOn ' ')).length = 33 * k := by
        rw [length_wordBits, hk]
        omega
      have hCS : 33 * k / 33 = k := by omega
      have hcut : 33 * k - k = k * 32 := by omega
      have htake : ((wordBits wordList (m.splitOn ' ')).take (k * 32)).length = k * 32 := by
        rw [List.length_take, hlen]
        omega
      have hbytesLen : (bytesOf ((wordBits wordList (m.splitOn ' ')).take (k * 32))).length * 8 / 32 = k := by
        rw [length_bytesOf ⟨k * 4, by rw [htake]; omega⟩, htake]
        omega
      have hsum := @calculateChecksum_eq sha256 (bytesOf ((wordBits wordList (m.splitOn ' ')).take (k * 32)))
      rw [hbytesLen] at hsum
      rw [hbits, hlen, hCS, hcut, hsum]
      split
      · next h => simp [Ne.symm h]
      · next h =>
        rw [not_not] at h
        rw [if_pos ⟨h1, h2, h.symm⟩]
        simp

theorem derivePadding_ok_iff {data padding : Bytes} :
    derivePadding data = .ok padding ↔ Crypt.LowFirst data ∧ Crypt.paddingOf data = padding := by
  have hhigh : (0 < data.length ∧ 0x80 < data.headD 0) ↔ ¬Crypt.LowFirst data := by
    unfold Crypt.LowFirst
    rcases data with _ | ⟨x, data⟩
    · simp
    · simp [UInt8.not_le]
  unfold derivePadding
  by_cases h : Crypt.LowFirst data
  · rw [if_neg (by simpa using mt hhigh.mp (not_not.mpr h)), Except.ok.injEq]
    exact ⟨fun hs => ⟨h, hs⟩, fun hs => hs.2⟩
  · rw [if_pos (hhigh.mpr h)]
    simp [h]

/-- **Encoding.** Data that starts low has the mnemonic of its padded bytes. -/
theorem encode_eq {data : Bytes} (hlow : Crypt.LowFirst data) (hlen : data.length ≤ 1023) :
    encode sha256 wordList data = .ok (mnemonic sha256 wordList (Crypt.padded data)) := by
  have he := Crypt.isEntropy_padded hlen
  have hback : mnemonicToEntropy sha256 wordList (mnemonic sha256 wordList (Crypt.padded data)) =
      .ok (Crypt.padded data) := mnemonicToEntropy_ok_iff.mpr (entropyOf?_eq_some.mpr ⟨he, rfl⟩)
  unfold encode
  rw [derivePadding_ok_iff.mpr ⟨hlow, rfl⟩, ok_bind]
  change entropyToMnemonic sha256 wordList (Crypt.padded data) >>= _ = _
  rw [entropyToMnemonic_eq he, ok_bind, hback]
  rfl

/-- **Decoding.** The mnemonics that are accepted are those of the padded data. -/
theorem decode_ok_iff {m : Str} {data : Bytes} :
    decode sha256 wordList m = .ok data ↔
      Crypt.LowFirst data ∧ data.length ≤ 1023 ∧ mnemonic sha256 wordList (Crypt.padded data) = m := by
  constructor
  · intro h
    obtain ⟨decoded, hdecoded, h⟩ := exists_of_bind_ok h
    obtain ⟨he, hm⟩ := entropyOf?_eq_some.mp (mnemonicToEntropy_ok_iff.mp hdecoded)
    obtain ⟨padding, hpadding, h⟩ := exists_of_bind_ok h
    obtain ⟨hlow, rfl⟩ := derivePadding_ok_iff.mp hpadding
    split at h
    · cases h
    · next hpad =>
      rw [not_not] at hpad
      obtain rfl := Except.ok.inj h
      have hjoin : Crypt.padded (decoded.drop (decoded.takeWhile (· = PADDING_DUMMY)).length) = decoded := by
        rw [Crypt.padded, hpad, List.take_append_drop]
      rw [← hjoin] at he
      exact ⟨hlow, Crypt.length_le_of_isEntropy he, by rw [hjoin, hm]⟩
  · rintro ⟨hlow, hlen, rfl⟩
    have he := Crypt.isEntropy_padded hlen
    have hpad : (Crypt.padded data).take ((Crypt.padded data).takeWhile (· = PADDING_DUMMY)).length =
        Crypt.paddingOf data := by
      have htake : (Crypt.padded data).takeWhile (· = PADDING_DUMMY) = Crypt.paddingOf data :=
        Crypt.takeWhile_padded hlow
      rw [htake, Crypt.padded, List.take_left]
    have hdata : (Crypt.padded data).drop ((Crypt.padded data).takeWhile (· = PADDING_DUMMY)).length = data :=
      Crypt.drop_padded hlow
    unfold decode
    rw [mnemonicToEntropy_ok_iff.mpr (entropyOf?_eq_some.mpr ⟨he, rfl⟩), ok_bind]
    dsimp only
    rw [hdata, derivePadding_ok_iff.mpr ⟨hlow, rfl⟩, ok_bind, hpad, if_neg (not_not.mpr rfl)]
    rfl

end EncryptionMnemonic

end PhpSdk
