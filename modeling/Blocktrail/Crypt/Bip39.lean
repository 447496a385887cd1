import Mathlib.Data.List.GetD
import Mathlib.Data.List.Nodup
import Blocktrail.Bitcoin.Script
import Blocktrail.Lib.Bits

/-! # Mnemonics of an entropy

The words of BIP 39: the entropy and its checksum, eleven bits a word.
-/

open Text Bitcoin

namespace Crypt

namespace Bip39

/-- 2048 different words without blanks. -/
structure Wordlist where
  words : List Str
  length_eq : words.length = 2048
  nodup : words.Nodup
  no_space : ∀ w ∈ words, ' ' ∉ w

variable (sha256 : Bytes → Hash256) (wl : Wordlist)

def bitsOf (b : Bytes) : List Bool := Bits.join 8 (b.map UInt8.toNat)

def bytesOf (bits : List Bool) : Bytes := (Bits.split 8 bits).map UInt8.ofNat

/-- One bit for each four bytes. -/
def checksum (entropy : Bytes) : List Bool := (bitsOf (sha256 entropy)).take (entropy.length * 8 / 32)

def indices (entropy : Bytes) : List Nat := Bits.split 11 (bitsOf entropy ++ checksum sha256 entropy)

def Wordlist.word (i : Nat) : Str := wl.words.getD i []

def mnemonic (entropy : Bytes) : Str := [' '].intercalate ((indices sha256 entropy).map wl.word)

/-- The entropies that have a mnemonic: four bytes at a time, as far as the hash gives checksum bits. -/
def IsEntropy (entropy : Bytes) : Prop := 0 < entropy.length ∧ 4 ∣ entropy.length ∧ entropy.length ≤ 1024

/-- The bits of the words, and where the checksum starts. -/
def wordBits (words : List Str) : List Bool := Bits.join 11 (words.map fun w => wl.words.idxOf w)

/-- The entropy of a mnemonic whose words are in the list and whose checksum fits. -/
def entropyOf? (m : Str) : Option Bytes :=
  let words := m.splitOn ' '
  let bits := wordBits wl words
  let entropy := bytesOf (bits.take (bits.length / 33 * 32))
  if words.length % 3 = 0 ∧ (∀ w ∈ words, w ∈ wl.words) ∧ checksum sha256 entropy = bits.drop (bits.length / 33 * 32) then
    some entropy
  else none

/-! ## Bits and bytes -/

variable {sha256 wl}

theorem length_bitsOf (b : Bytes) : (bitsOf b).length = 8 * b.length := by
  rw [bitsOf, Bits.length_join, List.length_map]

theorem bytesOf_bitsOf (b : Bytes) : bytesOf (bitsOf b) = b := by
  have hlt : ∀ n ∈ b.map UInt8.toNat, n < 2 ^ 8 := by
    intro n hn
    obtain ⟨x, -, rfl⟩ := List.mem_map.mp hn
    exact x.toNat_lt
  rw [bytesOf, bitsOf, Bits.split_join (by decide) hlt, List.map_map]
  conv_rhs => rw [← List.map_id b]
  exact List.map_congr_left fun x _ => UInt8.ofNat_toNat

theorem bitsOf_bytesOf {bits : List Bool} (h : 8 ∣ bits.length) : bitsOf (bytesOf bits) = bits := by
  have hsplit : (Bits.split 8 bits).map (UInt8.toNat ∘ UInt8.ofNat) = Bits.split 8 bits := by
    conv_rhs => rw [← List.map_id (Bits.split 8 bits)]
    refine List.map_congr_left fun n hn => ?_
    rw [Function.comp_apply, UInt8.toNat_ofNat']
    exact Nat.mod_eq_of_lt (Bits.lt_of_mem_split (by decide) h hn)
  rw [bitsOf, bytesOf, List.map_map, hsplit, Bits.join_split (by decide) h]

theorem length_bytesOf {bits : List Bool} (h : 8 ∣ bits.length) : (bytesOf bits).length = bits.length / 8 := by
  rw [bytesOf, List.length_map, Bits.length_split (by decide) h]

/-! ## Words -/

theorem length_checksum {entropy : Bytes} (h : IsEntropy entropy) :
    (checksum sha256 entropy).length = entropy.length / 4 := by
  obtain ⟨-, -, hle⟩ := h
  rw [checksum, List.length_take, length_bitsOf, (sha256 entropy).property]
  omega

theorem length_entropyBits {entropy : Bytes} (h : IsEntropy entropy) :
    (bitsOf entropy ++ checksum sha256 entropy).length = 11 * (3 * (entropy.length / 4)) := by
  have hdvd := h.2.1
  rw [List.length_append, length_bitsOf, length_checksum h]
  omega

theorem length_indices {entropy : Bytes} (h : IsEntropy entropy) :
    (indices sha256 entropy).length = 3 * (entropy.length / 4) := by
  rw [indices, Bits.length_split (by decide) ⟨_, length_entropyBits h⟩, length_entropyBits h,
    Nat.mul_div_cancel_left _ (by decide)]

theorem lt_of_mem_indices {entropy : Bytes} (h : IsEntropy entropy) {i : Nat} (hi : i ∈ indices sha256 entropy) :
    i < 2048 := Bits.lt_of_mem_split (w := 11) (by decide) ⟨_, length_entropyBits h⟩ hi

theorem Wordlist.word_mem {i : Nat} (h : i < 2048) : wl.word i ∈ wl.words := by
  rw [← wl.length_eq] at h
  rw [Wordlist.word, List.getD_eq_getElem _ _ h]
  exact List.getElem_mem h

theorem Wordlist.idxOf_word {i : Nat} (h : i < 2048) : wl.words.idxOf (wl.word i) = i := by
  rw [← wl.length_eq] at h
  rw [Wordlist.word, List.getD_eq_getElem _ _ h]
  exact List.Nodup.idxOf_getElem wl.nodup i h

theorem Wordlist.word_idxOf {w : Str} (h : w ∈ wl.words) : wl.word (wl.words.idxOf w) = w := by
  have hlt := List.idxOf_lt_length_of_mem h
  rw [Wordlist.word, List.getD_eq_getElem _ _ hlt, List.getElem_idxOf]

theorem splitOn_mnemonic {entropy : Bytes} (h : IsEntropy entropy) :
    (mnemonic sha256 wl entropy).splitOn ' ' = (indices sha256 entropy).map wl.word := by
  refine List.splitOn_intercalate _ ?_ ?_
  · intro w hw
    obtain ⟨i, hi, rfl⟩ := List.mem_map.mp hw
    exact wl.no_space _ (wl.word_mem (lt_of_mem_indices h hi))
  · rw [ne_eq, List.map_eq_nil_iff, ← List.length_eq_zero_iff, length_indices h]
    obtain ⟨hpos, ⟨k, hk⟩, -⟩ := h
    omega

/-- The words of a mnemonic give back the entropy and its checksum. -/
theorem wordBits_words {entropy : Bytes} (h : IsEntropy entropy) :
    wordBits wl ((indices sha256 entropy).map wl.word) = bitsOf entropy ++ checksum sha256 entropy := by
  have hidx : ((indices sha256 entropy).map wl.word).map (fun w => wl.words.idxOf w) = indices sha256 entropy := by
    rw [List.map_map]
    conv_rhs => rw [← List.map_id (indices sha256 entropy)]
    exact List.map_congr_left fun i hi => wl.idxOf_word (lt_of_mem_indices h hi)
  rw [wordBits, hidx, indices, Bits.join_split (by decide) ⟨_, length_entropyBits h⟩]

theorem length_wordBits (words : List Str) : (wordBits wl words).length = 11 * words.length := by
  rw [wordBits, Bits.length_join, List.length_map]

theorem split_wordBits {words : List Str} (h : ∀ w ∈ words, w ∈ wl.words) :
    (Bits.split 11 (wordBits wl words)).map wl.word = words := by
  have hlt : ∀ n ∈ words.map fun w => wl.words.idxOf w, n < 2 ^ 11 := by
    intro n hn
    obtain ⟨w, hw, rfl⟩ := List.mem_map.mp hn
    have := List.idxOf_lt_length_of_mem (h w hw)
    rw [wl.length_eq] at this
    exact this
  rw [wordBits, Bits.split_join (by decide) hlt, List.map_map]
  conv_rhs => rw [← List.map_id words]
  exact List.map_congr_left fun w hw => wl.word_idxOf (h w hw)

theorem mnemonic_of_accepted {m : Str} {bits : List Bool} {k : Nat} (hbits : wordBits wl (m.splitOn ' ') = bits)
    (hwords : ∀ w ∈ m.splitOn ' ', w ∈ wl.words) (hk : (m.splitOn ' ').length = 3 * k) (hpos : 0 < k)
    (hsum : checksum sha256 (bytesOf (bits.take (32 * k))) = bits.drop (32 * k)) :
    IsEntropy (bytesOf (bits.take (32 * k))) ∧ mnemonic sha256 wl (bytesOf (bits.take (32 * k))) = m := by
  have hlen : bits.length = 33 * k := by
    rw [← hbits, length_wordBits, hk]
    omega
  have htake : (bits.take (32 * k)).length = 32 * k := by
    rw [List.length_take, hlen]
    omega
  have hdvd : 8 ∣ (bits.take (32 * k)).length := ⟨4 * k, by rw [htake]; omega⟩
  have hbytes : (bytesOf (bits.take (32 * k))).length = 4 * k := by
    rw [length_bytesOf hdvd, htake]
    omega
  have hsumLen := congrArg List.length hsum
  rw [checksum, List.length_take, length_bitsOf, (sha256 _).property, hbytes, List.length_drop, hlen] at hsumLen
  refine ⟨⟨by omega, ⟨k, hbytes⟩, by omega⟩, ?_⟩
  rw [mnemonic, indices, hsum, bitsOf_bytesOf hdvd, List.take_append_drop, ← hbits, split_wordBits hwords,
    List.intercalate_splitOn]

/-- **Mnemonics.** The accepted ones are those that the entropies have. -/
theorem entropyOf?_eq_some {m : Str} {entropy : Bytes} :
    entropyOf? sha256 wl m = some entropy ↔ IsEntropy entropy ∧ mnemonic sha256 wl entropy = m := by
  constructor
  · intro h
    unfold entropyOf? at h
    dsimp only at h
    split at h
    · next hcond =>
      obtain ⟨hmod, hwords, hsum⟩ := hcond
      obtain ⟨k, hk⟩ := Nat.dvd_of_mod_eq_zero hmod
      have hpos : 0 < k := by
        have := List.length_pos_iff.mpr (List.splitOn_ne_nil ' ' m)
        omega
      have hdivider : (wordBits wl (m.splitOn ' ')).length / 33 * 32 = 32 * k := by
        rw [length_wordBits, hk]
        omega
      rw [hdivider] at hsum h
      cases h
      exact mnemonic_of_accepted rfl hwords hk hpos hsum
    · cases h
  · rintro ⟨he, rfl⟩
    have hdvd := he.2.1
    have hlen : (bitsOf entropy).length = 32 * (entropy.length / 4) := by
      rw [length_bitsOf]
      omega
    have hdivider : (bitsOf entropy ++ checksum sha256 entropy).length / 33 * 32 = 32 * (entropy.length / 4) := by
      rw [length_entropyBits he]
      omega
    unfold entropyOf?
    dsimp only
    rw [splitOn_mnemonic he, wordBits_words he, hdivider, List.take_left' hlen, List.drop_left' hlen, bytesOf_bitsOf,
      if_pos]
    refine ⟨?_, ?_, rfl⟩
    · rw [List.length_map, length_indices he]
      omega
    · intro w hw
      obtain ⟨i, hi, rfl⟩ := List.mem_map.mp hw
      exact wl.word_mem (lt_of_mem_indices he hi)

theorem length_words {entropy : Bytes} (h : IsEntropy entropy) :
    ((mnemonic sha256 wl entropy).splitOn ' ').length = 3 * (entropy.length / 4) := by
  rw [splitOn_mnemonic h, List.length_map, length_indices h]

end Bip39

end Crypt
