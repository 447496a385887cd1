import Blocktrail.Crypt.Envelope
import Blocktrail.JsSdk.EncryptionMnemonic
import Blocktrail.PhpSdk.EncryptionMnemonic

/-! # One backup sheet

The words of a ciphertext are the same in both SDKs, and both read them back.
-/

open Text Bitcoin Crypt

namespace TwoSdks

variable {sha256 : Bytes → Hash256} {wordlist : Bip39.Wordlist}

/-- A ciphertext of version 3 starts with the length of its salt. -/
theorem lowFirst_toBytes (e : Envelope) : LowFirst e.toBytes := by
  intro x hx
  rw [e.toBytes_zero, Option.some.injEq] at hx
  rw [← hx, UInt8.le_iff_toNat_le, e.toNat_saltLen]
  exact e.salt_le

theorem php_decode_iff_js {m : Str} {data : Bytes} :
    PhpSdk.EncryptionMnemonic.decode sha256 wordlist m = .ok data ↔
      JsSdk.EncryptionMnemonic.decode sha256 wordlist m = .ok data := by
  rw [PhpSdk.EncryptionMnemonic.decode_ok_iff, JsSdk.EncryptionMnemonic.decode_ok_iff]

theorem encode_of_decode {m : Str} {data : Bytes} (h : JsSdk.EncryptionMnemonic.decode sha256 wordlist m = .ok data) :
    JsSdk.EncryptionMnemonic.encode sha256 wordlist data = .ok m ∧
      PhpSdk.EncryptionMnemonic.encode sha256 wordlist data = .ok m := by
  obtain ⟨hlow, hlen, rfl⟩ := JsSdk.EncryptionMnemonic.decode_ok_iff.mp h
  exact ⟨JsSdk.EncryptionMnemonic.encode_eq hlow hlen, PhpSdk.EncryptionMnemonic.encode_eq hlow hlen⟩

theorem encode_decodes {data : Bytes} (hlen : data.length ≤ 1023) (hlow : LowFirst data) :
    ∃ m, JsSdk.EncryptionMnemonic.encode sha256 wordlist data = .ok m ∧
      PhpSdk.EncryptionMnemonic.encode sha256 wordlist data = .ok m ∧ (m.splitOn ' ').length % 3 = 0 ∧
      JsSdk.EncryptionMnemonic.decode sha256 wordlist m = .ok data ∧
      PhpSdk.EncryptionMnemonic.decode sha256 wordlist m = .ok data := by
  refine ⟨Bip39.mnemonic sha256 wordlist (padded data), JsSdk.EncryptionMnemonic.encode_eq hlow hlen,
    PhpSdk.EncryptionMnemonic.encode_eq hlow hlen, ?_, JsSdk.EncryptionMnemonic.decode_ok_iff.mpr ⟨hlow, hlen, rfl⟩,
    PhpSdk.EncryptionMnemonic.decode_ok_iff.mpr ⟨hlow, hlen, rfl⟩⟩
  rw [Bip39.length_words (isEntropy_padded hlen), Nat.mul_mod_right]

theorem encode_injective {data data' : Bytes} {m : Str} (hlen : data.length ≤ 1023) (hlow : LowFirst data)
    (hlen' : data'.length ≤ 1023) (hlow' : LowFirst data')
    (h : JsSdk.EncryptionMnemonic.encode sha256 wordlist data = .ok m)
    (h' : JsSdk.EncryptionMnemonic.encode sha256 wordlist data' = .ok m) : data = data' := by
  obtain ⟨n, hn, -, -, hdec, -⟩ := @encode_decodes sha256 wordlist data hlen hlow
  obtain ⟨n', hn', -, -, hdec', -⟩ := @encode_decodes sha256 wordlist data' hlen' hlow'
  rw [h, Except.ok.injEq] at hn
  rw [h', Except.ok.injEq] at hn'
  rw [← hn] at hdec
  rw [← hn', hdec, Except.ok.injEq] at hdec'
  exact hdec'

/-- **One backup sheet.** Data that starts low has the same words in both SDKs, which decode to it and to nothing
else, and every sheet that decodes is the one of its data. -/
theorem backup_sheets (sha256 : Bytes → Hash256) (wordlist : Bip39.Wordlist) :
    (∀ data : Bytes, data.length ≤ 1023 → LowFirst data →
      ∃ m, JsSdk.EncryptionMnemonic.encode sha256 wordlist data = .ok m ∧
        PhpSdk.EncryptionMnemonic.encode sha256 wordlist data = .ok m ∧ (m.splitOn ' ').length % 3 = 0 ∧
        JsSdk.EncryptionMnemonic.decode sha256 wordlist m = .ok data ∧
        PhpSdk.EncryptionMnemonic.decode sha256 wordlist m = .ok data) ∧
      (∀ data data' : Bytes, data.length ≤ 1023 → LowFirst data → data'.length ≤ 1023 → LowFirst data' →
        JsSdk.EncryptionMnemonic.encode sha256 wordlist data = JsSdk.EncryptionMnemonic.encode sha256 wordlist data' ∨
          PhpSdk.EncryptionMnemonic.encode sha256 wordlist data = PhpSdk.EncryptionMnemonic.encode sha256 wordlist data' →
        data = data') ∧
      ∀ (m : Str) (data : Bytes),
        JsSdk.EncryptionMnemonic.decode sha256 wordlist m = .ok data ∨
          PhpSdk.EncryptionMnemonic.decode sha256 wordlist m = .ok data →
        JsSdk.EncryptionMnemonic.encode sha256 wordlist data = .ok m ∧
          PhpSdk.EncryptionMnemonic.encode sha256 wordlist data = .ok m := by
  refine ⟨fun data hlen hlow => encode_decodes hlen hlow, ?_, ?_⟩
  · intro data data' hlen hlow hlen' hlow' h
    have hjs := @JsSdk.EncryptionMnemonic.encode_eq sha256 wordlist data hlow hlen
    have hjs' := @JsSdk.EncryptionMnemonic.encode_eq sha256 wordlist data' hlow' hlen'
    rcases h with h | h
    · exact encode_injective hlen hlow hlen' hlow' hjs (h ▸ hjs)
    · rw [PhpSdk.EncryptionMnemonic.encode_eq hlow hlen, PhpSdk.EncryptionMnemonic.encode_eq hlow' hlen',
        Except.ok.injEq] at h
      exact encode_injective hlen hlow hlen' hlow' hjs (h ▸ hjs')
  · intro m data h
    rw [php_decode_iff_js, or_self] at h
    exact encode_of_decode h

/-! ## A list of words -/

/-- The numerals below 2048. -/
def numeralWords : Bip39.Wordlist where
  words := (List.range 2048).map dec
  length_eq := by rw [List.length_map, List.length_range]
  nodup := List.nodup_range.map fun _ _ => dec_injective
  no_space := by
    intro w hw
    obtain ⟨n, -, rfl⟩ := List.mem_map.mp hw
    exact not_mem_dec (by decide) n

/-- Three bytes, and one of padding: their sheet, and that of three others. -/
theorem backup_sheets_padded :
    (∃ m, JsSdk.EncryptionMnemonic.encode (fun _ => ⟨List.replicate 32 0, rfl⟩) numeralWords [5, 255, 7] = .ok m ∧
      PhpSdk.EncryptionMnemonic.encode (fun _ => ⟨List.replicate 32 0, rfl⟩) numeralWords [5, 255, 7] = .ok m ∧
      (m.splitOn ' ').length % 3 = 0 ∧
      JsSdk.EncryptionMnemonic.decode (fun _ => ⟨List.replicate 32 0, rfl⟩) numeralWords m = .ok [5, 255, 7] ∧
      PhpSdk.EncryptionMnemonic.decode (fun _ => ⟨List.replicate 32 0, rfl⟩) numeralWords m = .ok [5, 255, 7]) ∧
    JsSdk.EncryptionMnemonic.encode (fun _ => ⟨List.replicate 32 0, rfl⟩) numeralWords [5, 255, 7] ≠
      JsSdk.EncryptionMnemonic.encode (fun _ => ⟨List.replicate 32 0, rfl⟩) numeralWords [5, 255, 8] := by
  have hsheets := backup_sheets (fun _ => ⟨List.replicate 32 0, rfl⟩) numeralWords
  refine ⟨hsheets.1 [5, 255, 7] (by decide) (by simp [LowFirst]), fun h => ?_⟩
  have hsame := hsheets.2.1 [5, 255, 7] [5, 255, 8] (by decide) (by simp [LowFirst]) (by decide) (by simp [LowFirst])
    (Or.inl h)
  exact absurd hsame (by decide)

end TwoSdks
