import Blocktrail.JsSdk.V3Crypt
import Blocktrail.PhpSdk.V3Crypt

/-! # One ciphertext format

Both SDKs write and read the envelope of version 3. They part where the header carries no iterations: JavaScript
then derives the key with its default, PHP finds no key.
-/

open Bitcoin Crypt
open PhpSdk.V3Crypt (sampleLibraries)

namespace TwoSdks

variable (c : Ciphers) (lib : PhpSdk.V3Crypt.Libraries)

/-! ## What the format promises -/

/-- Both SDKs make the same bytes of a plaintext, and both open them. -/
def RoundTrips (n : UInt32) : Prop :=
  ∀ pt pw salt iv : Bytes, 0 < salt.length → salt.length ≤ 0x80 → iv.length = 16 →
    ∃ ct, JsSdk.V3Crypt.encryptWithSaltAndIV c pt pw salt iv (.integer n.toNat) = .ok ct ∧
      PhpSdk.V3Crypt.encryptWithSaltAndIV c lib pt pw salt iv n.toNat = .ok ct ∧
      JsSdk.V3Crypt.decrypt c ct pw = .ok pt ∧ PhpSdk.V3Crypt.decrypt c lib ct pw = .ok pt

/-- The envelope is what both SDKs make of its own header, its IV and the plaintext, with a key derived from the salt
and the iterations of the header. -/
structure Produced (e : Envelope) (pw pt : Bytes) : Prop where
  seals : e.Seals c pw pt
  js : JsSdk.V3Crypt.encryptWithSaltAndIV c pt pw e.salt e.iv (.integer e.iterations.toNat) = .ok e.toBytes
  php : PhpSdk.V3Crypt.encryptWithSaltAndIV c lib pt pw e.salt e.iv e.iterations.toNat = .ok e.toBytes

/-- What either SDK decrypts is an envelope, and it was produced from its header where that carries `n` iterations. -/
def Canonical (n : UInt32) : Prop :=
  ∀ ct pw pt : Bytes, JsSdk.V3Crypt.decrypt c ct pw = .ok pt ∨ PhpSdk.V3Crypt.decrypt c lib ct pw = .ok pt →
    WellFormed ct ∧ ∀ e : Envelope, e.toBytes = ct → e.iterations = n → Produced c lib e pw pt

/-- The format, for the headers that carry `n` iterations. -/
structure FormatHolds (n : UInt32) : Prop where
  roundTrips : n ≠ 0 → RoundTrips c lib n
  canonical : Canonical c lib n

/-! ## Envelopes that are sealed -/

variable {c lib}

theorem toNat_pos {n : UInt32} (h : n ≠ 0) : 0 < n.toNat := by
  rw [Nat.pos_iff_ne_zero]
  intro h0
  exact h (UInt32.toNat_inj.mp h0)

theorem produced_of_seals {e : Envelope} {pw pt : Bytes} (h : e.Seals c pw pt) : Produced c lib e pw pt := by
  obtain ⟨hpos, hct, htag⟩ := h
  refine ⟨⟨hpos, hct, htag⟩, ?_, ?_⟩
  · rw [JsSdk.V3Crypt.encryptWithSaltAndIV_eq e.salt_pos e.salt_le e.iv_length e.iterations.toNat_lt,
      JsSdk.V3Crypt.gcmEncrypt, JsSdk.V3Crypt.countUsed_of_pos hpos]
    rw [Envelope.header] at hct htag
    rw [hct, htag, List.append_assoc]
    rfl
  · rw [PhpSdk.V3Crypt.encryptWithSaltAndIV_eq e.salt_pos e.salt_le e.iv_length e.iterations.toNat_lt hpos]
    rw [Envelope.header] at hct htag
    rw [hct, htag, List.append_assoc]
    rfl

/-- The envelope of a plaintext. -/
def envelopeOf (c : Ciphers) (key : Key) (n : UInt32) {salt iv : Bytes} (pt : Bytes) (hsalt : 0 < salt.length)
    (hsalt' : salt.length ≤ 0x80) (hiv : iv.length = 16) : Envelope where
  salt := salt
  iterations := n
  iv := iv
  ciphertext := (c.gcmSeal key iv pt (headerOf salt n.toNat)).1
  tag := (c.gcmSeal key iv pt (headerOf salt n.toNat)).2
  salt_pos := hsalt
  salt_le := hsalt'
  iv_length := hiv
  tag_length := (c.gcmSeal key iv pt (headerOf salt n.toNat)).2.property

theorem roundTrips {n : UInt32} (hn : n ≠ 0) : RoundTrips c lib n := by
  intro pt pw salt iv hsalt hsalt' hiv
  have hpos := toNat_pos hn
  let e := envelopeOf c (c.pbkdf2 pw salt ⟨n.toNat, hpos⟩) n pt hsalt hsalt' hiv
  have hseals : e.Seals c pw pt := ⟨hpos, rfl, rfl⟩
  have hp : Produced c lib e pw pt := produced_of_seals hseals
  refine ⟨e.toBytes, hp.js, hp.php, JsSdk.V3Crypt.decrypt_ok_iff.mpr ⟨e, rfl, ?_⟩,
    PhpSdk.V3Crypt.decrypt_ok_iff.mpr ⟨e, rfl, hseals⟩⟩
  have hcount : JsSdk.V3Crypt.countUsed e.iterations.toNat = ⟨n.toNat, hpos⟩ := JsSdk.V3Crypt.countUsed_of_pos hpos
  rw [hcount]
  exact ⟨rfl, rfl⟩

theorem canonical {n : UInt32} (hn : n ≠ 0) : Canonical c lib n := by
  intro ct pw pt h
  have hwf : WellFormed ct := by
    rcases h with h | h
    · exact JsSdk.V3Crypt.wellFormed_of_decrypt h
    · exact PhpSdk.V3Crypt.wellFormed_of_decrypt h
  refine ⟨hwf, ?_⟩
  rintro e rfl rfl
  apply produced_of_seals
  rcases h with h | h
  · obtain ⟨e', he, hs⟩ := JsSdk.V3Crypt.decrypt_ok_iff.mp h
    obtain rfl := Envelope.toBytes_injective he
    rw [JsSdk.V3Crypt.countUsed_of_pos (toNat_pos hn)] at hs
    exact ⟨toNat_pos hn, hs⟩
  · obtain ⟨e', he, hs⟩ := PhpSdk.V3Crypt.decrypt_ok_iff.mp h
    obtain rfl := Envelope.toBytes_injective he
    exact hs

/-- JavaScript decrypts what it encrypted with no iterations. -/
theorem not_canonical_zero : ¬Canonical c lib 0 := by
  intro h
  let salt : Bytes := [0]
  let iv : Bytes := List.replicate 16 0
  let e := @envelopeOf c (c.pbkdf2 [] salt (JsSdk.V3Crypt.countUsed 0)) 0 salt iv [] (by decide) (by decide)
    (by decide)
  have hdec : JsSdk.V3Crypt.decrypt c e.toBytes [] = .ok [] :=
    JsSdk.V3Crypt.decrypt_ok_iff.mpr ⟨e, rfl, rfl, rfl⟩
  obtain ⟨hpos, -⟩ := ((h e.toBytes [] [] (Or.inl hdec)).2 e rfl rfl).seals
  exact Nat.lt_irrefl 0 hpos

/-! ## The format -/

/-- **One format.** Both SDKs keep to it for the headers that carry iterations, and for no others. -/
theorem v3_format_iff (c : Ciphers) (lib : PhpSdk.V3Crypt.Libraries) (n : UInt32) :
    FormatHolds c lib n ↔ n ≠ 0 := by
  constructor
  · rintro h rfl
    exact not_canonical_zero h.canonical
  · exact fun hn => ⟨fun _ => roundTrips hn, canonical hn⟩

/-- A ciphertext that carries no iterations. The tag is the start of its key, which shows the default count. -/
def uncountedEnvelope : Envelope :=
  @envelopeOf sampleCiphers (sampleCiphers.pbkdf2 [0x70] [1] (JsSdk.V3Crypt.countUsed 0)) 0 [1] (List.replicate 16 0) [0x78]
    (by decide) (by decide) (by decide)

/-- JavaScript opens it, though its header has no iterations to derive the key with. -/
theorem v3_uncounted :
    JsSdk.V3Crypt.encryptWithSaltAndIV sampleCiphers [0x78] [0x70] [1] (List.replicate 16 0) (.integer 0) =
        .ok uncountedEnvelope.toBytes ∧
      JsSdk.V3Crypt.decrypt sampleCiphers uncountedEnvelope.toBytes [0x70] = .ok [0x78] ∧
      uncountedEnvelope.iterations = 0 ∧ ¬uncountedEnvelope.Seals sampleCiphers [0x70] [0x78] ∧
      PhpSdk.V3Crypt.decrypt sampleCiphers sampleLibraries uncountedEnvelope.toBytes [0x70] =
        .error sampleLibraries.aesgcm ∧
      ¬FormatHolds sampleCiphers sampleLibraries 0 := by
  refine ⟨rfl, by decide +kernel, rfl, ?_, by decide +kernel, fun h => not_canonical_zero h.canonical⟩
  rintro ⟨hpos, -⟩
  exact Nat.lt_irrefl 0 hpos

end TwoSdks
