import Blocktrail.Crypt.Envelope
import Blocktrail.Lib.Throwing
import Blocktrail.PhpSdk.Keys

/-! # Encryption of version 3, in PHP -/

open Text Throwing Bitcoin Crypt

namespace PhpSdk

namespace V3Crypt

/-- What the SDK relies on of the buffers of `buffertools`, and the exception of `AESGCM`. -/
structure Libraries where
  /-- `readBytes` of a parser of a string, at a position. -/
  readBytes : Bytes → Nat → Nat → Except PhpError Bytes
  readBytes_ok : ∀ b position n, 0 < n → position + n ≤ b.length →
    readBytes b position n = .ok ((b.drop position).take n)
  readBytes_sound : ∀ b position n r, readBytes b position n = .ok r →
    position + n ≤ b.length ∧ r = (b.drop position).take n
  /-- `Buffer::slice`. -/
  slice : Bytes → Int → Option Int → Except PhpError Bytes
  slice_last : ∀ (b : Bytes) (n : Nat), 0 < n → n ≤ b.length → slice b (-n) none = .ok (b.drop (b.length - n))
  slice_butLast : ∀ (b : Bytes) (n : Nat), 0 < n → n ≤ b.length → slice b 0 (some (-n)) = .ok (b.take (b.length - n))
  slice_length : ∀ b start stop r, slice b start stop = .ok r → r.length ≤ b.length
  /-- What `AESGCM` throws at a key that is no string and at a tag that does not fit. -/
  aesgcm : PhpError

variable (c : Ciphers) (lib : Libraries)

/-! ## `KeyDerivation` -/

/-- `hash_pbkdf2`: there is no key, but `false`, where the count is zero. -/
def hashPbkdf2 (password salt : Bytes) (iterations : Nat) : Option Key :=
  if h : 0 < iterations then some (c.pbkdf2 password salt ⟨iterations, h⟩) else none

/-- `KeyDerivation::compute`. -/
def compute (password salt : Bytes) (iterations : Int) : Except PhpError (Option Key) :=
  if ¬(0 ≤ iterations ∧ iterations < 4294967296) then
    .error ⟨"RuntimeException", "Iterations must be a number between 1 and 2^32"⟩
  else if salt.length = 0 then
    .error ⟨"RuntimeException", "Salt must not be empty"⟩
  else if 0x80 < salt.length then
    .error ⟨"RuntimeException", "Sanity check: Invalid salt, length can never be greater than 128"⟩
  else .ok (hashPbkdf2 c password salt iterations.toNat)

/-! ## `Encryption` -/

/-- `AESGCM::encrypt`. -/
def aesgcmEncrypt (key : Option Key) (iv plaintext header : Bytes) : Except PhpError (Bytes × Tag) :=
  match key with
  | some key => .ok (c.gcmSeal key iv plaintext header)
  | none => .error lib.aesgcm

/-- `AESGCM::decrypt`. -/
def aesgcmDecrypt (key : Option Key) (iv ciphertext header tag : Bytes) : Except PhpError Bytes :=
  match key.bind fun key => c.gcmOpen key iv ciphertext tag header with
  | some plaintext => .ok plaintext
  | none => .error lib.aesgcm

/-- `Encryption::encryptWithSaltAndIV`. -/
def encryptWithSaltAndIV (pt pw salt iv : Bytes) (iterations : Int) : Except PhpError Bytes := do
  if iv.length ≠ 16 then
    throw ⟨"RuntimeException", "IV must be exactly 16 bytes"⟩
  let header := [UInt8.ofNat salt.length] ++ salt ++ LittleEndian.encode32 (iterations % 4294967296).toNat
  let key ← compute c pw salt iterations
  let (ct, tag) ← aesgcmEncrypt c lib key iv pt header
  return header ++ (iv ++ ct ++ tag)

/-- `Encryption::encrypt`, with the salt and the IV drawn. -/
def encrypt (pt pw salt iv : Bytes) (iterations : Int) : Except PhpError Bytes := do
  if iterations < 1 then
    throw ⟨"InvalidArgumentException", "Iterations must be an integer > 0"⟩
  encryptWithSaltAndIV c lib pt pw salt iv iterations

/-- `Encryption::decrypt`. -/
def decrypt (ct pw : Bytes) : Except PhpError Bytes := do
  let sLB ← lib.readBytes ct 0 1
  let saltLen := (sLB.headD 0).toNat
  let salt ← lib.readBytes ct 1 saltLen
  let itB ← lib.readBytes ct (1 + saltLen) 4
  let header := sLB ++ salt ++ itB
  let iv ← lib.readBytes ct (1 + saltLen + 4) 16
  let act ← lib.readBytes ct (1 + saltLen + 4 + 16) (ct.length - (1 + saltLen + 4 + 16))
  let tag ← lib.slice act (-16) none
  let ct ← lib.slice act 0 (some (-16))
  let key ← compute c pw salt (LittleEndian.decode32 itB)
  aesgcmDecrypt c lib key iv ct header tag

/-! ## What the two do -/

variable {c lib}

theorem compute_ok_iff {pw salt : Bytes} {n : Nat} (hn : n < 2 ^ 32) {key : Option Key} :
    compute c pw salt n = .ok key ↔
      0 < salt.length ∧ salt.length ≤ 0x80 ∧ hashPbkdf2 c pw salt n = key := by
  have hrange : ¬¬(0 ≤ (n : Int) ∧ (n : Int) < 4294967296) := by omega
  rw [compute, if_neg hrange]
  split
  · simp only [reduceCtorEq, false_iff]
    omega
  · split
    · simp only [reduceCtorEq, false_iff]
      omega
    · rw [Except.ok.injEq, Int.toNat_natCast]
      exact ⟨fun h => ⟨by omega, by omega, h⟩, fun h => h.2.2⟩

theorem aesgcmDecrypt_ok_iff {key : Option Key} {iv ciphertext header tag plaintext : Bytes} :
    aesgcmDecrypt c lib key iv ciphertext header tag = .ok plaintext ↔
      ∃ k, key = some k ∧ c.gcmOpen k iv ciphertext tag header = some plaintext := by
  rw [← Option.bind_eq_some_iff]
  unfold aesgcmDecrypt
  split <;> simp [*]

/-- **Encryption.** A salt of 1 to 128 bytes, an IV of 16 and a count of 32 bits that is not zero make an envelope. -/
theorem encryptWithSaltAndIV_eq {pt pw salt iv : Bytes} {n : Nat} (hsalt : 0 < salt.length)
    (hsalt' : salt.length ≤ 0x80) (hiv : iv.length = 16) (hn : n < 2 ^ 32) (hpos : 0 < n) :
    encryptWithSaltAndIV c lib pt pw salt iv n =
      .ok (headerOf salt n ++ (iv ++ (c.gcmSeal (c.pbkdf2 pw salt ⟨n, hpos⟩) iv pt (headerOf salt n)).1 ++
        (c.gcmSeal (c.pbkdf2 pw salt ⟨n, hpos⟩) iv pt (headerOf salt n)).2)) := by
  have hkey : compute c pw salt n = .ok (some (c.pbkdf2 pw salt ⟨n, hpos⟩)) :=
    (compute_ok_iff hn).mpr ⟨hsalt, hsalt', dif_pos hpos⟩
  have hmod : ((n : Int) % 4294967296).toNat = n := by omega
  unfold encryptWithSaltAndIV
  rw [if_neg (not_not.mpr hiv), hkey, hmod]
  rfl

theorem decrypt_toBytes (e : Envelope) (pw : Bytes) :
    decrypt c lib e.toBytes pw = compute c pw e.salt e.iterations.toNat >>= fun key =>
      aesgcmDecrypt c lib key e.iv e.ciphertext e.header e.tag := by
  have hlen : e.toBytes.length = e.salt.length + 37 + e.ciphertext.length := e.length_toBytes
  have hsalt_pos := e.salt_pos
  have hfirst : lib.readBytes e.toBytes 0 1 = .ok [UInt8.ofNat e.salt.length] := by
    rw [lib.readBytes_ok _ _ _ (by omega) (by omega), e.toBytes_eq]
    rfl
  have hsalt : lib.readBytes e.toBytes 1 e.salt.length = .ok e.salt := by
    rw [lib.readBytes_ok _ _ _ hsalt_pos (by omega), e.toBytes_eq, List.drop_succ_cons, List.drop_zero, List.take_left]
  have hcount : lib.readBytes e.toBytes (1 + e.salt.length) 4 =
      .ok (LittleEndian.encode32 e.iterations.toNat) := by
    rw [lib.readBytes_ok _ _ _ (by omega) (by omega), e.drop_salt]
    rfl
  have hiv : lib.readBytes e.toBytes (1 + e.salt.length + 4) 16 = .ok e.iv := by
    rw [lib.readBytes_ok _ _ _ (by omega) (by omega), e.drop_header, ← e.iv_length, List.take_left]
  have htail : lib.readBytes e.toBytes (1 + e.salt.length + 4 + 16)
      (e.toBytes.length - (1 + e.salt.length + 4 + 16)) = .ok (e.ciphertext ++ e.tag) := by
    rw [lib.readBytes_ok _ _ _ (by omega) (by omega), e.drop_iv, List.take_of_length_le]
    rw [List.length_append, e.tag_length]
    omega
  have hact : (e.ciphertext ++ e.tag).length - 16 = e.ciphertext.length := by
    rw [List.length_append, e.tag_length, Nat.add_sub_cancel]
  have hroom : 16 ≤ (e.ciphertext ++ e.tag).length := by
    rw [List.length_append, e.tag_length]
    omega
  have htag : lib.slice (e.ciphertext ++ e.tag) (-16) none = .ok e.tag := by
    have := lib.slice_last _ 16 (by omega) hroom
    rwa [hact, List.drop_left] at this
  have hct : lib.slice (e.ciphertext ++ e.tag) 0 (some (-16)) = .ok e.ciphertext := by
    have := lib.slice_butLast _ 16 (by omega) hroom
    rwa [hact, List.take_left] at this
  have hsaltLen : (([UInt8.ofNat e.salt.length] : Bytes).headD 0).toNat = e.salt.length := e.toNat_saltLen
  have hdecode : LittleEndian.decode32 (LittleEndian.encode32 e.iterations.toNat) = e.iterations.toNat :=
    LittleEndian.decode32_encode32 e.iterations.toNat_lt
  have hheader : [UInt8.ofNat e.salt.length] ++ e.salt ++ LittleEndian.encode32 e.iterations.toNat = e.header := rfl
  unfold decrypt
  rw [hfirst, ok_bind]
  dsimp only
  rw [hsaltLen, hsalt, ok_bind, hcount, ok_bind, hiv, ok_bind, htail, ok_bind, htag, ok_bind, hct, ok_bind, hdecode,
    hheader]

theorem wellFormed_of_decrypt {ct pw pt : Bytes} (h : decrypt c lib ct pw = .ok pt) : WellFormed ct := by
  obtain ⟨sLB, hfirst, h⟩ := exists_of_bind_ok h
  obtain ⟨salt, hsalt, h⟩ := exists_of_bind_ok h
  obtain ⟨itB, hcount, h⟩ := exists_of_bind_ok h
  obtain ⟨iv, hiv, h⟩ := exists_of_bind_ok h
  obtain ⟨act, hact, h⟩ := exists_of_bind_ok h
  obtain ⟨tag, htag, h⟩ := exists_of_bind_ok h
  obtain ⟨ciphertext, hct, h⟩ := exists_of_bind_ok h
  obtain ⟨key, hkey, hdec⟩ := exists_of_bind_ok h
  obtain ⟨hone, rfl⟩ := lib.readBytes_sound _ _ _ _ hfirst
  rcases ct with _ | ⟨x, ct⟩
  · simp at hone
  have hx : (((((x :: ct).drop 0).take 1 : Bytes).headD 0).toNat) = x.toNat := rfl
  rw [hx] at hsalt hcount hiv hact
  obtain ⟨hroom, rfl⟩ := lib.readBytes_sound _ _ _ _ hsalt
  obtain ⟨-, rfl⟩ := lib.readBytes_sound _ _ _ _ hcount
  obtain ⟨hroomIV, -⟩ := lib.readBytes_sound _ _ _ _ hiv
  obtain ⟨-, rfl⟩ := lib.readBytes_sound _ _ _ _ hact
  obtain ⟨k, -, hopen⟩ := aesgcmDecrypt_ok_iff.mp hdec
  have htagLen : tag.length = 16 := by
    by_contra hne
    rw [c.gcmOpen_of_tag_length hne] at hopen
    cases hopen
  have hactLen := lib.slice_length _ _ _ _ htag
  rw [htagLen, List.length_take, List.length_drop] at hactLen
  have hcountLen : ((((x :: ct).drop (1 + x.toNat)).take 4)).length = 4 := by
    rw [List.length_take, List.length_drop]
    omega
  have hsaltLen : (((x :: ct).drop 1).take x.toNat).length = x.toNat := by
    rw [List.length_take, List.length_drop]
    omega
  obtain ⟨hpos, hle, -⟩ := (compute_ok_iff (LittleEndian.decode32_lt hcountLen)).mp hkey
  rw [hsaltLen] at hpos hle
  exact Envelope.exists_of_bytes (x := x) rfl hpos hle (by omega)

/-- **Decryption.** What is accepted is an envelope of the format. -/
theorem decrypt_ok_iff {ct pw pt : Bytes} :
    decrypt c lib ct pw = .ok pt ↔ ∃ e : Envelope, e.toBytes = ct ∧ e.Seals c pw pt := by
  have hseals (e : Envelope) : decrypt c lib e.toBytes pw = .ok pt ↔ e.Seals c pw pt := by
    have hkey : compute c pw e.salt e.iterations.toNat = .ok (hashPbkdf2 c pw e.salt e.iterations.toNat) :=
      (compute_ok_iff e.iterations.toNat_lt).mpr ⟨e.salt_pos, e.salt_le, rfl⟩
    rw [decrypt_toBytes, hkey, ok_bind, aesgcmDecrypt_ok_iff]
    simp only [c.gcmOpen_eq_some, Envelope.Seals, Envelope.SealedBy]
    unfold hashPbkdf2
    split
    · next h => simp [h]
    · next h => simp [h]
  constructor
  · intro h
    obtain ⟨e, rfl⟩ := wellFormed_of_decrypt h
    exact ⟨e, rfl, (hseals e).mp h⟩
  · rintro ⟨e, rfl, h⟩
    exact (hseals e).mpr h

/-! ## Libraries to evaluate with -/

/-- `substr`. -/
def sampleSlice (b : Bytes) (start : Int) (stop : Option Int) : Bytes :=
  let first := if start < 0 then b.length - (-start).toNat else start.toNat
  match stop with
  | none => b.drop first
  | some k => if k < 0 then (b.take (b.length - (-k).toNat)).drop first else (b.drop first).take k.toNat

theorem sampleSlice_length (b : Bytes) (start : Int) (stop : Option Int) :
    (sampleSlice b start stop).length ≤ b.length := by
  unfold sampleSlice
  dsimp only
  split
  · simp
  · split <;> simp only [List.length_drop, List.length_take] <;> omega

def sampleLibraries : Libraries where
  readBytes b position n :=
    if 0 < n ∧ position + n ≤ b.length then .ok ((b.drop position).take n)
    else .error ⟨"ParserOutOfRange", "Could not parse string of required length"⟩
  readBytes_ok b position n h0 h := if_pos ⟨h0, h⟩
  readBytes_sound b position n r h := by
    split at h
    · next hb => exact ⟨hb.2, (Except.ok.inj h).symm⟩
    · cases h
  slice b start stop := .ok (sampleSlice b start stop)
  slice_last b n hn h := by
    simp [sampleSlice, hn]
  slice_butLast b n hn h := by
    simp [sampleSlice, hn]
  slice_length b start stop r h := by
    rw [← Except.ok.inj h]
    exact sampleSlice_length b start stop
  aesgcm := ⟨"InvalidArgumentException", "Unable to decrypt or to verify the tag."⟩

end V3Crypt

end PhpSdk
