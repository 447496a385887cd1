import Blocktrail.Bitcoin.Script
import Blocktrail.Crypt.Envelope
import Blocktrail.Lib.Throwing

/-! # Encryption of version 3, in JavaScript -/

open Text Throwing Crypt Bitcoin

namespace JsSdk

namespace V3Crypt

variable (c : Ciphers)

/-! ## Numbers and buffers -/

/-- What is passed for `iterations`: nothing, or a value that is used as a number. -/
inductive Iterations
  | undefined
  | null
  | nan
  | integer (n : Int)
deriving DecidableEq

def Iterations.truthy : Iterations → Bool
  | integer n => n ≠ 0
  | _ => false

def outOfBounds : JsError := ⟨"RangeError", "\"value\" argument is out of bounds"⟩

def indexOutOfRange : JsError := ⟨"RangeError", "Index out of range"⟩

def assertionError (message : Str) : JsError := ⟨"AssertionError", message⟩

def assertThat (p : Prop) [Decidable p] (message : Str) : Except JsError Unit :=
  if p then .ok ⟨⟩ else .error (assertionError message)

def writeUInt8 (n : Nat) : Except JsError Bytes := if 0xff < n then .error outOfBounds else .ok [UInt8.ofNat n]

/-- What is not a number is written as zero. -/
def writeUInt32LE : Iterations → Except JsError Bytes
  | .integer n => if 0xffffffff < n ∨ n < 0 then .error outOfBounds else .ok (LittleEndian.encode32 n.toNat)
  | _ => .ok (LittleEndian.encode32 0)

def readUInt8 (b : Bytes) (offset : Nat) : Except JsError Nat :=
  match b[offset]? with
  | some x => .ok x.toNat
  | none => .error indexOutOfRange

def readUInt32LE (b : Bytes) (offset : Nat) : Except JsError Nat :=
  if b.length < offset + 4 then .error indexOutOfRange
  else .ok (LittleEndian.decode32 ((b.drop offset).take 4))

/-! ## `KeyDerivation` -/

def defaultIterations : Int := 35000

/-- `KeyDerivation.compute`. -/
def compute (pw salt : Bytes) (iterations : Iterations) : Except JsError Key := do
  let iterations := if iterations.truthy then iterations else .integer defaultIterations
  assertThat (0 < salt.length) "Salt must not be empty"
  match iterations with
  | .integer n =>
    if h : 0 < n.toNat then
      if 0x80 < salt.length then
        throw ⟨"Error", "Sanity check: Invalid salt, length can never be greater than 128"⟩
      return c.pbkdf2 pw salt ⟨n.toNat, h⟩
    else throw (assertionError "Iteration count should be at least 1")
  | _ => throw (assertionError "Iterations must be a number")

/-! ## `Encryption` -/

/-- `sjcl.mode.gcm.encrypt`: the tag follows the ciphertext. -/
def gcmEncrypt (key : Key) (plaintext iv adata : Bytes) : Bytes :=
  (c.gcmSeal key iv plaintext adata).1 ++ (c.gcmSeal key iv plaintext adata).2

/-- Ciphertext and tag: where there are less than 16 bytes, all of them are the tag. -/
def splitTag (ct_t : Bytes) : Bytes × Bytes :=
  if 16 ≤ ct_t.length then (ct_t.take (ct_t.length - 16), ct_t.drop (ct_t.length - 16)) else ([], ct_t)

/-- `sjcl.mode.gcm.decrypt`. -/
def gcmDecrypt (key : Key) (ct_t iv adata : Bytes) : Except JsError Bytes :=
  match c.gcmOpen key iv (splitTag ct_t).1 (splitTag ct_t).2 adata with
  | some plaintext => .ok plaintext
  | none => .error ⟨"CORRUPT", "gcm: tag doesn't match"⟩

def encryptWithSaltAndIV (pt pw saltBuf iv : Bytes) (iterations : Iterations) : Except JsError Bytes := do
  assertThat (iv.length = 16) "IV must be exactly 16 bytes"
  let SL ← writeUInt8 saltBuf.length
  let I ← writeUInt32LE iterations
  let header := SL ++ saltBuf ++ I
  let key ← compute c pw saltBuf iterations
  return header ++ iv ++ gcmEncrypt c key pt iv header

/-- `Encryption.encrypt`, with the salt and the IV drawn. -/
def encrypt (pt pw saltBuf iv : Bytes) (iterations : Iterations) : Except JsError Bytes :=
  let iterations := if iterations = .undefined then .integer defaultIterations else iterations
  encryptWithSaltAndIV c pt pw saltBuf iv iterations

def decrypt (ct pw : Bytes) : Except JsError Bytes := do
  let saltLen ← readUInt8 ct 0
  let salt := slice ct 1 (1 + saltLen)
  let iterations ← readUInt32LE ct (1 + saltLen)
  let header := slice ct 0 (1 + saltLen + 4)
  let iv := slice ct (1 + saltLen + 4) (16 + (1 + saltLen + 4))
  let ct_t := ct.drop (1 + saltLen + 4 + 16)
  let key ← compute c pw salt (.integer iterations)
  gcmDecrypt c key ct_t iv header

/-! ## What the two do -/

variable {c}

/-- The count that the key is derived with: `0` stands for the default. -/
def countUsed (n : Nat) : Count :=
  if h : 0 < n then ⟨n, h⟩ else ⟨35000, by decide⟩

theorem countUsed_of_pos {n : Nat} (h : 0 < n) : countUsed n = ⟨n, h⟩ := dif_pos h

theorem compute_pos {pw salt : Bytes} {n : Int} (hn : 0 < n.toNat) :
    compute c pw salt (.integer n) =
      if salt.length = 0 then .error (assertionError "Salt must not be empty")
      else if 0x80 < salt.length then
        .error ⟨"Error", "Sanity check: Invalid salt, length can never be greater than 128"⟩
      else .ok (c.pbkdf2 pw salt ⟨n.toNat, hn⟩) := by
  have htruthy : (Iterations.integer n).truthy = true := by
    simp only [Iterations.truthy, ne_eq, decide_not, Bool.not_eq_eq_eq_not, Bool.not_true, decide_eq_false_iff_not]
    omega
  unfold compute
  simp only [htruthy, if_true, dif_pos hn, assertThat]
  by_cases h0 : salt.length = 0
  · simp [h0]
  · simp only [Nat.pos_iff_ne_zero.mpr h0, if_true, if_neg h0, ok_bind]
    split <;> rfl

theorem compute_falsy {pw salt : Bytes} {iterations : Iterations} (h : iterations.truthy = false) :
    compute c pw salt iterations = compute c pw salt (.integer defaultIterations) := by
  unfold compute
  simp only [h]
  rfl

theorem compute_ok_iff {pw salt : Bytes} {n : Nat} {key : Key} :
    compute c pw salt (.integer n) = .ok key ↔
      0 < salt.length ∧ salt.length ≤ 0x80 ∧ c.pbkdf2 pw salt (countUsed n) = key := by
  have hcount : compute c pw salt (.integer n) = compute c pw salt (.integer (countUsed n).val) := by
    unfold countUsed
    split
    · rfl
    · next hn =>
      obtain rfl : n = 0 := by omega
      exact compute_falsy rfl
  have hpos : 0 < ((countUsed n).val : Int).toNat := (countUsed n).property
  rw [hcount, compute_pos hpos]
  split
  · simp; omega
  · split
    · simp; omega
    · rw [Except.ok.injEq]
      exact ⟨fun h => ⟨by omega, by omega, h⟩, fun h => h.2.2⟩

theorem splitTag_append {ciphertext tag : Bytes} (h : tag.length = 16) :
    splitTag (ciphertext ++ tag) = (ciphertext, tag) := by
  have hlen : (ciphertext ++ tag).length - 16 = ciphertext.length := by
    rw [List.length_append, h, Nat.add_sub_cancel]
  rw [splitTag, if_pos (by rw [List.length_append]; omega), hlen, List.take_left, List.drop_left]

theorem join_splitTag (ct_t : Bytes) : (splitTag ct_t).1 ++ (splitTag ct_t).2 = ct_t := by
  unfold splitTag
  split
  · exact List.take_append_drop ..
  · rfl

theorem gcmDecrypt_ok_iff {key : Key} {ct_t iv adata plaintext : Bytes} :
    gcmDecrypt c key ct_t iv adata = .ok plaintext ↔ gcmEncrypt c key plaintext iv adata = ct_t := by
  have hopen : gcmDecrypt c key ct_t iv adata = .ok plaintext ↔
      c.gcmOpen key iv (splitTag ct_t).1 (splitTag ct_t).2 adata = some plaintext := by
    unfold gcmDecrypt
    split <;> simp [*]
  rw [hopen, c.gcmOpen_eq_some, gcmEncrypt]
  constructor
  · rintro ⟨hct, htag⟩
    rw [hct, htag, join_splitTag]
  · rintro rfl
    rw [splitTag_append (c.gcmSeal ..).2.property]
    exact ⟨rfl, rfl⟩

theorem writeUInt32LE_ofNat {n : Nat} (h : n < 2 ^ 32) :
    writeUInt32LE (.integer n) = .ok (LittleEndian.encode32 n) := by
  rw [writeUInt32LE, if_neg (by omega), Int.toNat_natCast]

theorem encryptWithSaltAndIV_ok {pt pw salt iv I : Bytes} {iterations : Iterations} {key : Key}
    (hsalt : salt.length ≤ 0x80) (hiv : iv.length = 16) (hI : writeUInt32LE iterations = .ok I)
    (hkey : compute c pw salt iterations = .ok key) :
    encryptWithSaltAndIV c pt pw salt iv iterations =
      .ok (UInt8.ofNat salt.length :: salt ++ I ++ iv ++
        gcmEncrypt c key pt iv (UInt8.ofNat salt.length :: salt ++ I)) := by
  unfold encryptWithSaltAndIV
  rw [assertThat, if_pos hiv, ok_bind, writeUInt8, if_neg (by omega), ok_bind, hI, ok_bind, hkey]
  rfl

/-- **Encryption.** A salt of 1 to 128 bytes, an IV of 16 and a count of 32 bits make an envelope. -/
theorem encryptWithSaltAndIV_eq {pt pw salt iv : Bytes} {n : Nat} (hsalt : 0 < salt.length)
    (hsalt' : salt.length ≤ 0x80) (hiv : iv.length = 16) (hn : n < 2 ^ 32) :
    encryptWithSaltAndIV c pt pw salt iv (.integer n) =
      .ok (headerOf salt n ++ iv ++ gcmEncrypt c (c.pbkdf2 pw salt (countUsed n)) pt iv (headerOf salt n)) :=
  encryptWithSaltAndIV_ok hsalt' hiv (writeUInt32LE_ofNat hn) (compute_ok_iff.mpr ⟨hsalt, hsalt', rfl⟩)

theorem decrypt_toBytes (e : Envelope) (pw : Bytes) :
    decrypt c e.toBytes pw = compute c pw e.salt (.integer e.iterations.toNat) >>= fun key =>
      gcmDecrypt c key (e.ciphertext ++ e.tag) e.iv e.header := by
  have hlen : e.toBytes.length = e.salt.length + 37 + e.ciphertext.length := e.length_toBytes
  have hfirst : readUInt8 e.toBytes 0 = .ok e.salt.length := by
    rw [readUInt8, e.toBytes_zero]
    exact congrArg Except.ok e.toNat_saltLen
  have hsalt : slice e.toBytes 1 (1 + e.salt.length) = e.salt := by
    rw [slice, e.toBytes_eq, Nat.add_comm, List.take_succ_cons, List.take_left]
    rfl
  have hcount : readUInt32LE e.toBytes (1 + e.salt.length) = .ok e.iterations.toNat := by
    rw [readUInt32LE, if_neg (by omega), e.drop_salt]
    exact congrArg Except.ok (LittleEndian.decode32_encode32 e.iterations.toNat_lt)
  have hheader : slice e.toBytes 0 (1 + e.salt.length + 4) = e.header := by
    rw [slice, List.drop_zero, e.take_header]
  have hiv : slice e.toBytes (1 + e.salt.length + 4) (16 + (1 + e.salt.length + 4)) = e.iv := by
    rw [slice, List.drop_take, e.drop_header, Nat.add_sub_cancel, ← e.iv_length, List.take_left]
  unfold decrypt
  simp only [hfirst, ok_bind, hsalt, hcount, hheader, hiv, e.drop_iv]

theorem wellFormed_of_decrypt {ct pw pt : Bytes} (h : decrypt c ct pw = .ok pt) : WellFormed ct := by
  obtain ⟨saltLen, hfirst, h⟩ := exists_of_bind_ok h
  obtain ⟨iterations, hcount, h⟩ := exists_of_bind_ok h
  obtain ⟨key, hkey, h⟩ := exists_of_bind_ok h
  obtain ⟨hsalt, hsalt', -⟩ := compute_ok_iff.mp hkey
  have hroom : 1 + saltLen + 4 ≤ ct.length := by
    unfold readUInt32LE at hcount
    split at hcount
    · cases hcount
    · omega
  have htail : 16 ≤ (ct.drop (1 + saltLen + 4 + 16)).length := by
    rw [← gcmDecrypt_ok_iff.mp h, gcmEncrypt, List.length_append]
    have : ((c.gcmSeal key (slice ct (1 + saltLen + 4) (16 + (1 + saltLen + 4))) pt
      (slice ct 0 (1 + saltLen + 4))).2 : Bytes).length = 16 := (c.gcmSeal ..).2.property
    omega
  have hslice : (slice ct 1 (1 + saltLen)).length = saltLen := by
    rw [slice, List.length_drop, List.length_take]
    omega
  rw [hslice] at hsalt hsalt'
  rw [List.length_drop] at htail
  unfold readUInt8 at hfirst
  split at hfirst
  · next x hx =>
    cases hfirst
    exact Envelope.exists_of_bytes hx hsalt hsalt' (by omega)
  · cases hfirst

/-- **Decryption.** What is accepted is an envelope, sealed with the key of its own salt and of the count that its
iterations stand for. -/
theorem decrypt_ok_iff {ct pw pt : Bytes} :
    decrypt c ct pw = .ok pt ↔
      ∃ e : Envelope, e.toBytes = ct ∧ e.SealedBy c (c.pbkdf2 pw e.salt (countUsed e.iterations.toNat)) pt := by
  have hsealed (e : Envelope) : decrypt c e.toBytes pw = .ok pt ↔
      e.SealedBy c (c.pbkdf2 pw e.salt (countUsed e.iterations.toNat)) pt := by
    have hkey : compute c pw e.salt (.integer e.iterations.toNat) =
        .ok (c.pbkdf2 pw e.salt (countUsed e.iterations.toNat)) := compute_ok_iff.mpr ⟨e.salt_pos, e.salt_le, rfl⟩
    rw [decrypt_toBytes, hkey, ok_bind, gcmDecrypt_ok_iff, gcmEncrypt, Envelope.SealedBy]
    constructor
    · exact fun h => List.append_inj' h (by rw [e.tag_length, (c.gcmSeal ..).2.property])
    · rintro ⟨hct, htag⟩
      rw [hct, htag]
  constructor
  · intro h
    obtain ⟨e, rfl⟩ := wellFormed_of_decrypt h
    exact ⟨e, rfl, (hsealed e).mp h⟩
  · rintro ⟨e, rfl, h⟩
    exact (hsealed e).mpr h

end V3Crypt

end JsSdk
