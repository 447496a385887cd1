import Blocktrail.JsSdk.State
import Blocktrail.JsSdk.V3Crypt
import Blocktrail.JsSdk.WebWorkifier

/-! # Encryption in the worker

A `Buffer` is a view into an `ArrayBuffer`. A message to the worker carries the whole `ArrayBuffer`, and both sides
of the worker read it from its first byte to its last.
-/

open Text Bitcoin Crypt

namespace JsSdk

namespace WorkerCrypt

variable (c : Ciphers)

/-! ## Buffers -/

/-- A `Buffer`: a part of an `ArrayBuffer`. -/
structure View where
  arrayBuffer : Bytes
  byteOffset : Nat
  length : Nat
  inside : byteOffset + length ≤ arrayBuffer.length

def View.bytes (v : View) : Bytes := (v.arrayBuffer.drop v.byteOffset).take v.length

/-- `Buffer.from(arrayBuffer)`. -/
def bufferFromArrayBuffer (b : Bytes) : View := ⟨b, 0, b.length, by omega⟩

/-- The view covers its `ArrayBuffer`. -/
def View.Whole (v : View) : Prop := v.byteOffset = 0 ∧ v.length = v.arrayBuffer.length

/-! ## The worker -/

/-- The messages that the worker encrypts and decrypts for. -/
inductive WorkerMessage
  | encryptWithSaltAndIV (pt pw saltBuf iv : View) (iterations : V3Crypt.Iterations)
  | decrypt (ct pw : View)

/-- The dispatcher of the worker. What it allocates for the result is covered by the view. -/
def onMessage : WorkerMessage → Except JsError View
  | .encryptWithSaltAndIV pt pw saltBuf iv iterations =>
    if ¬iterations.truthy then .error ⟨"Error", "Invalid input"⟩
    else bufferFromArrayBuffer <$>
      V3Crypt.encryptWithSaltAndIV c pt.arrayBuffer pw.arrayBuffer saltBuf.arrayBuffer iv.arrayBuffer iterations
  | .decrypt ct pw => bufferFromArrayBuffer <$> V3Crypt.decrypt c ct.arrayBuffer pw.arrayBuffer

/-! ## The two paths -/

/-- What a promise of bytes is settled with. -/
inductive Outcome
  | resolved (b : Bytes)
  | rejected (message : Str)
deriving DecidableEq

/-- The promise of one request to the worker: it is posted, handled, and its event delivered. -/
def request (message : WorkerMessage) : Option (Workify.Settlement View) :=
  let actions := [.workify message none, .work, .deliver 0, .flush 0]
  (actions.foldl (Workify.step (onMessage c)) Workify.start).requests.head?.bind (·.promise)

/-- The handler of the reply: `Buffer.from(data.cipherText.buffer)`. -/
def readReply : Workify.Settlement View → Outcome
  | .resolved data => .resolved (bufferFromArrayBuffer data.result.arrayBuffer).bytes
  | .rejected _ message => .rejected message
  | .notPosted message => .rejected message

def inProcess : Except JsError Bytes → Outcome
  | .ok b => .resolved b
  | .error e => .rejected e.message

/-- `promisedEncrypt`, with the salt and the IV drawn. The random bytes have an `ArrayBuffer` of their own. -/
def promisedEncrypt (useWebWorker : Bool) (pt pw : View) (iter : V3Crypt.Iterations) (salt : Salt) (iv : IV) :
    Option Outcome :=
  if useWebWorker then
    (request c (.encryptWithSaltAndIV pt pw (bufferFromArrayBuffer salt) (bufferFromArrayBuffer iv) iter)).map readReply
  else some (inProcess (V3Crypt.encrypt c pt.bytes pw.bytes salt iv iter))

def promisedDecrypt (useWebWorker : Bool) (ct pw : View) : Option Outcome :=
  if useWebWorker then (request c (.decrypt ct pw)).map readReply
  else some (inProcess (V3Crypt.decrypt c ct.bytes pw.bytes))

/-- Both resolve with the same bytes, or both reject. -/
def SameOutcome : Option Outcome → Option Outcome → Prop
  | some (.resolved a), some (.resolved b) => a = b
  | some (.rejected _), some (.rejected _) => True
  | _, _ => False

/-! ## What the worker computes -/

variable {c}

theorem arrayBuffer_eq_bytes_iff {v : View} : v.arrayBuffer = v.bytes ↔ v.Whole := by
  have hlen : v.bytes.length = v.length := by
    have := v.inside
    rw [View.bytes, List.length_take, List.length_drop]
    omega
  constructor
  · intro h
    have hwhole : v.length = v.arrayBuffer.length := by rw [h, hlen]
    have := v.inside
    exact ⟨by omega, hwhole⟩
  · rintro ⟨hoff, hwhole⟩
    rw [View.bytes, hoff, hwhole, List.drop_zero, List.take_length]

@[simp] theorem bytes_bufferFromArrayBuffer (b : Bytes) : (bufferFromArrayBuffer b).bytes = b :=
  (arrayBuffer_eq_bytes_iff.mpr ⟨rfl, rfl⟩).symm

theorem request_eq (message : WorkerMessage) :
    request c message = some (match onMessage c message with
      | .ok r => .resolved ⟨0, r⟩
      | .error e => .rejected (some 0) (Workify.rejectionText (Workify.errorText e))) := by
  unfold request
  rcases h : onMessage c message with e | r <;>
    simp [Workify.start, Workify.step, Workify.workify, Workify.handle, h, Workify.Request.dispatch,
      Workify.Request.onMessage, Workify.Request.onError, Workify.Request.settle, Workify.Request.flush, List.modify]

theorem sameOutcome_iff {message : WorkerMessage} {x y : Except JsError Bytes}
    (h : onMessage c message = bufferFromArrayBuffer <$> x) :
    SameOutcome ((request c message).map readReply) (some (inProcess y)) ↔ ∀ b, x = .ok b ↔ y = .ok b := by
  rw [request_eq, h]
  rcases x with e | a
  · rcases y with e' | b
    · simp [SameOutcome, readReply, inProcess]
    · simp [SameOutcome, readReply, inProcess]
  · rcases y with e' | b
    · simp [SameOutcome, readReply, inProcess]
    · have hbytes : (bufferFromArrayBuffer (bufferFromArrayBuffer a).arrayBuffer).bytes = a :=
        bytes_bufferFromArrayBuffer a
      simp only [Option.map_some, Except.map_ok, readReply, hbytes, inProcess, SameOutcome, Except.ok.injEq]
      exact ⟨fun hab b' => by rw [hab], fun hab => ((hab b).mpr rfl)⟩

/-! ## Agreement -/

/-- The worker encrypts as the page does, whatever the ciphers, the salt and the IV are. -/
def EncryptAgrees (pt pw : View) (iter : V3Crypt.Iterations) : Prop :=
  ∀ (c : Ciphers) (salt : Salt) (iv : IV),
    SameOutcome (promisedEncrypt c true pt pw iter salt iv) (promisedEncrypt c false pt pw iter salt iv)

/-- The worker decrypts as the page does, whatever the ciphers are. -/
def DecryptAgrees (ct pw : View) : Prop :=
  ∀ c : Ciphers, SameOutcome (promisedDecrypt c true ct pw) (promisedDecrypt c false ct pw)

/-- The iterations are given, and the buffers cover their `ArrayBuffer` unless the count fits no header. -/
def EncryptSafe (pt pw : View) : V3Crypt.Iterations → Prop
  | .integer n => (n < 0 ∨ 0xffffffff < n) ∨ n ≠ 0 ∧ pt.Whole ∧ pw.Whole
  | _ => False

/-- The buffers cover their `ArrayBuffer`, or neither the bytes nor the `ArrayBuffer` are a ciphertext. -/
def DecryptSafe (ct pw : View) : Prop :=
  ct.Whole ∧ pw.Whole ∨ ¬WellFormed ct.bytes ∧ ¬WellFormed ct.arrayBuffer

/-! ## Encryption -/

theorem encrypt_out_of_range {pt pw salt iv : Bytes} {n : Int} (hn : n < 0 ∨ 0xffffffff < n) (b : Bytes) :
    V3Crypt.encryptWithSaltAndIV c pt pw salt iv (.integer n) ≠ .ok b := by
  intro h
  obtain ⟨-, -, h⟩ := Throwing.exists_of_bind_ok h
  obtain ⟨SL, -, h⟩ := Throwing.exists_of_bind_ok h
  obtain ⟨I, hI, -⟩ := Throwing.exists_of_bind_ok h
  rw [V3Crypt.writeUInt32LE, if_pos (by omega)] at hI
  cases hI

/-- Without iterations the page encrypts with the default. -/
theorem encrypt_falsy (c : Ciphers) (pt pw : Bytes) {iter : V3Crypt.Iterations} (h : iter.truthy = false)
    (salt : Salt) (iv : IV) : ∃ b, V3Crypt.encrypt c pt pw salt iv iter = .ok b := by
  have hsalt : salt.val.length = 10 := salt.property
  have hkey (n : Nat) : ∃ key, V3Crypt.compute c pw salt (.integer n) = .ok key :=
    ⟨_, V3Crypt.compute_ok_iff.mpr ⟨by omega, by omega, rfl⟩⟩
  unfold V3Crypt.encrypt
  split
  · obtain ⟨key, hkey⟩ := hkey 35000
    exact ⟨_, V3Crypt.encryptWithSaltAndIV_ok (by omega) iv.property (V3Crypt.writeUInt32LE_ofNat (by decide)) hkey⟩
  · obtain ⟨key, hkey⟩ := hkey 35000
    rw [show ((35000 : Nat) : Int) = V3Crypt.defaultIterations from rfl, ← V3Crypt.compute_falsy h] at hkey
    have hI : ∃ I, V3Crypt.writeUInt32LE iter = .ok I := by
      cases iter with
      | integer n =>
        obtain rfl : n = 0 := by simpa [V3Crypt.Iterations.truthy] using h
        exact ⟨_, rfl⟩
      | undefined => exact ⟨_, rfl⟩
      | null => exact ⟨_, rfl⟩
      | nan => exact ⟨_, rfl⟩
    obtain ⟨I, hI⟩ := hI
    exact ⟨_, V3Crypt.encryptWithSaltAndIV_ok (by omega) iv.property hI hkey⟩

def zeroSalt : Salt := ⟨List.replicate 10 0, rfl⟩
def zeroIV : IV := ⟨List.replicate 16 0, rfl⟩

theorem not_encryptAgrees_of_falsy {pt pw : View} {iter : V3Crypt.Iterations} (h : iter.truthy = false) :
    ¬EncryptAgrees pt pw iter := by
  intro hagree
  have herr : onMessage sampleCiphers (.encryptWithSaltAndIV pt pw (bufferFromArrayBuffer zeroSalt)
      (bufferFromArrayBuffer zeroIV) iter) = bufferFromArrayBuffer <$> .error ⟨"Error", "Invalid input"⟩ := by
    simp [onMessage, h]
  obtain ⟨b, hb⟩ := encrypt_falsy sampleCiphers pt.bytes pw.bytes h zeroSalt zeroIV
  cases ((sameOutcome_iff herr).mp (hagree sampleCiphers zeroSalt zeroIV) b).mpr hb

/-- Where iterations are given, the worker encrypts the `ArrayBuffer` of each argument. -/
theorem encrypt_sameOutcome_iff {pt pw : View} {n : Int} (hn : n ≠ 0) {salt : Salt} {iv : IV} :
    SameOutcome (promisedEncrypt c true pt pw (.integer n) salt iv) (promisedEncrypt c false pt pw (.integer n) salt iv) ↔
      ∀ b, V3Crypt.encryptWithSaltAndIV c pt.arrayBuffer pw.arrayBuffer salt iv (.integer n) = .ok b ↔
        V3Crypt.encryptWithSaltAndIV c pt.bytes pw.bytes salt iv (.integer n) = .ok b :=
  sameOutcome_iff (if_neg (by simp [V3Crypt.Iterations.truthy, hn]))

/-- Ciphers that show the plaintext, and whether the password is this one. -/
def markingCiphers (password : Bytes) : Ciphers :=
  clearCiphers (fun p _ _ => ⟨List.replicate 32 (if p = password then 0 else 1), List.length_replicate⟩)
    fun key _ _ => ⟨key.val.take 16, length_take_key key⟩

theorem markingCiphers_injective {password p : Bytes} {pt pt' iv header : Bytes} {salt : Bytes} {n : Count}
    (h : V3Crypt.gcmEncrypt (markingCiphers password) ((markingCiphers password).pbkdf2 p salt n) pt iv header =
      V3Crypt.gcmEncrypt (markingCiphers password) ((markingCiphers password).pbkdf2 password salt n) pt' iv header) :
    p = password ∧ pt = pt' := by
  obtain ⟨hpt, htag⟩ := List.append_inj' h (((markingCiphers password).gcmSeal ..).2.property.trans ((markingCiphers password).gcmSeal ..).2.property.symm)
  refine ⟨?_, hpt⟩
  by_contra hne
  simp [markingCiphers, clearCiphers, hne] at htag

theorem encryptAgrees_iff {pt pw : View} {iter : V3Crypt.Iterations} :
    EncryptAgrees pt pw iter ↔ EncryptSafe pt pw iter := by
  rcases iter with _ | _ | _ | n
  · exact iff_of_false (not_encryptAgrees_of_falsy rfl) id
  · exact iff_of_false (not_encryptAgrees_of_falsy rfl) id
  · exact iff_of_false (not_encryptAgrees_of_falsy rfl) id
  constructor
  · intro h
    have hn : n ≠ 0 := by
      rintro rfl
      exact not_encryptAgrees_of_falsy rfl h
    by_cases hrange : n < 0 ∨ 0xffffffff < n
    · exact Or.inl hrange
    right
    obtain ⟨m, rfl⟩ : ∃ m : Nat, n = m := ⟨n.toNat, by omega⟩
    have heq (p b : Bytes) := @V3Crypt.encryptWithSaltAndIV_eq (markingCiphers pw.bytes) b p zeroSalt zeroIV m
      (by decide) (by decide) rfl (by omega)
    have hsame := ((encrypt_sameOutcome_iff hn).mp (h (markingCiphers pw.bytes) zeroSalt zeroIV) _).mpr (heq pw.bytes pt.bytes)
    rw [heq, Except.ok.injEq, List.append_cancel_left_eq] at hsame
    obtain ⟨hpw, hpt⟩ := markingCiphers_injective hsame
    exact ⟨hn, arrayBuffer_eq_bytes_iff.mp hpt, arrayBuffer_eq_bytes_iff.mp hpw⟩
  · rintro (hrange | ⟨hn, hpt, hpw⟩) c salt iv
    · rw [encrypt_sameOutcome_iff (by omega)]
      exact fun b => iff_of_false (encrypt_out_of_range hrange b) (encrypt_out_of_range hrange b)
    · rw [encrypt_sameOutcome_iff hn, arrayBuffer_eq_bytes_iff.mpr hpt, arrayBuffer_eq_bytes_iff.mpr hpw]
      exact fun b => Iff.rfl

/-! ## Decryption -/

theorem decrypt_sameOutcome_iff {ct pw : View} :
    SameOutcome (promisedDecrypt c true ct pw) (promisedDecrypt c false ct pw) ↔
      ∀ b, V3Crypt.decrypt c ct.arrayBuffer pw.arrayBuffer = .ok b ↔ V3Crypt.decrypt c ct.bytes pw.bytes = .ok b :=
  sameOutcome_iff rfl

/-- Ciphers that open one envelope with one password. Every other password, IV and header has another tag. -/
def openingCiphers (password : Bytes) (e : Envelope) (other : Tag) : Ciphers :=
  clearCiphers (fun p _ _ => ⟨List.replicate 32 (if p = password then 0 else 1), List.length_replicate⟩)
    fun key iv header =>
      if key.val = List.replicate 32 0 ∧ iv = e.iv ∧ header = e.header then ⟨e.tag, e.tag_length⟩ else other

theorem sealedBy_openingCiphers (password : Bytes) (e : Envelope) (other : Tag) (salt : Bytes) (n : Count) :
    e.SealedBy (openingCiphers password e other) ((openingCiphers password e other).pbkdf2 password salt n)
      e.ciphertext := by
  simp [Envelope.SealedBy, openingCiphers, clearCiphers]

theorem eq_of_openingCiphers {password p : Bytes} {e e' : Envelope} {other : Tag} (hother : (other : Bytes) ≠ e'.tag)
    {salt : Bytes} {n : Count} (h : e'.SealedBy (openingCiphers password e other)
      ((openingCiphers password e other).pbkdf2 p salt n) e.ciphertext) : p = password ∧ e'.toBytes = e.toBytes := by
  obtain ⟨hct, htag⟩ := h
  simp only [openingCiphers, clearCiphers] at hct htag
  by_cases hkey : List.replicate 32 (if p = password then (0 : UInt8) else 1) = List.replicate 32 0 ∧
      e'.iv = e.iv ∧ e'.header = e.header
  · rw [if_pos hkey] at htag
    obtain ⟨hkey, hiv, hheader⟩ := hkey
    refine ⟨?_, ?_⟩
    · by_contra hne
      rw [if_neg hne] at hkey
      exact absurd hkey (by decide)
    · rw [Envelope.toBytes, Envelope.toBytes, hiv, hheader, ← hct]
      exact congrArg _ (congrArg _ (congrArg _ htag.symm))
  · rw [if_neg hkey] at htag
    exact absurd htag hother

theorem exists_tag_ne (b : Bytes) : ∃ tag : Tag, (tag : Bytes) ≠ b := by
  by_cases h : List.replicate 16 0 = b
  · exact ⟨⟨List.replicate 16 1, rfl⟩, by rw [← h]; decide⟩
  · exact ⟨⟨List.replicate 16 0, rfl⟩, h⟩

theorem decrypt_openingCiphers (password : Bytes) (e : Envelope) (other : Tag) :
    V3Crypt.decrypt (openingCiphers password e other) e.toBytes password = .ok e.ciphertext :=
  V3Crypt.decrypt_ok_iff.mpr ⟨e, rfl, sealedBy_openingCiphers ..⟩

theorem decryptAgrees_iff {ct pw : View} : DecryptAgrees ct pw ↔ DecryptSafe ct pw := by
  constructor
  · intro h
    by_cases hwf : WellFormed ct.bytes
    · left
      obtain ⟨e, he⟩ := hwf
      have hopen (other : Tag) := (decrypt_sameOutcome_iff.mp (h (openingCiphers pw.bytes e other)) _).mpr
        (he ▸ decrypt_openingCiphers pw.bytes e other)
      obtain ⟨e', he'⟩ := V3Crypt.wellFormed_of_decrypt (hopen ⟨List.replicate 16 0, rfl⟩)
      obtain ⟨other, hother⟩ := exists_tag_ne e'.tag
      obtain ⟨e'', he'', hs⟩ := V3Crypt.decrypt_ok_iff.mp (hopen other)
      obtain rfl := Envelope.toBytes_injective (he''.trans he'.symm)
      obtain ⟨hpw, hct⟩ := eq_of_openingCiphers hother hs
      rw [he', he] at hct
      exact ⟨arrayBuffer_eq_bytes_iff.mp hct, arrayBuffer_eq_bytes_iff.mp hpw⟩
    · right
      refine ⟨hwf, ?_⟩
      rintro ⟨e, he⟩
      have hopen := (decrypt_sameOutcome_iff.mp (h (openingCiphers pw.arrayBuffer e ⟨List.replicate 16 0, rfl⟩)) _).mp
        (he ▸ decrypt_openingCiphers ..)
      exact hwf (V3Crypt.wellFormed_of_decrypt hopen)
  · rintro (⟨hct, hpw⟩ | ⟨hpage, hworker⟩) c
    · rw [decrypt_sameOutcome_iff, arrayBuffer_eq_bytes_iff.mpr hct, arrayBuffer_eq_bytes_iff.mpr hpw]
      exact fun b => Iff.rfl
    · rw [decrypt_sameOutcome_iff]
      exact fun b => iff_of_false (fun h => hworker (V3Crypt.wellFormed_of_decrypt h))
        fun h => hpage (V3Crypt.wellFormed_of_decrypt h)

/-! ## Both paths -/

/-- **The worker path is the in-process path** for buffers that cover their `ArrayBuffer` and iterations that are
given, and where both paths fail. -/
theorem worker_agrees_iff (pt ct pw : View) (iter : V3Crypt.Iterations) :
    (EncryptAgrees pt pw iter ↔ EncryptSafe pt pw iter) ∧ (DecryptAgrees ct pw ↔ DecryptSafe ct pw) :=
  ⟨encryptAgrees_iff, decryptAgrees_iff⟩

/-- A password of one byte, in an `ArrayBuffer` of two. -/
def slicedPassword : View := ⟨[0x70, 0x71], 1, 1, by decide⟩

/-- The worker encrypts under the byte before the slice as well, and without iterations it does not encrypt. -/
theorem worker_ignores_slices :
    ¬SameOutcome
        (promisedEncrypt sampleCiphers true (bufferFromArrayBuffer [1]) slicedPassword (.integer 1) zeroSalt zeroIV)
        (promisedEncrypt sampleCiphers false (bufferFromArrayBuffer [1]) slicedPassword (.integer 1) zeroSalt zeroIV) ∧
      promisedEncrypt sampleCiphers true (bufferFromArrayBuffer [1]) (bufferFromArrayBuffer [0x71]) .undefined
          zeroSalt zeroIV = some (.rejected "Invalid input") ∧
      ∃ b, promisedEncrypt sampleCiphers false (bufferFromArrayBuffer [1]) (bufferFromArrayBuffer [0x71]) .undefined
          zeroSalt zeroIV = some (.resolved b) := by
  refine ⟨?_, by decide +kernel, ?_⟩
  · rw [encrypt_sameOutcome_iff (by decide)]
    intro h
    exact absurd ((h _).mpr rfl) (by decide +kernel)
  · obtain ⟨b, hb⟩ := @encrypt_falsy sampleCiphers [1] [0x71] .undefined rfl zeroSalt zeroIV
    refine ⟨b, ?_⟩
    rw [promisedEncrypt, if_neg (by decide), bytes_bufferFromArrayBuffer, bytes_bufferFromArrayBuffer, hb]
    rfl

end WorkerCrypt

end JsSdk
