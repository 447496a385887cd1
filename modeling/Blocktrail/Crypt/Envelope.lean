import Blocktrail.Lib.Encoding
import Blocktrail.Crypt.Ciphers

/-! # The ciphertext format of version 3

`saltLen8 || salt || iterations32 || iv || ciphertext || tag`. The part before the IV is the header, which
the tag authenticates.
-/

open Bitcoin

namespace Crypt

/-- The bytes before the IV. -/
def headerOf (salt : Bytes) (iterations : Nat) : Bytes :=
  UInt8.ofNat salt.length :: (salt ++ LittleEndian.encode32 iterations)

/-- The parts of a ciphertext of the format. -/
structure Envelope where
  salt : Bytes
  iterations : UInt32
  iv : Bytes
  ciphertext : Bytes
  tag : Bytes
  salt_pos : 0 < salt.length
  salt_le : salt.length ≤ 0x80
  iv_length : iv.length = 16
  tag_length : tag.length = 16

namespace Envelope

def header (e : Envelope) : Bytes := headerOf e.salt e.iterations.toNat

def toBytes (e : Envelope) : Bytes := e.header ++ (e.iv ++ (e.ciphertext ++ e.tag))

/-- Ciphertext and tag are those of the plaintext under the key, and the tag authenticates the header. -/
def SealedBy (c : Ciphers) (e : Envelope) (key : Key) (plaintext : Bytes) : Prop :=
  (c.gcmSeal key e.iv plaintext e.header).1 = e.ciphertext ∧
    ((c.gcmSeal key e.iv plaintext e.header).2 : Bytes) = e.tag

/-- The format: the key is derived with the salt and the iterations of the header. -/
def Seals (c : Ciphers) (e : Envelope) (password plaintext : Bytes) : Prop :=
  ∃ h : 0 < e.iterations.toNat, e.SealedBy c (c.pbkdf2 password e.salt ⟨e.iterations.toNat, h⟩) plaintext

/-! ## Where the parts are -/

variable (e : Envelope)

theorem length_headerOf (salt : Bytes) (n : Nat) : (headerOf salt n).length = salt.length + 5 := by
  simp [headerOf]

theorem length_toBytes : e.toBytes.length = e.salt.length + 37 + e.ciphertext.length := by
  simp only [toBytes, header, List.length_append, length_headerOf, e.iv_length, e.tag_length]
  omega

theorem toBytes_eq : e.toBytes =
    UInt8.ofNat e.salt.length :: (e.salt ++ (LittleEndian.encode32 e.iterations.toNat ++
      (e.iv ++ (e.ciphertext ++ e.tag)))) := by
  simp [toBytes, header, headerOf, List.append_assoc]

theorem toNat_saltLen : (UInt8.ofNat e.salt.length).toNat = e.salt.length := by
  have := e.salt_le
  rw [UInt8.toNat_ofNat']
  omega

theorem toBytes_zero : e.toBytes[0]? = some (UInt8.ofNat e.salt.length) := by
  rw [toBytes_eq, List.getElem?_cons_zero]

theorem drop_toBytes (n : Nat) : e.toBytes.drop (1 + n) =
    (e.salt ++ (LittleEndian.encode32 e.iterations.toNat ++ (e.iv ++ (e.ciphertext ++ e.tag)))).drop n := by
  rw [toBytes_eq, Nat.add_comm, List.drop_succ_cons]

theorem drop_salt : e.toBytes.drop (1 + e.salt.length) =
    LittleEndian.encode32 e.iterations.toNat ++ (e.iv ++ (e.ciphertext ++ e.tag)) := by
  rw [drop_toBytes, List.drop_left]

theorem drop_header : e.toBytes.drop (1 + e.salt.length + 4) = e.iv ++ (e.ciphertext ++ e.tag) := by
  rw [← List.drop_drop, drop_salt]
  rfl

theorem drop_iv : e.toBytes.drop (1 + e.salt.length + 4 + 16) = e.ciphertext ++ e.tag := by
  rw [← List.drop_drop, drop_header]
  exact List.drop_left' e.iv_length

theorem take_header : e.toBytes.take (1 + e.salt.length + 4) = e.header := by
  have h : e.header.length = 1 + e.salt.length + 4 := by
    rw [header, length_headerOf]
    omega
  exact List.take_left' h

theorem toBytes_injective : Function.Injective toBytes := by
  intro e f h
  have hsalt : e.salt.length = f.salt.length := by
    have := congrArg (fun b : Bytes => b[0]?) h
    simp only [toBytes_zero, Option.some.injEq] at this
    rw [← e.toNat_saltLen, this, f.toNat_saltLen]
  rw [toBytes_eq, toBytes_eq, List.cons.injEq] at h
  obtain ⟨hs, h⟩ := List.append_inj h.2 hsalt
  obtain ⟨hn, h⟩ := List.append_inj h rfl
  obtain ⟨hiv, h⟩ := List.append_inj h (by rw [e.iv_length, f.iv_length])
  obtain ⟨hct, htag⟩ := List.append_inj' h (by rw [e.tag_length, f.tag_length])
  have hcount : e.iterations = f.iterations := by
    have := congrArg LittleEndian.decode32 hn
    rw [LittleEndian.decode32_encode32 e.iterations.toNat_lt, LittleEndian.decode32_encode32 f.iterations.toNat_lt] at this
    exact UInt32.toNat_inj.mp this
  cases e
  cases f
  simp_all only

theorem join_parts {b : Bytes} {x : UInt8} (hx : b[0]? = some x) (hlen : 1 + x.toNat + 4 ≤ b.length) (k : Nat) :
    x :: ((b.drop 1).take x.toNat ++
      (LittleEndian.encode32 (LittleEndian.decode32 ((b.drop (1 + x.toNat)).take 4)) ++
        ((b.drop (1 + x.toNat + 4)).take 16 ++
          ((b.drop (1 + x.toNat + 4 + 16)).take k ++ (b.drop (1 + x.toNat + 4 + 16)).drop k)))) = b := by
  have hcount : ((b.drop (1 + x.toNat)).take 4).length = 4 := by
    rw [List.length_take, List.length_drop]
    omega
  rw [LittleEndian.encode32_decode32 hcount, List.take_append_drop, ← List.drop_drop (i := 16),
    List.take_append_drop, ← List.drop_drop (i := 4), List.take_append_drop, ← List.drop_drop (i := x.toNat),
    List.take_append_drop]
  rcases b with _ | ⟨y, b⟩
  · cases hx
  · cases hx
    rfl

theorem exists_of_bytes {b : Bytes} {x : UInt8} (hx : b[0]? = some x) (h0 : 0 < x.toNat) (h1 : x.toNat ≤ 0x80)
    (hlen : 1 + x.toNat + 4 + 16 + 16 ≤ b.length) : ∃ e : Envelope, e.toBytes = b := by
  have hsalt : ((b.drop 1).take x.toNat).length = x.toNat := by
    rw [List.length_take, List.length_drop]
    omega
  have hcount : ((b.drop (1 + x.toNat)).take 4).length = 4 := by
    rw [List.length_take, List.length_drop]
    omega
  have hiter : (UInt32.ofNat (LittleEndian.decode32 ((b.drop (1 + x.toNat)).take 4))).toNat =
      LittleEndian.decode32 ((b.drop (1 + x.toNat)).take 4) := by
    rw [UInt32.toNat_ofNat']
    exact Nat.mod_eq_of_lt (LittleEndian.decode32_lt hcount)
  refine ⟨{
    salt := (b.drop 1).take x.toNat
    iterations := UInt32.ofNat (LittleEndian.decode32 ((b.drop (1 + x.toNat)).take 4))
    iv := (b.drop (1 + x.toNat + 4)).take 16
    ciphertext := (b.drop (1 + x.toNat + 4 + 16)).take (b.length - (1 + x.toNat + 4 + 16 + 16))
    tag := (b.drop (1 + x.toNat + 4 + 16)).drop (b.length - (1 + x.toNat + 4 + 16 + 16))
    salt_pos := by rw [hsalt]; exact h0
    salt_le := by rw [hsalt]; exact h1
    iv_length := by rw [List.length_take, List.length_drop]; omega
    tag_length := by rw [List.length_drop, List.length_drop]; omega }, ?_⟩
  rw [toBytes_eq]
  dsimp only
  rw [hsalt, hiter, UInt8.ofNat_toNat]
  exact join_parts hx (by omega) _

end Envelope

/-- The byte string has the parts of an envelope. -/
def WellFormed (b : Bytes) : Prop := ∃ e : Envelope, e.toBytes = b

end Crypt
