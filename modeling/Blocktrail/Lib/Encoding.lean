import Blocktrail.Lib.Text

/-! # Bytes as text

`decode` is lenient, as a `Buffer` is: it skips what is outside the alphabet and takes the URL-safe
alphabet too.
-/

open Text

namespace Base64

/-- Six bits as a character. -/
def digit (v : Nat) : Char :=
  if v < 26 then Char.ofNat (v + 65)
  else if v < 52 then Char.ofNat (v + 71)
  else if v < 62 then Char.ofNat (v - 4)
  else if v = 62 then '+' else '/'

def value? (c : Char) : Option Nat :=
  if 'A' ≤ c ∧ c ≤ 'Z' then some (c.toNat - 65)
  else if 'a' ≤ c ∧ c ≤ 'z' then some (c.toNat - 71)
  else if '0' ≤ c ∧ c ≤ '9' then some (c.toNat + 4)
  else if c = '+' ∨ c = '-' then some 62
  else if c = '/' ∨ c = '_' then some 63
  else none

/-- The sextets of the bytes, the last one filled up with zero bits. -/
def sextets : List UInt8 → List Nat
  | [] => []
  | [a] => [a.toNat / 4, a.toNat % 4 * 16]
  | [a, b] => [a.toNat / 4, a.toNat % 4 * 16 + b.toNat / 16, b.toNat % 16 * 4]
  | a :: b :: c :: rest =>
    a.toNat / 4 :: (a.toNat % 4 * 16 + b.toNat / 16) :: (b.toNat % 16 * 4 + c.toNat / 64) ::
      c.toNat % 64 :: sextets rest

def padding (n : Nat) : Str := List.replicate ((3 - n % 3) % 3) '='

def encode (b : List UInt8) : Str := (sextets b).map digit ++ padding b.length

/-- Four sextets at a time. A single sextet at the end is dropped. -/
def bytes : List Nat → List UInt8
  | v0 :: v1 :: v2 :: v3 :: rest =>
    UInt8.ofNat (v0 * 4 + v1 / 16) :: UInt8.ofNat (v1 % 16 * 16 + v2 / 4) :: UInt8.ofNat (v2 % 4 * 64 + v3) ::
      bytes rest
  | [v0, v1, v2] => [UInt8.ofNat (v0 * 4 + v1 / 16), UInt8.ofNat (v1 % 16 * 16 + v2 / 4)]
  | [v0, v1] => [UInt8.ofNat (v0 * 4 + v1 / 16)]
  | _ => []

def decode (s : Str) : List UInt8 := bytes (s.filterMap value?)

theorem value_digit : ∀ v < 64, value? (digit v) = some v := by decide

theorem value_pad : value? '=' = none := by decide

theorem sextets_lt (b : List UInt8) : ∀ v ∈ sextets b, v < 64 := by
  fun_induction sextets b with
  | case1 => simp
  | case2 a =>
    have := a.toNat_lt
    simp only [List.mem_cons, List.not_mem_nil, or_false, forall_eq_or_imp, forall_eq]
    omega
  | case3 a b =>
    have := a.toNat_lt
    have := b.toNat_lt
    simp only [List.mem_cons, List.not_mem_nil, or_false, forall_eq_or_imp, forall_eq]
    omega
  | case4 a b c rest ih =>
    have := a.toNat_lt
    have := b.toNat_lt
    have := c.toNat_lt
    simp only [List.mem_cons, forall_eq_or_imp]
    exact ⟨by omega, by omega, by omega, by omega, ih⟩

theorem ofNat_of_eq {a : UInt8} {n : Nat} (h : n = a.toNat) : UInt8.ofNat n = a := by
  rw [h, UInt8.ofNat_toNat]

/-- Four sextets hold three bytes, and a shorter group at the end the bytes it was made of. -/
theorem bytes_sextets (b : List UInt8) : bytes (sextets b) = b := by
  fun_induction sextets b with
  | case1 => rfl
  | case2 a =>
    have := a.toNat_lt
    rw [bytes, ofNat_of_eq (a := a) (by omega)]
  | case3 a b =>
    have := a.toNat_lt
    have := b.toNat_lt
    rw [bytes, ofNat_of_eq (a := a) (by omega), ofNat_of_eq (a := b) (by omega)]
  | case4 a b c rest ih =>
    have := a.toNat_lt
    have := b.toNat_lt
    have := c.toNat_lt
    rw [bytes, ih, ofNat_of_eq (a := a) (by omega), ofNat_of_eq (a := b) (by omega),
      ofNat_of_eq (a := c) (by omega)]

theorem filterMap_digits (vs : List Nat) (h : ∀ v ∈ vs, v < 64) : (vs.map digit).filterMap value? = vs := by
  induction vs with
  | nil => rfl
  | cons v vs ih =>
    rw [List.map_cons, List.filterMap_cons, value_digit v (h v List.mem_cons_self),
      ih fun u hu => h u (List.mem_cons_of_mem v hu)]

theorem filterMap_padding (n : Nat) : (padding n).filterMap value? = [] := by
  rw [padding, List.filterMap_eq_nil_iff]
  intro c hc
  rw [List.eq_of_mem_replicate hc, value_pad]

/-- **Round trip.** -/
theorem decode_encode (b : List UInt8) : decode (encode b) = b := by
  rw [decode, encode, List.filterMap_append, filterMap_digits _ (sextets_lt b), filterMap_padding,
    List.append_nil, bytes_sextets]

theorem length_encode (b : List UInt8) : (encode b).length = 4 * ((b.length + 2) / 3) := by
  have hsextets : (sextets b).length + (3 - b.length % 3) % 3 = 4 * ((b.length + 2) / 3) := by
    fun_induction sextets b with
    | case1 => simp
    | case2 a => simp
    | case3 a b => simp
    | case4 a b c rest ih =>
      simp only [List.length_cons]
      omega
  rw [encode, List.length_append, List.length_map, padding, List.length_replicate, hsextets]

end Base64

namespace Hex

def digit (v : Nat) : Char := Nat.digitChar v

def encode (b : List UInt8) : Str := b.flatMap fun x => [digit (x.toNat / 16), digit (x.toNat % 16)]

theorem length_encode (b : List UInt8) : (encode b).length = 2 * b.length := by
  induction b with
  | nil => rfl
  | cons x b ih =>
    have h : encode (x :: b) = digit (x.toNat / 16) :: digit (x.toNat % 16) :: encode b := rfl
    rw [h, List.length_cons, List.length_cons, ih, List.length_cons]
    omega

theorem digit_lt_iff {m n : Nat} (hm : m < 16) (hn : n < 16) : digit m < digit n ↔ m < n := by
  have h : ∀ m : Fin 16, ∀ n : Fin 16, digit m < digit n ↔ m < n := by decide
  exact h ⟨m, hm⟩ ⟨n, hn⟩

theorem digit_eq_iff {m n : Nat} (hm : m < 16) (hn : n < 16) : digit m = digit n ↔ m = n := by
  have h : ∀ m : Fin 16, ∀ n : Fin 16, digit m = digit n ↔ m = n := by decide
  exact (h ⟨m, hm⟩ ⟨n, hn⟩).trans (by simp)

theorem encode_lt_encode {a b : List UInt8} : encode a < encode b ↔ a.map UInt8.toNat < b.map UInt8.toNat := by
  induction a generalizing b with
  | nil => cases b <;> simp [encode]
  | cons x a ih =>
    cases b with
    | nil => simp [encode]
    | cons y b =>
      have hx := x.toNat_lt
      have hy := y.toNat_lt
      have henc : ∀ z c, encode (z :: c) = digit (z.toNat / 16) :: digit (z.toNat % 16) :: encode c := fun _ _ => rfl
      simp only [henc, List.map_cons, List.cons_lt_cons_iff, ih]
      rw [digit_lt_iff (by omega) (by omega), digit_lt_iff (by omega) (by omega), digit_eq_iff (by omega) (by omega),
        digit_eq_iff (by omega) (by omega)]
      constructor
      · rintro (h | ⟨h, h' | ⟨h', hab⟩⟩)
        · exact Or.inl (by omega)
        · exact Or.inl (by omega)
        · exact Or.inr ⟨by omega, hab⟩
      · rintro (h | ⟨h, hab⟩)
        · by_cases hd : x.toNat / 16 < y.toNat / 16
          · exact Or.inl hd
          · exact Or.inr ⟨by omega, Or.inl (by omega)⟩
        · exact Or.inr ⟨by omega, Or.inr ⟨by omega, hab⟩⟩

/-- Two digits at a time, up to the first pair that is none. -/
def decode : Str → List UInt8
  | x :: y :: rest =>
    match hexValue? x, hexValue? y with
    | some u, some v => UInt8.ofNat (16 * u + v) :: decode rest
    | _, _ => []
  | _ => []

theorem hexValue_digit : ∀ v < 16, hexValue? (digit v) = some v := by decide

/-- **Round trip.** -/
theorem decode_encode (b : List UInt8) : decode (encode b) = b := by
  induction b with
  | nil => rfl
  | cons x b ih =>
    have h : encode (x :: b) = digit (x.toNat / 16) :: digit (x.toNat % 16) :: encode b := rfl
    have := x.toNat_lt
    rw [h, decode, hexValue_digit _ (by omega), hexValue_digit _ (by omega)]
    dsimp only
    rw [ih, Nat.div_add_mod, UInt8.ofNat_toNat]

theorem encode_append (a b : List UInt8) : encode (a ++ b) = encode a ++ encode b := List.flatMap_append

theorem encode_injective : Function.Injective encode := Function.LeftInverse.injective decode_encode

end Hex

namespace LittleEndian

/-- The low 32 bits in four bytes, the lowest first. -/
def encode32 (n : Nat) : List UInt8 :=
  [UInt8.ofNat n, UInt8.ofNat (n / 256), UInt8.ofNat (n / 65536), UInt8.ofNat (n / 16777216)]

def decode32 : List UInt8 → Nat
  | [] => 0
  | x :: b => x.toNat + 256 * decode32 b

@[simp] theorem length_encode32 (n : Nat) : (encode32 n).length = 4 := rfl

theorem decode32_encode32 {n : Nat} (h : n < 2 ^ 32) : decode32 (encode32 n) = n := by
  simp only [encode32, decode32, UInt8.toNat_ofNat']
  omega

theorem decode32_lt {b : List UInt8} (h : b.length = 4) : decode32 b < 2 ^ 32 := by
  obtain ⟨x, y, z, w, rfl⟩ := List.length_eq_four.mp h
  have := x.toNat_lt
  have := y.toNat_lt
  have := z.toNat_lt
  have := w.toNat_lt
  simp only [decode32]
  omega

theorem encode32_decode32 {b : List UInt8} (h : b.length = 4) : encode32 (decode32 b) = b := by
  obtain ⟨x, y, z, w, rfl⟩ := List.length_eq_four.mp h
  have := x.toNat_lt
  have := y.toNat_lt
  have := z.toNat_lt
  have := w.toNat_lt
  simp only [encode32, decode32, List.cons.injEq, and_true, ← UInt8.toNat_inj, UInt8.toNat_ofNat']
  omega

end LittleEndian

/-- The bytes of a string. -/
def utf8 (s : Str) : List UInt8 := s.flatMap String.utf8EncodeChar
