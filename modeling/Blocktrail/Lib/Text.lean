import Mathlib.Algebra.Order.Ring.Int
import Mathlib.Data.Char
import Mathlib.Data.List.Basic
import Mathlib.Data.List.Lex
import Mathlib.Data.List.TakeWhile

/-! # Strings and numbers, as scripting languages use them

A string is its list of characters. A number is a double: the integers it holds exactly are those
that `double` leaves alone.
-/

namespace Text

abbrev Str := List Char

instance : Coe String Str := ⟨String.toList⟩

instance : LawfulBEq Str := inferInstance

/-- The length in UTF-16: a character outside the first plane counts twice. -/
def length16 (s : Str) : Nat := (s.map fun c => if c.toNat < 0x10000 then 1 else 2).sum

/-- `substr(n)`, in UTF-16. Of a character that is cut in two, a replacement character is left. -/
def substr16 : Nat → Str → Str
  | _, [] => []
  | n, c :: s =>
    if n = 0 then c :: s
    else if c.toNat < 0x10000 then substr16 (n - 1) s
    else if n = 1 then Char.ofNat 0xFFFD :: s
    else substr16 (n - 2) s

theorem substr16_append (t u : Str) : substr16 (length16 t) (t ++ u) = u := by
  induction t with
  | nil => cases u <;> rfl
  | cons c t ih =>
    have hlength : length16 (c :: t) = (if c.toNat < 0x10000 then 1 else 2) + length16 t := rfl
    rw [hlength, List.cons_append, substr16]
    by_cases hc : c.toNat < 0x10000
    · rw [if_pos hc, if_neg (by omega), if_pos hc, Nat.add_sub_cancel_left]
      exact ih
    · rw [if_neg hc, if_neg (by omega), if_neg hc, if_neg (by omega), Nat.add_sub_cancel_left]
      exact ih

/-! ## Letters -/

/-- JavaScript's `toLowerCase`, by the Unicode tables of the host. A slash has no case, and no letter depends on what is
beyond one. -/
structure LowerCase where
  toLowerCase : Str → Str
  slash : ∀ s t, toLowerCase (s ++ '/' :: t) = toLowerCase s ++ '/' :: toLowerCase t
  root : ∀ s, toLowerCase ('M' :: s) = toLowerCase ('m' :: s)

/-- Lower case, of ASCII letters. -/
def lowerAscii (s : Str) : Str := s.map Char.toLower

theorem lowerAscii_slash (s t : Str) : lowerAscii (s ++ '/' :: t) = lowerAscii s ++ '/' :: lowerAscii t :=
  List.map_append

theorem lowerAscii_root (s : Str) : lowerAscii ('M' :: s) = lowerAscii ('m' :: s) := rfl

/-- A host that knows the letters of ASCII. -/
def LowerCase.ascii : LowerCase := ⟨lowerAscii, lowerAscii_slash, lowerAscii_root⟩

/-! ## Replace and split -/

/-- Replaces the first `c`, where there is one. -/
def replaceFirst (c : Char) (by' : Str) : Str → Str
  | [] => []
  | x :: xs => if x = c then by' ++ xs else x :: replaceFirst c by' xs

theorem replaceFirst_of_not_mem {c : Char} {r s : Str} (h : c ∉ s) : replaceFirst c r s = s := by
  induction s with
  | nil => rfl
  | cons x xs ih =>
    simp only [List.mem_cons, not_or] at h
    rw [replaceFirst, if_neg (Ne.symm h.1), ih h.2]

theorem replaceFirst_append {c : Char} {r s t : Str} (h : c ∉ s) :
    replaceFirst c r (s ++ c :: t) = s ++ r ++ t := by
  induction s with
  | nil => simp [replaceFirst]
  | cons x xs ih =>
    simp only [List.mem_cons, not_or] at h
    rw [List.cons_append, replaceFirst, if_neg (Ne.symm h.1), ih h.2]
    rfl

/-! ## Collations -/

/-- The order of texts on a host. It depends on the locale, and is consistent. -/
structure Collation where
  localeCompare : Str → Str → Ordering
  consistent : Std.TransCmp localeCompare

theorem transCmp_compareOn (f : Str → Str) : Std.TransCmp (compareOn f) := inferInstance

/-- Texts in the order of what they are read as. -/
def Collation.on (f : Str → Str) : Collation := ⟨compareOn f, transCmp_compareOn f⟩

/-! ## Decimal numerals -/

/-- The numeral of a natural number. -/
def dec (n : Nat) : Str := Nat.toDigits 10 n

@[simp] theorem ofDigitChars_dec (n : Nat) : Nat.ofDigitChars 10 (dec n) 0 = n := Nat.ofDigitChars_ten_toDigits

theorem dec_injective {m n : Nat} (h : dec m = dec n) : m = n := by
  have := congrArg (fun s => Nat.ofDigitChars 10 s 0) h
  simpa only [ofDigitChars_dec] using this

theorem isDigit_of_mem_dec {n : Nat} {c : Char} (h : c ∈ dec n) : c.isDigit :=
  Nat.isDigit_of_mem_toDigits (by decide) (by decide) h

theorem dec_ne_nil (n : Nat) : dec n ≠ [] := Nat.toDigits_ne_nil

theorem not_mem_dec {c : Char} (hc : c.isDigit = false) (n : Nat) : c ∉ dec n := by
  intro h
  rw [isDigit_of_mem_dec h] at hc
  cases hc

/-- The white space that JavaScript trims. -/
def isSpace (c : Char) : Bool :=
  c.toNat ∈ [9, 10, 11, 12, 13, 32, 0xA0, 0x1680, 0x2028, 0x2029, 0x202F, 0x205F, 0x3000, 0xFEFF] ∨
    0x2000 ≤ c.toNat ∧ c.toNat ≤ 0x200A

def trim (s : Str) : Str := ((s.dropWhile isSpace).reverse.dropWhile isSpace).reverse

/-- What a signless `parseInt` reads: the digits at the front, `none` for NaN. -/
def parseDigits (s : Str) : Option Int :=
  match s.takeWhile Char.isDigit with
  | [] => none
  | ds => some (Nat.ofDigitChars 10 ds 0)

/-- `parseInt(s, 10)`: white space, a sign, digits. `none` is NaN. Numerals of `2^53` and more are not rounded here. -/
def parseInt10 (s : Str) : Option Int :=
  match s.dropWhile isSpace with
  | '-' :: t => (parseDigits t).map (- ·)
  | '+' :: t => parseDigits t
  | t => parseDigits t

/-- The value of a hexadecimal digit. -/
def hexValue? (c : Char) : Option Nat :=
  if c.isDigit then some (c.toNat - 48)
  else if 'a' ≤ c ∧ c ≤ 'f' then some (c.toNat - 87)
  else if 'A' ≤ c ∧ c ≤ 'F' then some (c.toNat - 55)
  else none

/-- `parseInt(s)` with no radix: `0x` makes it hexadecimal. -/
def parseInt (s : Str) : Option Int :=
  let body (t : Str) : Option Int :=
    match t with
    | '0' :: x :: ds =>
      if x = 'x' ∨ x = 'X' then
        match ds.map hexValue? |>.takeWhile Option.isSome with
        | [] => none
        | vs => some ((vs.filterMap id).foldl (fun n v => 16 * n + v) 0 : Nat)
      else parseDigits t
    | _ => parseDigits t
  match s.dropWhile isSpace with
  | '-' :: t => (body t).map (- ·)
  | '+' :: t => body t
  | t => body t

theorem takeWhile_digits {s : Str} (h : ∀ c ∈ s, c.isDigit) : s.takeWhile Char.isDigit = s :=
  List.takeWhile_eq_self_iff.mpr h

theorem takeWhile_dec (n : Nat) : (dec n).takeWhile Char.isDigit = dec n :=
  takeWhile_digits fun _ => isDigit_of_mem_dec

theorem parseDigits_digits {s : Str} (hne : s ≠ []) (h : ∀ c ∈ s, c.isDigit) :
    parseDigits s = some (Nat.ofDigitChars 10 s 0 : Int) := by
  unfold parseDigits
  rw [takeWhile_digits h]
  split
  · contradiction
  · rfl

theorem parseDigits_dec (n : Nat) : parseDigits (dec n) = some (n : Int) := by
  rw [parseDigits_digits (dec_ne_nil n) fun _ => isDigit_of_mem_dec, ofDigitChars_dec]

theorem dec_eq_cons (n : Nat) : ∃ c cs, dec n = c :: cs ∧ c.isDigit := by
  rcases h : dec n with _ | ⟨c, cs⟩
  · exact absurd h (dec_ne_nil n)
  · exact ⟨c, cs, rfl, isDigit_of_mem_dec (n := n) (h ▸ List.mem_cons_self)⟩

theorem digit_bounds {c : Char} (h : c.isDigit) : 48 ≤ c.toNat ∧ c.toNat ≤ 57 := by
  simp only [Char.isDigit, Bool.and_eq_true, decide_eq_true_eq, ge_iff_le, UInt32.le_iff_toNat_le] at h
  exact h

theorem isSpace_of_isDigit {c : Char} (h : c.isDigit) : isSpace c = false := by
  have hc := digit_bounds h
  unfold isSpace
  simp only [List.mem_cons, List.not_mem_nil, or_false, decide_eq_false_iff_not]
  omega

theorem parseInt10_digits {s : Str} (hne : s ≠ []) (h : ∀ c ∈ s, c.isDigit) :
    parseInt10 s = some (Nat.ofDigitChars 10 s 0 : Int) := by
  rw [← parseDigits_digits hne h]
  cases s with
  | nil => contradiction
  | cons c cs =>
    have hc : c.isDigit := h c List.mem_cons_self
    unfold parseInt10
    rw [List.dropWhile_cons, isSpace_of_isDigit hc]
    simp only [Bool.false_eq_true, if_false]
    split
    · next e => cases e; exact absurd hc (by decide)
    · next e => cases e; exact absurd hc (by decide)
    · rfl

theorem dropWhile_dec (n : Nat) : (dec n).dropWhile isSpace = dec n := by
  obtain ⟨c, cs, h, hc⟩ := dec_eq_cons n
  rw [h, List.dropWhile_cons, isSpace_of_isDigit hc]
  rfl

theorem parseInt10_dec (n : Nat) : parseInt10 (dec n) = some (n : Int) := by
  rw [parseInt10_digits (dec_ne_nil n) fun _ => isDigit_of_mem_dec, ofDigitChars_dec]

/-- A numeral has no `x`, so `parseInt` reads it in base ten. -/
theorem parseInt_dec (n : Nat) : parseInt (dec n) = some (n : Int) := by
  obtain ⟨c, cs, h, hc⟩ := dec_eq_cons n
  unfold parseInt
  simp only
  rw [dropWhile_dec, h]
  split
  · next e => cases e; exact absurd hc (by decide)
  · next e => cases e; exact absurd hc (by decide)
  · split
    · next x ds e =>
      have hx : x.isDigit := isDigit_of_mem_dec (n := n) (by rw [h, e]; simp)
      rw [if_neg]
      · rw [← h, parseDigits_dec]
      · rintro (rfl | rfl) <;> exact absurd hx (by decide)
    · rw [← h, parseDigits_dec]

/-! ## Doubles -/

/-- The double nearest to a natural number, ties to even; `none` is infinity. -/
def doubleNat (n : Nat) : Option Nat :=
  if n < 2 ^ 53 then some n
  else
    let e := Nat.log2 n - 52
    let q := n / 2 ^ e
    let r := n % 2 ^ e
    let up := 2 ^ (e - 1) < r ∨ (r = 2 ^ (e - 1) ∧ q % 2 = 1)
    let m := (if up then q + 1 else q) * 2 ^ e
    if m < 2 ^ 1024 then some m else none

/-- The double nearest to an integer. -/
def double (z : Int) : Option Int :=
  match doubleNat z.natAbs with
  | none => none
  | some m => some (if z < 0 then -m else m)

/-- The first digit a double of `10^21` or more is printed with, before `e+`: the digit `d` of the
shortest numeral that rounds to it. -/
def exponentDigit (m : Nat) : Nat :=
  let p := 10 ^ ((dec m).length - 1)
  let d := m / p
  if doubleNat ((d + 1) * p) = some m then (if d = 9 then 1 else d + 1) else d

/-- `parseInt(x, 10)` of a number that holds an integer: from `10^21` on it is printed as `1e+21`. -/
def parseIntNumber (z : Int) : Int :=
  if z.natAbs < 10 ^ 21 then z
  else if z < 0 then -(exponentDigit z.natAbs) else exponentDigit z.natAbs

theorem double_of_lt {n : Nat} (h : n < 2 ^ 53) : double n = some (n : Int) := by
  simp only [double, Int.natAbs_natCast, doubleNat, if_pos h, if_neg (Int.not_lt.mpr (Int.natCast_nonneg n))]

/-- A power of two is a double, so that no number below it is rounded past it. -/
theorem doubleNat_le {n k : Nat} (h : n ≤ 2 ^ k) (hk : k < 1024) : ∃ m, doubleNat n = some m ∧ m ≤ 2 ^ k := by
  have hpow : ∀ m, k < m → 2 ^ k < 2 ^ m := fun m => Nat.pow_lt_pow_right (by decide)
  have hmax := hpow 1024 hk
  unfold doubleNat
  generalize 2 ^ 1024 = limit at hmax ⊢
  split_ifs with hsmall
  · exact ⟨n, rfl, h⟩
  · have hlog : Nat.log2 n < k + 1 := (Nat.log2_lt (by omega)).mpr (by rw [Nat.pow_succ]; omega)
    generalize he : Nat.log2 n - 52 = e
    have hsplit : 2 ^ (k - e) * 2 ^ e = 2 ^ k := by rw [← Nat.pow_add, Nat.sub_add_cancel (by omega)]
    have hdiv := Nat.div_add_mod n (2 ^ e)
    have hpos := Nat.two_pow_pos (e - 1)
    have hlow : n / 2 ^ e * 2 ^ e ≤ n := Nat.div_mul_le_self n (2 ^ e)
    rw [Nat.mul_comm] at hdiv
    dsimp only
    split_ifs with hup hfits hfits
    · have hlt : n / 2 ^ e * 2 ^ e < 2 ^ (k - e) * 2 ^ e := by omega
      have hq : n / 2 ^ e + 1 ≤ 2 ^ (k - e) := Nat.lt_of_mul_lt_mul_right hlt
      exact ⟨_, rfl, hsplit ▸ Nat.mul_le_mul_right _ hq⟩
    · have hlt : n / 2 ^ e * 2 ^ e < 2 ^ (k - e) * 2 ^ e := by omega
      have hq : n / 2 ^ e + 1 ≤ 2 ^ (k - e) := Nat.lt_of_mul_lt_mul_right hlt
      have hle := Nat.mul_le_mul_right (2 ^ e) hq
      omega
    · exact ⟨_, rfl, by omega⟩
    · omega

theorem double_bounds {z : Int} {k : Nat} (h : z.natAbs ≤ 2 ^ k) (hk : k < 1024) :
    ∃ m, double z = some m ∧ m.natAbs ≤ 2 ^ k := by
  obtain ⟨m, hm, hle⟩ := doubleNat_le h hk
  unfold double
  rw [hm]
  refine ⟨_, rfl, ?_⟩
  split_ifs
  · rw [Int.natAbs_neg]
    exact hle
  · exact hle

example : double (2 ^ 53 + 1) = some (2 ^ 53) := by decide +kernel
example : parseIntNumber (10 ^ 23) = 1 := by decide +kernel

end Text
