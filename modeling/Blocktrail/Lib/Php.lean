import Mathlib.Data.List.Sort
import Blocktrail.Lib.Text

/-! # Strings and sorting, as PHP has them

`==`, `<` and `>` compare two numeric strings as numbers, and other strings byte by byte.
-/

open Text

namespace Php

/-! ## Functions on strings -/

/-- `str_replace($c, "", $s)`. -/
def remove (c : Char) (s : Str) : Str := s.filter (· ≠ c)

/-- `(int)$s`: the digits at the front, at most `PHP_INT_MAX`. -/
def intOf (s : Str) : Nat := min (Nat.ofDigitChars 10 (s.takeWhile Char.isDigit) 0) (2 ^ 63 - 1)

def ofInt : Int → Str
  | .ofNat n => dec n
  | .negSucc n => '-' :: dec (n + 1)

/-- `implode($sep, $parts)`. -/
def implode (sep : Char) : List Str → Str
  | [] => []
  | x :: xs => x ++ xs.flatMap (sep :: ·)

theorem implode_append (sep : Char) (x : Str) (xs ys : List Str) :
    implode sep (x :: (xs ++ ys)) = implode sep (x :: xs) ++ ys.flatMap (sep :: ·) := by
  simp [implode]

theorem flatMap_sep (sep : Char) (y : Str) (ys : List Str) :
    (y :: ys).flatMap (sep :: ·) = sep :: implode sep (y :: ys) := rfl

theorem splitOn_implode {sep : Char} {x : Str} {xs : List Str} (h : ∀ y ∈ x :: xs, sep ∉ y) :
    (implode sep (x :: xs)).splitOn sep = x :: xs := by
  induction xs generalizing x with
  | nil =>
    rw [implode, List.flatMap_nil, List.append_nil]
    exact List.splitOn_eq_singleton (h x List.mem_cons_self)
  | cons y ys ih =>
    rw [implode, flatMap_sep, List.splitOn_append_cons_self_of_not_mem (h x List.mem_cons_self),
      ih fun z hz => h z (List.mem_cons_of_mem x hz)]

theorem remove_append_of_not_mem {c : Char} {s : Str} (h : c ∉ s) : remove c (s ++ [c]) = s := by
  have hs : s.filter (· ≠ c) = s := List.filter_eq_self.mpr fun x hx => by
    simp only [decide_eq_true_eq]
    rintro rfl
    exact h hx
  simp only [remove, List.filter_append, hs]
  simp

theorem remove_of_not_mem {c : Char} {s : Str} (h : c ∉ s) : remove c s = s :=
  List.filter_eq_self.mpr fun x hx => by
    simp only [decide_eq_true_eq]
    rintro rfl
    exact h hx

theorem intOf_dec (n : Nat) : intOf (dec n) = min n (2 ^ 63 - 1) := by
  rw [intOf, takeWhile_dec, ofDigitChars_dec]

/-! ## Comparison -/

/-- What a string of letters and digits is as a number. -/
inductive Numeric
  | none
  | integer (n : Nat)
  | float

def numeric (s : Str) : Numeric :=
  match s.takeWhile Char.isDigit, s.dropWhile Char.isDigit with
  | [], _ => .none
  | ds, [] => .integer (Nat.ofDigitChars 10 ds 0)
  | _, e :: es => if (e = 'e' ∨ e = 'E') ∧ es ≠ [] ∧ es.all Char.isDigit then .float else .none

def compareBytes (a b : Str) : Ordering := if a = b then .eq else if a < b then .lt else .gt

/-- The comparison of two strings of one length. Integers that overflow are compared as doubles and then byte by
byte, which is their order as numbers at one length. Doubles with an exponent are compared by `floats`. -/
def compareTexts (floats : Str → Str → Ordering) (a b : Str) : Ordering :=
  match numeric a, numeric b with
  | .none, _ => compareBytes a b
  | _, .none => compareBytes a b
  | .integer m, .integer n => compare m n
  | _, _ => floats a b

/-- `$a == $b`, of strings of letters and digits. Integers past `PHP_INT_MAX` are doubles, and two such that are the
same double are compared byte by byte. -/
def looselyEqual (floats : Str → Str → Ordering) (a b : Str) : Bool :=
  if a = b then true
  else
    match numeric a, numeric b with
    | .none, _ => false
    | _, .none => false
    | .integer m, .integer n =>
      if m < 2 ^ 63 ∧ n < 2 ^ 63 then m = n
      else if 2 ^ 63 ≤ m ∧ 2 ^ 63 ≤ n then false
      else floats a b == .eq
    | _, _ => floats a b == .eq

@[simp] theorem looselyEqual_self (floats : Str → Str → Ordering) (a : Str) : looselyEqual floats a a = true := by
  simp [looselyEqual]

/-- The string is a number with an exponent. -/
def hasExponent (s : Str) : Bool :=
  match numeric s with
  | .float => true
  | _ => false

theorem numeric_integer {s : Str} {n : Nat} (h : numeric s = .integer n) :
    (∀ c ∈ s, c.isDigit) ∧ n = Nat.ofDigitChars 10 s 0 := by
  unfold numeric at h
  split at h
  · cases h
  · next htail _ =>
    cases h
    have hs : s.takeWhile Char.isDigit = s := by
      have := List.takeWhile_append_dropWhile (p := Char.isDigit) (l := s)
      rw [htail, List.append_nil] at this
      exact this
    exact ⟨List.takeWhile_eq_self_iff.mp hs, by rw [hs]⟩
  · split at h <;> cases h

theorem ofDigitChars_lt {s : Str} (h : ∀ c ∈ s, c.isDigit) : Nat.ofDigitChars 10 s 0 < 10 ^ s.length := by
  induction s with
  | nil => simp
  | cons c s ih =>
    have hs := ih fun d hd => h d (List.mem_cons_of_mem c hd)
    have hc := digit_bounds (h c List.mem_cons_self)
    rw [Nat.ofDigitChars_cons, Nat.ofDigitChars_eq_ofDigitChars_zero, List.length_cons, Nat.pow_succ]
    have hm : 10 ^ s.length * (10 * 0 + (c.toNat - '0'.toNat)) ≤ 10 ^ s.length * 9 :=
      Nat.mul_le_mul_left _ (by change 10 * 0 + (c.toNat - 48) ≤ 9; omega)
    omega

theorem compareBytes_cons (x y : Char) (s t : Str) :
    compareBytes (x :: s) (y :: t) = if x = y then compareBytes s t else if x < y then .lt else .gt := by
  unfold compareBytes
  by_cases hxy : x = y
  · subst hxy
    simp
  · simp [hxy, List.cons_lt_cons_iff]

theorem compare_digits {a b : Str} (hl : a.length = b.length) (ha : ∀ c ∈ a, c.isDigit) (hb : ∀ c ∈ b, c.isDigit) :
    compare (Nat.ofDigitChars 10 a 0) (Nat.ofDigitChars 10 b 0) = compareBytes a b := by
  induction a generalizing b with
  | nil =>
    rcases b with _ | ⟨y, t⟩
    · rfl
    · cases hl
  | cons x s ih =>
    rcases b with _ | ⟨y, t⟩
    · cases hl
    have hlen : s.length = t.length := Nat.succ.inj hl
    have hs : ∀ c ∈ s, c.isDigit := fun c hc => ha c (List.mem_cons_of_mem x hc)
    have ht : ∀ c ∈ t, c.isDigit := fun c hc => hb c (List.mem_cons_of_mem y hc)
    have hx := digit_bounds (ha x List.mem_cons_self)
    have hy := digit_bounds (hb y List.mem_cons_self)
    have hu := ofDigitChars_lt hs
    have hv := ofDigitChars_lt ht
    rw [compareBytes_cons, Nat.ofDigitChars_cons, Nat.ofDigitChars_cons, Nat.ofDigitChars_eq_ofDigitChars_zero,
      Nat.ofDigitChars_eq_ofDigitChars_zero (l := t), hlen]
    rw [hlen] at hu
    show compare (10 ^ t.length * (10 * 0 + (x.toNat - 48)) + _) (10 ^ t.length * (10 * 0 + (y.toNat - 48)) + _) = _
    by_cases hxy : x = y
    · subst hxy
      rw [if_pos rfl, ← ih hlen hs ht, Nat.compare_eq_ite_lt, Nat.compare_eq_ite_lt]
      simp only [Nat.add_lt_add_iff_left]
    · rw [if_neg hxy]
      have hne : x.toNat ≠ y.toNat := fun h => hxy (Char.toNat_inj.mp h)
      by_cases hlt : x < y
      · have hlt' : x.toNat < y.toNat := hlt
        rw [if_pos hlt, Nat.compare_eq_lt]
        have := Nat.mul_le_mul_left (10 ^ t.length) (show x.toNat - 48 + 1 ≤ y.toNat - 48 by omega)
        rw [Nat.mul_add] at this
        simp only [Nat.mul_zero, Nat.zero_add]
        omega
      · have hlt' : ¬x.toNat < y.toNat := hlt
        rw [if_neg hlt, Nat.compare_eq_gt]
        have := Nat.mul_le_mul_left (10 ^ t.length) (show y.toNat - 48 + 1 ≤ x.toNat - 48 by omega)
        rw [Nat.mul_add] at this
        simp only [Nat.mul_zero, Nat.zero_add]
        omega

/-- Both are numbers, and one of them has an exponent. -/
def readsAsFloats (a b : Str) : Bool :=
  match numeric a, numeric b with
  | .none, _ => false
  | _, .none => false
  | .integer _, .integer _ => false
  | _, _ => true

theorem compareTexts_floats {floats : Str → Str → Ordering} {a b : Str} (h : readsAsFloats a b = true) :
    compareTexts floats a b = floats a b := by
  unfold readsAsFloats at h
  unfold compareTexts
  rcases hna : numeric a with _ | m | _ <;> rcases hnb : numeric b with _ | n | _ <;> simp_all

theorem compareTexts_bytes {floats : Str → Str → Ordering} {a b : Str} (h : readsAsFloats a b = false)
    (hint : ∀ m n, numeric a = .integer m → numeric b = .integer n → compare m n = compareBytes a b) :
    compareTexts floats a b = compareBytes a b := by
  unfold readsAsFloats at h
  unfold compareTexts
  rcases hna : numeric a with _ | m | _ <;> rcases hnb : numeric b with _ | n | _ <;> simp_all

theorem compare_integers {a b : Str} {m n : Nat} (hl : a.length = b.length) (ha : numeric a = .integer m)
    (hb : numeric b = .integer n) : compare m n = compareBytes a b := by
  obtain ⟨hda, rfl⟩ := numeric_integer ha
  obtain ⟨hdb, rfl⟩ := numeric_integer hb
  exact compare_digits hl hda hdb

theorem readsAsFloats_of_hasExponent {a b : Str} (ha : hasExponent a = false) (hb : hasExponent b = false) :
    readsAsFloats a b = false := by
  unfold hasExponent at ha hb
  unfold readsAsFloats
  rcases hna : numeric a with _ | m | _ <;> rcases hnb : numeric b with _ | n | _ <;> simp_all

/-- **Without exponents.** Strings of one length are compared byte by byte. -/
theorem compareTexts_eq {floats : Str → Str → Ordering} {a b : Str} (hl : a.length = b.length)
    (ha : hasExponent a = false) (hb : hasExponent b = false) : compareTexts floats a b = compareBytes a b :=
  compareTexts_bytes (readsAsFloats_of_hasExponent ha hb) fun _ _ => compare_integers hl

/-! ## Doubles -/

/-- `strtod` of a number with or without an exponent; none is `INF`. -/
def toDouble (s : Str) : Option Nat :=
  let mantissa := Nat.ofDigitChars 10 (s.takeWhile Char.isDigit) 0
  let exponent := Nat.ofDigitChars 10 (s.dropWhile Char.isDigit).tail 0
  if mantissa = 0 then some 0
  else if 309 ≤ exponent then none
  else doubleNat (mantissa * 10 ^ exponent)

/-- The integer part has more digits than any `int`. -/
def overflows (s : Str) : Bool := 20 ≤ ((s.takeWhile Char.isDigit).dropWhile (· = '0')).length

/-- Two numbers as doubles. Two overflown ones that are the same double are compared byte by byte. -/
def compareDoubles (a b : Str) : Ordering :=
  match toDouble a, toDouble b with
  | some x, some y => if x = y ∧ overflows a ∧ overflows b then compareBytes a b else compare x y
  | some _, none => .lt
  | none, some _ => .gt
  | none, none => compareBytes a b

/-! ## Sorting -/

/-- `usort($l, $cmp)`. -/
def usort {α : Type} (cmp : α → α → Int) (l : List α) : List α := l.insertionSort fun a b => cmp a b ≤ 0

/-- A comparison that agrees with an order on the elements sorts them in that order. -/
theorem usort_eq {α : Type} (cmp : α → α → Int) (r : α → α → Prop) [DecidableRel r] (l : List α)
    (h : ∀ a ∈ l, ∀ b ∈ l, (cmp a b ≤ 0 ↔ r a b)) : usort cmp l = l.insertionSort r := by
  have hm := List.map_insertionSort (r := fun a b => cmp a b ≤ 0) (s := r) id l h
  simpa [usort] using hm

section Order

variable {α : Type} {r s : α → α → Prop} [DecidableRel r] [DecidableRel s] [Std.Total r] [IsTrans α r] [Std.Antisymm r]

omit [IsTrans α r] [Std.Antisymm r] in
theorem orderedInsert_congr {a : α} {l : List α} (hl : l.Pairwise r) (h : ∀ b ∈ l, a ≠ b → (s a b ↔ r a b)) :
    l.orderedInsert s a = l.orderedInsert r a := by
  induction l with
  | nil => rfl
  | cons b l ih =>
    obtain ⟨hb, hl'⟩ := List.pairwise_cons.mp hl
    have ih' := ih hl' fun c hc => h c (List.mem_cons_of_mem b hc)
    simp only [List.orderedInsert_cons]
    by_cases hab : a = b
    · subst hab
      have haa : r a a := (Std.Total.total a a).elim id id
      -- Either way the equal elements stand side by side.
      have hins : l.orderedInsert r a = a :: l := by
        cases l with
        | nil => rfl
        | cons c l => exact List.orderedInsert_cons_of_le _ _ (hb c List.mem_cons_self)
      rw [if_pos haa, ih', hins, ite_self]
    · simp only [h b List.mem_cons_self hab, ih']

omit [Std.Antisymm r] in
theorem insertionSort_congr {l : List α} (h : ∀ a ∈ l, ∀ b ∈ l, a ≠ b → (s a b ↔ r a b)) :
    l.insertionSort s = l.insertionSort r := by
  induction l with
  | nil => rfl
  | cons a l ih =>
    have hl := ih fun x hx y hy => h x (List.mem_cons_of_mem a hx) y (List.mem_cons_of_mem a hy)
    rw [List.insertionSort_cons, List.insertionSort_cons, hl]
    apply orderedInsert_congr (List.pairwise_insertionSort r l)
    intro b hb
    exact h a List.mem_cons_self b (List.mem_cons_of_mem a ((List.mem_insertionSort r).mp hb))

omit [Std.Total r] [IsTrans α r] [Std.Antisymm r] in
theorem insertionSort_sublist (l m : List α) : (m.insertionSort r).Sublist ((l ++ m).insertionSort r) := by
  induction l with
  | nil => exact List.Sublist.refl _
  | cons a l ih => exact ih.trans (List.sublist_orderedInsert a _)

/-- **Sorting in an order.** Every arrangement of a list is sorted so exactly where the comparison is the order on
any two of its elements. -/
theorem insertionSort_eq_iff [DecidableEq α] {l : List α} :
    (∀ m : List α, m.Perm l → m.insertionSort s = l.insertionSort r) ↔
      ∀ a ∈ l, ∀ b ∈ l, a ≠ b → (s a b ↔ r a b) := by
  constructor
  · intro h a ha b hb hab
    have hb' : b ∈ l.erase a := (List.mem_erase_of_ne (Ne.symm hab)).mpr hb
    have hperm : ((l.erase a).erase b ++ [a, b]).Perm l := by
      apply List.Perm.trans List.perm_append_comm
      exact (((List.perm_cons_erase hb').symm.cons a)).trans (List.perm_cons_erase ha).symm
    have hsub := insertionSort_sublist (r := s) ((l.erase a).erase b) [a, b]
    rw [h _ hperm] at hsub
    have hsorted := (List.pairwise_insertionSort r l).sublist hsub
    simp only [List.insertionSort_cons, List.insertionSort_nil, List.orderedInsert_nil, List.orderedInsert_cons] at hsorted
    by_cases hs : s a b
    · rw [if_pos hs] at hsorted
      simp only [hs, true_iff]
      exact List.rel_of_pairwise_cons hsorted List.mem_cons_self
    · rw [if_neg hs] at hsorted
      have hba : r b a := List.rel_of_pairwise_cons hsorted List.mem_cons_self
      simp only [hs, false_iff]
      exact fun hr => hab (Std.Antisymm.antisymm a b hr hba)
  · intro h m hm
    rw [insertionSort_congr fun a ha b hb => h a (hm.subset ha) b (hm.subset hb)]
    apply List.Perm.eq_of_pairwise' (r := r)
    · exact List.pairwise_insertionSort r m
    · exact List.pairwise_insertionSort r l
    · exact (List.perm_insertionSort r m).trans (hm.trans (List.perm_insertionSort r l).symm)

end Order

end Php
