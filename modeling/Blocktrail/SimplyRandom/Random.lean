import Mathlib.Data.Nat.Log
import Blocktrail.Lib.ByteStrings
import Blocktrail.Lib.Text

/-! # Random integers -/

open Text

namespace SimplyRandom

abbrev Byte := UInt8
abbrev Bytes := List Byte

/-! ## Integers and doubles -/

def PHP_INT_MAX : Nat := 2 ^ 63 - 1

/-- `hexdec(bin2hex($bytes))` as an operand of `&`: a number above `PHP_INT_MAX` is a double, and a double is taken
modulo `2^64`. -/
def hexdec (number : Nat) : Nat :=
  if number ≤ PHP_INT_MAX then number else (doubleNat number).getD 0 % 2 ^ 64

/-- `$a - $b`: where the difference is no integer, the two are subtracted as doubles. -/
def difference (a b : Int) : Int :=
  if -(2 ^ 63) ≤ a - b ∧ a - b ≤ PHP_INT_MAX then a - b
  else (double ((double a).getD 0 - (double b).getD 0)).getD 0

/-- `(int)($a - $b)`: a double is taken modulo `2^64`. -/
def intSub (a b : Int) : Int := Int.bmod (difference a b) (2 ^ 64)

/-! ## The class -/

/-- `countBits($number)`: the loop ends where the shifted number is zero. -/
def countBits : Nat → Int → Option Nat
  | 0, _ => none
  | fuel + 1, number =>
    let number := number >>> (1 : Nat)
    if number = 0 then some 0 else (countBits fuel number).map (· + 1)

/-- `max(ceil($bits / 8), 1)`. -/
def bytesFor (bits : Nat) : Nat := max ((bits + 7) / 8) 1

/-- `$mask` in `int`. -/
def intMask (bits : Nat) : Nat := if PHP_INT_MAX ≤ 2 ^ bits - 1 then PHP_INT_MAX else 2 ^ bits - 1

/-- `$result` of a draw. -/
def masked (mask : Nat) (test : Bytes) : Nat := hexdec (ByteStrings.value test) &&& mask

/-- The bits and the length of the draws of `int`. -/
def intBits (fuel : Nat) (min max : Int) : Option Nat := (countBits fuel (intSub max min)).map (· + 1)

/-- `int($min, $max)`, of what the generator returns: the first result in the range counts. -/
def int (fuel : Nat) (min max : Int) (draws : List Bytes) : Option Int := do
  let bits ← intBits fuel min max
  let result : Nat ← (draws.map (masked (intMask bits))).find? fun result => ¬(result : Int) > intSub max min
  return (result : Int) + min

/-! ## Bits -/

theorem countBits_eq {fuel n : Nat} (h : n < 2 ^ fuel) (hf : 0 < fuel) : countBits fuel n = some (Nat.log2 n) := by
  induction fuel generalizing n with
  | zero => exact absurd hf (Nat.lt_irrefl 0)
  | succ fuel ih =>
    have hshift : ((n : Int) >>> (1 : Nat)) = ((n / 2 : Nat) : Int) := by
      rw [Int.shiftRight_eq_div_pow]
      rfl
    unfold countBits
    simp only [hshift]
    by_cases hn : n < 2
    · have hzero : ((n / 2 : Nat) : Int) = 0 := by omega
      rw [if_pos hzero]
      obtain rfl | rfl : n = 0 ∨ n = 1 := by omega
      · rfl
      · rfl
    · have hne : ((n / 2 : Nat) : Int) ≠ 0 := by omega
      have hfuel : 0 < fuel := by
        rcases Nat.eq_zero_or_pos fuel with rfl | hpos
        · simp at h
          omega
        · exact hpos
      rw [if_neg hne, ih (by rw [Nat.pow_succ] at h; omega) hfuel, Option.map_some]
      congr 1
      rw [Nat.log2_def n, if_pos (by omega)]

theorem bits_bounds (n : Nat) : n < 2 ^ (Nat.log2 n + 1) ∧ 2 ^ Nat.log2 n ≤ n + 1 := by
  constructor
  · exact Nat.lt_log2_self
  · rcases Nat.eq_zero_or_pos n with rfl | hpos
    · decide
    · exact Nat.le_succ_of_le (Nat.log2_self_le (Nat.pos_iff_ne_zero.mp hpos))

theorem intSub_small {a b : Int} (h : -(2 ^ 63) ≤ a - b) (hle : a - b ≤ PHP_INT_MAX) : intSub a b = a - b := by
  unfold intSub difference
  rw [if_pos ⟨h, hle⟩]
  unfold PHP_INT_MAX at hle
  exact Int.bmod_eq_of_le (by omega) (by omega)

theorem intMask_eq {bits : Nat} (h : bits ≤ 63) : intMask bits = 2 ^ bits - 1 := by
  have hpow : 2 ^ bits ≤ 2 ^ 63 := Nat.pow_le_pow_right (by decide) h
  unfold intMask PHP_INT_MAX
  split_ifs <;> omega

theorem masked_eq {bits : Nat} (h : bits ≤ 63) (test : Bytes) :
    masked (intMask bits) test = hexdec (ByteStrings.value test) % 2 ^ bits := by
  rw [masked, intMask_eq h, Nat.and_two_pow_sub_one_eq_mod]

/-! ## One draw -/

theorem int_singleton_eq {fuel bits n : Nat} {min max : Int} (hbits : intBits fuel min max = some bits)
    (hle : bits ≤ 63) (hsub : intSub max min = n) (test : Bytes) : int fuel min max [test] =
    if hexdec (ByteStrings.value test) % 2 ^ bits ≤ n then
      some ((hexdec (ByteStrings.value test) % 2 ^ bits : Nat) + min)
    else none := by
  have hmasked := masked_eq hle test
  generalize hexdec (ByteStrings.value test) % 2 ^ bits = result at hmasked ⊢
  unfold int
  rw [hbits, hsub]
  simp only [Option.bind_eq_bind, Option.bind_some, List.map_cons, List.map_nil, hmasked]
  split_ifs with h
  · simp [h]
  · simp [h]

/-- The offset of a range that an integer may be drawn from. -/
structure Range where
  min : Int
  size : Nat
  le : size ≤ PHP_INT_MAX

namespace Range

variable (r : Range)

def max : Int := r.min + r.size

def bits : Nat := Nat.log2 r.size + 1

theorem bits_le : r.bits ≤ 63 := by
  have hle := r.le
  have hlog : Nat.log2 r.size < 63 := by
    rcases Nat.eq_zero_or_pos r.size with h | h
    · rw [h]
      decide
    · exact (Nat.log2_lt (Nat.pos_iff_ne_zero.mp h)).mpr (by unfold PHP_INT_MAX at hle; omega)
  exact hlog

theorem intSub_max : intSub r.max r.min = (r.size : Int) := by
  have hle := r.le
  rw [intSub_small (by unfold max; omega) (by unfold max; omega)]
  unfold max
  omega

theorem intBits_eq {fuel : Nat} (hf : 64 ≤ fuel) : intBits fuel r.min r.max = some r.bits := by
  have hle := r.le
  have hlt : r.size < 2 ^ fuel := by
    have hpow : 2 ^ 64 ≤ 2 ^ fuel := Nat.pow_le_pow_right (by decide) hf
    unfold PHP_INT_MAX at hle
    omega
  rw [intBits, r.intSub_max, countBits_eq hlt (by omega)]
  rfl

theorem int_singleton {fuel : Nat} (hf : 64 ≤ fuel) (test : Bytes) : int fuel r.min r.max [test] =
    if hexdec (ByteStrings.value test) % 2 ^ r.bits ≤ r.size then
      some ((hexdec (ByteStrings.value test) % 2 ^ r.bits : Nat) + r.min)
    else none :=
  int_singleton_eq (r.intBits_eq hf) r.bits_le r.intSub_max test

theorem int_mem {fuel : Nat} (hf : 64 ≤ fuel) {draws : List Bytes} {v : Int}
    (h : int fuel r.min r.max draws = some v) : r.min ≤ v ∧ v ≤ r.max := by
  unfold int at h
  rw [r.intBits_eq hf, r.intSub_max] at h
  simp only [Option.bind_eq_bind, Option.bind_some, Option.bind_eq_some_iff] at h
  obtain ⟨result, hfind, hv⟩ := h
  have hresult := List.find?_some hfind
  simp only [gt_iff_lt, decide_eq_true_eq] at hresult
  cases hv
  unfold max
  omega

end Range

/-! ## Fairness -/

/-- The draws of one length from which `int` returns a value. -/
def drawsOf (fuel : Nat) (min max : Int) (length : Nat) (v : Int) : Set Bytes :=
  {test | test.length = length ∧ int fuel min max [test] = some v}

/-- The draws of one length from which `int` returns. -/
def acceptedDraws (fuel : Nat) (min max : Int) (length : Nat) : Set Bytes :=
  {test | test.length = length ∧ (int fuel min max [test]).isSome}

/-- What `int` returns is in the range, every integer of the range from as many draws, of half of all at least. -/
structure Fair (fuel : Nat) (min max : Int) : Prop where
  inRange : ∀ draws v, int fuel min max draws = some v → min ≤ v ∧ v ≤ max
  uniform : ∃ length count, (intBits fuel min max).map bytesFor = some length ∧
    (∀ v, min ≤ v → v ≤ max → (drawsOf fuel min max length v).ncard = count) ∧
    256 ^ length ≤ 2 * (acceptedDraws fuel min max length).ncard

namespace Range

variable (r : Range)

theorem mem_drawsOf {fuel : Nat} (hf : 64 ≤ fuel) {length result : Nat} (h : result ≤ r.size) :
    drawsOf fuel r.min r.max length (r.min + result) =
      {test | test.length = length ∧ hexdec (ByteStrings.value test) % 2 ^ r.bits = result} := by
  ext test
  simp only [drawsOf, Set.mem_ofPred_eq, r.int_singleton hf]
  refine and_congr_right fun _ => ?_
  split_ifs with hle
  · rw [Option.some_inj]
    omega
  · refine iff_of_false (by simp) ?_
    rintro rfl
    exact hle h

theorem mem_acceptedDraws {fuel : Nat} (hf : 64 ≤ fuel) (length : Nat) :
    acceptedDraws fuel r.min r.max length =
      {test | test.length = length ∧ hexdec (ByteStrings.value test) % 2 ^ r.bits ≤ r.size} := by
  ext test
  simp only [acceptedDraws, Set.mem_ofPred_eq, r.int_singleton hf]
  refine and_congr_right fun _ => ?_
  split_ifs with hle
  · simp [hle]
  · simp [hle]

/-- Draws of seven bytes at most are integers. -/
theorem hexdec_eq {length : Nat} (h : length ≤ 7) {test : Bytes} (ht : test.length = length) :
    hexdec (ByteStrings.value test) = ByteStrings.value test := by
  have hlt := ByteStrings.value_lt test
  have hpow : 256 ^ test.length ≤ 256 ^ 7 := Nat.pow_le_pow_right (by decide) (ht ▸ h)
  unfold hexdec PHP_INT_MAX
  exact if_pos (by omega)

theorem size_lt : r.size < 2 ^ r.bits := (bits_bounds r.size).1

theorem le_size : 2 ^ r.bits ≤ 2 * (r.size + 1) := by
  have h := (bits_bounds r.size).2
  unfold bits
  rw [Nat.pow_succ]
  omega

theorem bytesFor_bits : r.bits ≤ 8 * bytesFor r.bits := by
  unfold bytesFor
  omega

theorem pow_length : 256 ^ bytesFor r.bits = 2 ^ (8 * bytesFor r.bits - r.bits) * 2 ^ r.bits := by
  have h := r.bytesFor_bits
  rw [← Nat.pow_add, Nat.sub_add_cancel h, Nat.pow_mul]

theorem fair_of_small {fuel : Nat} (hf : 64 ≤ fuel) (h : r.bits ≤ 56) : Fair fuel r.min r.max := by
  have hlength : bytesFor r.bits ≤ 7 := by
    unfold bytesFor
    omega
  refine ⟨fun draws v hv => r.int_mem hf hv, bytesFor r.bits, 2 ^ (8 * bytesFor r.bits - r.bits), ?_, ?_, ?_⟩
  · rw [r.intBits_eq hf]
    rfl
  · intro v hmin hmax
    obtain ⟨result, hresult⟩ : ∃ result : Nat, v = r.min + result := ⟨(v - r.min).toNat, by omega⟩
    have hle : result ≤ r.size := by
      unfold max at hmax
      omega
    have hset : drawsOf fuel r.min r.max (bytesFor r.bits) v =
        {test | test.length = bytesFor r.bits ∧ ByteStrings.value test % 2 ^ r.bits = result} := by
      rw [hresult, r.mem_drawsOf hf hle]
      ext test
      exact and_congr_right fun ht => by rw [hexdec_eq hlength ht]
    have hone : Nat.count (fun m => m = result) (2 ^ r.bits) = 1 := by
      have hlt := r.size_lt
      rw [Nat.count_eq_card_filter_range, Finset.filter_eq', if_pos (Finset.mem_range.mpr (by omega)),
        Finset.card_singleton]
    rw [hset, ByteStrings.ncard_value _ fun m => m % 2 ^ r.bits = result, r.pow_length,
      ByteStrings.count_mod fun m => m = result, hone, Nat.mul_one]
  · have hset : acceptedDraws fuel r.min r.max (bytesFor r.bits) =
        {test | test.length = bytesFor r.bits ∧ ByteStrings.value test % 2 ^ r.bits ≤ r.size} := by
      rw [r.mem_acceptedDraws hf]
      ext test
      exact and_congr_right fun ht => by rw [hexdec_eq hlength ht]
    have hcount : Nat.count (fun m => m ≤ r.size) (2 ^ r.bits) = r.size + 1 := by
      have hlt := r.size_lt
      have hfilter : (Finset.range (2 ^ r.bits)).filter (fun m => m ≤ r.size) = Finset.range (r.size + 1) := by
        ext m
        simp only [Finset.mem_filter, Finset.mem_range]
        omega
      rw [Nat.count_eq_card_filter_range, hfilter, Finset.card_range]
    have hle := r.le_size
    rw [hset, ByteStrings.ncard_value _ fun m => m % 2 ^ r.bits ≤ r.size, r.pow_length,
      ByteStrings.count_mod fun m => m ≤ r.size, hcount]
    calc 2 ^ (8 * bytesFor r.bits - r.bits) * 2 ^ r.bits
        ≤ 2 ^ (8 * bytesFor r.bits - r.bits) * (2 * (r.size + 1)) := Nat.mul_le_mul_left _ hle
      _ = 2 * (2 ^ (8 * bytesFor r.bits - r.bits) * (r.size + 1)) := Nat.mul_left_comm _ _ _

/-! ## Draws of eight bytes -/

/-- The double of a draw with the highest bit has lost the low ones. -/
theorem dvd_hexdec {number : Nat} (h : PHP_INT_MAX < number) (hlt : number < 2 ^ 64) : 2048 ∣ hexdec number := by
  unfold PHP_INT_MAX at h
  have hlog : Nat.log2 number - 52 = 11 := by
    have hle : 63 ≤ Nat.log2 number := (Nat.le_log2 (by omega)).mpr (by omega)
    have hlt' : Nat.log2 number < 64 := (Nat.log2_lt (by omega)).mpr hlt
    omega
  have hdouble : 2048 ∣ (doubleNat number).getD 0 := by
    unfold doubleNat
    rw [if_neg (by omega), hlog]
    dsimp only
    split_ifs
    · exact Nat.dvd_mul_left _ _
    · exact Nat.dvd_zero _
    · exact Nat.dvd_mul_left _ _
    · exact Nat.dvd_zero _
  unfold hexdec
  rw [if_neg (by unfold PHP_INT_MAX; omega)]
  exact (Nat.dvd_mod_iff (by decide)).mpr hdouble

theorem count_lt (h : 57 ≤ r.bits) : Nat.count (fun m => hexdec m % 2 ^ r.bits = 1) (256 ^ 8) <
    Nat.count (fun m => hexdec m % 2 ^ r.bits = 0) (256 ^ 8) := by
  have hbits := r.bits_le
  have hdvd : 2048 ∣ 2 ^ r.bits := by
    have h11 : 2 ^ 11 ∣ 2 ^ r.bits := Nat.pow_dvd_pow 2 (by omega)
    exact h11
  have htop : hexdec (2 ^ 63) = 2 ^ 63 := by decide +kernel
  rw [Nat.count_eq_card_filter_range, Nat.count_eq_card_filter_range]
  have hmem : 2 ^ 63 ∈ (Finset.range (256 ^ 8)).filter fun m => hexdec m % 2 ^ r.bits = 0 := by
    rw [Finset.mem_filter, htop]
    exact ⟨Finset.mem_range.mpr (by decide), Nat.mod_eq_zero_of_dvd (Nat.pow_dvd_pow 2 hbits)⟩
  refine Nat.lt_of_le_of_lt ?_ (Finset.card_erase_lt_of_mem hmem)
  refine Finset.card_le_card_of_injOn (· - 1) (fun m hm => ?_) fun a ha b hb hab => ?_
  · rw [Finset.mem_coe, Finset.mem_filter, Finset.mem_range] at hm
    obtain ⟨hm, hone⟩ := hm
    have hsmall : m ≤ PHP_INT_MAX := by
      by_contra hlarge
      have hzero := (Nat.dvd_mod_iff hdvd).mpr (dvd_hexdec (Nat.not_le.mp hlarge) hm)
      rw [hone] at hzero
      exact absurd hzero (by decide)
    have hself : hexdec m = m := if_pos hsmall
    have hpred : hexdec (m - 1) = m - 1 := if_pos (Nat.le_trans (Nat.sub_le m 1) hsmall)
    rw [hself] at hone
    have hmultiple := Nat.dvd_sub_mod (n := 2 ^ r.bits) m
    rw [hone] at hmultiple
    unfold PHP_INT_MAX at hsmall
    show m - 1 ∈ _
    rw [Finset.mem_coe, Finset.mem_erase, Finset.mem_filter, Finset.mem_range]
    refine ⟨by omega, by omega, ?_⟩
    rw [hpred]
    exact Nat.mod_eq_zero_of_dvd hmultiple
  · have hpos : ∀ m ∈ (Finset.range (256 ^ 8)).filter (fun m => hexdec m % 2 ^ r.bits = 1), 0 < m := by
      intro m hm
      rcases Nat.eq_zero_or_pos m with rfl | hpos
      · have hzero := (Finset.mem_filter.mp hm).2
        exact absurd hzero (by rw [show hexdec 0 = 0 from rfl, Nat.zero_mod]; decide)
      · exact hpos
    have ha' := hpos a (Finset.mem_coe.mp ha)
    have hb' := hpos b (Finset.mem_coe.mp hb)
    dsimp only at hab
    omega

theorem not_fair_of_large {fuel : Nat} (hf : 64 ≤ fuel) (h : 57 ≤ r.bits) : ¬Fair fuel r.min r.max := by
  rintro ⟨-, length, count, hlength, huniform, -⟩
  have hbits := r.bits_le
  have height : bytesFor r.bits = 8 := by
    unfold bytesFor
    omega
  rw [r.intBits_eq hf, Option.map_some, height] at hlength
  obtain rfl := Option.some.inj hlength
  have hone : 1 ≤ r.size := by
    have hle := r.le_size
    have hpow : 2 ^ 57 ≤ 2 ^ r.bits := Nat.pow_le_pow_right (by decide) h
    omega
  have hfirst := huniform (r.min + (0 : Nat)) (by omega) (by unfold max; omega)
  have hsecond := huniform (r.min + (1 : Nat)) (by omega) (by unfold max; omega)
  rw [r.mem_drawsOf hf (Nat.zero_le _), ByteStrings.ncard_value 8 fun m => hexdec m % 2 ^ r.bits = 0] at hfirst
  rw [r.mem_drawsOf hf hone, ByteStrings.ncard_value 8 fun m => hexdec m % 2 ^ r.bits = 1] at hsecond
  have hlt := r.count_lt h
  omega

theorem bits_le_iff : r.bits ≤ 56 ↔ r.size < 2 ^ 56 := by
  unfold bits
  rcases Nat.eq_zero_or_pos r.size with h | h
  · rw [h]
    decide
  · rw [Nat.succ_le_iff, Nat.log2_lt (Nat.pos_iff_ne_zero.mp h)]

end Range

/-- **Fairness.** The integers of a range are drawn from equally many strings exactly if the range fits into seven
bytes: the draws of eight bytes are rounded. -/
theorem int_fair_iff (fuel : Nat) (min max : Int) (hf : 64 ≤ fuel) (h : min ≤ max) (hrange : max - min ≤ PHP_INT_MAX) :
    Fair fuel min max ↔ max - min < 2 ^ 56 := by
  obtain ⟨size, rfl⟩ : ∃ size : Nat, max = min + size := ⟨(max - min).toNat, by omega⟩
  let r : Range := ⟨min, size, by omega⟩
  have hbits : r.bits ≤ 56 ↔ size < 2 ^ 56 := r.bits_le_iff
  constructor
  · intro hfair
    by_contra hlarge
    exact r.not_fair_of_large hf (by omega) hfair
  · intro hsmall
    exact r.fair_of_small hf (hbits.mpr (by omega))

theorem int_fair_ten : Fair 64 0 10 :=
  (int_fair_iff 64 0 10 (by decide) (by decide) (by decide)).mpr (by decide)

/-- The range of eight bytes is not drawn from evenly. -/
theorem int_unfair : ¬Fair 64 0 (2 ^ 56) :=
  (⟨0, 2 ^ 56, by decide⟩ : Range).not_fair_of_large (by decide) (by decide)

end SimplyRandom
