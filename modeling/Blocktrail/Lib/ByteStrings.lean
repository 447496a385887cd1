import Mathlib.Data.Nat.Count
import Mathlib.Data.Set.Card
import Mathlib.Algebra.Order.Ring.Int

/-! # Byte strings as numbers, the highest byte first -/

namespace ByteStrings

def value (b : List UInt8) : Nat := b.foldl (fun n x => 256 * n + x.toNat) 0

@[simp] theorem value_nil : value [] = 0 := rfl

theorem value_concat (b : List UInt8) (x : UInt8) : value (b ++ [x]) = 256 * value b + x.toNat := by simp [value]

theorem value_lt (b : List UInt8) : value b < 256 ^ b.length := by
  induction b using List.reverseRecOn with
  | nil => decide
  | append_singleton b x ih =>
    have hx := x.toNat_lt
    rw [value_concat, List.length_append, List.length_singleton, Nat.pow_succ]
    omega

theorem exists_value (k : Nat) {n : Nat} (h : n < 256 ^ k) : ∃ b : List UInt8, b.length = k ∧ value b = n := by
  induction k generalizing n with
  | zero =>
    refine ⟨[], rfl, ?_⟩
    rw [Nat.pow_zero] at h
    exact (Nat.lt_one_iff.mp h).symm
  | succ k ih =>
    obtain ⟨b, hlength, hvalue⟩ := ih (n := n / 256) (by rw [Nat.pow_succ] at h; omega)
    refine ⟨b ++ [UInt8.ofNat n], by simp [hlength], ?_⟩
    rw [value_concat, hvalue, UInt8.toNat_ofNat']
    omega

theorem eq_of_value {a b : List UInt8} (hl : a.length = b.length) (h : value a = value b) : a = b := by
  induction a using List.reverseRecOn generalizing b with
  | nil => exact (List.length_eq_zero_iff.mp hl.symm).symm
  | append_singleton a x ih =>
    rcases List.eq_nil_or_concat' b with rfl | ⟨b, y, rfl⟩
    · simp at hl
    · rw [value_concat, value_concat] at h
      have hx := x.toNat_lt
      have hy := y.toNat_lt
      have hab := ih (b := b) (by simpa using hl) (by omega)
      obtain rfl : x = y := UInt8.toNat_inj.mp (by omega)
      rw [hab]

theorem ncard_value (k : Nat) (p : Nat → Prop) [DecidablePred p] :
    Set.ncard {b : List UInt8 | b.length = k ∧ p (value b)} = Nat.count p (256 ^ k) := by
  have hinj : Set.InjOn value {b : List UInt8 | b.length = k ∧ p (value b)} := fun a ha b hb hab =>
    eq_of_value (ha.1.trans hb.1.symm) hab
  have himage : Set.image value {b : List UInt8 | b.length = k ∧ p (value b)} =
      ↑((Finset.range (256 ^ k)).filter p) := by
    ext n
    simp only [Set.mem_image, Set.mem_ofPred_eq, Finset.coe_filter, Finset.mem_range]
    constructor
    · rintro ⟨b, ⟨hlength, hb⟩, rfl⟩
      exact ⟨hlength ▸ value_lt b, hb⟩
    · rintro ⟨hn, hp⟩
      obtain ⟨b, hlength, rfl⟩ := exists_value k hn
      exact ⟨b, ⟨hlength, hp⟩, rfl⟩
  rw [← hinj.ncard_image, himage, Set.ncard_coe_finset, Nat.count_eq_card_filter_range]

theorem count_mod (p : Nat → Prop) [DecidablePred p] (n periods : Nat) :
    Nat.count (fun m => p (m % n)) (periods * n) = periods * Nat.count p n := by
  have hone : Nat.count (fun m => p (m % n)) n = Nat.count p n := by
    rw [Nat.count_eq_card_filter_range, Nat.count_eq_card_filter_range]
    refine congrArg Finset.card (Finset.filter_congr fun m hm => ?_)
    rw [Nat.mod_eq_of_lt (Finset.mem_range.mp hm)]
  induction periods with
  | zero => simp
  | succ periods ih =>
    have hshift : ∀ m, (periods * n + m) % n = m % n := fun m => by
      rw [Nat.add_comm, Nat.add_mul_mod_self_right]
    rw [Nat.succ_mul, Nat.count_add, ih, Nat.succ_mul]
    simp only [hshift, hone]

end ByteStrings
