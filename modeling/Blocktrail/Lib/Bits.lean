import Mathlib.Data.List.Induction
import Blocktrail.Lib.Series

/-! # Bits, the highest first -/

namespace Bits

/-- The number that the bits are the binary numeral of. -/
def value (bits : List Bool) : Nat := bits.foldl (fun n b => 2 * n + b.toNat) 0

/-- The low bits of a number, as many as asked for. -/
def ofNat : Nat → Nat → List Bool
  | 0, _ => []
  | w + 1, n => ofNat w (n / 2) ++ [n % 2 == 1]

@[simp] theorem length_ofNat (w n : Nat) : (ofNat w n).length = w := by
  induction w generalizing n with
  | zero => rfl
  | succ w ih => rw [ofNat, List.length_append, ih, List.length_singleton]

@[simp] theorem value_nil : value [] = 0 := rfl

theorem value_concat (bits : List Bool) (b : Bool) : value (bits ++ [b]) = 2 * value bits + b.toNat := by
  simp [value]

theorem value_ofNat {w n : Nat} (h : n < 2 ^ w) : value (ofNat w n) = n := by
  induction w generalizing n with
  | zero =>
    rw [Nat.pow_zero] at h
    rw [ofNat, value_nil]
    omega
  | succ w ih =>
    have hhalf : n / 2 < 2 ^ w := by
      rw [Nat.pow_succ] at h
      omega
    rw [ofNat, value_concat, ih hhalf]
    have hbit : (n % 2 == 1).toNat = n % 2 := by
      rcases Nat.mod_two_eq_zero_or_one n with h0 | h1
      · simp [h0]
      · simp [h1]
    omega

theorem ofNat_value (bits : List Bool) : ofNat bits.length (value bits) = bits := by
  induction bits using List.reverseRecOn with
  | nil => rfl
  | append_singleton bits b ih =>
    rw [List.length_append, List.length_singleton, ofNat, value_concat]
    have hdiv : (2 * value bits + b.toNat) / 2 = value bits := by
      cases b with
      | false => simp
      | true =>
        simp
        omega
    have hmod : ((2 * value bits + b.toNat) % 2 == 1) = b := by
      cases b <;> simp
    rw [hdiv, hmod, ih]

theorem value_lt (bits : List Bool) : value bits < 2 ^ bits.length := by
  induction bits using List.reverseRecOn with
  | nil => decide
  | append_singleton bits b ih =>
    rw [value_concat, List.length_append, List.length_singleton, Nat.pow_succ]
    have := b.toNat_lt
    omega

/-! ## Groups of bits -/

/-- Numbers of `w` bits each, one after the other. -/
def join (w : Nat) (ns : List Nat) : List Bool := ns.flatMap (ofNat w)

/-- The numbers of `w` bits that the bits are made of. -/
def split (w : Nat) (bits : List Bool) : List Nat := (Series.chunk w bits).map value

theorem length_join (w : Nat) (ns : List Nat) : (join w ns).length = w * ns.length := by
  induction ns with
  | nil => rfl
  | cons n ns ih =>
    have h : join w (n :: ns) = ofNat w n ++ join w ns := rfl
    rw [h, List.length_append, length_ofNat, ih, List.length_cons, Nat.mul_succ, Nat.add_comm]

theorem split_join {w : Nat} (hw : 0 < w) {ns : List Nat} (h : ∀ n ∈ ns, n < 2 ^ w) : split w (join w ns) = ns := by
  rw [split, join, List.flatMap_def, Series.chunk_flatten hw fun l hl => ?_, List.map_map]
  · conv_rhs => rw [← List.map_id ns]
    exact List.map_congr_left fun n hn => value_ofNat (h n hn)
  · obtain ⟨n, -, rfl⟩ := List.mem_map.mp hl
    exact length_ofNat w n

theorem join_split {w : Nat} (hw : 0 < w) {bits : List Bool} (h : w ∣ bits.length) : join w (split w bits) = bits := by
  have hchunks : (Series.chunk w bits).map (fun c => ofNat w (value c)) = Series.chunk w bits := by
    conv_rhs => rw [← List.map_id (Series.chunk w bits)]
    refine List.map_congr_left fun c hc => ?_
    have hlen : c.length = w := Series.length_of_mem_chunk hw h hc
    rw [id, ← ofNat_value c, hlen, value_ofNat]
    exact hlen ▸ value_lt c
  rw [join, split, List.flatMap_map, List.flatMap_def, hchunks, Series.flatten_chunk hw]

theorem lt_of_mem_split {w : Nat} (hw : 0 < w) {bits : List Bool} (h : w ∣ bits.length) {n : Nat}
    (hn : n ∈ split w bits) : n < 2 ^ w := by
  obtain ⟨c, hc, rfl⟩ := List.mem_map.mp hn
  exact Series.length_of_mem_chunk hw h hc ▸ value_lt c

theorem length_split {w : Nat} (hw : 0 < w) {bits : List Bool} (h : w ∣ bits.length) :
    (split w bits).length = bits.length / w := by
  conv_rhs => rw [← join_split hw h, length_join]
  rw [Nat.mul_div_cancel_left _ hw]

end Bits
