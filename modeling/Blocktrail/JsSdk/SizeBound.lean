import Blocktrail.Bitcoin.SignedTx
import Blocktrail.JsSdk.SizeEstimation

/-! # The estimate and the weight

An estimate bounds the weight of a signed transaction, but for the empty witnesses of inputs that have none beside
inputs that have one.
-/

open Throwing Bitcoin

namespace JsSdk

namespace SizeEstimation

/-- Numbers that a variable-length integer holds. -/
def InRange (locks : List Lock) (outs : List Bytes) : Prop :=
  locks.length < 18446744073709551615 ∧ outs.length < 18446744073709551615 ∧
    ∀ script ∈ outs, script.length < 18446744073709551615

theorem estimateTxWeight_ok {locks : List Lock} {outs : List Bytes} (h : InRange locks outs) :
    estimateTxWeight outs (locks.map utxoOf) =
      .ok (txWeight (locks.map Lock.inputSize) (outs.map List.length)) := by
  obtain ⟨hlocks, houts, hscripts⟩ := h
  have houtSize : calculateOutputsSize outs =
      .ok ((outs.map List.length).map fun n => 8 + varIntSize n + n).sum := by
    rw [List.map_map]
    refine sumM_ok fun s hs => ?_
    rw [getLengthForVarInt_ok (hscripts s hs)]
    rfl
  unfold estimateTxWeight
  rw [houtSize, ok_bind, List.length_map, getLengthForVarInt_ok hlocks, ok_bind, estimateInputsSize_ok, ok_bind,
    getLengthForVarInt_ok houts, ok_bind, ok_bind, estimateInputsSize_ok, ok_bind, ok_bind]
  refine congrArg Except.ok ?_
  unfold txWeight
  rw [List.length_map, List.length_map]
  dsimp only
  omega

theorem lt_of_getLengthForVarInt {n k : Nat} (h : getLengthForVarInt n = .ok k) : n < 18446744073709551615 := by
  unfold getLengthForVarInt at h
  split_ifs at h <;> omega

theorem inRange_of_ok {locks : List Lock} {outs : List Bytes} {estimate : Nat}
    (h : estimateTxWeight outs (locks.map utxoOf) = .ok estimate) : InRange locks outs := by
  unfold estimateTxWeight at h
  obtain ⟨outSize, houtSize, h⟩ := exists_of_bind_ok h
  obtain ⟨vin, hvin, h⟩ := exists_of_bind_ok h
  obtain ⟨inputs, hinputs, h⟩ := exists_of_bind_ok h
  obtain ⟨vout, hvout, -⟩ := exists_of_bind_ok h
  rw [List.length_map] at hvin
  refine ⟨lt_of_getLengthForVarInt hvin, lt_of_getLengthForVarInt hvout, fun script hs => ?_⟩
  obtain ⟨size, hsize⟩ := sumM_mem houtSize hs
  obtain ⟨prefixSize, hprefix, -⟩ := exists_of_bind_ok hsize
  exact lt_of_getLengthForVarInt hprefix

/-- **The estimate as a bound.** There is an estimate, and no fully signed transaction weighs more, exactly if the
numbers fit into their prefixes and what these are counted too long makes up for the counts of empty witnesses. -/
theorem estimate_bounds_iff (locks : List Lock) (outs : List Bytes) :
    (∃ estimate, estimateTxWeight outs (locks.map utxoOf) = .ok estimate ∧
      ∀ tx : Transaction, tx.FullySigned locks → tx.outs = outs → tx.weight ≤ estimate) ↔
    InRange locks outs ∧ emptyCounts locks ≤ 4 * totalExcess locks.length outs := by
  constructor
  · rintro ⟨estimate, hestimate, hbound⟩
    have hrange := inRange_of_ok hestimate
    rw [estimateTxWeight_ok hrange] at hestimate
    obtain rfl := Except.ok.inj hestimate
    have hle := hbound (.largest locks outs) (Transaction.fullySigned_largest locks outs) rfl
    have hweight := Transaction.weight_largest locks outs
    exact ⟨hrange, by omega⟩
  · rintro ⟨hrange, hcounts⟩
    refine ⟨_, estimateTxWeight_ok hrange, fun tx hsigned houts => ?_⟩
    subst houts
    have hle := Transaction.weight_le hsigned
    omega

/-! ## An input without a witness beside one that has it -/

theorem length_sevens : (List.replicate 20 (7 : Byte)).length = 20 := rfl

def mixedLocks : List Lock :=
  [.bare (.script (.pubKeyHash ⟨List.replicate 20 7, length_sevens⟩)),
    .bare (.witnessKey ⟨List.replicate 20 7, length_sevens⟩)]

def paymentOutputs : List Bytes := [pubKeyHashOutput ⟨List.replicate 20 9, rfl⟩]

/-- The estimate is a byte short: the empty witness of the first input has a count. -/
theorem empty_witness_not_counted :
    mixedLocks ≠ [] ∧ (Transaction.largest mixedLocks paymentOutputs).FullySigned mixedLocks ∧
      ∃ estimate, estimateTxWeight paymentOutputs (mixedLocks.map utxoOf) = .ok estimate ∧
        (Transaction.largest mixedLocks paymentOutputs).weight = estimate + 1 := by
  have hrange : InRange mixedLocks paymentOutputs := by
    refine ⟨by decide, by decide, fun script hs => ?_⟩
    obtain rfl := List.mem_singleton.mp hs
    decide
  exact ⟨by simp [mixedLocks], Transaction.fullySigned_largest _ _, _, estimateTxWeight_ok hrange, by decide +kernel⟩

end SizeEstimation

end JsSdk
