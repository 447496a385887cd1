import Blocktrail.Bitcoin.Sample
import Blocktrail.JsSdk.SizeBound
import Blocktrail.PhpSdk.SizeEstimation

/-! # One size estimate

Both SDKs estimate an input by what satisfies the script that it signs, and a transaction by its inputs and outputs.
-/

open Throwing Bitcoin
open PhpSdk.SizeEstimation (OutputClassifier OutputOption ScriptType)

namespace TwoSdks

/-- How a script is passed to PHP as an output. -/
inductive OutputForm
  | output
  | script
  | hex

def OutputForm.option : OutputForm → Bytes → OutputOption
  | output, s => .output s
  | script, s => .script s
  | hex, s => .hex (Hex.encode s)

theorem scriptSize_option (form : OutputForm) (s : Bytes) : (form.option s).scriptSize = s.length := by
  cases form with
  | output => rfl
  | script => rfl
  | hex => simp [OutputForm.option, OutputOption.scriptSize, Hex.length_encode]

/-! ## Outputs -/

theorem varInt_agree (n : Nat) : (JsSdk.SizeEstimation.getLengthForVarInt n).toOption =
    (PhpSdk.SizeEstimation.getLengthOfVarInt n).toOption := by
  unfold JsSdk.SizeEstimation.getLengthForVarInt PhpSdk.SizeEstimation.getLengthOfVarInt
  split_ifs <;> rfl

/-- The outputs, as PHP is given them. -/
def phpOutputs (outs : List (OutputForm × Bytes)) : List OutputOption := outs.map fun o => o.1.option o.2

theorem outputs_agree (outs : List (OutputForm × Bytes)) :
    (JsSdk.SizeEstimation.calculateOutputsSize (outs.map Prod.snd)).toOption =
      (PhpSdk.SizeEstimation.estimateOutputsSize (phpOutputs outs)).toOption := by
  refine sumM_congr ?_
  rw [phpOutputs, List.forall₂_map_left_iff, List.forall₂_map_right_iff, List.forall₂_same]
  rintro ⟨form, s⟩ -
  have hv := varInt_agree s.length
  dsimp only
  rw [scriptSize_option]
  simp only [toOption_bind, hv]
  rcases (PhpSdk.SizeEstimation.getLengthOfVarInt s.length).toOption with _ | n
  · rfl
  · exact congrArg some (Nat.add_assoc 8 n s.length)

/-! ## Transactions -/

variable {c : OutputClassifier}

theorem weight_agree (h : c.Standard) (locks : List Lock) (outs : List (OutputForm × Bytes)) :
    (JsSdk.SizeEstimation.estimateTxWeight (outs.map Prod.snd) (locks.map JsSdk.SizeEstimation.utxoOf)).toOption =
      (PhpSdk.SizeEstimation.estimateWeight c (locks.map PhpSdk.SizeEstimation.utxoOf) (phpOutputs outs)).toOption := by
  have hlength : (phpOutputs outs).length = (outs.map Prod.snd).length := by simp [phpOutputs]
  unfold JsSdk.SizeEstimation.estimateTxWeight PhpSdk.SizeEstimation.estimateWeight
  simp only [JsSdk.SizeEstimation.estimateInputsSize_ok, PhpSdk.SizeEstimation.estimateInputsSize_ok h, ok_bind,
    toOption_bind, outputs_agree, varInt_agree, hlength, List.length_map]
  rcases (PhpSdk.SizeEstimation.estimateOutputsSize (phpOutputs outs)).toOption with _ | outSize
  · rfl
  rcases (PhpSdk.SizeEstimation.getLengthOfVarInt locks.length).toOption with _ | vin
  · cases (PhpSdk.SizeEstimation.getLengthOfVarInt outs.length).toOption <;> rfl
  rcases (PhpSdk.SizeEstimation.getLengthOfVarInt outs.length).toOption with _ | vout
  · rfl
  refine congrArg some ?_
  omega

/-- Numbers that a variable-length integer holds. -/
def InRange (locks : List Lock) (outs : List (OutputForm × Bytes)) : Prop :=
  locks.length < 18446744073709551615 ∧ outs.length < 18446744073709551615 ∧
    ∀ o ∈ outs, o.2.length < 18446744073709551615

theorem weight_ok {locks : List Lock} {outs : List (OutputForm × Bytes)} (h : InRange locks outs) :
    JsSdk.SizeEstimation.estimateTxWeight (outs.map Prod.snd) (locks.map JsSdk.SizeEstimation.utxoOf) =
      .ok (txWeight (locks.map Lock.inputSize) (outs.map fun o => o.2.length)) := by
  obtain ⟨hlocks, houts, hscripts⟩ := h
  have hrange : JsSdk.SizeEstimation.InRange locks (outs.map Prod.snd) := by
    refine ⟨hlocks, by simpa using houts, fun script hs => ?_⟩
    obtain ⟨o, ho, rfl⟩ := List.mem_map.mp hs
    exact hscripts o ho
  rw [JsSdk.SizeEstimation.estimateTxWeight_ok hrange, List.map_map]
  rfl

/-- **One estimate.** For every list of standard unspent outputs and every list of output scripts, passed to PHP in
any form, both SDKs return the same weight and the same virtual size; and they do return one, unless a number is too
large for its prefix. -/
theorem estimates_agree (c : OutputClassifier) (h : c.Standard) (locks : List Lock)
    (outs : List (OutputForm × Bytes)) :
    (JsSdk.SizeEstimation.estimateTxWeight (outs.map Prod.snd) (locks.map JsSdk.SizeEstimation.utxoOf)).toOption =
        (PhpSdk.SizeEstimation.estimateWeight c (locks.map PhpSdk.SizeEstimation.utxoOf)
          (phpOutputs outs)).toOption ∧
      (JsSdk.SizeEstimation.estimateTxVsize (outs.map Prod.snd) (locks.map JsSdk.SizeEstimation.utxoOf)).toOption =
        (PhpSdk.SizeEstimation.estimateVsize c (locks.map PhpSdk.SizeEstimation.utxoOf) (phpOutputs outs)).toOption ∧
      (InRange locks outs → ∃ weight,
        JsSdk.SizeEstimation.estimateTxWeight (outs.map Prod.snd) (locks.map JsSdk.SizeEstimation.utxoOf) =
          .ok weight) := by
  have hweight := weight_agree h locks outs
  refine ⟨hweight, ?_, fun hc => ⟨_, weight_ok hc⟩⟩
  unfold JsSdk.SizeEstimation.estimateTxVsize PhpSdk.SizeEstimation.estimateVsize
  rw [toOption_bind, toOption_bind, hweight]
  rfl

/-! ## A classifier to evaluate with -/

/-- The types of `bitcoinjs-lib`. -/
def sampleType : OutputType → ScriptType
  | .MULTISIG => .MULTISIG
  | .P2PK => .P2PK
  | .P2PKH => .P2PKH
  | .P2SH => .P2SH
  | .P2WPKH => .P2WKH
  | .P2WSH => .P2WSH
  | .NONSTANDARD | .NULLDATA | .WITNESS_COMMITMENT => .other

def sampleClassifier : OutputClassifier where
  getType script := sampleType (classifyOutput script)
  p2pkhOfSolution script :=
    compile [.op OP_DUP, .op OP_HASH160, .data (script.drop 2), .op OP_EQUALVERIFY, .op OP_CHECKSIG]
  isMultisig script := (multisigDecode (decompile script)).isSome
  isPayToPublicKey script := (pubKeyDecode (decompile script)).isSome
  isPayToPublicKeyHash := isPubKeyHashOutput
  getRequiredSigCount script := ((multisigDecode (decompile script)).map Prod.fst).getD 0
  getKeyBuffers script := ((multisigDecode (decompile script)).map Prod.snd).getD []
  getKeyBuffer script := (pubKeyDecode (decompile script)).getD []

theorem sampleClassifier_standard : sampleClassifier.Standard where
  multisig t := by
    simp [sampleClassifier, sampleType, t.classifyOutput_script, t.multisigDecode_script]
  pubKey key := by
    simp [sampleClassifier, sampleType, classifyOutput_pubKeyOutput, multisigDecode_pubKeyOutput,
      pubKeyDecode_pubKeyOutput]
  pubKeyHash h := by
    obtain ⟨hmultisig, hpubKey⟩ := decode_pubKeyHashOutput h
    simp [sampleClassifier, sampleType, classifyOutput_pubKeyHashOutput, hmultisig, hpubKey,
      isPubKeyHashOutput_pubKeyHashOutput]
  scriptHash h := by
    have hnot : isWitnessPubKeyHashOutput (scriptHashOutput h) = false ∧
        isWitnessScriptHashOutput (scriptHashOutput h) = false := by
      simp [isWitnessPubKeyHashOutput, isWitnessScriptHashOutput, scriptHashOutput_eq, OP_0, OP_HASH160]
    simp [sampleClassifier, sampleType, classifyOutput, hnot, not_isPubKeyHashOutput_scriptHashOutput,
      isScriptHashOutput_scriptHashOutput]
  witnessPubKeyHash h := by
    refine ⟨by simp [sampleClassifier, sampleType, classifyOutput, isWitnessPubKeyHashOutput_self], ?_⟩
    simp [sampleClassifier, witnessPubKeyHashOutput_eq, pubKeyHashOutput]
  witnessScriptHash h := by
    simp [sampleClassifier, sampleType, classifyOutput, isWitnessScriptHashOutput_self]

/-- A key of the sample wallet, and a 1 of 1 multisig of it. -/
def sampleMultisig : Multisig where
  m := 1
  keys := [⟨(⟨[], [], false⟩ : SampleNode).pubKey.bytes, isCanonicalPubKey_bytes _⟩]
  pos := by decide
  le := by decide
  n_le := by decide

def sampleHash : Hash160 := ⟨List.replicate 20 7, rfl⟩

/-- A bare multisig, a witness script in a script hash, and a witness key. -/
def sampleLocks : List Lock :=
  [.bare (.script (.multisig sampleMultisig)),
    .p2sh (.witnessScript (.multisig sampleMultisig) ⟨List.replicate 32 7, rfl⟩) sampleHash,
    .bare (.witnessKey sampleHash)]

theorem sampleLocks_agree :
    (JsSdk.SizeEstimation.estimateTxVsize [pubKeyHashOutput sampleHash]
        (sampleLocks.map JsSdk.SizeEstimation.utxoOf)).toOption =
      (PhpSdk.SizeEstimation.estimateVsize sampleClassifier (sampleLocks.map PhpSdk.SizeEstimation.utxoOf)
        (phpOutputs [(.hex, pubKeyHashOutput sampleHash)])).toOption :=
  (estimates_agree sampleClassifier sampleClassifier_standard sampleLocks [(.hex, pubKeyHashOutput sampleHash)]).2.1

end TwoSdks
