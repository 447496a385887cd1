import Blocktrail.Bitcoin.Sample
import Blocktrail.PhpSdk.Keys

/-! # A `bitwasp` to evaluate with -/

open Text Bitcoin

namespace PhpSdk

def sampleLevel (s : Str) : Nat × Bool := (Nat.ofDigitChars 10 (Php.remove apostrophe s) 0, apostrophe ∈ s)

def sampleBitWasp : BitWasp SampleNode where
  fromEntropy seed := some ⟨seed, [], true⟩
  derivePath n path := (((path.splitOn '/').map sampleLevel).foldlM (deriveLevel sampleHD) n).toOption
  toPublic := sampleHD.neutered
  getPublicKey := sampleHD.getPublicKeyBuffer
  multisig := multisigOutput
  p2shScript script := script
  p2shWitness script := witnessScriptHashOutput (sampleHashes.sha256 script)
  p2shOutput script := scriptHashOutput (sampleHashes.hash160 script)
  p2shAddress network script := Hex.encode (network.scriptHash :: scriptHashOutput (sampleHashes.hash160 script))
  outputAddress network script := Hex.encode (network.scriptHash :: script)
  witnessScriptHash script := (sampleHashes.sha256 script).val
  floats _ _ := .eq

theorem sampleLevel_levelText (l : Nat × Bool) : sampleLevel (levelText l) = l := by
  obtain ⟨n, b⟩ := l
  have ha := apostrophe_not_mem_dec n
  cases b
  · simp [sampleLevel, levelText, Php.remove_of_not_mem ha, ha]
  · simp [sampleLevel, levelText, Php.remove_append_of_not_mem ha]

theorem slash_not_mem_levelText (l : Nat × Bool) : '/' ∉ levelText l := by
  unfold levelText
  split
  · simp only [List.mem_append, List.mem_singleton, not_or]
    exact ⟨slash_not_mem_dec l.1, by decide⟩
  · exact slash_not_mem_dec l.1

theorem sampleBitWasp_standard : sampleBitWasp.Standard sampleHD sampleHashes where
  fromEntropy seed n h := by
    cases h
    rfl
  derivePath n levels hne _ := by
    rcases levels with _ | ⟨l, ls⟩
    · exact absurd rfl hne
    have hsplit : (Php.implode '/' ((l :: ls).map levelText)).splitOn '/' = (l :: ls).map levelText := by
      refine Php.splitOn_implode fun y hy => ?_
      obtain ⟨l', -, rfl⟩ := List.mem_map.mp (show y ∈ (l :: ls).map levelText from hy)
      exact slash_not_mem_levelText l'
    have hlevels : ((l :: ls).map levelText).map sampleLevel = l :: ls := by
      simp [Function.comp_def, sampleLevel_levelText]
    show ((((Php.implode '/' ((l :: ls).map levelText)).splitOn '/').map sampleLevel).foldlM (deriveLevel sampleHD)
      n).toOption = _
    rw [hsplit, hlevels]
  toPublic _ := rfl
  getPublicKey _ := rfl
  multisig _ _ := rfl
  p2shScript _ := rfl
  p2shWitness _ := rfl
  p2shOutput _ := rfl
  outputAddress _ _ := rfl
  witnessScriptHash _ := rfl

end PhpSdk
