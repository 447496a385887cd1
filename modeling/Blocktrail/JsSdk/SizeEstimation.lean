import Blocktrail.Bitcoin.TxSize
import Blocktrail.Lib.Doubles
import Blocktrail.Lib.Encoding
import Blocktrail.Lib.Throwing

/-! # Size estimation, in JavaScript -/

open Text Throwing Bitcoin

namespace JsSdk

namespace SizeEstimation

def SIZE_DER_SIGNATURE : Nat := 72

def getPublicKeySize (isCompressed : Bool) : Nat := if isCompressed then 33 else 65

def getLengthForScriptPush (length : Nat) : Except JsError Nat :=
  if length < 75 then .ok 1
  else if length ≤ 0xff then .ok 2
  else if length ≤ 0xffff then .ok 3
  else if length ≤ 0xffffffff then .ok 5
  else .error ⟨"Error", "Size of pushdata too large"⟩

def getLengthForVarInt (length : Nat) : Except JsError Nat :=
  if length < 253 then .ok 1
  else if length < 65535 then .ok (1 + 2)
  else if length < 4294967295 then .ok (1 + 4)
  else if length < 18446744073709551615 then .ok (1 + 8)
  else .error ⟨"Error", "Size of varint too large"⟩

/-! ## Stacks

The sizes of the stack, and the size of the script.
-/

def estimateMultisigStackSize (m : Nat) (keys : List Bytes) : Except JsError (List Nat × Nat) := do
  let stackSizes := 0 :: List.replicate m SIZE_DER_SIGNATURE
  let keysSize ← sumM (fun key => do return (← getLengthForScriptPush key.length) + key.length) keys
  return (stackSizes, 1 + keysSize + 2)

def estimateP2PKStackSize (key : Bytes) : Except JsError (List Nat × Nat) := do
  return ([SIZE_DER_SIGNATURE], (← getLengthForScriptPush key.length) + key.length + 1)

def estimateP2PKHStackSize (isCompressed : Option Bool) : Except JsError (List Nat × Nat) := do
  return ([SIZE_DER_SIGNATURE, getPublicKeySize (isCompressed.getD true)], 2 + (← getLengthForScriptPush 20) + 20 + 2)

/-- `assert(ws === null || isWitness)`. -/
def assertWitness (ws : Option Bytes) (isWitness : Bool) : Except JsError Unit :=
  if ws.isNone || isWitness then .ok () else .error ⟨"AssertionError", "false == true"⟩

def estimateStackSignatureSize (stackSizes : List Nat) (isWitness : Bool) (rs ws : Option Bytes) :
    Except JsError (Nat × Nat) := do
  assertWitness ws isWitness
  let witnessSizes := if isWitness then stackSizes ++ ws.toList.map List.length else []
  let scriptSigSizes := (if isWitness then [] else stackSizes) ++ rs.toList.map List.length
  let scriptSigSize ← sumM (fun n => do return (← getLengthForScriptPush n) + n) scriptSigSizes
  let scriptSigSize := scriptSigSize + (← getLengthForVarInt scriptSigSize)
  if witnessSizes.length > 0 then
    let witnessSize ← sumM (fun n => do return (← getLengthForVarInt n) + n) witnessSizes
    return (scriptSigSize, witnessSize + (← getLengthForVarInt witnessSizes.length))
  else return (scriptSigSize, 0)

/-! ## Inputs and outputs -/

def unsupported : JsError := ⟨"Error", "Unsupported script type"⟩

/-- The stack of a script that signatures satisfy. -/
def stackSizesOf (script : Bytes) (compressed : Option Bool) : Except JsError (List Nat) :=
  match multisigDecode (decompile script), pubKeyDecode (decompile script) with
  | some (m, pubKeys), _ => Prod.fst <$> estimateMultisigStackSize m pubKeys
  | none, some key => Prod.fst <$> estimateP2PKStackSize key
  | none, none =>
    if isPubKeyHashOutput script then Prod.fst <$> estimateP2PKHStackSize compressed else .error unsupported

def estimateInputFromScripts (script : Bytes) (redeemScript witnessScript : Option Bytes) (isWitness : Bool)
    (compressed : Option Bool) : Except JsError (Nat × Nat) := do
  assertWitness witnessScript isWitness
  let stackSizes ← stackSizesOf script compressed
  estimateStackSignatureSize stackSizes isWitness redeemScript witnessScript

/-- An unspent output, with its scripts in hex. -/
structure Utxo where
  scriptPubKeyHex : Str
  redeemScript : Option Str
  witnessScript : Option Str

/-- The script to sign in place of the output's own. -/
def redeemed (spk : Bytes) (rs : Option Bytes) : Except JsError Bytes :=
  if isScriptHashOutput spk then
    match rs with
    | some rs => .ok rs
    | none => .error ⟨"Error", "Cant estimate, missing redeem script"⟩
  else .ok spk

/-- The script to sign in place of a witness program, and whether there is one. -/
def witnessed (signScript : Bytes) (ws : Option Bytes) : Except JsError (Bytes × Bool) :=
  if isWitnessPubKeyHashOutput signScript then
    .ok (compile [.op OP_DUP, .op OP_HASH160, .data (signScript.drop 2), .op OP_EQUALVERIFY, .op OP_CHECKSIG], true)
  else if isWitnessScriptHashOutput signScript then
    match ws with
    | some ws => .ok (ws, true)
    | none => .error ⟨"Error", "Can't estimate, missing witness script"⟩
  else .ok (signScript, false)

def estimateUtxo (utxo : Utxo) (compressed : Option Bool) : Except JsError InputSize := do
  let spk := Hex.decode utxo.scriptPubKeyHex
  let rs := utxo.redeemScript.map Hex.decode
  let ws := utxo.witnessScript.map Hex.decode
  let (signScript, witness) ← witnessed (← redeemed spk rs) ws
  if classifyOutput signScript ∈ [OutputType.MULTISIG, .P2PKH, .P2PK] then
    let (scriptSig, witness) ← estimateInputFromScripts signScript rs ws witness compressed
    return ⟨scriptSig, witness⟩
  else throw unsupported

/-- The sums of both sizes, over one more input. -/
def addInput (withWitness : Bool) (sizes : Nat × Nat) (utxo : Utxo) : Except JsError (Nat × Nat) := do
  let estimate ← estimateUtxo utxo none
  return (sizes.1 + (32 + 4 + 4 + estimate.scriptSig), if withWitness then sizes.2 + estimate.witness else sizes.2)

def estimateInputsSize (utxos : List Utxo) (withWitness : Bool) : Except JsError Nat := do
  let (inputSize, witnessSize) ← utxos.foldlM (addInput withWitness) (0, 0)
  return if withWitness && witnessSize > 0 then inputSize + (2 + witnessSize) else inputSize

def calculateOutputsSize (outs : List Bytes) : Except JsError Nat :=
  sumM (fun script => do return 8 + (← getLengthForVarInt script.length) + script.length) outs

/-! ## Transactions -/

/-- The weight of a transaction with the output scripts `outs`. -/
def estimateTxWeight (outs : List Bytes) (utxos : List Utxo) : Except JsError Nat := do
  let outSize ← calculateOutputsSize outs
  let baseSize := 4 + (← getLengthForVarInt utxos.length) + (← estimateInputsSize utxos false) +
    (← getLengthForVarInt outs.length) + outSize + 4
  let witSize := 4 + (← getLengthForVarInt utxos.length) + (← estimateInputsSize utxos true) +
    (← getLengthForVarInt outs.length) + outSize + 4
  return 3 * baseSize + witSize

/-- `Math.ceil` of a quarter of the weight. -/
def estimateTxVsize (outs : List Bytes) (utxos : List Utxo) : Except JsError Nat := do
  return ((← estimateTxWeight outs utxos) + 3) / 4

/-! ## The estimate of an input -/

/-- An unspent output that a lock keeps, with its scripts. -/
def utxoOf (l : Lock) : Utxo where
  scriptPubKeyHex := Hex.encode l.scriptPubKey
  redeemScript := l.redeemScript.map Hex.encode
  witnessScript := l.program.revealed.map Hex.encode

theorem getLengthForScriptPush_ok {n : Nat} (h : n < 4294967296) : getLengthForScriptPush n = .ok (pushSize n) := by
  unfold getLengthForScriptPush pushSize
  split_ifs
  · rfl
  · rfl
  · rfl
  · rfl
  · omega

theorem getLengthForVarInt_ok {n : Nat} (h : n < 18446744073709551615) : getLengthForVarInt n = .ok (varIntSize n) := by
  unfold getLengthForVarInt varIntSize
  split_ifs
  · rfl
  · rfl
  · rfl
  · rfl

theorem sum_pushes_ok {items : List Nat} (h : ∀ n ∈ items, n ≤ 1059) :
    sumM (fun n => do return (← getLengthForScriptPush n) + n) items =
      .ok (items.map fun n => pushSize n + n).sum := by
  refine sumM_ok fun n hn => ?_
  have := h n hn
  rw [getLengthForScriptPush_ok (by omega)]
  rfl

theorem sum_varInts_ok {items : List Nat} (h : ∀ n ∈ items, n ≤ 1059) :
    sumM (fun n => do return (← getLengthForVarInt n) + n) items =
      .ok (items.map fun n => varIntSize n + n).sum := by
  refine sumM_ok fun n hn => ?_
  have := h n hn
  rw [getLengthForVarInt_ok (by omega)]
  rfl

theorem assertWitness_ok {ws : Option Bytes} {isWitness : Bool} (h : ws.isSome → isWitness = true) :
    assertWitness ws isWitness = .ok () := by
  refine if_pos ?_
  cases ws with
  | none => rfl
  | some _ => exact h rfl

theorem estimateStackSignatureSize_ok (s : SignScript) {isWitness : Bool} {rs ws : Option Bytes}
    (hws : ws.isSome → isWitness = true) (hrs : ∀ b ∈ rs, b.length ≤ 1059)
    (hws' : ∀ b ∈ ws, b.length ≤ 1059) :
    estimateStackSignatureSize s.stack isWitness rs ws =
      .ok ((stackSize s.stack isWitness rs ws).scriptSig, (stackSize s.stack isWitness rs ws).witness) := by
  unfold estimateStackSignatureSize stackSize
  rw [assertWitness_ok hws, ok_bind]
  cases isWitness with
  | true =>
    have hcount := length_items_le s ws
    have hne := s.items_ne_nil ws
    have hredeem := lengths_le hrs
    have hsum := sum_pushes_le hredeem (length_redeem_le rs)
    simp only [if_true, List.nil_append]
    rw [sum_pushes_ok hredeem, ok_bind, getLengthForVarInt_ok (by omega), ok_bind,
      if_pos (List.length_pos_iff.mpr hne), sum_varInts_ok (mem_items_le hws'), ok_bind,
      getLengthForVarInt_ok (by omega), ok_bind, witnessSize, if_neg hne]
    rfl
  | false =>
    have hitems := mem_items_le (s := s) hrs
    have hsum := sum_pushes_le hitems (length_items_le s rs)
    simp only [Bool.false_eq_true, if_false]
    rw [sum_pushes_ok hitems, ok_bind, getLengthForVarInt_ok (by omega), ok_bind]
    rfl

theorem stackSizesOf_script (s : SignScript) : stackSizesOf s.script none = .ok s.stack := by
  cases s with
  | multisig terms =>
    have hkeys : sumM (fun key : Bytes => do return (← getLengthForScriptPush key.length) + key.length)
        (terms.keys.map (·.val)) =
        .ok ((terms.keys.map (·.val)).map fun key => pushSize key.length + key.length).sum := by
      refine sumM_ok fun key hkey => ?_
      obtain ⟨key, -, rfl⟩ := List.mem_map.mp hkey
      have hl := length_of_isCanonicalPubKey key.property
      rw [getLengthForScriptPush_ok (by omega)]
      rfl
    rw [stackSizesOf, SignScript.script, terms.multisigDecode_script]
    dsimp only
    rw [estimateMultisigStackSize, hkeys, ok_bind]
    rfl
  | pubKey key =>
    have hl := length_of_isCanonicalPubKey key.property
    rw [stackSizesOf, SignScript.script, multisigDecode_pubKeyOutput, pubKeyDecode_pubKeyOutput]
    dsimp only
    rw [estimateP2PKStackSize, getLengthForScriptPush_ok (by omega), ok_bind]
    rfl
  | pubKeyHash hash =>
    obtain ⟨hmultisig, hpubKey⟩ := decode_pubKeyHashOutput hash
    rw [stackSizesOf, SignScript.script, hmultisig, hpubKey]
    dsimp only
    rw [if_pos (isPubKeyHashOutput_pubKeyHashOutput hash)]
    rfl

theorem classifyOutput_mem (s : SignScript) :
    classifyOutput s.script ∈ [OutputType.MULTISIG, OutputType.P2PKH, OutputType.P2PK] := by
  cases s with
  | multisig terms => simp [SignScript.script, terms.classifyOutput_script]
  | pubKey key => simp [SignScript.script, classifyOutput_pubKeyOutput]
  | pubKeyHash hash => simp [SignScript.script, classifyOutput_pubKeyHashOutput]

theorem redeemed_lock (l : Lock) : redeemed l.scriptPubKey l.redeemScript = .ok l.program.bytes := by
  unfold redeemed
  cases l with
  | bare p =>
    have hnot : isScriptHashOutput (Lock.bare p).scriptPubKey = false := p.not_isScriptHashOutput
    rw [hnot]
    rfl
  | p2sh p hash =>
    have his : isScriptHashOutput (Lock.p2sh p hash).scriptPubKey = true := isScriptHashOutput_scriptHashOutput hash
    rw [his]
    rfl

theorem witnessed_program (p : Program) :
    witnessed p.bytes p.revealed = .ok (p.signScript.script, p.isWitness) := by
  cases p with
  | script s =>
    have hnot : isWitnessPubKeyHashOutput s.script = false ∧ isWitnessScriptHashOutput s.script = false := by
      cases s with
      | multisig terms => exact ⟨terms.not_hashOutput_script.1, terms.not_hashOutput_script.2.1⟩
      | pubKey key => exact ⟨(not_hashOutput_pubKeyOutput key).1, (not_hashOutput_pubKeyOutput key).2.1⟩
      | pubKeyHash hash =>
        exact ⟨(not_witnessOutput_pubKeyHashOutput hash).1, (not_witnessOutput_pubKeyHashOutput hash).2.1⟩
    simp [witnessed, Program.bytes, Program.signScript, Program.isWitness, hnot]
  | witnessKey hash =>
    unfold witnessed
    rw [Program.bytes, (isWitnessPubKeyHashOutput_self hash).1, if_pos rfl, witnessPubKeyHashOutput_eq]
    rfl
  | witnessScript s hash =>
    obtain ⟨hws, hwk, -⟩ := isWitnessScriptHashOutput_self hash
    unfold witnessed
    rw [Program.bytes, hwk, hws]
    rfl

/-- **One input.** The estimate of an unspent output that a standard lock keeps. -/
theorem estimateUtxo_ok (l : Lock) : estimateUtxo (utxoOf l) none = .ok l.inputSize := by
  have hrs : (utxoOf l).redeemScript.map Hex.decode = l.redeemScript := by
    cases l <;> simp [utxoOf, Lock.redeemScript, Hex.decode_encode]
  have hws : (utxoOf l).witnessScript.map Hex.decode = l.program.revealed := by
    simp [utxoOf, Option.map_map, Function.comp_def, Hex.decode_encode]
  unfold estimateUtxo
  rw [hrs, hws]
  dsimp only [utxoOf]
  rw [Hex.decode_encode, redeemed_lock, ok_bind, witnessed_program, ok_bind]
  dsimp only
  rw [if_pos (classifyOutput_mem _), estimateInputFromScripts, assertWitness_ok l.program.isWitness_of_revealed, ok_bind,
    stackSizesOf_script, ok_bind, estimateStackSignatureSize_ok _ l.program.isWitness_of_revealed
      l.length_redeemScript_le l.program.length_revealed_le]
  rfl

/-- **All inputs.** -/
theorem estimateInputsSize_ok (locks : List Lock) (withWitness : Bool) :
    estimateInputsSize (locks.map utxoOf) withWitness = .ok (inputsSize (locks.map Lock.inputSize) withWitness) := by
  have hloop : ∀ (a b : Nat), (locks.map utxoOf).foldlM (addInput withWitness) (a, b) =
      .ok (a + ((locks.map Lock.inputSize).map fun size => 40 + size.scriptSig).sum,
        if withWitness then b + ((locks.map Lock.inputSize).map InputSize.witness).sum else b) := by
    induction locks with
    | nil => intro a b; cases withWitness <;> rfl
    | cons l locks ih =>
      intro a b
      rw [List.map_cons, List.foldlM_cons, addInput, estimateUtxo_ok, ok_bind]
      simp only [List.map_cons, List.sum_cons]
      show (locks.map utxoOf).foldlM (addInput withWitness) (_, _) = _
      rw [ih]
      cases withWitness <;> simp [Nat.add_assoc]
  rw [estimateInputsSize, hloop, ok_bind]
  unfold inputsSize
  cases withWitness with
  | false => simp [pure, Except.pure]
  | true =>
    simp only [if_true, true_and, Bool.true_and, Nat.zero_add, decide_eq_true_eq, gt_iff_lt]
    split_ifs
    · rfl
    · rfl

end SizeEstimation

/-! ## Fees -/

def BASE_FEE : Nat := 10000

/-- What `estimateVsizeFee` and `estimateIncompleteTxFee` make of a size. The products are doubles, and `none` is `NaN`. -/
def feeOfSize (size : Nat) (feePerKb : Rat) : Option Int :=
  if feePerKb ≠ 0 then do
    let sizeKB ← Doubles.nearest (size / 1000)
    let fee ← Doubles.nearest (sizeKB * feePerKb)
    return Doubles.parseInt fee
  else
    let sizeKBCeil := (size + 999) / 1000
    some (sizeKBCeil * BASE_FEE : Nat)

-- The first product is below 30140, and the second below 6940.
example : feeOfSize 3014 10000 = some 30139 ∧ feeOfSize 347 20000 = some 6939 ∧ feeOfSize 341 10000 = some 3410 := by
  decide +kernel

end JsSdk
