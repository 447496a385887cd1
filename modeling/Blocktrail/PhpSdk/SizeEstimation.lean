import Blocktrail.Bitcoin.TxSize
import Blocktrail.Lib.Encoding
import Blocktrail.Lib.Throwing
import Blocktrail.PhpSdk.Keys

/-! # Size estimation, in PHP -/

open Text Throwing Bitcoin

namespace PhpSdk

namespace SizeEstimation

/-! ## Scripts of `bitwasp/bitcoin` -/

/-- The constants of `ScriptType` that the SDK names, and the others. -/
inductive ScriptType
  | MULTISIG
  | P2PK
  | P2PKH
  | P2SH
  | P2WKH
  | P2WSH
  | other
deriving DecidableEq

/-- `OutputClassifier`, `Multisig` and `PayToPubKey`, of a script. -/
structure OutputClassifier where
  /-- `decode($script)->getType()`. -/
  getType : Bytes → ScriptType
  /-- `ScriptFactory::scriptPubKey()->p2pkh(decode($script)->getSolution())`. -/
  p2pkhOfSolution : Bytes → Bytes
  isMultisig : Bytes → Bool
  isPayToPublicKey : Bytes → Bool
  isPayToPublicKeyHash : Bytes → Bool
  getRequiredSigCount : Bytes → Nat
  getKeyBuffers : Bytes → List Bytes
  getKeyBuffer : Bytes → Bytes

/-- The library knows the standard outputs. -/
structure OutputClassifier.Standard (c : OutputClassifier) : Prop where
  multisig : ∀ t : Multisig, c.getType t.script = .MULTISIG ∧ c.isMultisig t.script = true ∧
    c.getRequiredSigCount t.script = t.m ∧ c.getKeyBuffers t.script = t.keys.map (·.val)
  pubKey : ∀ key : CanonicalKey, c.getType (pubKeyOutput key.val) = .P2PK ∧ c.isMultisig (pubKeyOutput key.val) = false ∧
    c.isPayToPublicKey (pubKeyOutput key.val) = true
  pubKeyHash : ∀ h, c.getType (pubKeyHashOutput h) = .P2PKH ∧ c.isMultisig (pubKeyHashOutput h) = false ∧
    c.isPayToPublicKey (pubKeyHashOutput h) = false ∧ c.isPayToPublicKeyHash (pubKeyHashOutput h) = true
  scriptHash : ∀ h, c.getType (scriptHashOutput h) = .P2SH
  witnessPubKeyHash : ∀ h, c.getType (witnessPubKeyHashOutput h) = .P2WKH ∧
    c.p2pkhOfSolution (witnessPubKeyHashOutput h) = pubKeyHashOutput h
  witnessScriptHash : ∀ h, c.getType (witnessScriptHashOutput h) = .P2WSH

variable (c : OutputClassifier)

/-! ## Lengths -/

def SIZE_DER_SIGNATURE : Nat := 72

def getPublicKeySize (compressed : Bool) : Nat := if compressed then 33 else 65

def getLengthOfScriptLengthElement (length : Nat) : Except PhpError Nat :=
  if length < 75 then .ok 1
  else if length ≤ 0xff then .ok 2
  else if length ≤ 0xffff then .ok 3
  else if length ≤ 0xffffffff then .ok 5
  else .error ⟨"RuntimeException", "Size of pushdata too large"⟩

def getLengthOfVarInt (length : Nat) : Except PhpError Nat :=
  if length < 253 then .ok 1
  else if length < 65535 then .ok (1 + 2)
  else if length < 4294967295 then .ok (1 + 4)
  else if length < 18446744073709551615 then .ok (1 + 8)
  else .error ⟨"InvalidArgumentException", "Invalid decimal"⟩

def getLengthOfVector (vectorSizes : List Nat) : Except PhpError Nat := do
  let vectorSize ← getLengthOfVarInt vectorSizes.length
  return vectorSize + (← sumM (fun size => do return (← getLengthOfVarInt size) + size) vectorSizes)

/-! ## Stacks

The sizes of the stack, and the size of the script.
-/

def estimateMultisigStackSize (script : Bytes) : List Nat × Nat :=
  (0 :: List.replicate (c.getRequiredSigCount script) SIZE_DER_SIGNATURE,
    1 + ((c.getKeyBuffers script).map fun key => 1 + key.length).sum + (1 + 1))

def estimateP2PKStackSize (script : Bytes) : List Nat × Nat :=
  ([SIZE_DER_SIGNATURE], 1 + (c.getKeyBuffer script).length + 1)

def estimateP2PKHStackSize (isCompressed : Bool) : List Nat × Nat :=
  ([SIZE_DER_SIGNATURE, getPublicKeySize isCompressed], 1 + 1 + 1 + 20 + 1 + 1)

/-- `assert(($witnessScript === null) || $isWitness)`, where assertions throw. -/
def assertWitness (witnessScript : Option Bytes) (isWitness : Bool) : Except PhpError Unit :=
  if witnessScript.isNone || isWitness then .ok () else .error ⟨"AssertionError", "assert($witnessScript === null)"⟩

def estimateSizeForStack (stackSizes : List Nat) (isWitness : Bool) (redeemScript witnessScript : Option Bytes) :
    Except PhpError (Nat × Nat) := do
  assertWitness witnessScript isWitness
  let scriptSigSizes := (if isWitness then [] else stackSizes) ++ redeemScript.toList.map List.length
  let witnessSizes := if isWitness then stackSizes ++ witnessScript.toList.map List.length else []
  let scriptSigSize ← sumM (fun size => do return (← getLengthOfScriptLengthElement size) + size) scriptSigSizes
  let scriptSigSize := scriptSigSize + (← getLengthOfVarInt scriptSigSize)
  if witnessSizes.length > 0 then return (scriptSigSize, ← getLengthOfVector witnessSizes)
  else return (scriptSigSize, 0)

/-! ## Inputs -/

/-- The stack of a script that signatures satisfy. -/
def stackSizesOf (script : Bytes) : Except PhpError (List Nat) :=
  if c.isMultisig script then .ok (estimateMultisigStackSize c script).1
  else if c.isPayToPublicKey script then .ok (estimateP2PKStackSize c script).1
  else if c.isPayToPublicKeyHash script then .ok (estimateP2PKHStackSize true).1
  else .error ⟨"InvalidArgumentException", "Unsupported script type"⟩

def estimateInputFromScripts (script : Bytes) (redeemScript witnessScript : Option Bytes) (isWitness : Bool) :
    Except PhpError (Nat × Nat) := do
  assertWitness witnessScript isWitness
  let stackSizes ← stackSizesOf c script
  estimateSizeForStack stackSizes isWitness redeemScript witnessScript

/-- An unspent output, with its scripts. -/
structure UTXO where
  scriptPubKey : Bytes
  redeemScript : Option Bytes
  witnessScript : Option Bytes

/-- The script to decode in place of the output's own. -/
def redeemed (utxo : UTXO) : Except PhpError Bytes :=
  if c.getType utxo.scriptPubKey = .P2SH then
    match utxo.redeemScript with
    | some redeemScript => .ok redeemScript
    | none => .error ⟨"RuntimeException", "Can't estimate, missing redeem script"⟩
  else .ok utxo.scriptPubKey

/-- The script to decode in place of a witness program, and whether there is one. -/
def witnessed (script : Bytes) (witnessScript : Option Bytes) : Except PhpError (Bytes × Bool) :=
  if c.getType script = .P2WKH then .ok (c.p2pkhOfSolution script, true)
  else if c.getType script = .P2WSH then
    match witnessScript with
    | some witnessScript => .ok (witnessScript, true)
    | none => .error ⟨"RuntimeException", "Can't estimate, missing witness script"⟩
  else .ok (script, false)

def estimateUtxo (utxo : UTXO) : Except PhpError InputSize := do
  let (script, witness) ← witnessed c (← redeemed c utxo) utxo.witnessScript
  if c.getType script ∈ [ScriptType.MULTISIG, .P2PKH, .P2PK] then
    let (scriptSig, witness) ← estimateInputFromScripts c script utxo.redeemScript utxo.witnessScript witness
    return ⟨scriptSig, witness⟩
  else throw ⟨"RuntimeException", "Unsupported script type"⟩

/-- The sums of both sizes, over one more input. -/
def addInput (withWitness : Bool) (sizes : Nat × Nat) (utxo : UTXO) : Except PhpError (Nat × Nat) := do
  let estimate ← estimateUtxo c utxo
  return (sizes.1 + (32 + 4 + 4) + estimate.scriptSig, if withWitness then sizes.2 + estimate.witness else sizes.2)

def estimateInputsSize (utxos : List UTXO) (withWitness : Bool) : Except PhpError Nat := do
  let (inputSize, witnessSize) ← utxos.foldlM (addInput c withWitness) (0, 0)
  return if withWitness && witnessSize ≠ 0 then inputSize + witnessSize + 2 else inputSize

/-! ## Outputs -/

/-- What is passed for an output: a `TransactionOutputInterface`, or an array whose `scriptPubKey` is a script, a text
of an even number of hex digits, or not set. -/
inductive OutputOption
  | output (script : Bytes)
  | script (script : Bytes)
  | hex (scriptPubKey : Str)
  | unset

def OutputOption.scriptSize : OutputOption → Nat
  | output s => s.length
  | script s => s.length
  | hex scriptPubKey => scriptPubKey.length / 2
  | unset => 25

def estimateOutputsSize (outputs : List OutputOption) : Except PhpError Nat :=
  sumM (fun output => do return 8 + ((← getLengthOfVarInt output.scriptSize) + output.scriptSize)) outputs

/-! ## Transactions -/

def estimateWeight (utxos : List UTXO) (outputs : List OutputOption) : Except PhpError Nat := do
  let outputsSize := (← estimateOutputsSize outputs) + (← getLengthOfVarInt outputs.length)
  let baseSize := 4 + (← getLengthOfVarInt utxos.length) + (← estimateInputsSize c utxos false) + outputsSize + 4
  let witnessSize := 4 + (← getLengthOfVarInt utxos.length) + (← estimateInputsSize c utxos true) + outputsSize + 4
  return baseSize * 3 + witnessSize

/-- `ceil` of a quarter of the weight. -/
def estimateVsize (utxos : List UTXO) (outputs : List OutputOption) : Except PhpError Nat := do
  return ((← estimateWeight c utxos outputs) + 3) / 4

/-! ## The estimate of an input -/

variable {c}

/-- An unspent output that a lock keeps, with its scripts. -/
def utxoOf (l : Lock) : UTXO := ⟨l.scriptPubKey, l.redeemScript, l.program.revealed⟩

theorem getLengthOfScriptLengthElement_ok {n : Nat} (h : n < 4294967296) :
    getLengthOfScriptLengthElement n = .ok (pushSize n) := by
  unfold getLengthOfScriptLengthElement pushSize
  split_ifs
  · rfl
  · rfl
  · rfl
  · rfl
  · omega

theorem getLengthOfVarInt_ok {n : Nat} (h : n < 18446744073709551615) : getLengthOfVarInt n = .ok (varIntSize n) := by
  unfold getLengthOfVarInt varIntSize
  split_ifs
  · rfl
  · rfl
  · rfl
  · rfl

theorem sum_pushes_ok {items : List Nat} (h : ∀ n ∈ items, n ≤ 1059) :
    sumM (fun n => do return (← getLengthOfScriptLengthElement n) + n) items =
      .ok (items.map fun n => pushSize n + n).sum := by
  refine sumM_ok fun n hn => ?_
  have := h n hn
  rw [getLengthOfScriptLengthElement_ok (by omega)]
  rfl

theorem getLengthOfVector_ok {items : List Nat} (h : ∀ n ∈ items, n ≤ 1059) (hl : items.length ≤ 18) :
    getLengthOfVector items = .ok (varIntSize items.length + (items.map fun n => varIntSize n + n).sum) := by
  have hsum : sumM (fun n => do return (← getLengthOfVarInt n) + n) items =
      .ok (items.map fun n => varIntSize n + n).sum := by
    refine sumM_ok fun n hn => ?_
    have := h n hn
    rw [getLengthOfVarInt_ok (by omega)]
    rfl
  rw [getLengthOfVector, getLengthOfVarInt_ok (by omega), ok_bind, hsum]
  rfl

theorem assertWitness_ok {ws : Option Bytes} {isWitness : Bool} (h : ws.isSome → isWitness = true) :
    assertWitness ws isWitness = .ok () := by
  refine if_pos ?_
  cases ws with
  | none => rfl
  | some _ => exact h rfl

theorem estimateSizeForStack_ok (s : SignScript) {isWitness : Bool} {rs ws : Option Bytes}
    (hws : ws.isSome → isWitness = true) (hrs : ∀ b ∈ rs, b.length ≤ 1059)
    (hws' : ∀ b ∈ ws, b.length ≤ 1059) :
    estimateSizeForStack s.stack isWitness rs ws =
      .ok ((stackSize s.stack isWitness rs ws).scriptSig, (stackSize s.stack isWitness rs ws).witness) := by
  unfold estimateSizeForStack stackSize
  rw [assertWitness_ok hws, ok_bind]
  cases isWitness with
  | true =>
    have hcount := length_items_le s ws
    have hne := s.items_ne_nil ws
    have hredeem := lengths_le hrs
    have hsum := sum_pushes_le hredeem (length_redeem_le rs)
    simp only [if_true, List.nil_append]
    rw [sum_pushes_ok hredeem, ok_bind, getLengthOfVarInt_ok (by omega), ok_bind,
      if_pos (List.length_pos_iff.mpr hne), getLengthOfVector_ok (mem_items_le hws') hcount, ok_bind, witnessSize,
      if_neg hne, Nat.add_comm (varIntSize _)]
    rfl
  | false =>
    have hitems := mem_items_le (s := s) hrs
    have hsum := sum_pushes_le hitems (length_items_le s rs)
    simp only [Bool.false_eq_true, if_false]
    rw [sum_pushes_ok hitems, ok_bind, getLengthOfVarInt_ok (by omega), ok_bind]
    rfl

theorem stackSizesOf_script (h : c.Standard) (s : SignScript) : stackSizesOf c s.script = .ok s.stack := by
  unfold stackSizesOf
  cases s with
  | multisig terms =>
    obtain ⟨-, his, hcount, -⟩ := h.multisig terms
    rw [SignScript.script, his, if_pos rfl, estimateMultisigStackSize, hcount]
    rfl
  | pubKey key =>
    obtain ⟨-, hmultisig, his⟩ := h.pubKey key
    rw [SignScript.script, hmultisig, his]
    rfl
  | pubKeyHash hash =>
    obtain ⟨-, hmultisig, hpubKey, his⟩ := h.pubKeyHash hash
    rw [SignScript.script, hmultisig, hpubKey, his]
    rfl

theorem getType_mem (h : c.Standard) (s : SignScript) :
    c.getType s.script ∈ [ScriptType.MULTISIG, ScriptType.P2PKH, ScriptType.P2PK] := by
  cases s with
  | multisig terms => simp [SignScript.script, (h.multisig terms).1]
  | pubKey key => simp [SignScript.script, (h.pubKey key).1]
  | pubKeyHash hash => simp [SignScript.script, (h.pubKeyHash hash).1]

theorem getType_ne (h : c.Standard) (s : SignScript) {t : ScriptType}
    (ht : t ∉ [ScriptType.MULTISIG, ScriptType.P2PKH, ScriptType.P2PK]) : c.getType s.script ≠ t := by
  rintro rfl
  exact ht (getType_mem h s)

theorem redeemed_lock (h : c.Standard) (l : Lock) : redeemed c (utxoOf l) = .ok l.program.bytes := by
  unfold redeemed
  cases l with
  | bare p =>
    have hnot : c.getType (utxoOf (.bare p)).scriptPubKey ≠ .P2SH := by
      cases p with
      | script s => exact getType_ne h s (by decide)
      | witnessKey hash =>
        show c.getType (witnessPubKeyHashOutput hash) ≠ .P2SH
        simp [(h.witnessPubKeyHash hash).1]
      | witnessScript s hash =>
        show c.getType (witnessScriptHashOutput hash) ≠ .P2SH
        simp [h.witnessScriptHash hash]
    rw [if_neg hnot]
    rfl
  | p2sh p hash =>
    rw [if_pos (show c.getType (utxoOf (.p2sh p hash)).scriptPubKey = .P2SH from h.scriptHash hash)]
    rfl

theorem witnessed_program (h : c.Standard) (p : Program) :
    witnessed c p.bytes p.revealed = .ok (p.signScript.script, p.isWitness) := by
  unfold witnessed
  cases p with
  | script s =>
    rw [Program.bytes, if_neg (getType_ne h s (by decide)), if_neg (getType_ne h s (by decide))]
    rfl
  | witnessKey hash =>
    rw [Program.bytes, if_pos (h.witnessPubKeyHash hash).1, (h.witnessPubKeyHash hash).2]
    rfl
  | witnessScript s hash =>
    rw [Program.bytes, h.witnessScriptHash hash, if_neg (by decide), if_pos rfl]
    rfl

/-- **One input.** The estimate of an unspent output that a standard lock keeps. -/
theorem estimateUtxo_ok (h : c.Standard) (l : Lock) : estimateUtxo c (utxoOf l) = .ok l.inputSize := by
  unfold estimateUtxo
  rw [redeemed_lock h, ok_bind]
  dsimp only [utxoOf]
  rw [witnessed_program h, ok_bind]
  dsimp only
  rw [if_pos (getType_mem h _), estimateInputFromScripts, assertWitness_ok l.program.isWitness_of_revealed, ok_bind,
    stackSizesOf_script h, ok_bind, estimateSizeForStack_ok _ l.program.isWitness_of_revealed l.length_redeemScript_le
      l.program.length_revealed_le]
  rfl

/-- **All inputs.** -/
theorem estimateInputsSize_ok (h : c.Standard) (locks : List Lock) (withWitness : Bool) :
    estimateInputsSize c (locks.map utxoOf) withWitness =
      .ok (inputsSize (locks.map Lock.inputSize) withWitness) := by
  have hloop : ∀ (a b : Nat), (locks.map utxoOf).foldlM (addInput c withWitness) (a, b) =
      .ok (a + ((locks.map Lock.inputSize).map fun size => 40 + size.scriptSig).sum,
        if withWitness then b + ((locks.map Lock.inputSize).map InputSize.witness).sum else b) := by
    induction locks with
    | nil => intro a b; cases withWitness <;> rfl
    | cons l locks ih =>
      intro a b
      rw [List.map_cons, List.foldlM_cons, addInput, estimateUtxo_ok h, ok_bind]
      simp only [List.map_cons, List.sum_cons]
      show (locks.map utxoOf).foldlM (addInput c withWitness) (_, _) = _
      rw [ih]
      cases withWitness <;> simp [Nat.add_assoc]
  rw [estimateInputsSize, hloop, ok_bind]
  unfold inputsSize
  cases withWitness with
  | false => simp [pure, Except.pure]
  | true =>
    simp only [if_true, true_and, Bool.true_and, Nat.zero_add, decide_eq_true_eq, ne_eq, Nat.pos_iff_ne_zero]
    split_ifs
    · rfl
    · rw [Nat.add_assoc, Nat.add_comm 2]
      rfl

end SizeEstimation

end PhpSdk
