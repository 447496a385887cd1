import Mathlib.Data.List.Nodup
import Blocktrail.JsSdk.BuildTransaction
import Blocktrail.JsSdk.Discovery

/-! # The transaction of a sweep

`WalletSweeper.createTransaction`, of the funds that were discovered. The builder adds the inputs, and what signs one
of them is a parameter.
-/

open Text Throwing Bitcoin Assoc

namespace JsSdk

namespace CreateTransaction

/-! ## Inputs -/

/-- An input, as it is listed for the signatures. -/
structure Input where
  txid : Str
  vout : Nat
  scriptPubKey : Str
  value : Int
  address : Str
  path : Str
  redeemScript : Bytes
  witnessScript : Option Bytes

def inputsAt (e : Str × AddressUTXOs) : List Input :=
  e.2.utxos.map fun utxo =>
    { txid := utxo.hash
      vout := utxo.index
      scriptPubKey := utxo.script_hex
      value := utxo.value
      address := e.1
      path := e.2.path
      redeemScript := e.2.redeem
      witnessScript := e.2.witness }

def inputsOf (sweepData : SweepData) : List Input := sweepData.utxos.entries.flatMap inputsAt

def addInputs (b : TransactionBuilder) (inputs : List Input) : Except JsError TransactionBuilder :=
  inputs.foldlM (fun b input => b.addInput input.txid input.vout) b

/-! ## The fee -/

/-- What a field of a record holds. -/
inductive Field
  | number (n : Nat)
  | string (s : Str)
  | buffer (b : Bytes)
  | null

namespace Field

/-- `Buffer.from(value, 'hex')`. -/
def toBuffer : Field → Except JsError Bytes
  | .string s => .ok (Hex.decode s)
  | .buffer b => .ok b
  | .number _ => .error ⟨"TypeError", "\"value\" argument must not be a number"⟩
  | .null => .error ⟨"TypeError", "First argument must be a string, Buffer, ArrayBuffer, Array, or array-like object."⟩

/-- The text of a field for which `typeof` is `'string'`. -/
def text? : Field → Option Str
  | .string s => some s
  | _ => none

end Field

/-- The fields of a record that the estimate reads. -/
structure CalcUtxo where
  scriptpubkey_hex : Field
  redeem_script : Field
  witness_script : Field

/-- `scriptpubkey_hex: input.vout`. -/
def calcUtxo (input : Input) : CalcUtxo where
  scriptpubkey_hex := .number input.vout
  redeem_script := .buffer input.redeemScript
  witness_script := input.witnessScript.elim .null .buffer

/-- How `estimateUtxo` reads a record. -/
def CalcUtxo.read (utxo : CalcUtxo) : Except JsError SizeEstimation.Utxo := do
  let spk ← utxo.scriptpubkey_hex.toBuffer
  return ⟨Hex.encode spk, utxo.redeem_script.text?, utxo.witness_script.text?⟩

/-- `Wallet.estimateVsizeFee(tx, utxos, feePerKb)`, of the output scripts. -/
def estimateVsizeFee (outs : List Bytes) (utxos : List SizeEstimation.Utxo) (feePerKb : Rat) :
    Except JsError (Option Int) := do
  let vsize ← SizeEstimation.estimateTxVsize outs utxos
  return feeOfSize vsize feePerKb

/-- The fee, where it is not given: that of the estimate, which may be `NaN`. -/
def feeOf (b : TransactionBuilder) (inputs : List Input) (fee : Option Int) (feePerKb : Rat) :
    Except JsError (Option Int) :=
  match fee with
  | some fee => .ok (some fee)
  | none => do
    let calcUtxos ← (inputs.map calcUtxo).mapM CalcUtxo.read
    estimateVsizeFee (b.tx.outs.map TxOutput.script) calcUtxos feePerKb

/-- `rawTransaction.tx.outs[outputIdx].value -= fee`, with the only output. No hash is made of the value `NaN`. -/
def payFee (b : TransactionBuilder) : Option Int → Except JsError TransactionBuilder
  | some fee => .ok { b with tx := { b.tx with outs := b.tx.outs.map fun out => { out with value := out.value - fee } } }
  | none => .error ⟨"Error", "value has a fractional component"⟩

/-! ## Signatures -/

/-- What signs: the keys beside the primary key, and the builder's own steps. `sign` gives the scripts of an input that
keys have signed, and `checkComplete` is what `build` refuses. -/
structure Signing (Node : Type) where
  backupPrivateKey : Option Node
  bitcoinCash : Bool
  sign : TransactionBuilder → Nat → List Node → Bytes → Byte → Int → Option Bytes → Except JsError TxIn
  checkComplete : TransactionBuilder → Tx → Except JsError Unit

variable {Node : Type} (p : Platform Node) (d : AddressDecoder) (sw : Sweeper Node) (s : Signing Node)

def sigHash : Byte := if s.bitcoinCash then SIGHASH_ALL ||| SIGHASH_BITCOINCASHBIP143 else SIGHASH_ALL

def signingKeys (path : Str) : Except JsError (List Node) := do
  let primaryPrivKey ← deriveByPath p.hd sw.primaryPrivateKey (replaceFirst 'M' "m" path) "m"
  let backupPrivKey ← s.backupPrivateKey.mapM fun backupPrivateKey =>
    deriveByPath p.hd backupPrivateKey (replaceFirst 'M' "m" (replaceFirst apostrophe [] path)) "m"
  return primaryPrivKey :: backupPrivKey.toList

def signInput (b : TransactionBuilder) (e : Input × Nat) : Except JsError TxIn := do
  let keys ← signingKeys p sw s e.1.path
  s.sign b e.2 keys e.1.redeemScript (sigHash s) e.1.value e.1.witnessScript

/-- `build()` with both keys, and `buildIncomplete()` with one. -/
def build (b : TransactionBuilder) (signed : List TxIn) : Except JsError Tx :=
  let tx := BuildTransaction.buildIncomplete b signed
  if s.backupPrivateKey.isSome then do
    s.checkComplete b tx
    return tx
  else return tx

/-- `toHex()`, of which the transaction is kept. -/
def serialize (tx : Tx) : Except JsError Tx :=
  if tx.outs.all fun out => 0 ≤ out.value then .ok tx
  else .error ⟨"Error", "specified a negative value for writing an unsigned value"⟩

def signTransaction (b : TransactionBuilder) (inputs : List Input) : Except JsError Tx := do
  let signed ← inputs.zipIdx.mapM (signInput p sw s b)
  let tx ← build s b signed
  serialize tx

/-- `new bitcoin.TransactionBuilder(this.network)`. -/
def newBuilder (network : Network) : TransactionBuilder :=
  { TransactionBuilder.new with network := network, bitcoinCash := s.bitcoinCash }

/-- `WalletSweeper.prototype.createTransaction`. -/
def createTransaction (sweepData : SweepData) (destinationAddress : Str) (fee : Option Int) (feePerKb : Rat) :
    Except JsError Tx := do
  let inputs := inputsOf sweepData
  let b ← addInputs (newBuilder s sw.network) inputs
  let b ← b.addOutput d destinationAddress sweepData.balance
  let fee ← feeOf b inputs fee feePerKb
  let b ← payFee b fee
  signTransaction p sw s b inputs

end CreateTransaction

end JsSdk
