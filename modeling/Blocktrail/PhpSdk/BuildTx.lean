import Blocktrail.PhpSdk.SizeEstimation
import Blocktrail.PhpSdk.Sweeper

/-! # Building a transaction, in PHP

What is left over is change or fee. The fee depends on whether there is a change output, and the change on the fee.
-/

open Text Throwing Bitcoin

namespace PhpSdk

variable {Node : Type}

def DUST : Int := 2730

def BASE_FEE : Int := 10000

/-! ## The transaction builder -/

/-- An unspent output to spend, as far as it is known. -/
structure UTXO where
  hash : Str
  index : Nat
  value : Option Int
  address : Option Str
  scriptPubKey : Option Bytes
  path : Option Str
  redeemScript : Option Bytes
  witnessScript : Option Bytes
  signMode : SignMode
deriving DecidableEq

/-- Whom an output is for: `scriptPubKey` as a script or in hex, an `address`, or neither is set. -/
inductive Recipient
  | script (scriptPubKey : Bytes)
  | hex (scriptPubKey : Str)
  | address (address : Str)
  | unset
deriving DecidableEq

structure Output where
  recipient : Recipient
  value : Int
deriving DecidableEq

inductive FeeStrategy
  | force_fee
  | base_fee
  | high_priority
  | optimal
  | low_priority
  | unknown (feeStrategy : Str)
deriving DecidableEq

structure TransactionBuilder where
  utxos : List UTXO
  outputs : List Output
  changeAddress : Option Str
  randomizeChangeOutput : Bool
  fee : Option Int
  validateFee : Option Int
  feeStrategy : FeeStrategy

structure FeeRates where
  highPriorityFeePerKB : Nat
  optimalFeePerKB : Nat
  lowPriorityFeePerKB : Nat

/-! ## The fee -/

/-- What the size estimation makes of a recipient. -/
def Recipient.option : Recipient → SizeEstimation.OutputOption
  | script scriptPubKey => .script scriptPubKey
  | hex scriptPubKey => .hex scriptPubKey
  | address _ => .unset
  | unset => .unset

def UTXO.scripts (utxo : UTXO) : Except PhpError SizeEstimation.UTXO :=
  match utxo.scriptPubKey with
  | some scriptPubKey => .ok ⟨scriptPubKey, utxo.redeemScript, utxo.witnessScript⟩
  | none => .error ⟨"TypeError", "decode() must implement ScriptInterface, null given"⟩

def estimateVsize (c : SizeEstimation.OutputClassifier) (utxos : List UTXO) (outputs : List Output) :
    Except PhpError Nat := do
  SizeEstimation.estimateVsize c (← utxos.mapM UTXO.scripts) (outputs.map fun output => output.recipient.option)

def baseFeeForSize (size : Nat) : Int := ((size + 999) / 1000 : Nat) * BASE_FEE

/-- `(int)round(($size / 1000) * $feePerKB)`. -/
def feeForSize (size feePerKB : Nat) : Int := ((2 * (size * feePerKB) + 1000) / 2000 : Nat)

def determineFee (c : SizeEstimation.OutputClassifier) (utxos : List UTXO) (outputs : List Output)
    (feeStrategy : FeeStrategy) (rates : FeeRates) : Except PhpError Int := do
  let size ← estimateVsize c utxos outputs
  match feeStrategy with
  | .base_fee => pure (baseFeeForSize size)
  | .high_priority => pure (feeForSize size rates.highPriorityFeePerKB)
  | .optimal => pure (feeForSize size rates.optimalFeePerKB)
  | .low_priority => pure (feeForSize size rates.lowPriorityFeePerKB)
  | .force_fee => throw ⟨"BlocktrailSDKException", "Can't determine when for force_fee"⟩
  | .unknown feeStrategy => throw ⟨"BlocktrailSDKException", "Unknown feeStrategy [" ++ feeStrategy ++ "]"⟩

/-- `array_sum` of the values, where one that is not set counts as 0. -/
def inputsTotal (utxos : List UTXO) : Int := (utxos.map fun utxo => utxo.value.getD 0).sum

def outputsTotal (outputs : List Output) : Int := (outputs.map Output.value).sum

def determineChange (utxos : List UTXO) (outputs : List Output) (fee : Int) : Int :=
  inputsTotal utxos - outputsTotal outputs - fee

/-- `['address' => 'change', 'value' => $change]`. -/
def changeOutput (change : Int) : Output := ⟨.address "change".toList, change⟩

/-- Whether a change output is wanted, by the fees without and with it, and which change is left. -/
def changeAfter (utxos : List UTXO) (outputs : List Output) (fee fee2 change : Int) : Int :=
  if fee2 > fee ∧ fee2 > change then 0
  else if determineChange utxos outputs fee2 > DUST then determineChange utxos outputs fee2
  else 0

/-- `[$fee, $change]`. -/
def determineFeeAndChange (c : SizeEstimation.OutputClassifier) (txBuilder : TransactionBuilder) (rates : FeeRates) :
    Except PhpError (Int × Int) := do
  let send := txBuilder.outputs
  let utxos := txBuilder.utxos
  match txBuilder.fee with
  | some fee =>
    let change := determineChange utxos send fee
    if change > DUST then pure (fee, change) else pure (fee + change, 0)
  | none => do
    let fee ← determineFee c utxos send txBuilder.feeStrategy rates
    let change := determineChange utxos send fee
    if change > 0 then do
      let fee2 ← determineFee c utxos (send ++ [changeOutput change]) txBuilder.feeStrategy rates
      let change := changeAfter utxos send fee fee2 change
      let send := if 0 < change then send ++ [changeOutput change] else send
      let fee ← determineFee c utxos send txBuilder.feeStrategy rates
      pure (fee, change)
    else do
      let fee ← determineFee c utxos send txBuilder.feeStrategy rates
      pure (fee, change)

/-! ## The transaction -/

/-- An output as the data API has it. -/
structure ChainOutput where
  address : Str
  value : Int
  script : Bytes

/-- What the wallet uses to build a transaction. -/
structure PaymentServices (Node : Type) where
  php : BitWasp Node
  wallet : Wallet Node
  classifier : SizeEstimation.OutputClassifier
  /-- The outputs of a transaction. -/
  transaction : Str → Option (List ChainOutput)
  getPathForAddress : Str → Except PhpError Str
  getNewChangeAddress : Except PhpError Str
  rates : FeeRates
  /-- The script of `AddressFactory::fromString($address)`. -/
  addressScript : Str → Except PhpError Bytes
  shuffle : List Output → List Output
  shuffle_perm : ∀ outputs, (shuffle outputs).Perm outputs

/-- A text that counts as true. -/
def given (s : Option Str) : Option Str := s.filter fun s => s ≠ [] ∧ s ≠ "0".toList

def getSignInfo (php : BitWasp Node) (utxo : UTXO) : Except PhpError SignInfo := do
  let info : SignInfo := ⟨utxo.signMode, utxo.path, utxo.redeemScript, utxo.witnessScript, utxo.value,
    Hex.encode (utxo.scriptPubKey.getD [])⟩
  match utxo.signMode with
  | .dontSign => pure info
  | .sign =>
    match utxo.path, utxo.redeemScript with
    | none, _ => throw ⟨"BlocktrailSDKException", "No path provided for sign SignInfo"⟩
    | some _, none => throw ⟨"BlocktrailSDKException", "No redeemScript provided for sign SignInfo"⟩
    | some _, some redeemScript =>
      match witnessProgram redeemScript, utxo.witnessScript with
      | none, _ => pure info
      | some _, none => throw ⟨"BlocktrailSDKException", "No witnessScript provided for sign SignInfo"⟩
      | some programHash, some witnessScript =>
        if php.witnessScriptHash witnessScript = programHash then pure info
        else throw ⟨"BlocktrailSDKException", "Invalid witnessScript provided for redeemScript"⟩

def invalidOutput (utxo : UTXO) : PhpError :=
  ⟨"Exception", "Invalid output [" ++ utxo.hash ++ "][" ++ dec utxo.index ++ "]"⟩

/-- The address, the value and the script of an unspent output, from the data API where one is missing. -/
def withOutput (services : PaymentServices Node) (utxo : UTXO) : Except PhpError UTXO :=
  if utxo.address.isNone ∨ utxo.value.getD 0 = 0 ∨ utxo.scriptPubKey.isNone then
    match (services.transaction utxo.hash).bind (·[utxo.index]?) with
    | none => .error (invalidOutput utxo)
    | some output =>
      .ok { utxo with
        address := some (utxo.address.getD output.address)
        value := if utxo.value.getD 0 = 0 then some output.value else utxo.value
        scriptPubKey := some (utxo.scriptPubKey.getD output.script) }
  else .ok utxo

/-- The path and the scripts to sign with, from the wallet where one is missing. -/
def withScripts (services : PaymentServices Node) (utxo : UTXO) : Except PhpError UTXO :=
  match utxo.signMode with
  | .dontSign => pure utxo
  | .sign => do
    let path ←
      match given utxo.path with
      | some path => pure path
      | none => services.getPathForAddress (utxo.address.getD [])
    if utxo.redeemScript.isNone ∨ utxo.witnessScript.isNone then do
      let scripts ← services.wallet.getWalletScriptByPath services.php path
      pure { utxo with path := some path, redeemScript := some scripts.redeemScript, witnessScript := scripts.witnessScript }
    else pure { utxo with path := some path }

/-- One turn of the loop over the unspent outputs. -/
def prepare (services : PaymentServices Node) (utxo : UTXO) : Except PhpError (UTXO × SignInfo) := do
  let utxo ← withOutput services utxo
  let utxo ← withScripts services utxo
  let info ← getSignInfo services.php utxo
  pure (utxo, info)

/-- A transaction before it is signed: its outpoints, and its outputs with their values. -/
structure BaseTx where
  inputs : List (Str × Nat)
  outputs : List (Int × Bytes)

def addOut (services : PaymentServices Node) (out : Output) : Except PhpError (Int × Bytes) :=
  match out.recipient with
  | .script scriptPubKey => .ok (out.value, scriptPubKey)
  | .hex _ => .error ⟨"TypeError", "TxBuilder::output() must implement ScriptInterface, string given"⟩
  | .address address => do
    let script ← services.addressScript address
    pure (out.value, script)
  | .unset => .error ⟨"Exception", []⟩

def changeAddressOf (services : PaymentServices Node) (txBuilder : TransactionBuilder) : Except PhpError Str :=
  match given txBuilder.changeAddress with
  | some address => .ok address
  | none => services.getNewChangeAddress

def incorrectFee (validateFee fee : Int) : PhpError :=
  ⟨"Exception", "the fee suggested by the coin selection (" ++ Php.ofInt validateFee ++ ") seems incorrect (" ++
    Php.ofInt fee ++ ")"⟩

def sanityCheck (txBuilder : TransactionBuilder) (fee : Int) : Except PhpError Unit :=
  match txBuilder.validateFee with
  | some validateFee => if (validateFee - fee).natAbs > BASE_FEE * 5 then .error (incorrectFee validateFee fee) else .ok ()
  | none => .ok ()

/-- The outputs asked for, and one for a change that is positive. -/
def addChange (services : PaymentServices Node) (txBuilder : TransactionBuilder) (change : Int) :
    Except PhpError (List Output) :=
  if change > 0 then do
    let address ← changeAddressOf services txBuilder
    pure (txBuilder.outputs ++ [⟨.address address, change⟩])
  else pure txBuilder.outputs

def buildTx (services : PaymentServices Node) (txBuilder : TransactionBuilder) :
    Except PhpError (BaseTx × List SignInfo) := do
  let prepared ← txBuilder.utxos.mapM (prepare services)
  let utxos := prepared.map Prod.fst
  if inputsTotal utxos < outputsTotal txBuilder.outputs then
    throw ⟨"Exception", "Atempting to spend more than sum of UTXOs"⟩
  else do
    let (fee, change) ← determineFeeAndChange services.classifier { txBuilder with utxos := utxos } services.rates
    sanityCheck txBuilder fee
    let send ← addChange services txBuilder change
    let send := if txBuilder.randomizeChangeOutput then services.shuffle send else send
    let outputs ← send.mapM (addOut services)
    pure (⟨utxos.map fun utxo => (utxo.hash, utxo.index), outputs⟩, prepared.map Prod.snd)

end PhpSdk
