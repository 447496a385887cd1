import Mathlib.Algebra.Order.Archimedean.Basic
import Blocktrail.Bitcoin.Paths
import Blocktrail.Bitcoin.TransactionBuilder
import Blocktrail.JsSdk.PayTo
import Blocktrail.JsSdk.SizeEstimation
import Blocktrail.JsSdk.State

/-! # Building a transaction

`Wallet.buildTransaction`, up to the numbers that the server suggests: the coins, the fee and the change.
-/

open Text Throwing Bitcoin

namespace JsSdk

namespace BuildTransaction

/-! ## What it is given -/

inductive FeeStrategy
  | forceFee
  | baseFee
  | highPriority
  | optimal
  | lowPriority
  | minRelayFee
  | other (text : Str)
deriving DecidableEq

inductive SignMode
  | sign
  | dontSign
deriving DecidableEq

/-- A field of an answer, as arithmetic reads it: `none` is the `NaN` of a field that is missing. -/
abbrev ApiNumber := Option Rat

/-- A coin of the coin selection. -/
structure Utxo where
  hash : Str
  idx : Nat
  value : ApiNumber
  path : Str
  scriptpubkey_hex : Str
  redeem_script : Option Str
  witness_script : Option Str
  sign_mode : Option SignMode

structure CoinSelection where
  utxos : List Utxo
  fee : ApiNumber
  change : ApiNumber

/-- The settings of the `APIClient`. -/
structure Client where
  bitcoinCash : Bool
  feeSanityCheck : Bool
  feeSanityCheckBaseFeeMultiplier : Rat

/-- The arguments of the call. -/
structure Request where
  pay : Pay
  changeAddress : Option Str
  randomizeChangeIdx : Bool
  feeStrategy : Option FeeStrategy

/-- What the call is answered with: by the server, and by `_.random(0, outputs.length)`. -/
structure Answers where
  coinSelection : Except JsError CoinSelection
  getNewAddress : Except JsError Str
  random : Nat

variable {Node : Type}

/-- `txb.sign` of an input: the key, the redeem script, the hash type, the value and the witness script give the scripts
that `buildIncomplete` sets. -/
abbrev Sign (Node : Type) :=
  TransactionBuilder → Nat → Node → Bytes → Byte → ApiNumber → Option Bytes → Except JsError TxIn

/-! ## The steps -/

def walletFeeError (message : Str) : JsError := ⟨"WalletFeeError", message⟩

def integer? : JsNumber → Option Int
  | .int z => some z
  | _ => none

/-- The sum of the values; `none` is `NaN`. -/
def outputsTotal (send : List PayOutput) : Option Int :=
  (send.mapM fun output : PayOutput => integer? output.value).map List.sum

def inputsTotal (utxos : List Utxo) : ApiNumber := (utxos.mapM Utxo.value).map List.sum

def estimatedChange (send : List PayOutput) (s : CoinSelection) : ApiNumber := do
  let inputsTotal ← inputsTotal s.utxos
  let outputsTotal ← outputsTotal send
  let fee ← s.fee
  return inputsTotal - outputsTotal - fee

/-- prepare: the change is compared where it is worth an output. `NaN` is not greater than anything. -/
def prepare (send : List PayOutput) (s : CoinSelection) : Except JsError Unit :=
  if s.utxos = [] then .error ⟨"TypeError", "Reduce of empty array with no initial value"⟩
  else if (estimatedChange send s).any fun estimated : Rat => estimated > DUST * 2 && some estimated ≠ s.change then
    .error (walletFeeError "the amount of change suggested by the coin selection seems incorrect")
  else .ok ()

/-- `new Buffer(_send.scriptPubKey, 'hex')`. -/
def sendOutput (output : PayOutput) : Except JsError (Bytes × JsNumber) :=
  match output.scriptPubKey with
  | .string [] => .error ⟨"Error", "Invalid send"⟩
  | .string s => .ok (Hex.decode s, output.value)
  | .buffer bytes _ => .ok (bytes, output.value)
  | .array bytes _ => .ok (bytes, output.value)
  | _ => .error ⟨"Error", "Invalid send"⟩

/-- The change is dropped where it would be dust, or is no number. -/
def usedChange (change : ApiNumber) : Rat := change.elim 0 fun change => if change > DUST then change else 0

/-- A value as the builder takes it: a fraction is refused, as `NaN` is. -/
def toValue (amount : Rat) : JsNumber := if amount.den = 1 then .int amount.num else .nan

/-- `changeAddress`, or a new one. -/
def changeAddress (r : Request) (a : Answers) : Except JsError Str :=
  match r.changeAddress with
  | some (c :: cs) => .ok (c :: cs)
  | _ => a.getNewAddress

def changeOutput (d : AddressDecoder) (w : Wallet Node) (r : Request) (a : Answers) (change : ApiNumber) :
    Except JsError (List (Bytes × JsNumber)) :=
  if usedChange change > 0 then do
    let address ← changeAddress r a
    let scriptPubKey ← toOutputScript d address w.network w.useNewCashAddr
    return [(scriptPubKey, toValue (usedChange change))]
  else return []

/-- `outputs.splice(idx, 0, changeOutput)`, or `outputs.push(changeOutput)`. -/
def insertChange (r : Request) (a : Answers) (outputs change : List (Bytes × JsNumber)) : List (Bytes × JsNumber) :=
  if r.randomizeChangeIdx then outputs.take a.random ++ change ++ outputs.drop a.random else outputs ++ change

/-- `txb.addOutput`, of a script. -/
def addOutput (b : TransactionBuilder) (output : Bytes × JsNumber) : Except JsError TransactionBuilder :=
  if ¬b.canModifyOutputs then .error TransactionBuilder.invalidatesSignatures
  else
    match integer? output.2 with
    | some z =>
      if Tx.IsSatoshi z then .ok { b with tx := { b.tx with outs := b.tx.outs ++ [⟨output.1, z⟩] } }
      else .error ⟨"TypeError", "Expected property of type Satoshi"⟩
    | none => .error ⟨"TypeError", "Expected property of type Satoshi"⟩

/-- `path.replace(/^m\/(\d+)\'/, 'm/$1')`. -/
def backupPath (path : Str) : Str :=
  match path with
  | 'm' :: '/' :: rest =>
    match rest.dropWhile Char.isDigit with
    | c :: tail =>
      if c = apostrophe ∧ rest.takeWhile Char.isDigit ≠ [] then 'm' :: '/' :: (rest.takeWhile Char.isDigit ++ tail)
      else path
    | [] => path
  | _ => path

def signingKey (p : Platform Node) (w : Wallet Node) (path : Str) : Except JsError Node :=
  match w.primaryPrivateKey, w.backupPrivateKey with
  | some primaryPrivateKey, _ => deriveByPath p.hd primaryPrivateKey path "m"
  | none, some backupPrivateKey => deriveByPath p.hd backupPrivateKey (backupPath path) "m"
  | none, none => .error ⟨"Error", "No master privateKey present"⟩

def sigHash (c : Client) : Byte := if c.bitcoinCash then SIGHASH_ALL ||| SIGHASH_BITCOINCASHBIP143 else SIGHASH_ALL

/-- The scripts of an input, which is left as it is unless it is to be signed. -/
def signInput (p : Platform Node) (sign : Sign Node) (w : Wallet Node) (c : Client) (b : TransactionBuilder)
    (e : Utxo × Nat) : Except JsError TxIn :=
  match e.1.sign_mode.getD .sign with
  | .dontSign => .ok ⟨[], []⟩
  | .sign => do
    let privKey ← signingKey p w (replaceFirst 'M' "m" e.1.path)
    match e.1.redeem_script with
    | none => throw ⟨"TypeError", "must start with number, buffer, array or string"⟩
    | some redeemScript =>
      sign b e.2 privKey (Hex.decode redeemScript) (sigHash c) e.1.value (e.1.witness_script.map Hex.decode)

/-- `buildIncomplete`. -/
def buildIncomplete (b : TransactionBuilder) (signed : List TxIn) : Tx :=
  { b.tx with ins := List.zipWith (fun txIn s => { txIn with toTxIn := s }) b.tx.ins signed }

def Utxo.toEstimate (utxo : Utxo) : SizeEstimation.Utxo where
  scriptPubKeyHex := utxo.scriptpubkey_hex
  redeemScript := utxo.redeem_script
  witnessScript := utxo.witness_script

/-- `Wallet.estimateVsizeFee(tx, utxos)`. -/
def estimateVsizeFee (tx : Tx) (utxos : List Utxo) : Except JsError Nat := do
  let vsize ← SizeEstimation.estimateTxVsize (tx.outs.map TxOutput.script) (utxos.map Utxo.toEstimate)
  return (vsize + 999) / 1000 * BASE_FEE

/-- `self.feeSanityCheckBaseFeeMultiplier`. The field is one of the client: no wallet has it. -/
def feeSanityCheckBaseFeeMultiplier (_ : Wallet Node) : Option Rat := none

/-- `fee > estimatedFee * multiplier`. No number is greater than `NaN`. -/
def isAbove (fee : ApiNumber) (estimatedFee : Nat) (multiplier : Option Rat) : Bool :=
  fee.any fun fee : Rat => multiplier.any fun multiplier : Rat => fee > estimatedFee * multiplier

/-- `Math.abs(estimatedFee - fee) > blocktrail.BASE_FEE`. -/
def isFar (fee : ApiNumber) (estimatedFee : Nat) : Bool := fee.any fun fee : Rat => |(estimatedFee : Rat) - fee| > BASE_FEE

/-- The fee sanity check. -/
def checkFee (w : Wallet Node) (c : Client) (strategy : FeeStrategy) (fee : ApiNumber) (estimatedFee : Nat) :
    Except JsError Unit :=
  if c.feeSanityCheck then
    match strategy with
    | .baseFee =>
      if isFar fee estimatedFee then
        .error (walletFeeError "the fee suggested by the coin selection seems incorrect for FEE_STRATEGY_BASE_FEE")
      else .ok ()
    | .highPriority | .optimal | .lowPriority =>
      if isAbove fee estimatedFee (feeSanityCheckBaseFeeMultiplier w) then
        .error (walletFeeError "the fee suggested by the coin selection seems awefully high for FEE_STRATEGY_OPTIMAL")
      else .ok ()
    | _ => .ok ()
  else .ok ()

def checkRecipients (send : List PayOutput) : Except JsError Unit :=
  if send.isEmpty then .error (walletSendError "Need at least one recipient") else .ok ()

/-- `Wallet.buildTransaction`. -/
def buildTransaction (p : Platform Node) (d : AddressDecoder) (sign : Sign Node) (w : Wallet Node) (c : Client)
    (r : Request) (a : Answers) : Except JsError (Tx × List Utxo) := do
  let send ← convertPayToOutputs d r.pay w.network w.useNewCashAddr
  checkRecipients send
  let s ← a.coinSelection
  prepare send s
  let txb : TransactionBuilder := { TransactionBuilder.new with network := w.network, bitcoinCash := c.bitcoinCash }
  let txb ← s.utxos.foldlM (fun txb utxo => txb.addInput utxo.hash utxo.idx) txb
  let outputs ← send.mapM sendOutput
  let change ← changeOutput d w r a s.change
  let txb ← (insertChange r a outputs change).foldlM addOutput txb
  let signed ← s.utxos.zipIdx.mapM (signInput p sign w c txb)
  let tx := buildIncomplete txb signed
  let estimatedFee ← estimateVsizeFee tx s.utxos
  checkFee w c (r.feeStrategy.getD .optimal) s.fee estimatedFee
  return (tx, s.utxos)

end BuildTransaction

end JsSdk
