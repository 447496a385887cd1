import Blocktrail.Bitcoin.OutputScript
import Blocktrail.Bitcoin.SignedTx
import Blocktrail.Lib.Encoding
import Blocktrail.Lib.Throwing

/-! # Building transactions

`TransactionBuilder`, for inputs that are added without their scripts and signed without a redeem script.
-/

open Text Throwing

namespace Bitcoin

/-! ## Transactions -/

structure TxInput extends TxIn where
  hash : Bytes
  index : Nat
  sequence : Nat

structure TxOutput where
  script : Bytes
  value : Int

structure Tx where
  version : Nat
  locktime : Nat
  ins : List TxInput
  outs : List TxOutput

namespace Tx

def DEFAULT_SEQUENCE : Nat := 0xffffffff

def new : Tx := ⟨1, 0, [], []⟩

def SATOSHI_MAX : Int := 2100000000000000

def IsSatoshi (value : Int) : Prop := 0 ≤ value ∧ value ≤ SATOSHI_MAX

instance (value : Int) : Decidable (IsSatoshi value) := inferInstanceAs (Decidable (_ ∧ _))

/-- What the sizes of a transaction depend on. -/
def toTransaction (tx : Tx) : Transaction := ⟨tx.ins.map TxInput.toTxIn, tx.outs.map TxOutput.script⟩

def virtualSize (tx : Tx) : Nat := (tx.toTransaction.weight + 3) / 4

/-- `varuint.encode`. -/
def varInt (n : Nat) : Bytes :=
  if n < 0xfd then [UInt8.ofNat n]
  else if n ≤ 0xffff then 0xfd :: (LittleEndian.encode32 n).take 2
  else if n ≤ 0xffffffff then 0xfe :: LittleEndian.encode32 n
  else 0xff :: (LittleEndian.encode32 n ++ LittleEndian.encode32 (n / 2 ^ 32))

def varSlice (slice : Bytes) : Bytes := varInt slice.length ++ slice

def vector (v : List Bytes) : Bytes := varInt v.length ++ v.flatMap varSlice

def inputBuffer (txIn : TxInput) : Bytes :=
  txIn.hash ++ LittleEndian.encode32 txIn.index ++ varSlice txIn.script ++ LittleEndian.encode32 txIn.sequence

def outputBuffer (txOut : TxOutput) : Bytes :=
  LittleEndian.encode32 txOut.value.toNat ++ LittleEndian.encode32 (txOut.value.toNat / 2 ^ 32) ++
    varSlice txOut.script

def toBuffer (tx : Tx) : Bytes :=
  let hasWitnesses := tx.toTransaction.hasWitnesses
  LittleEndian.encode32 tx.version ++ (if hasWitnesses then [0, 1] else []) ++ varInt tx.ins.length ++
    tx.ins.flatMap inputBuffer ++ varInt tx.outs.length ++ tx.outs.flatMap outputBuffer ++
    (if hasWitnesses then tx.ins.flatMap fun input => vector input.witness else []) ++
    LittleEndian.encode32 tx.locktime

def toHex (tx : Tx) : Str := Hex.encode tx.toBuffer

end Tx

/-! ## Keys -/

def SIGHASH_ALL : Byte := 0x01
def SIGHASH_NONE : Byte := 0x02
def SIGHASH_SINGLE : Byte := 0x03
def SIGHASH_ANYONECANPAY : Byte := 0x80
def SIGHASH_BITCOINCASHBIP143 : Byte := 0x40

/-- Key pairs, and the hashes of a transaction that they sign. -/
structure ECPair (Key : Type) where
  network : Key → Network
  getPublicKeyBuffer : Key → CanonicalKey
  hash160 : Bytes → Hash160
  hashForSignature : Tx → Nat → Bytes → Byte → Bytes
  hashForWitnessV0 : Tx → Nat → Bytes → Int → Byte → Bytes
  /-- `keyPair.sign(hash).toScriptSignature(hashType)`. -/
  sign : Key → Bytes → Byte → Signature

variable {Key : Type} (ecpair : ECPair Key)

def ECPair.hashForCashSignature (tx : Tx) (inIndex : Nat) (prevOutScript : Bytes) (inAmount : Int) (hashType : Byte) :
    Bytes :=
  if hashType &&& SIGHASH_BITCOINCASHBIP143 ≠ 0 then ecpair.hashForWitnessV0 tx inIndex prevOutScript inAmount hashType
  else ecpair.hashForSignature tx inIndex prevOutScript hashType

/-! ## The builder -/

/-- An input of the builder that `prepareInput` has filled in. -/
structure Prepared where
  value : Int
  pubKey : CanonicalKey
  signScript : Bytes
  signature : Option Signature

structure TransactionBuilder where
  network : Network
  maximumFeeRate : Nat
  inputs : List (Option Prepared)
  prevTxMap : List (Bytes × Nat)
  bitcoinCash : Bool
  tx : Tx

namespace TransactionBuilder

def new : TransactionBuilder := ⟨.bitcoin, 1000, [], [], false, .new⟩

variable (b : TransactionBuilder)

def enableBitcoinCash (enable : Bool) : TransactionBuilder := { b with bitcoinCash := enable }

def signatures : List Signature := b.inputs.filterMap fun input => input.bind Prepared.signature

def signatureHashType (signature : Signature) : Byte := signature.val.getLastD 0

def canModifyInputs : Bool := b.signatures.all fun signature => signatureHashType signature &&& SIGHASH_ANYONECANPAY ≠ 0

def canModifyOutputs : Bool :=
  b.signatures.all fun signature =>
    let hashTypeMod := signatureHashType signature &&& 0x1f
    hashTypeMod = SIGHASH_NONE || (hashTypeMod = SIGHASH_SINGLE && b.tx.ins.length ≤ b.tx.outs.length)

def invalidatesSignatures : JsError := ⟨"Error", "No, this would invalidate signatures"⟩

/-- `addInput`, of the hash as it is displayed, in reverse order. -/
def addInput (txid : Str) (vout : Nat) : Except JsError TransactionBuilder :=
  let txHash := (Hex.decode txid).reverse
  if ¬b.canModifyInputs then .error invalidatesSignatures
  else if txHash.length ≠ 32 then .error ⟨"TypeError", "Expected Buffer(Length: 32)"⟩
  else if txHash.all (· = 0) then .error ⟨"Error", "coinbase inputs not supported"⟩
  else if (txHash, vout) ∈ b.prevTxMap then
    .error ⟨"Error", "Duplicate TxOut: " ++ Hex.encode txHash ++ ':' :: dec vout⟩
  else if 2 ^ 32 ≤ vout then .error ⟨"TypeError", "Expected property of type UInt32"⟩
  else
    .ok { b with
      inputs := b.inputs ++ [none]
      prevTxMap := b.prevTxMap ++ [(txHash, vout)]
      tx := { b.tx with ins := b.tx.ins ++ [⟨⟨[], []⟩, txHash, vout, Tx.DEFAULT_SEQUENCE⟩] } }

/-- `addOutput`, to an address. -/
def addOutput (d : AddressDecoder) (address : Str) (value : Int) : Except JsError TransactionBuilder :=
  if ¬b.canModifyOutputs then .error invalidatesSignatures
  else do
    let script ← toOutputScript d address b.network false
    if Tx.IsSatoshi value then return { b with tx := { b.tx with outs := b.tx.outs ++ [⟨script, value⟩] } }
    else throw ⟨"TypeError", "Expected property of type Satoshi"⟩

/-- `prepareInput`, of an input that has no scripts. -/
def prepareInput (kpPubKey : CanonicalKey) (witnessValue : Int) : Except JsError Prepared :=
  if Tx.IsSatoshi witnessValue then
    .ok ⟨witnessValue, kpPubKey, pubKeyHashOutput (ecpair.hash160 kpPubKey.val), none⟩
  else .error ⟨"TypeError", "Expected Satoshi"⟩

def signatureHash (vin : Nat) (input : Prepared) (hashType : Byte) (witnessValue : Int) : Bytes :=
  if b.bitcoinCash then ecpair.hashForCashSignature b.tx vin input.signScript witnessValue hashType
  else ecpair.hashForSignature b.tx vin input.signScript hashType

/-- The end of `sign`, with an input that can be signed. -/
def signPrepared (vin : Nat) (keyPair : Key) (hashType : Byte) (witnessValue : Int) (input : Prepared) :
    Except JsError TransactionBuilder :=
  if input.pubKey ≠ ecpair.getPublicKeyBuffer keyPair then
    .error ⟨"Error", "Key pair cannot sign for this input"⟩
  else if input.signature.isSome then .error ⟨"Error", "Signature already exists"⟩
  else
    let signature := ecpair.sign keyPair (b.signatureHash ecpair vin input hashType witnessValue) hashType
    .ok { b with inputs := b.inputs.set vin (some { input with signature := some signature }) }

/-- `sign`, without a redeem script. -/
def sign (vin : Nat) (keyPair : Key) (hashType : Byte) (witnessValue : Int) : Except JsError TransactionBuilder :=
  if ecpair.network keyPair ≠ b.network then .error ⟨"Error", "Inconsistent network"⟩
  else
    let hashType := if hashType = 0 then SIGHASH_ALL else hashType
    match b.inputs[vin]? with
    | none => .error ⟨"Error", "No input at index: " ++ dec vin⟩
    | some (some input) => b.signPrepared ecpair vin keyPair hashType witnessValue input
    | some none => do
      let input ← prepareInput ecpair (ecpair.getPublicKeyBuffer keyPair) witnessValue
      b.signPrepared ecpair vin keyPair hashType witnessValue input

/-- `buildInput`: the script of a signed input. -/
def buildInput (input : Option Prepared) : Except JsError Bytes :=
  match input with
  | none => .error ⟨"Error", "Transaction is not complete"⟩
  | some input =>
    match input.signature with
    | none => .error ⟨"Error", "Not enough signatures provided"⟩
    | some signature => .ok (compile [.data signature.val, .data input.pubKey.val])

/-- `x.value >>> 0`. -/
def incoming : Nat := (b.inputs.map fun input => input.elim 0 fun p => (p.value % 2 ^ 32).toNat).sum

/-- `__overMaximumFees`, of the size in bytes. -/
def overMaximumFees (bytes : Nat) : Bool :=
  (b.incoming : Int) - (b.tx.outs.map TxOutput.value).sum > b.maximumFeeRate * bytes

/-- `tx.setInputScript`, of every input. -/
def withScripts (scripts : List Bytes) : Tx :=
  { b.tx with ins := List.zipWith (fun txIn script => { txIn with script := script, witness := [] }) b.tx.ins scripts }

/-- `build`. -/
def build : Except JsError Tx :=
  if b.tx.ins = [] then .error ⟨"Error", "Transaction has no inputs"⟩
  else if b.tx.outs = [] then .error ⟨"Error", "Transaction has no outputs"⟩
  else do
    let scripts ← b.inputs.mapM buildInput
    if b.overMaximumFees (b.withScripts scripts).virtualSize then throw ⟨"Error", "Transaction has absurd fees"⟩
    else return b.withScripts scripts

/-! ## What the steps do -/

section Steps

variable {ecpair : ECPair Key} {b : TransactionBuilder}

/-- A builder with no signature yet. -/
def Unsigned (b : TransactionBuilder) : Prop := ∀ input ∈ b.inputs, input = none

theorem signatures_eq_nil (h : b.Unsigned) : b.signatures = [] := by
  unfold signatures
  rw [List.filterMap_eq_nil_iff]
  intro input hi
  rw [h input hi]
  rfl

/-- An outpoint as `addInput` takes it. -/
structure IsOutpoint (txid : Str) (vout : Nat) : Prop where
  length : (Hex.decode txid).length = 32
  not_coinbase : ¬(Hex.decode txid).reverse.all (· = 0)
  vout_lt : vout < 2 ^ 32

def outpoint (txid : Str) (vout : Nat) : Bytes × Nat := ((Hex.decode txid).reverse, vout)

def txInput (txid : Str) (vout : Nat) : TxInput := ⟨⟨[], []⟩, (Hex.decode txid).reverse, vout, Tx.DEFAULT_SEQUENCE⟩

theorem addInput_eq (h : b.Unsigned) {txid : Str} {vout : Nat} (ho : IsOutpoint txid vout)
    (hnew : outpoint txid vout ∉ b.prevTxMap) :
    b.addInput txid vout = .ok { b with
      inputs := b.inputs ++ [none]
      prevTxMap := b.prevTxMap ++ [outpoint txid vout]
      tx := { b.tx with ins := b.tx.ins ++ [txInput txid vout] } } := by
  have hmodify : b.canModifyInputs = true := by rw [canModifyInputs, signatures_eq_nil h, List.all_nil]
  have hvout := ho.vout_lt
  unfold addInput
  unfold outpoint at hnew ⊢
  dsimp only
  rw [if_neg (by simp [hmodify]), if_neg (by simp [ho.length]), if_neg ho.not_coinbase, if_neg hnew,
    if_neg (by omega)]
  rfl

theorem addInput_ok {b' : TransactionBuilder} {txid : Str} {vout : Nat} (h : b.addInput txid vout = .ok b') :
    outpoint txid vout ∉ b.prevTxMap ∧ b' = { b with
      inputs := b.inputs ++ [none]
      prevTxMap := b.prevTxMap ++ [outpoint txid vout]
      tx := { b.tx with ins := b.tx.ins ++ [txInput txid vout] } } := by
  unfold addInput at h
  dsimp only at h
  split_ifs at h with hmodify hlength hcoinbase hduplicate hvout
  cases h
  exact ⟨hduplicate, rfl⟩

/-- What is left of adding inputs: they are put behind the others, and no outpoint is there twice. -/
structure Adds (b b' : TransactionBuilder) (outpoints : List (Str × Nat)) : Prop where
  ins : b'.tx.ins = b.tx.ins ++ outpoints.map fun o => txInput o.1 o.2
  outs : b'.tx.outs = b.tx.outs
  network : b'.network = b.network
  nodup : b.prevTxMap.Nodup → (b.prevTxMap ++ outpoints.map fun o => outpoint o.1 o.2).Nodup

theorem foldlM_addInput_ok {α : Type} (outpointOf : α → Str × Nat) {l : List α} {b' : TransactionBuilder}
    (h : l.foldlM (fun b a => b.addInput (outpointOf a).1 (outpointOf a).2) b = .ok b') :
    b.Adds b' (l.map outpointOf) := by
  induction l generalizing b with
  | nil =>
    cases h
    exact ⟨by simp, rfl, rfl, fun hnodup => by simpa using hnodup⟩
  | cons a l ih =>
    rw [List.foldlM_cons] at h
    obtain ⟨b₁, hfirst, hrest⟩ := exists_of_bind_ok h
    obtain ⟨hnew, rfl⟩ := addInput_ok hfirst
    obtain ⟨hins, houts, hnetwork, hnodup⟩ := ih hrest
    refine ⟨by simp [hins], houts, hnetwork, fun hb => ?_⟩
    have hall := hnodup (by simpa using hb.concat hnew)
    simpa using hall

theorem addOutput_ok {b' : TransactionBuilder} {d : AddressDecoder} {address : Str} {value : Int}
    (h : b.addOutput d address value = .ok b') :
    ∃ script, toOutputScript d address b.network false = .ok script ∧
      b' = { b with tx := { b.tx with outs := b.tx.outs ++ [⟨script, value⟩] } } := by
  unfold addOutput at h
  split_ifs at h with hmodify hvalue
  · obtain ⟨script, hscript, h⟩ := exists_of_bind_ok h
    cases h
    exact ⟨script, hscript, rfl⟩
  · obtain ⟨_, _, h⟩ := exists_of_bind_ok h
    cases h

theorem addOutput_eq (h : b.Unsigned) (d : AddressDecoder) (address : Str) (value : Int) :
    b.addOutput d address value =
      (toOutputScript d address b.network false >>= fun script =>
        if Tx.IsSatoshi value then .ok { b with tx := { b.tx with outs := b.tx.outs ++ [⟨script, value⟩] } }
        else .error ⟨"TypeError", "Expected property of type Satoshi"⟩) := by
  have hmodify : b.canModifyOutputs = true := by rw [canModifyOutputs, signatures_eq_nil h, List.all_nil]
  unfold addOutput
  rw [if_neg (by simp [hmodify])]
  rfl

/-- The input that `sign` leaves. -/
def signed (ecpair : ECPair Key) (b : TransactionBuilder) (vin : Nat) (keyPair : Key) (hashType : Byte) (value : Int) :
    Prepared :=
  let pubKey := ecpair.getPublicKeyBuffer keyPair
  let signScript := pubKeyHashOutput (ecpair.hash160 pubKey.val)
  let hash := b.signatureHash ecpair vin ⟨value, pubKey, signScript, none⟩ hashType value
  ⟨value, pubKey, signScript, some (ecpair.sign keyPair hash hashType)⟩

theorem sign_eq {vin : Nat} {keyPair : Key} {hashType : Byte} {value : Int} (hn : ecpair.network keyPair = b.network)
    (hi : b.inputs[vin]? = some none) (hh : hashType ≠ 0) (hv : Tx.IsSatoshi value) :
    b.sign ecpair vin keyPair hashType value =
      .ok { b with inputs := b.inputs.set vin (some (signed ecpair b vin keyPair hashType value)) } := by
  unfold sign
  rw [if_neg (by simp [hn])]
  dsimp only
  rw [hi, if_neg hh]
  dsimp only
  rw [prepareInput, if_pos hv, ok_bind, signPrepared, if_neg (by simp), if_neg (by simp)]
  rfl

/-- The script of an input that is signed. -/
def scriptOf (p : Prepared) : Bytes := p.signature.elim [] fun s => compile [.data s.val, .data p.pubKey.val]

def absurdFees : JsError := ⟨"Error", "Transaction has absurd fees"⟩

theorem buildInput_signed {p : Prepared} (h : p.signature.isSome = true) : buildInput (some p) = .ok (scriptOf p) := by
  obtain ⟨s, hs⟩ := Option.isSome_iff_exists.mp h
  simp [buildInput, scriptOf, hs]

/-- A builder whose inputs are signed builds, unless the fee is too high. -/
theorem build_eq {ps : List Prepared} (hi : b.inputs = ps.map some) (hs : ∀ p ∈ ps, p.signature.isSome = true)
    (hins : b.tx.ins ≠ []) (houts : b.tx.outs ≠ []) :
    b.build = if b.overMaximumFees (b.withScripts (ps.map scriptOf)).virtualSize then .error absurdFees
      else .ok (b.withScripts (ps.map scriptOf)) := by
  have hscripts : b.inputs.mapM buildInput = .ok (ps.map scriptOf) := by
    rw [hi, List.mapM_map]
    exact mapM_ok fun p hp => buildInput_signed (hs p hp)
  unfold build
  rw [if_neg hins, if_neg houts, hscripts, ok_bind]
  rfl

end Steps

end TransactionBuilder

end Bitcoin
