import Blocktrail.Lib.Assoc
import Blocktrail.Lib.Series
import Blocktrail.PhpSdk.Wallet

/-! # The recovery sweeper of the PHP SDK -/

open Text Bitcoin

namespace PhpSdk

variable {Node : Type}

/-! ## Unspent outputs -/

structure Utxo where
  address : Option Str
  value : Option Int
  hash : Str
  index : Nat
  scriptHex : Str
deriving DecidableEq

/-- `UnspentOutputFinder::getUTXOs`. -/
abbrev UnspentOutputFinder := List Str → Except PhpError (List Utxo)

/-! ## The sweeper -/

structure Sweeper (Node : Type) where
  network : Str
  testnet : Bool
  primaryPrivateKey : BIP32Key Node
  backupPrivateKey : BIP32Key Node
  blocktrailPublicKeys : Assoc.Object Nat (BIP32Key Node)

structure SweeperArgs (Node : Type) where
  primarySeed : Bytes
  backupSeed : Bytes
  /-- `keyIndex` and the normalized key. -/
  blocktrailPublicKeys : List (Nat × BIP32Key Node)
  network : Str
  testnet : Bool

/-- `normalizeNetwork($network, $testnet)`. -/
def normalizeNetwork (network : Str) (testnet : Bool) : Except PhpError (Str × Bool) :=
  let lower := lowerAscii network
  if lower = "btc".toList ∨ lower = "bitcoin".toList then .ok ("bitcoin".toList, testnet)
  else if lower = "tbtc".toList ∨ lower = "bitcoin-testnet".toList then .ok ("bitcoin".toList, true)
  else .error ⟨"Exception", "Unknown network [" ++ network ++ "]"⟩

def fromEntropy (php : BitWasp Node) (seed : Bytes) : Except PhpError Node :=
  match php.fromEntropy seed with
  | some key => .ok key
  | none => .error ⟨"Exception", "Invalid private key"⟩

/-- `WalletSweeper::__construct`. The network that it sets is that of `testnet`. -/
def newSweeper (php : BitWasp Node) (args : SweeperArgs Node) : Except PhpError (Sweeper Node) := do
  let (network, testnet) ← normalizeNetwork args.network args.testnet
  let primary ← fromEntropy php args.primarySeed
  let backup ← fromEntropy php args.backupSeed
  pure
    { network := network
      testnet := testnet
      primaryPrivateKey := ⟨primary, ⟨false, []⟩⟩
      backupPrivateKey := ⟨backup, ⟨false, []⟩⟩
      blocktrailPublicKeys :=
        args.blocktrailPublicKeys.foldl (fun keys key => keys.set key.1 key.2) .empty }

structure SweepAddress where
  address : Str
  redeem : Bytes
  witness : Option Bytes
deriving DecidableEq

/-- An entry of a batch. -/
structure BatchEntry where
  redeem : Bytes
  witness : Option Bytes
  path : Str
deriving DecidableEq

namespace Sweeper

/-- `$this->blocktrailPublicKeys[$keyIndex]`: a key index in decimal is the key of its number. -/
def blocktrailKey (sw : Sweeper Node) (keyIndex : Str) : Option (BIP32Key Node) :=
  (sw.blocktrailPublicKeys.entries.map fun e => (dec e.1, e.2)).lookup keyIndex

def createAddress (php : BitWasp Node) (sw : Sweeper Node) (path : Str) : Except PhpError SweepAddress := do
  let path := (← BIP32Path.ofText path).publicPath
  let k ← sw.primaryPrivateKey.buildKey php path
  let b ← sw.backupPrivateKey.buildKey php path.unhardenedPath
  let c ← getBlocktrailPublicKey sw.blocktrailKey path >>= fun key => key.buildKey php path
  let multisig := php.multisig 2 (sortMultisigKeys php [k.publicKey php, b.publicKey php, c.publicKey php])
  let isWitness := sw.network != "bitcoincash".toList && Php.intOf ((path.offsetGet 2).getD []) == CHAIN_BTC_SEGWIT
  let redeemScript := if isWitness then php.p2shWitness multisig else php.p2shScript multisig
  let address := php.p2shAddress (bitcoinNetwork sw.testnet) redeemScript
  pure ⟨address, redeemScript, if isWitness then some multisig else none⟩

/-- The paths of a batch. The chain is always 0. -/
def batchPaths (start count keyIndex : Nat) : List Str :=
  (List.range count).map fun i => (walletBIP32Path keyIndex 0 (start + i)).publicPath.toText

def createBatchAddresses (php : BitWasp Node) (sw : Sweeper Node) (start count keyIndex : Nat) :
    Except PhpError (Assoc.Object Str BatchEntry) :=
  Assoc.Object.collect (fun path => do
    let a ← sw.createAddress php path
    pure (a.address, ⟨a.redeem, a.witness, path⟩)) (batchPaths start count keyIndex)

end Sweeper

/-! ## Discovery -/

/-- What was found for an address; no `entry` when the address was not one of the batch. -/
structure AddressUTXOs where
  entry : Option BatchEntry
  utxos : List Utxo
deriving DecidableEq

structure SweepData where
  utxos : Assoc.Object Str AddressUTXOs
  count : Nat
  balance : Int
  addressesSearched : Nat

def SweepData.empty : SweepData := ⟨.empty, 0, 0, 0⟩

/-- The body of the loop over the unspent outputs of a batch. -/
def addUtxo (addresses : Assoc.Object Str BatchEntry) (d : SweepData) (utxo : Utxo) : Except PhpError SweepData :=
  match utxo.address, utxo.value with
  | some address, some value =>
    let found := (d.utxos.get? address).getD ⟨addresses.get? address, []⟩
    .ok
      { d with
        utxos := d.utxos.set address { found with utxos := found.utxos ++ [utxo] }
        count := d.count + 1
        balance := d.balance + value }
  | _, _ => .error ⟨"BlocktrailSDKException", "Missing data"⟩

namespace Sweeper

/-- One turn of the `do` loop: how many unspent outputs the batch had, and the data with them. -/
def searchBatch (php : BitWasp Node) (sw : Sweeper Node) (utxoFinder : UnspentOutputFinder)
    (increment keyIndex i : Nat) (d : SweepData) : Except PhpError (Nat × SweepData) := do
  let addresses ← sw.createBatchAddresses php i increment keyIndex
  let utxos ← utxoFinder addresses.keys
  let d ← utxos.foldlM (addUtxo addresses) { d with addressesSearched := d.addressesSearched + addresses.keys.length }
  pure (utxos.length, d)

/-- The `do` loop of a key index, from address `i` on; `none` is out of fuel. -/
def searchKey (php : BitWasp Node) (sw : Sweeper Node) (utxoFinder : UnspentOutputFinder) (increment keyIndex : Nat) :
    Nat → Nat → SweepData → Option (Except PhpError SweepData)
  | 0, _, _ => none
  | fuel + 1, i, d =>
    match sw.searchBatch php utxoFinder increment keyIndex i d with
    | .error e => some (.error e)
    | .ok (found, d) =>
      if 0 < found then sw.searchKey php utxoFinder increment keyIndex fuel (i + increment) d else some (.ok d)

def discoverWalletFunds (php : BitWasp Node) (sw : Sweeper Node) (utxoFinder : UnspentOutputFinder)
    (increment fuel : Nat) : Option (Except PhpError SweepData) :=
  Series.eachSeries (fun keyIndex => sw.searchKey php utxoFinder increment keyIndex fuel 0)
    sw.blocktrailPublicKeys.keys .empty

end Sweeper

/-! ## Signing -/

inductive SignMode
  | dontSign
  | sign
deriving DecidableEq

structure SignInfo where
  mode : SignMode
  path : Option Str
  redeemScript : Option Bytes
  witnessScript : Option Bytes
  value : Option Int
  scriptPubKey : Str
deriving DecidableEq

/-- The program of a P2WSH script. -/
def witnessProgram : Bytes → Option Bytes
  | 0x00 :: 0x20 :: program => if program.length = 32 then some program else none
  | _ => none

/-- `SignInfo::__construct`, in mode `sign`. -/
def newSignInfo (php : BitWasp Node) (entry : Option BatchEntry) (utxo : Utxo) : Except PhpError SignInfo :=
  match entry with
  | none => .error ⟨"BlocktrailSDKException", "No path provided for sign SignInfo"⟩
  | some e =>
    let info : SignInfo := ⟨.sign, some e.path, some e.redeem, e.witness, utxo.value, utxo.scriptHex⟩
    match witnessProgram e.redeem, e.witness with
    | none, _ => .ok info
    | some _, none => .error ⟨"BlocktrailSDKException", "No witnessScript provided for sign SignInfo"⟩
    | some programHash, some witnessScript =>
      if php.witnessScriptHash witnessScript = programHash then .ok info
      else .error ⟨"BlocktrailSDKException", "Invalid witnessScript provided for redeemScript"⟩

/-- The `$signInfo` of `createTransaction`. -/
def signInfosOf (php : BitWasp Node) (d : SweepData) : Except PhpError (List SignInfo) :=
  (d.utxos.entries.flatMap fun e => e.2.utxos.map fun utxo => (e.2.entry, utxo)).mapM fun e => newSignInfo php e.1 e.2

/-- The scripts a signer gets for an input. -/
structure SignData where
  p2sh : Option Bytes
  p2wsh : Option Bytes
deriving DecidableEq

/-- What `signTransaction` signs an input with. -/
structure InputSignature (Node : Type) where
  key : Node
  backupKey : Node
  signData : SignData

def Sweeper.signInput (php : BitWasp Node) (sw : Sweeper Node) (path : Str) (redeemScript : Option Bytes) :
    Except PhpError (InputSignature Node) := do
  let path := (← BIP32Path.ofText path).privatePath
  let key ← sw.primaryPrivateKey.buildKey php path
  let backupKey ← sw.backupPrivateKey.buildKey php path.unhardenedPath
  -- No `p2wsh`: the wallet's own `signTransaction` adds the witness script here.
  pure ⟨key.key, backupKey.key, ⟨redeemScript, none⟩⟩

/-- `signTransaction($tx, $signInfo)`, input by input. -/
def Sweeper.signTransaction (php : BitWasp Node) (sw : Sweeper Node) (signInfo : List SignInfo) :
    Except PhpError (List (Option (InputSignature Node))) :=
  signInfo.mapM fun info =>
    match info.mode with
    | .dontSign => pure none
    | .sign => some <$> sw.signInput php (info.path.getD []) info.redeemScript

end PhpSdk
