import Blocktrail.Bitcoin.Paths
import Blocktrail.JsSdk.Discovery

/-! # The sweeper service

`discover` asks for one batch of addresses after the other, `hdDiscover` for one window of accounts after the other.
-/

open Text Bitcoin Assoc
open JsSdk (Utxo BitcoinDataClient)

namespace WebWallet

namespace SweeperService

variable {Node Key : Type}

/-- What the service uses of `bitcoinJS`. -/
structure BitcoinJS (Node Key : Type) where
  hd : HDLib Node
  keyPair : Node → Key

structure Options where
  batchSize : Nat
  accountBatchSize : Nat
  testnet : Bool
  batchSize_pos : 0 < batchSize
  accountBatchSize_pos : 0 < accountBatchSize

/-! ## Batches -/

/-- An address of a batch. -/
structure Derived (Key : Type) where
  priv_key : Key
  derive_idx : Nat

/-- The outputs of an address, with the data of the batch added. -/
structure Found (Key : Type) extends Derived Key where
  utxos : List Utxo

def derived (bitcoinJS : BitcoinJS Node Key) (parentNode : Node) (i : Nat) : Except JsError (Str × Derived Key) := do
  let currentNode ← bitcoinJS.hd.derive parentNode (some i)
  pure (bitcoinJS.hd.getAddress currentNode, ⟨bitcoinJS.keyPair currentNode, i⟩)

/-- The indexes from `startIndex` to `batchSize + startIndex`, both of them included. -/
def batchDeriveAddressesAndPrivKeys (bitcoinJS : BitcoinJS Node Key) (parentNode : Node) (startIndex batchSize : Nat) :
    Except JsError (Object Str (Derived Key)) :=
  Object.collect (derived bitcoinJS parentNode) (List.range' startIndex (batchSize + 1))

def addData (batchDataObject : Object Str (Derived Key)) (e : Str × List Utxo) : Except JsError (Str × Found Key) :=
  match batchDataObject.get? e.1 with
  | none => .error ⟨"TypeError", "Cannot read property 'priv_key' of undefined"⟩
  | some d => .ok (e.1, ⟨d, e.2⟩)

/-- `none` is the `false` of a batch with no transactions. -/
def batchDiscoverUTXOs (bitcoinJS : BitcoinJS Node Key) (client : BitcoinDataClient) (parentNode : Node)
    (batchLoopCount batchSize : Nat) : Except JsError (Option (Object Str (Found Key))) := do
  let batchDataObject ← batchDeriveAddressesAndPrivKeys bitcoinJS parentNode (batchLoopCount * batchSize) batchSize
  let addresses := batchDataObject.keys
  let success ← client.batchAddressHasTransactions addresses
  if success then
    let result ← client.getBatchUnspentOutputs addresses
    let result ← Object.collect (addData batchDataObject) result.entries
    pure (some result)
  else pure none

/-! ## The search -/

/-- One call of `discover`, from `loopCount` and `utxos` to the next call or to what is resolved. -/
def discoverBatch (bitcoinJS : BitcoinJS Node Key) (client : BitcoinDataClient) (parent : Node) (batchSize : Nat)
    (s : Nat × Object Str (Found Key)) : Except JsError (Nat × Object Str (Found Key) ⊕ Object Str (Found Key)) := do
  let result ← batchDiscoverUTXOs bitcoinJS client parent s.1 batchSize
  match result with
  | none => pure (.inr s.2)
  | some result => pure (.inl (s.1 + 1, s.2.assign result))

def discover (bitcoinJS : BitcoinJS Node Key) (client : BitcoinDataClient) (batchSize fuel : Nat) (parent : Node) :
    Option (Except JsError (Object Str (Found Key))) :=
  Series.recur (fun s => some (discoverBatch bitcoinJS client parent batchSize s)) fuel (0, .empty)

/-- `"m/44'/" + testnet + "'/" + i + "'/" + chain`, where `testnet` has become a number. -/
def chainPath (testnet : Bool) (i chain : Nat) : Str :=
  "m/44".toList ++ apostrophe :: '/' :: (dec testnet.toNat ++ apostrophe :: '/' ::
    (dec i ++ apostrophe :: '/' :: dec chain))

/-- The main and the change chain of the accounts of a window. -/
def searchPaths (accountBatchSize : Nat) (testnet : Bool) (accountIdx : Nat) : List Str :=
  (List.range' accountIdx accountBatchSize).flatMap fun i => [chainPath testnet i 0, chainPath testnet i 1]

/-- One call of `hdDiscover`, from `accountIdx` and `UTXOs`. -/
def discoverAccounts (bitcoinJS : BitcoinJS Node Key) (client : BitcoinDataClient) (root : Node) (options : Options)
    (fuel : Nat) (s : Nat × Object Str (Found Key)) :
    Option (Except JsError (Nat × Object Str (Found Key) ⊕ Object Str (Found Key))) :=
  match (searchPaths options.accountBatchSize options.testnet s.1).mapM (derivePath bitcoinJS.hd root) with
  | .error e => some (.error e)
  | .ok nodes =>
    match Series.all (discover bitcoinJS client options.batchSize fuel) nodes with
    | none => none
    | some (.error e) => some (.error e)
    | some (.ok resultLists) =>
      let done := resultLists.all fun result => result.keys.isEmpty
      let utxos := resultLists.foldl Object.assign s.2
      some (.ok (if done then .inr utxos else .inl (s.1 + options.accountBatchSize, utxos)))

/-- What `hdDiscover` resolves with; `none` is out of fuel. -/
def hdDiscover (bitcoinJS : BitcoinJS Node Key) (client : BitcoinDataClient) (root : Node) (options : Options)
    (fuel : Nat) : Option (Except JsError (Object Str (Found Key))) :=
  Series.recur (discoverAccounts bitcoinJS client root options fuel) fuel (0, .empty)

end SweeperService

end WebWallet
