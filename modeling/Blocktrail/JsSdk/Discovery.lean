import Mathlib.Algebra.BigOperators.Group.List.Basic
import Blocktrail.Lib.Series
import Blocktrail.JsSdk.Sweeper

/-! # Fund discovery of the recovery sweeper

A failed query and an exception in a promise are logged and end the search of one chain. An exception
outside of a promise, where a batch has a path with no address, ends everything and nothing is resolved.
-/

open Text Throwing Bitcoin Assoc

namespace JsSdk

variable {Node : Type}

/-! ## The bitcoin data client -/

structure Utxo where
  hash : Str
  index : Nat
  value : Int
  script_hex : Str
deriving DecidableEq

structure BitcoinDataClient where
  batchAddressHasTransactions : List Str → Except JsError Bool
  getBatchUnspentOutputs : List Str → Except JsError (Object Str (List Utxo))

/-! ## `UnspentOutputFinder` -/

/-- `results[address] = utxos`, where there are any. -/
def keepFound (results : Object Str (List Utxo)) (e : Str × List Utxo) : Object Str (List Utxo) :=
  if 0 < e.2.length then results.set e.1 e.2 else results

/-- The chunks from one on. After a failed query the results so far are resolved. -/
def collectUTXOs (client : BitcoinDataClient) : List (List Str) → Object Str (List Utxo) → Object Str (List Utxo)
  | [], results => results
  | addressBatch :: rest, results =>
    match client.getBatchUnspentOutputs addressBatch with
    | .ok batchResults => collectUTXOs client rest (batchResults.entries.foldl keepFound results)
    | .error _ => results

/-- `getUTXOs(addresses)`, which never fails. -/
def getUTXOs (client : BitcoinDataClient) (batchChunkSize : Nat) (addresses : List Str) : Object Str (List Utxo) :=
  collectUTXOs client (Series.chunk batchChunkSize addresses) .empty

/-! ## Batches -/

structure BatchEntry where
  redeem : Bytes
  witness : Option Bytes
  path : Str
deriving DecidableEq

/-- `"M/" + keyIndex + "'/" + chain + "/" + index`. -/
def sweepPath (keyIndex : Str) (chain index : Nat) : Str :=
  "M/".toList ++ (keyIndex ++ apostrophe :: '/' :: (dec chain ++ '/' :: dec index))

namespace Sweeper

def batchEntry (p : Platform Node) (sw : Sweeper Node) (path : Str) : Except JsError (Str × BatchEntry) := do
  let multisig ← sw.createAddress p path
  pure (multisig.address, ⟨multisig.redeem, multisig.witness, path⟩)

def createBatchAddresses (p : Platform Node) (sw : Sweeper Node) (start count : Nat) (keyIndex : Str) (chain : Nat) :
    Except JsError (Object Str BatchEntry) :=
  Object.collect (fun i => sw.batchEntry p (sweepPath keyIndex chain (start + i))) (List.range count)

end Sweeper

/-! ## Funds -/

structure AddressUTXOs where
  path : Str
  redeem : Bytes
  witness : Option Bytes
  utxos : List Utxo
deriving DecidableEq

/-- `addressUTXOs`, `totalUTXOs` and `totalBalance`. -/
structure Funds where
  utxos : Object Str AddressUTXOs
  count : Nat
  balance : Int

structure SweepData extends Funds where
  addressesSearched : Nat

def Funds.empty : Funds := ⟨.empty, 0, 0⟩

def SweepData.empty : SweepData := ⟨.empty, 0⟩

def Funds.add (f : Funds) (e : Str × AddressUTXOs) : Funds where
  utxos := f.utxos.set e.1 e.2
  count := f.count + e.2.utxos.length
  balance := e.2.utxos.foldl (fun carry output => carry + output.value) f.balance

def fundsOf (e : BatchEntry) (outputs : List Utxo) : AddressUTXOs := ⟨e.path, e.redeem, e.witness, outputs⟩

/-! ## The search -/

/-- The loop over the results for a batch. An address that is not of the batch throws. -/
def saveUTXOs (batch : Object Str BatchEntry) : List (Str × List Utxo) → Prog JsError SweepData PUnit
  | [] => pure ⟨⟩
  | (address, outputs) :: rest =>
    match batch.get? address with
    | none => throw ⟨"TypeError", "Cannot read property 'witness' of undefined"⟩
    | some e => do
      modify fun d => { d with toFunds := d.toFunds.add (address, fundsOf e outputs) }
      saveUTXOs batch rest

/-- What follows `createBatchAddresses`: whether the batch has transactions, and its unspent outputs. -/
def searchBatch (client : BitcoinDataClient) (batchChunkSize : Nat) (batch : Object Str BatchEntry) :
    Prog JsError SweepData Bool := do
  modify fun d => { d with addressesSearched := d.addressesSearched + batch.keys.length }
  let hasTransactions ← orRaise (client.batchAddressHasTransactions batch.keys)
  if hasTransactions then saveUTXOs batch (getUTXOs client batchChunkSize batch.keys).entries
  pure hasTransactions

/-- What a run of discovery is given. -/
structure DiscoveryArgs where
  client : BitcoinDataClient
  batchChunkSize : Nat
  increment : Nat
  batchChunkSize_pos : 0 < batchChunkSize
  increment_pos : 0 < increment

namespace Sweeper

/-- The batches of a chain of a key index, from address `i` on; `none` is out of fuel. -/
def searchChain (p : Platform Node) (sw : Sweeper Node) (args : DiscoveryArgs) (chain : Str × Nat) :
    Nat → Nat → SweepData → Option (Except JsError SweepData)
  | 0, _, _ => none
  | fuel + 1, i, d =>
    match sw.createBatchAddresses p i args.increment chain.1 chain.2 with
    | .error e => some (.error e)
    | .ok batch =>
      match call (searchBatch args.client args.batchChunkSize batch) d with
      | (.ok true, d) => sw.searchChain p args chain fuel (i + args.increment) d
      | (.ok false, d) => some (.ok d)
      -- The error is logged and `async.nextTick(done)` drops it: the next chain follows.
      | (.error _, d) => some (.ok d)

/-- `this.network` is a network object here, so that it never equals `"bitcoincash"`. -/
def checkChain : List Nat := [0, 1, 2]

/-- `discoverWalletFunds(increment)`: what it resolves with, or the exception that keeps it from that. -/
def discoverWalletFunds (p : Platform Node) (sw : Sweeper Node) (args : DiscoveryArgs) (fuel : Nat) :
    Option (Except JsError SweepData) :=
  Series.eachSeries (fun keyIndex =>
      Series.eachSeries (fun chain => sw.searchChain p args (keyIndex, chain) fuel 0) checkChain)
    sw.blocktrailPublicKeys.keys .empty

end Sweeper

end JsSdk
