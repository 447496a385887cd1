import Blocktrail.PhpSdk.BatchUnspentOutputFinder

/-! # The finder of unspent outputs, address by address

A call that fails starts the address again, and the retries are counted in the object.
-/

open Text Bitcoin

namespace PhpSdk

namespace BlocktrailUnspentOutputFinder

/-- `$client->addressUnspentOutputs($address, $page, $limit)`, by the number of calls before. -/
abbrev AddressQuery := Nat → Str → Nat → Nat → Except PhpError (List ApiUtxo)

/-- The object, and the calls that its client has had. An exception leaves them as they are. -/
structure Finder where
  retries : Nat
  calls : Nat

abbrev Thrown := PhpError × Finder

/-- One turn of the loop: on with `inl`, out with `inr`. -/
def nextPage (query : AddressQuery) (paginationLimit : Nat) (address : Str) (s : PagesRead) :
    Except Thrown (PagesRead ⊕ PagesRead) :=
  match query s.calls address s.page paginationLimit with
  | .ok data =>
    let t := { s with calls := s.calls + 1, utxos := s.utxos ++ data, page := s.page + 1 }
    .ok (if 0 < data.length then .inl t else .inr t)
  | .error e =>
    -- `return $this->getUnspentOutputs($address)`
    if s.retries < retryLimit then .ok (.inl ⟨s.calls + 1, 1, s.retries + 1, []⟩)
    else .error (e, ⟨s.retries, s.calls + 1⟩)

/-- There is no `address`. -/
def resultOf (utxo : ApiUtxo) : Utxo := ⟨none, some utxo.value, utxo.hash, utxo.index, utxo.script_hex⟩

def getUnspentOutputs (query : AddressQuery) (paginationLimit : Nat) (address : Str) (finder : Finder) (fuel : Nat) :
    Option (Except Thrown (List Utxo × Finder)) :=
  (Series.recur (fun s => some (nextPage query paginationLimit address s)) fuel
    ⟨finder.calls, 1, finder.retries, []⟩).map fun r => r.map fun s => (s.utxos.map resultOf, ⟨0, s.calls⟩)

/-- The loop body over the addresses. -/
def addAddress (query : AddressQuery) (paginationLimit fuel : Nat) (address : Str) (s : List Utxo × Finder) :
    Option (Except Thrown (List Utxo × Finder)) :=
  (getUnspentOutputs query paginationLimit address s.2 fuel).map fun r =>
    r.map fun utxos => (if 0 < utxos.1.length then s.1 ++ utxos.1 else s.1, utxos.2)

def getUTXOs (query : AddressQuery) (paginationLimit : Nat) (addresses : List Str) (finder : Finder) (fuel : Nat) :
    Option (Except Thrown (List Utxo × Finder)) :=
  Series.eachSeries (addAddress query paginationLimit fuel) addresses ([], finder)

end BlocktrailUnspentOutputFinder

end PhpSdk
