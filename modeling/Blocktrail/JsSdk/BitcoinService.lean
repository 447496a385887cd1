import Blocktrail.Bitcoin.UnspentPages
import Blocktrail.JsSdk.Discovery

/-! # The bitcoin data service -/

open Text Bitcoin Assoc

namespace JsSdk

/-- `async.doWhilst(iterator, test, callback)`, up to the call of `callback` with an error or none. -/
def doWhilst {σ ε : Type} (iterator : σ → Option ε × σ) (test : σ → Bool) : Nat → σ → Option (Option ε × σ)
  | 0, _ => none
  | fuel + 1, s =>
    match iterator s with
    | (some err, s) => some (some err, s)
    | (none, s) => if test s then doWhilst iterator test fuel s else some (none, s)

/-- `client.batchAddressUnspentOutputs(addresses, {page, limit})`. -/
abbrev UnspentOutputsQuery := List Str → Nat → Nat → Except JsError (List ApiUtxo)

/-- The variables of `getBatchUnspentOutputs`. -/
structure PagesRead where
  page : Nat
  results : Option (List ApiUtxo)
  utxos : List ApiUtxo

namespace PagesRead

def start : PagesRead := ⟨1, none, []⟩

/-- One turn of the loop. The callback calls its argument `results` as well, so the variable stays what it is. -/
def nextPage (query : UnspentOutputsQuery) (paginationLimit : Nat) (addresses : List Str) (s : PagesRead) :
    Option JsError × PagesRead :=
  match query addresses s.page paginationLimit with
  | .ok data => (none, { s with utxos := s.utxos ++ data, page := s.page + 1 })
  | .error err => (some err, s)

def more (s : PagesRead) : Bool :=
  match s.results with
  | some data => 0 < data.length
  | none => false

end PagesRead

def addOutput (batchResults : Object Str (List Utxo)) (utxo : ApiUtxo) : Object Str (List Utxo) :=
  batchResults.set utxo.address
    ((batchResults.get? utxo.address).getD [] ++ [⟨utxo.hash, utxo.index, utxo.value, utxo.script_hex⟩])

/-- What the promise resolves with. An error is logged, and what was read so far is resolved all the same. -/
def getBatchUnspentOutputs (query : UnspentOutputsQuery) (paginationLimit : Nat) (addresses : List Str) (fuel : Nat) :
    Option (Object Str (List Utxo)) :=
  (doWhilst (PagesRead.nextPage query paginationLimit addresses) PagesRead.more fuel .start).map fun done =>
    done.2.utxos.foldl addOutput .empty

/-- The loop stops after the first page, whatever it holds. -/
theorem getBatchUnspentOutputs_eq (query : UnspentOutputsQuery) (paginationLimit : Nat) (addresses : List Str)
    (fuel : Nat) : getBatchUnspentOutputs query paginationLimit addresses (fuel + 1) =
      some (((query addresses 1 paginationLimit).toOption.getD []).foldl addOutput .empty) := by
  unfold getBatchUnspentOutputs doWhilst PagesRead.nextPage
  cases h : query addresses PagesRead.start.page paginationLimit with
  | error err =>
    have h' : query addresses 1 paginationLimit = .error err := h
    simp [h', PagesRead.start]
    rfl
  | ok data =>
    have h' : query addresses 1 paginationLimit = .ok data := h
    simp [h', PagesRead.start, PagesRead.more]
    rfl

/-- The outputs of an address, in their order. -/
def outputsOf (outputs : List ApiUtxo) (address : Str) : List Utxo :=
  (outputs.filter (·.address = address)).map fun utxo => ⟨utxo.hash, utxo.index, utxo.value, utxo.script_hex⟩

theorem get?_foldl_addOutput (outputs : List ApiUtxo) (m : Object Str (List Utxo)) (address : Str) :
    (outputs.foldl addOutput m).get? address =
      if outputsOf outputs address = [] then m.get? address
      else some ((m.get? address).getD [] ++ outputsOf outputs address) := by
  induction outputs generalizing m with
  | nil => simp [outputsOf]
  | cons utxo outputs ih =>
    rw [List.foldl_cons, ih, addOutput, Object.get?_set]
    by_cases ha : address = utxo.address
    · subst ha
      by_cases hnil : outputsOf outputs utxo.address = []
      · simp_all [outputsOf]
      · simp_all [outputsOf]
    · have hcons : outputsOf (utxo :: outputs) address = outputsOf outputs address := by
        simp [outputsOf, Ne.symm ha]
      rw [hcons, if_neg ha]

end JsSdk
