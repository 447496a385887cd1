import Blocktrail.Bitcoin.Script

/-! # Reading addresses -/

open Text

namespace Bitcoin

/-- What a reader makes of an address. -/
inductive Decoded
  | bech32 (prefix' : Str) (version : Nat) (data : Bytes)
  | cashaddr (prefix' : Str) (version : Str) (hash : Bytes)
  | base58 (version : Byte) (hash : Bytes)
deriving DecidableEq

/-- `bitcoin.address.fromBech32`, `fromCashAddress` and `fromBase58Check`. -/
structure AddressDecoder where
  fromBech32 : Str → Except JsError (Str × Nat × Bytes)
  fromCashAddress : Str → Except JsError (Str × Str × Bytes)
  fromBase58Check : Str → Except JsError (Byte × Bytes)

variable (d : AddressDecoder)

def invalidAddressError (message : Str) : JsError := ⟨"InvalidAddressError", message⟩

/-! ## The readers

A reader returns the error of the library, and throws where the network is another one.
-/

def readBech32Address (address : Str) (network : Network) : Except JsError (Except JsError Decoded) :=
  match d.fromBech32 address with
  | .ok (prefix', version, data) =>
    if network.bech32 ≠ some prefix' then .error (invalidAddressError "Address invalid on this network")
    else .ok (.ok (.bech32 prefix' version data))
  | .error e => .ok (.error e)

def readCashAddress (address : Str) (network : Network) : Except JsError (Except JsError Decoded) :=
  match d.fromCashAddress address with
  | .ok (prefix', version, hash) =>
    if network.cashAddrPrefix ≠ some prefix' then .error ⟨"Error", address ++ " has an invalid prefix"⟩
    else .ok (.ok (.cashaddr prefix' version hash))
  | .error e => .ok (.error e)

def readBase58Address (address : Str) (network : Network) : Except JsError (Except JsError Decoded) :=
  match d.fromBase58Check address with
  | .ok (version, hash) =>
    if version ≠ network.pubKeyHash ∧ version ≠ network.scriptHash then
      .error (invalidAddressError "Address invalid on this network")
    else .ok (.ok (.base58 version hash))
  | .error e => .ok (.error e)

/-- `readAddress`: a reader is asked where there is no address yet. -/
def readAddress (enabled : Bool) (reader : Except JsError (Except JsError Decoded))
    (found : Option Decoded × Option JsError) : Except JsError (Option Decoded × Option JsError) :=
  if found.1.isNone && enabled then
    match reader with
    | .ok (.ok addr) => .ok (some addr, found.2)
    | .ok (.error e) => .ok (none, some e)
    | .error e => .error e
  else .ok found

/-- `Wallet.getAddressAndType`. The reader that decoded the address is its type. -/
def getAddressAndType (address : Str) (network : Network) (allowCashAddress : Bool) : Except JsError Decoded := do
  let segwit := network = .bitcoin ∨ network = .testnet
  let found ← readAddress segwit (readBech32Address d address network) (none, none)
  let found ← readAddress (network.cashAddrPrefix.isSome && allowCashAddress) (readCashAddress d address network) found
  let found ← readAddress true (readBase58Address d address network) found
  match found with
  | (some addr, _) => .ok addr
  | (none, some err) => .error (invalidAddressError err.message)
  | (none, none) => .error ⟨"TypeError", "err is undefined"⟩

end Bitcoin
