import Blocktrail.Bitcoin.Address

/-! # The script of an address -/

open Text

namespace Bitcoin

/-! ## Types of hashes -/

/-- `bitcoin.script.types.P2PKH` and `P2SH`. -/
def P2PKH : Str := "pubkeyhash"
def P2SH : Str := "scripthash"

theorem P2SH_ne_P2PKH : P2SH ≠ P2PKH := by decide

/-- An output template of a hash, which takes no hash of another length. -/
def hashOutput {n : Nat} (output : { h : Bytes // h.length = n } → Bytes) (hash : Bytes) : Option Bytes :=
  if h : hash.length = n then some (output ⟨hash, h⟩) else none

/-! ## What a reader's result pays -/

def cashScript (version : Str) (hash : Bytes) : Option Bytes :=
  if version = P2PKH then hashOutput pubKeyHashOutput hash
  else if version = P2SH then hashOutput scriptHashOutput hash
  else none

def base58Script (network : Network) (version : Byte) (hash : Bytes) : Option Bytes :=
  if version = network.pubKeyHash then hashOutput pubKeyHashOutput hash
  else if version = network.scriptHash then hashOutput scriptHashOutput hash
  else none

def witnessScript (version : Nat) (data : Bytes) : Option Bytes :=
  if version = 0 then
    if data.length = 20 then hashOutput witnessPubKeyHashOutput data else hashOutput witnessScriptHashOutput data
  else none

def scriptOf (network : Network) : Decoded → Option Bytes
  | .cashaddr _ version hash => cashScript version hash
  | .base58 version hash => base58Script network version hash
  | .bech32 _ version data => witnessScript version data

variable (d : AddressDecoder)

def invalidPrefix (address : Str) : JsError := ⟨"Error", address ++ " has an invalid prefix"⟩

def noMatchingScript (address : Str) : JsError := ⟨"Error", address ++ " has no matching Script"⟩

/-- The last reader of `toOutputScript`. -/
def bech32OutputScript (address : Str) (network : Network) : Except JsError Bytes :=
  match d.fromBech32 address with
  | .ok (prefix', version, data) =>
    if network.bech32 ≠ some prefix' then .error (invalidPrefix address)
    else
      match witnessScript version data with
      | some script => .ok script
      | none => .error (noMatchingScript address)
  | .error _ => .error (noMatchingScript address)

/-- `bitcoin.address.toOutputScript`: cash addresses, then base58, then bech32, which is tried where no reader has
decoded the address. -/
def toOutputScript (address : Str) (network : Network) (useNewCashAddress : Bool) : Except JsError Bytes :=
  let cash := if network.cashAddrPrefix.isSome && useNewCashAddress then (d.fromCashAddress address).toOption else none
  match cash.bind fun decode => cashScript decode.2.1 decode.2.2 with
  | some script => .ok script
  | none =>
    if cash.any fun decode => network.cashAddrPrefix != some decode.1 then .error (invalidPrefix address)
    else
      let base58 := (d.fromBase58Check address).toOption
      match base58.bind fun decode => base58Script network decode.1 decode.2 with
      | some script => .ok script
      | none =>
        if cash.isNone && base58.isNone && network.bech32.isSome then bech32OutputScript d address network
        else .error (noMatchingScript address)

/-! ## Decoders -/

/-- What the readers of the library have in common: the lengths of hashes, and that cash addresses have a colon and a
prefix of their own. -/
structure AddressDecoder.Lawful : Prop where
  length_base58 : ∀ s version hash, d.fromBase58Check s = .ok (version, hash) → hash.length = 20
  cash : ∀ s prefix' version hash, d.fromCashAddress s = .ok (prefix', version, hash) →
    hash.length = 20 ∧ (version = P2PKH ∨ version = P2SH)
  cash_not_base58 : ∀ s r, d.fromCashAddress s = .ok r → ∃ e, d.fromBase58Check s = .error e
  cash_not_bech32 : ∀ s prefix' r, d.fromCashAddress s = .ok (prefix', r) →
    (∃ network : Network, network.cashAddrPrefix = some prefix') →
      ∀ hrp r', d.fromBech32 s = .ok (hrp, r') → ∀ network : Network, network.bech32 ≠ some hrp

end Bitcoin
