import Blocktrail.Bitcoin.Address
import Blocktrail.JsSdk.Scripts

/-! # New addresses

The server answers a request for a chain with a path and an address, which the wallet derives for itself.
-/

open Text Throwing Bitcoin

namespace JsSdk

namespace NewAddress

variable {Node : Type} (p : Platform Node) (d : AddressDecoder)

/-! ## Requests -/

/-- What is passed for `chainIdx`. -/
inductive ChainIndex
  | omitted
  | integer (n : Int)
  | other

/-- The answer of the server. -/
structure NewDerivation where
  path : Str
  address : Str

/-- A call of `getNewAddress`, and what the server answers to each path. -/
structure Call where
  chainIdx : ChainIndex
  getNewDerivation : Str → Except JsError NewDerivation

/-- The wallet, and its field `bypassNewAddressCheck`. -/
structure State (Node : Type) where
  world : World Node
  bypassNewAddressCheck : Bool

def onWorld {α : Type} (m : Method Node α) : Prog JsError (State Node) α := fun s =>
  match call m s.world with
  | (r, world) => (r, { s with world })

def intText (n : Int) : Str := if n < 0 then '-' :: dec n.natAbs else dec n.natAbs

/-- `"M/" + self.keyIndex + "'/" + chainIdx`. -/
def requestPath (keyIndex : Nat) (chainIdx : Int) : Str := accountPath keyIndex ++ '/' :: intText chainIdx

/-! ## The check -/

def walletAddressError (message : Str) : JsError := ⟨"WalletAddressError", message⟩

/-- The wallet has cash addresses, and the address is none. -/
def isLegacy (w : Wallet Node) : Decoded → Bool
  | .base58 _ _ => w.network.cashAddrPrefix.isSome && w.useNewCashAddr
  | _ => false

/-- `decoded.hash`. -/
def hashOf : Decoded → Except JsError Bytes
  | .bech32 _ _ _ => .error ⟨"TypeError", "decoded.hash is undefined"⟩
  | .cashaddr _ _ hash => .ok hash
  | .base58 _ hash => .ok hash

/-- `decodeOurs.decoded.version` is the name of the type. -/
def isType (name : Str) : Decoded → Bool
  | .cashaddr _ version _ => version = name
  | _ => false

/-- `decodedFromServer.decoded.version` is the byte of the network. -/
def isVersion (byte : Byte) : Decoded → Bool
  | .base58 version _ => version = byte
  | _ => false

/-- The address of a legacy answer, encoded again. -/
def reencode (w : Wallet Node) (verifyAddress : Str) (decodedFromServer : Decoded) : Except JsError Str :=
  match getAddressAndType d verifyAddress w.network w.useNewCashAddr with
  | .error e => .error (walletAddressError ("Error while verifying address from server [" ++ e.message ++ "]"))
  | .ok decodeOurs => do
    let ours ← hashOf decodeOurs
    let theirs ← hashOf decodedFromServer
    if ours ≠ theirs then throw (walletAddressError "Failed to verify legacy address [hash mismatch]")
    let matchedP2PKH := isType "pubkeyhash" decodeOurs && isVersion w.network.pubKeyHash decodedFromServer
    let matchedP2SH := isType "scripthash" decodeOurs && isVersion w.network.scriptHash decodedFromServer
    if ¬(matchedP2PKH || matchedP2SH) then
      throw (walletAddressError "Failed to verify legacy address [prefix mismatch]")
    return verifyAddress

/-- The address to compare: a legacy one is replaced by its new encoding. -/
def addressToCheck (w : Wallet Node) (verifyAddress fromServer : Str) (decodedFromServer : Decoded) :
    Except JsError Str :=
  if isLegacy w decodedFromServer then reencode d w verifyAddress decodedFromServer else .ok fromServer

/-- The address that the call returns, where it is checked. -/
def checkedAddress (w : Wallet Node) (verifyAddress fromServer : Str) (decodedFromServer : Decoded) :
    Except JsError Str := do
  let addressFromServer ← addressToCheck d w verifyAddress fromServer decodedFromServer
  if verifyAddress ≠ addressFromServer then
    throw (walletAddressError ("Failed to verify address [" ++ fromServer ++ "] !== [" ++ addressFromServer ++ "]"))
  return addressFromServer

/-! ## `getNewAddress` -/

def chainOf (w : Wallet Node) : ChainIndex → Except JsError Int
  | .omitted => .ok w.chain
  | .integer n => .ok n
  | .other => .error ⟨"Error", "Invalid chain index"⟩

/-- The answer to a call, with its address decoded. -/
def answerTo (w : Wallet Node) (c : Call) : Except JsError (NewDerivation × Decoded) := do
  let chainIdx ← chainOf w c.chainIdx
  let newDerivation ← c.getNewDerivation (requestPath w.keyIndex chainIdx)
  match getAddressAndType d newDerivation.address w.network w.useNewCashAddr with
  | .ok decodedFromServer => return (newDerivation, decodedFromServer)
  | .error _ => throw (walletAddressError ("Failed to decode address [" ++ newDerivation.address ++ "]"))

/-- A legacy address lifts the bypass. -/
def liftBypass (legacy : Bool) : Prog JsError (State Node) Unit :=
  if legacy then modify fun s => { s with bypassNewAddressCheck := false } else pure ()

def getNewAddress (c : Call) : Prog JsError (State Node) (Str × Str) := do
  let w := (← get).world.wallet
  let (newDerivation, decodedFromServer) ← orRaise (answerTo d w c)
  liftBypass (isLegacy w decodedFromServer)
  if (← get).bypassNewAddressCheck then return (newDerivation.address, newDerivation.path)
  let scripts ← onWorld (getWalletScriptByPath p newDerivation.path)
  let address ← orRaise (checkedAddress d w scripts.address newDerivation.address decodedFromServer)
  return (address, newDerivation.path)

def step (s : State Node) (c : Call) : State Node := after (getNewAddress p d c) s

end NewAddress

end JsSdk
