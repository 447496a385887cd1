import Blocktrail.JsSdk.State

/-! # Wallet scripts -/

open Text Throwing Bitcoin

namespace JsSdk

variable {Node : Type}

structure WalletScripts where
  witnessScript : Option Bytes
  redeemScript : Bytes
  scriptPubKey : Bytes
  address : Str
deriving DecidableEq

/-- `key1.toString('hex').localeCompare(key2.toString('hex'))` leaves the two as they are. -/
def hexLe (collation : Collation) (a b : PubKey) : Prop :=
  collation.localeCompare (Hex.encode a.bytes) (Hex.encode b.bytes) ≠ .gt

instance (collation : Collation) : DecidableRel (hexLe collation) := fun a b =>
  inferInstanceAs (Decidable (collation.localeCompare (Hex.encode a.bytes) (Hex.encode b.bytes) ≠ .gt))

/-- `Wallet.sortMultiSigKeys`. -/
def sortMultiSigKeys (collation : Collation) (pubKeys : List PubKey) : List PubKey :=
  pubKeys.insertionSort (hexLe collation)

/-- `path.split("/")[1].replace("'", "")`. -/
def keyIndexOf (path : Str) : Except JsError Str :=
  match (path.splitOn '/')[1]? with
  | some part => .ok (replaceFirst apostrophe [] part)
  | none => .error ⟨"TypeError", "Cannot read property 'replace' of undefined"⟩

/-- `parseInt(path.split("/")[2])`; `none` is NaN. -/
def scriptTypeOf (path : Str) : Option Int := (path.splitOn '/')[2]?.bind parseInt

def unknownKeyIndex (name keyIndex : Str) : JsError :=
  ⟨"KeyPathError", "Wallet." ++ name ++ " keyIndex (" ++ keyIndex ++ ") is unknown to us"⟩

/-- The path of a key index, the parent of its wallet paths. -/
def keyPathOf (keyIndex : Str) : Str := "M/" ++ (keyIndex ++ [apostrophe])

def getPrimaryPublicKey (p : Platform Node) (path : Str) : Method Node Node := do
  let path := replaceFirst 'm' "M" path
  let keyIndex ← orRaise (keyIndexOf path)
  let w := (← get).wallet
  match w.primaryPublicKeys keyIndex with
  | some primaryPublicKey => orRaise (deriveByPath p.hd primaryPublicKey path (keyPathOf keyIndex))
  | none =>
    match w.primaryPrivateKey with
    | none => throw (unknownKeyIndex "getPrimaryPublicKey" keyIndex)
    | some primaryPrivateKey => do
      let primaryPublicKey ← orRaise (deriveByPath p.hd primaryPrivateKey (keyPathOf keyIndex) "m")
      modifyWallet fun w =>
        { w with primaryPublicKeys := Function.update w.primaryPublicKeys keyIndex (some primaryPublicKey) }
      orRaise (deriveByPath p.hd primaryPublicKey path (keyPathOf keyIndex))

def getBlocktrailPublicKey (p : Platform Node) (blocktrailPublicKeys : Str → Option Node) (path : Str) :
    Except JsError Node := do
  let path := replaceFirst 'm' "M" path
  let keyIndex ← keyIndexOf path
  match blocktrailPublicKeys keyIndex with
  | none => .error (unknownKeyIndex "getBlocktrailPublicKey" keyIndex)
  | some blocktrailPublicKey => deriveByPath p.hd blocktrailPublicKey path (keyPathOf keyIndex)

/-- `network === text`: a network is an object, and an object equals no string. -/
def networkEqualsText (_network : Network) (_text : Str) : Bool := false

/-- `network !== "bitcoincash" && scriptType === CHAIN_BTC_SEGWIT`. -/
def isWitnessPath (network : Network) (path : Str) : Bool :=
  !networkEqualsText network "bitcoincash" && scriptTypeOf path == some (CHAIN_BTC_SEGWIT : Int)

/-- The scripts of three keys, and the address of them. -/
def scriptsOfKeys (p : Platform Node) (network : Network) (useNewCashAddr witness : Bool) (keys : List PubKey) :
    Except JsError WalletScripts := do
  let multisig := multisigOutput 2 (sortMultiSigKeys p.collation keys)
  let ws := if witness then some multisig else none
  let rs := if witness then witnessScriptHashOutput (p.hashes.sha256 multisig) else multisig
  let spk := scriptHashOutput (p.hashes.hash160 rs)
  let addr ← fromOutputScript p.codec spk network useNewCashAddr
  pure ⟨ws, rs, spk, addr⟩

def getWalletScriptByPath (p : Platform Node) (path : Str) : Method Node WalletScripts := do
  let derivedPrimaryPublicKey ← getPrimaryPublicKey p path
  let w := (← get).wallet
  let derivedBlocktrailPublicKey ← orRaise (getBlocktrailPublicKey p w.blocktrailPublicKeys path)
  let derivedBackupPublicKey ←
    orRaise (deriveByPath p.hd w.backupPublicKey (replaceFirst apostrophe [] path) "M")
  orRaise (scriptsOfKeys p w.network w.useNewCashAddr (isWitnessPath w.network path)
    [p.hd.getPublicKeyBuffer derivedPrimaryPublicKey, p.hd.getPublicKeyBuffer derivedBackupPublicKey,
      p.hd.getPublicKeyBuffer derivedBlocktrailPublicKey])

end JsSdk
