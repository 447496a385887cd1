import Blocktrail.Lib.Throwing
import Blocktrail.PhpSdk.KeyStore
import Blocktrail.PhpSdk.WalletSpec

/-! # The wallet of the PHP SDK, with its caches

Keys are objects, with their own derivations. The wallet keeps the public keys of parents by path, the addresses by
private path, and the paths by address.
-/

open Text Throwing Bitcoin

namespace PhpSdk

variable {Node : Type}

structure CachedWallet (Node : Type) where
  store : KeyStore Node
  network : Str
  testnet : Bool
  isSegwit : Bool
  keyIndex : Nat
  chainIndex : Nat
  changeIndex : Nat
  /-- None while the wallet is locked. -/
  primaryPrivateKey : Option Nat
  primaryPublicKeys : Str → Option Nat
  backupPublicKey : Nat
  blocktrailPublicKeys : Str → Option Nat
  pubKeys : List (Str × Nat)
  derivations : Str → Option Str
  derivationsByAddress : Str → Option Str

/-- A method of the wallet. -/
abbrev CachedMethod (Node α : Type) := Prog PhpError (CachedWallet Node) α

namespace CachedWallet

/-- `$keys[$ref]->buildKey($path)`. -/
def buildKey (php : BitWasp Node) (ref : Nat) (path : BIP32Path) : CachedMethod Node Nat := do
  let s ← get
  let r := s.store.buildKey php ref path
  set { s with store := r.2 }
  orRaise r.1

/-- The key of an object. -/
def keyOf (ref : Nat) : CachedMethod Node (BIP32Key Node) := do
  let s ← get
  orRaise (entry (s.store.keyAt ref))

def getParentPublicKey (php : BitWasp Node) (path : BIP32Path) : CachedMethod Node (Option Nat) := do
  let parent ← orRaise path.parent
  let path := parent.publicPath
  if path.count ≤ 2 then pure none
  else if path.isHardened then pure none
  else do
    let s ← get
    match s.pubKeys.lookup path.toText with
    | some pubKey => pure (some pubKey)
    | none => do
      let primaryPublicKey ← orRaise (entry (s.primaryPublicKeys path.getKeyIndex))
      let pubKey ← buildKey php primaryPublicKey path
      modify fun s => { s with pubKeys := (path.toText, pubKey) :: s.pubKeys }
      pure (some pubKey)

/-- `getBlocktrailPublicKey($path)`. -/
def getBlocktrailPublicKey (path : BIP32Path) : CachedMethod Node Nat := do
  let keyIndex := Php.remove apostrophe ((path.offsetGet 1).getD [])
  let s ← get
  match s.blocktrailPublicKeys keyIndex with
  | some key => pure key
  | none => throw (noBlocktrailKey keyIndex)

def getWalletScriptFromKey (php : BitWasp Node) (key : Nat) (path : BIP32Path) : CachedMethod Node WalletScript := do
  let path := path.publicPath
  let blocktrailPublicKey ← getBlocktrailPublicKey path
  let k ← buildKey php key path >>= keyOf
  let b ← (do let s ← get; buildKey php s.backupPublicKey path.unhardenedPath) >>= keyOf
  let c ← buildKey php blocktrailPublicKey path >>= keyOf
  let multisig := php.multisig 2 (sortMultisigKeys php [k.publicKey php, b.publicKey php, c.publicKey php])
  let key ← keyOf key
  orRaise (scriptOfType php (← get).isSegwit (Php.intOf ((key.path.offsetGet 2).getD [])) path multisig)

def getWalletScriptByPath (php : BitWasp Node) (path : Str) : CachedMethod Node WalletScript := do
  let path ← orRaise (BIP32Path.ofText path)
  match ← getParentPublicKey php path with
  | some pubKey => do
    let key ← buildKey php pubKey path.publicPath
    getWalletScriptFromKey php key path
  | none => do
    let s ← get
    let primaryPublicKey ← orRaise (entry (s.primaryPublicKeys path.getKeyIndex))
    let key ← buildKey php primaryPublicKey path
    getWalletScriptFromKey php key path

/-- `getRedeemScriptByPath($path)`: the address and the scripts. -/
def getRedeemScriptByPath (php : BitWasp Node) (path : Str) : CachedMethod Node (Str × Bytes × Option Bytes) := do
  let walletScript ← getWalletScriptByPath php path
  let s ← get
  pure (php.outputAddress (bitcoinNetwork s.testnet) walletScript.spk, walletScript.redeemScript, walletScript.witnessScript)

def getAddressByPath (php : BitWasp Node) (path : Str) : CachedMethod Node Str := do
  let path ← orRaise (BIP32Path.ofText path)
  let path := path.privatePath.toText
  let s ← get
  match s.derivations path with
  | some address => pure address
  | none => do
    let scripts ← getRedeemScriptByPath php path
    modify fun s => { s with
      derivations := Function.update s.derivations path (some scripts.1)
      derivationsByAddress := Function.update s.derivationsByAddress scripts.1 (some path) }
    pure scripts.1

/-- What the API answers to a request for a new derivation. -/
structure NewDerivation where
  path : Str
  address : Str
  redeemScript : Str
  witnessScript : Option Str

def failedToVerify (what api locally : Str) : PhpError :=
  ⟨"Exception", "Failed to verify that " ++ what ++ " from API [" ++ api ++ "] matches address locally [" ++ locally ++
    "]"⟩

/-- What `getNewDerivation` checks of the answer. -/
def verify (php : BitWasp Node) (new : NewDerivation) (scripts : Str × Bytes × Option Bytes) : Except PhpError Unit :=
  if ¬Php.looselyEqual php.floats scripts.1 new.address then
    .error (failedToVerify "address" new.address scripts.1)
  else if ¬Php.looselyEqual php.floats (Hex.encode scripts.2.1) new.redeemScript then
    .error (failedToVerify "redeemScript" new.redeemScript (Hex.encode scripts.2.1))
  else
    match scripts.2.2 with
    | none => .ok ()
    | some witnessScript =>
      match new.witnessScript with
      | some w =>
        if Php.looselyEqual php.floats (Hex.encode witnessScript) w then .ok ()
        else .error (failedToVerify "witnessScript" w (Hex.encode witnessScript))
      | none => .error (failedToVerify "witnessScript" [] (Hex.encode witnessScript))

/-- `getNewAddressPair()`, with the answer of the API. -/
def getNewAddressPair (php : BitWasp Node) (new : NewDerivation) : CachedMethod Node (Str × Str) := do
  let scripts ← getRedeemScriptByPath php new.path
  orRaise (verify php new scripts)
  let address ← getAddressByPath php new.path
  pure (new.path, address)

/-- A public key of the API's answer: its index, what `fromExtended` makes of its text, and its path. -/
structure ApiKey (Node : Type) where
  keyIndex : Str
  key : Except PhpError Node
  path : Str

/-- A key that is not known yet is added. -/
def addBlocktrailKey (pubKey : ApiKey Node) : CachedMethod Node Unit := do
  let s ← get
  match s.blocktrailPublicKeys pubKey.keyIndex with
  | some _ => pure ()
  | none => do
    let key ← orRaise pubKey.key
    let path ← orRaise (BIP32Path.ofText pubKey.path)
    modify fun s => { s with
      store := s.store ++ [⟨⟨key, path⟩, []⟩]
      blocktrailPublicKeys := Function.update s.blocktrailPublicKeys pubKey.keyIndex (some s.store.length) }

def addBlocktrailKeys : List (ApiKey Node) → CachedMethod Node Unit
  | [] => pure ()
  | pubKey :: pubKeys => do
    addBlocktrailKey pubKey
    addBlocktrailKeys pubKeys

def lockedError : PhpError := ⟨"Exception", "Wallet needs to be unlocked to upgrade key index"⟩

/-- `upgradeKeyIndex($keyIndex)`, with the answer of the API. -/
def upgradeKeyIndex (php : BitWasp Node) (keyIndex : Nat) (result : Except PhpError (List (ApiKey Node))) :
    CachedMethod Node Unit := do
  let s ← get
  match s.primaryPrivateKey with
  | none => throw lockedError
  | some primaryPrivateKey => do
    let primaryPublicKey ← buildKey php primaryPrivateKey (accountBIP32Path keyIndex)
    let blocktrailPublicKeys ← orRaise result
    modify fun s => { s with
      primaryPublicKeys := Function.update s.primaryPublicKeys (dec keyIndex) (some primaryPublicKey)
      keyIndex := keyIndex }
    addBlocktrailKeys blocktrailPublicKeys

end CachedWallet

end PhpSdk
