import Blocktrail.JsSdk.Construct

/-! # A new wallet of version 2 or 3

`createNewWallet` draws the seeds, encrypts them, stores what is public and what is encrypted on the server, and
returns the wallet with the mnemonics for the backup sheet.
-/

open Text Throwing Bitcoin

namespace JsSdk

variable {Node : Type}

/-! ## Options -/

inductive RecoverySecret
  | undefined
  | no
  | given (secret : Data)

structure NewWalletOptions (Node : Type) where
  identifier : Str
  passphrase : Option Data
  password : Option Data
  keyIndex : Nat
  storePrimaryMnemonic : Bool
  storeDataOnServer : Option Bool
  primarySeed : Option Bytes
  /-- Whether the deprecated `primaryPrivateKey` is there. -/
  primaryPrivateKey : Bool
  secret : Option Data
  recoverySecret : RecoverySecret
  backupSeed : Option Bytes
  backupPublicKey : Option Node
  supportSecret : Option Str
  segwit : Bool
  useCashAddress : Bool

def WALLET_ENTROPY_BITS : Nat := 256

abbrev Entropy := { b : Bytes // b.length = WALLET_ENTROPY_BITS / 8 }

/-- The random numbers of one call. -/
structure Draws where
  primarySeed : Entropy
  backupSeed : Entropy
  secret : Entropy
  recoverySecret : Entropy
  aesSecretSalt : Bytes
  aesSeedSalt : Bytes
  aesRecoverySalt : Bytes
  secretSalt : Salt
  secretIV : IV
  seedSalt : Salt
  seedIV : IV
  recoverySalt : Salt
  recoveryIV : IV

/-- `determineDataStorageV2_3`. -/
def determineDataStorage (o : NewWalletOptions Node) : Bool :=
  if o.storePrimaryMnemonic then true else o.storeDataOnServer.getD o.primarySeed.isNone

def NewWalletOptions.anyPassphrase (o : NewWalletOptions Node) : Option Data :=
  if truthy o.passphrase then o.passphrase else o.password

/-! ## Encrypted data

A ciphertext is a text in version 2 and a `Buffer` in version 3.
-/

structure ProducedData (Ct : Type) where
  secret : Option Data
  encryptedSecret : Option Ct
  encryptedPrimarySeed : Option Ct
  recoverySecret : RecoverySecret
  recoveryEncryptedSecret : Option Ct

variable (p : Platform Node)

def noPassphrase : JsError := ⟨"WalletCreateError", "Can't encrypt data without a passphrase"⟩

/-- The value of an option, where it is not false. -/
def givenOption (x : Option Data) : Option Data := if truthy x then x else none

/-- The secret, and its encryption where it is not given. -/
def produceSecretV2 (r : Draws) (secret passphrase : Option Data) : Except JsError (Data × Option Str) :=
  match givenOption secret, givenOption passphrase with
  | some secret, _ => .ok (secret, none)
  | none, none => .error noPassphrase
  | none, some pw => do
    let secret : Data := .text (Hex.encode r.secret.val)
    let encryptedSecret ← p.aesEncrypt (some secret) pw r.aesSecretSalt
    pure (secret, some encryptedSecret)

/-- `produceEncryptedDataV2`, of options that store data. -/
def encryptDataV2 (r : Draws) (o : NewWalletOptions Node) (primarySeed : Bytes) :
    Except JsError (ProducedData Str) := do
  let (secret, encryptedSecret) ← produceSecretV2 p r o.secret o.anyPassphrase
  let encryptedPrimarySeed ← p.aesEncrypt (some (.text (Base64.encode primarySeed))) secret r.aesSeedSalt
  let recoverySecret : Data := .text (Hex.encode r.recoverySecret.val)
  let recoveryEncryptedSecret ← p.aesEncrypt (some secret) recoverySecret r.aesRecoverySalt
  pure ⟨some secret, encryptedSecret, some encryptedPrimarySeed, .given recoverySecret, some recoveryEncryptedSecret⟩

def produceSecretV3 (r : Draws) (secret passphrase : Option Data) : Except JsError (Data × Option Bytes) :=
  match givenOption secret, givenOption passphrase with
  | some (.buffer b), _ => .ok (.buffer b, none)
  | some (.text _), _ => .error ⟨"Error", "Secret must be a buffer"⟩
  | none, none => .error noPassphrase
  | none, some pw => do
    let pw ← bufferFrom (some pw)
    let secret : Data := .buffer r.secret.val
    let encryptedSecret ← Encryption.encrypt p (some secret) (some (.buffer pw)) r.secretSalt r.secretIV defaultIterations
    pure (secret, some encryptedSecret)

/-- `if (!options.recoverySecret) options.recoverySecret = randomBytes(..)`. -/
def RecoverySecret.getD (given : RecoverySecret) (drawn : Bytes) : Data :=
  match given with
  | .given x => (givenOption (some x)).getD (.buffer drawn)
  | _ => .buffer drawn

/-- The recovery secret and the secret under it, unless there is to be none. -/
def produceRecoveryV3 (r : Draws) (secret : Data) (recoverySecret : RecoverySecret) :
    Except JsError (RecoverySecret × Option Bytes) :=
  match recoverySecret with
  | .no => .ok (.no, none)
  | given => do
    let recoverySecret := given.getD r.recoverySecret.val
    let recoveryEncryptedSecret ←
      Encryption.encrypt p (some secret) (some recoverySecret) r.recoverySalt r.recoveryIV defaultIterations
    pure (.given recoverySecret, some recoveryEncryptedSecret)

/-- `produceEncryptedDataV3`, of options that store data. -/
def encryptDataV3 (r : Draws) (o : NewWalletOptions Node) (primarySeed : Bytes) :
    Except JsError (ProducedData Bytes) := do
  let (secret, encryptedSecret) ← produceSecretV3 p r o.secret o.anyPassphrase
  let encryptedPrimarySeed ←
    Encryption.encrypt p (some (.buffer primarySeed)) (some secret) r.seedSalt r.seedIV subkeyIterations
  let (recoverySecret, recoveryEncryptedSecret) ← produceRecoveryV3 p r secret o.recoverySecret
  pure ⟨some secret, encryptedSecret, some encryptedPrimarySeed, recoverySecret, recoveryEncryptedSecret⟩

/-! ## What is sent to the server -/

inductive PostValue
  | undefined
  | no
  | text (s : Str)
deriving DecidableEq

structure WalletPost where
  identifier : Str
  walletVersion : WalletVersion
  /-- Base58 key and path. -/
  primaryPublicKey : Str × Str
  backupPublicKey : Str × Str
  encryptedPrimarySeed : PostValue
  encryptedSecret : PostValue
  recoverySecret : PostValue
  checksum : Str
  keyIndex : Nat
  supportSecret : Option Str
  segwit : Bool

/-- The fields that are encrypted, as one version sends them. -/
def postV2 (store : Bool) (ct : Option Str) : Except JsError PostValue :=
  if !store then .ok .no else .ok (ct.elim .undefined .text)

def postRecoveryV2 (store : Bool) (recoverySecret : RecoverySecret) : Except JsError PostValue :=
  if !store then .ok .no
  else
    match recoverySecret with
    | .given (.text s) => .ok (.text s)
    | .given (.buffer b) => .ok (.text (Hex.encode b))
    | .no => .ok .no
    | .undefined => .ok .undefined

def noToString : JsError := ⟨"TypeError", "Cannot read property 'toString' of undefined"⟩

/-- `encryptedPrimarySeed.toString('base64')`: of `false`, the text `false`. -/
def postV3 (store : Bool) (ct : Option Bytes) : Except JsError PostValue :=
  if !store then .ok (.text "false")
  else
    match ct with
    | some b => .ok (.text (Base64.encode b))
    | none => .error noToString

def postRecoveryV3 (store : Bool) (recoverySecret : RecoverySecret) : Except JsError PostValue :=
  if !store then .ok (.text "false")
  else
    match recoverySecret with
    | .given (.text s) => .ok (.text s)
    | .given (.buffer b) => .ok (.text (Hex.encode b))
    | .no => .ok (.text "false")
    | .undefined => .error noToString

/-- `verifyPublicBip32Key`. -/
def verifyPublicBip32Key (network : Network) (bip32Key : Str × Str) : Except JsError Unit := do
  let hk ← p.hd.fromBase58 bip32Key.1 network
  if !p.hd.isNeutered hk then throw ⟨"Error", "BIP32Key contained private key material - abort"⟩
  if bip32Key.2.take 1 ≠ "M".toList then throw ⟨"Error", "BIP32Key contained non-public path - abort"⟩

/-- What the server answers. -/
structure StoreResult where
  blocktrailPublicKeys : List (Str × Str)
  segwit : Bool
  upgradeKeyIndex : Option Nat

/-! ## The backup sheet -/

/-- The mnemonics that are returned for the sheet. -/
structure BackupInfo where
  walletVersion : WalletVersion
  encryptedPrimarySeed : Option Str
  backupSeed : Option Str
  recoveryEncryptedSecret : Option Str
  encryptedSecret : Option Str
  blocktrailPublicKeys : List (Str × Str)

/-- `x ? f(x) : null`. -/
def mnemonicOf {α : Type} (f : α → Except JsError Str) : Option α → Except JsError (Option Str)
  | some x => some <$> f x
  | none => .ok none

/-- `bip39.entropyToMnemonic(blocktrail.convert(ct, 'base64', 'hex'))`. -/
def mnemonicV2 (ct : Str) : Except JsError Str := p.entropyToMnemonic (Hex.encode (Base64.decode ct))

/-! ## `createNewWallet` -/

/-- What the versions differ in. -/
structure Scheme (Node Ct : Type) where
  version : WalletVersion
  encryptData : Draws → NewWalletOptions Node → Bytes → Except JsError (ProducedData Ct)
  post : Bool → Option Ct → Except JsError PostValue
  postRecovery : Bool → RecoverySecret → Except JsError PostValue
  mnemonic : Ct → Except JsError Str
  data : Ct → Data

def schemeV2 : Scheme Node Str where
  version := .v2
  encryptData := encryptDataV2 p
  post := postV2
  postRecovery := postRecoveryV2
  mnemonic := mnemonicV2 p
  data := .text

def schemeV3 : Scheme Node Bytes where
  version := .v3
  encryptData := encryptDataV3 p
  post := postV3
  postRecovery := postRecoveryV3
  mnemonic := p.encodeMnemonic
  data := .buffer

/-- Without stored data the options stay as they are. -/
def Scheme.produce {Ct : Type} (scheme : Scheme Node Ct) (r : Draws) (o : NewWalletOptions Node) (primarySeed : Bytes) :
    Except JsError (ProducedData Ct) :=
  if determineDataStorage o then scheme.encryptData r o primarySeed
  else .ok ⟨o.secret, none, none, o.recoverySecret, none⟩

/-- The keys of `doRemainingWalletDataV2_3`. -/
structure RemainingData (Node : Type) where
  backupSeed : Option Bytes
  primaryPrivateKey : Node
  backupPublicKey : Node
  primaryPublicKey : Node

def doRemainingWalletData (network : Network) (r : Draws) (o : NewWalletOptions Node) (primarySeed : Bytes) :
    Except JsError (RemainingData Node) := do
  let primaryPrivateKey ← p.hd.fromSeedBuffer primarySeed network
  let (backupSeed, backupPublicKey) ←
    match o.backupPublicKey with
    | some key => pure (o.backupSeed, key)
    | none => do
      let backupSeed := o.backupSeed.getD r.backupSeed.val
      let backupPrivateKey ← p.hd.fromSeedBuffer backupSeed network
      pure (some backupSeed, p.hd.neutered backupPrivateKey)
  let child ← p.hd.deriveHardened primaryPrivateKey o.keyIndex
  pure ⟨backupSeed, primaryPrivateKey, backupPublicKey, p.hd.neutered child⟩

/-- The copy of the data that the server keeps. -/
def PostValue.stored : PostValue → Option Str
  | text s => some s
  | _ => none

def WalletPost.server (post : WalletPost) : ServerWallet where
  primaryMnemonic := none
  encryptedPrimarySeed := post.encryptedPrimarySeed.stored
  encryptedSecret := post.encryptedSecret.stored
  recoverySecret := post.recoverySecret.stored
  walletVersion := post.walletVersion

/-- The wallet that is returned, with what it stands in, and the data for the sheet. -/
structure NewWallet (Node : Type) where
  world : World Node
  post : WalletPost
  backupInfo : BackupInfo

variable {p}

def Scheme.walletPost {Ct : Type} (scheme : Scheme Node Ct) (p : Platform Node) (sdk : Sdk) (o : NewWalletOptions Node)
    (e : ProducedData Ct) (k : RemainingData Node) : Except JsError WalletPost := do
  let store := determineDataStorage o
  let encryptedPrimarySeed ← scheme.post store e.encryptedPrimarySeed
  let encryptedSecret ← scheme.post store e.encryptedSecret
  let recoverySecret ← scheme.postRecovery store e.recoverySecret
  let post : WalletPost :=
    { identifier := o.identifier
      walletVersion := scheme.version
      primaryPublicKey := (p.hd.toBase58 k.primaryPublicKey, "M/" ++ dec o.keyIndex ++ "'")
      backupPublicKey := (p.hd.toBase58 k.backupPublicKey, "M")
      encryptedPrimarySeed := encryptedPrimarySeed
      encryptedSecret := encryptedSecret
      recoverySecret := recoverySecret
      checksum := p.hd.getAddress k.primaryPrivateKey
      keyIndex := o.keyIndex
      supportSecret := o.supportSecret
      segwit := o.segwit }
  verifyPublicBip32Key p sdk.network post.primaryPublicKey
  verifyPublicBip32Key p sdk.network post.backupPublicKey
  pure post

def Scheme.createdData {Ct : Type} (scheme : Scheme Node Ct) (o : NewWalletOptions Node) (primarySeed : Bytes)
    (e : ProducedData Ct) (k : RemainingData Node) (result : StoreResult) : CreatedData Node where
  identifier := o.identifier
  keyIndex := o.keyIndex
  passphrase := o.anyPassphrase
  primarySeed := primarySeed
  secret := e.secret
  primaryMnemonic := none
  encryptedPrimarySeed := if determineDataStorage o then e.encryptedPrimarySeed.map scheme.data else none
  encryptedSecret := if determineDataStorage o then e.encryptedSecret.map scheme.data else none
  backupPublicKey := k.backupPublicKey
  blocktrailPublicKeys := result.blocktrailPublicKeys
  segwit := result.segwit
  upgradeKeyIndex := result.upgradeKeyIndex
  useCashAddress := o.useCashAddress

def Scheme.backupInfo {Ct : Type} (scheme : Scheme Node Ct) (p : Platform Node) (e : ProducedData Ct)
    (backupSeed : Option Bytes) (blocktrailPublicKeys : List (Str × Str)) : Except JsError BackupInfo := do
  let encryptedPrimarySeed ← mnemonicOf scheme.mnemonic e.encryptedPrimarySeed
  let backupSeed ← mnemonicOf (fun seed => p.entropyToMnemonic (Hex.encode seed)) backupSeed
  let recoveryEncryptedSecret ← mnemonicOf scheme.mnemonic e.recoveryEncryptedSecret
  let encryptedSecret ← mnemonicOf scheme.mnemonic e.encryptedSecret
  pure ⟨scheme.version, encryptedPrimarySeed, backupSeed, recoveryEncryptedSecret, encryptedSecret, blocktrailPublicKeys⟩

/-- `_createNewWalletV2` and `_createNewWalletV3`, with what the server answers to the post. -/
def Scheme.createNewWallet {Ct : Type} (scheme : Scheme Node Ct) (p : Platform Node) (sdk : Sdk) (a : Answers) (r : Draws)
    (o : NewWalletOptions Node) (store : WalletPost → Except JsError StoreResult) : Except JsError (NewWallet Node) := do
  if o.primaryPrivateKey then throw ⟨"WalletInitError", "Can't specify; Primary PrivateKey"⟩
  let primarySeed := o.primarySeed.getD r.primarySeed.val
  let e ← scheme.produce r o primarySeed
  let k ← doRemainingWalletData p sdk.network r o primarySeed
  let post ← scheme.walletPost p sdk o e k
  let result ← store post
  let d := scheme.createdData o primarySeed e k result
  let w ← createdWallet p sdk scheme.version d
  let (unlocked, world) := call (unlock p a (createdUnlockOptions scheme.version d)) ⟨w, sdk, post.server⟩
  let _ ← unlocked
  let backupInfo ← scheme.backupInfo p e k.backupSeed result.blocktrailPublicKeys
  pure ⟨world, post, backupInfo⟩

def createNewWalletV2 (p : Platform Node) (sdk : Sdk) (a : Answers) (r : Draws) (o : NewWalletOptions Node)
    (store : WalletPost → Except JsError StoreResult) : Except JsError (NewWallet Node) :=
  (schemeV2 p).createNewWallet p sdk a r o store

def createNewWalletV3 (p : Platform Node) (sdk : Sdk) (a : Answers) (r : Draws) (o : NewWalletOptions Node)
    (store : WalletPost → Except JsError StoreResult) : Except JsError (NewWallet Node) :=
  (schemeV3 p).createNewWallet p sdk a r o store

end JsSdk
