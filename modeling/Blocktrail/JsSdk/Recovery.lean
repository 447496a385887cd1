import Blocktrail.Lib.Blanks
import Blocktrail.JsSdk.EncryptionMnemonic
import Blocktrail.JsSdk.Sweeper
import Blocktrail.JsSdk.State

/-! # The recovery sweeper: from a backup sheet to the keys

The constructor of `WalletSweeper` checks what was typed in, cleans it up, decrypts the seed, and makes the roots.
-/

open Text Throwing Bitcoin

namespace JsSdk

variable {Node : Type}

/-! ## What is typed in -/

/-- The data of a backup sheet; what is `none` is not there. -/
structure BackupData where
  walletVersion : Option Nat
  primaryMnemonic : Option Str
  /-- `some none` is `false`. -/
  backupMnemonic : Option (Option Str)
  primaryPassphrase : Option Str
  encryptedPrimaryMnemonic : Option Str
  passwordEncryptedSecretMnemonic : Option Str
  password : Option Str
  encryptedRecoverySecretMnemonic : Option Str
  recoverySecretDecryptionKey : Option Str
  /-- Key index and base58 key; `none` is no array. -/
  blocktrailKeys : Option (List (Str × Str))
  backupPublicKey : Str

inductive NetworkOption
  | undefined
  | name (network : Str)
  | object (network : Network)

/-- `getBitcoinNetwork(network, testnet)`. -/
def getBitcoinNetwork (network : Str) (testnet : Bool) : Except JsError Network :=
  let lower := lowerAscii network
  if lower = "btc".toList ∨ lower = "bitcoin".toList then .ok (if testnet then .testnet else .bitcoin)
  else if lower = "tbtc".toList ∨ lower = "bitcoin-testnet".toList then .ok .testnet
  else .error ⟨"Error", "Unknown network " ++ network⟩

def sweeperNetwork (network : NetworkOption) (testnet : Bool) : Except JsError Network :=
  match network with
  | .object network => .ok network
  | .name network => getBitcoinNetwork network testnet
  | .undefined => getBitcoinNetwork "btc" testnet

/-! ## Checks -/

/-- `s.trim()`, then `\r\n`, `\n` and every run of white space replaced by a blank. -/
def cleanUp (s : Str) : Str :=
  Blanks.collapse isSpace ' ' (Blanks.replaceOne '\n' ' ' (Blanks.replacePair '\r' '\n' ' ' (trim s)))

/-- Which secret of the sheet is decrypted, and with what. -/
inductive SecretSource
  | password (passwordEncryptedSecretMnemonic password : Str)
  | recovery (encryptedRecoverySecretMnemonic recoverySecretDecryptionKey : Str)

def SecretSource.mnemonic : SecretSource → Str
  | password mnemonic _ => mnemonic
  | recovery mnemonic _ => mnemonic

/-- Backup data that passed the checks. -/
inductive CheckedData
  | v1 (primaryMnemonic primaryPassphrase backupMnemonic : Str)
  | v2 (encryptedPrimaryMnemonic backupMnemonic : Str) (source : SecretSource)
  | v3 (encryptedPrimaryMnemonic backupMnemonic : Str) (source : SecretSource)

def missing (what : Str) : JsError := ⟨"Error", "missing " ++ what⟩

/-- What is undefined or empty is missing. -/
def required (x : Option Str) (what : Str) : Except JsError Str :=
  match x with
  | some (c :: s) => .ok (c :: s)
  | _ => .error (missing what)

def checkV1 (d : BackupData) : Except JsError CheckedData := do
  let primaryMnemonic ← required d.primaryMnemonic "primary mnemonic for version 1 wallet"
  let backupMnemonic ← required (d.backupMnemonic.bind id) "backup mnemonic for version 1 wallet"
  match d.primaryPassphrase with
  | none => throw (missing "primary passphrase for version 1 wallet")
  | some primaryPassphrase => pure (.v1 (cleanUp primaryMnemonic) primaryPassphrase (cleanUp backupMnemonic))

/-- A backup mnemonic that is `false` becomes the empty text. -/
def checkBackupMnemonic : Option (Option Str) → Except JsError Str
  | some none => .ok (cleanUp [])
  | backupMnemonic => cleanUp <$> required (backupMnemonic.bind id) "backup seed for version 2 wallet"

/-- Any password, the empty one too, rules out the recovery secret. -/
def checkSource (d : BackupData) : Except JsError SecretSource :=
  match d.password with
  | some password => do
    let mnemonic ← required d.passwordEncryptedSecretMnemonic "password encrypted secret for version 2 wallet"
    pure (.password (cleanUp mnemonic) password)
  | none => do
    let mnemonic ← required d.encryptedRecoverySecretMnemonic
      "encrypted recovery secret for version 2 wallet (recovery without password)"
    let key ← required d.recoverySecretDecryptionKey
      "recovery secret decryption key for version 2 wallet (recovery without password)"
    pure (.recovery (cleanUp mnemonic) (cleanUp key))

/-- Versions 2 and 3 make the same checks, with the same messages. -/
def checkEncrypted (make : Str → Str → SecretSource → CheckedData) (d : BackupData) : Except JsError CheckedData := do
  let encryptedPrimaryMnemonic ← required d.encryptedPrimaryMnemonic "encrypted primary seed for version 2 wallet"
  -- The mnemonics are cleaned up after every check.
  let backupMnemonic ← checkBackupMnemonic d.backupMnemonic
  let source ← checkSource d
  pure (make (cleanUp encryptedPrimaryMnemonic) backupMnemonic source)

/-- `backupData.walletVersion || 2`. -/
def BackupData.version (d : BackupData) : Nat := if d.walletVersion.getD 0 = 0 then 2 else d.walletVersion.getD 0

def checkBackupData (d : BackupData) : Except JsError (List (Str × Str) × CheckedData) :=
  match d.blocktrailKeys with
  | none => .error ⟨"Error", "blocktrail pub keys are required (must be type Array)"⟩
  | some keys =>
    match d.version with
    | 1 => (keys, ·) <$> checkV1 d
    | 2 => (keys, ·) <$> checkEncrypted .v2 d
    | 3 => (keys, ·) <$> checkEncrypted .v3 d
    | version => .error ⟨"Error", "Wrong version [" ++ dec version ++ "]"⟩

/-! ## Seeds -/

variable (p : Platform Node) (wordlist : Crypt.Bip39.Wordlist)

def undecryptable (source : SecretSource) : JsError :=
  match source with
  | .password _ _ => ⟨"Error", "Could not decrypt secret with password"⟩
  | .recovery _ _ => ⟨"Error", "Could not decrypt secret with decryption key"⟩

def malformedUtf8 : JsError := ⟨"Error", "Malformed UTF-8 data"⟩

/-- `CryptoJS.AES.decrypt(ct, key).toString(CryptoJS.enc.Utf8)`. -/
def decryptText (ct key : Str) : Except JsError Str :=
  match p.aesDecrypt (some (.text ct)) (some (.text key)) with
  | some t => .ok t
  | none => .error malformedUtf8

def corrupt : JsError := ⟨"CORRUPT", "gcm: tag doesn't match"⟩

/-- `Encryption.decrypt(ct, pw)`. -/
def decryptBuffer (ct pw : Bytes) : Except JsError Bytes :=
  match p.gcmDecrypt ct pw with
  | some pt => .ok pt
  | none => .error corrupt

/-- `bip39.mnemonicToEntropy(mnemonic)`, in hex. -/
def mnemonicToEntropy (mnemonic : Str) : Except JsError Str :=
  EncryptionMnemonic.mnemonicToEntropy p.hashes.sha256 wordlist mnemonic

/-- `blocktrail.convert(bip39.mnemonicToEntropy(mnemonic), 'hex', 'base64')`. -/
def mnemonicToBase64 (mnemonic : Str) : Except JsError Str := do
  let entropy ← mnemonicToEntropy p wordlist mnemonic
  pure (Base64.encode (Hex.decode entropy))

def mnemonicToSeed (mnemonic password : Str) : Except JsError Bytes :=
  Hex.decode <$> p.mnemonicToSeedHex mnemonic (some (.text password))

/-- The backup seed, where the sheet has one. -/
def backupSeedOf (backupMnemonic : Str) : Except JsError (Option Bytes) :=
  if backupMnemonic = [] then .ok none
  else (some ∘ Hex.decode) <$> mnemonicToEntropy p wordlist backupMnemonic

def SecretSource.keyText : SecretSource → Str
  | password _ pw => pw
  | recovery _ key => key

/-- The decryption key is in hex. -/
def SecretSource.keyBuffer : SecretSource → Bytes
  | password _ pw => utf8 pw
  | recovery _ key => Hex.decode key

def primarySeedV2 (encryptedPrimaryMnemonic : Str) (source : SecretSource) : Except JsError Bytes := do
  let encryptedPrimary ← mnemonicToBase64 p wordlist encryptedPrimaryMnemonic
  let encryptedSecret ← mnemonicToBase64 p wordlist source.mnemonic
  let secret ← decryptText p encryptedSecret source.keyText
  if secret = [] then throw (undecryptable source)
  let seed ← decryptText p encryptedPrimary secret
  pure (Base64.decode seed)

/-- A decrypted secret is a `Buffer`, which is never false. -/
def primarySeedV3 (encryptedPrimaryMnemonic : Str) (source : SecretSource) : Except JsError Bytes := do
  let encryptedPrimary ← EncryptionMnemonic.decode p.hashes.sha256 wordlist encryptedPrimaryMnemonic
  let encryptedSecret ← EncryptionMnemonic.decode p.hashes.sha256 wordlist source.mnemonic
  let secret ← decryptBuffer p encryptedSecret source.keyBuffer
  decryptBuffer p encryptedPrimary secret

/-- The primary and the backup seed. -/
def seedsOf : CheckedData → Except JsError (Bytes × Option Bytes)
  | .v1 primaryMnemonic primaryPassphrase backupMnemonic => do
    let primarySeed ← mnemonicToSeed p primaryMnemonic primaryPassphrase
    let backupSeed ← mnemonicToSeed p backupMnemonic []
    pure (primarySeed, some backupSeed)
  | .v2 encryptedPrimaryMnemonic backupMnemonic source => do
    let primarySeed ← primarySeedV2 p wordlist encryptedPrimaryMnemonic source
    let backupSeed ← backupSeedOf p wordlist backupMnemonic
    pure (primarySeed, backupSeed)
  | .v3 encryptedPrimaryMnemonic backupMnemonic source => do
    let primarySeed ← primarySeedV3 p wordlist encryptedPrimaryMnemonic source
    let backupSeed ← backupSeedOf p wordlist backupMnemonic
    pure (primarySeed, backupSeed)

/-! ## Keys -/

/-- `self.blocktrailPublicKeys[keyIndex] = bitcoin.HDNode.fromBase58(pubkey, self.network)`, of every key. -/
def readBlocktrailKeys (network : Network) (keys : List (Str × Str)) : Except JsError (Assoc.Object Str Node) :=
  keys.foldlM (fun o key => do
    let node ← p.hd.fromBase58 key.2 network
    pure (o.set key.1 node)) .empty

/-- The public backup key, and the private one where there is a seed for it. -/
def backupKeys (network : Network) (backupPublicKey : Str) : Option Bytes → Except JsError (Node × Option Node)
  | some backupSeed => do
    let backupPrivateKey ← p.hd.fromSeedBuffer backupSeed network
    pure (p.hd.neutered backupPrivateKey, some backupPrivateKey)
  | none => do
    let backupPublicKey ← p.hd.fromBase58 backupPublicKey network
    pure (backupPublicKey, none)

/-- `new WalletSweeper(backupData, .., {network, testnet})`: the sweeper and `backupPrivateKey`. -/
def newWalletSweeper (d : BackupData) (network : NetworkOption) (testnet : Bool) :
    Except JsError (Sweeper Node × Option Node) := do
  let network ← sweeperNetwork network testnet
  let (keys, checked) ← checkBackupData d
  let blocktrailPublicKeys ← readBlocktrailKeys p network keys
  let (primarySeed, backupSeed) ← seedsOf p wordlist checked
  let primaryPrivateKey ← p.hd.fromSeedBuffer primarySeed network
  let (backupPublicKey, backupPrivateKey) ← backupKeys p network d.backupPublicKey backupSeed
  pure (⟨primaryPrivateKey, backupPublicKey, blocktrailPublicKeys, network⟩, backupPrivateKey)

end JsSdk
