import Blocktrail.Lib.Encoding
import Blocktrail.Lib.Throwing
import Blocktrail.Bitcoin.Paths

/-! # The wallet object

A `Wallet`, the part of the `APIClient` it writes to, and the copy of its data on the server.
A method is a program over the three: what it assigned before it threw stays assigned.
-/

open Text Throwing Bitcoin

namespace JsSdk

/-! ## Values -/

/-- A value that is a string or a `Buffer`. -/
inductive Data
  | text (s : Str)
  | buffer (b : Bytes)
deriving DecidableEq

/-- Whether `if (x)` takes its branch: the empty string does not, the empty `Buffer` does. -/
def truthy : Option Data → Bool
  | none => false
  | some (.text s) => s ≠ []
  | some (.buffer _) => true

/-- `new Buffer(x, 'base64')`: a `Buffer` is copied, `null` throws. -/
def bufferFromBase64 : Option Data → Except JsError Bytes
  | some (.text s) => .ok (Base64.decode s)
  | some (.buffer b) => .ok b
  | none => .error ⟨"TypeError", "must start with number, buffer, array or string"⟩

/-- `new Buffer(x)`. -/
def bufferFrom : Option Data → Except JsError Bytes
  | some (.text s) => .ok (utf8 s)
  | some (.buffer b) => .ok b
  | none => .error ⟨"TypeError", "must start with number, buffer, array or string"⟩

inductive WalletVersion
  | v1
  | v2
  | v3
  | other (text : Str)
deriving DecidableEq

def WalletVersion.toText : WalletVersion → Str
  | v1 => "v1"
  | v2 => "v2"
  | v3 => "v3"
  | other text => text

/-! ## What the wallet computes with -/

def defaultSaltLen : Nat := 10
def ivLen : Nat := 16
def defaultIterations : Nat := 35000
def subkeyIterations : Nat := 1

abbrev Salt := { b : Bytes // b.length = defaultSaltLen }
abbrev IV := { b : Bytes // b.length = ivLen }

/-- Keys, ciphers and mnemonics, and the order of texts on the host. -/
structure Platform (Node : Type) where
  hd : HDLib Node
  hashes : Hashes
  codec : AddressCodec
  collation : Collation
  /-- `CryptoJS.AES.decrypt(CryptoJS.format.OpenSSL.parse(ct), key).toString(Utf8)`; `none` throws. -/
  aesDecrypt : Option Data → Option Data → Option Str
  /-- `CryptoJS.AES.encrypt(pt, key).toString(CryptoJS.format.OpenSSL)`, with the salt drawn. -/
  aesEncrypt : Option Data → Data → Bytes → Except JsError Str
  /-- `Encryption.decrypt` past its assertions; `none` throws. -/
  gcmDecrypt : Bytes → Bytes → Option Bytes
  /-- `Encryption.encryptWithSaltAndIV` past its assertions. -/
  gcmEncrypt : Bytes → Bytes → Salt → IV → Nat → Bytes
  mnemonicToSeedHex : Str → Option Data → Except JsError Str
  /-- `bip39.entropyToMnemonic` of an entropy in hex. -/
  entropyToMnemonic : Str → Except JsError Str
  /-- `EncryptionMnemonic.encode`. -/
  encodeMnemonic : Bytes → Except JsError Str

variable {Node : Type}

namespace Encryption

def assertionError (message : Str) : JsError := ⟨"AssertionError", message⟩

/-- `Encryption.decrypt`: the ciphertext is a `Buffer`, the password must be one. -/
def decrypt (p : Platform Node) (ct : Bytes) : Option Data → Option Bytes
  | some (.buffer pw) => p.gcmDecrypt ct pw
  | _ => none

def encrypt (p : Platform Node) (pt pw : Option Data) (salt : Salt) (iv : IV) (iterations : Nat) :
    Except JsError Bytes :=
  match pt, pw with
  | some (.buffer pt), some (.buffer pw) => .ok (p.gcmEncrypt pt pw salt iv iterations)
  | some (.buffer _), _ => .error (assertionError "pw must be provided as a buffer")
  | _, _ => .error (assertionError "pt must be provided as a buffer")

end Encryption

/-! ## The objects -/

structure Wallet (Node : Type) where
  identifier : Str
  walletVersion : WalletVersion
  locked : Bool
  segwit : Bool
  useNewCashAddr : Bool
  network : Network
  primaryMnemonic : Option Str
  encryptedPrimarySeed : Option Data
  encryptedSecret : Option Data
  recoveryEncryptedSecret : Option Bytes
  secret : Option Data
  primarySeed : Option Bytes
  primaryPrivateKey : Option Node
  backupPrivateKey : Option Node
  backupPublicKey : Node
  blocktrailPublicKeys : Str → Option Node
  primaryPublicKeys : Str → Option Node
  keyIndex : Nat
  chain : Nat
  changeChain : Nat
  checksum : Str
  upgradeToKeyIndex : Option Nat

def CHAIN_BTC_DEFAULT : Nat := 0
def CHAIN_BTC_SEGWIT : Nat := 2
def CHAIN_BCC_DEFAULT : Nat := 1

/-- The wallet data the server holds. -/
structure ServerWallet where
  primaryMnemonic : Option Str
  encryptedPrimarySeed : Option Str
  encryptedSecret : Option Str
  recoverySecret : Option Str
  walletVersion : WalletVersion

/-- The data of an `updateWallet` call: `none` for a field it does not have. -/
structure WalletUpdate where
  primaryMnemonic : Option Str
  encryptedPrimarySeed : Option Str
  encryptedSecret : Option Str
  recoverySecret : Option Str
  walletVersion : Option WalletVersion

def ServerWallet.apply (s : ServerWallet) (u : WalletUpdate) : ServerWallet where
  primaryMnemonic := u.primaryMnemonic <|> s.primaryMnemonic
  encryptedPrimarySeed := u.encryptedPrimarySeed <|> s.encryptedPrimarySeed
  encryptedSecret := u.encryptedSecret <|> s.encryptedSecret
  recoverySecret := u.recoverySecret <|> s.recoverySecret
  walletVersion := u.walletVersion.getD s.walletVersion

/-- The fields of the `APIClient` that wallet methods read and write. -/
structure Sdk where
  bitcoinCash : Bool
  testnet : Bool
  primarySeed : Option Bytes

def Sdk.network (s : Sdk) : Network := networkOf s.bitcoinCash s.testnet

structure World (Node : Type) where
  wallet : Wallet Node
  sdk : Sdk
  server : ServerWallet

abbrev Method (Node : Type) (α : Type) := Prog JsError (World Node) α

def modifyWallet (f : Wallet Node → Wallet Node) : Method Node Unit :=
  modify fun s => { s with wallet := f s.wallet }

@[simp] theorem call_modifyWallet (f : Wallet Node → Wallet Node) (s : World Node) :
    call (modifyWallet f) s = (.ok (), { s with wallet := f s.wallet }) := rfl

theorem call_modifyWallet_bind {α : Type} {f : Wallet Node → Wallet Node} {k : Unit → Method Node α}
    {s t : World Node} (h : { s with wallet := f s.wallet } = t) :
    call (modifyWallet f >>= k) s = call (k ()) t := by
  subst h
  exact call_bind_ok rfl

/-- What the outside answers during one call: the server, and the random numbers drawn. -/
structure Answers where
  updateWallet : Except JsError Unit
  /-- The `blocktrail_public_keys` of the answer: key index and base58 key. -/
  upgradeKeyIndex : Except JsError (List (Str × Str))
  secret : Bytes
  recoverySecret : Bytes
  aesSalt : Bytes
  secretSalt : Salt
  secretIV : IV
  seedSalt : Salt
  seedIV : IV
  recoverySalt : Salt
  recoveryIV : IV

/-- `sdk.updateWallet(identifier, postData)`. -/
def sdkUpdateWallet (a : Answers) (u : WalletUpdate) : Method Node Unit :=
  match a.updateWallet with
  | .ok () => modify fun s => { s with server := s.server.apply u }
  | .error e => throw e

/-! ## The constructor -/

structure WalletArgs (Node : Type) where
  identifier : Str
  walletVersion : WalletVersion
  primaryMnemonic : Option Str
  encryptedPrimarySeed : Option Data
  encryptedSecret : Option Data
  primaryPublicKeys : Str → Option Node
  backupPublicKey : Node
  blocktrailPublicKeys : Str → Option Node
  keyIndex : Nat
  segwit : Bool
  checksum : Str
  upgradeToKeyIndex : Option Nat
  useNewCashAddr : Bool

/-- `new Wallet(sdk, ..)`, with `testnet` the one of the `sdk`, as both callers pass it. -/
def newWallet (sdk : Sdk) (args : WalletArgs Node) : Except JsError (Wallet Node) :=
  if args.segwit ∧ sdk.bitcoinCash then .error ⟨"AssertionError", "false == true"⟩
  else .ok {
    identifier := args.identifier
    walletVersion := args.walletVersion
    locked := true
    segwit := args.segwit
    useNewCashAddr := args.useNewCashAddr
    network := networkOf sdk.bitcoinCash sdk.testnet
    primaryMnemonic := args.primaryMnemonic
    encryptedPrimarySeed := args.encryptedPrimarySeed
    encryptedSecret := args.encryptedSecret
    recoveryEncryptedSecret := none
    secret := none
    primarySeed := none
    primaryPrivateKey := none
    backupPrivateKey := none
    backupPublicKey := args.backupPublicKey
    blocktrailPublicKeys := args.blocktrailPublicKeys
    primaryPublicKeys := args.primaryPublicKeys
    keyIndex := args.keyIndex
    chain := if sdk.bitcoinCash then CHAIN_BCC_DEFAULT else CHAIN_BTC_DEFAULT
    changeChain :=
      if sdk.bitcoinCash then CHAIN_BCC_DEFAULT
      else if args.segwit then CHAIN_BTC_SEGWIT
      else CHAIN_BTC_DEFAULT
    checksum := args.checksum
    upgradeToKeyIndex := args.upgradeToKeyIndex }

end JsSdk
