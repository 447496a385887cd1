import Blocktrail.Bitcoin.Sample
import Blocktrail.JsSdk.Construct
import Blocktrail.JsSdk.Upgrade

/-! # A platform to evaluate with

The ciphers put the key before the text, and refuse a text that does not start with the key.
-/

open Text Bitcoin

namespace JsSdk

def asciiBytes (s : Str) : Bytes := s.map fun c => UInt8.ofNat c.toNat

def samplePlatform : Platform SampleNode where
  hd := sampleHD
  hashes := sampleHashes
  codec := sampleCodec
  collation := .on id
  aesDecrypt ct key :=
    match ct, key with
    | some (.text ct), some (.text key) => if key.isPrefixOf ct then some (ct.drop key.length) else none
    | _, _ => none
  aesEncrypt pt key _ :=
    match pt, key with
    | some (.text pt), .text key => .ok (key ++ pt)
    | _, _ => .error ⟨"Error", "Malformed UTF-8 data"⟩
  gcmDecrypt ct pw := if pw.isPrefixOf ct then some (ct.drop pw.length) else none
  gcmEncrypt pt pw _ _ _ := pw ++ pt
  mnemonicToSeedHex mnemonic passphrase :=
    match passphrase with
    | some (.text passphrase) => .ok (Hex.encode (pad32 (asciiBytes (passphrase ++ mnemonic))))
    | _ => .error ⟨"TypeError", "Invalid passphrase"⟩
  entropyToMnemonic entropy := .ok entropy
  encodeMnemonic b := .ok (Hex.encode b)

theorem samplePlatform_gcm (pt pw : Bytes) (salt : Salt) (iv : IV) (iterations : Nat) :
    samplePlatform.gcmDecrypt (samplePlatform.gcmEncrypt pt pw salt iv iterations) pw = some pt := by
  simp [samplePlatform]

theorem samplePlatform_aes (s : Str) (key : Data) (salt : Bytes) (ct : Str)
    (h : samplePlatform.aesEncrypt (some (.text s)) key salt = .ok ct) :
    samplePlatform.aesDecrypt (some (.text ct)) (some key) = some s := by
  rcases key with k | b
  · cases h
    simp [samplePlatform]
  · cases h

def sampleAnswers : Answers where
  updateWallet := .ok ()
  upgradeKeyIndex := .ok []
  secret := [7]
  recoverySecret := [9]
  aesSalt := [1]
  secretSalt := ⟨List.replicate 10 1, rfl⟩
  secretIV := ⟨List.replicate 16 2, rfl⟩
  seedSalt := ⟨List.replicate 10 3, rfl⟩
  seedIV := ⟨List.replicate 16 4, rfl⟩
  recoverySalt := ⟨List.replicate 10 5, rfl⟩
  recoveryIV := ⟨List.replicate 16 6, rfl⟩

/-- The options with a passphrase and nothing else. -/
def passphraseOptions (passphrase : Data) : UnlockOptions where
  passphrase := some passphrase
  password := none
  secret := none
  primarySeed := none
  primaryPrivateKey := false
  primaryMnemonic := none
  encryptedPrimarySeed := none
  encryptedSecret := none

def sampleSdk : Sdk where
  bitcoinCash := false
  testnet := false
  primarySeed := none

/-- The root of the seed that the mnemonic `abandon` has under a passphrase. -/
def sampleRoot (passphrase : Str) : SampleNode :=
  ⟨pad32 (asciiBytes (passphrase ++ "abandon".toList)), [], true⟩

/-- A version 1 wallet with the mnemonic `abandon` and the passphrase `right`. -/
def sampleArgs : WalletArgs SampleNode where
  identifier := "wallet"
  walletVersion := .v1
  primaryMnemonic := some "abandon"
  encryptedPrimarySeed := none
  encryptedSecret := none
  primaryPublicKeys := fun _ => none
  backupPublicKey := ⟨[2], [], false⟩
  blocktrailPublicKeys := fun k => if k = dec 0 then some ⟨[3], [], false⟩ else none
  keyIndex := 0
  segwit := false
  checksum := sampleHD.getAddress (sampleRoot "right")
  upgradeToKeyIndex := none
  useNewCashAddr := false

def sampleWallet : Wallet SampleNode := (newWallet sampleSdk sampleArgs).toOption.get rfl

/-- A version 2 wallet with the same seed, the secret `sec` and the password `right`. -/
def sampleArgsV2 : WalletArgs SampleNode :=
  { sampleArgs with
    walletVersion := .v2
    primaryMnemonic := none
    encryptedPrimarySeed := some (.text ("sec".toList ++ Base64.encode (sampleRoot "right").seed))
    encryptedSecret := some (.text "rightsec") }

def sampleWalletV2 : Wallet SampleNode := (newWallet sampleSdk sampleArgsV2).toOption.get rfl

def sampleServerV2 : ServerWallet where
  primaryMnemonic := none
  encryptedPrimarySeed := some ("sec".toList ++ Base64.encode (sampleRoot "right").seed)
  encryptedSecret := some "rightsec"
  recoverySecret := none
  walletVersion := .v2

def sampleServer : ServerWallet where
  primaryMnemonic := some "abandon"
  encryptedPrimarySeed := none
  encryptedSecret := none
  recoverySecret := none
  walletVersion := .v1

def sampleWorld : World SampleNode := ⟨sampleWallet, sampleSdk, sampleServer⟩

/-- The same wallet as `createNewWallet` makes it. -/
def sampleCreatedData : CreatedData SampleNode where
  identifier := "wallet"
  keyIndex := 0
  passphrase := some (.text "right")
  primarySeed := (sampleRoot "right").seed
  secret := none
  primaryMnemonic := some "abandon"
  encryptedPrimarySeed := none
  encryptedSecret := none
  backupPublicKey := ⟨[2], [], false⟩
  blocktrailPublicKeys := [(dec 0, [Char.ofNat 3])]
  segwit := false
  upgradeKeyIndex := none
  useCashAddress := false

def sampleCreated : Wallet SampleNode := (createdWallet samplePlatform sampleSdk .v1 sampleCreatedData).toOption.get rfl

def sampleCreatedWorld : World SampleNode :=
  Throwing.after (unlock samplePlatform sampleAnswers (createdUnlockOptions .v1 sampleCreatedData))
    ⟨sampleCreated, sampleSdk, sampleServer⟩

end JsSdk
