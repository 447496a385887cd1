import Blocktrail.JsSdk.Unlock

/-! # How wallets are made

`initWallet` reads a wallet from the server. `createNewWallet` makes the keys, and ends in the same
way for every version.
-/

open Text Throwing Bitcoin

namespace JsSdk

variable {Node : Type}

/-- The keys of an answer: key index and base58 key. -/
def readKeys (p : Platform Node) (network : Network) : List (Str × Str) → Except JsError (Str → Option Node)
  | [] => .ok fun _ => none
  | (keyIndex, base58) :: rest => do
    let key ← p.hd.fromBase58 base58 network
    let keys ← readKeys p network rest
    pure (Function.update keys keyIndex (some key))

/-! ## From the server -/

structure ServerResult where
  walletVersion : WalletVersion
  keyIndex : Nat
  primaryMnemonic : Option Str
  encryptedPrimarySeed : Option Str
  encryptedSecret : Option Str
  backupPublicKey : Str
  blocktrailPublicKeys : List (Str × Str)
  primaryPublicKeys : List (Str × Str)
  segwit : Bool
  checksum : Str
  upgradeKeyIndex : Option Nat

structure InitOptions where
  identifier : Str
  keyIndex : Option Nat
  checkBackupKey : Option Str
  useCashAddress : Bool

/-- `initWallet`, up to the unlock that follows unless `readOnly` is set. -/
def initWallet (p : Platform Node) (sdk : Sdk) (options : InitOptions) (result : ServerResult) :
    Except JsError (Wallet Node) :=
  if options.identifier = [] then .error ⟨"WalletInitError", "Identifier is required"⟩
  else if options.checkBackupKey.getD [] ≠ [] ∧ options.checkBackupKey ≠ some result.backupPublicKey then
    .error ⟨"Error", "Backup key returned from server didn't match our own copy"⟩
  else do
    let backupPublicKey ← p.hd.fromBase58 result.backupPublicKey sdk.network
    let blocktrailPublicKeys ← readKeys p sdk.network result.blocktrailPublicKeys
    let primaryPublicKeys ← readKeys p sdk.network result.primaryPublicKeys
    newWallet sdk {
      identifier := options.identifier
      walletVersion := result.walletVersion
      primaryMnemonic := result.primaryMnemonic
      encryptedPrimarySeed := result.encryptedPrimarySeed.map .text
      encryptedSecret := result.encryptedSecret.map .text
      primaryPublicKeys := primaryPublicKeys
      backupPublicKey := backupPublicKey
      blocktrailPublicKeys := blocktrailPublicKeys
      -- `options.keyIndex || result.key_index`
      keyIndex := if options.keyIndex.getD 0 = 0 then result.keyIndex else options.keyIndex.getD 0
      segwit := result.segwit
      checksum := result.checksum
      upgradeToKeyIndex := result.upgradeKeyIndex
      useNewCashAddr := options.useCashAddress }

/-! ## A new wallet -/

/-- What `createNewWallet` has gathered once the server has stored the wallet. -/
structure CreatedData (Node : Type) where
  identifier : Str
  keyIndex : Nat
  passphrase : Option Data
  primarySeed : Bytes
  secret : Option Data
  primaryMnemonic : Option Str
  encryptedPrimarySeed : Option Data
  encryptedSecret : Option Data
  backupPublicKey : Node
  blocktrailPublicKeys : List (Str × Str)
  segwit : Bool
  upgradeKeyIndex : Option Nat
  useCashAddress : Bool

/-- The object literal `{keyIndex: primaryPublicKey}`. -/
def createdPublicKeys (primaryPublicKey : Node) (key : Str) : Option Node :=
  if key = "keyIndex".toList then some primaryPublicKey else none

/-- The end of `_createNewWalletV1`, `_createNewWalletV2` and `_createNewWalletV3`. -/
def createdWallet (p : Platform Node) (sdk : Sdk) (version : WalletVersion) (d : CreatedData Node) :
    Except JsError (Wallet Node) := do
  let primaryPrivateKey ← p.hd.fromSeedBuffer d.primarySeed sdk.network
  let child ← p.hd.deriveHardened primaryPrivateKey d.keyIndex
  let blocktrailPublicKeys ← readKeys p sdk.network d.blocktrailPublicKeys
  newWallet sdk {
    identifier := d.identifier
    walletVersion := version
    primaryMnemonic := if version = .v1 then d.primaryMnemonic else none
    encryptedPrimarySeed := if version = .v1 then none else d.encryptedPrimarySeed
    encryptedSecret := if version = .v1 then none else d.encryptedSecret
    primaryPublicKeys := createdPublicKeys (p.hd.neutered child)
    backupPublicKey := d.backupPublicKey
    blocktrailPublicKeys := blocktrailPublicKeys
    keyIndex := d.keyIndex
    segwit := d.segwit
    checksum := p.hd.getAddress primaryPrivateKey
    upgradeToKeyIndex := d.upgradeKeyIndex
    useNewCashAddr := d.useCashAddress }

/-- The unlock that follows. Version 1 passes an explicit `null` for the mnemonic. -/
def createdUnlockOptions (version : WalletVersion) (d : CreatedData Node) : UnlockOptions where
  passphrase := d.passphrase
  password := none
  secret := if version = .v1 then none else d.secret
  primarySeed := some d.primarySeed
  primaryPrivateKey := false
  primaryMnemonic := if version = .v1 then some [] else none
  encryptedPrimarySeed := none
  encryptedSecret := none

/-! ## A constructed wallet -/

/-- What a constructed wallet has of its arguments; it holds no key. -/
structure Fresh (sdk : Sdk) (args : WalletArgs Node) (w : Wallet Node) : Prop where
  network : w.network = sdk.network
  walletVersion : w.walletVersion = args.walletVersion
  primaryMnemonic : w.primaryMnemonic = args.primaryMnemonic
  encryptedPrimarySeed : w.encryptedPrimarySeed = args.encryptedPrimarySeed
  encryptedSecret : w.encryptedSecret = args.encryptedSecret
  primaryPublicKeys : w.primaryPublicKeys = args.primaryPublicKeys
  backupPublicKey : w.backupPublicKey = args.backupPublicKey
  blocktrailPublicKeys : w.blocktrailPublicKeys = args.blocktrailPublicKeys
  checksum : w.checksum = args.checksum
  locked : w.locked = true
  secret : w.secret = none
  primarySeed : w.primarySeed = none
  primaryPrivateKey : w.primaryPrivateKey = none

theorem newWallet_fresh {sdk : Sdk} {args : WalletArgs Node} {w : Wallet Node} (h : newWallet sdk args = .ok w) :
    Fresh sdk args w := by
  unfold newWallet at h
  split at h <;> cases h
  exact ⟨rfl, rfl, rfl, rfl, rfl, rfl, rfl, rfl, rfl, rfl, rfl, rfl, rfl⟩

theorem initWallet_fresh {p : Platform Node} {sdk : Sdk} {options : InitOptions} {result : ServerResult}
    {w : Wallet Node} (h : initWallet p sdk options result = .ok w) :
    ∃ args, Fresh sdk args w ∧ args.walletVersion = result.walletVersion ∧
      args.primaryMnemonic = result.primaryMnemonic ∧
      args.encryptedPrimarySeed = result.encryptedPrimarySeed.map .text ∧
      args.encryptedSecret = result.encryptedSecret.map .text ∧ args.checksum = result.checksum := by
  unfold initWallet at h
  split at h
  · cases h
  split at h
  · cases h
  obtain ⟨backup, -, h⟩ := exists_of_bind_ok h
  obtain ⟨blocktrail, -, h⟩ := exists_of_bind_ok h
  obtain ⟨primary, -, h⟩ := exists_of_bind_ok h
  exact ⟨_, newWallet_fresh h, rfl, rfl, rfl, rfl, rfl⟩

theorem createdWallet_fresh {p : Platform Node} {sdk : Sdk} {version : WalletVersion} {d : CreatedData Node}
    {w : Wallet Node} {root : Node} (h : createdWallet p sdk version d = .ok w)
    (hr : p.hd.fromSeedBuffer d.primarySeed sdk.network = .ok root) :
    ∃ args, Fresh sdk args w ∧ args.walletVersion = version ∧ args.checksum = p.hd.getAddress root ∧
      ∃ key, args.primaryPublicKeys = createdPublicKeys key := by
  unfold createdWallet at h
  obtain ⟨root', hr', h⟩ := exists_of_bind_ok h
  cases hr.symm.trans hr'
  obtain ⟨child, -, h⟩ := exists_of_bind_ok h
  obtain ⟨blocktrail, -, h⟩ := exists_of_bind_ok h
  exact ⟨_, newWallet_fresh h, rfl, rfl, p.hd.neutered child, rfl⟩

end JsSdk
