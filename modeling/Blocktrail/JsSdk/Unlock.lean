import Blocktrail.JsSdk.State

/-! # Unlock, lock and the key index upgrade -/

open Text Throwing Bitcoin

namespace JsSdk

variable {Node : Type}

/-- The options of `unlock`. A field that is `none` is undefined. -/
structure UnlockOptions where
  passphrase : Option Data
  password : Option Data
  secret : Option Data
  primarySeed : Option Bytes
  /-- Whether the deprecated `primaryPrivateKey` is there. -/
  primaryPrivateKey : Bool
  primaryMnemonic : Option Str
  encryptedPrimarySeed : Option (Option Data)
  encryptedSecret : Option (Option Data)

/-- `options.passphrase || options.password`. -/
def UnlockOptions.anyPassword (o : UnlockOptions) : Option Data :=
  if truthy o.passphrase then o.passphrase else o.password

/-- Both a passphrase and a password are given. -/
def UnlockOptions.conflict (o : UnlockOptions) : Bool := truthy o.passphrase && truthy o.password

def conflictError : JsError := ⟨"WalletCreateError", "Can't specify passphrase and password"⟩
def secretError : JsError := ⟨"WalletDecryptError", "Failed to decrypt secret"⟩
def seedError : JsError := ⟨"WalletDecryptError", "Failed to decrypt primarySeed"⟩

/-! ## Version 1 -/

/-- `sdk.resolvePrimaryPrivateKeyFromOptions(options)`, the seed and the key it adds to the options. -/
def resolvePrimaryPrivateKeyFromOptions (p : Platform Node) (o : UnlockOptions) (primaryMnemonic : Str) :
    Method Node (Bytes × Node) :=
  if o.conflict then throw conflictError
  else if primaryMnemonic ≠ [] ∧ o.primarySeed.isSome then
    throw ⟨"WalletInitError", "Can only specify one of; Primary Mnemonic or Primary Seed"⟩
  else if o.primaryPrivateKey then throw ⟨"WalletInitError", "Can't specify; Primary PrivateKey"⟩
  else if primaryMnemonic = [] ∧ o.primarySeed.isNone then
    throw ⟨"WalletInitError", "Need to specify at least one of; Primary Mnemonic or Primary Seed"⟩
  else
    match o.primarySeed with
    | some seed => do
      modify fun s => { s with sdk := { s.sdk with primarySeed := some seed } }
      let key ← orRaise (p.hd.fromSeedBuffer seed (← get).sdk.network)
      pure (seed, key)
    | none =>
      if !truthy o.anyPassword then
        throw ⟨"WalletInitError", "Can't init wallet with Primary Mnemonic without a passphrase"⟩
      else do
        let seedHex ← orRaise (p.mnemonicToSeedHex primaryMnemonic o.anyPassword)
        let seed := Hex.decode seedHex
        let key ← orRaise (p.hd.fromSeedBuffer seed (← get).sdk.network)
        pure (seed, key)

def unlockV1 (p : Platform Node) (o : UnlockOptions) : Method Node Node := do
  let w := (← get).wallet
  let primaryMnemonic := (o.primaryMnemonic <|> w.primaryMnemonic).getD []
  let r ← resolvePrimaryPrivateKeyFromOptions p o primaryMnemonic
  modifyWallet fun w => { w with primarySeed := some r.1 }
  pure r.2

/-! ## Version 2 and version 3 -/

/-- `bitcoin.HDNode.fromSeedBuffer(self.primarySeed, self.network)`. -/
def rootOfSeed (p : Platform Node) : Method Node Node := do
  let w := (← get).wallet
  match w.primarySeed with
  | some seed => orRaise (p.hd.fromSeedBuffer seed w.network)
  | none => throw ⟨"TfTypeError", "Expected Buffer"⟩

def decryptPrimarySeedV2 (p : Platform Node) (encryptedPrimarySeed : Option Data) : Method Node Unit := do
  let w := (← get).wallet
  match p.aesDecrypt encryptedPrimarySeed w.secret with
  | none => throw seedError
  | some t => do
    modifyWallet fun w => { w with primarySeed := some (Base64.decode t) }
    if Base64.decode t = [] then throw seedError else pure ()

def decryptSecretV2 (p : Platform Node) (encryptedSecret passphrase : Option Data) : Method Node Unit :=
  match p.aesDecrypt encryptedSecret passphrase with
  | none => throw secretError
  | some t => do
    modifyWallet fun w => { w with secret := some (.text t) }
    if t = [] then throw secretError else pure ()

/-- `if (options.secret) self.secret = options.secret`. -/
def takeSecret (o : UnlockOptions) : Method Node Unit :=
  modifyWallet fun w => { w with secret := if truthy o.secret then o.secret else w.secret }

/-- `sdk.promisedDecrypt(ct, self.secret)` and what follows it. -/
def decryptPrimarySeedV3 (p : Platform Node) (encryptedPrimarySeed : Option Data) : Method Node Unit := do
  let w := (← get).wallet
  let ct ← orRaise (bufferFromBase64 encryptedPrimarySeed)
  match Encryption.decrypt p ct w.secret with
  | none => throw seedError
  | some seed => modifyWallet fun w => { w with primarySeed := some seed }

def decryptSecretV3 (p : Platform Node) (encryptedSecret passphrase : Option Data) : Method Node Unit := do
  let ct ← orRaise (bufferFromBase64 encryptedSecret)
  let pw ← orRaise (bufferFrom passphrase)
  match Encryption.decrypt p ct (some (.buffer pw)) with
  | none => throw secretError
  | some secret => modifyWallet fun w => { w with secret := some (.buffer secret) }

/-- What `unlockV2` and `unlockV3` share: they differ in the ciphers, and in the class of one error. -/
def unlockEncrypted (p : Platform Node) (deprecatedError : Str)
    (decryptSecret : Option Data → Option Data → Method Node Unit)
    (decryptPrimarySeed : Option Data → Method Node Unit) (o : UnlockOptions) : Method Node Node := do
  let w := (← get).wallet
  let encryptedPrimarySeed := o.encryptedPrimarySeed.getD w.encryptedPrimarySeed
  let encryptedSecret := o.encryptedSecret.getD w.encryptedSecret
  takeSecret o
  if o.primaryPrivateKey then
    throw ⟨deprecatedError, "specifying primaryPrivateKey has been deprecated"⟩
  else
    match o.primarySeed with
    | some seed => do
      modifyWallet fun w => { w with primarySeed := some seed }
      rootOfSeed p
    | none =>
      if truthy o.secret then do
        decryptPrimarySeed encryptedPrimarySeed
        rootOfSeed p
      else if o.conflict then throw conflictError
      else do
        decryptSecret encryptedSecret o.anyPassword
        decryptPrimarySeed encryptedPrimarySeed
        rootOfSeed p

def unlockV2 (p : Platform Node) (o : UnlockOptions) : Method Node Node :=
  unlockEncrypted p "WalletDecryptError" (decryptSecretV2 p) (decryptPrimarySeedV2 p) o

def unlockV3 (p : Platform Node) (o : UnlockOptions) : Method Node Node :=
  unlockEncrypted p "WalletInitError" (decryptSecretV3 p) (decryptPrimarySeedV3 p) o

/-! ## The key index -/

def setBlocktrailPublicKey (p : Platform Node) (entry : Str × Str) : Method Node Unit := do
  let w := (← get).wallet
  let key ← orRaise (p.hd.fromBase58 entry.2 w.network)
  modifyWallet fun w =>
    { w with blocktrailPublicKeys := Function.update w.blocktrailPublicKeys entry.1 (some key) }

def upgradeKeyIndex (p : Platform Node) (a : Answers) (keyIndex : Nat) : Method Node Bool := do
  let w := (← get).wallet
  if w.locked then throw ⟨"WalletLockedError", "Wallet needs to be unlocked to upgrade key index"⟩
  else
    match w.primaryPrivateKey with
    | none => throw ⟨"TypeError", "Cannot read property 'deriveHardened' of null"⟩
    | some root => do
      let child ← orRaise (p.hd.deriveHardened root keyIndex)
      let primaryPublicKey := p.hd.neutered child
      let blocktrailPublicKeys ← orRaise a.upgradeKeyIndex
      modifyWallet fun w => { w with keyIndex := keyIndex }
      blocktrailPublicKeys.forM (setBlocktrailPublicKey p)
      modifyWallet fun w =>
        { w with primaryPublicKeys := Function.update w.primaryPublicKeys (dec keyIndex) (some primaryPublicKey) }
      pure true

/-! ## Unlock and lock -/

def checksumError (checksum expected : Str) : JsError :=
  ⟨"WalletChecksumError", "Generated checksum [" ++ checksum ++ "] does not match [" ++ expected ++
    "], most likely due to incorrect password"⟩

/-- The part of `unlock` that depends on the version. -/
def unlockVersion (p : Platform Node) (o : UnlockOptions) : Method Node Node := do
  let w := (← get).wallet
  match w.walletVersion with
  | .v1 => unlockV1 p o
  | .v2 => unlockV2 p o
  | .v3 => unlockV3 p o
  | .other _ => throw ⟨"WalletInitError", "Invalid wallet version"⟩

def unlock (p : Platform Node) (a : Answers) (o : UnlockOptions) : Method Node (Option Bool) := do
  let primaryPrivateKey ← unlockVersion p o
  modifyWallet fun w => { w with primaryPrivateKey := some primaryPrivateKey }
  let checksum := p.hd.getAddress primaryPrivateKey
  let w := (← get).wallet
  if checksum ≠ w.checksum then throw (checksumError checksum w.checksum)
  else do
    modifyWallet fun w => { w with locked := false }
    match w.upgradeToKeyIndex with
    | some keyIndex => some <$> upgradeKeyIndex p a keyIndex
    | none => pure none

def lock : Method Node Unit :=
  modifyWallet fun w =>
    { w with secret := none, primarySeed := none, primaryPrivateKey := none, backupPrivateKey := none,
             locked := true }

end JsSdk
