import Blocktrail.JsSdk.Unlock

/-! # Encryption upgrade and password change -/

open Text Throwing Bitcoin

namespace JsSdk

variable {Node : Type}

/-! ## Upgrade -/

/-- What `produceEncryptedDataV3` adds to its options. -/
structure EncryptedDataV3 where
  secret : Bytes
  encryptedSecret : Bytes
  encryptedPrimarySeed : Bytes
  /-- The recovery secret and the secret encrypted under it, unless `recoverySecret: false` was given. -/
  recovery : Option (Bytes × Bytes)

/-- `sdk.produceEncryptedDataV3` for options with `storeDataOnServer`, a seed and no secret. -/
def produceEncryptedDataV3 (p : Platform Node) (a : Answers) (passphrase : Option Data)
    (primarySeed : Option Bytes) (withRecovery : Bool) : Except JsError EncryptedDataV3 := do
  if !truthy passphrase then .error ⟨"WalletCreateError", "Can't encrypt data without a passphrase"⟩
  else
    let secret := a.secret
    let pw ← bufferFrom passphrase
    let encryptedSecret ←
      Encryption.encrypt p (some (.buffer secret)) (some (.buffer pw)) a.secretSalt a.secretIV defaultIterations
    let encryptedPrimarySeed ←
      Encryption.encrypt p (primarySeed.map .buffer) (some (.buffer secret)) a.seedSalt a.seedIV subkeyIterations
    if withRecovery then
      let recoveryEncryptedSecret ←
        Encryption.encrypt p (some (.buffer secret)) (some (.buffer a.recoverySecret)) a.recoverySalt
          a.recoveryIV defaultIterations
      pure ⟨secret, encryptedSecret, encryptedPrimarySeed, some (a.recoverySecret, recoveryEncryptedSecret)⟩
    else pure ⟨secret, encryptedSecret, encryptedPrimarySeed, none⟩

/-- The assignments after the server took the upgrade. -/
def setUpgraded (d : EncryptedDataV3) : Method Node Unit :=
  modifyWallet fun w =>
    { w with secret := some (.buffer d.secret), encryptedPrimarySeed := some (.buffer d.encryptedPrimarySeed),
             encryptedSecret := some (.buffer d.encryptedSecret), walletVersion := .v3 }

def upgradeV2ToV3 (p : Platform Node) (a : Answers) (passphrase : Option Data) : Method Node Unit := do
  let w := (← get).wallet
  let d ← orRaise (produceEncryptedDataV3 p a passphrase w.primarySeed false)
  sdkUpdateWallet a
    { primaryMnemonic := none
      encryptedPrimarySeed := some (Base64.encode d.encryptedPrimarySeed)
      encryptedSecret := some (Base64.encode d.encryptedSecret)
      recoverySecret := none
      walletVersion := some .v3 }
  setUpgraded d

def upgradeV1ToV3 (p : Platform Node) (a : Answers) (passphrase : Option Data) : Method Node Unit := do
  let w := (← get).wallet
  let d ← orRaise (produceEncryptedDataV3 p a passphrase w.primarySeed true)
  modifyWallet fun w => { w with recoveryEncryptedSecret := d.recovery.map (·.2) }
  sdkUpdateWallet a
    { primaryMnemonic := some []
      encryptedPrimarySeed := some (Base64.encode d.encryptedPrimarySeed)
      encryptedSecret := some (Base64.encode d.encryptedSecret)
      recoverySecret := d.recovery.map fun r => Hex.encode r.1
      walletVersion := some .v3 }
  setUpgraded d

def upgradeToV3 (p : Platform Node) (a : Answers) (passphrase : Option Data) : Method Node Unit := do
  let w := (← get).wallet
  if w.locked then throw ⟨"WalletLockedError", "Wallet needs to be unlocked to upgrade"⟩
  else
    match w.walletVersion with
    | .v3 => throw ⟨"WalletUpgradeError", "Wallet is already V3"⟩
    | .v2 => upgradeV2ToV3 p a passphrase
    | .v1 => upgradeV1ToV3 p a passphrase
    | .other _ => pure ()

/-! ## Password change -/

/-- The new encrypted secret, and its mnemonic for the backup sheet. -/
def doPasswordChange (p : Platform Node) (a : Answers) (newPassword : Data) : Method Node (Str × Str) := do
  let w := (← get).wallet
  if w.walletVersion = .v1 then
    throw ⟨"WalletLockedError", "Wallet version does not support password change!"⟩
  else if w.locked then throw ⟨"WalletLockedError", "Wallet needs to be unlocked to change password"⟩
  else if !truthy w.secret then throw ⟨"WalletLockedError", "No secret"⟩
  else if w.walletVersion = .v2 then do
    let newEncryptedSecret ← orRaise (p.aesEncrypt w.secret newPassword a.aesSalt)
    let mnemonic ← orRaise (p.entropyToMnemonic (Hex.encode (Base64.decode newEncryptedSecret)))
    pure (newEncryptedSecret, mnemonic)
  else do
    let pw ← orRaise (bufferFrom (some newPassword))
    let newEncryptedSecret ←
      orRaise (Encryption.encrypt p w.secret (some (.buffer pw)) a.secretSalt a.secretIV defaultIterations)
    let mnemonic ← orRaise (p.encodeMnemonic newEncryptedSecret)
    pure (Base64.encode newEncryptedSecret, mnemonic)

/-- Returns the backup info: the mnemonic of the new encrypted secret. -/
def passwordChange (p : Platform Node) (a : Answers) (newPassword : Data) : Method Node Str := do
  let r ← doPasswordChange p a newPassword
  sdkUpdateWallet a
    { primaryMnemonic := none
      encryptedPrimarySeed := none
      encryptedSecret := some r.1
      recoverySecret := none
      walletVersion := none }
  modifyWallet fun w => { w with encryptedSecret := some (.text r.1) }
  pure r.2

end JsSdk
