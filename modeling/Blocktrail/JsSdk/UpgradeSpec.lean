import Blocktrail.JsSdk.Upgrade

/-! # What an upgrade and a password change do -/

open Text Throwing Bitcoin

namespace JsSdk

variable {Node : Type}

/-! ## Upgrade -/

theorem produceEncryptedDataV3_ok {p : Platform Node} {a : Answers} {passphrase : Option Data} {seed : Bytes}
    {withRecovery : Bool} {d : EncryptedDataV3}
    (h : produceEncryptedDataV3 p a passphrase (some seed) withRecovery = .ok d) :
    truthy passphrase = true ∧ d.secret = a.secret ∧
      d.encryptedPrimarySeed = p.gcmEncrypt seed a.secret a.seedSalt a.seedIV subkeyIterations ∧
      ∃ pw, bufferFrom passphrase = .ok pw ∧
        d.encryptedSecret = p.gcmEncrypt a.secret pw a.secretSalt a.secretIV defaultIterations := by
  unfold produceEncryptedDataV3 at h
  by_cases ht : truthy passphrase = true
  · rw [if_neg (by simp [ht])] at h
    rcases hp : bufferFrom passphrase with e | pw
    · rw [hp] at h
      cases h
    rw [hp] at h
    rcases withRecovery <;> cases h <;> exact ⟨ht, rfl, rfl, pw, rfl, rfl⟩
  · rw [if_pos (by simp [ht])] at h
    cases h

/-- The data of an upgrade, as `updateWallet` gets it. -/
def upgradeData (fromV1 : Bool) (d : EncryptedDataV3) : WalletUpdate where
  primaryMnemonic := if fromV1 then some [] else none
  encryptedPrimarySeed := some (Base64.encode d.encryptedPrimarySeed)
  encryptedSecret := some (Base64.encode d.encryptedSecret)
  recoverySecret := if fromV1 then d.recovery.map fun r => Hex.encode r.1 else none
  walletVersion := some .v3

/-- The world with the text for the backup sheet. -/
def World.withRecovery (s : World Node) (recovery : Option Bytes) : World Node :=
  { s with wallet := { s.wallet with recoveryEncryptedSecret := recovery } }

def World.upgraded (s : World Node) (recovery : Option Bytes) (d : EncryptedDataV3) (fromV1 : Bool) :
    World Node :=
  { s with
    wallet := { s.wallet with
      recoveryEncryptedSecret := recovery, secret := some (.buffer d.secret),
      encryptedPrimarySeed := some (.buffer d.encryptedPrimarySeed),
      encryptedSecret := some (.buffer d.encryptedSecret), walletVersion := .v3 }
    server := s.server.apply (upgradeData fromV1 d) }

/-- What an upgrade ends with: an error and the old data, or all of the new data here and on the server. -/
def UpgradeCall (p : Platform Node) (a : Answers) (passphrase : Option Data) (s : World Node)
    (r : Except JsError Unit × World Node) : Prop :=
  (∃ e recovery, r = (.error e, s.withRecovery recovery)) ∨
    ∃ d recovery fromV1, s.wallet.locked = false ∧
      s.wallet.walletVersion = (if fromV1 then .v1 else .v2) ∧
      produceEncryptedDataV3 p a passphrase s.wallet.primarySeed fromV1 = .ok d ∧
      a.updateWallet = .ok () ∧ r = (.ok (), s.upgraded recovery d fromV1)

theorem call_sdkUpdateWallet_bind {α : Type} {a : Answers} {u : WalletUpdate} {k : Unit → Method Node α}
    {s t : World Node} (ha : a.updateWallet = .ok ()) (h : { s with server := s.server.apply u } = t) :
    call (sdkUpdateWallet a u >>= k) s = call (k ()) t := by
  subst h
  refine call_bind_ok ?_
  rw [sdkUpdateWallet, ha]
  rfl

theorem call_sdkUpdateWallet_bind_error {α : Type} {a : Answers} {u : WalletUpdate} {k : Unit → Method Node α}
    {s : World Node} {e : JsError} (ha : a.updateWallet = .error e) :
    call (sdkUpdateWallet a u >>= k) s = (.error e, s) := by
  refine call_bind_error ?_
  rw [sdkUpdateWallet, ha]
  rfl

theorem upgradeV2ToV3_spec (p : Platform Node) (a : Answers) (passphrase : Option Data) (s : World Node)
    (hl : s.wallet.locked = false) (hv : s.wallet.walletVersion = .v2) :
    UpgradeCall p a passphrase s (call (upgradeV2ToV3 p a passphrase) s) := by
  unfold upgradeV2ToV3
  rw [call_get_bind]
  rcases hd : produceEncryptedDataV3 p a passphrase s.wallet.primarySeed false with e | d
  · rw [call_orRaise_bind_error hd]
    exact Or.inl ⟨e, s.wallet.recoveryEncryptedSecret, rfl⟩
  rw [call_orRaise_bind_ok hd]
  rcases ha : a.updateWallet with e | _
  · rw [call_sdkUpdateWallet_bind_error ha]
    exact Or.inl ⟨e, s.wallet.recoveryEncryptedSecret, rfl⟩
  rw [call_sdkUpdateWallet_bind ha rfl]
  exact Or.inr ⟨d, s.wallet.recoveryEncryptedSecret, false, hl, hv, hd, ha, rfl⟩

theorem upgradeV1ToV3_spec (p : Platform Node) (a : Answers) (passphrase : Option Data) (s : World Node)
    (hl : s.wallet.locked = false) (hv : s.wallet.walletVersion = .v1) :
    UpgradeCall p a passphrase s (call (upgradeV1ToV3 p a passphrase) s) := by
  unfold upgradeV1ToV3
  rw [call_get_bind]
  rcases hd : produceEncryptedDataV3 p a passphrase s.wallet.primarySeed true with e | d
  · rw [call_orRaise_bind_error hd]
    exact Or.inl ⟨e, s.wallet.recoveryEncryptedSecret, rfl⟩
  rw [call_orRaise_bind_ok hd, call_modifyWallet_bind (t := s.withRecovery (d.recovery.map (·.2))) rfl]
  rcases ha : a.updateWallet with e | _
  · rw [call_sdkUpdateWallet_bind_error ha]
    exact Or.inl ⟨e, _, rfl⟩
  rw [call_sdkUpdateWallet_bind ha rfl]
  exact Or.inr ⟨d, d.recovery.map (·.2), true, hl, hv, hd, ha, rfl⟩

theorem call_upgradeToV3 (p : Platform Node) (a : Answers) (passphrase : Option Data) (s : World Node) :
    UpgradeCall p a passphrase s (call (upgradeToV3 p a passphrase) s) ∨
      ∃ text, s.wallet.walletVersion = .other text ∧ call (upgradeToV3 p a passphrase) s = (.ok (), s) := by
  unfold upgradeToV3
  rw [call_get_bind]
  by_cases hl : s.wallet.locked = true
  · rw [if_pos hl]
    exact Or.inl (Or.inl ⟨_, s.wallet.recoveryEncryptedSecret, rfl⟩)
  rw [if_neg hl]
  have hl' : s.wallet.locked = false := by simpa using hl
  rcases hv : s.wallet.walletVersion with _ | _ | _ | text
  · exact Or.inl (upgradeV1ToV3_spec p a passphrase s hl' hv)
  · exact Or.inl (upgradeV2ToV3_spec p a passphrase s hl' hv)
  · exact Or.inl (Or.inl ⟨_, s.wallet.recoveryEncryptedSecret, rfl⟩)
  · exact Or.inr ⟨text, rfl, rfl⟩

/-- What `upgradeToV3` leaves, whichever way it ends. -/
def UpgradeOutcome (p : Platform Node) (a : Answers) (passphrase : Option Data) (s t : World Node) : Prop :=
  (∃ recovery, t = s.withRecovery recovery) ∨
    ∃ d recovery fromV1, s.wallet.locked = false ∧
      s.wallet.walletVersion = (if fromV1 then .v1 else .v2) ∧
      produceEncryptedDataV3 p a passphrase s.wallet.primarySeed fromV1 = .ok d ∧
      a.updateWallet = .ok () ∧ t = s.upgraded recovery d fromV1

/-- **What an upgrade does.** -/
theorem upgradeToV3_spec (p : Platform Node) (a : Answers) (passphrase : Option Data) (s : World Node) :
    UpgradeOutcome p a passphrase s (after (upgradeToV3 p a passphrase) s) := by
  unfold after
  rcases call_upgradeToV3 p a passphrase s with
    (⟨e, recovery, hc⟩ | ⟨d, recovery, fromV1, hl, hv, hd, ha, hc⟩) | ⟨text, -, hc⟩ <;> rw [hc]
  · exact Or.inl ⟨recovery, rfl⟩
  · exact Or.inr ⟨d, recovery, fromV1, hl, hv, hd, ha, rfl⟩
  · exact Or.inl ⟨s.wallet.recoveryEncryptedSecret, rfl⟩

/-! ## Password change -/

def World.repassworded (s : World Node) (newEncryptedSecret : Str) : World Node :=
  { s with
    wallet := { s.wallet with encryptedSecret := some (.text newEncryptedSecret) }
    server := { s.server with encryptedSecret := some newEncryptedSecret } }

/-- The secret of the wallet under a new password, in the format of its version. -/
def EncryptsSecret (p : Platform Node) (a : Answers) (newPassword : Data) (w : Wallet Node) (enc : Str) : Prop :=
  (w.walletVersion = .v2 ∧ p.aesEncrypt w.secret newPassword a.aesSalt = .ok enc) ∨
    (w.walletVersion ≠ .v1 ∧ w.walletVersion ≠ .v2 ∧ ∃ pw ct, bufferFrom (some newPassword) = .ok pw ∧
      Encryption.encrypt p w.secret (some (.buffer pw)) a.secretSalt a.secretIV defaultIterations = .ok ct ∧
      enc = Base64.encode ct)

/-- A password change computes before it assigns. -/
theorem doPasswordChange_spec (p : Platform Node) (a : Answers) (newPassword : Data) (s : World Node) :
    (∃ e, call (doPasswordChange p a newPassword) s = (.error e, s)) ∨
      ∃ enc mnemonic, call (doPasswordChange p a newPassword) s = (.ok (enc, mnemonic), s) ∧
        s.wallet.locked = false ∧ truthy s.wallet.secret = true ∧
        EncryptsSecret p a newPassword s.wallet enc := by
  unfold doPasswordChange
  rw [call_get_bind]
  by_cases h1 : s.wallet.walletVersion = .v1
  · rw [if_pos h1]
    exact Or.inl ⟨_, rfl⟩
  rw [if_neg h1]
  by_cases hl : s.wallet.locked = true
  · rw [if_pos hl]
    exact Or.inl ⟨_, rfl⟩
  rw [if_neg hl]
  by_cases hs : truthy s.wallet.secret = true
  · rw [if_neg (by simp [hs])]
    have hl' : s.wallet.locked = false := by simpa using hl
    by_cases h2 : s.wallet.walletVersion = .v2
    · rw [if_pos h2]
      rcases he : p.aesEncrypt s.wallet.secret newPassword a.aesSalt with e | enc
      · exact Or.inl ⟨e, call_orRaise_bind_error rfl⟩
      rw [call_orRaise_bind_ok rfl]
      rcases p.entropyToMnemonic (Hex.encode (Base64.decode enc)) with e | mnemonic
      · exact Or.inl ⟨e, call_orRaise_bind_error rfl⟩
      rw [call_orRaise_bind_ok rfl]
      exact Or.inr ⟨enc, mnemonic, rfl, hl', hs, Or.inl ⟨h2, he⟩⟩
    · rw [if_neg h2]
      rcases hp : bufferFrom (some newPassword) with e | pw
      · exact Or.inl ⟨e, call_orRaise_bind_error rfl⟩
      rw [call_orRaise_bind_ok rfl]
      rcases he : Encryption.encrypt p s.wallet.secret (some (.buffer pw)) a.secretSalt a.secretIV
        defaultIterations with e | ct
      · exact Or.inl ⟨e, call_orRaise_bind_error rfl⟩
      rw [call_orRaise_bind_ok rfl]
      rcases p.encodeMnemonic ct with e | mnemonic
      · exact Or.inl ⟨e, call_orRaise_bind_error rfl⟩
      rw [call_orRaise_bind_ok rfl]
      exact Or.inr ⟨_, mnemonic, rfl, hl', hs, Or.inr ⟨h1, h2, pw, ct, hp, he, rfl⟩⟩
  · rw [if_pos (by simp [hs])]
    exact Or.inl ⟨_, rfl⟩

theorem call_passwordChange (p : Platform Node) (a : Answers) (newPassword : Data) (s : World Node) :
    (∃ e, call (passwordChange p a newPassword) s = (.error e, s)) ∨
      ∃ enc mnemonic, s.wallet.locked = false ∧ truthy s.wallet.secret = true ∧
        EncryptsSecret p a newPassword s.wallet enc ∧ a.updateWallet = .ok () ∧
        call (passwordChange p a newPassword) s = (.ok mnemonic, s.repassworded enc) := by
  unfold passwordChange
  rcases doPasswordChange_spec p a newPassword s with ⟨e, he⟩ | ⟨enc, mnemonic, he, hl, hs, henc⟩
  · rw [call_bind_error he]
    exact Or.inl ⟨e, rfl⟩
  rw [call_bind_ok he]
  rcases ha : a.updateWallet with e | _
  · rw [call_sdkUpdateWallet_bind_error ha]
    exact Or.inl ⟨e, rfl⟩
  · rw [call_sdkUpdateWallet_bind ha rfl]
    refine Or.inr ⟨enc, mnemonic, hl, hs, henc, rfl, ?_⟩
    rw [call_modifyWallet_bind rfl]
    simp [World.repassworded, ServerWallet.apply]

/-- What `passwordChange` leaves, whichever way it ends. -/
def PasswordOutcome (p : Platform Node) (a : Answers) (newPassword : Data) (s t : World Node) : Prop :=
  t = s ∨ ∃ enc, s.wallet.locked = false ∧ truthy s.wallet.secret = true ∧
    EncryptsSecret p a newPassword s.wallet enc ∧ a.updateWallet = .ok () ∧ t = s.repassworded enc

/-- **What a password change does.** -/
theorem passwordChange_spec (p : Platform Node) (a : Answers) (newPassword : Data) (s : World Node) :
    PasswordOutcome p a newPassword s (after (passwordChange p a newPassword) s) := by
  unfold after
  rcases call_passwordChange p a newPassword s with ⟨e, hc⟩ | ⟨enc, mnemonic, hl, hs, henc, ha, hc⟩ <;> rw [hc]
  · exact Or.inl rfl
  · exact Or.inr ⟨enc, hl, hs, henc, ha, rfl⟩

end JsSdk
