import Blocktrail.JsSdk.Construct
import Blocktrail.JsSdk.UnlockSpec
import Blocktrail.JsSdk.UpgradeSpec

/-! # Unlocking with a password

`recover` is what the stored data of a wallet give under a password. An unlock with that password gets
the same seed and the same secret.
-/

open Text Throwing Bitcoin

namespace JsSdk

variable {Node : Type}

/-- Decryption undoes encryption under the same key. -/
structure Inverts (p : Platform Node) : Prop where
  gcm : ∀ pt pw salt iv iterations, 0 < iterations → iterations < 2 ^ 32 →
    p.gcmDecrypt (p.gcmEncrypt pt pw salt iv iterations) pw = some pt
  aes : ∀ s key salt ct, p.aesEncrypt (some (.text s)) key salt = .ok ct →
    p.aesDecrypt (some (.text ct)) (some key) = some s

/-! ## The stored data -/

/-- What a wallet object and the server both keep. -/
structure StoredData where
  walletVersion : WalletVersion
  primaryMnemonic : Option Str
  encryptedPrimarySeed : Option Data
  encryptedSecret : Option Data

def Wallet.stored (w : Wallet Node) : StoredData :=
  ⟨w.walletVersion, w.primaryMnemonic, w.encryptedPrimarySeed, w.encryptedSecret⟩

def ServerWallet.stored (s : ServerWallet) : StoredData :=
  ⟨s.walletVersion, s.primaryMnemonic, s.encryptedPrimarySeed.map .text, s.encryptedSecret.map .text⟩

/-- The secret, then the seed under it. -/
def recoverEncrypted (d : StoredData) (pw : Data) (secretUnder : Option Data → Option Data → Option Data)
    (seedUnder : Option Data → Option Data → Option Bytes) : Option (Bytes × Option Data) := do
  let secret ← secretUnder d.encryptedSecret (some pw)
  let seed ← seedUnder d.encryptedPrimarySeed (some secret)
  pure (seed, some secret)

theorem recoverEncrypted_eq_some {d : StoredData} {pw : Data} {secretUnder : Option Data → Option Data → Option Data}
    {seedUnder : Option Data → Option Data → Option Bytes} {seed : Bytes} {secret? : Option Data} :
    recoverEncrypted d pw secretUnder seedUnder = some (seed, secret?) ↔
      ∃ secret, secretUnder d.encryptedSecret (some pw) = some secret ∧
        seedUnder d.encryptedPrimarySeed (some secret) = some seed ∧ secret? = some secret := by
  unfold recoverEncrypted
  constructor
  · intro h
    obtain ⟨secret, hs, h⟩ := Option.bind_eq_some_iff.mp h
    obtain ⟨seed', hd, h⟩ := Option.bind_eq_some_iff.mp h
    cases h
    exact ⟨secret, hs, hd, rfl⟩
  · rintro ⟨secret, hs, hd, rfl⟩
    simp only [hs, hd, Option.bind_eq_bind, Option.bind_some, Option.pure_def]

/-- The seed and the secret of stored data; a version 1 wallet has no secret. -/
def recover (p : Platform Node) (d : StoredData) (pw : Data) : Option (Bytes × Option Data) :=
  match d.walletVersion with
  | .v1 =>
    if d.primaryMnemonic.getD [] = [] ∨ !truthy (some pw) then none
    else (p.mnemonicToSeedHex (d.primaryMnemonic.getD []) (some pw)).toOption.map fun h => (Hex.decode h, none)
  | .v2 => recoverEncrypted d pw (secretUnderV2 p) (seedUnderV2 p)
  | .v3 => recoverEncrypted d pw (secretUnderV3 p) (seedUnderV3 p)
  | .other _ => none

theorem recover_version {p : Platform Node} {d : StoredData} {pw : Data} {r : Bytes × Option Data}
    (h : recover p d pw = some r) (text : Str) : d.walletVersion ≠ .other text := by
  intro hv
  unfold recover at h
  rw [hv] at h
  cases h

/-! ## Options with a password -/

/-- The options give a password, as `passphrase` or as `password`, and nothing else. -/
structure GivesPassword (o : UnlockOptions) (pw : Data) : Prop where
  anyPassword : o.anyPassword = some pw
  conflict : o.conflict = false
  secret : o.secret = none
  primarySeed : o.primarySeed = none
  primaryPrivateKey : o.primaryPrivateKey = false
  primaryMnemonic : o.primaryMnemonic = none
  encryptedPrimarySeed : o.encryptedPrimarySeed = none
  encryptedSecret : o.encryptedSecret = none

/-- The seed is assigned where it decrypts to one that is not empty. -/
def AssignsSeed (m : Option Data → Method Node Unit) (seedUnder : Option Data → Option Data → Option Bytes) : Prop :=
  ∀ enc secret seed (s : World Node), seedUnder enc secret = some seed → seed ≠ [] →
    call (m enc) (s.withSecret secret) = (.ok (), s.holding secret (some seed) s.sdk.primarySeed)

theorem decryptPrimarySeedV2_assigns (p : Platform Node) : AssignsSeed (decryptPrimarySeedV2 p) (seedUnderV2 p) := by
  intro enc secret seed s hu hne
  have hs : (s.withSecret secret).wallet.secret = secret := rfl
  unfold seedUnderV2 at hu
  obtain ⟨t, ht, rfl⟩ := Option.map_eq_some_iff.mp hu
  simp only [decryptPrimarySeedV2, call_bind, call_get, hs, ht, call_modifyWallet, if_neg hne, call_pure]
  rfl

theorem decryptPrimarySeedV3_assigns (p : Platform Node) : AssignsSeed (decryptPrimarySeedV3 p) (seedUnderV3 p) := by
  intro enc secret seed s hu _
  have hs : (s.withSecret secret).wallet.secret = secret := rfl
  unfold seedUnderV3 at hu
  rcases hb : bufferFromBase64 enc with e | ct <;> rw [hb] at hu
  · cases hu
  simp only at hu
  simp only [decryptPrimarySeedV3, call_bind, call_get, hb, call_orRaise, hs, hu, call_modifyWallet]
  rfl

theorem unlockEncrypted_password {p : Platform Node} {deprecatedError : Str}
    {decryptSecret : Option Data → Option Data → Method Node Unit}
    {decryptPrimarySeed : Option Data → Method Node Unit}
    {secretUnder : Option Data → Option Data → Option Data}
    {seedUnder : Option Data → Option Data → Option Bytes}
    (hsecret : DecryptsSecret decryptSecret secretUnder) (hseed : AssignsSeed decryptPrimarySeed seedUnder)
    {o : UnlockOptions} {s : World Node} {pw : Data} {seed : Bytes} {secret : Option Data} {key : Node}
    (ho : GivesPassword o pw) (hr : recoverEncrypted s.wallet.stored pw secretUnder seedUnder = some (seed, secret))
    (hk : p.hd.fromSeedBuffer seed s.wallet.network = .ok key) :
    call (unlockEncrypted p deprecatedError decryptSecret decryptPrimarySeed o) s =
      (.ok key, s.holding secret (some seed) s.sdk.primarySeed) := by
  have hne : seed ≠ [] := by
    rintro rfl
    cases hk
  obtain ⟨secret', hs', hd', rfl⟩ := recoverEncrypted_eq_some.mp hr
  have h1 := hsecret s.wallet.encryptedSecret (some pw) s
  rw [show secretUnder s.wallet.encryptedSecret (some pw) = some secret' from hs'] at h1
  have h2 := hseed s.wallet.encryptedPrimarySeed (some secret') seed s hd' hne
  have ht : call (takeSecret o) s = (.ok (), s) := by
    rw [call_takeSecret, takenSecret, ho.secret]
    rfl
  unfold unlockEncrypted
  simp only [call_get_bind, ho.encryptedPrimarySeed, ho.encryptedSecret, Option.getD_none]
  rw [call_bind_ok ht]
  simp only [ho.primaryPrivateKey, ho.primarySeed, ho.secret, ho.conflict, ho.anyPassword, truthy,
    Bool.false_eq_true, if_false]
  rw [call_bind_ok h1, call_bind_ok h2, call_rootOfSeed, hk]

/-- **The password of the stored data.** An unlock with it makes the root of the seed, and is left with the
secret. -/
theorem unlockVersion_password {p : Platform Node} {o : UnlockOptions} {s : World Node} {pw : Data} {seed : Bytes}
    {secret : Option Data} {key : Node} (hn : s.sdk.network = s.wallet.network) (ho : GivesPassword o pw)
    (hr : recover p s.wallet.stored pw = some (seed, secret))
    (hk : p.hd.fromSeedBuffer seed s.wallet.network = .ok key)
    (hv1 : s.wallet.walletVersion = .v1 → s.wallet.secret = none) :
    ∃ kept, call (unlockVersion p o) s = (.ok key, s.holding secret (some seed) kept) := by
  unfold recover at hr
  unfold unlockVersion
  simp only [call_get_bind]
  have hd : s.wallet.stored.walletVersion = s.wallet.walletVersion := rfl
  rw [hd] at hr
  rcases hv : s.wallet.walletVersion with _ | _ | _ | text <;> rw [hv] at hr
  · -- The mnemonic of the wallet, under the password.
    simp only at hr
    split at hr
    · cases hr
    next hm =>
    obtain ⟨seedHex, hhex, he⟩ := Option.map_eq_some_iff.mp hr
    cases he
    have hm : ¬(s.wallet.primaryMnemonic.getD [] = [] ∨ (!truthy (some pw)) = true) := hm
    have hg : givenSeedV1 p o (s.wallet.primaryMnemonic.getD []) = some (Hex.decode seedHex) := by
      unfold givenSeedV1
      rw [ho.conflict, ho.primaryPrivateKey, ho.primarySeed, ho.anyPassword, if_neg (by simp)]
      simp only [if_neg hm]
      exact congrArg (Option.map Hex.decode) hhex
    have h := call_resolve p o (s.wallet.primaryMnemonic.getD []) s
    rw [hg] at h
    simp only [hn, hk] at h
    obtain ⟨kept, hc⟩ := h
    refine ⟨kept, ?_⟩
    unfold unlockV1
    rw [call_get_bind, ho.primaryMnemonic]
    simp only [Option.orElse_eq_orElse, Option.orElse_eq_or, Option.none_or]
    rw [call_bind_ok hc, call_modifyWallet_bind rfl, hv1 hv]
    rfl
  · exact ⟨_, unlockEncrypted_password (decryptSecretV2_spec p) (decryptPrimarySeedV2_assigns p) ho hr hk⟩
  · exact ⟨_, unlockEncrypted_password (decryptSecretV3_spec p) (decryptPrimarySeedV3_assigns p) ho hr hk⟩
  · cases hr

/-! ## The unlock of a new wallet -/

/-- The secret a new wallet is left with. -/
def createdSecret (version : WalletVersion) (d : CreatedData Node) : Option Data :=
  if version = .v1 then none else if truthy d.secret then d.secret else none

theorem unlockEncrypted_seed {p : Platform Node} {deprecatedError : Str}
    {decryptSecret : Option Data → Option Data → Method Node Unit}
    {decryptPrimarySeed : Option Data → Method Node Unit} {o : UnlockOptions} {s : World Node} {seed : Bytes}
    (hk : o.primaryPrivateKey = false) (hs : o.primarySeed = some seed) :
    call (unlockEncrypted p deprecatedError decryptSecret decryptPrimarySeed o) s =
      (p.hd.fromSeedBuffer seed s.wallet.network,
        s.holding (takenSecret o s) (some seed) s.sdk.primarySeed) := by
  unfold unlockEncrypted
  simp only [call_get_bind, hk, hs, Bool.false_eq_true, if_false]
  rw [call_bind_ok (call_takeSecret o s),
    call_modifyWallet_bind (t := s.holding (takenSecret o s) (some seed) s.sdk.primarySeed) rfl, call_rootOfSeed]

/-- **A new wallet.** Its unlock makes the root of the seed it was made from. -/
theorem unlockVersion_created {p : Platform Node} {version : WalletVersion} {d : CreatedData Node} {s : World Node}
    {root : Node} (hv : ∀ text, version ≠ .other text) (hw : s.wallet.walletVersion = version)
    (hn : s.sdk.network = s.wallet.network) (hs : s.wallet.secret = none)
    (hr : p.hd.fromSeedBuffer d.primarySeed s.wallet.network = .ok root) :
    ∃ kept, call (unlockVersion p (createdUnlockOptions version d)) s =
      (.ok root, s.holding (createdSecret version d) (some d.primarySeed) kept) := by
  unfold unlockVersion
  simp only [call_get_bind, hw]
  rcases version with _ | _ | _ | text
  · have hg : givenSeedV1 p (createdUnlockOptions .v1 d) [] = some d.primarySeed := by
      simp [givenSeedV1, createdUnlockOptions, UnlockOptions.conflict, truthy]
    have h := call_resolve p (createdUnlockOptions .v1 d) [] s
    rw [hg] at h
    simp only [hn, hr, hs] at h
    obtain ⟨kept, hc⟩ := h
    refine ⟨kept, ?_⟩
    show call (resolvePrimaryPrivateKeyFromOptions p (createdUnlockOptions .v1 d) [] >>= _) s = _
    rw [call_bind_ok hc, call_modifyWallet_bind rfl]
    rfl
  · refine ⟨s.sdk.primarySeed, ?_⟩
    simp only [unlockV2, unlockEncrypted_seed (o := createdUnlockOptions .v2 d) rfl rfl, hr, takenSecret, hs]
    rfl
  · refine ⟨s.sdk.primarySeed, ?_⟩
    simp only [unlockV3, unlockEncrypted_seed (o := createdUnlockOptions .v3 d) rfl rfl, hr, takenSecret, hs]
    rfl
  · exact absurd rfl (hv text)

end JsSdk
