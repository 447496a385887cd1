import Blocktrail.JsSdk.Construct
import Blocktrail.JsSdk.KeyState
import Blocktrail.JsSdk.PasswordUnlock
import Blocktrail.JsSdk.Sample

/-! # The encryption over a wallet's life

The wallet object and the server keep the encrypted data twice, in different formats. Whatever succeeds and
whatever fails, the password last set opens both copies.
-/

open Text Throwing Bitcoin Runs

namespace JsSdk

variable {Node : Type}

/-! ## Runs -/

/-- A world, with the password last set and the secret the wallet has since its last upgrade. -/
structure Tracked (Node : Type) where
  world : World Node
  password : Data
  secret : Option Data

inductive LifeOp
  | unlock (a : Answers) (o : UnlockOptions)
  | lock
  | passwordChange (a : Answers) (newPassword : Data)
  | upgradeToV3 (a : Answers) (passphrase : Option Data)

/-- A password counts as set when the call succeeds. -/
def lifeStep (p : Platform Node) (t : Tracked Node) : LifeOp → Tracked Node
  | .unlock a o => { t with world := after (unlock p a o) t.world }
  | .lock => { t with world := after lock t.world }
  | .passwordChange a newPassword =>
    match call (passwordChange p a newPassword) t.world with
    | (.ok _, s) => { t with world := s, password := newPassword }
    | (.error _, s) => { t with world := s }
  | .upgradeToV3 a passphrase =>
    match call (upgradeToV3 p a passphrase) t.world, passphrase with
    | (.ok (), s), some newPassword => ⟨s, newPassword, some (.buffer a.secret)⟩
    | (_, s), _ => { t with world := s }

/-- Every unlock is one with the current password. -/
def UsesCurrent (t : Tracked Node) : LifeOp → Prop
  | .unlock _ o => GivesPassword o t.password
  | _ => True

/-! ## The property -/

/-- The wallet is unlocked, with the seed, the secret, and a key that passes the checksum. -/
structure Recovered (p : Platform Node) (seed : Bytes) (secret : Option Data) (s : World Node) : Prop where
  locked : s.wallet.locked = false
  primarySeed : s.wallet.primarySeed = some seed
  secret : s.wallet.secret = secret
  key : ∃ key, s.wallet.primaryPrivateKey = some key ∧ p.hd.getAddress key = s.wallet.checksum

/-- An answer of the server with the data it holds. -/
structure AnswersWith (s : World Node) (result : ServerResult) : Prop where
  walletVersion : result.walletVersion = s.server.walletVersion
  primaryMnemonic : result.primaryMnemonic = s.server.primaryMnemonic
  encryptedPrimarySeed : result.encryptedPrimarySeed = s.server.encryptedPrimarySeed
  encryptedSecret : result.encryptedSecret = s.server.encryptedSecret
  checksum : result.checksum = s.wallet.checksum

/-- The data a failed `updateWallet` must not touch. -/
def SameData (s t : World Node) : Prop :=
  t.wallet.encryptedPrimarySeed = s.wallet.encryptedPrimarySeed ∧
    t.wallet.encryptedSecret = s.wallet.encryptedSecret ∧
    t.wallet.walletVersion = s.wallet.walletVersion ∧ t.wallet.secret = s.wallet.secret

structure Recovers (p : Platform Node) (seed : Bytes) (t : Tracked Node) : Prop where
  held : ∀ a o, GivesPassword o t.password → Recovered p seed t.secret (after (unlock p a o) t.world)
  onServer : ∀ a o options result w, GivesPassword o t.password → AnswersWith t.world result →
    initWallet p t.world.sdk options result = .ok w →
    Recovered p seed t.secret (after (unlock p a o) ⟨w, t.world.sdk, t.world.server⟩)
  failed : ∀ a e, a.updateWallet = .error e →
    (∀ passphrase, SameData t.world (after (upgradeToV3 p a passphrase) t.world)) ∧
      ∀ newPassword, SameData t.world (after (passwordChange p a newPassword) t.world)

/-! ## The invariant -/

structure LifeInv (p : Platform Node) (seed : Bytes) (t : Tracked Node) : Prop where
  sameNetwork : SameNetwork t.world
  sameVersion : t.world.server.walletVersion = t.world.wallet.walletVersion
  passes : Passes p t.world.wallet seed
  held : recover p t.world.wallet.stored t.password = some (seed, t.secret)
  onServer : recover p t.world.server.stored t.password = some (seed, t.secret)
  unlocked : t.world.wallet.locked = false → t.world.wallet.primarySeed = some seed ∧ t.world.wallet.secret = t.secret
  locked : t.world.wallet.locked = true → t.world.wallet.secret = none

/-! ## New encryptions -/

theorem secretUnderV2_text {p : Platform Node} {enc pw : Option Data} {secret : Data}
    (h : secretUnderV2 p enc pw = some secret) : ∃ s, secret = .text s ∧ s ≠ [] := by
  unfold secretUnderV2 at h
  split at h
  · cases h
  split at h
  · cases h
  · next s _ hne =>
    cases h
    exact ⟨s, rfl, hne⟩

theorem secretUnderV3_buffer {p : Platform Node} {enc pw : Option Data} {secret : Data}
    (h : secretUnderV3 p enc pw = some secret) : ∃ b, secret = .buffer b := by
  unfold secretUnderV3 at h
  split at h
  · obtain ⟨b, -, rfl⟩ := Option.map_eq_some_iff.mp h
    exact ⟨b, rfl⟩
  · cases h

theorem secretUnderV3_gcmEncrypt {p : Platform Node} (hi : Inverts p) {b pwb : Bytes} {salt : Salt} {iv : IV}
    {enc pw : Option Data} (hpw : bufferFrom pw = .ok pwb)
    (he : bufferFromBase64 enc = .ok (p.gcmEncrypt b pwb salt iv defaultIterations)) :
    secretUnderV3 p enc pw = some (.buffer b) := by
  unfold secretUnderV3
  simp only [he, hpw, Encryption.decrypt, hi.gcm b pwb salt iv defaultIterations (by decide) (by decide),
    Option.map_some]

theorem recover_repassworded {p : Platform Node} (hi : Inverts p) {a : Answers} {newPassword pw : Data}
    {w : Wallet Node} {enc : Str} {d : StoredData} {seed : Bytes}
    (he : EncryptsSecret p a newPassword w enc) (hv : d.walletVersion = w.walletVersion)
    (hr : recover p d pw = some (seed, w.secret)) :
    recover p { d with encryptedSecret := some (.text enc) } newPassword = some (seed, w.secret) := by
  unfold recover at hr ⊢
  rcases he with ⟨h2, haes⟩ | ⟨h1, h2, pwb, ct, hpw, hgcm, rfl⟩
  · simp only [hv, h2] at hr ⊢
    obtain ⟨secret, hs, hd, hw⟩ := recoverEncrypted_eq_some.mp hr
    obtain ⟨s, rfl, hne⟩ := secretUnderV2_text hs
    rw [hw] at haes
    refine recoverEncrypted_eq_some.mpr ⟨.text s, ?_, hd, hw⟩
    simp only [secretUnderV2, hi.aes s newPassword a.aesSalt enc haes, if_neg hne]
  · rcases hver : w.walletVersion with _ | _ | _ | text
    · exact absurd hver h1
    · exact absurd hver h2
    · simp only [hv, hver] at hr ⊢
      obtain ⟨secret, hs, hd, hw⟩ := recoverEncrypted_eq_some.mp hr
      obtain ⟨b, rfl⟩ := secretUnderV3_buffer hs
      rw [hw] at hgcm
      cases hgcm
      have ht : bufferFromBase64 (some (.text (Base64.encode
          (p.gcmEncrypt b pwb a.secretSalt a.secretIV defaultIterations)))) =
            .ok (p.gcmEncrypt b pwb a.secretSalt a.secretIV defaultIterations) :=
        congrArg Except.ok (Base64.decode_encode _)
      exact recoverEncrypted_eq_some.mpr ⟨.buffer b, secretUnderV3_gcmEncrypt hi hpw ht, hd, hw⟩
    · simp only [hv, hver] at hr
      cases hr

/-- The data of an upgrade, kept as a `Buffer` or as base64. -/
theorem recover_upgraded {p : Platform Node} (hi : Inverts p) {a : Answers} {newPassword : Data} {seed : Bytes}
    {withRecovery : Bool} {e : EncryptedDataV3} {d : StoredData}
    (he : produceEncryptedDataV3 p a (some newPassword) (some seed) withRecovery = .ok e)
    (hv : d.walletVersion = .v3) (hseed : bufferFromBase64 d.encryptedPrimarySeed = .ok e.encryptedPrimarySeed)
    (hsecret : bufferFromBase64 d.encryptedSecret = .ok e.encryptedSecret) :
    recover p d newPassword = some (seed, some (.buffer a.secret)) := by
  obtain ⟨-, -, hes, pwb, hpw, hec⟩ := produceEncryptedDataV3_ok he
  unfold recover
  simp only [hv]
  rw [hes] at hseed
  rw [hec] at hsecret
  refine recoverEncrypted_eq_some.mpr ⟨.buffer a.secret, secretUnderV3_gcmEncrypt hi hpw hsecret, ?_, rfl⟩
  simp only [seedUnderV3, hseed, Encryption.decrypt]
  exact hi.gcm seed a.secret a.seedSalt a.seedIV subkeyIterations (by decide) (by decide)

/-! ## Unlocks -/

theorem recovered_of_password {p : Platform Node} {s : World Node} {pw : Data} {seed : Bytes} {secret : Option Data}
    (hn : SameNetwork s) (hp : Passes p s.wallet seed) (hr : recover p s.wallet.stored pw = some (seed, secret))
    (hv1 : s.wallet.walletVersion = .v1 → s.wallet.secret = none) (a : Answers) {o : UnlockOptions}
    (ho : GivesPassword o pw) :
    ∃ kept key keyIndex, p.hd.getAddress key = s.wallet.checksum ∧
      KeyIndexOutcome p (s.tried secret seed kept key false) keyIndex (after (unlock p a o) s) := by
  obtain ⟨key, hk, hc⟩ := hp
  obtain ⟨kept, hcall⟩ := unlockVersion_password hn ho hr hk hv1
  rcases unlock_of_key (a := a) hcall with ⟨hne, -⟩ | ⟨-, keyIndex, hout⟩
  · exact absurd hc hne
  · exact ⟨kept, key, keyIndex, hc, hout⟩

theorem KeyIndexOutcome.recovered {p : Platform Node} {s t : World Node} {seed : Bytes} {secret : Option Data}
    {kept : Option Bytes} {key : Node} {keyIndex : Nat} (hc : p.hd.getAddress key = s.wallet.checksum)
    (ho : KeyIndexOutcome p (s.tried secret seed kept key false) keyIndex t) : Recovered p seed secret t := by
  obtain ⟨⟨k, b, c, rfl⟩, -, -⟩ := ho
  exact ⟨rfl, rfl, rfl, key, rfl, hc⟩

theorem LifeInv.secret_none {p : Platform Node} {seed : Bytes} {t : Tracked Node} (h : LifeInv p seed t)
    (hv : t.world.wallet.walletVersion = .v1) : t.world.wallet.secret = none := by
  rcases hl : t.world.wallet.locked
  · rw [(h.unlocked hl).2]
    have hr := h.held
    unfold recover at hr
    rw [show t.world.wallet.stored.walletVersion = .v1 from hv] at hr
    simp only at hr
    split at hr
    · cases hr
    · obtain ⟨x, -, he⟩ := Option.map_eq_some_iff.mp hr
      exact (congrArg Prod.snd he).symm
  · exact h.locked hl

theorem LifeInv.recovers {p : Platform Node} {seed : Bytes} {t : Tracked Node} (h : LifeInv p seed t) :
    Recovers p seed t := by
  refine ⟨fun a o ho => ?_, fun a o options result w ho hans hw => ?_, fun a e ha => ⟨fun pw => ?_, fun pw => ?_⟩⟩
  · obtain ⟨kept, key, keyIndex, hc, hout⟩ := recovered_of_password h.sameNetwork h.passes h.held h.secret_none a ho
    exact hout.recovered hc
  · obtain ⟨args, hf, hv, hm, hes, hec, hcs⟩ := initWallet_fresh hw
    have hchecksum : w.checksum = t.world.wallet.checksum := by rw [hf.checksum, hcs, hans.checksum]
    have hnet : w.network = t.world.wallet.network := hf.network.trans h.sameNetwork
    have hst : w.stored = t.world.server.stored := by
      unfold Wallet.stored ServerWallet.stored
      rw [hf.walletVersion, hv, hans.walletVersion, hf.primaryMnemonic, hm, hans.primaryMnemonic,
        hf.encryptedPrimarySeed, hes, hans.encryptedPrimarySeed, hf.encryptedSecret, hec, hans.encryptedSecret]
    have hpass : Passes p w seed := by
      unfold Passes
      rw [hnet, hchecksum]
      exact h.passes
    obtain ⟨kept, key, keyIndex, hc, hout⟩ := recovered_of_password (s := ⟨w, t.world.sdk, t.world.server⟩)
      hf.network.symm hpass (by rw [hst]; exact h.onServer) (fun _ => hf.secret) a ho
    exact hout.recovered hc
  · rcases upgradeToV3_spec p a pw t.world with ⟨recovery, ht⟩ | ⟨d, recovery, fromV1, -, -, -, hok, -⟩
    · rw [ht]
      exact ⟨rfl, rfl, rfl, rfl⟩
    · cases ha.symm.trans hok
  · rcases passwordChange_spec p a pw t.world with ht | ⟨enc, -, -, -, hok, -⟩
    · rw [ht]
      exact ⟨rfl, rfl, rfl, rfl⟩
    · cases ha.symm.trans hok

/-! ## The steps -/

theorem lifeInv_unlock {p : Platform Node} {seed : Bytes} {t : Tracked Node} (h : LifeInv p seed t) (a : Answers)
    {o : UnlockOptions} (ho : GivesPassword o t.password) :
    LifeInv p seed { t with world := after (unlock p a o) t.world } := by
  obtain ⟨kept, key, keyIndex, hc, hout⟩ := recovered_of_password h.sameNetwork h.passes h.held h.secret_none a ho
  obtain ⟨⟨k, b, c, ht⟩, -, -⟩ := hout
  rw [ht]
  exact ⟨h.sameNetwork, h.sameVersion, h.passes, h.held, h.onServer, fun _ => ⟨rfl, rfl⟩, fun hl => (by cases hl)⟩

theorem lifeInv_passwordChange {p : Platform Node} (hi : Inverts p) {seed : Bytes} {t : Tracked Node}
    (h : LifeInv p seed t) (a : Answers) (newPassword : Data) :
    LifeInv p seed (lifeStep p t (.passwordChange a newPassword)) := by
  unfold lifeStep
  rcases call_passwordChange p a newPassword t.world with ⟨e, hc⟩ | ⟨enc, mnemonic, hl, -, henc, -, hc⟩ <;>
    simp only [hc]
  · exact h
  · obtain ⟨hseed, hsecret⟩ := h.unlocked hl
    have hw := recover_repassworded hi henc (d := t.world.wallet.stored) rfl (by rw [hsecret]; exact h.held)
    have hs := recover_repassworded hi henc (d := t.world.server.stored) h.sameVersion
      (by rw [hsecret]; exact h.onServer)
    rw [hsecret] at hw hs
    exact ⟨h.sameNetwork, h.sameVersion, h.passes, hw, hs, fun _ => ⟨hseed, hsecret⟩,
      fun hl' => absurd (hl.symm.trans hl') (by decide)⟩

theorem lifeInv_upgradeToV3 {p : Platform Node} (hi : Inverts p) {seed : Bytes} {t : Tracked Node}
    (h : LifeInv p seed t) (a : Answers) (passphrase : Option Data) :
    LifeInv p seed (lifeStep p t (.upgradeToV3 a passphrase)) := by
  unfold lifeStep
  rcases call_upgradeToV3 p a passphrase t.world with
    (⟨e, recovery, hc⟩ | ⟨d, recovery, fromV1, hl, -, hd, -, hc⟩) | ⟨text, hv, -⟩
  · simp only [hc]
    exact ⟨h.sameNetwork, h.sameVersion, h.passes, h.held, h.onServer, h.unlocked, h.locked⟩
  · obtain ⟨hseed, -⟩ := h.unlocked hl
    rw [hseed] at hd
    rcases passphrase with _ | newPassword
    · exact absurd (produceEncryptedDataV3_ok hd).1 (by decide)
    have hsec := (produceEncryptedDataV3_ok hd).2.1
    simp only [hc]
    have hw : recover p (t.world.upgraded recovery d fromV1).wallet.stored newPassword =
        some (seed, some (.buffer a.secret)) := recover_upgraded hi hd rfl rfl rfl
    have hs : recover p (t.world.upgraded recovery d fromV1).server.stored newPassword =
        some (seed, some (.buffer a.secret)) := by
      refine recover_upgraded hi hd rfl ?_ ?_
      · exact congrArg Except.ok (Base64.decode_encode _)
      · exact congrArg Except.ok (Base64.decode_encode _)
    exact ⟨h.sameNetwork, rfl, h.passes, hw, hs, fun _ => ⟨hseed, congrArg (some ∘ Data.buffer) hsec⟩,
      fun hl' => absurd (hl.symm.trans hl') (by decide)⟩
  · exact absurd hv (recover_version h.held text)

/-- **One step.** -/
theorem lifeInv_step {p : Platform Node} (hi : Inverts p) {seed : Bytes} (t : Tracked Node) (op : LifeOp)
    (h : LifeInv p seed t) (hok : UsesCurrent t op) : LifeInv p seed (lifeStep p t op) := by
  cases op with
  | unlock a o => exact lifeInv_unlock h a hok
  | lock =>
    exact ⟨h.sameNetwork, h.sameVersion, h.passes, h.held, h.onServer, fun hl => (by cases hl), fun _ => rfl⟩
  | passwordChange a newPassword => exact lifeInv_passwordChange hi h a newPassword
  | upgradeToV3 a passphrase => exact lifeInv_upgradeToV3 hi h a passphrase

/-! ## Every run -/

/-- A wallet at the start of its life: constructed from stored data, or at the end of `createNewWallet`. Its
password opens the data it has and the data on the server. -/
inductive Begins (p : Platform Node) (seed : Bytes) : Tracked Node → Prop
  | constructed {sdk : Sdk} {args : WalletArgs Node} {w : Wallet Node} {server : ServerWallet} {pw : Data}
      {secret : Option Data} (hw : newWallet sdk args = .ok w) (hv : server.walletVersion = w.walletVersion)
      (hp : Passes p w seed) (held : recover p w.stored pw = some (seed, secret))
      (onServer : recover p server.stored pw = some (seed, secret)) : Begins p seed ⟨⟨w, sdk, server⟩, pw, secret⟩
  | created {sdk : Sdk} {version : WalletVersion} {d : CreatedData Node} {w : Wallet Node}
      {server : ServerWallet} {pw : Data} {secret : Option Data} (a : Answers)
      (hw : createdWallet p sdk version d = .ok w) (hv : server.walletVersion = w.walletVersion)
      (hseed : d.primarySeed = seed) (hsecret : createdSecret version d = secret)
      (held : recover p w.stored pw = some (seed, secret))
      (onServer : recover p server.stored pw = some (seed, secret)) :
      Begins p seed ⟨after (unlock p a (createdUnlockOptions version d)) ⟨w, sdk, server⟩, pw, secret⟩

theorem Begins.lifeInv {p : Platform Node} {seed : Bytes} {t : Tracked Node} (h : Begins p seed t) :
    LifeInv p seed t := by
  cases h with
  | constructed hw hv hp held onServer =>
    have hf := newWallet_fresh hw
    exact ⟨hf.network.symm, hv, hp, held, onServer, fun hl => absurd (hf.locked.symm.trans hl) (by decide),
      fun _ => hf.secret⟩
  | @created sdk version d w server pw secret a hw hv hseed hsecret held onServer =>
    subst hseed
    obtain ⟨root, hr⟩ : ∃ root, p.hd.fromSeedBuffer d.primarySeed sdk.network = .ok root := by
      obtain ⟨root, hr, -⟩ := exists_of_bind_ok hw
      exact ⟨root, hr⟩
    obtain ⟨args, hf, hver, hcs, -⟩ := createdWallet_fresh hw hr
    rw [← hf.network] at hr
    have hver := hf.walletVersion.trans hver
    obtain ⟨kept, hcall⟩ := unlockVersion_created (s := ⟨w, sdk, server⟩)
      (fun text he => recover_version held text (hver.trans he)) hver hf.network.symm hf.secret hr
    have hc : p.hd.getAddress root = w.checksum := (hf.checksum.trans hcs).symm
    rcases unlock_of_key (a := a) hcall with ⟨hne, -⟩ | ⟨-, keyIndex, ⟨⟨k, b, c, ht⟩, -, -⟩⟩
    · exact absurd hc hne
    · rw [ht]
      exact ⟨hf.network.symm, hv, ⟨root, hr, hc⟩, held, onServer, fun _ => ⟨rfl, hsecret⟩,
        fun hl => (by cases hl)⟩

/-- **The encryption over a wallet's life.** In every run, the password last set recovers the seed and the
current secret from both copies, and a failed `updateWallet` leaves the wallet's copy as it was. -/
theorem encryption_lifecycle (p : Platform Node) (hi : Inverts p) (seed : Bytes) (t : Tracked Node)
    (ht : Begins p seed t) (ops : List LifeOp) (hops : Along (lifeStep p) UsesCurrent t ops) :
    Always (lifeStep p) (Recovers p seed) t ops :=
  (always_of_along (lifeInv_step hi) ht.lifeInv hops).mono fun _ => LifeInv.recovers

theorem sample_inverts : Inverts samplePlatform :=
  ⟨fun pt pw salt iv iterations _ _ => samplePlatform_gcm pt pw salt iv iterations, samplePlatform_aes⟩

def sampleTracked : Tracked SampleNode := ⟨⟨sampleWalletV2, sampleSdk, sampleServerV2⟩, .text "right", some (.text "sec")⟩

theorem sample_begins : Begins samplePlatform (sampleRoot "right").seed sampleTracked := by
  have hw : newWallet sampleSdk sampleArgsV2 = .ok sampleWalletV2 := rfl
  exact .constructed hw rfl ⟨sampleRoot "right", rfl, rfl⟩ (by decide +kernel) (by decide +kernel)

theorem passphraseOptions_givesPassword (pw : Data) (h : truthy (some pw) = true) :
    GivesPassword (passphraseOptions pw) pw := by
  refine ⟨?_, ?_, rfl, rfl, rfl, rfl, rfl, rfl⟩
  · unfold UnlockOptions.anyPassword
    rw [show (passphraseOptions pw).passphrase = some pw from rfl, if_pos h]
  · unfold UnlockOptions.conflict
    rw [show (passphraseOptions pw).password = none from rfl]
    simp [truthy]

/-- A password change, then an upgrade that the server refuses and one that it takes. -/
theorem encryption_lifecycle_sample :
    Always (lifeStep samplePlatform) (Recovers samplePlatform (sampleRoot "right").seed) sampleTracked
      [.unlock sampleAnswers (passphraseOptions (.text "right")), .passwordChange sampleAnswers (.text "new"),
        .upgradeToV3 { sampleAnswers with updateWallet := .error ⟨"Error", "offline"⟩ } (some (.text "v3")), .lock,
        .unlock sampleAnswers (passphraseOptions (.text "new")), .upgradeToV3 sampleAnswers (some (.text "v3"))] := by
  refine encryption_lifecycle samplePlatform sample_inverts (sampleRoot "right").seed sampleTracked sample_begins _
    ⟨passphraseOptions_givesPassword _ (by decide), trivial, trivial, trivial, ?_, trivial, trivial⟩
  have hpw : ∀ t : Tracked SampleNode, t.password = .text "new" →
      GivesPassword (passphraseOptions (.text "new")) t.password := fun t ht => by
    rw [ht]
    exact passphraseOptions_givesPassword _ (by decide)
  exact hpw _ (by decide +kernel)

/-- The wallet after an upgrade to version 3. -/
def sampleUpgraded : Tracked SampleNode :=
  [LifeOp.unlock sampleAnswers (passphraseOptions (.text "right")),
    .upgradeToV3 sampleAnswers (some (.text "new"))].foldl (lifeStep samplePlatform) sampleTracked

/-- An upgrade makes a new secret: the password last set does not recover the one before. -/
theorem upgrade_replaces_secret :
    sampleUpgraded.password = .text "new" ∧
      ¬ Recovered samplePlatform (sampleRoot "right").seed sampleTracked.secret
        (after (unlock samplePlatform sampleAnswers (passphraseOptions (.text "new"))) sampleUpgraded.world) := by
  refine ⟨by decide +kernel, fun h => ?_⟩
  have hs := h.secret
  revert hs
  decide +kernel

end JsSdk
