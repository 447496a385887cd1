import Blocktrail.Lib.Runs
import Blocktrail.JsSdk.Sample
import Blocktrail.JsSdk.UnlockSpec
import Blocktrail.JsSdk.UpgradeSpec

/-! # The keys a wallet holds

An unlocked wallet should hold the root that passes its checksum, a locked one no key. The checksum is
compared last, so an unlock that gets to a seed with another checksum leaves that seed and its root.
-/

open Text Throwing Bitcoin Runs

namespace JsSdk

variable {Node : Type}

/-! ## Runs -/

inductive Op
  | unlock (a : Answers) (o : UnlockOptions)
  | lock
  | upgradeKeyIndex (a : Answers) (keyIndex : Nat)
  | upgradeToV3 (a : Answers) (passphrase : Option Data)
  | passwordChange (a : Answers) (newPassword : Data)

def step (p : Platform Node) (s : World Node) : Op → World Node
  | .unlock a o => after (unlock p a o) s
  | .lock => after lock s
  | .upgradeKeyIndex a keyIndex => after (upgradeKeyIndex p a keyIndex) s
  | .upgradeToV3 a passphrase => after (upgradeToV3 p a passphrase) s
  | .passwordChange a newPassword => after (passwordChange p a newPassword) s

/-! ## The invariant -/

/-- An unlocked wallet holds the root of its seed, with the address of its checksum. -/
structure KeyState (p : Platform Node) (w : Wallet Node) : Prop where
  unlocked : w.locked = false → ∃ seed key, w.primarySeed = some seed ∧ w.primaryPrivateKey = some key ∧
    p.hd.fromSeedBuffer seed w.network = .ok key ∧ p.hd.getAddress key = w.checksum
  locked : w.locked = true → w.primaryPrivateKey = none ∧ w.primarySeed = none

/-- `pay`, up to the key that the inputs are signed with. -/
def payKey (w : Wallet Node) : Except JsError (Option Node) :=
  if w.locked then .error ⟨"WalletLockedError", "Wallet needs to be unlocked to send coins"⟩
  else .ok w.primaryPrivateKey

/-- An upgrade sends the server only a seed that passes, and `pay` signs only with the root of one. -/
structure UsesPassing (p : Platform Node) (s : World Node) : Prop where
  upgrade : ∀ a passphrase, (after (upgradeToV3 p a passphrase) s).server = s.server ∨
    ∃ seed, Passes p s.wallet seed ∧ (after (upgradeToV3 p a passphrase) s).server.encryptedPrimarySeed =
      some (Base64.encode (p.gcmEncrypt seed a.secret a.seedSalt a.seedIV subkeyIterations))
  pay : ∀ key, payKey s.wallet = .ok (some key) → p.hd.getAddress key = s.wallet.checksum

/-- An unlock meets the condition when the seed that its options give, if they give one, passes. -/
def ObtainsPassing (p : Platform Node) (s : World Node) : Op → Prop
  | .unlock _ o => ∀ seed, obtainedSeed p s.wallet o = some seed → Passes p s.wallet seed
  | _ => True

theorem KeyState.congr {p : Platform Node} {w w' : Wallet Node} (h : KeyState p w)
    (hl : w'.locked = w.locked) (hs : w'.primarySeed = w.primarySeed)
    (hk : w'.primaryPrivateKey = w.primaryPrivateKey) (hn : w'.network = w.network)
    (hc : w'.checksum = w.checksum) : KeyState p w' := by
  constructor
  · rw [hl, hs, hk, hn, hc]
    exact h.unlocked
  · rw [hl, hs, hk]
    exact h.locked

theorem KeyIndexOutcome.keyState {p : Platform Node} {s t : World Node} {keyIndex : Nat}
    (ho : KeyIndexOutcome p s keyIndex t) (h : KeyState p s.wallet) : KeyState p t.wallet := by
  obtain ⟨⟨k, b, c, rfl⟩, _, _⟩ := ho
  exact h.congr rfl rfl rfl rfl rfl

theorem UpgradeOutcome.keyState {p : Platform Node} {a : Answers} {passphrase : Option Data}
    {s t : World Node} (ho : UpgradeOutcome p a passphrase s t) (h : KeyState p s.wallet) :
    KeyState p t.wallet := by
  rcases ho with ⟨recovery, rfl⟩ | ⟨d, recovery, fromV1, -, -, -, -, rfl⟩
  · exact h.congr rfl rfl rfl rfl rfl
  · exact h.congr rfl rfl rfl rfl rfl

theorem PasswordOutcome.keyState {p : Platform Node} {a : Answers} {newPassword : Data}
    {s t : World Node} (ho : PasswordOutcome p a newPassword s t) (h : KeyState p s.wallet) :
    KeyState p t.wallet := by
  rcases ho with rfl | ⟨enc, -, -, -, -, rfl⟩
  · exact h
  · exact h.congr rfl rfl rfl rfl rfl

/-- A wallet that holds a seed keeps the invariant only if the seed passes. -/
theorem KeyState.passes {p : Platform Node} {w : Wallet Node} {seed : Bytes} (h : KeyState p w)
    (hs : w.primarySeed = some seed) : Passes p w seed := by
  rcases hl : w.locked
  · obtain ⟨seed', key, hs', -, hr, hc⟩ := h.unlocked hl
    rw [hs] at hs'
    cases hs'
    exact ⟨key, hr, hc⟩
  · rw [(h.locked hl).2] at hs
    cases hs

/-- **One unlock.** It keeps the invariant exactly when the seed it gets, if any, passes. -/
theorem keyState_unlock_iff (p : Platform Node) (a : Answers) (o : UnlockOptions) (s : World Node)
    (hn : s.sdk.network = s.wallet.network) (h : KeyState p s.wallet) :
    KeyState p (after (unlock p a o) s).wallet ↔
      ∀ seed, obtainedSeed p s.wallet o = some seed → Passes p s.wallet seed := by
  rcases unlock_cases p a o s hn with ⟨hnone, secret, kept, ht⟩ | ⟨seed, secret, kept, hsome, hcase⟩
  · rw [ht, hnone]
    exact ⟨fun _ seed hs => (by cases hs), fun _ => h.congr rfl rfl rfl rfl rfl⟩
  rw [hsome]
  simp only [Option.some.injEq, forall_eq']
  rcases hcase with ⟨e, hr, ht⟩ | ⟨key, hr, ⟨hc, ht⟩ | ⟨hc, keyIndex, ho⟩⟩
  · -- The seed is assigned, and has no root.
    rw [ht]
    refine ⟨fun hk => hk.passes rfl, ?_⟩
    rintro ⟨key, hr', -⟩
    rw [hr] at hr'
    cases hr'
  · -- The seed and the root are assigned before the checksum is compared.
    rw [ht]
    refine ⟨fun hk => hk.passes rfl, ?_⟩
    rintro ⟨key', hr', hc'⟩
    rw [hr] at hr'
    cases hr'
    exact absurd hc' hc
  · refine ⟨fun _ => ⟨key, hr, hc⟩, fun _ => ho.keyState ⟨fun _ => ?_, fun hl => (by cases hl)⟩⟩
    exact ⟨seed, key, rfl, rfl, hr, hc⟩

/-! ## The networks -/

/-- The `sdk` and the wallet are on one network. -/
def SameNetwork (s : World Node) : Prop := s.sdk.network = s.wallet.network

theorem sameNetwork_step (p : Platform Node) (s : World Node) (op : Op) (h : SameNetwork s) :
    SameNetwork (step p s op) := by
  cases op with
  | unlock a o =>
    show SameNetwork (after (unlock p a o) s)
    rcases unlock_cases p a o s h with
      ⟨-, secret, kept, ht⟩ | ⟨seed, secret, kept, -, ⟨e, -, ht⟩ | ⟨key, -, ⟨-, ht⟩ | ⟨-, keyIndex, ho⟩⟩⟩
    · rw [ht]; exact h
    · rw [ht]; exact h
    · rw [ht]; exact h
    · obtain ⟨⟨k, b, c, ht⟩, _, _⟩ := ho
      rw [ht]; exact h
  | lock => exact h
  | upgradeKeyIndex a keyIndex =>
    show SameNetwork (after (upgradeKeyIndex p a keyIndex) s)
    obtain ⟨⟨k, b, c, ht⟩, _, _⟩ := upgradeKeyIndex_spec p a keyIndex s
    rw [ht]; exact h
  | upgradeToV3 a passphrase =>
    show SameNetwork (after (upgradeToV3 p a passphrase) s)
    rcases upgradeToV3_spec p a passphrase s with ⟨recovery, ht⟩ | ⟨d, recovery, fromV1, -, -, -, -, ht⟩
    · rw [ht]; exact h
    · rw [ht]; exact h
  | passwordChange a newPassword =>
    show SameNetwork (after (passwordChange p a newPassword) s)
    rcases passwordChange_spec p a newPassword s with ht | ⟨enc, -, -, -, -, ht⟩
    · rw [ht]; exact h
    · rw [ht]; exact h

/-! ## Every run -/

theorem keyState_step_iff (p : Platform Node) (s : World Node) (op : Op) (hn : SameNetwork s)
    (h : KeyState p s.wallet) : KeyState p (step p s op).wallet ↔ ObtainsPassing p s op := by
  cases op with
  | unlock a o => exact keyState_unlock_iff p a o s hn h
  | lock => exact iff_of_true ⟨fun hl => (by cases hl), fun _ => ⟨rfl, rfl⟩⟩ trivial
  | upgradeKeyIndex a keyIndex => exact iff_of_true ((upgradeKeyIndex_spec p a keyIndex s).keyState h) trivial
  | upgradeToV3 a passphrase => exact iff_of_true ((upgradeToV3_spec p a passphrase s).keyState h) trivial
  | passwordChange a newPassword =>
    exact iff_of_true ((passwordChange_spec p a newPassword s).keyState h) trivial

/-- In a state that meets the invariant, no seed and no key is used that the checksum refused. -/
theorem KeyState.usesPassing {p : Platform Node} {s : World Node} (h : KeyState p s.wallet) :
    UsesPassing p s := by
  refine ⟨fun a passphrase => ?_, fun key hk => ?_⟩
  · rcases upgradeToV3_spec p a passphrase s with ⟨recovery, ht⟩ | ⟨d, recovery, fromV1, hl, -, hd, -, ht⟩
    · rw [ht]
      exact Or.inl rfl
    · obtain ⟨seed, key, hs, -, hr, hc⟩ := h.unlocked hl
      rw [ht]
      refine Or.inr ⟨seed, ⟨key, hr, hc⟩, ?_⟩
      rw [hs] at hd
      obtain ⟨-, -, he, -⟩ := produceEncryptedDataV3_ok hd
      rw [← he]
      rfl
  · unfold payKey at hk
    split at hk
    · cases hk
    · next hl =>
      obtain ⟨seed, key', -, hk', -, hc⟩ := h.unlocked (by simpa using hl)
      rw [hk'] at hk
      cases hk
      exact hc

theorem newWallet_keyState {p : Platform Node} {sdk : Sdk} {args : WalletArgs Node} {w : Wallet Node}
    (hw : newWallet sdk args = .ok w) : KeyState p w ∧ w.network = sdk.network := by
  unfold newWallet at hw
  split at hw
  · cases hw
  · cases hw
    exact ⟨⟨fun hl => (by cases hl), fun _ => ⟨rfl, rfl⟩⟩, rfl⟩

/-- **Key state.** A run of a new wallet keeps to the invariant, and uses no seed that failed the
checksum, exactly when no unlock of it gets to such a seed. -/
theorem key_state_of_checked_unlocks (p : Platform Node) (sdk : Sdk) (args : WalletArgs Node) (w : Wallet Node)
    (server : ServerWallet) (hw : newWallet sdk args = .ok w) (ops : List Op) :
    Always (step p) (fun s => KeyState p s.wallet ∧ UsesPassing p s) ⟨w, sdk, server⟩ ops ↔
      Along (step p) (ObtainsPassing p) ⟨w, sdk, server⟩ ops := by
  obtain ⟨h0, hn⟩ := newWallet_keyState (p := p) hw
  have hstep : ∀ s op, (SameNetwork s ∧ KeyState p s.wallet) →
      ((SameNetwork (step p s op) ∧ KeyState p (step p s op).wallet) ↔ ObtainsPassing p s op) := by
    rintro s op ⟨hs, hk⟩
    rw [← keyState_step_iff p s op hs hk]
    exact ⟨And.right, And.intro (sameNetwork_step p s op hs)⟩
  have hsame : SameNetwork (⟨w, sdk, server⟩ : World Node) := hn.symm
  rw [← always_iff_along hstep ⟨hsame, h0⟩]
  constructor
  · intro h
    exact (always_of_step (sameNetwork_step p) ops hsame).and (h.mono fun s hs => hs.1)
  · exact Always.mono fun s hs => ⟨hs.2, hs.2.usesPassing⟩

/-- A right passphrase, an upgrade and a lock. -/
theorem key_state_of_checked_unlocks_sample :
    Always (step samplePlatform) (fun s => KeyState samplePlatform s.wallet ∧ UsesPassing samplePlatform s)
      sampleWorld [.unlock sampleAnswers (passphraseOptions (.text "right")),
        .upgradeToV3 sampleAnswers (some (.text "new")), .lock] := by
  refine (key_state_of_checked_unlocks samplePlatform sampleSdk sampleArgs sampleWallet sampleServer rfl _).mpr
    ⟨?_, trivial, trivial, trivial⟩
  intro seed hs
  have hseed : obtainedSeed samplePlatform sampleWallet (passphraseOptions (.text "right")) =
      some (sampleRoot "right").seed := by decide +kernel
  cases hseed.symm.trans hs
  exact ⟨sampleRoot "right", rfl, rfl⟩

/-- A wrong passphrase leaves its root in a locked wallet. Tried on an unlocked wallet, it leaves the
wallet unlocked, and an upgrade then encrypts the wrong seed for the server. -/
theorem key_state_broken_by_wrong_passphrase :
    (¬ KeyState samplePlatform
      ([Op.unlock sampleAnswers (passphraseOptions (.text "wrong"))].foldl (step samplePlatform)
        sampleWorld).wallet) ∧
    ([Op.unlock sampleAnswers (passphraseOptions (.text "right")),
      .unlock sampleAnswers (passphraseOptions (.text "wrong")),
      .upgradeToV3 sampleAnswers (some (.text "new"))].foldl (step samplePlatform)
        sampleWorld).server.encryptedPrimarySeed =
      some (Base64.encode (samplePlatform.gcmEncrypt (sampleRoot "wrong").seed sampleAnswers.secret
        sampleAnswers.seedSalt sampleAnswers.seedIV subkeyIterations)) ∧
    sampleHD.getAddress (sampleRoot "wrong") ≠ sampleWallet.checksum := by
  refine ⟨fun h => ?_, by decide +kernel, by decide +kernel⟩
  have hk := (h.locked (by decide +kernel)).1
  revert hk
  decide +kernel

end JsSdk
