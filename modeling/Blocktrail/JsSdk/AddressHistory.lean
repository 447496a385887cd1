import Blocktrail.JsSdk.Construct
import Blocktrail.JsSdk.KeyState
import Blocktrail.JsSdk.PasswordUnlock
import Blocktrail.JsSdk.Sample
import Blocktrail.JsSdk.SweeperScripts

/-! # Addresses do not depend on history

`primaryPublicKeys` is filled from whatever private key the wallet holds, and never invalidated.
`KeepsAddresses` is the condition under which no operation fills it wrongly, or leaves a wallet with
nothing to fill it from.
-/

open Text Throwing Bitcoin Runs

namespace JsSdk

variable {Node : Type}

/-! ## Runs -/

inductive HistoryOp
  | unlock (a : Answers) (o : UnlockOptions)
  | lock
  | upgradeKeyIndex (a : Answers) (keyIndex : Nat)
  | request (keyIndex chain index : Nat)

def historyStep (p : Platform Node) (s : World Node) : HistoryOp → World Node
  | .unlock a o => after (unlock p a o) s
  | .lock => after lock s
  | .upgradeKeyIndex a keyIndex => after (upgradeKeyIndex p a keyIndex) s
  | .request keyIndex chain index => after (getWalletScriptByPath p (walletPath keyIndex chain index)) s

/-- The account key at `k` is kept. -/
def Kept (s : World Node) (k : Nat) : Prop := (s.wallet.primaryPublicKeys (dec k)).isSome

/-- An unlock gets no root that fails the checksum, or the account key is kept already; a lock comes only when
it is kept; and its key index is upgraded only from a root that passes. -/
def KeepsAddresses (p : Platform Node) (k : Nat) (s : World Node) : HistoryOp → Prop
  | .unlock _ o => Kept s k ∨ ∀ seed key, obtainedSeed p s.wallet o = some seed →
      p.hd.fromSeedBuffer seed s.wallet.network = .ok key → p.hd.getAddress key = s.wallet.checksum
  | .lock => Kept s k
  | .upgradeKeyIndex _ keyIndex => s.wallet.locked = false → keyIndex = k →
      ∀ key, s.wallet.primaryPrivateKey = some key → p.hd.getAddress key = s.wallet.checksum
  | .request _ _ _ => True

/-! ## The property -/

/-- What an address depends on besides the keys: none of the operations changes it. -/
structure SameSettings (w w' : Wallet Node) : Prop where
  network : w'.network = w.network
  checksum : w'.checksum = w.checksum
  backupPublicKey : w'.backupPublicKey = w.backupPublicKey
  useNewCashAddr : w'.useNewCashAddr = w.useNewCashAddr

/-- The account key kept at `k` is the one of `root`, and every path of `k` has the scripts and the address of
`root`, the backup key and the Blocktrail key. -/
structure RightAddresses (p : Platform Node) (w : Wallet Node) (root : Node) (k : Nat) (s : World Node) : Prop where
  entry : ∀ key, s.wallet.primaryPublicKeys (dec k) = some key →
    deriveByPath p.hd root (accountPath k) "m" = .ok key
  scripts : ∃ blocktrail, s.wallet.blocktrailPublicKeys (dec k) = some blocktrail ∧
    ∀ c i, (call (getWalletScriptByPath p (walletPath k c i)) s).1 =
      scriptsFromRoots p w.network w.useNewCashAddr root w.backupPublicKey blocktrail k c i

/-! ## The invariant -/

structure HistoryInv (p : Platform Node) (w : Wallet Node) (root : Node) (k : Nat) (s : World Node) : Prop where
  sameNetwork : SameNetwork s
  settings : SameSettings w s.wallet
  /-- The private key is the root of some seed. -/
  rooted : ∀ key, s.wallet.primaryPrivateKey = some key →
    ∃ seed, p.hd.fromSeedBuffer seed s.wallet.network = .ok key
  entry : ∀ key, s.wallet.primaryPublicKeys (dec k) = some key →
    deriveByPath p.hd root (accountPath k) "m" = .ok key
  /-- An account key that is not kept can be made. -/
  makeable : s.wallet.primaryPublicKeys (dec k) = none → s.wallet.primaryPrivateKey = some root
  blocktrail : (s.wallet.blocktrailPublicKeys (dec k)).isSome

theorem HistoryInv.accountKey {p : Platform Node} {w : Wallet Node} {root : Node} {k : Nat} {s : World Node}
    (h : HistoryInv p w root k s) : accountKey p s.wallet k = deriveByPath p.hd root (accountPath k) "m" := by
  unfold JsSdk.accountKey
  rcases hp : s.wallet.primaryPublicKeys (dec k) with _ | key
  · rw [h.makeable hp]
  · exact (h.entry key hp).symm

theorem HistoryInv.rightAddresses {p : Platform Node} {w : Wallet Node} {root : Node} {k : Nat} {s : World Node}
    (h : HistoryInv p w root k s) : RightAddresses p w root k s := by
  obtain ⟨blocktrail, hb⟩ := Option.isSome_iff_exists.mp h.blocktrail
  refine ⟨h.entry, blocktrail, hb, fun c i => ?_⟩
  rw [getWalletScriptByPath_spec h.accountKey hb, h.settings.network, h.settings.useNewCashAddr,
    h.settings.backupPublicKey]

theorem HistoryInv.of_self {p : Platform Node} {w : Wallet Node} {root : Node} {k : Nat} {s : World Node}
    (h : HistoryInv p w root k s) : HistoryInv p s.wallet root k s :=
  ⟨h.sameNetwork, ⟨rfl, rfl, rfl, rfl⟩, h.rooted, h.entry, h.makeable, h.blocktrail⟩

/-- The wallet's checksum identifies its root. -/
def ChecksumIdentifies (p : Platform Node) (w : Wallet Node) (root : Node) : Prop :=
  ∀ seed key, p.hd.fromSeedBuffer seed w.network = .ok key → p.hd.getAddress key = w.checksum → key = root

/-! ## The steps -/

/-- The account key that an upgrade sets is the one that a path makes. -/
theorem account_of_deriveHardened {lib : HDLib Node} {root child : Node} {k : Nat}
    (h : lib.deriveHardened root k = .ok child) :
    deriveByPath lib root (accountPath k) "m" = .ok (lib.neutered child) := by
  unfold HDLib.deriveHardened at h
  split at h
  · next hk =>
    rw [deriveByPath_accountPath, deriveChunk, if_neg (by simp), chunkIndex_hardened hk, h]
    rfl
  · cases h

/-- An upgrade from the right root, or of another key index, sets no wrong key. -/
theorem KeyIndexOutcome.historyInv {p : Platform Node} {w : Wallet Node} {root : Node} {k keyIndex : Nat}
    {s t : World Node} (ho : KeyIndexOutcome p s keyIndex t) (h : HistoryInv p w root k s)
    (hr : s.wallet.locked = false → keyIndex = k → ∀ key, s.wallet.primaryPrivateKey = some key → key = root) :
    HistoryInv p w root k t := by
  obtain ⟨⟨k', b, c, rfl⟩, hb, hp⟩ := ho
  refine ⟨h.sameNetwork, ⟨h.settings.1, h.settings.2, h.settings.3, h.settings.4⟩, h.rooted, ?_, ?_,
    hb _ h.blocktrail⟩
  · rcases hp with hp | ⟨root', child, hl, hk, hd, hp⟩
    · rw [hp]
      exact h.entry
    · rw [hp]
      by_cases hkk : keyIndex = k
      · subst hkk
        have := hr hl rfl root' hk
        subst this
        intro key hkey
        rw [Function.update_self] at hkey
        cases hkey
        exact account_of_deriveHardened hd
      · rw [Function.update_of_ne fun he => hkk (dec_injective he).symm]
        exact h.entry
  · rcases hp with hp | ⟨root', child, -, -, -, hp⟩
    · rw [hp]
      exact h.makeable
    · rw [hp]
      by_cases hkk : dec k = dec keyIndex
      · rw [hkk, Function.update_self]
        intro hn
        cases hn
      · rw [Function.update_of_ne hkk]
        exact h.makeable

theorem historyInv_unlock {p : Platform Node} {w : Wallet Node} {root : Node} {k : Nat} {s : World Node}
    (huniq : ChecksumIdentifies p w root) (h : HistoryInv p w root k s) (a : Answers) (o : UnlockOptions)
    (hok : KeepsAddresses p k s (.unlock a o)) : HistoryInv p w root k (after (unlock p a o) s) := by
  have hset := h.settings
  rcases unlock_cases p a o s h.sameNetwork with
    ⟨-, secret, kept, ht⟩ | ⟨seed, secret, kept, hs, ⟨e, -, ht⟩ | ⟨key, hr, ⟨hc, ht⟩ | ⟨hc, keyIndex, ho⟩⟩⟩
  · rw [ht]
    exact ⟨h.sameNetwork, ⟨hset.1, hset.2, hset.3, hset.4⟩, h.rooted, h.entry, h.makeable, h.blocktrail⟩
  · rw [ht]
    exact ⟨h.sameNetwork, ⟨hset.1, hset.2, hset.3, hset.4⟩, h.rooted, h.entry, h.makeable, h.blocktrail⟩
  · -- The wrong root is held now: only a kept account key keeps the addresses right.
    rw [ht]
    refine ⟨h.sameNetwork, ⟨hset.1, hset.2, hset.3, hset.4⟩, ?_, h.entry, fun hn => ?_, h.blocktrail⟩
    · intro key' hk
      cases hk
      exact ⟨seed, hr⟩
    · rcases hok with hk | hk
      · exact absurd hk (by unfold Kept; rw [show s.wallet.primaryPublicKeys (dec k) = none from hn]; simp)
      · exact absurd (hk seed key hs hr) hc
  · have hroot : key = root := by
      refine huniq seed key ?_ ?_
      · rw [← hset.network]; exact hr
      · rw [← hset.checksum]; exact hc
    subst hroot
    refine ho.historyInv ⟨h.sameNetwork, ⟨hset.1, hset.2, hset.3, hset.4⟩, ?_, h.entry, fun _ => rfl,
      h.blocktrail⟩ ?_
    · intro key' hk
      cases hk
      exact ⟨seed, hr⟩
    · intro _ _ key' hk
      cases hk
      rfl

/-- An address request leaves the world alone, or keeps the account key it made. -/
theorem after_getWalletScriptByPath (p : Platform Node) (s : World Node) (k c i : Nat) :
    after (getWalletScriptByPath p (walletPath k c i)) s = s ∨
      ∃ key, JsSdk.accountKey p s.wallet k = .ok key ∧
        after (getWalletScriptByPath p (walletPath k c i)) s = s.caching k key := by
  have hprim := getPrimaryPublicKey_spec p s k c i
  unfold getWalletScriptByPath after
  rcases hacc : JsSdk.accountKey p s.wallet k with e | key <;> rw [hacc] at hprim
  · rw [call_bind_error hprim]
    exact Or.inl rfl
  refine Or.inr ⟨key, rfl, ?_⟩
  simp only at hprim
  rcases hc : deriveChain p.hd key c i with e | primary <;> rw [hc] at hprim
  · rw [call_bind_error hprim]
  · rw [call_bind_ok hprim, call_get_bind]
    -- What is left only raises.
    simp only [orRaise_bind, call_orRaise]

theorem historyInv_request {p : Platform Node} {w : Wallet Node} {root : Node} {k : Nat} {s : World Node}
    (h : HistoryInv p w root k s) (k' c i : Nat) :
    HistoryInv p w root k (after (getWalletScriptByPath p (walletPath k' c i)) s) := by
  rcases after_getWalletScriptByPath p s k' c i with ht | ⟨key, hacc, ht⟩ <;> rw [ht]
  · exact h
  refine ⟨h.sameNetwork, ⟨h.settings.1, h.settings.2, h.settings.3, h.settings.4⟩, h.rooted, ?_, ?_, h.blocktrail⟩
  · intro key' hk
    by_cases hkk : k' = k
    · subst hkk
      rw [World.caching_primaryPublicKeys, Function.update_self] at hk
      cases hk
      rw [← h.accountKey, hacc]
    · rw [World.caching_primaryPublicKeys, Function.update_of_ne fun he => hkk (dec_injective he).symm] at hk
      exact h.entry key' hk
  · intro hn
    by_cases hkk : dec k = dec k'
    · rw [World.caching_primaryPublicKeys, hkk, Function.update_self] at hn
      cases hn
    · rw [World.caching_primaryPublicKeys, Function.update_of_ne hkk] at hn
      exact h.makeable hn

/-- **One step.** -/
theorem historyInv_step {p : Platform Node} {w : Wallet Node} {root : Node} {k : Nat}
    (huniq : ChecksumIdentifies p w root) (s : World Node) (op : HistoryOp) (h : HistoryInv p w root k s)
    (hok : KeepsAddresses p k s op) : HistoryInv p w root k (historyStep p s op) := by
  cases op with
  | unlock a o => exact historyInv_unlock huniq h a o hok
  | lock =>
    have hset := h.settings
    refine ⟨h.sameNetwork, ⟨hset.1, hset.2, hset.3, hset.4⟩, fun key hk => (by cases hk), h.entry,
      fun hn => ?_, h.blocktrail⟩
    have hk : Kept s k := hok
    unfold Kept at hk
    rw [show s.wallet.primaryPublicKeys (dec k) = none from hn] at hk
    cases hk
  | upgradeKeyIndex a keyIndex =>
    refine (upgradeKeyIndex_spec p a keyIndex s).historyInv h fun hl hkk key hk => ?_
    obtain ⟨seed, hr⟩ := h.rooted key hk
    refine huniq seed key ?_ ?_
    · rw [← h.settings.network]; exact hr
    · rw [← h.settings.checksum]; exact hok hl hkk key hk
  | request k' c i => exact historyInv_request h k' c i

/-! ## The wallets -/

/-- A wallet that `initWallet` or `createNewWallet` has made: its root, its key index and its world. The
server has sent the Blocktrail key, and `initWallet` also the account key. -/
inductive Built (p : Platform Node) (root : Node) (k : Nat) : World Node → Prop
  | init {sdk : Sdk} {options : InitOptions} {result : ServerResult} {w : Wallet Node} (server : ServerWallet)
      (hw : initWallet p sdk options result = .ok w) (hk : w.keyIndex = k)
      (hp : ∃ key, w.primaryPublicKeys (dec k) = some key ∧
        deriveByPath p.hd root (accountPath k) "m" = .ok key)
      (hb : (w.blocktrailPublicKeys (dec k)).isSome) : Built p root k ⟨w, sdk, server⟩
  | created {sdk : Sdk} {version : WalletVersion} {d : CreatedData Node} {w : Wallet Node}
      (server : ServerWallet) (a : Answers) (hv : ∀ text, version ≠ .other text)
      (hw : createdWallet p sdk version d = .ok w) (hk : w.keyIndex = k)
      (hr : p.hd.fromSeedBuffer d.primarySeed sdk.network = .ok root)
      (hb : (w.blocktrailPublicKeys (dec k)).isSome) :
      Built p root k (after (unlock p a (createdUnlockOptions version d)) ⟨w, sdk, server⟩)

/-- The account key of a new wallet is kept under the text "keyIndex", which is the numeral of nothing. -/
theorem createdPublicKeys_dec (key : Node) (k : Nat) : createdPublicKeys key (dec k) = none := by
  refine if_neg fun h => ?_
  have hmem : 'k' ∈ dec k := by rw [h]; decide
  exact absurd hmem (not_mem_dec (by decide) k)

/-- **A new wallet starts right.** -/
theorem Built.historyInv {p : Platform Node} {root : Node} {k : Nat} {s : World Node} (h : Built p root k s)
    (huniq : ChecksumIdentifies p s.wallet root) : HistoryInv p s.wallet root k s := by
  cases h with
  | @init sdk options result w server hw hk hp hb =>
    obtain ⟨args, hf, -⟩ := initWallet_fresh hw
    obtain ⟨key, hkey, hacc⟩ := hp
    refine ⟨hf.network.symm, ⟨rfl, rfl, rfl, rfl⟩, fun key' hk' => ?_, fun key' hk' => ?_, fun hnone => ?_, hb⟩
    · cases hf.primaryPrivateKey.symm.trans hk'
    · cases hkey.symm.trans hk'
      exact hacc
    · cases hkey.symm.trans hnone
  | @created sdk version d w server a hv hw hk hr hb =>
    obtain ⟨args, hf, hver, hcs, account, hp⟩ := createdWallet_fresh hw hr
    have hn := hf.network
    have hc := hf.checksum.trans hcs
    rw [← hn] at hr
    obtain ⟨kept, hcall⟩ := unlockVersion_created (s := ⟨w, sdk, server⟩) hv (hf.walletVersion.trans hver) hn.symm
      hf.secret hr
    rcases unlock_of_key (a := a) hcall with ⟨hne, -⟩ | ⟨-, keyIndex, ho⟩
    · exact absurd hc.symm hne
    · have h0 : HistoryInv p w root k (World.tried ⟨w, sdk, server⟩ (createdSecret version d) d.primarySeed kept root
          false) := by
        refine ⟨hn.symm, ⟨rfl, rfl, rfl, rfl⟩, fun key hk => ?_, fun key hk => ?_, fun _ => rfl, hb⟩
        · cases hk
          exact ⟨_, hr⟩
        · have hnone := createdPublicKeys_dec account k
          rw [← hp, ← hf.primaryPublicKeys] at hnone
          cases hnone.symm.trans hk
      refine (ho.historyInv h0 fun _ _ key hk => ?_).of_self
      cases hk
      rfl

/-- **Addresses do not depend on history.** In a run whose steps meet the condition, every state has the
addresses of the root, the backup key and the Blocktrail key. -/
theorem addresses_independent_of_history (p : Platform Node) (root : Node) (k : Nat) (s : World Node)
    (hs : Built p root k s) (huniq : ChecksumIdentifies p s.wallet root) (ops : List HistoryOp)
    (hok : Along (historyStep p) (KeepsAddresses p k) s ops) :
    Always (historyStep p) (RightAddresses p s.wallet root k) s ops :=
  (always_of_along (historyInv_step huniq) (hs.historyInv huniq) hok).mono fun _ => HistoryInv.rightAddresses

theorem sample_built : Built samplePlatform (sampleRoot "right") 0 sampleCreatedWorld :=
  .created sampleServer sampleAnswers (fun text h => by cases h) (by rfl) rfl rfl rfl

theorem sample_checksumIdentifies :
    ChecksumIdentifies samplePlatform sampleCreatedWorld.wallet (sampleRoot "right") :=
  fun _ _ hs ha => sampleHD_root_unique rfl rfl hs ha

/-- An address is asked for before a wrong passphrase and a lock. -/
theorem addresses_independent_of_history_sample :
    Always (historyStep samplePlatform)
      (RightAddresses samplePlatform sampleCreatedWorld.wallet (sampleRoot "right") 0) sampleCreatedWorld
      [.request 0 0 5, .lock, .unlock sampleAnswers (passphraseOptions (.text "wrong")),
        .upgradeKeyIndex sampleAnswers 0] := by
  refine addresses_independent_of_history samplePlatform (sampleRoot "right") 0 sampleCreatedWorld sample_built
    sample_checksumIdentifies _ ⟨trivial, ?_, Or.inl ?_, ?_, trivial⟩
  · simp only [KeepsAddresses, Kept]
    decide +kernel
  · unfold Kept
    decide +kernel
  · -- The wrong passphrase has left the wallet locked.
    intro hl
    exact absurd hl (by decide +kernel)

/-- A new wallet that is locked right away has no addresses. And after a wrong passphrase, an address request
keeps a wrong account key, which the right passphrase does not replace. -/
theorem addresses_lost_by_history :
    (¬ RightAddresses samplePlatform sampleCreatedWorld.wallet (sampleRoot "right") 0
      ([HistoryOp.lock].foldl (historyStep samplePlatform) sampleCreatedWorld)) ∧
    ¬ RightAddresses samplePlatform sampleCreatedWorld.wallet (sampleRoot "right") 0
      ([HistoryOp.lock, .unlock sampleAnswers (passphraseOptions (.text "wrong")), .request 0 0 5,
        .unlock sampleAnswers (passphraseOptions (.text "right"))].foldl (historyStep samplePlatform)
          sampleCreatedWorld) := by
  constructor
  · intro h
    obtain ⟨blocktrail, hb, hs⟩ := h.scripts
    have hb' : (after lock sampleCreatedWorld).wallet.blocktrailPublicKeys (dec 0) = some ⟨[3], [], false⟩ := by
      decide +kernel
    cases hb'.symm.trans hb
    have h05 := congrArg (fun r => r.toOption.isSome) (hs 0 5)
    revert h05
    decide +kernel
  · intro h
    have hk := h.entry ⟨(sampleRoot "wrong").seed, [HIGHEST_BIT], false⟩ (by decide +kernel)
    revert hk
    decide +kernel

end JsSdk
