import Blocktrail.JsSdk.KeyState
import Blocktrail.JsSdk.ScriptsSpec
import Blocktrail.JsSdk.Sweeper

/-! # The sweeper finds the scripts of the wallet -/

open Text Throwing Bitcoin

namespace JsSdk

variable {Node : Type}

/-! ## One wallet, one sweeper -/

/-- A wallet and a sweeper of the same roots. The wallet has kept the account key, or can make it. -/
structure SameRoots (p : Platform Node) (w : Wallet Node) (sw : Sweeper Node) (k : Nat) : Prop where
  account : accountKey p w k = deriveByPath p.hd sw.primaryPrivateKey (accountPath k) "m"
  backup : sw.backupPublicKey = w.backupPublicKey
  primary_private : p.hd.isNeutered sw.primaryPrivateKey = false
  backup_public : p.hd.isNeutered w.backupPublicKey = true
  blocktrail : ∀ key, sw.blocktrailPublicKeys.get? key = w.blocktrailPublicKeys key
  network : sw.network = w.network

def Sweeper.Address.scripts (a : Sweeper.Address) : Bytes × Option Bytes × Bytes :=
  (a.redeem, a.witness, a.scriptPubKey)

/-! ## Both routes to the keys -/

/-- The scripts of a path: none where an index is too large for the backup key. -/
def pathScripts (p : Platform Node) (root backup blocktrail : Node) (k c i : Nat) :
    Option (Bytes × Option Bytes × Bytes) :=
  if k < HIGHEST_BIT ∧ c < HIGHEST_BIT ∧ i < HIGHEST_BIT then
    some (keyScripts p (c == CHAIN_BTC_SEGWIT)
      (pathKeys p.hd (p.hd.child root (k + HIGHEST_BIT)) backup blocktrail k c i))
  else none

/-- The route of the wallet: over the public account key. -/
theorem scriptsFromRoots_scripts {p : Platform Node} (hl : p.hd.Lawful) {root backup : Node}
    (hr : p.hd.isNeutered root = false) (hb : p.hd.isNeutered backup = true) (network : Network) (cash : Bool)
    (blocktrail : Node) (k c i : Nat) :
    (scriptsFromRoots p network cash root backup blocktrail k c i).toOption.map WalletScripts.scripts =
      pathScripts p root backup blocktrail k c i := by
  rw [scriptsFromRoots, deriveByPath_accountPath, toOption_bind, toOption_map]
  by_cases hk : k < HIGHEST_BIT
  · rw [deriveChunk_hardened p.hd hr hk]
    show (scriptsFromAccount p network cash (p.hd.neutered (p.hd.child root (k + HIGHEST_BIT))) backup blocktrail
      k c i).toOption.map _ = _
    rw [scriptsFromAccount_scripts hl hb, pathScripts]
    by_cases hi : k < HIGHEST_BIT ∧ c < HIGHEST_BIT ∧ i < HIGHEST_BIT
    · rw [if_pos hi, if_pos hi, pathKeys_neutered hl _ _ _ _ hi.2.1 hi.2.2]
    · rw [if_neg hi, if_neg hi]
  · rw [pathScripts, if_neg fun h => hk h.1]
    rcases (deriveChunk p.hd root (dec k ++ [apostrophe])).toOption with _ | account
    · rfl
    · show (scriptsFromAccount p network cash (p.hd.neutered account) backup blocktrail k c i).toOption.map _ = _
      rw [scriptsFromAccount_scripts hl hb, if_neg fun h => hk h.1]

/-- The route of the sweeper: over private keys down to the index. -/
theorem createAddress_scripts {p : Platform Node} (hl : p.hd.Lawful) {sw : Sweeper Node}
    (hr : p.hd.isNeutered sw.primaryPrivateKey = false) (hb : p.hd.isNeutered sw.backupPublicKey = true)
    {blocktrail : Node} {k : Nat} (hbt : sw.blocktrailPublicKeys.get? (dec k) = some blocktrail) (c i : Nat) :
    (sw.createAddress p (walletPath k c i)).toOption.map Sweeper.Address.scripts =
      pathScripts p sw.primaryPrivateKey sw.backupPublicKey blocktrail k c i := by
  have hbu := backup_toOption p.hd hl hb k c i
  have hkey : sw.getBlocktrailPublicKey (walletPath k c i) = .ok blocktrail := by
    unfold Sweeper.getBlocktrailPublicKey
    simp only [replaceFirst_m_walletPath, keyIndexOf_walletPath, ok_bind]
    rw [hbt]
    rfl
  simp only [Sweeper.createAddress, replaceFirst_m_walletPath, keyIndexOf_walletPath,
    toOption_bind, deriveByPath_root, toOption_map, hkey, isWitnessPath_walletPath]
  rw [deriveByPath_backup]
  by_cases hi : k < HIGHEST_BIT ∧ c < HIGHEST_BIT ∧ i < HIGHEST_BIT
  · obtain ⟨hk, hc, hi'⟩ := hi
    rw [if_pos ⟨hk, hc, hi'⟩] at hbu
    obtain ⟨ws, hws, hsc⟩ := scriptsOfKeys_ok p sw.network false (c == CHAIN_BTC_SEGWIT)
      (pathKeys p.hd (p.hd.child sw.primaryPrivateKey (k + HIGHEST_BIT)) sw.backupPublicKey blocktrail k c i)
    rw [pathScripts, if_pos ⟨hk, hc, hi'⟩, ← hsc]
    rw [deriveChunk_hardened p.hd hr hk, hbu]
    simp only [Except.toOption, Option.map_some, Option.bind_some, deriveChain_lt p.hd _ hc hi',
      deriveByPath_walletPath, keyPathOf_dec, hl.getPublicKeyBuffer_neutered]
    rw [pathKeys] at hws
    rw [hws]
    rfl
  · rw [if_neg hi] at hbu
    rw [pathScripts, if_neg hi, hbu]
    simp

/-! ## Agreement -/

def issuedScripts (p : Platform Node) (s : World Node) (k c i : Nat) : Option (Bytes × Option Bytes × Bytes) :=
  (call (getWalletScriptByPath p (walletPath k c i)) s).1.toOption.map WalletScripts.scripts

def sweptScripts (p : Platform Node) (sw : Sweeper Node) (k c i : Nat) : Option (Bytes × Option Bytes × Bytes) :=
  (sw.createAddress p (walletPath k c i)).toOption.map Sweeper.Address.scripts

/-- The two agree on a path, and on Bitcoin Cash neither has a witness script. -/
structure Agree (p : Platform Node) (s : World Node) (sw : Sweeper Node) (k c i : Nat) : Prop where
  same : issuedScripts p s k c i = sweptScripts p sw k c i
  noWitness : s.wallet.network.isBitcoinCash = true → ∀ redeem witness spk,
    (issuedScripts p s k c i = some (redeem, witness, spk) ∨ sweptScripts p sw k c i = some (redeem, witness, spk)) →
      witness = none

theorem scripts_eq {p : Platform Node} (hl : p.hd.Lawful) {s : World Node} {sw : Sweeper Node} {k : Nat}
    (hs : SameRoots p s.wallet sw k) {blocktrail : Node} (hk : sw.blocktrailPublicKeys.get? (dec k) = some blocktrail)
    (c i : Nat) :
    issuedScripts p s k c i = pathScripts p sw.primaryPrivateKey sw.backupPublicKey blocktrail k c i ∧
      sweptScripts p sw k c i = pathScripts p sw.primaryPrivateKey sw.backupPublicKey blocktrail k c i := by
  have hb : p.hd.isNeutered sw.backupPublicKey = true := by rw [hs.backup]; exact hs.backup_public
  refine ⟨?_, createAddress_scripts hl hs.primary_private hb hk c i⟩
  rw [issuedScripts, getWalletScriptByPath_spec hs.account (by rw [← hs.blocktrail]; exact hk), ← hs.backup]
  exact scriptsFromRoots_scripts hl hs.primary_private hb _ _ _ k c i

/-- **Wallet and sweeper.** They agree, except where Bitcoin Cash meets chain 2: both then make a witness
script. -/
theorem sweeper_agrees_iff (p : Platform Node) (hl : p.hd.Lawful) (s : World Node) (sw : Sweeper Node) (k : Nat)
    (hs : SameRoots p s.wallet sw k) (blocktrail : Node)
    (hk : sw.blocktrailPublicKeys.get? (dec k) = some blocktrail) (c i : Nat) :
    Agree p s sw k c i ↔
      s.wallet.network.isBitcoinCash = false ∨ c ≠ CHAIN_BTC_SEGWIT ∨ HIGHEST_BIT ≤ k ∨ HIGHEST_BIT ≤ i := by
  obtain ⟨hi, hw⟩ := scripts_eq hl hs hk c i
  constructor
  · intro h
    by_contra hcon
    simp only [not_or, Bool.not_eq_false, ne_eq, not_not, Nat.not_le] at hcon
    obtain ⟨hcash, rfl, hk', hi'⟩ := hcon
    rw [pathScripts, if_pos ⟨hk', by decide, hi'⟩] at hi
    have := h.noWitness hcash _ _ _ (Or.inl hi)
    simp at this
  · intro h
    refine ⟨hi.trans hw.symm, fun hcash redeem witness spk hsc => ?_⟩
    rw [hi, hw, or_self] at hsc
    unfold pathScripts at hsc
    split at hsc
    · next hlt =>
      have hc : (c == CHAIN_BTC_SEGWIT) = false := by
        rw [beq_eq_false_iff_ne]
        rcases h with h | h | h | h
        · rw [hcash] at h; cases h
        · exact h
        · exact absurd hlt.1 (Nat.not_lt.mpr h)
        · exact absurd hlt.2.2 (Nat.not_lt.mpr h)
      rw [hc] at hsc
      cases hsc
      rfl
    · cases hsc

/-- An unlocked wallet of the mnemonic `abandon`, on a network. -/
def sampleUnlocked (bitcoinCash : Bool) : World SampleNode :=
  let sdk : Sdk := { sampleSdk with bitcoinCash := bitcoinCash }
  after (unlock samplePlatform sampleAnswers (passphraseOptions (.text "right")))
    ⟨{ sampleWallet with network := sdk.network }, sdk, sampleServer⟩

def sampleSweeper (network : Network) : Sweeper SampleNode where
  primaryPrivateKey := sampleRoot "right"
  backupPublicKey := sampleArgs.backupPublicKey
  blocktrailPublicKeys := .set .empty (dec 0) ⟨[3], [], false⟩
  network := network

theorem sampleRoots (bitcoinCash : Bool) :
    SameRoots samplePlatform (sampleUnlocked bitcoinCash).wallet
      (sampleSweeper (networkOf bitcoinCash false)) 0 := by
  have hkeys : ∀ key, (sampleSweeper (networkOf bitcoinCash false)).blocktrailPublicKeys.get? key =
      sampleArgs.blocktrailPublicKeys key := fun key => Assoc.Object.get?_set _ _ _ _
  cases bitcoinCash
  · exact ⟨by decide +kernel, rfl, rfl, rfl, hkeys, rfl⟩
  · exact ⟨by decide +kernel, rfl, rfl, rfl, hkeys, rfl⟩

theorem sweeper_agrees_bitcoin : Agree samplePlatform (sampleUnlocked false) (sampleSweeper .bitcoin) 0 2 5 :=
  (sweeper_agrees_iff samplePlatform sampleHD_lawful (sampleUnlocked false) (sampleSweeper .bitcoin) 0
    (sampleRoots false) ⟨[3], [], false⟩ rfl 2 5).mpr (Or.inl rfl)

/-- On Bitcoin Cash both make a witness script for `M/0'/2/5`. -/
theorem sweeper_witness_on_bitcoin_cash :
    ¬ Agree samplePlatform (sampleUnlocked true) (sampleSweeper .bitcoincash) 0 2 5 := by
  intro h
  have hk : (sampleSweeper .bitcoincash).blocktrailPublicKeys.get? (dec 0) = some ⟨[3], [], false⟩ := rfl
  have hi := (scripts_eq sampleHD_lawful (sampleRoots true) hk 2 5).1
  rw [pathScripts, if_pos (by decide)] at hi
  cases h.noWitness rfl _ _ _ (Or.inl hi)

end JsSdk
