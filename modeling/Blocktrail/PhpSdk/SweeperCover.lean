import Blocktrail.PhpSdk.Sample
import Blocktrail.PhpSdk.SweeperSpec

/-! # What the PHP sweeper covers of the PHP wallet

The wallet issues addresses on the chains of its network and segwit flag. The sweeper looks at chain 0.
-/

open Text Throwing Bitcoin

namespace PhpSdk

variable {Node : Type}

/-- `ws` holds the scripts of a receiving or change address of the wallet. -/
structure Issued (php : BitWasp Node) (w : Wallet Node) (k c n : Nat) (ws : WalletScript) : Prop where
  chain : c = w.chainIndex ∨ c = w.changeIndex
  script : w.getWalletScriptByPath php (walletPath k c n) = .ok ws

/-- No two paths of chain 0 have one address. -/
def Distinct (php : BitWasp Node) (sw : Sweeper Node) : Prop :=
  ∀ k i k' i' a a', sw.createAddress php (walletPath k 0 i) = .ok a → sw.createAddress php (walletPath k' 0 i') = .ok a' →
    a.address = a'.address → k = k' ∧ i = i'

/-- What a sweep has to know of an issued address. -/
def WalletScript.batchEntry (ws : WalletScript) (path : Str) : BatchEntry := ⟨ws.redeemScript, ws.witnessScript, path⟩

/-- The sweeper covers the addresses of a key index. -/
structure Covers (php : BitWasp Node) (w : Wallet Node) (sw : Sweeper Node) (k : Nat) : Prop where
  /-- The batch of an index has its paths, with the address and the scripts of the wallet. -/
  generated : ∀ c n ws, Issued php w k c n ws → ∀ start count, start ≤ n → n < start + count →
    walletPath k c n ∈ Sweeper.batchPaths start count k ∧
      sw.createAddress php (walletPath k c n) = .ok (sweepAddressOf php w.testnet ws.scripts)
  /-- Discovery up to an index reports the unspent outputs of its addresses, with path and scripts. -/
  reported : ∀ c n ws, Issued php w k c n ws → ∀ utxoFinder unspent increment fuel d, Honest utxoFinder unspent →
    Sweeper.Reaches php sw unspent increment k n → sw.discoverWalletFunds php utxoFinder increment fuel = some (.ok d) →
      ∀ u ∈ unspent, u.address = some (w.addressOf php ws) →
        ∃ found, d.utxos.get? (w.addressOf php ws) = some found ∧ u ∈ found.utxos ∧
          (Distinct php sw → found.entry = some (ws.batchEntry (walletPath k c n)))
  /-- The signer of such an output gets the witness script there is. -/
  signed : ∀ c n ws, Issued php w k c n ws → ∀ u info, newSignInfo php (some (ws.batchEntry (walletPath k c n))) u = .ok info →
    ∀ infos signatures, sw.signTransaction php infos = .ok signatures → ∀ j : Nat, infos[j]? = some info →
      ∃ s : InputSignature Node, signatures[j]? = some (some s) ∧ s.signData.p2wsh = ws.witnessScript

/-! ## Where it does -/

theorem newWallet_chains {args : WalletArgs Node} {w : Wallet Node} (h : newWallet args = .ok w) :
    w.isSegwit = args.segwit ∧
      if args.network = "bitcoin".toList then
        w.chainIndex = CHAIN_BTC_DEFAULT ∧
          w.changeIndex = if args.segwit then CHAIN_BTC_SEGWIT else CHAIN_BTC_DEFAULT
      else w.chainIndex = CHAIN_BCC_DEFAULT ∧ w.changeIndex = CHAIN_BCC_DEFAULT := by
  unfold newWallet at h
  simp only at h
  split at h
  · next hn =>
    rw [if_pos hn]
    split at h
    · next hs => cases h; exact ⟨rfl, rfl, by rw [if_pos hs]⟩
    · next hs => cases h; exact ⟨rfl, rfl, by rw [if_neg hs]⟩
  · next hn =>
    rw [if_neg hn]
    split at h <;> cases h
    exact ⟨rfl, rfl, rfl⟩

theorem issued_scripts {php : BitWasp Node} {hd : HDLib Node} {hashes : Hashes} (hs : php.Standard hd hashes)
    (hl : hd.Lawful) {w : Wallet Node} {k c n : Nat} {account backup blocktrail : Node}
    (hk : HasKeys hd w k account backup blocktrail) {ws : WalletScript}
    (h : w.getWalletScriptByPath php (walletPath k c n) = .ok ws) :
    (k < HIGHEST_BIT ∧ c < HIGHEST_BIT ∧ n < HIGHEST_BIT) ∧ SupportsChain w.isSegwit c ∧
      ws.scripts = keyScripts php (w.isSegwit && c == CHAIN_BTC_SEGWIT) (pathKeys hd account backup blocktrail k c n) := by
  have hspec := getWalletScriptByPath_spec hs hl hk c n
  rw [h] at hspec
  split at hspec
  · next hcond =>
    exact ⟨hcond.1, hcond.2, Option.some.inj hspec⟩
  · cases hspec

theorem mem_keys_of_blocktrailKey {sw : Sweeper Node} {k : Nat} {key : BIP32Key Node}
    (h : sw.blocktrailKey (dec k) = some key) : k ∈ sw.blocktrailPublicKeys.keys := by
  have hmem := Assoc.mem_keys_of_lookup h
  unfold Assoc.Object.keys Assoc.keys
  unfold Assoc.keys at hmem
  rw [List.map_map] at hmem
  obtain ⟨e, he, heq⟩ := List.mem_map.mp hmem
  exact List.mem_map.mpr ⟨e, he, dec_injective heq⟩

theorem newSignInfo_mode {php : BitWasp Node} {entry : Option BatchEntry} {u : Utxo} {info : SignInfo}
    (h : newSignInfo php entry u = .ok info) : info.mode = .sign := by
  unfold newSignInfo at h
  split at h
  · cases h
  simp only at h
  split at h
  · cases h; rfl
  · cases h
  · split at h <;> cases h
    rfl

/-- Whatever the witness script, the signer gets none. -/
theorem signTransaction_p2wsh {php : BitWasp Node} {sw : Sweeper Node} {infos : List SignInfo}
    {signatures : List (Option (InputSignature Node))} (h : sw.signTransaction php infos = .ok signatures) {j : Nat}
    {info : SignInfo} (hj : infos[j]? = some info) (hmode : info.mode = .sign) :
    ∃ s, signatures[j]? = some (some s) ∧ s.signData.p2wsh = none := by
  obtain ⟨r, hr, hjr⟩ := mapM_getElem? h hj
  rw [hmode] at hr
  simp only at hr
  rcases hs : sw.signInput php (info.path.getD []) info.redeemScript with e | s
  · rw [hs] at hr
    cases hr
  rw [hs] at hr
  cases hr
  refine ⟨s, hjr, ?_⟩
  obtain ⟨path, -, hs⟩ := exists_of_bind_ok hs
  obtain ⟨key, -, hs⟩ := exists_of_bind_ok hs
  obtain ⟨backupKey, -, hs⟩ := exists_of_bind_ok hs
  cases hs
  rfl

theorem covers_of_chain_zero {php : BitWasp Node} {hd : HDLib Node} {hashes : Hashes} (hs : php.Standard hd hashes)
    (hl : hd.Lawful) {w : Wallet Node} {args : SweeperArgs Node} {sw : Sweeper Node} (hsw : newSweeper php args = .ok sw)
    {k : Nat} {blocktrail : Node} (hroots : SameRoots hd w sw k blocktrail) (hseg : w.isSegwit = false)
    (hchain : w.chainIndex = CHAIN_BTC_DEFAULT) (hchange : w.changeIndex = CHAIN_BTC_DEFAULT) : Covers php w sw k := by
  have hzero : ∀ {c n ws}, Issued php w k c n ws → c = 0 ∧ ws.witnessScript = none ∧
      sw.createAddress php (walletPath k 0 n) = .ok (sweepAddressOf php w.testnet ws.scripts) := by
    intro c n ws h
    have hc : c = CHAIN_BTC_DEFAULT := h.chain.elim (·.trans hchain) (·.trans hchange)
    obtain ⟨⟨hk, hc', hn⟩, -, hscripts⟩ := issued_scripts hs hl hroots.wallet h.script
    have hf : (w.isSegwit && c == CHAIN_BTC_SEGWIT) = false := by rw [hseg]; rfl
    rw [hf] at hscripts
    subst hc
    refine ⟨rfl, congrArg (·.2.1) hscripts, ?_⟩
    rw [hscripts]
    exact createAddress_spec hs hl hsw hroots hk hc' hn
  refine ⟨fun c n ws h start count hlo hhi => ?_, ?_, ?_⟩
  · obtain ⟨rfl, -, hca⟩ := hzero h
    exact ⟨Sweeper.mem_batchPaths.mpr ⟨n, hlo, hhi, rfl⟩, hca⟩
  · intro c n ws h utxoFinder unspent increment fuel d hf hreach hd u hu hua
    obtain ⟨rfl, -, hca⟩ := hzero h
    obtain ⟨⟨found, hfound, hmem⟩, hknown⟩ := Sweeper.discoverWalletFunds_reports hf
      (mem_keys_of_blocktrailKey hroots.sweeper) hreach hca hu hua hd
    refine ⟨found, hfound, hmem, fun hdist => ?_⟩
    obtain ⟨e, k', i, he, hpath, hea⟩ := hknown _ _ hfound
    rw [hpath] at hea
    obtain ⟨rfl, rfl⟩ := hdist k n k' i _ _ hca hea rfl
    -- One path, so one address with its scripts.
    have heq : sweepAddressOf php w.testnet ws.scripts = ⟨_, e.redeem, e.witness⟩ := Except.ok.inj (hca.symm.trans hea)
    have hr : ws.redeemScript = e.redeem := congrArg SweepAddress.redeem heq
    have hw : ws.witnessScript = e.witness := congrArg SweepAddress.witness heq
    rw [he, WalletScript.batchEntry, hr, hw, ← hpath]
  · intro c n ws h u info hinfo infos signatures hsign j hj
    obtain ⟨s, hs', hp⟩ := signTransaction_p2wsh hsign hj (newSignInfo_mode hinfo)
    exact ⟨s, hs', hp.trans (hzero h).2.1.symm⟩

/-! ## Where it does not -/

theorem walletPath_chain_injective {k c i k' c' i' : Nat} (h : walletPath k c i = walletPath k' c' i') : c = c' := by
  have hs := congrArg (List.splitOn '/') h
  rw [splitOn_walletPath, splitOn_walletPath] at hs
  simp only [List.cons.injEq, true_and] at hs
  exact dec_injective hs.2.1

theorem not_covers_of_chain {php : BitWasp Node} {hd : HDLib Node} {hashes : Hashes} (hs : php.Standard hd hashes)
    (hl : hd.Lawful) {w : Wallet Node} {sw : Sweeper Node} {k : Nat} {account backup blocktrail : Node}
    (hkeys : HasKeys hd w k account backup blocktrail) (hk : k < HIGHEST_BIT) (h0 : w.changeIndex ≠ 0)
    (hc : w.changeIndex < HIGHEST_BIT) (hsup : SupportsChain w.isSegwit w.changeIndex) : ¬Covers php w sw k := by
  intro h
  have hspec := getWalletScriptByPath_spec hs hl hkeys w.changeIndex 0
  rw [if_pos ⟨⟨hk, hc, by decide⟩, hsup⟩] at hspec
  obtain ⟨ws, hws, -⟩ := Option.map_eq_some_iff.mp hspec
  have hgen := (h.generated w.changeIndex 0 ws ⟨Or.inr rfl, toOption_eq_some hws⟩ 0 1 (by omega) (by omega)).1
  obtain ⟨i, -, -, hi⟩ := Sweeper.mem_batchPaths.mp hgen
  exact h0 (walletPath_chain_injective hi)

/-- **The sweeper and the wallet.** The sweeper covers exactly the wallets on Bitcoin without segwit. -/
theorem sweeper_covers_iff (php : BitWasp Node) (hd : HDLib Node) (hashes : Hashes) (hl : hd.Lawful)
    (hs : php.Standard hd hashes) (args : WalletArgs Node) (w : Wallet Node) (hw : newWallet args = .ok w)
    (sweeperArgs : SweeperArgs Node) (sw : Sweeper Node) (hsw : newSweeper php sweeperArgs = .ok sw) (k : Nat)
    (blocktrail : Node) (hroots : SameRoots hd w sw k blocktrail) :
    Covers php w sw k ↔ (args.network = "bitcoin".toList ∧ args.segwit = false) ∨ HIGHEST_BIT ≤ k := by
  obtain ⟨hseg, hchains⟩ := newWallet_chains hw
  constructor
  · intro h
    by_contra hcon
    rw [not_or, Nat.not_le] at hcon
    obtain ⟨hnot, hk⟩ := hcon
    have hbad (h0 : w.changeIndex ≠ 0) (hc : w.changeIndex < HIGHEST_BIT)
        (hsup : SupportsChain w.isSegwit w.changeIndex) : ¬Covers php w sw k :=
      not_covers_of_chain hs hl hroots.wallet hk h0 hc hsup
    by_cases hn : args.network = "bitcoin".toList
    · -- A segwit wallet has its change on chain 2.
      have hsegwit : args.segwit = true := by
        rw [← Bool.not_eq_false]
        exact fun hf => hnot ⟨hn, hf⟩
      rw [if_pos hn, if_pos hsegwit] at hchains
      rw [hchains.2, hseg, hsegwit] at hbad
      exact hbad (by decide) (by decide) (by decide) h
    · -- Any other network has its addresses on chain 1.
      rw [if_neg hn] at hchains
      rw [hchains.2] at hbad
      exact hbad (by decide) (by decide) (Or.inr (Or.inl rfl)) h
  · rintro (⟨hn, hf⟩ | hk)
    · rw [if_pos hn, hf] at hchains
      exact covers_of_chain_zero hs hl hsw hroots (hseg.trans hf) hchains.1 hchains.2
    · -- The wallet issues no address for such a key index.
      have hnone : ∀ c n ws, ¬Issued php w k c n ws := fun c n ws h =>
        absurd (issued_scripts hs hl hroots.wallet h.script).1.1 (Nat.not_lt.mpr hk)
      exact ⟨fun c n ws h => absurd h (hnone c n ws), fun c n ws h => absurd h (hnone c n ws),
        fun c n ws h => absurd h (hnone c n ws)⟩

/-- A wallet of the seeds `[1]` and `[2]`. -/
def sampleWalletArgs (segwit : Bool) : WalletArgs SampleNode where
  primaryPublicKeys key := if key = dec 0 then some ⟨⟨[1], [HIGHEST_BIT], false⟩, accountBIP32Path 0⟩ else none
  backupPublicKey := ⟨⟨[2], [], false⟩, ⟨true, []⟩⟩
  blocktrailPublicKeys key := if key = dec 0 then some ⟨⟨[3], [], false⟩, accountBIP32Path 0⟩ else none
  keyIndex := 0
  network := "bitcoin"
  testnet := false
  segwit := segwit

def sampleWallet (segwit : Bool) : Wallet SampleNode :=
  (newWallet (sampleWalletArgs segwit)).toOption.get (by cases segwit <;> rfl)

def sampleSweeperArgs : SweeperArgs SampleNode where
  primarySeed := [1]
  backupSeed := [2]
  blocktrailPublicKeys := [(0, ⟨⟨[3], [], false⟩, accountBIP32Path 0⟩)]
  network := "btc"
  testnet := false

def sampleSweeper : Sweeper SampleNode :=
  (newSweeper sampleBitWasp sampleSweeperArgs).toOption.get rfl

theorem sampleRoots (segwit : Bool) : SameRoots sampleHD (sampleWallet segwit) sampleSweeper 0 ⟨[3], [], false⟩ := by
  cases segwit
  · exact ⟨rfl, ⟨rfl, rfl, rfl, rfl, rfl, rfl⟩, rfl⟩
  · exact ⟨rfl, ⟨rfl, rfl, rfl, rfl, rfl, rfl⟩, rfl⟩

theorem sweeper_covers_legacy : Covers sampleBitWasp (sampleWallet false) sampleSweeper 0 :=
  (sweeper_covers_iff sampleBitWasp sampleHD sampleHashes sampleHD_lawful sampleBitWasp_standard
    (sampleWalletArgs false) (sampleWallet false) rfl sampleSweeperArgs sampleSweeper rfl 0 ⟨[3], [], false⟩
    (sampleRoots false)).mpr (Or.inl ⟨rfl, rfl⟩)

/-- The change addresses of a segwit wallet are on chain 2. -/
theorem sweeper_misses_segwit_change : ¬Covers sampleBitWasp (sampleWallet true) sampleSweeper 0 :=
  not_covers_of_chain sampleBitWasp_standard sampleHD_lawful (sampleRoots true).wallet (by decide) (by decide)
    (by decide) (by decide)

end PhpSdk
