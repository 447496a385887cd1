import Blocktrail.PhpSdk.Sweeper
import Blocktrail.PhpSdk.WalletSpec

/-! # Addresses and discovery of the PHP sweeper -/

open Text Throwing Bitcoin

namespace PhpSdk

variable {Node : Type}

theorem newSweeper_spec {php : BitWasp Node} {args : SweeperArgs Node} {sw : Sweeper Node}
    (h : newSweeper php args = .ok sw) :
    sw.network = "bitcoin".toList ∧
      ∃ root backup, php.fromEntropy args.primarySeed = some root ∧ php.fromEntropy args.backupSeed = some backup ∧
        sw.primaryPrivateKey = ⟨root, ⟨false, []⟩⟩ ∧ sw.backupPrivateKey = ⟨backup, ⟨false, []⟩⟩ := by
  obtain ⟨⟨network, testnet⟩, hn, h⟩ := exists_of_bind_ok h
  obtain ⟨root, hr, h⟩ := exists_of_bind_ok h
  obtain ⟨backup, hb, h⟩ := exists_of_bind_ok h
  cases h
  refine ⟨?_, root, backup, ?_, ?_, rfl, rfl⟩
  · unfold normalizeNetwork at hn
    simp only at hn
    split at hn
    · cases hn
      rfl
    · split at hn <;> cases hn
      rfl
  · unfold fromEntropy at hr
    split at hr <;> cases hr
    assumption
  · unfold fromEntropy at hb
    split at hb <;> cases hb
    assumption

/-- No sweeper takes the network of a Bitcoin Cash wallet. -/
theorem newSweeper_bitcoincash {php : BitWasp Node} {args : SweeperArgs Node}
    (h : args.network = "bitcoincash".toList) :
    newSweeper php args = .error ⟨"Exception", "Unknown network [" ++ args.network ++ "]"⟩ := by
  unfold newSweeper normalizeNetwork
  rw [h]
  rfl

/-! ## Addresses -/

/-- A wallet and a sweeper of the same network, the same roots and the same Blocktrail key. -/
structure SameRoots (hd : HDLib Node) (w : Wallet Node) (sw : Sweeper Node) (k : Nat) (blocktrail : Node) : Prop where
  testnet : w.testnet = sw.testnet
  wallet : HasKeys hd w k (hd.neutered (hd.child sw.primaryPrivateKey.key (k + HIGHEST_BIT)))
    (hd.neutered sw.backupPrivateKey.key) blocktrail
  sweeper : sw.blocktrailKey (dec k) = some ⟨blocktrail, accountBIP32Path k⟩

def sweepAddressOf (php : BitWasp Node) (testnet : Bool) (scripts : Bytes × Option Bytes × Bytes) : SweepAddress :=
  ⟨php.outputAddress (bitcoinNetwork testnet) scripts.2.2, scripts.1, scripts.2.1⟩

theorem derivePrivate {hd : HDLib Node} {root : Node} (hr : hd.isNeutered root = false) {k : Nat}
    (hk : k < HIGHEST_BIT) : hd.deriveHardened root k = .ok (hd.child root (k + HIGHEST_BIT)) := by
  have h32 : k + HIGHEST_BIT < 2 ^ 32 :=
    Nat.lt_of_lt_of_le (Nat.add_lt_add_right hk _) (by decide : HIGHEST_BIT + HIGHEST_BIT ≤ 2 ^ 32)
  rw [HDLib.deriveHardened, if_pos hk]
  exact hd.derive_private hr h32

theorem createAddress_spec {php : BitWasp Node} {hd : HDLib Node} {hashes : Hashes} (hs : php.Standard hd hashes)
    (hl : hd.Lawful) {args : SweeperArgs Node} {sw : Sweeper Node} (hsw : newSweeper php args = .ok sw)
    {w : Wallet Node} {k c i : Nat} {blocktrail : Node} (hroots : SameRoots hd w sw k blocktrail)
    (hk : k < HIGHEST_BIT) (hc : c < HIGHEST_BIT) (hi : i < HIGHEST_BIT) :
    sw.createAddress php (walletPath k c i) =
      .ok (sweepAddressOf php w.testnet (keyScripts php (c == CHAIN_BTC_SEGWIT)
        (pathKeys hd (hd.neutered (hd.child sw.primaryPrivateKey.key (k + HIGHEST_BIT)))
          (hd.neutered sw.backupPrivateKey.key) blocktrail k c i))) := by
  obtain ⟨hnet, root, backup, hroot, hbackup, hprim, hback⟩ := newSweeper_spec hsw
  have hr := hs.fromEntropy _ _ hroot
  have hkey := buildKey_levels hs root (b := false) (c := true) (fun _ => rfl) [] [(k, true), (c, false), (i, false)]
    (Or.inr (by simp [hk, hc, hi]))
  have hderive : ([(k, true), (c, false), (i, false)].foldlM (deriveLevel hd) root).toOption =
      some (hd.child (hd.child (hd.child root (k + HIGHEST_BIT)) c) i) := by
    simp [deriveLevel, derivePrivate hr hk, hd.derive_lt _ hc, hd.derive_lt _ hi, Except.toOption, pure, Except.pure]
  have hbkey := buildKey_levels hs backup (b := false) (c := true) (fun _ => rfl) []
    [(k, false), (c, false), (i, false)] (Or.inr (by simp [hk, hc, hi]))
  have hbderive : ([(k, false), (c, false), (i, false)].foldlM (deriveLevel hd) backup).toOption =
      some (hd.child (hd.child (hd.child backup k) c) i) := by
    simp [deriveLevel, hd.derive_lt _ hk, hd.derive_lt _ hc, hd.derive_lt _ hi, Except.toOption, pure, Except.pure]
  have hckey := buildKey_public hs hroots.wallet.blocktrail_public [dec k ++ [apostrophe]] [c, i]
  have hcderive : ([c, i].foldlM (fun n i => hd.derive n (some (i : Nat))) blocktrail).toOption =
      some (hd.child (hd.child blocktrail c) i) := by
    simp [hd.derive_lt _ hc, hd.derive_lt _ hi, Except.toOption, pure, Except.pure]
  rw [hderive] at hkey
  rw [hbderive] at hbkey
  rw [hcderive] at hckey
  have hkey' : (⟨root, ⟨false, []⟩⟩ : BIP32Key Node).buildKey php ⟨true, [dec k ++ [apostrophe], dec c, dec i]⟩ =
      .ok ⟨hd.neutered (hd.child (hd.child (hd.child root (k + HIGHEST_BIT)) c) i), _⟩ := toOption_eq_some hkey
  have hbkey' : (⟨backup, ⟨false, []⟩⟩ : BIP32Key Node).buildKey php ⟨true, [dec k, dec c, dec i]⟩ =
      .ok ⟨hd.neutered (hd.child (hd.child (hd.child backup k) c) i), _⟩ := toOption_eq_some hbkey
  have hckey' : (⟨blocktrail, accountBIP32Path k⟩ : BIP32Key Node).buildKey php
      ⟨true, [dec k ++ [apostrophe], dec c, dec i]⟩ = .ok ⟨hd.child (hd.child blocktrail c) i, _⟩ :=
    toOption_eq_some hckey
  have hunhard : (⟨true, [dec k ++ [apostrophe], dec c, dec i]⟩ : BIP32Path).unhardenedPath =
      ⟨true, [dec k, dec c, dec i]⟩ := by
    simp [BIP32Path.unhardenedPath, Php.remove_append_of_not_mem, Php.remove_of_not_mem, apostrophe_not_mem_dec]
  have htype : Php.intOf (((⟨true, [dec k ++ [apostrophe], dec c, dec i]⟩ : BIP32Path).offsetGet 2).getD []) = c := by
    rw [show ((⟨true, [dec k ++ [apostrophe], dec c, dec i]⟩ : BIP32Path).offsetGet 2).getD [] = dec c from rfl,
      Php.intOf_dec]
    unfold HIGHEST_BIT at hc
    omega
  have hwit : (sw.network != "bitcoincash".toList &&
      Php.intOf (((⟨true, [dec k ++ [apostrophe], dec c, dec i]⟩ : BIP32Path).offsetGet 2).getD []) ==
        CHAIN_BTC_SEGWIT) = (c == CHAIN_BTC_SEGWIT) := by
    rw [hnet, htype]
    rfl
  have hpub : pathKeys hd (hd.neutered (hd.child root (k + HIGHEST_BIT))) (hd.neutered backup) blocktrail k c i =
      [hd.getPublicKeyBuffer (hd.neutered (hd.child (hd.child (hd.child root (k + HIGHEST_BIT)) c) i)),
        hd.getPublicKeyBuffer (hd.neutered (hd.child (hd.child (hd.child backup k) c) i)),
        hd.getPublicKeyBuffer (hd.child (hd.child blocktrail c) i)] := by
    simp only [pathKeys, hl.child_neutered _ _ hk, hl.child_neutered _ _ hc, hl.child_neutered _ _ hi]
  unfold Sweeper.createAddress
  simp only [ofText_walletPath, ok_bind, BIP32Path.publicPath, hprim, hback, hunhard, hkey', hbkey',
    getBlocktrailPublicKey_eq, hroots.sweeper, hckey', hwit, BIP32Key.publicKey, hs.getPublicKey]
  rw [hpub, hroots.testnet]
  cases c == CHAIN_BTC_SEGWIT
  · simp only [sweepAddressOf, keyScripts, hs.outputAddress]
    rfl
  · simp only [sweepAddressOf, keyScripts, hs.outputAddress]
    rfl

/-- Past `2^31` a path has no address: the Blocktrail key is public. -/
theorem createAddress_ge {php : BitWasp Node} {hd : HDLib Node} {hashes : Hashes} (hs : php.Standard hd hashes)
    (hl : hd.Lawful) {w : Wallet Node} {sw : Sweeper Node} {k : Nat} {blocktrail : Node}
    (hroots : SameRoots hd w sw k blocktrail) (c : Nat) {i : Nat} (hi : HIGHEST_BIT ≤ i) (a : SweepAddress) :
    sw.createAddress php (walletPath k c i) ≠ .ok a := by
  intro h
  unfold Sweeper.createAddress at h
  simp only [ofText_walletPath, ok_bind, BIP32Path.publicPath, getBlocktrailPublicKey_eq, hroots.sweeper] at h
  obtain ⟨key, -, h⟩ := exists_of_bind_ok h
  obtain ⟨backup, -, h⟩ := exists_of_bind_ok h
  obtain ⟨blocktrailKey, hb, -⟩ := exists_of_bind_ok h
  have hpub := buildKey_public hs hroots.wallet.blocktrail_public [dec k ++ [apostrophe]] [c, i]
  have hchain := deriveChain_public hd hl blocktrail hroots.wallet.blocktrail_public c i
  rw [if_neg fun hlt => absurd hlt.2 (Nat.not_lt.mpr hi)] at hchain
  rw [show ([c, i].foldlM (fun n i => hd.derive n (some (i : Nat))) blocktrail) = deriveChain hd blocktrail c i from
    by simp [deriveChain], hchain] at hpub
  have hb' : ((⟨blocktrail, accountBIP32Path k⟩ : BIP32Key Node).buildKey php
      ⟨true, [dec k ++ [apostrophe], dec c, dec i]⟩).toOption = some blocktrailKey := by rw [hb]; rfl
  rw [show ((⟨blocktrail, accountBIP32Path k⟩ : BIP32Key Node).buildKey php
      ⟨true, [dec k ++ [apostrophe], dec c, dec i]⟩).toOption = none from hpub] at hb'
  cases hb'

/-! ## Batches -/

theorem toText_walletBIP32Path (k c i : Nat) : (walletBIP32Path k c i).publicPath.toText = walletPath k c i := by
  simp [walletBIP32Path, BIP32Path.publicPath, BIP32Path.toText, BIP32Path.head, Php.implode, walletPath, toList_M_slash]

namespace Sweeper

theorem mem_batchPaths {start count k : Nat} {path : Str} :
    path ∈ batchPaths start count k ↔ ∃ i, start ≤ i ∧ i < start + count ∧ path = walletPath k 0 i := by
  unfold batchPaths
  simp only [List.mem_map, List.mem_range, toText_walletBIP32Path]
  constructor
  · rintro ⟨j, hj, rfl⟩
    exact ⟨start + j, by omega, by omega, rfl⟩
  · rintro ⟨i, hs, he, rfl⟩
    exact ⟨i - start, by omega, by rw [Nat.add_sub_cancel' hs]⟩

theorem createBatchAddresses_address {php : BitWasp Node} {sw : Sweeper Node} {start count k : Nat}
    {addresses : Assoc.Object Str BatchEntry} (h : sw.createBatchAddresses php start count k = .ok addresses)
    {path : Str} (hp : path ∈ batchPaths start count k) :
    ∃ a, sw.createAddress php path = .ok a ∧ a.address ∈ addresses.keys := by
  obtain ⟨e, he, hmem⟩ := Assoc.Object.mem_keys_collect h hp
  obtain ⟨a, ha, he⟩ := exists_of_bind_ok he
  cases he
  exact ⟨a, ha, hmem⟩

theorem createBatchAddresses_entry {php : BitWasp Node} {sw : Sweeper Node} {start count k : Nat}
    {addresses : Assoc.Object Str BatchEntry} (h : sw.createBatchAddresses php start count k = .ok addresses)
    {address : Str} {e : BatchEntry} (he : addresses.get? address = some e) :
    e.path ∈ batchPaths start count k ∧ sw.createAddress php e.path = .ok ⟨address, e.redeem, e.witness⟩ := by
  obtain ⟨path, hpath, hf⟩ := Assoc.Object.get?_collect h he
  obtain ⟨a, ha, hf⟩ := exists_of_bind_ok hf
  cases hf
  exact ⟨hpath, ha⟩

end Sweeper

/-! ## Discovery -/

/-- The data holds an unspent output under an address. -/
def Reported (d : SweepData) (address : Str) (u : Utxo) : Prop :=
  ∃ found, d.utxos.get? address = some found ∧ u ∈ found.utxos

/-- Every address of the data comes with the path and the scripts of a path of chain 0. -/
def KnownEntries (php : BitWasp Node) (sw : Sweeper Node) (d : SweepData) : Prop :=
  ∀ address found, d.utxos.get? address = some found →
    ∃ e k i, found.entry = some e ∧ e.path = walletPath k 0 i ∧
      sw.createAddress php e.path = .ok ⟨address, e.redeem, e.witness⟩

/-- The finder answers with the unspent outputs of the addresses it is asked for. -/
def Honest (utxoFinder : UnspentOutputFinder) (unspent : List Utxo) : Prop :=
  ∀ addresses utxos, utxoFinder addresses = .ok utxos →
    ∀ u, u ∈ utxos ↔ u ∈ unspent ∧ ∃ a ∈ addresses, u.address = some a

theorem addUtxo_eq_ok {addresses : Assoc.Object Str BatchEntry} {d d' : SweepData} {u : Utxo}
    (h : addUtxo addresses d u = .ok d') :
    ∃ address, u.address = some address ∧
      d'.utxos = d.utxos.set address
        { (d.utxos.get? address).getD ⟨addresses.get? address, []⟩ with
          utxos := ((d.utxos.get? address).getD ⟨addresses.get? address, []⟩).utxos ++ [u] } := by
  unfold addUtxo at h
  split at h
  · next address value ha hv =>
    cases h
    exact ⟨address, ha, rfl⟩
  · cases h

theorem addUtxo_reports {addresses : Assoc.Object Str BatchEntry} {d d' : SweepData} {u : Utxo} {address : Str}
    (h : addUtxo addresses d u = .ok d') (ha : u.address = some address) : Reported d' address u := by
  obtain ⟨address', ha', hd⟩ := addUtxo_eq_ok h
  cases ha.symm.trans ha'
  refine ⟨_, by rw [hd, Assoc.Object.get?_set, if_pos rfl], ?_⟩
  simp

theorem addUtxo_keeps {addresses : Assoc.Object Str BatchEntry} {d d' : SweepData} {u u' : Utxo} {address : Str}
    (h : addUtxo addresses d u' = .ok d') (hr : Reported d address u) : Reported d' address u := by
  obtain ⟨address', -, hd⟩ := addUtxo_eq_ok h
  obtain ⟨found, hfound, hu⟩ := hr
  by_cases he : address = address'
  · subst he
    refine ⟨_, by rw [hd, Assoc.Object.get?_set, if_pos rfl], ?_⟩
    simp [hfound, hu]
  · exact ⟨found, by rw [hd, Assoc.Object.get?_set, if_neg he]; exact hfound, hu⟩

theorem addUtxo_entries {php : BitWasp Node} {sw : Sweeper Node} {start count k : Nat}
    {addresses : Assoc.Object Str BatchEntry} (hb : sw.createBatchAddresses php start count k = .ok addresses)
    {d d' : SweepData} {u : Utxo} (h : addUtxo addresses d u = .ok d')
    (hu : ∃ a ∈ addresses.keys, u.address = some a) (hd : KnownEntries php sw d) : KnownEntries php sw d' := by
  obtain ⟨address', ha', hd'⟩ := addUtxo_eq_ok h
  obtain ⟨address'', hmem, ha''⟩ := hu
  cases ha'.symm.trans ha''
  intro address found hfound
  rw [hd', Assoc.Object.get?_set] at hfound
  split at hfound
  · next heq =>
    subst heq
    cases hfound
    rcases hold : d.utxos.get? address with _ | old
    · -- The address is new: its entry is the one of the batch.
      obtain ⟨e, he⟩ := addresses.exists_get? hmem
      obtain ⟨hpath, hca⟩ := Sweeper.createBatchAddresses_entry hb he
      obtain ⟨i, -, -, hi⟩ := Sweeper.mem_batchPaths.mp hpath
      exact ⟨e, k, i, he, hi, hca⟩
    · exact hd address old hold
  · exact hd address found hfound

namespace Sweeper

/-- What one batch does to the data. -/
structure BatchSearched (php : BitWasp Node) (sw : Sweeper Node) (unspent : List Utxo) (increment k i : Nat)
    (d : SweepData) (found : Nat) (d' : SweepData) : Prop where
  keeps : ∀ address u, Reported d address u → Reported d' address u
  entries : KnownEntries php sw d → KnownEntries php sw d'
  batch : ∃ addresses, sw.createBatchAddresses php i increment k = .ok addresses ∧
    ∀ u ∈ unspent, ∀ address ∈ addresses.keys, u.address = some address → 0 < found ∧ Reported d' address u

theorem searchBatch_spec {php : BitWasp Node} {sw : Sweeper Node} {utxoFinder : UnspentOutputFinder}
    {unspent : List Utxo} (hf : Honest utxoFinder unspent) {increment k i found : Nat} {d d' : SweepData}
    (h : sw.searchBatch php utxoFinder increment k i d = .ok (found, d')) :
    BatchSearched php sw unspent increment k i d found d' := by
  obtain ⟨addresses, hb, h⟩ := exists_of_bind_ok h
  obtain ⟨utxos, hu, h⟩ := exists_of_bind_ok h
  obtain ⟨d'', hloop, h⟩ := exists_of_bind_ok h
  cases h
  have hans := hf _ _ hu
  refine ⟨fun address u hr => ?_, fun hk => ?_, addresses, hb, fun u hmem address haddr ha => ⟨?_, ?_⟩⟩
  · exact foldlM_invariant (fun s a t _ hstep => addUtxo_keeps hstep) hloop hr
  · exact foldlM_invariant (I := KnownEntries php sw)
      (fun s a t ha hstep => addUtxo_entries hb hstep ((hans a).mp ha).2) hloop hk
  · exact List.length_pos_of_mem ((hans u).mpr ⟨hmem, address, haddr, ha⟩)
  · exact foldlM_mem ((hans u).mpr ⟨hmem, address, haddr, ha⟩) (fun s t hstep => addUtxo_reports hstep ha)
      (fun s b t _ hstep => addUtxo_keeps hstep) hloop

theorem searchKey_keeps {php : BitWasp Node} {sw : Sweeper Node} {utxoFinder : UnspentOutputFinder}
    {unspent : List Utxo} (hf : Honest utxoFinder unspent) {increment k fuel i : Nat} {d d' : SweepData}
    (h : sw.searchKey php utxoFinder increment k fuel i d = some (.ok d')) :
    (∀ address u, Reported d address u → Reported d' address u) ∧
      (KnownEntries php sw d → KnownEntries php sw d') := by
  induction fuel generalizing i d with
  | zero => cases h
  | succ fuel ih =>
    unfold searchKey at h
    split at h
    · cases h
    · next found d1 hb =>
      have hs := searchBatch_spec hf hb
      split at h
      · obtain ⟨h1, h2⟩ := ih h
        exact ⟨fun address u hr => h1 address u (hs.keeps address u hr), fun hk => h2 (hs.entries hk)⟩
      · cases h
        exact ⟨hs.keeps, hs.entries⟩

/-- Every batch of a key index before the one of `n` has an unspent output. -/
def Reaches (php : BitWasp Node) (sw : Sweeper Node) (unspent : List Utxo) (increment k n : Nat) : Prop :=
  ∀ j, (j + 1) * increment ≤ n → ∀ addresses, sw.createBatchAddresses php (j * increment) increment k = .ok addresses →
    ∃ u ∈ unspent, ∃ a ∈ addresses.keys, u.address = some a

/-- The search of a key index reports what it reaches. The induction is over the batches before the one of `n`. -/
theorem searchKey_reports {php : BitWasp Node} {sw : Sweeper Node} {utxoFinder : UnspentOutputFinder}
    {unspent : List Utxo} (hf : Honest utxoFinder unspent) {increment k n : Nat}
    (hreach : Reaches php sw unspent increment k n) {a : SweepAddress}
    (ha : sw.createAddress php (walletPath k 0 n) = .ok a) {u : Utxo} (hu : u ∈ unspent)
    (hua : u.address = some a.address) {fuel j : Nat} (hj : j * increment ≤ n) {d d' : SweepData}
    (h : sw.searchKey php utxoFinder increment k fuel (j * increment) d = some (.ok d')) :
    Reported d' a.address u := by
  induction fuel generalizing j d with
  | zero => cases h
  | succ fuel ih =>
    unfold searchKey at h
    split at h
    · cases h
    next found d1 hb =>
    have hs := searchBatch_spec hf hb
    obtain ⟨addresses, hbatch, hfound⟩ := hs.batch
    by_cases hn : n < j * increment + increment
    · -- The batch of `n`.
      obtain ⟨a', ha', hmem⟩ := createBatchAddresses_address hbatch (mem_batchPaths.mpr ⟨n, hj, hn, rfl⟩)
      cases ha.symm.trans ha'
      have hr := (hfound u hu a.address hmem hua).2
      split at h
      · exact (searchKey_keeps hf h).1 _ _ hr
      · cases h
        exact hr
    · have hnext : (j + 1) * increment ≤ n := by
        rw [Nat.add_mul, Nat.one_mul]
        omega
      obtain ⟨u', hu', address, haddr, hua'⟩ := hreach j hnext addresses hbatch
      rw [if_pos (hfound u' hu' address haddr hua').1, ← Nat.succ_mul] at h
      exact ih hnext h

/-- **Discovery.** It reports the unspent outputs of every address of chain 0 that it reaches. -/
theorem discoverWalletFunds_reports {php : BitWasp Node} {sw : Sweeper Node} {utxoFinder : UnspentOutputFinder}
    {unspent : List Utxo} (hf : Honest utxoFinder unspent) {increment fuel k n : Nat}
    (hk : k ∈ sw.blocktrailPublicKeys.keys) (hreach : Reaches php sw unspent increment k n) {a : SweepAddress}
    (ha : sw.createAddress php (walletPath k 0 n) = .ok a) {u : Utxo} (hu : u ∈ unspent)
    (hua : u.address = some a.address) {d : SweepData}
    (h : sw.discoverWalletFunds php utxoFinder increment fuel = some (.ok d)) :
    Reported d a.address u ∧ KnownEntries php sw d := by
  constructor
  · refine Series.eachSeries_mem (fun s t hs => ?_) (fun k' s t hs => (searchKey_keeps hf hs).1 _ _) hk h
    rw [← Nat.zero_mul increment] at hs
    exact searchKey_reports hf hreach ha hu hua (by omega) hs
  · exact Series.eachSeries_invariant (fun k' s t hs => (searchKey_keeps hf hs).2) h
      fun address found hfound => by cases hfound

/-! ## Discovery returns -/

theorem createBatchAddresses_lt {php : BitWasp Node} {hd : HDLib Node} {hashes : Hashes} (hs : php.Standard hd hashes)
    (hl : hd.Lawful) {w : Wallet Node} {sw : Sweeper Node} {k : Nat} {blocktrail : Node}
    (hroots : SameRoots hd w sw k blocktrail) {start count : Nat} (hc : 0 < count)
    {addresses : Assoc.Object Str BatchEntry} (h : sw.createBatchAddresses php start count k = .ok addresses) :
    start + count ≤ HIGHEST_BIT := by
  by_contra hlt
  obtain ⟨a, ha, -⟩ := createBatchAddresses_address h
    (mem_batchPaths.mpr ⟨start + count - 1, by omega, by omega, rfl⟩)
  exact createAddress_ge hs hl hroots 0 (by omega) a ha

theorem searchKey_returns {php : BitWasp Node} {hd : HDLib Node} {hashes : Hashes} (hs : php.Standard hd hashes)
    (hl : hd.Lawful) {w : Wallet Node} {sw : Sweeper Node} {k : Nat} {blocktrail : Node}
    (hroots : SameRoots hd w sw k blocktrail) (utxoFinder : UnspentOutputFinder) {increment : Nat}
    (hi : 0 < increment) {fuel i : Nat} (hle : i ≤ HIGHEST_BIT) (hfuel : HIGHEST_BIT < i + fuel) (d : SweepData) :
    ∃ r, sw.searchKey php utxoFinder increment k fuel i d = some r := by
  induction fuel generalizing i d with
  | zero => exact absurd hfuel (by omega)
  | succ fuel ih =>
    unfold searchKey
    rcases hb : sw.searchBatch php utxoFinder increment k i d with e | ⟨found, d'⟩
    · exact ⟨_, rfl⟩
    · obtain ⟨addresses, hbatch, -⟩ := exists_of_bind_ok hb
      have hlt := createBatchAddresses_lt hs hl hroots hi hbatch
      simp only
      split
      · exact ih hlt (by omega) d'
      · exact ⟨_, rfl⟩

/-- **It ends.** A key index has addresses for less than `2^31` batches. -/
theorem discoverWalletFunds_returns {php : BitWasp Node} {hd : HDLib Node} {hashes : Hashes}
    (hs : php.Standard hd hashes) (hl : hd.Lawful) {w : Wallet Node} {sw : Sweeper Node}
    (hroots : ∀ k ∈ sw.blocktrailPublicKeys.keys, ∃ blocktrail, SameRoots hd w sw k blocktrail)
    (utxoFinder : UnspentOutputFinder) {increment : Nat} (hi : 0 < increment) :
    ∃ r, sw.discoverWalletFunds php utxoFinder increment (HIGHEST_BIT + 1) = some r := by
  refine Series.eachSeries_returns (fun k hk d => ?_) _
  obtain ⟨blocktrail, hk⟩ := hroots k hk
  exact searchKey_returns hs hl hk utxoFinder hi (by omega) (by omega) d

end Sweeper

end PhpSdk
