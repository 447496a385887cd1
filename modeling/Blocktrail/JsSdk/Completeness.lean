import Mathlib.Data.List.Range
import Blocktrail.JsSdk.Resolution
import Blocktrail.JsSdk.SweeperScripts

/-! # Discovery is complete when every query is answered

A failed query is dropped on the way up, so that discovery then resolves with outputs missing.
-/

open Text Throwing Bitcoin Assoc

namespace JsSdk

variable {Node : Type}

/-! ## The batches of a run -/

section

variable (p : Platform Node) (sw : Sweeper Node) (args : DiscoveryArgs)

/-- The client has transactions for a batch. -/
def HasTransactions (chain : Str × Nat) (j : Nat) : Prop :=
  ∃ batch, batchAt p sw args chain j = .ok batch ∧ args.client.batchAddressHasTransactions batch.keys = .ok true

/-- Every batch before has transactions. -/
def Reached (chain : Str × Nat) (j : Nat) : Prop := ∀ i < j, HasTransactions p sw args chain i

/-- The client answers every query of the run. -/
def QueriesAnswered : Prop :=
  ∀ chain ∈ sw.chains, ∀ j batch, Reached p sw args chain j → batchAt p sw args chain j = .ok batch → args.Answers batch

/-- The path `n` of a chain is in a batch that is reached, and has the address `a`. -/
structure Searched (chain : Str × Nat) (n : Nat) (a : Sweeper.Address) : Prop where
  chain_mem : chain ∈ sw.chains
  reached : Reached p sw args chain (n / args.increment)
  address : sw.createAddress p (sweepPath chain.1 chain.2 n) = .ok a

/-- No two paths of the run have one address. -/
def Distinct : Prop :=
  ∀ chain n a chain' n' a', Searched p sw args chain n a → Searched p sw args chain' n' a' →
    a.address = a'.address → chain = chain' ∧ n = n'

/-- The data has every unspent output of the batches before the first one without transactions, and no other. -/
structure Complete (d : SweepData) : Prop where
  holds : ∀ chain n a, Searched p sw args chain n a → ∀ batch, batchAt p sw args chain (n / args.increment) = .ok batch →
    args.client.batchAddressHasTransactions batch.keys = .ok true → args.outputsOf batch a.address ≠ [] →
      d.utxos.get? a.address =
        some ⟨sweepPath chain.1 chain.2 n, a.redeem, a.witness, args.outputsOf batch a.address⟩
  only : ∀ address found, d.utxos.get? address = some found →
    ∃ chain n a batch, Searched p sw args chain n a ∧ batchAt p sw args chain (n / args.increment) = .ok batch ∧
      args.client.batchAddressHasTransactions batch.keys = .ok true ∧ a.address = address ∧
        found = ⟨sweepPath chain.1 chain.2 n, a.redeem, a.witness, args.outputsOf batch address⟩
  count : d.count = (d.utxos.entries.map fun e => e.2.utxos.length).sum
  balance : d.balance = (d.utxos.entries.map fun e => (e.2.utxos.map Utxo.value).sum).sum

/-- A run that resolves has all its queries answered and complete data. -/
def CompleteOrFails : Prop :=
  ∀ fuel d, sw.discoverWalletFunds p args fuel = some (.ok d) → QueriesAnswered p sw args ∧ Complete p sw args d

end

variable {p : Platform Node} {sw : Sweeper Node} {args : DiscoveryArgs}

/-! ## What a run adds -/

/-- What batch `j` of a chain adds to the funds. -/
def foundAt (p : Platform Node) (sw : Sweeper Node) (args : DiscoveryArgs) (chain : Str × Nat) (j : Nat) :
    List (Str × AddressUTXOs) :=
  match batchAt p sw args chain j with
  | .ok batch => foundIn args batch
  | .error _ => []

/-- The first batch without transactions. -/
structure StopsAt (p : Platform Node) (sw : Sweeper Node) (args : DiscoveryArgs) (chain : Str × Nat) (N : Nat) :
    Prop where
  reached : Reached p sw args chain N
  stops : ¬HasTransactions p sw args chain N

theorem StopsAt.lt {chain : Str × Nat} {N j : Nat} (h : StopsAt p sw args chain N)
    (hj : Reached p sw args chain (j + 1)) : j < N := by
  by_contra hlt
  exact h.stops (hj N (by omega))

theorem searchChain_spec {chain : Str × Nat} (hc : chain ∈ sw.chains) (ha : QueriesAnswered p sw args) {fuel j : Nat}
    (hj : Reached p sw args chain j) {d d' : SweepData}
    (h : sw.searchChain p args chain fuel (j * args.increment) d = some (.ok d')) :
    ∃ m, StopsAt p sw args chain (j + m) ∧
      d'.toFunds = d.toFunds.addAll ((List.range' j m).flatMap (foundAt p sw args chain)) := by
  induction fuel generalizing j d with
  | zero => cases h
  | succ fuel ih =>
    unfold Sweeper.searchChain at h
    rcases hb : batchAt p sw args chain j with e | batch
    · rw [show sw.createBatchAddresses p _ _ _ _ = _ from hb] at h
      cases h
    rw [show sw.createBatchAddresses p _ _ _ _ = _ from hb] at h
    simp only at h
    obtain ⟨has, hhas, hchunks⟩ := ha chain hc j batch hj hb
    cases has with
    | false =>
      obtain ⟨d1, hcall, hd1⟩ := call_searchBatch_false hhas d
      rw [hcall] at h
      cases h
      refine ⟨0, ⟨hj, ?_⟩, by rw [hd1]; rfl⟩
      rintro ⟨batch', hb', htrue⟩
      cases hb.symm.trans hb'
      rw [hhas] at htrue
      cases htrue
    | true =>
      obtain ⟨d1, hcall, hd1⟩ := call_searchBatch_true hhas (hchunks rfl) d
      rw [hcall] at h
      have hj' : Reached p sw args chain (j + 1) := by
        intro i hi
        rcases Nat.lt_succ_iff_lt_or_eq.mp hi with hi | rfl
        · exact hj i hi
        · exact ⟨batch, hb, hhas⟩
      rw [← Nat.succ_mul] at h
      obtain ⟨m, hstop, hd'⟩ := ih hj' h
      refine ⟨m + 1, by rw [show j + (m + 1) = j + 1 + m by omega]; exact hstop, ?_⟩
      rw [hd', hd1, ← Funds.addAll_append, List.range'_succ, List.flatMap_cons]
      congr 2
      rw [foundAt, hb]

/-- The list of the batches with transactions, chain by chain. -/
def batches (chains : List (Str × Nat)) (N : Str × Nat → Nat) : List ((Str × Nat) × Nat) :=
  chains.flatMap fun chain => (List.range (N chain)).map (chain, ·)

theorem mem_batches {chains : List (Str × Nat)} {N : Str × Nat → Nat} {chain : Str × Nat} {j : Nat} :
    (chain, j) ∈ batches chains N ↔ chain ∈ chains ∧ j < N chain := by
  simp only [batches, List.mem_flatMap, List.mem_map, List.mem_range, Prod.mk.injEq]
  constructor
  · rintro ⟨c, hc, i, hi, rfl, rfl⟩
    exact ⟨hc, hi⟩
  · rintro ⟨hc, hj⟩
    exact ⟨chain, hc, j, hj, rfl, rfl⟩

theorem batches_cons (chain : Str × Nat) (chains : List (Str × Nat)) (N : Str × Nat → Nat) :
    batches (chain :: chains) N = (List.range (N chain)).map (chain, ·) ++ batches chains N := List.flatMap_cons

theorem nodup_batches {chains : List (Str × Nat)} (h : chains.Nodup) (N : Str × Nat → Nat) :
    (batches chains N).Nodup := by
  induction chains with
  | nil => exact List.nodup_nil
  | cons chain chains ih =>
    have hn := List.nodup_cons.mp h
    rw [batches_cons]
    refine List.nodup_append.mpr ⟨List.nodup_range.map fun i j hij => (Prod.mk.inj hij).2, ih hn.2, ?_⟩
    rintro a ha ⟨c, j⟩ hb rfl
    obtain ⟨i, -, hi⟩ := List.mem_map.mp ha
    exact hn.1 ((Prod.mk.inj hi).1 ▸ (mem_batches.mp hb).1)

theorem searchChains_spec (ha : QueriesAnswered p sw args) {fuel : Nat} {chains : List (Str × Nat)} (hn : chains.Nodup)
    (hc : ∀ chain ∈ chains, chain ∈ sw.chains) {d d' : SweepData}
    (h : Series.eachSeries (fun chain => sw.searchChain p args chain fuel 0) chains d = some (.ok d')) :
    ∃ N : Str × Nat → Nat, (∀ chain ∈ chains, StopsAt p sw args chain (N chain)) ∧
      d'.toFunds = d.toFunds.addAll ((batches chains N).flatMap fun t => foundAt p sw args t.1 t.2) := by
  induction chains generalizing d with
  | nil =>
    cases h
    exact ⟨fun _ => 0, by simp, rfl⟩
  | cons chain chains ih =>
    have hnd := List.nodup_cons.mp hn
    obtain ⟨d1, hd1, hrest⟩ := Series.eachSeries_cons h
    rw [← Nat.zero_mul args.increment] at hd1
    obtain ⟨m, hstop, hm⟩ := searchChain_spec (hc chain List.mem_cons_self) ha (fun i hi => by omega) hd1
    obtain ⟨N, hN, hd'⟩ := ih hnd.2 (fun c h => hc c (List.mem_cons_of_mem chain h)) hrest
    have hold : ∀ c ∈ chains, Function.update N chain m c = N c := by
      intro c hmem
      refine Function.update_of_ne ?_ m N
      rintro rfl
      exact hnd.1 hmem
    refine ⟨Function.update N chain m, fun c hmem => ?_, ?_⟩
    · rcases List.mem_cons.mp hmem with rfl | hmem
      · rw [Function.update_self]
        simpa using hstop
      · rw [hold c hmem]
        exact hN c hmem
    · have hbatches : batches chains (Function.update N chain m) = batches chains N :=
        List.flatMap_congr fun c hmem => by rw [hold c hmem]
      rw [hd', hm, ← Funds.addAll_append, batches_cons, hbatches, List.flatMap_append, Function.update_self,
        List.flatMap_map, List.range_eq_range']

/-! ## The addresses of a batch -/

theorem batchEntry_eq_ok {path address : Str} {e : BatchEntry} (h : sw.batchEntry p path = .ok (address, e)) :
    ∃ a, sw.createAddress p path = .ok a ∧ a.address = address ∧ e = ⟨a.redeem, a.witness, path⟩ := by
  obtain ⟨a, ha, h⟩ := exists_of_bind_ok h
  cases h
  exact ⟨a, ha, rfl, rfl⟩

theorem batchAt_entry {chain : Str × Nat} {j : Nat} {batch : Object Str BatchEntry}
    (h : batchAt p sw args chain j = .ok batch) {address : Str} {e : BatchEntry} (he : batch.get? address = some e) :
    ∃ n a, n / args.increment = j ∧ sw.createAddress p (sweepPath chain.1 chain.2 n) = .ok a ∧ a.address = address ∧
      e = ⟨a.redeem, a.witness, sweepPath chain.1 chain.2 n⟩ := by
  obtain ⟨i, hi, hf⟩ := Object.get?_collect h he
  obtain ⟨a, ha, haddr, he⟩ := batchEntry_eq_ok hf
  refine ⟨j * args.increment + i, a, ?_, ha, haddr, he⟩
  rw [Nat.add_comm, Nat.add_mul_div_right _ _ args.increment_pos, Nat.div_eq_of_lt (List.mem_range.mp hi), Nat.zero_add]

theorem batchAt_address {chain : Str × Nat} {n : Nat} {batch : Object Str BatchEntry}
    (h : batchAt p sw args chain (n / args.increment) = .ok batch) {a : Sweeper.Address}
    (ha : sw.createAddress p (sweepPath chain.1 chain.2 n) = .ok a) : a.address ∈ batch.keys := by
  obtain ⟨⟨address, e⟩, he, hmem⟩ := Object.mem_keys_collect h (List.mem_range.mpr (Nat.mod_lt n args.increment_pos))
  rw [Nat.mul_comm, Nat.div_add_mod] at he
  obtain ⟨a', ha', haddr, -⟩ := batchEntry_eq_ok he
  cases ha.symm.trans ha'
  rw [haddr]
  exact hmem

theorem batchAt_get? (hd : Distinct p sw args) {chain : Str × Nat} {n : Nat} {a : Sweeper.Address}
    (hs : Searched p sw args chain n a) {batch : Object Str BatchEntry}
    (h : batchAt p sw args chain (n / args.increment) = .ok batch) :
    batch.get? a.address = some ⟨a.redeem, a.witness, sweepPath chain.1 chain.2 n⟩ := by
  obtain ⟨e, he⟩ := batch.exists_get? (batchAt_address h hs.address)
  obtain ⟨n', a', hn', ha', haddr, rfl⟩ := batchAt_entry h he
  obtain ⟨-, rfl⟩ := hd chain n a chain n' a' hs ⟨hs.chain_mem, by rw [hn']; exact hs.reached, ha'⟩ haddr.symm
  cases hs.address.symm.trans ha'
  exact he

/-! ## Completeness -/

theorem nodup_chains (sw : Sweeper Node) : sw.chains.Nodup :=
  List.Nodup.product sw.blocktrailPublicKeys.nodup (by decide)

theorem mem_keys_foundAt {chain : Str × Nat} {j : Nat} {address : Str}
    (h : address ∈ keys (foundAt p sw args chain j)) :
    ∃ n a, n / args.increment = j ∧ sw.createAddress p (sweepPath chain.1 chain.2 n) = .ok a ∧ a.address = address := by
  unfold foundAt at h
  split at h
  · next batch hb =>
    obtain ⟨⟨k, found⟩, hmem, rfl⟩ := List.mem_map.mp h
    simp only [foundIn, List.mem_filterMap, Option.map_eq_some_iff, Prod.mk.injEq] at hmem
    obtain ⟨e, -, found', ⟨b, hb', -⟩, rfl, -⟩ := hmem
    obtain ⟨n, a, hn, ha, haddr, -⟩ := batchAt_entry hb hb'
    exact ⟨n, a, hn, ha, haddr⟩
  · cases h

theorem nodup_found (hd : Distinct p sw args) {N : Str × Nat → Nat}
    (hN : ∀ chain ∈ sw.chains, StopsAt p sw args chain (N chain)) :
    (keys ((batches sw.chains N).flatMap fun t => foundAt p sw args t.1 t.2)).Nodup := by
  unfold keys
  rw [List.map_flatMap, List.nodup_flatMap]
  constructor
  · rintro ⟨chain, j⟩ -
    show (keys (foundAt p sw args chain j)).Nodup
    unfold foundAt
    split
    · exact nodup_foundIn args _
    · exact List.nodup_nil
  · refine (nodup_batches (nodup_chains sw) N).pairwise_of_forall_ne ?_
    rintro ⟨chain, j⟩ ht ⟨chain', j'⟩ ht' hne address ha ha'
    obtain ⟨n, a, hn, hca, haddr⟩ := mem_keys_foundAt ha
    obtain ⟨n', a', hn', hca', haddr'⟩ := mem_keys_foundAt ha'
    obtain ⟨hc, hj⟩ := mem_batches.mp ht
    obtain ⟨hc', hj'⟩ := mem_batches.mp ht'
    obtain ⟨rfl, rfl⟩ := hd chain n a chain' n' a'
      ⟨hc, fun i hi => (hN chain hc).reached i (by omega), hca⟩
      ⟨hc', fun i hi => (hN chain' hc').reached i (by omega), hca'⟩ (haddr.trans haddr'.symm)
    exact hne (congrArg (Prod.mk chain) (hn.symm.trans hn'))

/-- The list of all that is found. -/
def foundBy (p : Platform Node) (sw : Sweeper Node) (args : DiscoveryArgs) (N : Str × Nat → Nat) :
    List (Str × AddressUTXOs) :=
  (batches sw.chains N).flatMap fun t => foundAt p sw args t.1 t.2

theorem mem_foundBy {N : Str × Nat → Nat} {e : Str × AddressUTXOs} :
    e ∈ foundBy p sw args N ↔ ∃ chain j, chain ∈ sw.chains ∧ j < N chain ∧ e ∈ foundAt p sw args chain j := by
  unfold foundBy
  rw [List.mem_flatMap]
  constructor
  · rintro ⟨⟨chain, j⟩, ht, hf⟩
    exact ⟨chain, j, (mem_batches.mp ht).1, (mem_batches.mp ht).2, hf⟩
  · rintro ⟨chain, j, hc, hj, hf⟩
    exact ⟨(chain, j), mem_batches.mpr ⟨hc, hj⟩, hf⟩

theorem Funds.addAll_empty {l : List (Str × AddressUTXOs)} (h : (keys l).Nodup) :
    (Funds.empty.addAll l).utxos.entries = l ∧
      (Funds.empty.addAll l).count = (l.map fun e => e.2.utxos.length).sum ∧
        (Funds.empty.addAll l).balance = (l.map fun e => (e.2.utxos.map Utxo.value).sum).sum := by
  obtain ⟨he, hc, hb⟩ := Funds.addAll_spec Funds.empty l h
  exact ⟨he, hc.trans (Nat.zero_add _), hb.trans (Int.zero_add _)⟩

theorem discoverWalletFunds_found (hd : Distinct p sw args) (ha : QueriesAnswered p sw args) {fuel : Nat}
    {d : SweepData} (h : sw.discoverWalletFunds p args fuel = some (.ok d)) :
    ∃ N : Str × Nat → Nat, (∀ chain ∈ sw.chains, StopsAt p sw args chain (N chain)) ∧
      d.utxos.entries = foundBy p sw args N ∧
        d.count = ((foundBy p sw args N).map fun e => e.2.utxos.length).sum ∧
          d.balance = ((foundBy p sw args N).map fun e => (e.2.utxos.map Utxo.value).sum).sum := by
  rw [discoverWalletFunds_eq] at h
  obtain ⟨N, hN, hfunds⟩ := searchChains_spec ha (nodup_chains sw) (fun _ => id) h
  obtain ⟨he, hc, hb⟩ := Funds.addAll_empty (nodup_found hd hN)
  have hfunds' : d.toFunds = Funds.empty.addAll (foundBy p sw args N) := hfunds
  rw [foundBy] at *
  rw [← hfunds'] at he hc hb
  exact ⟨N, hN, he, hc, hb⟩

theorem chunks_answered (ha : QueriesAnswered p sw args) {chain : Str × Nat} {j : Nat} {batch : Object Str BatchEntry}
    (hc : chain ∈ sw.chains) (hj : Reached p sw args chain j) (hb : batchAt p sw args chain j = .ok batch)
    (h : args.client.batchAddressHasTransactions batch.keys = .ok true) :
    ∀ c ∈ Series.chunk args.batchChunkSize batch.keys, Answered args.client c := by
  obtain ⟨has, hhas, hall⟩ := ha chain hc j batch hj hb
  exact hall (Except.ok.inj (hhas.symm.trans h))

/-- When every query is answered, what a run resolves with is complete. -/
theorem complete_of_answered (hd : Distinct p sw args) (ha : QueriesAnswered p sw args) {fuel : Nat} {d : SweepData}
    (h : sw.discoverWalletFunds p args fuel = some (.ok d)) : Complete p sw args d := by
  obtain ⟨N, hN, hentries, hcount, hbalance⟩ := discoverWalletFunds_found hd ha h
  refine ⟨fun chain n a hs batch hb htrue hne => ?_, fun address found hget => ?_, ?_, ?_⟩
  · have hj : n / args.increment < N chain := by
      refine (hN chain hs.chain_mem).lt fun i hi => ?_
      rcases Nat.lt_succ_iff_lt_or_eq.mp hi with hi | rfl
      · exact hs.reached i hi
      · exact ⟨batch, hb, htrue⟩
    rw [Object.get?_eq_some, hentries]
    refine mem_foundBy.mpr ⟨chain, _, hs.chain_mem, hj, ?_⟩
    rw [foundAt, hb]
    exact (mem_foundIn (chunks_answered ha hs.chain_mem hs.reached hb htrue)).mpr
      ⟨hne, _, batchAt_get? hd hs hb, rfl⟩
  · rw [Object.get?_eq_some, hentries] at hget
    obtain ⟨chain, j, hc, hj, hf⟩ := mem_foundBy.mp hget
    obtain ⟨batch, hb, htrue⟩ := (hN chain hc).reached j hj
    have hreach : Reached p sw args chain j := fun i hi => (hN chain hc).reached i (Nat.lt_trans hi hj)
    rw [foundAt, hb] at hf
    obtain ⟨-, e, he, rfl⟩ := (mem_foundIn (chunks_answered ha hc hreach hb htrue)).mp hf
    obtain ⟨n, a, rfl, hca, haddr, rfl⟩ := batchAt_entry hb he
    exact ⟨chain, n, a, batch, ⟨hc, hreach, hca⟩, hb, htrue, haddr, rfl⟩
  · rw [hcount, hentries]
  · rw [hbalance, hentries]

/-- The address of a path of the sample sweeper. -/
def sampleAddress (c n : Nat) : Str :=
  (((sampleSweeper .bitcoin).createAddress samplePlatform (sweepPath (dec 0) c n)).toOption.map
    Sweeper.Address.address).getD []

/-- A client that has one output, of the address of `M/0'/0/0`. -/
def sampleClient : BitcoinDataClient where
  batchAddressHasTransactions addresses := .ok (sampleAddress 0 0 ∈ addresses)
  getBatchUnspentOutputs addresses :=
    .ok (if sampleAddress 0 0 ∈ addresses then Object.empty.set (sampleAddress 0 0) [⟨"aa", 0, 5, []⟩] else .empty)

def sampleDiscovery (client : BitcoinDataClient) : DiscoveryArgs := ⟨client, 200, 1, by decide, by decide⟩

theorem sampleClient_answers (p : Platform Node) (sw : Sweeper Node) :
    QueriesAnswered p sw (sampleDiscovery sampleClient) := by
  refine fun chain _ j batch _ _ => ⟨_, rfl, fun _ c _ => ⟨_, rfl, fun a outputs ha _ => ?_⟩⟩
  replace ha := Object.mem_keys _ ha
  split at ha
  · next hc =>
    rw [Object.mem_keys_set] at ha
    rcases ha with rfl | ha
    · exact hc
    · cases ha
  · cases ha

def sampleBatchHas (c n : Nat) : Bool :=
  match batchAt samplePlatform (sampleSweeper .bitcoin) (sampleDiscovery sampleClient) (dec 0, c) n with
  | .ok batch => sampleAddress 0 0 ∈ batch.keys
  | .error _ => false

theorem sampleBatchHas_of_hasTransactions {c n : Nat}
    (h : HasTransactions samplePlatform (sampleSweeper .bitcoin) (sampleDiscovery sampleClient) (dec 0, c) n) :
    sampleBatchHas c n = true := by
  obtain ⟨batch, hb, htrue⟩ := h
  rw [sampleBatchHas, hb]
  exact Except.ok.inj htrue

/-- The paths that the run on the sample reaches. -/
theorem sample_searched {chain : Str × Nat} {n : Nat} {a : Sweeper.Address}
    (h : Searched samplePlatform (sampleSweeper .bitcoin) (sampleDiscovery sampleClient) chain n a) :
    (chain, n) ∈ [((dec 0, 0), 0), ((dec 0, 0), 1), ((dec 0, 1), 0), ((dec 0, 2), 0)] ∧
      a.address = sampleAddress chain.2 n := by
  obtain ⟨hc, hreach, haddr⟩ := h
  have hdiv : n / (sampleDiscovery sampleClient).increment = n := Nat.div_one n
  rw [hdiv] at hreach
  obtain ⟨hk, hc⟩ := List.mem_product.mp (show (chain.1, chain.2) ∈ _ from hc)
  obtain ⟨key, c⟩ := chain
  have hkey : key = dec 0 := List.mem_singleton.mp hk
  subst hkey
  constructor
  · have h0 : 0 < n → sampleBatchHas c 0 = true := fun hn => sampleBatchHas_of_hasTransactions (hreach 0 hn)
    have h1 : 1 < n → sampleBatchHas c 1 = true := fun hn => sampleBatchHas_of_hasTransactions (hreach 1 hn)
    simp only [Sweeper.checkChain, List.mem_cons, List.not_mem_nil, or_false] at hc
    rcases hc with rfl | rfl | rfl
    · have hf : sampleBatchHas 0 1 = false := by decide +kernel
      have hn : ¬1 < n := fun hn => by rw [hf] at h1; cases h1 hn
      obtain rfl | rfl : n = 0 ∨ n = 1 := by omega
      · simp
      · simp
    · have hf : sampleBatchHas 1 0 = false := by decide +kernel
      have hn : ¬0 < n := fun hn => by rw [hf] at h0; cases h0 hn
      obtain rfl : n = 0 := by omega
      simp
    · have hf : sampleBatchHas 2 0 = false := by decide +kernel
      have hn : ¬0 < n := fun hn => by rw [hf] at h0; cases h0 hn
      obtain rfl : n = 0 := by omega
      simp
  · rw [sampleAddress, haddr]
    rfl

theorem sample_distinct : Distinct samplePlatform (sampleSweeper .bitcoin) (sampleDiscovery sampleClient) := by
  intro chain n a chain' n' a' h h' heq
  obtain ⟨hmem, haddr⟩ := sample_searched h
  obtain ⟨hmem', haddr'⟩ := sample_searched h'
  rw [haddr, haddr'] at heq
  have hall : ∀ t ∈ [((dec 0, 0), 0), ((dec 0, 0), 1), ((dec 0, 1), 0), ((dec 0, 2), 0)],
      ∀ t' ∈ [((dec 0, 0), 0), ((dec 0, 0), 1), ((dec 0, 1), 0), ((dec 0, 2), 0)],
        sampleAddress t.1.2 t.2 = sampleAddress t'.1.2 t'.2 → t = t' := by
    decide +kernel
  exact Prod.mk.inj (hall (chain, n) hmem (chain', n') hmem' heq)

/-- A client whose every query fails. -/
def failingClient : BitcoinDataClient where
  batchAddressHasTransactions _ := .error ⟨"Error", "timeout"⟩
  getBatchUnspentOutputs _ := .error ⟨"Error", "timeout"⟩

end JsSdk
