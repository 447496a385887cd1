import Mathlib.Algebra.Order.BigOperators.Group.List
import Mathlib.Algebra.Order.Group.Nat
import Blocktrail.JsSdk.DiscoverySpec

/-! # When discovery resolves

The search of a chain ends where the client fails, has no transactions, or gives an output of an address that it was not
asked for. A path with no address keeps all of discovery from resolving.
-/

open Text Throwing Bitcoin Assoc

namespace JsSdk

variable {Node : Type}

/-! ## The answers of the client -/

/-- The answers for the chunks, up to the first query that fails. -/
def answersFor (client : BitcoinDataClient) : List (List Str) → List (Object Str (List Utxo))
  | [] => []
  | addressBatch :: rest =>
    match client.getBatchUnspentOutputs addressBatch with
    | .ok results => results :: answersFor client rest
    | .error _ => []

/-- The client gives an output of an address that is not of the batch. -/
def DiscoveryArgs.Foreign (args : DiscoveryArgs) (batch : Object Str BatchEntry) : Prop :=
  ∃ results ∈ answersFor args.client (Series.chunk args.batchChunkSize batch.keys), ∃ a outputs,
    results.get? a = some outputs ∧ outputs ≠ [] ∧ a ∉ batch.keys

section

variable (p : Platform Node) (sw : Sweeper Node) (args : DiscoveryArgs)

/-- A chain of a key index. -/
def Sweeper.chains : List (Str × Nat) := sw.blocktrailPublicKeys.keys ×ˢ Sweeper.checkChain

def batchAt (chain : Str × Nat) (j : Nat) : Except JsError (Object Str BatchEntry) :=
  sw.createBatchAddresses p (j * args.increment) args.increment chain.1 chain.2

/-- The client has transactions for a batch, and outputs of its addresses only. -/
def GoesOn (chain : Str × Nat) (j : Nat) : Prop :=
  ∃ batch, batchAt p sw args chain j = .ok batch ∧ args.client.batchAddressHasTransactions batch.keys = .ok true ∧
    ¬args.Foreign batch

/-- The search of a chain ends with a batch. -/
structure EndsAt (chain : Str × Nat) (j : Nat) : Prop where
  before : ∀ i < j, GoesOn p sw args chain i
  stops : ∃ batch, batchAt p sw args chain j = .ok batch ∧
    (args.client.batchAddressHasTransactions batch.keys = .ok true → args.Foreign batch)

/-- The search of a chain goes on for ever, or to a path with no address. -/
def Endless (chain : Str × Nat) : Prop :=
  (∀ j, GoesOn p sw args chain j) ∨
    ∃ j, (∀ i < j, GoesOn p sw args chain i) ∧ ∃ e, batchAt p sw args chain j = .error e

end

variable {p : Platform Node} {sw : Sweeper Node} {args : DiscoveryArgs} {chain : Str × Nat}

theorem endsAt_or_endless (p : Platform Node) (sw : Sweeper Node) (args : DiscoveryArgs) (chain : Str × Nat) :
    (∃ j, EndsAt p sw args chain j) ∨ Endless p sw args chain := by
  classical
  by_cases h : ∀ j, GoesOn p sw args chain j
  · exact Or.inr (Or.inl h)
  -- The first batch with which the search does not go on.
  have hfirst := Nat.find_spec (not_forall.mp h)
  have hbefore : ∀ i < Nat.find (not_forall.mp h), GoesOn p sw args chain i := fun i hi =>
    not_not.mp (Nat.find_min (not_forall.mp h) hi)
  rcases hb : batchAt p sw args chain (Nat.find (not_forall.mp h)) with e | batch
  · exact Or.inr (Or.inr ⟨_, hbefore, e, hb⟩)
  · refine Or.inl ⟨_, hbefore, batch, hb, fun htrue => ?_⟩
    by_contra hforeign
    exact hfirst ⟨batch, hb, htrue, hforeign⟩

theorem EndsAt.not_goesOn {j : Nat} (h : EndsAt p sw args chain j) : ¬GoesOn p sw args chain j := by
  rintro ⟨batch, hb, htrue, hforeign⟩
  obtain ⟨batch', hb', hstops⟩ := h.stops
  cases hb.symm.trans hb'
  exact hforeign (hstops htrue)

theorem EndsAt.not_endless {j : Nat} (h : EndsAt p sw args chain j) : ¬Endless p sw args chain := by
  rintro (hall | ⟨k, hbefore, e, he⟩)
  · exact h.not_goesOn (hall j)
  · obtain ⟨batch, hb, -⟩ := h.stops
    rcases Nat.lt_trichotomy j k with hlt | rfl | hlt
    · exact h.not_goesOn (hbefore j hlt)
    · cases hb.symm.trans he
    · obtain ⟨batch', hb', -⟩ := h.before k hlt
      cases hb'.symm.trans he

/-! ## One batch -/

theorem mem_keys_iff {α : Type} (o : Object Str α) (a : Str) : a ∈ o.keys ↔ ∃ x, o.get? a = some x :=
  ⟨o.exists_get?, fun ⟨_, h⟩ => o.mem_keys h⟩

theorem mem_keys_collectUTXOs (client : BitcoinDataClient) (chunks : List (List Str)) (r : Object Str (List Utxo))
    (a : Str) :
    a ∈ (collectUTXOs client chunks r).keys ↔
      a ∈ r.keys ∨ ∃ results ∈ answersFor client chunks, ∃ outputs, results.get? a = some outputs ∧ outputs ≠ [] := by
  induction chunks generalizing r with
  | nil => simp [collectUTXOs, answersFor]
  | cons c cs ih =>
    unfold collectUTXOs answersFor
    rcases hres : client.getBatchUnspentOutputs c with e | results
    · simp
    · have hstep : a ∈ (results.entries.foldl keepFound r).keys ↔
          (∃ outputs, results.get? a = some outputs ∧ outputs ≠ []) ∨ a ∈ r.keys := by
        rw [mem_keys_iff, foldl_keepFound, mem_keys_iff]
        rcases hg : results.get? a with _ | _ | ⟨u, us⟩ <;> simp [nonempty]
      simp only [List.mem_cons, exists_eq_or_imp]
      rw [ih, hstep]
      exact or_assoc.trans or_left_comm

theorem foreign_iff {batch : Object Str BatchEntry} :
    args.Foreign batch ↔
      ∃ a ∈ (getUTXOs args.client args.batchChunkSize batch.keys).keys, a ∉ batch.keys := by
  have hkeys (a : Str) : a ∈ (getUTXOs args.client args.batchChunkSize batch.keys).keys ↔
      ∃ results ∈ answersFor args.client (Series.chunk args.batchChunkSize batch.keys), ∃ outputs,
        results.get? a = some outputs ∧ outputs ≠ [] := by
    rw [getUTXOs, mem_keys_collectUTXOs]
    exact or_iff_right List.not_mem_nil
  constructor
  · rintro ⟨results, hr, a, outputs, hg, hne, hnot⟩
    exact ⟨a, (hkeys a).mpr ⟨results, hr, outputs, hg, hne⟩, hnot⟩
  · rintro ⟨a, ha, hnot⟩
    obtain ⟨results, hr, outputs, hg, hne⟩ := (hkeys a).mp ha
    exact ⟨results, hr, a, outputs, hg, hne, hnot⟩

theorem saveUTXOs_foreign {batch : Object Str BatchEntry} {l : List (Str × List Utxo)}
    (h : ∃ e ∈ l, e.1 ∉ batch.keys) (d : SweepData) : ∃ e, (call (saveUTXOs batch l) d).1 = .error e := by
  induction l generalizing d with
  | nil =>
    obtain ⟨e, he, -⟩ := h
    cases he
  | cons e l ih =>
    unfold saveUTXOs
    rcases hb : batch.get? e.1 with _ | b
    · exact ⟨_, rfl⟩
    · dsimp only
      rw [call_bind_ok (call_modify _ _)]
      apply ih
      obtain ⟨e', he', hnot⟩ := h
      rcases List.mem_cons.mp he' with rfl | he'
      · exact absurd (batch.mem_keys hb) hnot
      · exact ⟨e', he', hnot⟩

theorem searchBatch_goes (args : DiscoveryArgs) (batch : Object Str BatchEntry) (d : SweepData) :
    (∃ d', call (searchBatch args.client args.batchChunkSize batch) d = (.ok true, d')) ↔
      args.client.batchAddressHasTransactions batch.keys = .ok true ∧ ¬args.Foreign batch := by
  unfold searchBatch
  rw [call_bind_ok (call_modify _ _)]
  rcases hhas : args.client.batchAddressHasTransactions batch.keys with e | has
  · rw [call_orRaise_bind_error rfl]
    simp
  rw [call_orRaise_bind_ok rfl]
  cases has with
  | false =>
    simp only [Bool.false_eq_true, if_false, Except.ok.injEq, false_and, iff_false, not_exists]
    intro d' h
    cases h
  | true =>
    rw [if_pos rfl, foreign_iff]
    simp only [true_and]
    by_cases hforeign : ∃ a ∈ (getUTXOs args.client args.batchChunkSize batch.keys).keys, a ∉ batch.keys
    · obtain ⟨a, ha, hnot⟩ := hforeign
      obtain ⟨outputs, hg⟩ := Object.exists_get? _ ha
      obtain ⟨e, he⟩ := saveUTXOs_foreign ⟨(a, outputs), (Object.get?_eq_some _).mp hg, hnot⟩
        { d with addressesSearched := d.addressesSearched + batch.keys.length }
      constructor
      · rintro ⟨d', hd'⟩
        rw [call_bind_error (Prod.ext he rfl)] at hd'
        cases hd'
      · intro hnone
        exact absurd ⟨a, ha, hnot⟩ hnone
    · refine ⟨fun _ => hforeign, fun _ => ?_⟩
      have hkeys : ∀ e ∈ (getUTXOs args.client args.batchChunkSize batch.keys).entries, e.1 ∈ batch.keys := by
        intro e he
        by_contra hnot
        exact hforeign ⟨e.1, Object.mem_keys _ ((Object.get?_eq_some _).mpr he), hnot⟩
      rw [call_bind_ok (call_saveUTXOs hkeys _)]
      exact ⟨_, rfl⟩

/-! ## One chain -/

theorem searchChain_succ (chain : Str × Nat) (fuel j : Nat) (d : SweepData) :
    sw.searchChain p args chain (fuel + 1) (j * args.increment) d =
      match batchAt p sw args chain j with
      | .error e => some (.error e)
      | .ok batch =>
        match call (searchBatch args.client args.batchChunkSize batch) d with
        | (.ok true, d) => sw.searchChain p args chain fuel ((j + 1) * args.increment) d
        | (.ok false, d) => some (.ok d)
        | (.error _, d) => some (.ok d) := by
  rw [Nat.succ_mul]
  rfl

theorem endsAt_of_searchChain {fuel j : Nat} {d d' : SweepData} (hbefore : ∀ i < j, GoesOn p sw args chain i)
    (h : sw.searchChain p args chain fuel (j * args.increment) d = some (.ok d')) : ∃ k, EndsAt p sw args chain k := by
  induction fuel generalizing j d with
  | zero => cases h
  | succ fuel ih =>
    rw [searchChain_succ] at h
    rcases hb : batchAt p sw args chain j with e | batch
    · rw [hb] at h
      cases h
    by_cases hgoes : args.client.batchAddressHasTransactions batch.keys = .ok true ∧ ¬args.Foreign batch
    · obtain ⟨d₁, hcall⟩ := (searchBatch_goes args batch d).mpr hgoes
      rw [hb] at h
      dsimp only at h
      rw [hcall] at h
      refine ih (fun i hi => ?_) h
      rcases Nat.lt_succ_iff_lt_or_eq.mp hi with hi | rfl
      · exact hbefore i hi
      · exact ⟨batch, hb, hgoes⟩
    · exact ⟨j, hbefore, batch, hb, fun htrue => not_not.mp fun hforeign => hgoes ⟨htrue, hforeign⟩⟩

/-- A search that is to end with a batch resolves, given fuel for the batches up to it. -/
theorem searchChain_endsAt {fuel j m : Nat} (h : EndsAt p sw args chain (j + m)) (hfuel : m < fuel) (d : SweepData) :
    ∃ d', sw.searchChain p args chain fuel (j * args.increment) d = some (.ok d') := by
  induction m generalizing fuel j d with
  | zero =>
    obtain ⟨fuel, rfl⟩ : ∃ n, fuel = n + 1 := ⟨fuel - 1, by omega⟩
    obtain ⟨batch, hb, hstops⟩ := h.stops
    rw [Nat.add_zero] at hb
    rw [searchChain_succ, hb]
    dsimp only
    have hnot := (searchBatch_goes args batch d).not.mpr fun hgoes => hgoes.2 (hstops hgoes.1)
    rcases hcall : call (searchBatch args.client args.batchChunkSize batch) d with ⟨e | has, d₁⟩
    · exact ⟨d₁, rfl⟩
    · cases has with
      | false => exact ⟨d₁, rfl⟩
      | true => exact absurd ⟨d₁, hcall⟩ hnot
  | succ m ih =>
    obtain ⟨fuel, rfl⟩ : ∃ n, fuel = n + 1 := ⟨fuel - 1, by omega⟩
    obtain ⟨batch, hb, hgoes⟩ := h.before j (by omega)
    obtain ⟨d₁, hcall⟩ := (searchBatch_goes args batch d).mpr hgoes
    rw [searchChain_succ, hb]
    dsimp only
    rw [hcall]
    exact ih (by rwa [Nat.add_assoc, Nat.add_comm 1 m]) (by omega) d₁

/-! ## All chains -/

theorem discoverWalletFunds_eq (p : Platform Node) (sw : Sweeper Node) (args : DiscoveryArgs) (fuel : Nat) :
    sw.discoverWalletFunds p args fuel =
      Series.eachSeries (fun chain => sw.searchChain p args chain fuel 0) sw.chains .empty :=
  Series.eachSeries_product (fun chain => sw.searchChain p args chain fuel 0) _ _ _

/-- **Resolution.** Discovery resolves exactly if the search of every chain ends. -/
theorem resolves_iff (p : Platform Node) (sw : Sweeper Node) (args : DiscoveryArgs) :
    (∃ fuel d, sw.discoverWalletFunds p args fuel = some (.ok d)) ↔ ∀ chain ∈ sw.chains, ¬Endless p sw args chain := by
  constructor
  · rintro ⟨fuel, d, h⟩ chain hc
    rw [discoverWalletFunds_eq] at h
    obtain ⟨j, hj⟩ : ∃ j, EndsAt p sw args chain j := by
      refine Series.eachSeries_mem (Q := fun _ => ∃ j, EndsAt p sw args chain j) ?_ (fun _ _ _ _ hq => hq) hc h
      intro s t hs
      rw [← Nat.zero_mul args.increment] at hs
      exact endsAt_of_searchChain (fun i hi => absurd hi (Nat.not_lt_zero i)) hs
    exact hj.not_endless
  · intro h
    have hends : ∀ chain : Str × Nat, ∃ j, chain ∈ sw.chains → EndsAt p sw args chain j := by
      intro chain
      by_cases hc : chain ∈ sw.chains
      · obtain ⟨j, hj⟩ := (endsAt_or_endless p sw args chain).resolve_right (h chain hc)
        exact ⟨j, fun _ => hj⟩
      · exact ⟨0, fun hmem => absurd hmem hc⟩
    choose N hN using hends
    have hchain : ∀ chain ∈ sw.chains, ∀ d, ∃ d',
        sw.searchChain p args chain ((sw.chains.map N).sum + 1) 0 d = some (.ok d') := by
      intro chain hc d
      have hle : N chain ≤ (sw.chains.map N).sum := List.le_sum_of_mem (List.mem_map_of_mem hc)
      have hj : EndsAt p sw args chain (0 + N chain) := by
        rw [Nat.zero_add]
        exact hN chain hc
      obtain ⟨d', hd'⟩ := searchChain_endsAt hj (Nat.lt_succ_of_le hle) d
      rw [Nat.zero_mul] at hd'
      exact ⟨d', hd'⟩
    obtain ⟨d, hd⟩ := Series.eachSeries_ok hchain (s := .empty)
    exact ⟨_, d, (discoverWalletFunds_eq p sw args _).trans hd⟩

end JsSdk
