import Blocktrail.JsSdk.DiscoverySpec
import Blocktrail.WebWallet.SweeperService

/-! # What the sweeper service finds -/

open Text Throwing Bitcoin Assoc
open JsSdk (Utxo BitcoinDataClient nonempty)

namespace WebWallet

namespace SweeperService

variable {Node Key : Type}

/-! ## The ledger behind the data client -/

def outpoint (o : Str × Utxo) : Str × Nat := (o.2.hash, o.2.index)

structure Ledger where
  used : Str → Bool
  /-- The unspent outputs, each with its address. -/
  unspent : List (Str × Utxo)
  nodup : (unspent.map outpoint).Nodup

def Ledger.unspentOf (ledger : Ledger) (a : Str) : List Utxo :=
  (ledger.unspent.filter fun o => o.1 = a).map Prod.snd

theorem Ledger.mem_unspentOf {ledger : Ledger} {a : Str} {u : Utxo} :
    u ∈ ledger.unspentOf a ↔ (a, u) ∈ ledger.unspent := by
  unfold Ledger.unspentOf
  rw [List.mem_map]
  constructor
  · rintro ⟨⟨b, v⟩, hmem, rfl⟩
    have hb : b = a := of_decide_eq_true (List.mem_filter.mp hmem).2
    rw [← hb]
    exact (List.mem_filter.mp hmem).1
  · intro h
    exact ⟨(a, u), List.mem_filter.mpr ⟨h, decide_eq_true rfl⟩, rfl⟩

/-- Every query is answered, from the ledger. -/
structure Serves (client : BitcoinDataClient) (ledger : Ledger) : Prop where
  hasTransactions : ∀ addresses, client.batchAddressHasTransactions addresses = .ok (addresses.any ledger.used)
  unspentOutputs : ∀ addresses, ∃ results, client.getBatchUnspentOutputs addresses = .ok results ∧
    ∀ a, results.get? a = if a ∈ addresses then nonempty (ledger.unspentOf a) else none

theorem nonempty_eq_some {α : Type} {l m : List α} : nonempty l = some m ↔ l = m ∧ m ≠ [] := by
  unfold nonempty
  constructor
  · intro h
    split at h
    · cases h
    · next hne =>
      cases h
      exact ⟨rfl, hne⟩
  · rintro ⟨rfl, hne⟩
    exact if_neg hne

/-! ## Addresses and their batches -/

/-- The address of an index of a chain. -/
def addressOf (bitcoinJS : BitcoinJS Node Key) (p : Node × Nat) : Str :=
  bitcoinJS.hd.getAddress (bitcoinJS.hd.child p.1 p.2)

def InBatch (batchSize k i : Nat) : Prop := k * batchSize ≤ i ∧ i ≤ batchSize + k * batchSize

/-- A child key has an index below `2^32`. -/
def BatchUsed (bitcoinJS : BitcoinJS Node Key) (ledger : Ledger) (batchSize : Nat) (parent : Node) (k : Nat) : Prop :=
  ∃ i < 2 ^ 32, InBatch batchSize k i ∧ ledger.used (addressOf bitcoinJS (parent, i)) = true

/-- The index is in a batch before the first unused one. -/
def Reached (bitcoinJS : BitcoinJS Node Key) (ledger : Ledger) (batchSize : Nat) (p : Node × Nat) : Prop :=
  p.2 < 2 ^ 32 ∧ ∃ k, InBatch batchSize k p.2 ∧ ∀ j ≤ k, BatchUsed bitcoinJS ledger batchSize p.1 j

/-- There is an unused batch, of indexes that a key has children for. -/
def Searchable (bitcoinJS : BitcoinJS Node Key) (ledger : Ledger) (batchSize : Nat) (parent : Node) : Prop :=
  ∃ k, batchSize + k * batchSize < 2 ^ 32 ∧ ¬BatchUsed bitcoinJS ledger batchSize parent k

/-! ## What an object of results holds -/

/-- What there is to know of an address: its key, its index and its outputs. -/
def foundAt (bitcoinJS : BitcoinJS Node Key) (ledger : Ledger) (p : Node × Nat) : Found Key where
  priv_key := bitcoinJS.keyPair (bitcoinJS.hd.child p.1 p.2)
  derive_idx := p.2
  utxos := ledger.unspentOf (addressOf bitcoinJS p)

/-- The results are those of the addresses at `S` that have outputs. -/
structure Holds (bitcoinJS : BitcoinJS Node Key) (ledger : Ledger) (S : Set (Node × Nat))
    (results : Object Str (Found Key)) : Prop where
  sound : ∀ a e, results.get? a = some e →
    ∃ p ∈ S, a = addressOf bitcoinJS p ∧ e = foundAt bitcoinJS ledger p ∧ ledger.unspentOf a ≠ []
  complete : ∀ p ∈ S, ledger.unspentOf (addressOf bitcoinJS p) ≠ [] → addressOf bitcoinJS p ∈ results.keys

section Holds

variable {bitcoinJS : BitcoinJS Node Key} {ledger : Ledger} {S T : Set (Node × Nat)} {o r : Object Str (Found Key)}

theorem holds_empty : Holds bitcoinJS ledger ∅ .empty where
  sound a e h := by cases h
  complete p hp := absurd hp (Set.notMem_empty p)

theorem Holds.congr (h : Holds bitcoinJS ledger S o) (hST : ∀ p, p ∈ S ↔ p ∈ T) : Holds bitcoinJS ledger T o := by
  obtain rfl : S = T := Set.ext hST
  exact h

theorem Holds.assign (ho : Holds bitcoinJS ledger S o) (hr : Holds bitcoinJS ledger T r) :
    Holds bitcoinJS ledger (S ∪ T) (o.assign r) where
  sound a e h := by
    rw [Object.get?_assign] at h
    rcases hg : r.get? a with _ | e'
    · rw [hg, Option.none_or] at h
      obtain ⟨p, hp, hrest⟩ := ho.sound a e h
      exact ⟨p, Or.inl hp, hrest⟩
    · rw [hg, Option.some_or] at h
      cases h
      obtain ⟨p, hp, hrest⟩ := hr.sound a e hg
      exact ⟨p, Or.inr hp, hrest⟩
  complete p hp hne := by
    have hmem : ∀ e, (o.assign r).get? (addressOf bitcoinJS p) = some e → addressOf bitcoinJS p ∈ (o.assign r).keys :=
      fun e he => Object.mem_keys _ he
    rcases hg : r.get? (addressOf bitcoinJS p) with _ | e
    · rcases hp with hp | hp
      · obtain ⟨e, he⟩ := o.exists_get? (ho.complete p hp hne)
        exact hmem e (by rw [Object.get?_assign, hg, Option.none_or, he])
      · obtain ⟨e, he⟩ := r.exists_get? (hr.complete p hp hne)
        rw [he] at hg
        cases hg
    · exact hmem e (by rw [Object.get?_assign, hg, Option.some_or])

theorem Holds.keys_eq_nil (h : Holds bitcoinJS ledger S o) :
    o.keys = [] ↔ ∀ p ∈ S, ledger.unspentOf (addressOf bitcoinJS p) = [] := by
  constructor
  · intro hnil p hp
    by_contra hne
    have hmem := h.complete p hp hne
    rw [hnil] at hmem
    cases hmem
  · intro hall
    rcases hk : o.keys with _ | ⟨a, as⟩
    · rfl
    have ha : a ∈ o.keys := by
      rw [hk]
      exact List.mem_cons_self
    obtain ⟨e, he⟩ := o.exists_get? ha
    obtain ⟨p, hp, rfl, -, hne⟩ := h.sound a e he
    exact absurd (hall p hp) hne

end Holds

/-! ## The outputs of an object of results -/

/-- Each with its address. -/
def outputs (found : Object Str (Found Key)) : List (Str × Utxo) :=
  found.entries.flatMap fun e => e.2.utxos.map fun u => (e.1, u)

theorem mem_outputs {found : Object Str (Found Key)} {o : Str × Utxo} :
    o ∈ outputs found ↔ ∃ e, found.get? o.1 = some e ∧ o.2 ∈ e.utxos := by
  obtain ⟨a, u⟩ := o
  unfold outputs
  rw [List.mem_flatMap]
  constructor
  · rintro ⟨⟨b, e⟩, he, hu⟩
    obtain ⟨v, hv, heq⟩ := List.mem_map.mp hu
    cases heq
    exact ⟨e, found.get?_eq_some.mpr he, hv⟩
  · rintro ⟨e, he, hu⟩
    exact ⟨(a, e), found.get?_eq_some.mp he, List.mem_map_of_mem hu⟩

section Outputs

variable {bitcoinJS : BitcoinJS Node Key} {ledger : Ledger} {S : Set (Node × Nat)} {found : Object Str (Found Key)}

theorem Holds.utxos_eq (h : Holds bitcoinJS ledger S found) {a : Str} {e : Found Key} (he : found.get? a = some e) :
    e.utxos = ledger.unspentOf a := by
  obtain ⟨p, -, rfl, rfl, -⟩ := h.sound a e he
  rfl

theorem Holds.mem_outputs_iff (h : Holds bitcoinJS ledger S found) {o : Str × Utxo} :
    o ∈ outputs found ↔ o ∈ ledger.unspent ∧ ∃ p ∈ S, o.1 = addressOf bitcoinJS p := by
  rw [mem_outputs]
  constructor
  · rintro ⟨e, he, hu⟩
    rw [h.utxos_eq he] at hu
    obtain ⟨p, hp, ha, -, -⟩ := h.sound o.1 e he
    exact ⟨Ledger.mem_unspentOf.mp hu, p, hp, ha⟩
  · rintro ⟨hmem, p, hp, ha⟩
    have hu : o.2 ∈ ledger.unspentOf o.1 := Ledger.mem_unspentOf.mpr hmem
    have hkey : o.1 ∈ found.keys := by
      rw [ha]
      refine h.complete p hp ?_
      rw [← ha]
      exact List.ne_nil_of_mem hu
    obtain ⟨e, he⟩ := found.exists_get? hkey
    refine ⟨e, he, ?_⟩
    rw [h.utxos_eq he]
    exact hu

theorem Ledger.map_unspentOf (ledger : Ledger) (a : Str) :
    (ledger.unspentOf a).map (fun u => (a, u)) = ledger.unspent.filter fun o => o.1 = a := by
  unfold Ledger.unspentOf
  rw [List.map_map]
  refine (List.map_congr_left fun o ho => ?_).trans (List.map_id _)
  have ha : o.1 = a := of_decide_eq_true (List.mem_filter.mp ho).2
  rw [← ha]
  rfl

theorem Holds.nodup_outpoints (h : Holds bitcoinJS ledger S found) : ((outputs found).map outpoint).Nodup := by
  have hledger : ledger.unspent.Nodup := ledger.nodup.of_map outpoint
  have hnodup : (outputs found).Nodup := by
    refine List.nodup_flatMap.mpr ⟨?_, ?_⟩
    · intro e he
      rw [h.utxos_eq (found.get?_eq_some.mpr he), Ledger.map_unspentOf]
      exact hledger.filter _
    · have hkeys : found.entries.Pairwise fun e f => e.1 ≠ f.1 := List.pairwise_map.mp found.nodup
      refine hkeys.imp fun {e f} hne => ?_
      intro o hoe hof
      obtain ⟨u, -, rfl⟩ := List.mem_map.mp hoe
      obtain ⟨v, -, hv⟩ := List.mem_map.mp hof
      exact hne (congrArg Prod.fst hv).symm
  refine hnodup.map_on fun o ho o' ho' heq => ?_
  exact List.inj_on_of_nodup_map ledger.nodup (h.mem_outputs_iff.mp ho).1 (h.mem_outputs_iff.mp ho').1 heq

end Outputs

/-! ## One batch -/

section Batch

variable {bitcoinJS : BitcoinJS Node Key} {client : BitcoinDataClient} {ledger : Ledger} {batchSize k : Nat} {parent : Node}

theorem mem_batch {i : Nat} : i ∈ List.range' (k * batchSize) (batchSize + 1) ↔ InBatch batchSize k i := by
  rw [List.mem_range'_1, InBatch]
  omega

theorem derived_ok (hp : bitcoinJS.hd.isNeutered parent = false) {i : Nat} (hi : i < 2 ^ 32) :
    derived bitcoinJS parent i = .ok (addressOf bitcoinJS (parent, i), ⟨bitcoinJS.keyPair (bitcoinJS.hd.child parent i), i⟩) := by
  unfold derived
  rw [bitcoinJS.hd.derive_private hp hi]
  rfl

theorem derived_error {i : Nat} (hi : ¬i < 2 ^ 32) : ∃ e, derived bitcoinJS parent i = .error e := by
  refine ⟨⟨"TfTypeError", "Expected UInt32"⟩, ?_⟩
  unfold derived
  show ((if i < 2 ^ 32 then _ else _ : Except JsError Node) >>= _) = _
  rw [if_neg hi]
  rfl

theorem batch_ok (hp : bitcoinJS.hd.isNeutered parent = false) (hk : batchSize + k * batchSize < 2 ^ 32) :
    ∃ batch, batchDeriveAddressesAndPrivKeys bitcoinJS parent (k * batchSize) batchSize = .ok batch ∧
      (∀ i, InBatch batchSize k i → addressOf bitcoinJS (parent, i) ∈ batch.keys) ∧
      ∀ a d, batch.get? a = some d → ∃ i, InBatch batchSize k i ∧ a = addressOf bitcoinJS (parent, i) ∧
        d = ⟨bitcoinJS.keyPair (bitcoinJS.hd.child parent i), i⟩ := by
  have hlt : ∀ i, InBatch batchSize k i → i < 2 ^ 32 := fun i hi => Nat.lt_of_le_of_lt hi.2 hk
  have hall : ∀ i ∈ List.range' (k * batchSize) (batchSize + 1), ∃ e, derived bitcoinJS parent i = .ok e :=
    fun i hi => ⟨_, derived_ok hp (hlt i (mem_batch.mp hi))⟩
  obtain ⟨batch, hbatch⟩ := Object.exists_collect hall
  refine ⟨batch, hbatch, ?_, ?_⟩
  · intro i hi
    obtain ⟨e, he, hmem⟩ := Object.mem_keys_collect hbatch (mem_batch.mpr hi)
    rw [derived_ok hp (hlt i hi)] at he
    cases he
    exact hmem
  · intro a d hd
    obtain ⟨i, hi, he⟩ := Object.get?_collect hbatch hd
    rw [mem_batch] at hi
    rw [derived_ok hp (hlt i hi)] at he
    cases he
    exact ⟨i, hi, rfl, rfl⟩

theorem batch_error (hk : ¬batchSize + k * batchSize < 2 ^ 32) :
    ∃ e, batchDeriveAddressesAndPrivKeys bitcoinJS parent (k * batchSize) batchSize = .error e := by
  cases h : batchDeriveAddressesAndPrivKeys bitcoinJS parent (k * batchSize) batchSize with
  | error e => exact ⟨e, rfl⟩
  | ok batch =>
    have hlast : InBatch batchSize k (batchSize + k * batchSize) := ⟨Nat.le_add_left _ _, Nat.le_refl _⟩
    obtain ⟨e, he, -⟩ := Object.mem_keys_collect h (mem_batch.mpr hlast)
    have herr : ∃ e, derived bitcoinJS parent (batchSize + k * batchSize) = .error e := derived_error hk
    obtain ⟨e', he'⟩ := herr
    rw [he] at he'
    cases he'

theorem holds_batch {batch : Object Str (Derived Key)} {results : Object Str (List Utxo)}
    (hkeys : ∀ i, InBatch batchSize k i → addressOf bitcoinJS (parent, i) ∈ batch.keys)
    (hget : ∀ a d, batch.get? a = some d → ∃ i, InBatch batchSize k i ∧ a = addressOf bitcoinJS (parent, i) ∧
      d = ⟨bitcoinJS.keyPair (bitcoinJS.hd.child parent i), i⟩)
    (hres : ∀ a, results.get? a = if a ∈ batch.keys then nonempty (ledger.unspentOf a) else none) :
    ∃ o, Object.collect (addData batch) results.entries = .ok o ∧
      Holds bitcoinJS ledger {p | p.1 = parent ∧ InBatch batchSize k p.2} o := by
  have hentry : ∀ e ∈ results.entries, ∃ d, batch.get? e.1 = some d ∧ addData batch e = .ok (e.1, ⟨d, e.2⟩) := by
    intro e he
    have hg : results.get? e.1 = some e.2 := results.get?_eq_some.mpr he
    have hmem : e.1 ∈ batch.keys := by
      by_contra hno
      rw [hres, if_neg hno] at hg
      cases hg
    obtain ⟨d, hd⟩ := batch.exists_get? hmem
    refine ⟨d, hd, ?_⟩
    unfold addData
    rw [hd]
  have hall : ∀ e ∈ results.entries, ∃ x, addData batch e = .ok x := by
    intro e he
    obtain ⟨d, -, hadd⟩ := hentry e he
    exact ⟨_, hadd⟩
  obtain ⟨o, ho⟩ := Object.exists_collect hall
  refine ⟨o, ho, ?_, ?_⟩
  · intro a e hae
    obtain ⟨x, hx, hadd⟩ := Object.get?_collect ho hae
    obtain ⟨d, hd, hadd'⟩ := hentry x hx
    rw [hadd'] at hadd
    cases hadd
    obtain ⟨i, hi, ha, rfl⟩ := hget x.1 d hd
    have hg : results.get? x.1 = some x.2 := results.get?_eq_some.mpr hx
    rw [hres, if_pos (batch.mem_keys hd)] at hg
    obtain ⟨hx2, hne⟩ := nonempty_eq_some.mp hg
    refine ⟨(parent, i), ⟨rfl, hi⟩, ha, ?_, ?_⟩
    · rw [foundAt, ← ha, hx2]
    · rw [hx2]
      exact hne
  · rintro ⟨q, i⟩ ⟨hq, hi⟩ hne
    obtain rfl : q = parent := hq
    have hg : results.get? (addressOf bitcoinJS (q, i)) = some (ledger.unspentOf (addressOf bitcoinJS (q, i))) := by
      rw [hres, if_pos (hkeys i hi)]
      exact nonempty_eq_some.mpr ⟨rfl, hne⟩
    obtain ⟨x, hadd, hmem⟩ := Object.mem_keys_collect ho (results.get?_eq_some.mp hg)
    obtain ⟨d, -, hadd'⟩ := hentry _ (results.get?_eq_some.mp hg)
    rw [hadd'] at hadd
    cases hadd
    exact hmem

theorem any_used {batch : Object Str (Derived Key)} (hk : batchSize + k * batchSize < 2 ^ 32)
    (hkeys : ∀ i, InBatch batchSize k i → addressOf bitcoinJS (parent, i) ∈ batch.keys)
    (hget : ∀ a d, batch.get? a = some d → ∃ i, InBatch batchSize k i ∧ a = addressOf bitcoinJS (parent, i) ∧
      d = ⟨bitcoinJS.keyPair (bitcoinJS.hd.child parent i), i⟩) :
    batch.keys.any ledger.used = true ↔ BatchUsed bitcoinJS ledger batchSize parent k := by
  rw [List.any_eq_true]
  constructor
  · rintro ⟨a, ha, hu⟩
    obtain ⟨d, hd⟩ := batch.exists_get? ha
    obtain ⟨i, hi, rfl, -⟩ := hget a d hd
    exact ⟨i, Nat.lt_of_le_of_lt hi.2 hk, hi, hu⟩
  · rintro ⟨i, -, hi, hu⟩
    exact ⟨_, hkeys i hi, hu⟩

theorem batchDiscover_unused (hs : Serves client ledger) (hp : bitcoinJS.hd.isNeutered parent = false)
    (hk : batchSize + k * batchSize < 2 ^ 32) (hu : ¬BatchUsed bitcoinJS ledger batchSize parent k) :
    batchDiscoverUTXOs bitcoinJS client parent k batchSize = .ok none := by
  obtain ⟨batch, hbatch, hkeys, hget⟩ := batch_ok hp hk
  have hany : batch.keys.any ledger.used = false :=
    Bool.eq_false_iff.mpr fun h => hu ((any_used hk hkeys hget).mp h)
  unfold batchDiscoverUTXOs
  rw [hbatch, ok_bind]
  dsimp only
  rw [hs.hasTransactions, ok_bind, hany]
  rfl

theorem batchDiscover_used (hs : Serves client ledger) (hp : bitcoinJS.hd.isNeutered parent = false)
    (hk : batchSize + k * batchSize < 2 ^ 32) (hu : BatchUsed bitcoinJS ledger batchSize parent k) :
    ∃ o, batchDiscoverUTXOs bitcoinJS client parent k batchSize = .ok (some o) ∧
      Holds bitcoinJS ledger {p | p.1 = parent ∧ InBatch batchSize k p.2} o := by
  obtain ⟨batch, hbatch, hkeys, hget⟩ := batch_ok hp hk
  obtain ⟨results, hresults, hres⟩ := hs.unspentOutputs batch.keys
  obtain ⟨o, ho, hholds⟩ := holds_batch hkeys hget hres
  refine ⟨o, ?_, hholds⟩
  unfold batchDiscoverUTXOs
  rw [hbatch, ok_bind]
  dsimp only
  rw [hs.hasTransactions, ok_bind, (any_used hk hkeys hget).mpr hu, if_pos rfl, hresults, ok_bind, ho]
  rfl

theorem batchDiscover_error (hk : ¬batchSize + k * batchSize < 2 ^ 32) :
    ∃ e, batchDiscoverUTXOs bitcoinJS client parent k batchSize = .error e := by
  have herr : ∃ e, batchDeriveAddressesAndPrivKeys bitcoinJS parent (k * batchSize) batchSize = .error e :=
    batch_error hk
  obtain ⟨e, he⟩ := herr
  refine ⟨e, ?_⟩
  unfold batchDiscoverUTXOs
  rw [he]
  rfl

end Batch

/-! ## One chain -/

section Chain

variable {bitcoinJS : BitcoinJS Node Key} {client : BitcoinDataClient} {ledger : Ledger} {batchSize : Nat} {parent : Node}

/-- The batches before the `n`th are used, and their results are there. -/
structure ChainInv (bitcoinJS : BitcoinJS Node Key) (ledger : Ledger) (batchSize : Nat) (parent : Node)
    (s : Nat × Object Str (Found Key)) : Prop where
  used : ∀ k < s.1, BatchUsed bitcoinJS ledger batchSize parent k
  holds : Holds bitcoinJS ledger {p | p.1 = parent ∧ ∃ k < s.1, InBatch batchSize k p.2} s.2

theorem chainInv_start : ChainInv bitcoinJS ledger batchSize parent (0, .empty) where
  used k hk := absurd hk (Nat.not_lt_zero k)
  holds := holds_empty.congr fun p =>
    ⟨fun h => absurd h (Set.notMem_empty p), fun ⟨_, k, hk, _⟩ => absurd hk (Nat.not_lt_zero k)⟩

theorem ChainInv.next {k : Nat} {o r : Object Str (Found Key)} (h : ChainInv bitcoinJS ledger batchSize parent (k, o))
    (hu : BatchUsed bitcoinJS ledger batchSize parent k)
    (hr : Holds bitcoinJS ledger {p | p.1 = parent ∧ InBatch batchSize k p.2} r) :
    ChainInv bitcoinJS ledger batchSize parent (k + 1, o.assign r) where
  used j hj := by
    rcases Nat.lt_succ_iff_lt_or_eq.mp hj with hlt | rfl
    · exact h.used j hlt
    · exact hu
  holds := by
    refine (h.holds.assign hr).congr fun p => ?_
    constructor
    · rintro (⟨hp, j, hj, hin⟩ | ⟨hp, hin⟩)
      · exact ⟨hp, j, Nat.lt_succ_of_lt hj, hin⟩
      · exact ⟨hp, k, Nat.lt_succ_self k, hin⟩
    · rintro ⟨hp, j, hj, hin⟩
      rcases Nat.lt_succ_iff_lt_or_eq.mp hj with hlt | rfl
      · exact Or.inl ⟨hp, j, hlt, hin⟩
      · exact Or.inr ⟨hp, hin⟩

/-- A call goes on after a used batch, and resolves at an unused one. -/
theorem discoverBatch_unused (hs : Serves client ledger) (hp : bitcoinJS.hd.isNeutered parent = false) {k : Nat}
    (hk : batchSize + k * batchSize < 2 ^ 32) (hu : ¬BatchUsed bitcoinJS ledger batchSize parent k)
    (o : Object Str (Found Key)) : discoverBatch bitcoinJS client parent batchSize (k, o) = .ok (.inr o) := by
  unfold discoverBatch
  rw [batchDiscover_unused hs hp hk hu]
  rfl

theorem discoverBatch_used (hs : Serves client ledger) (hp : bitcoinJS.hd.isNeutered parent = false) {k : Nat}
    (hk : batchSize + k * batchSize < 2 ^ 32) (hu : BatchUsed bitcoinJS ledger batchSize parent k)
    (o : Object Str (Found Key)) :
    ∃ r, discoverBatch bitcoinJS client parent batchSize (k, o) = .ok (.inl (k + 1, o.assign r)) ∧
      Holds bitcoinJS ledger {p | p.1 = parent ∧ InBatch batchSize k p.2} r := by
  obtain ⟨r, hr, hholds⟩ := batchDiscover_used hs hp hk hu
  refine ⟨r, ?_, hholds⟩
  unfold discoverBatch
  rw [hr]
  rfl

theorem lt_of_discoverBatch {k : Nat} {o : Object Str (Found Key)}
    {r : Nat × Object Str (Found Key) ⊕ Object Str (Found Key)}
    (h : discoverBatch bitcoinJS client parent batchSize (k, o) = .ok r) : batchSize + k * batchSize < 2 ^ 32 := by
  by_contra hk
  have herr : ∃ e, batchDiscoverUTXOs bitcoinJS client parent k batchSize = .error e := batchDiscover_error hk
  obtain ⟨e, he⟩ := herr
  unfold discoverBatch at h
  rw [he] at h
  cases h

theorem reached_iff {n : Nat} (hn : batchSize + n * batchSize < 2 ^ 32)
    (hused : ∀ k < n, BatchUsed bitcoinJS ledger batchSize parent k)
    (hu : ¬BatchUsed bitcoinJS ledger batchSize parent n) (i : Nat) :
    (∃ k < n, InBatch batchSize k i) ↔ Reached bitcoinJS ledger batchSize (parent, i) := by
  constructor
  · rintro ⟨k, hk, hin⟩
    have hle : k * batchSize ≤ n * batchSize := Nat.mul_le_mul_right batchSize (Nat.le_of_lt hk)
    have hi : i ≤ batchSize + k * batchSize := hin.2
    exact ⟨by show i < 2 ^ 32; omega, k, hin, fun j hj => hused j (Nat.lt_of_le_of_lt hj hk)⟩
  · rintro ⟨-, k, hin, hall⟩
    refine ⟨k, ?_, hin⟩
    by_contra hk
    exact hu (hall n (Nat.not_lt.mp hk))

theorem ChainInv.reached {n : Nat} {o : Object Str (Found Key)} (h : ChainInv bitcoinJS ledger batchSize parent (n, o))
    (hn : batchSize + n * batchSize < 2 ^ 32) (hu : ¬BatchUsed bitcoinJS ledger batchSize parent n) :
    Holds bitcoinJS ledger {p | p.1 = parent ∧ Reached bitcoinJS ledger batchSize p} o := by
  refine h.holds.congr ?_
  rintro ⟨q, i⟩
  refine and_congr_right fun hq => ?_
  obtain rfl : q = parent := hq
  exact reached_iff hn h.used hu i

/-- What a chain resolves with is what its addresses before the first unused batch have. -/
theorem discover_ok (hs : Serves client ledger) (hp : bitcoinJS.hd.isNeutered parent = false) {fuel : Nat}
    {o : Object Str (Found Key)} (h : discover bitcoinJS client batchSize fuel parent = some (.ok o)) :
    Searchable bitcoinJS ledger batchSize parent ∧
      Holds bitcoinJS ledger {p | p.1 = parent ∧ Reached bitcoinJS ledger batchSize p} o := by
  have hstep : ∀ s t, ChainInv bitcoinJS ledger batchSize parent s →
      some (discoverBatch bitcoinJS client parent batchSize s) = some (.ok (.inl t)) →
        ChainInv bitcoinJS ledger batchSize parent t := by
    rintro ⟨k, o⟩ t hinv hbody
    rw [Option.some_inj] at hbody
    have hk := lt_of_discoverBatch hbody
    by_cases hu : BatchUsed bitcoinJS ledger batchSize parent k
    · obtain ⟨r, hr, hholds⟩ := discoverBatch_used hs hp hk hu o
      rw [hr] at hbody
      cases hbody
      exact hinv.next hu hholds
    · rw [discoverBatch_unused hs hp hk hu] at hbody
      cases hbody
  obtain ⟨⟨n, o'⟩, hinv, hlast⟩ := Series.exists_of_recur_ok hstep h chainInv_start
  rw [Option.some_inj] at hlast
  have hn := lt_of_discoverBatch hlast
  by_cases hu : BatchUsed bitcoinJS ledger batchSize parent n
  · obtain ⟨r, hr, -⟩ := discoverBatch_used hs hp hn hu o'
    rw [hr] at hlast
    cases hlast
  · rw [discoverBatch_unused hs hp hn hu] at hlast
    cases hlast
    exact ⟨⟨n, hn, hu⟩, hinv.reached hn hu⟩

theorem discover_returns (hs : Serves client ledger) (hp : bitcoinJS.hd.isNeutered parent = false)
    (hb : 0 < batchSize) (h : Searchable bitcoinJS ledger batchSize parent) :
    ∃ o, discover bitcoinJS client batchSize (2 ^ 32) parent = some (.ok o) := by
  classical
  obtain ⟨m, hm, hum⟩ := h
  have hex : ∃ k, ¬BatchUsed bitcoinJS ledger batchSize parent k := ⟨m, hum⟩
  have hle : Nat.find hex ≤ m := Nat.find_le hum
  have hlt : ∀ j, j ≤ Nat.find hex → batchSize + j * batchSize < 2 ^ 32 := by
    intro j hj
    have hmul : j * batchSize ≤ m * batchSize := Nat.mul_le_mul_right batchSize (Nat.le_trans hj hle)
    omega
  have hstep : ∀ j < Nat.find hex, ∀ s : Nat × Object Str (Found Key), s.1 = j →
      ∃ t, some (discoverBatch bitcoinJS client parent batchSize s) = some (.ok (.inl t)) ∧ t.1 = j + 1 := by
    rintro j hj ⟨k, o⟩ hkj
    obtain rfl : k = j := hkj
    obtain ⟨r, hr, -⟩ := discoverBatch_used hs hp (hlt k (Nat.le_of_lt hj)) (not_not.mp (Nat.find_min hex hj)) o
    exact ⟨_, congrArg some hr, rfl⟩
  have hstop : ∀ s : Nat × Object Str (Found Key), s.1 = Nat.find hex →
      ∃ r, some (discoverBatch bitcoinJS client parent batchSize s) = some (.ok (.inr r)) ∧ True := by
    rintro ⟨k, o⟩ hkj
    obtain rfl : k = Nat.find hex := hkj
    exact ⟨o, congrArg some (discoverBatch_unused hs hp (hlt _ (Nat.le_refl _)) (Nat.find_spec hex) o), trivial⟩
  have hfuel : Nat.find hex < 2 ^ 32 := by
    have hmul : Nat.find hex * 1 ≤ Nat.find hex * batchSize := Nat.mul_le_mul_left _ hb
    have hend := hlt _ (Nat.le_refl _)
    omega
  obtain ⟨o, ho, -⟩ := Series.recur_returns (J := fun j s => s.1 = j) hstep hstop hfuel (s := (0, Object.empty)) rfl
  exact ⟨o, ho⟩

end Chain

end SweeperService

end WebWallet
