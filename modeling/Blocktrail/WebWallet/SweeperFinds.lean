import Mathlib.Data.List.Dedup
import Blocktrail.Bitcoin.Sample
import Blocktrail.WebWallet.SweeperSpec

/-! # The accounts that the sweeper service searches -/

open Text Throwing Bitcoin Assoc
open JsSdk (Utxo BitcoinDataClient nonempty)

namespace WebWallet

namespace SweeperService

variable {Node Key : Type}

/-! ## The chains of an account -/

def chainNode (hd : HDLib Node) (root : Node) (testnet : Bool) (i c : Nat) : Node :=
  hd.child (hd.child (hd.child (hd.child root (44 + HIGHEST_BIT)) (testnet.toNat + HIGHEST_BIT)) (i + HIGHEST_BIT)) c

theorem splitOn_chainPath (testnet : Bool) (i c : Nat) :
    (chainPath testnet i c).splitOn '/' =
      ["m".toList, dec 44 ++ [apostrophe], dec testnet.toNat ++ [apostrophe], dec i ++ [apostrophe], dec c] := by
  have hnot : ∀ n, '/' ∉ dec n ++ [apostrophe] := by
    intro n
    simp only [List.mem_append, List.mem_singleton, not_or]
    exact ⟨slash_not_mem_dec n, by decide⟩
  have he : chainPath testnet i c = "m".toList ++ '/' :: ((dec 44 ++ [apostrophe]) ++ '/' ::
      ((dec testnet.toNat ++ [apostrophe]) ++ '/' :: ((dec i ++ [apostrophe]) ++ '/' :: dec c))) := by
    have h44 : "m/44".toList = "m".toList ++ '/' :: dec 44 := by decide
    rw [chainPath, h44]
    simp
  rw [he, List.splitOn_append_cons_self_of_not_mem (by decide), List.splitOn_append_cons_self_of_not_mem (hnot _),
    List.splitOn_append_cons_self_of_not_mem (hnot _), List.splitOn_append_cons_self_of_not_mem (hnot _),
    List.splitOn_eq_singleton (slash_not_mem_dec c)]

theorem derivePath_chainPath {hd : HDLib Node} (hl : hd.Lawful) {root : Node} (hr : hd.isNeutered root = false)
    (testnet : Bool) (i : Nat) {c : Nat} (hc : c < HIGHEST_BIT) :
    derivePath hd root (chainPath testnet i c) =
      if i < HIGHEST_BIT then .ok (chainNode hd root testnet i c) else .error ⟨"TfTypeError", "Expected UInt31"⟩ := by
  have hchild : ∀ {n : Node} {k : Nat}, hd.isNeutered n = false → hd.isNeutered (hd.child n k) = false := by
    intro n k hn
    rw [hl.isNeutered_child]
    exact hn
  have htest : testnet.toNat < HIGHEST_BIT := Nat.lt_of_le_of_lt (Bool.toNat_le testnet) (by decide)
  unfold derivePath
  rw [splitOn_chainPath]
  dsimp only
  rw [List.head?_cons, if_pos rfl, List.tail_cons, List.foldlM_cons, derivePart_hardened hd hr, if_pos (by decide), ok_bind,
    List.foldlM_cons, derivePart_hardened hd (hchild hr), if_pos htest, ok_bind, List.foldlM_cons,
    derivePart_hardened hd (hchild (hchild hr))]
  by_cases hi : i < HIGHEST_BIT
  · rw [if_pos hi, if_pos hi, ok_bind, List.foldlM_cons, derivePart_dec hd _ hc]
    rfl
  · rw [if_neg hi, if_neg hi]
    rfl

theorem chainNode_private {hd : HDLib Node} (hl : hd.Lawful) {root : Node} (hr : hd.isNeutered root = false)
    (testnet : Bool) (i c : Nat) : hd.isNeutered (chainNode hd root testnet i c) = false := by
  unfold chainNode
  rw [hl.isNeutered_child, hl.isNeutered_child, hl.isNeutered_child, hl.isNeutered_child]
  exact hr

def windowChains (accountBatchSize accountIdx : Nat) : List (Nat × Nat) :=
  List.range' accountIdx accountBatchSize ×ˢ [0, 1]

theorem mem_windowChains {accountBatchSize accountIdx : Nat} {x : Nat × Nat} :
    x ∈ windowChains accountBatchSize accountIdx ↔
      (accountIdx ≤ x.1 ∧ x.1 < accountIdx + accountBatchSize) ∧ x.2 ≤ 1 := by
  obtain ⟨i, c⟩ := x
  rw [windowChains, List.mem_product, List.mem_range'_1]
  refine and_congr_right fun _ => ?_
  rw [List.mem_cons, List.mem_singleton]
  exact Nat.le_one_iff_eq_zero_or_eq_one.symm

theorem searchPaths_eq (accountBatchSize : Nat) (testnet : Bool) (accountIdx : Nat) :
    searchPaths accountBatchSize testnet accountIdx =
      (windowChains accountBatchSize accountIdx).map fun x => chainPath testnet x.1 x.2 := by
  show _ = (List.flatMap _ _).map _
  rw [List.map_flatMap]
  rfl

theorem mapM_searchPaths {hd : HDLib Node} (hl : hd.Lawful) {root : Node} (hr : hd.isNeutered root = false)
    {accountBatchSize : Nat} (testnet : Bool) {accountIdx : Nat} {nodes : List Node} :
    (searchPaths accountBatchSize testnet accountIdx).mapM (derivePath hd root) = .ok nodes ↔
      (∀ i, accountIdx ≤ i → i < accountIdx + accountBatchSize → i < HIGHEST_BIT) ∧
        nodes = (windowChains accountBatchSize accountIdx).map fun x => chainNode hd root testnet x.1 x.2 := by
  have hchain : ∀ x ∈ windowChains accountBatchSize accountIdx, x.2 < HIGHEST_BIT :=
    fun x hx => Nat.lt_of_le_of_lt (mem_windowChains.mp hx).2 (by decide)
  have hok : (∀ i, accountIdx ≤ i → i < accountIdx + accountBatchSize → i < HIGHEST_BIT) →
      (windowChains accountBatchSize accountIdx).mapM (derivePath hd root ∘ fun x => chainPath testnet x.1 x.2) =
        .ok ((windowChains accountBatchSize accountIdx).map fun x => chainNode hd root testnet x.1 x.2) := by
    intro hlt
    refine mapM_ok fun x hx => ?_
    have hw := (mem_windowChains.mp hx).1
    show derivePath hd root (chainPath testnet x.1 x.2) = _
    rw [derivePath_chainPath hl hr testnet x.1 (hchain x hx), if_pos (hlt x.1 hw.1 hw.2)]
  rw [searchPaths_eq, List.mapM_map]
  constructor
  · intro h
    have hlt : ∀ i, accountIdx ≤ i → i < accountIdx + accountBatchSize → i < HIGHEST_BIT := by
      intro i h1 h2
      have hmem : (i, 0) ∈ windowChains accountBatchSize accountIdx := mem_windowChains.mpr ⟨⟨h1, h2⟩, Nat.zero_le 1⟩
      obtain ⟨j, hj⟩ := List.mem_iff_getElem?.mp hmem
      obtain ⟨node, hnode, -⟩ := mapM_getElem? h hj
      have hnode' : derivePath hd root (chainPath testnet i 0) = .ok node := hnode
      by_contra hi
      rw [derivePath_chainPath hl hr testnet i (hchain _ hmem), if_neg hi] at hnode'
      cases hnode'
    rw [hok hlt] at h
    cases h
    exact ⟨hlt, rfl⟩
  · rintro ⟨hlt, rfl⟩
    exact hok hlt

/-! ## A sweep -/

/-- A root, the options, and the ledger behind the data client. -/
structure Sweep (Node Key : Type) where
  bitcoinJS : BitcoinJS Node Key
  root : Node
  options : Options
  ledger : Ledger

namespace Sweep

variable (S : Sweep Node Key)

def chain (i c : Nat) : Node := chainNode S.bitcoinJS.hd S.root S.options.testnet i c

/-- The account is of a window of `accountBatchSize`, and there is a key for it. -/
def Account (w i : Nat) : Prop :=
  w * S.options.accountBatchSize ≤ i ∧ i < w * S.options.accountBatchSize + S.options.accountBatchSize ∧ i < HIGHEST_BIT

def WindowUsed (w : Nat) : Prop :=
  ∃ i, S.Account w i ∧ ∃ c ≤ 1, ∃ n < 2 ^ 32, S.ledger.used (addressOf S.bitcoinJS (S.chain i c, n)) = true

/-- Where a window is searched: on the two chains of its accounts, before the first unused batch. -/
def places (w : Nat) : Set (Node × Nat) :=
  {p | ∃ i, S.Account w i ∧ ∃ c ≤ 1, p.1 = S.chain i c ∧ Reached S.bitcoinJS S.ledger S.options.batchSize p}

/-- The output is unspent and at an address of the window. -/
def OutputIn (w : Nat) (o : Str × Utxo) : Prop :=
  o ∈ S.ledger.unspent ∧ ∃ p ∈ S.places w, o.1 = addressOf S.bitcoinJS p

/-- The output is in a window before the first one that was never used. -/
def Owed (o : Str × Utxo) : Prop := ∃ w, (∀ v ≤ w, S.WindowUsed v) ∧ S.OutputIn w o

end Sweep

/-- Every output that is owed is there, once, at its address, and every address with its key. -/
structure Sweep.FindsAll (S : Sweep Node Key) (found : Object Str (Found Key)) : Prop where
  complete : ∀ o, S.Owed o → o ∈ outputs found
  once : ((outputs found).map outpoint).Nodup
  own : ∀ o ∈ outputs found, o ∈ S.ledger.unspent
  keyed : ∀ a e, found.get? a = some e → ∃ i < HIGHEST_BIT, ∃ c ≤ 1, ∃ n < 2 ^ 32,
    a = addressOf S.bitcoinJS (S.chain i c, n) ∧
      e.toDerived = ⟨S.bitcoinJS.keyPair (S.bitcoinJS.hd.child (S.chain i c) n), n⟩

/-- The search ends at window `s`: all chains up to it can be searched, the windows before it have outputs, and it has
none. -/
structure Sweep.EndsAt (S : Sweep Node Key) (s : Nat) : Prop where
  searchable : ∀ i < s * S.options.accountBatchSize + S.options.accountBatchSize, i < HIGHEST_BIT ∧
    ∀ c ≤ 1, Searchable S.bitcoinJS S.ledger S.options.batchSize (S.chain i c)
  funded : ∀ w < s, ∃ o, S.OutputIn w o
  empty : ∀ o, ¬S.OutputIn s o

/-! ## One window -/

section Window

variable {S : Sweep Node Key} {client : BitcoinDataClient}

theorem Sweep.funded_iff {w : Nat} :
    (∃ o, S.OutputIn w o) ↔ ∃ p ∈ S.places w, S.ledger.unspentOf (addressOf S.bitcoinJS p) ≠ [] := by
  constructor
  · rintro ⟨⟨a, u⟩, hmem, p, hp, ha⟩
    obtain rfl : a = addressOf S.bitcoinJS p := ha
    exact ⟨p, hp, List.ne_nil_of_mem (Ledger.mem_unspentOf.mpr hmem)⟩
  · rintro ⟨p, hp, hne⟩
    obtain ⟨u, hu⟩ := List.exists_mem_of_ne_nil _ hne
    exact ⟨(addressOf S.bitcoinJS p, u), Ledger.mem_unspentOf.mp hu, p, hp, rfl⟩

theorem Sweep.mem_places {w : Nat}
    (hlt : ∀ i, w * S.options.accountBatchSize ≤ i → i < w * S.options.accountBatchSize + S.options.accountBatchSize →
      i < HIGHEST_BIT) (p : Node × Nat) :
    p ∈ S.places w ↔
      p.1 ∈ (windowChains S.options.accountBatchSize (w * S.options.accountBatchSize)).map
        (fun x => chainNode S.bitcoinJS.hd S.root S.options.testnet x.1 x.2) ∧
      Reached S.bitcoinJS S.ledger S.options.batchSize p := by
  rw [List.mem_map]
  constructor
  · rintro ⟨i, ⟨h1, h2, -⟩, c, hc, hp, hreached⟩
    exact ⟨⟨(i, c), mem_windowChains.mpr ⟨⟨h1, h2⟩, hc⟩, hp.symm⟩, hreached⟩
  · rintro ⟨⟨⟨i, c⟩, hmem, hp⟩, hreached⟩
    obtain ⟨⟨h1, h2⟩, hc⟩ := mem_windowChains.mp hmem
    exact ⟨i, ⟨h1, h2, hlt i h1 h2⟩, c, hc, hp.symm, hreached⟩

theorem holds_foldl {nodes : List Node} {resultLists : List (Object Str (Found Key))} {T : Set (Node × Nat)}
    {o : Object Str (Found Key)}
    (h : List.Forall₂ (fun node r => Holds S.bitcoinJS S.ledger
      {p | p.1 = node ∧ Reached S.bitcoinJS S.ledger S.options.batchSize p} r) nodes resultLists)
    (ho : Holds S.bitcoinJS S.ledger T o) :
    Holds S.bitcoinJS S.ledger (T ∪ {p | p.1 ∈ nodes ∧ Reached S.bitcoinJS S.ledger S.options.batchSize p})
      (resultLists.foldl Object.assign o) := by
  induction h generalizing T o with
  | nil => exact ho.congr fun p => by simp
  | @cons node r nodes lists hr _ ih =>
    rw [List.foldl_cons]
    refine (ih (ho.assign hr)).congr fun p => ?_
    simp only [Set.mem_union, Set.mem_ofPred_eq, List.mem_cons]
    tauto

theorem all_isEmpty_iff {nodes : List Node} {resultLists : List (Object Str (Found Key))}
    (h : List.Forall₂ (fun node r => Holds S.bitcoinJS S.ledger
      {p | p.1 = node ∧ Reached S.bitcoinJS S.ledger S.options.batchSize p} r) nodes resultLists) :
    (resultLists.all fun result => result.keys.isEmpty) = true ↔
      ∀ p : Node × Nat, p.1 ∈ nodes → Reached S.bitcoinJS S.ledger S.options.batchSize p →
        S.ledger.unspentOf (addressOf S.bitcoinJS p) = [] := by
  induction h with
  | nil => simp
  | @cons node r nodes lists hr _ ih =>
    rw [List.all_cons, Bool.and_eq_true, ih, List.isEmpty_iff, hr.keys_eq_nil]
    constructor
    · rintro ⟨hnode, hrest⟩ p hp hreached
      rcases List.mem_cons.mp hp with hp | hp
      · exact hnode p ⟨hp, hreached⟩
      · exact hrest p hp hreached
    · intro hall
      exact ⟨fun p hp => hall p (List.mem_cons.mpr (Or.inl hp.1)) hp.2,
        fun p hp => hall p (List.mem_cons_of_mem node hp)⟩

/-- The window can be searched: the part of `EndsAt.searchable` about it. -/
def Sweep.WindowSearchable (S : Sweep Node Key) (w : Nat) : Prop :=
  ∀ i, w * S.options.accountBatchSize ≤ i → i < w * S.options.accountBatchSize + S.options.accountBatchSize →
    i < HIGHEST_BIT ∧ ∀ c ≤ 1, Searchable S.bitcoinJS S.ledger S.options.batchSize (S.chain i c)

/-- A call adds what a window has, and goes on after a window that has something. -/
theorem discoverAccounts_ok (hs : Serves client S.ledger) (hl : S.bitcoinJS.hd.Lawful)
    (hr : S.bitcoinJS.hd.isNeutered S.root = false) {w fuel : Nat} {o : Object Str (Found Key)} {T : Set (Node × Nat)}
    (ho : Holds S.bitcoinJS S.ledger T o) {r : Nat × Object Str (Found Key) ⊕ Object Str (Found Key)}
    (h : discoverAccounts S.bitcoinJS client S.root S.options fuel (w * S.options.accountBatchSize, o) = some (.ok r)) :
    S.WindowSearchable w ∧ ∃ o', Holds S.bitcoinJS S.ledger (T ∪ S.places w) o' ∧
      (((∃ out, S.OutputIn w out) ∧ r = .inl ((w + 1) * S.options.accountBatchSize, o')) ∨
        ((¬∃ out, S.OutputIn w out) ∧ r = .inr o')) := by
  unfold discoverAccounts at h
  dsimp only at h
  split at h
  · cases h
  next nodes hnodes =>
  split at h
  · cases h
  · cases h
  next resultLists hlists =>
  obtain ⟨hlt, rfl⟩ := (mapM_searchPaths hl hr S.options.testnet).mp hnodes
  have hfor := Series.all_eq_ok.mp hlists
  have hboth : List.Forall₂ (fun node r => Searchable S.bitcoinJS S.ledger S.options.batchSize node ∧
      Holds S.bitcoinJS S.ledger {p | p.1 = node ∧ Reached S.bitcoinJS S.ledger S.options.batchSize p} r)
      ((windowChains S.options.accountBatchSize (w * S.options.accountBatchSize)).map
        fun x => chainNode S.bitcoinJS.hd S.root S.options.testnet x.1 x.2) resultLists := by
    rw [List.forall₂_map_left_iff] at hfor ⊢
    exact hfor.imp fun x r hx => discover_ok hs (chainNode_private hl hr S.options.testnet x.1 x.2) hx
  obtain ⟨hsearch, hholds⟩ := (List.forall₂_and_left _ _).mp hboth
  refine ⟨?_, resultLists.foldl Object.assign o, (holds_foldl hholds ho).congr fun p => ?_, ?_⟩
  · intro i h1 h2
    refine ⟨hlt i h1 h2, fun c hc => hsearch _ ?_⟩
    exact List.mem_map.mpr ⟨(i, c), mem_windowChains.mpr ⟨⟨h1, h2⟩, hc⟩, rfl⟩
  · rw [Set.mem_union, Set.mem_union, S.mem_places hlt p]
    exact Iff.rfl
  · have hdone : (resultLists.all fun result => result.keys.isEmpty) = true ↔ ¬∃ out, S.OutputIn w out := by
      rw [all_isEmpty_iff hholds, S.funded_iff]
      constructor
      · rintro hall ⟨p, hp, hne⟩
        obtain ⟨hmem, hreached⟩ := (S.mem_places hlt p).mp hp
        exact hne (hall p hmem hreached)
      · intro hno p hmem hreached
        by_contra hne
        exact hno ⟨p, (S.mem_places hlt p).mpr ⟨hmem, hreached⟩, hne⟩
    cases h
    by_cases hf : ∃ out, S.OutputIn w out
    · left
      refine ⟨hf, ?_⟩
      rw [if_neg fun h => hdone.mp h hf, Nat.succ_mul]
    · right
      refine ⟨hf, ?_⟩
      rw [if_pos (hdone.mpr hf)]

theorem discoverAccounts_returns (hs : Serves client S.ledger) (hl : S.bitcoinJS.hd.Lawful)
    (hr : S.bitcoinJS.hd.isNeutered S.root = false) {w : Nat} (h : S.WindowSearchable w) (o : Object Str (Found Key)) :
    ∃ r, discoverAccounts S.bitcoinJS client S.root S.options (2 ^ 32) (w * S.options.accountBatchSize, o) =
      some (.ok r) := by
  have hnodes := (mapM_searchPaths hl hr S.options.testnet).mpr ⟨fun i h1 h2 => (h i h1 h2).1, rfl⟩
  have hall : ∀ node ∈ (windowChains S.options.accountBatchSize (w * S.options.accountBatchSize)).map
      (fun x => chainNode S.bitcoinJS.hd S.root S.options.testnet x.1 x.2),
      ∃ o, discover S.bitcoinJS client S.options.batchSize (2 ^ 32) node = some (.ok o) := by
    intro node hnode
    obtain ⟨⟨i, c⟩, hmem, rfl⟩ := List.mem_map.mp hnode
    obtain ⟨⟨h1, h2⟩, hc⟩ := mem_windowChains.mp hmem
    exact discover_returns hs (chainNode_private hl hr S.options.testnet i c) S.options.batchSize_pos
      ((h i h1 h2).2 c hc)
  obtain ⟨resultLists, hlists⟩ := Series.exists_all hall
  unfold discoverAccounts
  dsimp only
  rw [hnodes]
  dsimp only
  rw [hlists]
  exact ⟨_, rfl⟩

end Window

/-! ## All windows -/

section Windows

variable {S : Sweep Node Key} {client : BitcoinDataClient}

theorem Sweep.EndsAt.windowSearchable {s w : Nat} (h : S.EndsAt s) (hw : w ≤ s) : S.WindowSearchable w := by
  intro i _ hi
  have hmul : w * S.options.accountBatchSize ≤ s * S.options.accountBatchSize := Nat.mul_le_mul_right _ hw
  exact h.searchable i (by omega)

theorem Sweep.EndsAt.unique {s t : Nat} (hs : S.EndsAt s) (ht : S.EndsAt t) : s = t := by
  rcases Nat.lt_trichotomy s t with hlt | heq | hlt
  · obtain ⟨o, ho⟩ := ht.funded s hlt
    exact absurd ho (hs.empty o)
  · exact heq
  · obtain ⟨o, ho⟩ := hs.funded t hlt
    exact absurd ho (ht.empty o)

theorem Sweep.endsAt_of_windows {s : Nat} (hsearch : ∀ w ≤ s, S.WindowSearchable w)
    (hfunded : ∀ w < s, ∃ o, S.OutputIn w o) (hempty : ¬∃ o, S.OutputIn s o) : S.EndsAt s where
  searchable i hi := by
    have hle : i / S.options.accountBatchSize ≤ s := by
      rw [← Nat.lt_succ_iff, Nat.div_lt_iff_lt_mul S.options.accountBatchSize_pos, Nat.succ_mul]
      exact hi
    refine hsearch _ hle i (Nat.div_mul_le_self i _) ?_
    exact Nat.lt_div_mul_add S.options.accountBatchSize_pos
  funded := hfunded
  empty o ho := hempty ⟨o, ho⟩

/-- The windows before the next one have something, and it is there. -/
structure AccountsInv (S : Sweep Node Key) (w : Nat) (s : Nat × Object Str (Found Key)) : Prop where
  accountIdx : s.1 = w * S.options.accountBatchSize
  searchable : ∀ v < w, S.WindowSearchable v
  funded : ∀ v < w, ∃ o, S.OutputIn v o
  holds : Holds S.bitcoinJS S.ledger {p | ∃ v < w, p ∈ S.places v} s.2

theorem accountsInv_start : AccountsInv S 0 (0, .empty) where
  accountIdx := (Nat.zero_mul _).symm
  searchable v hv := absurd hv (Nat.not_lt_zero v)
  funded v hv := absurd hv (Nat.not_lt_zero v)
  holds := holds_empty.congr fun p =>
    ⟨fun h => absurd h (Set.notMem_empty p), fun ⟨v, hv, _⟩ => absurd hv (Nat.not_lt_zero v)⟩

theorem forall_lt_succ {P : Nat → Prop} {w : Nat} (h : ∀ v < w, P v) (hw : P w) : ∀ v < w + 1, P v := by
  intro v hv
  rcases Nat.lt_succ_iff_lt_or_eq.mp hv with hlt | rfl
  · exact h v hlt
  · exact hw

theorem Sweep.mem_places_succ (w : Nat) (p : Node × Nat) :
    p ∈ {p | ∃ v < w, p ∈ S.places v} ∪ S.places w ↔ ∃ v < w + 1, p ∈ S.places v := by
  constructor
  · rintro (⟨v, hv, hp⟩ | hp)
    · exact ⟨v, Nat.lt_succ_of_lt hv, hp⟩
    · exact ⟨w, Nat.lt_succ_self w, hp⟩
  · rintro ⟨v, hv, hp⟩
    rcases Nat.lt_succ_iff_lt_or_eq.mp hv with hlt | rfl
    · exact Or.inl ⟨v, hlt, hp⟩
    · exact Or.inr hp

/-- What is resolved is what there is up to the window at which the search ends. -/
theorem hdDiscover_ok (hs : Serves client S.ledger) (hl : S.bitcoinJS.hd.Lawful)
    (hr : S.bitcoinJS.hd.isNeutered S.root = false) {fuel : Nat} {found : Object Str (Found Key)}
    (h : hdDiscover S.bitcoinJS client S.root S.options fuel = some (.ok found)) :
    ∃ s, S.EndsAt s ∧ Holds S.bitcoinJS S.ledger {p | ∃ v < s + 1, p ∈ S.places v} found := by
  have hstep : ∀ s t, (∃ w, AccountsInv S w s) →
      discoverAccounts S.bitcoinJS client S.root S.options fuel s = some (.ok (.inl t)) → ∃ w, AccountsInv S w t := by
    rintro ⟨idx, o⟩ t ⟨w, hinv⟩ hbody
    obtain rfl : idx = w * S.options.accountBatchSize := hinv.accountIdx
    obtain ⟨hsearch, o', hholds, hnext⟩ := discoverAccounts_ok hs hl hr hinv.holds hbody
    rcases hnext with ⟨hfunded, ht⟩ | ⟨-, ht⟩
    · cases ht
      exact ⟨w + 1, rfl, forall_lt_succ hinv.searchable hsearch, forall_lt_succ hinv.funded hfunded,
        hholds.congr (S.mem_places_succ w)⟩
    · cases ht
  obtain ⟨⟨idx, o⟩, ⟨w, hinv⟩, hlast⟩ := Series.exists_of_recur_ok hstep h ⟨0, accountsInv_start⟩
  obtain rfl : idx = w * S.options.accountBatchSize := hinv.accountIdx
  obtain ⟨hsearch, o', hholds, hnext⟩ := discoverAccounts_ok hs hl hr hinv.holds hlast
  rcases hnext with ⟨-, ht⟩ | ⟨hempty, ht⟩
  · cases ht
  · cases ht
    refine ⟨w, S.endsAt_of_windows ?_ hinv.funded hempty, hholds.congr (S.mem_places_succ w)⟩
    exact fun v hv => forall_lt_succ hinv.searchable hsearch v (Nat.lt_succ_of_le hv)

theorem hdDiscover_returns (hs : Serves client S.ledger) (hl : S.bitcoinJS.hd.Lawful)
    (hr : S.bitcoinJS.hd.isNeutered S.root = false) {s : Nat} (h : S.EndsAt s) :
    ∃ found, hdDiscover S.bitcoinJS client S.root S.options (2 ^ 32) = some (.ok found) := by
  have hstep : ∀ w < s, ∀ t, AccountsInv S w t →
      ∃ t', discoverAccounts S.bitcoinJS client S.root S.options (2 ^ 32) t = some (.ok (.inl t')) ∧
        AccountsInv S (w + 1) t' := by
    rintro w hw ⟨idx, o⟩ hinv
    obtain rfl : idx = w * S.options.accountBatchSize := hinv.accountIdx
    obtain ⟨r, hr'⟩ := discoverAccounts_returns hs hl hr (h.windowSearchable (Nat.le_of_lt hw)) o
    obtain ⟨hsearch, o', hholds, hnext⟩ := discoverAccounts_ok hs hl hr hinv.holds hr'
    rcases hnext with ⟨hfunded, rfl⟩ | ⟨hempty, -⟩
    · exact ⟨_, hr', rfl, forall_lt_succ hinv.searchable hsearch, forall_lt_succ hinv.funded hfunded,
        hholds.congr (S.mem_places_succ w)⟩
    · exact absurd (h.funded w hw) hempty
  have hstop : ∀ t, AccountsInv S s t →
      ∃ found, discoverAccounts S.bitcoinJS client S.root S.options (2 ^ 32) t = some (.ok (.inr found)) ∧ True := by
    rintro ⟨idx, o⟩ hinv
    obtain rfl : idx = s * S.options.accountBatchSize := hinv.accountIdx
    obtain ⟨r, hr'⟩ := discoverAccounts_returns hs hl hr (h.windowSearchable (Nat.le_refl s)) o
    obtain ⟨-, o', -, hnext⟩ := discoverAccounts_ok hs hl hr hinv.holds hr'
    rcases hnext with ⟨⟨out, hout⟩, -⟩ | ⟨-, rfl⟩
    · exact absurd hout (h.empty out)
    · exact ⟨o', hr', trivial⟩
  have hfuel : s < 2 ^ 32 := by
    have hA := S.options.accountBatchSize_pos
    have hmul : s * 1 ≤ s * S.options.accountBatchSize := Nat.mul_le_mul_left s hA
    have hlast := (h.searchable (s * S.options.accountBatchSize) (by omega)).1
    unfold HIGHEST_BIT at hlast
    omega
  obtain ⟨found, hfound, -⟩ := Series.recur_returns (J := AccountsInv S) hstep hstop hfuel accountsInv_start
  exact ⟨found, hfound⟩

theorem Holds.findsAll {found : Object Str (Found Key)} {s : Nat}
    (h : Holds S.bitcoinJS S.ledger {p | ∃ v < s + 1, p ∈ S.places v} found)
    (hall : ∀ o, S.Owed o → ∃ v ≤ s, S.OutputIn v o) : S.FindsAll found where
  complete o ho := by
    obtain ⟨v, hv, hmem, p, hp, ha⟩ := hall o ho
    exact h.mem_outputs_iff.mpr ⟨hmem, p, ⟨v, Nat.lt_succ_of_le hv, hp⟩, ha⟩
  once := h.nodup_outpoints
  own o ho := (h.mem_outputs_iff.mp ho).1
  keyed a e he := by
    obtain ⟨⟨q, n⟩, ⟨v, -, i, hi, c, hc, hq, hreached⟩, rfl, rfl, -⟩ := h.sound a e he
    obtain rfl : q = S.chain i c := hq
    exact ⟨i, hi.2.2, c, hc, n, hreached.1, rfl, rfl⟩

/-- The sweep finds all that is owed exactly when its search has an end, and no window after it and before the first one
that was never used has an output at a further address. -/
theorem finds_all_iff (hs : Serves client S.ledger) (hl : S.bitcoinJS.hd.Lawful)
    (hr : S.bitcoinJS.hd.isNeutered S.root = false) :
    (∃ fuel found, hdDiscover S.bitcoinJS client S.root S.options fuel = some (.ok found) ∧ S.FindsAll found) ↔
      ∃ s, S.EndsAt s ∧ ∀ w > s, (∀ v ≤ w, S.WindowUsed v) → ∀ o, S.OutputIn w o → ∃ v < s, S.OutputIn v o := by
  constructor
  · rintro ⟨fuel, found, hfound, hall⟩
    obtain ⟨s, hend, hholds⟩ := hdDiscover_ok hs hl hr hfound
    refine ⟨s, hend, fun w _ hused o ho => ?_⟩
    obtain ⟨hmem, p, ⟨v, hv, hp⟩, ha⟩ := hholds.mem_outputs_iff.mp (hall.complete o ⟨w, hused, ho⟩)
    have hout : S.OutputIn v o := ⟨hmem, p, hp, ha⟩
    refine ⟨v, Nat.lt_of_le_of_ne (Nat.lt_succ_iff.mp hv) ?_, hout⟩
    rintro rfl
    exact hend.empty o hout
  · rintro ⟨s, hend, hafter⟩
    obtain ⟨found, hfound⟩ := hdDiscover_returns hs hl hr hend
    obtain ⟨t, ht, hholds⟩ := hdDiscover_ok hs hl hr hfound
    obtain rfl := hend.unique ht
    refine ⟨2 ^ 32, found, hfound, hholds.findsAll ?_⟩
    rintro o ⟨w, hused, ho⟩
    rcases Nat.lt_or_ge s w with hlt | hle
    · obtain ⟨v, hv, hov⟩ := hafter w hlt hused o ho
      exact ⟨v, Nat.le_of_lt hv, hov⟩
    · exact ⟨w, hle, ho⟩

end Windows

/-! ## Sweeps to evaluate -/

/-- An address tells the path of its key. -/
def sampleJS : BitcoinJS SampleNode SampleNode where
  hd := { sampleHD with getAddress := fun n => ['/'].intercalate (n.path.map dec) }
  keyPair n := n

theorem path_of_getAddress {n m : SampleNode} (hn : n.path ≠ []) (hm : m.path ≠ [])
    (h : sampleJS.hd.getAddress n = sampleJS.hd.getAddress m) : n.path = m.path := by
  have hsplit : ∀ {l : List Nat}, l ≠ [] → (['/'].intercalate (l.map dec)).splitOn '/' = l.map dec := by
    intro l hl
    refine List.splitOn_intercalate '/' (fun t ht => ?_) fun hnil => hl (List.map_eq_nil_iff.mp hnil)
    obtain ⟨i, -, rfl⟩ := List.mem_map.mp ht
    exact slash_not_mem_dec i
  have htexts : n.path.map dec = m.path.map dec := by
    rw [← hsplit hn, ← hsplit hm]
    exact congrArg (List.splitOn '/') h
  exact List.map_injective_iff.mpr (fun _ _ => dec_injective) htexts

theorem sampleJS_lawful : sampleJS.hd.Lawful where
  isNeutered_neutered _ := rfl
  isNeutered_child _ _ := rfl
  getPublicKeyBuffer_neutered _ := rfl
  child_neutered _ _ _ := rfl

def Ledger.answer (ledger : Ledger) (addresses : List Str) : Object Str (List Utxo) where
  entries := (addresses.dedup.filter fun a => ledger.unspentOf a ≠ []).map fun a => (a, ledger.unspentOf a)
  nodup := by
    rw [keys, List.map_map]
    exact ((List.nodup_dedup addresses).filter _).map fun _ _ h => h

/-- A data client that answers from a ledger. -/
def Ledger.client (ledger : Ledger) : BitcoinDataClient where
  batchAddressHasTransactions addresses := .ok (addresses.any ledger.used)
  getBatchUnspentOutputs addresses := .ok (ledger.answer addresses)

theorem Ledger.get?_answer (ledger : Ledger) (addresses : List Str) (a : Str) :
    (ledger.answer addresses).get? a = if a ∈ addresses then nonempty (ledger.unspentOf a) else none := by
  have hmem : ∀ l, (ledger.answer addresses).get? a = some l ↔
      a ∈ addresses ∧ ledger.unspentOf a ≠ [] ∧ ledger.unspentOf a = l := by
    intro l
    rw [Object.get?_eq_some]
    show (a, l) ∈ List.map _ _ ↔ _
    rw [List.mem_map]
    constructor
    · rintro ⟨b, hb, heq⟩
      cases heq
      obtain ⟨hb, hne⟩ := List.mem_filter.mp hb
      exact ⟨List.mem_dedup.mp hb, of_decide_eq_true hne, rfl⟩
    · rintro ⟨ha, hne, rfl⟩
      exact ⟨a, List.mem_filter.mpr ⟨List.mem_dedup.mpr ha, decide_eq_true hne⟩, rfl⟩
  apply Option.ext
  intro l
  rw [hmem]
  by_cases ha : a ∈ addresses
  · rw [if_pos ha]
    refine Iff.trans ?_ nonempty_eq_some.symm
    constructor
    · rintro ⟨-, hne, rfl⟩
      exact ⟨rfl, hne⟩
    · rintro ⟨rfl, hne⟩
      exact ⟨ha, hne, rfl⟩
  · rw [if_neg ha]
    constructor
    · rintro ⟨h, -⟩
      exact absurd h ha
    · intro h
      cases h

theorem Ledger.serves (ledger : Ledger) : Serves ledger.client ledger where
  hasTransactions _ := rfl
  unspentOutputs addresses := ⟨ledger.answer addresses, rfl, ledger.get?_answer addresses⟩

def firstAddress (i : Nat) : Str := addressOf sampleJS (chainNode sampleJS.hd ⟨[], [], true⟩ false i 0, 0)

def firstOutput (i : Nat) : Str × Utxo := (firstAddress i, ⟨"00".toList, i, 5 + i, []⟩)

/-- The first addresses of some accounts are used, and those of some have an output. -/
def sampleSweep (accounts funded : List Nat) : Sweep SampleNode SampleNode where
  bitcoinJS := sampleJS
  root := ⟨[], [], true⟩
  options := ⟨1, 1, false, Nat.one_pos, Nat.one_pos⟩
  ledger := ⟨fun a => (accounts.map firstAddress).contains a, funded.dedup.map firstOutput, by
    rw [List.map_map]
    refine (List.nodup_dedup funded).map fun i j h => ?_
    exact (Prod.mk.inj h).2⟩

theorem reached_first {accounts funded : List Nat} {i : Nat} (hi : i ∈ accounts) :
    Reached sampleJS (sampleSweep accounts funded).ledger 1 ((sampleSweep accounts funded).chain i 0, 0) := by
  refine ⟨Nat.two_pow_pos 32, 0, ⟨Nat.le_refl 0, Nat.zero_le _⟩, fun j hj => ?_⟩
  obtain rfl := Nat.le_zero.mp hj
  refine ⟨0, Nat.two_pow_pos 32, ⟨Nat.le_refl 0, Nat.zero_le _⟩, ?_⟩
  exact List.contains_iff_mem.mpr (List.mem_map_of_mem hi)

theorem account_self {accounts funded : List Nat} {i : Nat} (hi : i < HIGHEST_BIT) :
    (sampleSweep accounts funded).Account i i := by
  refine ⟨?_, ?_, hi⟩
  · show i * 1 ≤ i
    omega
  · show i < i * 1 + 1
    omega

theorem outputIn_first {accounts funded : List Nat} {i : Nat} (hi : i < HIGHEST_BIT) (ha : i ∈ accounts)
    (hf : i ∈ funded) : (sampleSweep accounts funded).OutputIn i (firstOutput i) :=
  ⟨List.mem_map_of_mem (List.mem_dedup.mpr hf), _,
    ⟨i, account_self hi, 0, Nat.zero_le 1, rfl, reached_first ha⟩, rfl⟩

/-- An account whose outputs were all spent ends the search: the output of the account after it is not found. -/
theorem emptied_account_ends_search :
    hdDiscover sampleJS (sampleSweep [0, 1] [1]).ledger.client (sampleSweep [0, 1] [1]).root
        (sampleSweep [0, 1] [1]).options 3 = some (.ok .empty) ∧
      ¬(sampleSweep [0, 1] [1]).FindsAll .empty := by
  refine ⟨rfl, fun h => ?_⟩
  have howed : (sampleSweep [0, 1] [1]).Owed (firstOutput 1) := by
    refine ⟨1, fun v hv => ?_, outputIn_first (by decide) (by decide) List.mem_cons_self⟩
    refine ⟨v, account_self (Nat.lt_of_le_of_lt hv (by decide)), 0, Nat.zero_le 1, 0, Nat.two_pow_pos 32, ?_⟩
    refine List.contains_iff_mem.mpr (List.mem_map_of_mem (a := v) ?_)
    rcases Nat.le_one_iff_eq_zero_or_eq_one.mp hv with rfl | rfl
    · exact List.mem_cons_self
    · exact List.mem_cons_of_mem _ List.mem_cons_self
  have hmem := h.complete _ howed
  cases hmem

theorem first_of_address {accounts funded : List Nat} {i c n j : Nat}
    (h : addressOf sampleJS ((sampleSweep accounts funded).chain i c, n) = firstAddress j) :
    i = j ∧ c = 0 ∧ n = 0 := by
  have hpath : [n, c, i + HIGHEST_BIT, 0 + HIGHEST_BIT, 44 + HIGHEST_BIT] =
      [0, 0, j + HIGHEST_BIT, 0 + HIGHEST_BIT, 44 + HIGHEST_BIT] :=
    path_of_getAddress (List.cons_ne_nil _ _) (List.cons_ne_nil _ _) h
  simp only [List.cons.injEq, Nat.add_right_cancel_iff, and_true] at hpath
  exact ⟨hpath.2.2, hpath.2.1, hpath.1⟩

theorem mem_of_used {accounts funded : List Nat} {i c n : Nat}
    (h : (sampleSweep accounts funded).ledger.used
      (addressOf sampleJS ((sampleSweep accounts funded).chain i c, n)) = true) : i ∈ accounts ∧ n = 0 := by
  obtain ⟨j, hj, ha⟩ := List.mem_map.mp (List.contains_iff_mem.mp h)
  obtain ⟨rfl, -, rfl⟩ := first_of_address ha.symm
  exact ⟨hj, rfl⟩

/-- A sweep of two accounts that have an output each. -/
theorem sampleSweep_finds_all :
    ∃ fuel found, hdDiscover sampleJS (sampleSweep [0, 1] [0, 1]).ledger.client (sampleSweep [0, 1] [0, 1]).root
        (sampleSweep [0, 1] [0, 1]).options fuel = some (.ok found) ∧
      (sampleSweep [0, 1] [0, 1]).FindsAll found := by
  have hlt : ∀ w ∈ [0, 1], w < 2 := by decide
  have hend : (sampleSweep [0, 1] [0, 1]).EndsAt 2 := by
    refine ⟨fun i hi => ⟨Nat.lt_of_lt_of_le hi (by decide), fun c _ => ⟨1, by decide, ?_⟩⟩, fun w hw => ?_, ?_⟩
    · rintro ⟨n, -, hn, hused⟩
      have hpos : 1 ≤ n := hn.1
      have hzero := (mem_of_used hused).2
      omega
    · have hmem : w ∈ [0, 1] := by simp only [List.mem_cons, List.not_mem_nil]; omega
      exact ⟨firstOutput w, outputIn_first (Nat.lt_trans hw (by decide)) hmem hmem⟩
    · rintro o ⟨hmem, ⟨q, n⟩, ⟨i, hi, c, -, hq, -⟩, ha⟩
      obtain rfl : q = (sampleSweep [0, 1] [0, 1]).chain i c := hq
      obtain ⟨j, hj, rfl⟩ := List.mem_map.mp hmem
      have hpos : 2 ≤ i := hi.1
      obtain ⟨rfl, -⟩ := first_of_address ha.symm
      have hsmall := hlt _ (List.mem_dedup.mp hj)
      omega
  refine (finds_all_iff (S := sampleSweep [0, 1] [0, 1]) (Ledger.serves _) sampleJS_lawful rfl).mpr
    ⟨2, hend, fun w hw hused => ?_⟩
  obtain ⟨i, hi, c, -, n, -, hu⟩ := hused 2 (Nat.le_of_lt hw)
  have hpos : 2 ≤ i := hi.1
  have hsmall := hlt _ (mem_of_used hu).1
  omega

end SweeperService

end WebWallet
