import Blocktrail.Lib.Documents

/-! # Resync

The wallets share one store. A wallet writes under ids made of its unique identifier, and a resync removes by a range
of ids made of its identifier.
-/

open Documents

namespace WebWallet

/-! ## Ids -/

/-- A string, as its UTF-16 code units: ids are compared by them. -/
abbrev Utf16 := List UInt16

/-- The code units of a text without astral characters. -/
def units (text : String) : Utf16 := text.toList.map fun c => c.val.toUInt16

inductive NetworkType
  | btc
  | bcc
  | tbtc
  | tbcc
deriving DecidableEq

def NetworkType.text : NetworkType → Utf16
  | .btc => units "BTC"
  | .bcc => units "BCC"
  | .tbtc => units "tBTC"
  | .tbcc => units "tBCC"

def NetworkType.idPrefix (t : NetworkType) : Utf16 := t.text ++ units "_"

inductive DocType
  | balance
  | blockHeight
  | addresses
  | transaction (id : Utf16)
  | transactionsHistory
  | lastBlockHash
deriving DecidableEq

structure Wallet where
  networkType : NetworkType
  identifier : Utf16
deriving DecidableEq

/-- The fields of a document that a resync reads or writes. -/
structure Doc where
  hash : Option Utf16
  height : Option Nat
deriving DecidableEq

abbrev WalletStore := Store Utf16 Doc

namespace Wallet

/-- `_getWalletUniqueIdentifier`. -/
def uniqueIdentifier (w : Wallet) : Utf16 := w.networkType.idPrefix ++ w.identifier

/-- `none` throws. -/
def getUniqueIdentifier (w : Wallet) : DocType → Option Utf16
  | .balance => some (w.uniqueIdentifier ++ units ":bc")
  | .blockHeight => some (w.uniqueIdentifier ++ units ":bh")
  | .addresses => some (w.uniqueIdentifier ++ units ":ad")
  | .transaction id => if id = [] then none else some (w.uniqueIdentifier ++ units ":tx:" ++ id)
  | .transactionsHistory => some (w.uniqueIdentifier ++ units ":th")
  | .lastBlockHash => some (w.uniqueIdentifier ++ units ":lh")

/-! ## Resyncing -/

/-- The end of the range of ids. -/
def topUnit : UInt16 := 0xfff0

def inRange (w : Wallet) (id : Utf16) : Bool := w.identifier ≤ id ∧ id ≤ w.identifier ++ [topUnit]

/-- `none` rejects, at a conflict. -/
def resetWalletData (w : Wallet) (store : WalletStore) : Option WalletStore :=
  store.removeAll (store.allDocs w.inRange)

/-- `blockLatest` is what the SDK answers, `none` where it fails. -/
def getBlockHeight (w : Wallet) (blockLatest : Option Nat) (store : WalletStore) : Option WalletStore := do
  let id ← w.getUniqueIdentifier .blockHeight
  let doc := ((store.get id).map Prod.snd).getD ⟨none, none⟩
  let doc := match blockLatest with
    | some height => { doc with height := some height }
    | none => doc
  store.put id (store.revision id) doc

/-- What the handler of ORPHAN does before it polls again. It only names `_getBalance`. -/
def resync (w : Wallet) (blockLatest : Option Nat) (store : WalletStore) : Option WalletStore := do
  let store ← w.resetWalletData store
  w.getBlockHeight blockLatest store

/-- `_getLastBlockHashFromStorage`. -/
def lastBlockHash (w : Wallet) (store : WalletStore) : Option Utf16 := do
  let id ← w.getUniqueIdentifier .lastBlockHash
  let row ← store.get id
  row.2.hash

/-- What the SDK answers, by time. -/
structure Server where
  /-- The transactions after this block hash are answered with ORPHAN. -/
  orphan : Nat → Option Utf16 → Bool
  blockLatest : Nat → Option Nat

/-- The last block hashes that `_pollTransactions` asks with from time `t` on, `n` of them at most. -/
def queries (w : Wallet) (server : Server) : Nat → Nat → WalletStore → List (Option Utf16)
  | 0, _, _ => []
  | n + 1, t, store =>
    let hash := w.lastBlockHash store
    if server.orphan t hash then
      match w.resync (server.blockLatest t) store with
      | some store => hash :: queries w server n (t + 1) store
      | none => [hash]
    else [hash]

/-! ## What is relied on -/

structure Resyncs (w : Wallet) (wallets : Set Wallet) (store : WalletStore) : Prop where
  removes : ∃ store', w.resetWalletData store = some store' ∧
    (∀ type id, w.getUniqueIdentifier type = some id → store'.get id = none) ∧
    (∀ v ∈ wallets, v ≠ w → ∀ type id, v.getUniqueIdentifier type = some id → store'.get id = store.get id)
  restarts : ∀ latest, ∃ store', w.resync latest store = some store' ∧ w.lastBlockHash store' = none
  ends : ∀ server : Server, (∀ t, server.orphan t none = false) → ∀ n t, (w.queries server n t store).length ≤ 2

/-! ## The range -/

theorem idPrefix_lt (networkType : NetworkType) : ∀ a ∈ networkType.idPrefix, a < topUnit := by
  have hall : networkType.idPrefix.all (· < topUnit) = true := by
    cases networkType <;> decide
  simpa using hall

theorem idPrefix_ne_nil (networkType : NetworkType) : networkType.idPrefix ≠ [] := by
  cases networkType <;> decide

theorem inRange_iff (w : Wallet) (id : Utf16) :
    w.inRange id = true ↔ ∃ r, id = w.identifier ++ r ∧ r ≤ [topUnit] := by
  unfold inRange
  rw [decide_eq_true_iff]
  exact mem_range_iff

theorem prefix_of_getUniqueIdentifier {w : Wallet} {type : DocType} {id : Utf16}
    (h : w.getUniqueIdentifier type = some id) : w.uniqueIdentifier <+: id := by
  cases type with
  | transaction txId =>
    simp only [getUniqueIdentifier] at h
    split at h
    · cases h
    · obtain rfl := Option.some.inj h
      rw [List.append_assoc]
      exact List.prefix_append _ _
  | _ =>
    obtain rfl := Option.some.inj h
    exact List.prefix_append _ _

/-- The range has a wallet's own ids if and only if the identifier begins the unique identifier. -/
theorem inRange_own {w : Wallet} {id : Utf16} (h : w.uniqueIdentifier <+: id) :
    w.inRange id = true ↔ w.identifier <+: w.uniqueIdentifier := by
  rw [inRange_iff]
  constructor
  · rintro ⟨r, rfl, -⟩
    refine List.prefix_of_prefix_length_le (List.prefix_append _ _) h ?_
    simp [uniqueIdentifier]
  · intro hown
    -- the units of such an identifier are those of the network's prefix, and so is the first one after it
    have hunits : ∀ a ∈ w.uniqueIdentifier, a < topUnit := by
      intro a ha
      apply idPrefix_lt w.networkType
      rcases List.mem_append.mp ha with ha | ha
      · exact ha
      · exact mem_of_prefix_append (idPrefix_ne_nil w.networkType) hown ha
    obtain ⟨s, hs⟩ := hown
    obtain ⟨t, rfl⟩ := h
    refine ⟨s ++ t, ?_, ?_⟩
    · rw [← List.append_assoc, hs]
    · cases s with
      | nil =>
        rw [List.append_nil] at hs
        exact absurd (List.self_eq_append_left.mp hs) (idPrefix_ne_nil w.networkType)
      | cons a s =>
        have ha : a < topUnit := hunits a (by rw [← hs]; simp)
        exact List.cons_le_cons_iff.mpr (Or.inl ha)

/-! ## Removing -/

theorem resetWalletData_eq (w : Wallet) (store : WalletStore) : ∃ store', w.resetWalletData store = some store' ∧
    ∀ id, store'.get id = if w.inRange id then none else store.get id := store.removeAll_allDocs w.inRange

theorem getBlockHeight_eq (w : Wallet) (blockLatest : Option Nat) (store : WalletStore) :
    ∃ store', w.getBlockHeight blockLatest store = some store' ∧
      ∀ id, id ≠ w.uniqueIdentifier ++ units ":bh" → store'.get id = store.get id := by
  unfold getBlockHeight
  exact ⟨_, Store.put_revision _ _ _, fun id hid => Store.get_write_of_ne _ hid _⟩

theorem lastBlockHash_eq_none {w : Wallet} {store : WalletStore}
    (h : store.get (w.uniqueIdentifier ++ units ":lh") = none) : w.lastBlockHash store = none := by
  simp [lastBlockHash, getUniqueIdentifier, h]

theorem resync_restarts {w : Wallet} {store store' : WalletStore} (hreset : w.resetWalletData store = some store')
    (hgone : store'.get (w.uniqueIdentifier ++ units ":lh") = none) (blockLatest : Option Nat) :
    ∃ store'', w.resync blockLatest store = some store'' ∧ w.lastBlockHash store'' = none := by
  obtain ⟨store'', hheight, hget⟩ := w.getBlockHeight_eq blockLatest store'
  refine ⟨store'', ?_, ?_⟩
  · unfold resync
    rw [hreset]
    exact hheight
  · apply lastBlockHash_eq_none
    rw [hget _ (by simp [units])]
    exact hgone

theorem queries_of_answered {w : Wallet} {server : Server} {t : Nat} {store : WalletStore}
    (h : server.orphan t (w.lastBlockHash store) = false) (n : Nat) : (w.queries server n t store).length ≤ 1 := by
  cases n with
  | zero => exact Nat.zero_le 1
  | succ n => simp [queries, h]

theorem queries_of_restarts {w : Wallet} {store : WalletStore}
    (h : ∀ latest, ∃ store', w.resync latest store = some store' ∧ w.lastBlockHash store' = none)
    {server : Server} (hserver : ∀ t, server.orphan t none = false) (n t : Nat) :
    (w.queries server n t store).length ≤ 2 := by
  cases n with
  | zero => exact Nat.zero_le 2
  | succ n =>
    unfold queries
    dsimp only
    split
    · obtain ⟨store', hresync, hnone⟩ := h (server.blockLatest t)
      rw [hresync]
      have := queries_of_answered (n := n) (show server.orphan (t + 1) (w.lastBlockHash store') = false by
        rw [hnone]
        exact hserver (t + 1))
      simp only [List.length_cons]
      omega
    · simp

/-- What the range leaves out stays, the last block hash with it: the server that does not know the block is asked again
and again. -/
theorem queries_of_out {w : Wallet} (hout : ¬w.identifier <+: w.uniqueIdentifier) {server : Server} {hash : Utf16}
    (hserver : ∀ t, server.orphan t (some hash) = true) (n t : Nat) {store : WalletStore}
    (hstored : w.lastBlockHash store = some hash) :
    w.queries server n t store = List.replicate n (some hash) := by
  induction n generalizing t store with
  | zero => rfl
  | succ n ih =>
    obtain ⟨store', hreset, hget⟩ := w.resetWalletData_eq store
    obtain ⟨store'', hheight, hget'⟩ := w.getBlockHeight_eq (server.blockLatest t) store'
    have hresync : w.resync (server.blockLatest t) store = some store'' := by
      unfold resync
      rw [hreset]
      exact hheight
    have hkept : w.lastBlockHash store'' = some hash := by
      have hown : w.inRange (w.uniqueIdentifier ++ units ":lh") ≠ true :=
        mt (inRange_own (List.prefix_append _ _)).mp hout
      have hsame : store''.get (w.uniqueIdentifier ++ units ":lh") = store.get (w.uniqueIdentifier ++ units ":lh") := by
        rw [hget' _ (by simp [units]), hget, if_neg hown]
      rw [← hstored]
      simp [lastBlockHash, getUniqueIdentifier, hsame]
    unfold queries
    dsimp only
    rw [hstored, if_pos (hserver t), hresync]
    exact congrArg (some hash :: ·) (ih (t + 1) hkept)

/-- **Resync.** It removes the wallet's own documents and no other wallet's if and only if its identifier begins its
unique identifier, where it has a document, and begins no id of a document of another wallet below the top unit. -/
theorem resyncs_iff (w : Wallet) (wallets : Set Wallet) (store : WalletStore) :
    w.Resyncs wallets store ↔
      (∀ type id, w.getUniqueIdentifier type = some id → store.get id ≠ none → w.identifier <+: w.uniqueIdentifier) ∧
      (∀ v ∈ wallets, v ≠ w → ∀ type r, v.getUniqueIdentifier type = some (w.identifier ++ r) → r ≤ [topUnit] →
        store.get (w.identifier ++ r) = none) := by
  obtain ⟨store', hreset, hget⟩ := w.resetWalletData_eq store
  constructor
  · rintro ⟨⟨store'', hreset', hown, hothers⟩, -, -⟩
    obtain rfl := Option.some.inj (hreset.symm.trans hreset')
    constructor
    · intro type id hid hstored
      have hgone := hown type id hid
      rw [hget] at hgone
      refine (inRange_own (prefix_of_getUniqueIdentifier hid)).mp ?_
      by_contra hout
      rw [if_neg hout] at hgone
      exact hstored hgone
    · intro v hv hne type r hid hr
      have hkept := hothers v hv hne type _ hid
      rw [hget, if_pos ((w.inRange_iff _).mpr ⟨r, rfl, hr⟩)] at hkept
      exact hkept.symm
  · rintro ⟨hown, hothers⟩
    have hgone : ∀ type id, w.getUniqueIdentifier type = some id → store'.get id = none := by
      intro type id hid
      rw [hget]
      split
      · rfl
      · next hout =>
        by_contra hstored
        exact hout ((inRange_own (prefix_of_getUniqueIdentifier hid)).mpr (hown type id hid hstored))
    have hrestarts := resync_restarts hreset (hgone .lastBlockHash _ rfl)
    refine ⟨⟨store', hreset, hgone, ?_⟩, hrestarts, fun server hserver n t => queries_of_restarts hrestarts hserver n t⟩
    intro v hv hne type id hid
    rw [hget]
    split
    · next hin =>
      obtain ⟨r, rfl, hr⟩ := (w.inRange_iff id).mp hin
      exact (hothers v hv hne type r hid hr).symm
    · rfl

/-! ## A wallet that asks forever -/

def sampleWallet : Wallet := ⟨.btc, units "w"⟩

def sampleStore : WalletStore := Store.empty.write (units "BTC_w:lh") ⟨some (units "00"), none⟩

/-- A server on which every block that the wallet knows is an orphan. -/
def orphanServer : Server := ⟨fun _ hash => hash.isSome, fun _ => none⟩

/-- The document stays, and every query is for the same last block hash. -/
theorem asks_forever : ¬sampleWallet.Resyncs {sampleWallet} sampleStore ∧
    ∀ n, sampleWallet.queries orphanServer n 0 sampleStore = List.replicate n (some (units "00")) := by
  have hasks : ∀ n, sampleWallet.queries orphanServer n 0 sampleStore = List.replicate n (some (units "00")) :=
    fun n => queries_of_out (by decide) (fun _ => rfl) n 0 rfl
  refine ⟨fun h => ?_, hasks⟩
  have hends := h.ends orphanServer (fun _ => rfl) 3 0
  rw [hasks 3] at hends
  simp at hends

end Wallet

end WebWallet
