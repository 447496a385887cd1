import Mathlib.Data.List.Nodup
import Blocktrail.WebWallet.History

/-! # The transaction history, over polls -/

open Assoc Documents Runs Text Throwing

namespace WebWallet

namespace History

/-! ## Storing -/

section Storage

variable {κ δ : Type} [DecidableEq κ]

theorem call_setToStorage (store : Documents → Store κ δ) (update : Documents → Store κ δ → Documents) (id : κ)
    (rev : Option Nat) (content : δ) (docs : Documents) :
    call (setToStorage store update id rev content) docs =
      match (store docs).put id rev content with
      | some stored => (.ok (), update docs stored)
      | none => (.error .conflict, docs) := by
  unfold setToStorage
  rw [call_get_bind]
  cases (store docs).put id rev content with
  | none => rfl
  | some stored => rfl

end Storage

def Documents.writeTransaction (docs : Documents) (t : Transaction) : Documents :=
  { docs with transactions := docs.transactions.write t.hash t }

theorem stored_writeTransaction (docs : Documents) (t : Transaction) (h : Hash) :
    (docs.writeTransaction t).stored h = if h = t.hash then some t else docs.stored h := by
  unfold Documents.stored Documents.writeTransaction
  rw [Store.get_write]
  split
  · rfl
  · rfl

theorem stored_eq_none {docs : Documents} {h : Hash} : docs.stored h = none ↔ docs.transactions.get h = none :=
  Option.map_eq_none_iff

theorem call_addTransaction (t : Transaction) (docs : Documents) : call (addTransaction t) docs =
    if docs.stored t.hash = none then (.ok (), docs.writeTransaction t) else (.error .conflict, docs) := by
  unfold addTransaction setTransactionToStorage
  rw [call_setToStorage, Store.put_none]
  by_cases h : docs.transactions.get t.hash = none
  · rw [if_pos h, if_pos (stored_eq_none.mpr h)]
    rfl
  · rw [if_neg h, if_neg (mt stored_eq_none.mp h)]

theorem call_updateTransaction (t : Transaction) (docs : Documents) :
    call (updateTransaction t) docs = (.ok (), docs.writeTransaction t) := by
  unfold updateTransaction
  rw [call_get_bind]
  unfold setTransactionToStorage
  rw [call_setToStorage]
  have hput : docs.transactions.put t.hash (docs.transactions.revision t.hash) t =
      some (docs.transactions.write t.hash t) := Store.put_revision _ _ _
  unfold getFromStorage
  rw [hput]
  rfl

/-! ## Writes -/

/-- The store accepts the write. -/
def Write.Accepted (docs : Documents) : Write → Prop
  | .add t => docs.stored t.hash = none
  | .update _ => True

theorem Write.call_run_ok {w : Write} {docs : Documents} (h : w.Accepted docs) :
    call w.run docs = (.ok (), docs.writeTransaction w.transaction) := by
  cases w with
  | add t => exact (call_addTransaction t docs).trans (if_pos h)
  | update t => exact call_updateTransaction t docs

theorem Write.call_run_error {w : Write} {docs : Documents} (h : ¬w.Accepted docs) :
    call w.run docs = (.error .conflict, docs) := by
  cases w with
  | add t => exact (call_addTransaction t docs).trans (if_neg h)
  | update t => exact absurd trivial h

def Write.hash (w : Write) : Hash := w.transaction.hash

theorem Write.accepted_writeTransaction {w : Write} {docs : Documents} {t : Transaction} (h : w.hash ≠ t.hash) :
    w.Accepted (docs.writeTransaction t) ↔ w.Accepted docs := by
  cases w with
  | add t' =>
    have hne : t'.hash ≠ t.hash := h
    show (docs.writeTransaction t).stored t'.hash = none ↔ docs.stored t'.hash = none
    rw [stored_writeTransaction, if_neg hne]
  | update t' => exact Iff.rfl

theorem Write.nodup_cons {w : Write} {ws : List Write} (h : ((w :: ws).map Write.hash).Nodup) :
    (∀ w' ∈ ws, w'.hash ≠ w.hash) ∧ (ws.map Write.hash).Nodup := by
  obtain ⟨hw, hn⟩ := List.nodup_cons.mp h
  refine ⟨fun w' hw' he => hw ?_, hn⟩
  rw [← he]
  exact List.mem_map_of_mem hw'

/-- The documents after the writes of a batch. -/
def Documents.writeAll (docs : Documents) (ws : List Write) : Documents :=
  ws.foldl (fun docs w => docs.writeTransaction w.transaction) docs

theorem call_all_ok {ws : List Write} {docs : Documents} (hn : (ws.map Write.hash).Nodup)
    (h : ∀ w ∈ ws, w.Accepted docs) : call (all (ws.map Write.run)) docs = (.ok (), docs.writeAll ws) := by
  induction ws generalizing docs with
  | nil => rfl
  | cons w ws ih =>
    obtain ⟨hw, hn⟩ := Write.nodup_cons hn
    rw [List.map_cons, call_all_cons, Write.call_run_ok (h w List.mem_cons_self)]
    have hrest : ∀ w' ∈ ws, w'.Accepted (docs.writeTransaction w.transaction) := fun w' hw' =>
      (Write.accepted_writeTransaction (hw w' hw')).mpr (h w' (List.mem_cons_of_mem w hw'))
    dsimp only
    rw [ih hn hrest]
    rfl

theorem call_all_error {ws : List Write} {docs : Documents} (hn : (ws.map Write.hash).Nodup)
    (h : ¬∀ w ∈ ws, w.Accepted docs) : (call (all (ws.map Write.run)) docs).1 = .error .conflict := by
  induction ws generalizing docs with
  | nil => exact absurd (fun w hw => absurd hw List.not_mem_nil) h
  | cons w ws ih =>
    obtain ⟨hw, hn⟩ := Write.nodup_cons hn
    rw [List.map_cons, call_all_cons]
    by_cases hok : w.Accepted docs
    · rw [Write.call_run_ok hok]
      refine ih hn fun hall => h fun w' hw' => ?_
      rcases List.mem_cons.mp hw' with rfl | hw'
      · exact hok
      · exact (Write.accepted_writeTransaction (hw w' hw')).mp (hall w' hw')
    · rw [Write.call_run_error hok]
      rfl

theorem writeAll_eq (docs : Documents) (ws : List Write) :
    ∃ transactions, docs.writeAll ws = { docs with transactions := transactions } := by
  induction ws generalizing docs with
  | nil => exact ⟨docs.transactions, rfl⟩
  | cons w ws ih => exact ih (docs.writeTransaction w.transaction)

theorem stored_writeAll_of_not_mem {docs : Documents} {ws : List Write} {h : Hash} (hh : ∀ w ∈ ws, w.hash ≠ h) :
    (docs.writeAll ws).stored h = docs.stored h := by
  induction ws generalizing docs with
  | nil => rfl
  | cons w ws ih =>
    have hne : h ≠ w.transaction.hash := (hh w List.mem_cons_self).symm
    refine (ih fun w' hw' => hh w' (List.mem_cons_of_mem w hw')).trans ?_
    rw [stored_writeTransaction, if_neg hne]

theorem stored_writeAll {docs : Documents} {ws : List Write} (hn : (ws.map Write.hash).Nodup) {w : Write}
    (hw : w ∈ ws) : (docs.writeAll ws).stored w.hash = some w.transaction := by
  induction ws generalizing docs with
  | nil => cases hw
  | cons w' ws ih =>
    obtain ⟨hw', hn⟩ := Write.nodup_cons hn
    rcases List.mem_cons.mp hw with rfl | hw
    · refine (stored_writeAll_of_not_mem hw').trans ?_
      rw [stored_writeTransaction]
      exact if_pos rfl
    · exact ih hn hw

/-! ## The lists -/

/-- The transaction goes to the confirmed ones. -/
def HistoryDoc.confirms (old : HistoryDoc) (t : Transaction) : Bool :=
  t.isConfirmed ∧ (t.hash ∈ old.unconfirmed ∨ t.hash ∉ old.confirmed)

/-- What is put for a transaction, by the lists before the batch. -/
def HistoryDoc.write (old : HistoryDoc) (t : Transaction) : Option Write :=
  if t.hash ∈ old.unconfirmed then
    if t.isConfirmed then some (.update t) else none
  else
    if t.isConfirmed ∧ t.hash ∈ old.confirmed then none else some (.add t)

theorem process_eq {old : HistoryDoc} {p : Processed} {t : Transaction}
    (hc : t.hash ∈ p.history.confirmed ↔ t.hash ∈ old.confirmed) (hu : t.hash ∉ p.history.unconfirmed) :
    (p.process old.unconfirmed t).history =
        ⟨if old.confirms t then t.hash :: p.history.confirmed else p.history.confirmed,
          if t.isConfirmed then p.history.unconfirmed else t.hash :: p.history.unconfirmed⟩ ∧
      (p.process old.unconfirmed t).promises = p.promises ++ (old.write t).toList := by
  unfold Processed.process HistoryDoc.confirms HistoryDoc.write Processed.keepUnconfirmed
  cases t.isConfirmed with
  | false =>
    by_cases hold : t.hash ∈ old.unconfirmed
    · simp [hold, hu]
    · simp [hold, hu, Processed.add]
  | true =>
    by_cases hold : t.hash ∈ old.unconfirmed
    · simp [hold, Processed.update, Processed.confirm]
    · by_cases hconf : t.hash ∈ old.confirmed
      · simp [hold, hc, hconf]
      · simp [hold, hc, hconf, Processed.add, Processed.confirm]

/-- The loop decides by the lists before it, as the transactions are distinct. -/
theorem foldl_process {old : HistoryDoc} {ts : List Transaction} {p : Processed}
    (hn : (ts.map Transaction.hash).Nodup) (hc : ∀ t ∈ ts, t.hash ∈ p.history.confirmed ↔ t.hash ∈ old.confirmed)
    (hu : ∀ t ∈ ts, t.hash ∉ p.history.unconfirmed) :
    (ts.foldl (Processed.process old.unconfirmed) p).history =
        ⟨((ts.filter old.confirms).map Transaction.hash).reverse ++ p.history.confirmed,
          ((ts.filter fun t => !t.isConfirmed).map Transaction.hash).reverse ++ p.history.unconfirmed⟩ ∧
      (ts.foldl (Processed.process old.unconfirmed) p).promises = p.promises ++ ts.filterMap old.write := by
  induction ts generalizing p with
  | nil => simp
  | cons t ts ih =>
    obtain ⟨ht, hn⟩ := List.nodup_cons.mp hn
    obtain ⟨hhistory, hpromises⟩ := process_eq (hc t List.mem_cons_self) (hu t List.mem_cons_self)
    have hne : ∀ t' ∈ ts, t'.hash ≠ t.hash := fun t' ht' he => ht (he ▸ List.mem_map_of_mem ht')
    have hc' : ∀ t' ∈ ts, t'.hash ∈ (p.process old.unconfirmed t).history.confirmed ↔ t'.hash ∈ old.confirmed := by
      intro t' ht'
      rw [hhistory, ← hc t' (List.mem_cons_of_mem t ht')]
      dsimp only
      split
      · simp [hne t' ht']
      · rfl
    have hu' : ∀ t' ∈ ts, t'.hash ∉ (p.process old.unconfirmed t).history.unconfirmed := by
      intro t' ht'
      have hmem := hu t' (List.mem_cons_of_mem t ht')
      rw [hhistory]
      dsimp only
      split
      · exact hmem
      · simp [hne t' ht', hmem]
    obtain ⟨ihhistory, ihpromises⟩ := ih hn hc' hu'
    constructor
    · rw [List.foldl_cons, ihhistory, hhistory]
      cases hconf : old.confirms t with
      | true => cases hb : t.isConfirmed <;> simp [hconf, hb]
      | false => cases hb : t.isConfirmed <;> simp [hconf, hb]
    · rw [List.foldl_cons, ihpromises, hpromises, List.filterMap_cons]
      cases old.write t with
      | none => simp
      | some w => simp

theorem processList_eq (old : HistoryDoc) {ts : List Transaction} (hn : (ts.map Transaction.hash).Nodup) :
    (processList old ts).history =
        ⟨((ts.filter old.confirms).map Transaction.hash).reverse ++ old.confirmed,
          ((ts.filter fun t => !t.isConfirmed).map Transaction.hash).reverse⟩ ∧
      (processList old ts).promises = ts.filterMap old.write := by
  have h := @foldl_process old ts ⟨{ old with unconfirmed := [] }, [], [], []⟩ hn (fun _ _ => Iff.rfl)
    (fun _ _ => List.not_mem_nil)
  rwa [List.append_nil, List.nil_append] at h

theorem write_transaction {old : HistoryDoc} {t : Transaction} {w : Write} (h : old.write t = some w) :
    w.transaction = t := by
  unfold HistoryDoc.write at h
  split at h
  · split at h
    · obtain rfl := Option.some.inj h
      rfl
    · cases h
  · split at h
    · cases h
    · obtain rfl := Option.some.inj h
      rfl

theorem nodup_writes (old : HistoryDoc) {ts : List Transaction} (hn : (ts.map Transaction.hash).Nodup) :
    ((ts.filterMap old.write).map Write.hash).Nodup := by
  refine hn.sublist ?_
  clear hn
  induction ts with
  | nil => exact List.Sublist.refl []
  | cons t ts ih =>
    rw [List.filterMap_cons]
    cases hw : old.write t with
    | none => exact ih.cons t.hash
    | some w =>
      have hhash : w.hash = t.hash := congrArg Transaction.hash (write_transaction hw)
      rw [List.map_cons, List.map_cons, hhash]
      exact ih.cons_cons t.hash

/-! ## A poll -/

theorem call_getBalance (answer : Answer) (docs : Documents) :
    ∃ balance, call (getBalance answer) docs = (.ok (), { docs with balance := balance }) := by
  unfold getBalance
  rw [call_get_bind]
  unfold setBalanceToStorage
  rw [call_setToStorage]
  unfold Documents.getBalanceFromStorage getFromStorage
  rw [Store.put_revision]
  exact ⟨_, rfl⟩

/-- The two documents of a poll are saved with the revisions that they were read with. -/
theorem call_save {docs docs' : Documents} (hhash : docs'.lastBlockHash = docs.lastBlockHash)
    (hhistory : docs'.transactionsHistory = docs.transactionsHistory) (hash : Option Str) (history : HistoryDoc) :
    ∃ lastBlockHash, call (all [setLastBlockHashToStorage docs.getLastBlockHashFromStorage.rev hash,
        setTransactionHistoryToStorage docs.getTransactionsHistoryFromStorage.rev history]) docs' =
      (.ok (), { docs' with
        lastBlockHash := lastBlockHash
        transactionsHistory := docs.transactionsHistory.write () history }) := by
  refine ⟨docs.lastBlockHash.write () hash,
    call_all_pair_ok (t := { docs' with lastBlockHash := docs.lastBlockHash.write () hash }) ?_ ?_⟩
  · unfold setLastBlockHashToStorage
    rw [call_setToStorage, hhash]
    unfold Documents.getLastBlockHashFromStorage getFromStorage
    rw [Store.put_revision]
  · unfold setTransactionHistoryToStorage
    rw [call_setToStorage]
    dsimp only
    rw [hhistory]
    unfold Documents.getTransactionsHistoryFromStorage getFromStorage
    rw [Store.put_revision]

theorem history_write (docs : Documents) (slot : Slot HistoryDoc) (history : HistoryDoc)
    (h : docs.transactionsHistory = slot.write () history) : docs.history = history := by
  unfold Documents.history Documents.getTransactionsHistoryFromStorage getFromStorage
  rw [h, Store.get_write_self]
  rfl

theorem call_prepareTransactionsList (history : HistoryDoc) (docs : Documents) :
    call (prepareTransactionsList history) docs =
      ((history.unconfirmed ++ history.confirmed).mapM docs.getTransactionFromStorageByHash, docs) := by
  unfold prepareTransactionsList
  rw [call_get_bind, call_orRaise]

/-- The settings are loaded, and the contacts are synchronised or not needed. -/
def Answer.Serves (answer : Answer) (ts : List Transaction) : Prop :=
  answer.settings.isSome = true ∧ ∀ t ∈ ts, t.contacts ≠ [] → answer.contacts.isSome = true

theorem contactOf_cases (list : Option (Object Str Contact)) (t : Transaction) :
    (∃ contact, contactOf list t = .ok contact) ∧ (t.contacts ≠ [] → list.isSome = true) ∨
      contactOf list t = .error .notLoaded ∧ ¬(t.contacts ≠ [] → list.isSome = true) := by
  unfold contactOf findByHash
  cases t.contacts with
  | nil => exact Or.inl ⟨⟨none, rfl⟩, fun h => absurd rfl h⟩
  | cons contactHash rest =>
    cases list with
    | some contactsByHash => exact Or.inl ⟨⟨_, rfl⟩, fun _ => rfl⟩
    | none => exact Or.inr ⟨rfl, by simp⟩

theorem mapM_contactOf_cases (list : Option (Object Str Contact)) (ts : List Transaction) :
    (∃ contacts, ts.mapM (contactOf list) = .ok contacts) ∧ (∀ t ∈ ts, t.contacts ≠ [] → list.isSome = true) ∨
      ts.mapM (contactOf list) = .error .notLoaded ∧ ¬∀ t ∈ ts, t.contacts ≠ [] → list.isSome = true := by
  induction ts with
  | nil => exact Or.inl ⟨⟨[], rfl⟩, fun t ht => absurd ht List.not_mem_nil⟩
  | cons t ts ih =>
    rw [List.mapM_cons, List.forall_mem_cons]
    rcases contactOf_cases list t with ⟨⟨contact, hcontact⟩, hlooked⟩ | ⟨herror, hnot⟩
    · rw [hcontact, ok_bind]
      rcases ih with ⟨⟨contacts, hcontacts⟩, hall⟩ | ⟨herror, hnot⟩
      · rw [hcontacts]
        exact Or.inl ⟨⟨_, rfl⟩, hlooked, hall⟩
      · rw [herror]
        exact Or.inr ⟨rfl, fun h => hnot h.2⟩
    · rw [herror]
      exact Or.inr ⟨rfl, fun h => hnot h.1⟩

theorem updateTransactionsList_cases (config : Config) (answer : Answer) (ts : List Transaction) :
    (∃ listed, updateTransactionsList config answer ts = .ok listed) ∧ answer.Serves ts ∨
      updateTransactionsList config answer ts = .error .notLoaded ∧ ¬answer.Serves ts := by
  unfold updateTransactionsList extentTransactionsWithContactsAndGlideraData Answer.Serves
  cases answer.settings with
  | none => exact Or.inr ⟨rfl, fun h => by cases h.1⟩
  | some glideraTransactions =>
    dsimp only
    rcases mapM_contactOf_cases answer.contacts ts with ⟨⟨contacts, hcontacts⟩, hall⟩ | ⟨herror, hnot⟩
    · rw [hcontacts]
      exact Or.inl ⟨⟨_, rfl⟩, rfl, hall⟩
    · rw [herror]
      exact Or.inr ⟨rfl, fun h => hnot h.2⟩

theorem length_addGlideraDataToAll (identifier : Str) (complete : List GlideraTransaction) (ts : List Transaction) :
    (addGlideraDataToAll identifier complete ts).length = ts.length := by
  induction ts generalizing complete with
  | nil => rfl
  | cons t ts ih => exact congrArg (· + 1) (ih _)

theorem length_mapM_contactOf {list : Option (Object Str Contact)} {ts : List Transaction}
    {contacts : List (Option Contact)} (h : ts.mapM (contactOf list) = .ok contacts) :
    contacts.length = ts.length := by
  induction ts generalizing contacts with
  | nil =>
    cases h
    rfl
  | cons t ts ih =>
    rw [List.mapM_cons] at h
    obtain ⟨contact, -, h⟩ := exists_of_bind_ok h
    obtain ⟨rest, hrest, h⟩ := exists_of_bind_ok h
    cases h
    exact congrArg (· + 1) (ih hrest)

/-- The list in memory has every transaction from the first height on, in order. -/
theorem map_transaction_of_updateTransactionsList {config : Config} {answer : Answer} {ts : List Transaction}
    {listed : List Listed} (h : updateTransactionsList config answer ts = .ok listed) :
    listed.map Listed.transaction = ts.filter fun t => t.blockHeight.all (config.txFilterMinBlockHeight ≤ ·) := by
  obtain ⟨extended, hextended, h⟩ := exists_of_bind_ok h
  have hmap : extended.map Listed.transaction = ts := by
    unfold extentTransactionsWithContactsAndGlideraData at hextended
    cases hsettings : answer.settings with
    | none =>
      rw [hsettings] at hextended
      cases hextended
    | some glideraTransactions =>
      rw [hsettings] at hextended
      obtain ⟨contacts, hcontacts, hextended⟩ := exists_of_bind_ok hextended
      cases hextended
      rw [List.map_map]
      refine List.map_fst_zip ?_
      rw [List.length_zip, length_mapM_contactOf hcontacts, length_addGlideraDataToAll, Nat.min_self]
  cases h
  rw [← hmap]
  split
  · rw [List.filter_map]
    rfl
  · next hzero =>
    rw [List.filter_eq_self.mpr]
    intro t _
    rw [not_not.mp hzero]
    cases t.blockHeight <;> simp

theorem call_addNewTransactionsToList_snd (config : Config) (answer : Answer) (history : HistoryDoc)
    (docs : Documents) : (call (addNewTransactionsToList config answer history) docs).2 = docs := by
  unfold addNewTransactionsToList
  rw [call_bind, call_prepareTransactionsList]
  rcases (history.unconfirmed ++ history.confirmed).mapM docs.getTransactionFromStorageByHash with e | ts
  · rfl
  · exact congrArg Prod.snd (call_orRaise (updateTransactionsList config answer ts) docs)

theorem call_addNewTransactionsToList_fst {history : HistoryDoc} {docs : Documents}
    (h : ∀ k ∈ history.unconfirmed ++ history.confirmed, ∃ t, docs.stored k = some t) (config : Config)
    (answer : Answer) : ∃ ts, (∀ t, t ∈ ts ↔ ∃ k ∈ history.unconfirmed ++ history.confirmed, docs.stored k = some t) ∧
      (call (addNewTransactionsToList config answer history) docs).1 = updateTransactionsList config answer ts := by
  have hread : ∀ k ∈ history.unconfirmed ++ history.confirmed, docs.getTransactionFromStorageByHash k =
      .ok ((docs.stored k).getD ⟨k, none, [], [], []⟩) := by
    intro k hk
    obtain ⟨t, ht⟩ := h k hk
    unfold Documents.getTransactionFromStorageByHash
    rw [ht]
    rfl
  refine ⟨(history.unconfirmed ++ history.confirmed).map fun k => (docs.stored k).getD ⟨k, none, [], [], []⟩,
    fun t => ?_, ?_⟩
  · rw [List.mem_map]
    refine exists_congr fun k => and_congr_right fun hk => ?_
    obtain ⟨t', ht'⟩ := h k hk
    rw [ht']
    exact Option.some_inj.symm
  · unfold addNewTransactionsToList
    rw [call_bind, call_prepareTransactionsList, mapM_ok hread]
    dsimp only
    rw [call_orRaise]

/-- What a poll puts for a batch. -/
def Documents.writes (docs : Documents) (answer : Answer) : List Write :=
  answer.transactions.filterMap docs.history.write

theorem call_pollChain_empty {config : Config} {answer : Answer} (h : answer.transactions = []) (docs : Documents) :
    call (pollChain config answer) docs = (.error .noTx, docs) := by
  unfold pollChain
  rw [call_get_bind, if_pos h]
  rfl

theorem call_pollChain_conflict {config : Config} {answer : Answer} {docs : Documents} (hne : answer.transactions ≠ [])
    (hn : (answer.transactions.map Transaction.hash).Nodup) (h : ¬∀ w ∈ docs.writes answer, w.Accepted docs) :
    (call (pollChain config answer) docs).1 = .error .conflict := by
  unfold pollChain
  rw [call_get_bind, if_neg hne]
  refine call_bind_fst_error (call_all_cons_error ?_)
  unfold processTransactions
  rw [(processList_eq _ hn).2]
  exact call_all_error (nodup_writes _ hn) h

/-- With its writes accepted, a poll leaves the lists and the documents of its batch, and then reads the lists. -/
theorem call_pollChain_accepted {config : Config} {answer : Answer} {docs : Documents}
    (hne : answer.transactions ≠ []) (hn : (answer.transactions.map Transaction.hash).Nodup) (h : ∀ w ∈ docs.writes answer, w.Accepted docs) :
    ∃ docs', call (pollChain config answer) docs =
        call (addNewTransactionsToList config answer (processList docs.history answer.transactions).history) docs' ∧
      docs'.history = (processList docs.history answer.transactions).history ∧
      ∀ k, docs'.stored k = (docs.writeAll (docs.writes answer)).stored k := by
  obtain ⟨transactions, hwriteAll⟩ := writeAll_eq docs (docs.writes answer)
  have hprocess : call (processTransactions docs.history answer.transactions) docs =
      (.ok (), docs.writeAll (docs.writes answer)) := by
    unfold processTransactions
    rw [(processList_eq _ hn).2]
    exact call_all_ok (nodup_writes _ hn) h
  obtain ⟨balance, hbalance⟩ := call_getBalance answer (docs.writeAll (docs.writes answer))
  obtain ⟨lastBlockHash, hsave⟩ := @call_save docs { docs.writeAll (docs.writes answer) with balance := balance }
    (by rw [hwriteAll]) (by rw [hwriteAll]) answer.lastBlockHash (processList docs.history answer.transactions).history
  refine ⟨{ docs.writeAll (docs.writes answer) with
    balance := balance
    lastBlockHash := lastBlockHash
    transactionsHistory := docs.transactionsHistory.write () (processList docs.history answer.transactions).history },
    ?_, history_write _ docs.transactionsHistory _ rfl, fun k => rfl⟩
  unfold pollChain
  rw [call_get_bind, if_neg hne]
  unfold pollBatch
  dsimp only
  refine (call_bind_ok (call_all_pair_ok hprocess hbalance)).trans ?_
  exact call_bind_ok hsave

namespace Session

variable {s : Session} {answer : Answer}

theorem poll_docs (s : Session) (answer : Answer) : (s.poll answer).docs = (call (pollChain s.config answer) s.docs).2 := by
  show (call (pollTransactions s.config answer) s.docs).2 = _
  unfold pollTransactions
  rw [call_tryCatch, call_map]
  rcases (call (pollChain s.config answer) s.docs).1 with e | ts
  · cases e <;> rfl
  · rfl

theorem poll_succeeded (s : Session) (answer : Answer) : (s.poll answer).succeeded = true ↔
    (call (pollChain s.config answer) s.docs).1 = .error .noTx ∨ ∃ ts, (call (pollChain s.config answer) s.docs).1 = .ok ts := by
  show (call (pollTransactions s.config answer) s.docs).1.isOk = true ↔ _
  unfold pollTransactions
  rw [call_tryCatch, call_map]
  rcases (call (pollChain s.config answer) s.docs).1 with e | ts
  · cases e <;> simp [Except.isOk, Except.toBool]
  · simp [Except.isOk, Except.toBool]

theorem poll_of_empty (h : answer.transactions = []) :
    s.poll answer = { s with succeeded := true, reports := [] :: s.reports } := by
  have hpoll : call (pollTransactions s.config answer) s.docs = (.ok none, s.docs) := by
    unfold pollTransactions
    rw [call_tryCatch, call_map, call_pollChain_empty h]
    rfl
  unfold poll
  rw [hpoll, h]
  rfl

/-! ## Reports -/

theorem find?_hash {ts : List Transaction} (hn : (ts.map Transaction.hash).Nodup) {t : Transaction} (ht : t ∈ ts) :
    ts.find? (·.hash = t.hash) = some t := by
  induction ts with
  | nil => cases ht
  | cons t' ts ih =>
    obtain ⟨ht', hn⟩ := List.nodup_cons.mp hn
    rcases List.mem_cons.mp ht with rfl | ht
    · simp
    · have hne : t'.hash ≠ t.hash := fun he => ht' (he ▸ List.mem_map_of_mem ht)
      simpa [List.find?_cons, hne] using ih hn ht

theorem latest_poll_of_mem (hn : (answer.transactions.map Transaction.hash).Nodup) {t : Transaction}
    (ht : t ∈ answer.transactions) : (s.poll answer).latest t.hash = some t := by
  show (answer.transactions ++ s.reports.flatten).find? _ = _
  rw [List.find?_append, find?_hash hn ht]
  rfl

theorem latest_poll_of_not_mem {h : Hash} (hh : ∀ t ∈ answer.transactions, t.hash ≠ h) :
    (s.poll answer).latest h = s.latest h := by
  show (answer.transactions ++ s.reports.flatten).find? _ = _
  rw [List.find?_append, List.find?_eq_none.mpr]
  · rfl
  · intro t ht
    simpa using hh t ht

theorem reportedConfirmed_poll {h : Hash} : (s.poll answer).ReportedConfirmed h ↔
    (∃ t ∈ answer.transactions, t.hash = h ∧ t.isConfirmed = true) ∨ s.ReportedConfirmed h := by
  show (∃ t ∈ answer.transactions ++ s.reports.flatten, _) ↔ _
  simp only [List.mem_append, or_and_right, exists_or]
  rfl

instance (s : Session) (h : Hash) : Decidable (s.ReportedConfirmed h) :=
  inferInstanceAs (Decidable (∃ t ∈ s.reports.flatten, t.hash = h ∧ t.isConfirmed = true))

/-! ## What polls keep -/

/-- The session is consistent, and what is listed as confirmed was reported so. -/
structure Inv (s : Session) : Prop extends Consistent s where
  reported : ∀ h ∈ s.confirmed, s.ReportedConfirmed h

theorem start_inv (config : Config) : Inv (start config) where
  succeeded := rfl
  confirmedNodup := List.nodup_nil
  unconfirmedNodup := List.nodup_nil
  disjoint := List.disjoint_nil_left []
  unconfirmed := by simp [start, Session.unconfirmed, Session.batch, Documents.history,
    Documents.getTransactionsHistoryFromStorage, getFromStorage, Documents.empty]
  confirmed := by rintro h ⟨t, ht, -⟩; cases ht
  stored := by rintro h (hh | hh) <;> cases hh
  reported := by rintro h hh; cases hh

theorem not_mem_confirmed (h : Inv s) (hwf : WellFormed s answer) {t : Transaction} (ht : t ∈ answer.transactions)
    (hconf : t.isConfirmed = false) : t.hash ∉ s.confirmed :=
  fun hmem => hwf.chain t ht hconf (h.reported _ hmem)

/-- The store accepts the writes of a batch if and only if no transaction comes back. -/
theorem accepted_iff (h : Inv s) (hwf : WellFormed s answer) :
    (∀ w ∈ s.docs.writes answer, w.Accepted s.docs) ↔
      ∀ t ∈ answer.transactions, t.hash ∉ s.confirmed → t.hash ∉ s.unconfirmed → s.docs.stored t.hash = none := by
  constructor
  · intro hacc t ht hconf hunconf
    refine hacc (.add t) (List.mem_filterMap.mpr ⟨t, ht, ?_⟩)
    unfold HistoryDoc.write
    exact (if_neg hunconf).trans (if_neg fun hc => hconf hc.2)
  · intro hfresh w hw
    obtain ⟨t, ht, hwrite⟩ := List.mem_filterMap.mp hw
    unfold HistoryDoc.write at hwrite
    split at hwrite
    · split at hwrite
      · obtain rfl := Option.some.inj hwrite
        trivial
      · cases hwrite
    · next hunconf =>
      split at hwrite
      · cases hwrite
      · next hnot =>
        obtain rfl := Option.some.inj hwrite
        refine hfresh t ht (fun hconf => ?_) hunconf
        cases hc : t.isConfirmed with
        | false => exact not_mem_confirmed h hwf ht hc hconf
        | true => exact hnot ⟨hc, hconf⟩

theorem stored_of_batch (hwf : WellFormed s answer) {t : Transaction} (ht : t ∈ answer.transactions) :
    (s.docs.writeAll (s.docs.writes answer)).stored t.hash =
      if (s.docs.history.write t).isSome then some t else s.docs.stored t.hash := by
  have hn := nodup_writes s.docs.history hwf.distinct
  cases hw : s.docs.history.write t with
  | some w =>
    have htrans := write_transaction hw
    have hstored := @stored_writeAll s.docs _ hn w (List.mem_filterMap.mpr ⟨t, ht, hw⟩)
    rw [Write.hash, htrans] at hstored
    exact hstored
  | none =>
    refine stored_writeAll_of_not_mem fun w hmem he => ?_
    obtain ⟨t', ht', hw'⟩ := List.mem_filterMap.mp hmem
    have hhash : t'.hash = t.hash := by
      rw [← write_transaction hw']
      exact he
    have heq : t' = t := List.inj_on_of_nodup_map hwf.distinct ht' ht hhash
    rw [heq, hw] at hw'
    cases hw'

theorem poll_accepted (hne : answer.transactions ≠ []) (hwf : WellFormed s answer)
    (hacc : ∀ w ∈ s.docs.writes answer, w.Accepted s.docs) :
    (s.poll answer).docs.history =
        ⟨((answer.transactions.filter s.docs.history.confirms).map Transaction.hash).reverse ++ s.confirmed,
          ((answer.transactions.filter fun t => !t.isConfirmed).map Transaction.hash).reverse⟩ ∧
      (∀ k, (s.poll answer).docs.stored k = (s.docs.writeAll (s.docs.writes answer)).stored k) ∧
      ((∀ k, k ∈ (s.poll answer).confirmed ∨ k ∈ (s.poll answer).unconfirmed →
        ∃ t, (s.poll answer).docs.stored k = some t) →
        ∃ ts, (∀ t, t ∈ ts ↔ ∃ k, (k ∈ (s.poll answer).confirmed ∨ k ∈ (s.poll answer).unconfirmed) ∧
          (s.poll answer).docs.stored k = some t) ∧ ((s.poll answer).succeeded = true ↔ answer.Serves ts)) := by
  obtain ⟨docs', hchain, hhistory, hstored⟩ := @call_pollChain_accepted s.config _ _ hne hwf.distinct hacc
  have hdocs : (s.poll answer).docs = docs' := by
    rw [poll_docs, hchain]
    exact call_addNewTransactionsToList_snd s.config answer _ docs'
  refine ⟨?_, fun k => ?_, fun hlisted => ?_⟩
  · rw [hdocs, hhistory]
    exact (processList_eq s.docs.history hwf.distinct).1
  · rw [hdocs]
    exact hstored k
  · have hmem : ∀ k, k ∈ (processList s.docs.history answer.transactions).history.unconfirmed ++
        (processList s.docs.history answer.transactions).history.confirmed ↔
        k ∈ (s.poll answer).confirmed ∨ k ∈ (s.poll answer).unconfirmed := by
      intro k
      rw [← hhistory, ← hdocs, List.mem_append]
      exact Or.comm
    obtain ⟨ts, hts, hcall⟩ := call_addNewTransactionsToList_fst
      (fun k hk => hdocs ▸ hlisted k ((hmem k).mp hk)) s.config answer
    refine ⟨ts, fun t => ?_, ?_⟩
    · rw [hts, hdocs]
      exact exists_congr fun k => and_congr_left' (hmem k)
    · rw [poll_succeeded, hchain, hcall]
      rcases updateTransactionsList_cases s.config answer ts with ⟨hok, hserves⟩ | ⟨herror, hnot⟩
      · exact iff_of_true (Or.inr hok) hserves
      · rw [herror]
        refine iff_of_false ?_ hnot
        rintro (h | ⟨listed, h⟩)
        · cases h
        · cases h

theorem mem_unconfirmed_poll (hne : answer.transactions ≠ []) (hwf : WellFormed s answer)
    (hacc : ∀ w ∈ s.docs.writes answer, w.Accepted s.docs) (k : Hash) :
    k ∈ (s.poll answer).unconfirmed ↔ ∃ t ∈ answer.transactions, t.hash = k ∧ t.isConfirmed = false := by
  unfold Session.unconfirmed
  rw [(poll_accepted hne hwf hacc).1]
  simp [and_assoc, and_comm]

theorem mem_confirmed_poll (hne : answer.transactions ≠ []) (hwf : WellFormed s answer)
    (hacc : ∀ w ∈ s.docs.writes answer, w.Accepted s.docs) (k : Hash) :
    k ∈ (s.poll answer).confirmed ↔
      (∃ t ∈ answer.transactions, t.hash = k ∧ t.isConfirmed = true) ∨ k ∈ s.confirmed := by
  unfold Session.confirmed
  rw [(poll_accepted hne hwf hacc).1]
  simp only [List.mem_append, List.mem_reverse, List.mem_map, List.mem_filter, HistoryDoc.confirms, decide_eq_true_iff]
  constructor
  · rintro (⟨t, ⟨ht, hc, -⟩, rfl⟩ | hk)
    · exact Or.inl ⟨t, ht, rfl, hc⟩
    · exact Or.inr hk
  · rintro (⟨t, ht, rfl, hc⟩ | hk)
    · by_cases hold : t.hash ∈ s.docs.history.confirmed
      · exact Or.inr hold
      · exact Or.inl ⟨t, ⟨ht, hc, Or.inr hold⟩, rfl⟩
    · exact Or.inr hk

theorem Inv.poll_empty (h : Inv s) (hempty : answer.transactions = []) (hcleared : s.unconfirmed = []) :
    Inv (s.poll answer) := by
  rw [poll_of_empty hempty]
  exact {
    succeeded := rfl
    confirmedNodup := h.confirmedNodup
    unconfirmedNodup := h.unconfirmedNodup
    disjoint := h.disjoint
    unconfirmed := by
      intro k
      show k ∈ s.unconfirmed ↔ ∃ t ∈ ([] : List Transaction), _
      simp [hcleared]
    confirmed := h.confirmed
    stored := h.stored
    reported := h.reported }

theorem stored_poll_of_mem (hne : answer.transactions ≠ []) (hwf : WellFormed s answer)
    (hacc : ∀ w ∈ s.docs.writes answer, w.Accepted s.docs) {t : Transaction} (ht : t ∈ answer.transactions) :
    (s.poll answer).docs.stored t.hash =
      if t.hash ∈ s.confirmed ∧ t.hash ∉ s.unconfirmed ∧ t.isConfirmed = true ∨
          t.hash ∈ s.unconfirmed ∧ t.isConfirmed = false then s.docs.stored t.hash
      else some t := by
  rw [(poll_accepted hne hwf hacc).2.1, stored_of_batch hwf ht]
  unfold HistoryDoc.write Session.confirmed Session.unconfirmed
  by_cases hu : t.hash ∈ s.docs.history.unconfirmed
  · cases t.isConfirmed <;> simp [hu]
  · by_cases hc : t.hash ∈ s.docs.history.confirmed
    · cases t.isConfirmed <;> simp [hu, hc]
    · simp [hu, hc]

theorem stored_poll_of_not_mem (hne : answer.transactions ≠ []) (hwf : WellFormed s answer)
    (hacc : ∀ w ∈ s.docs.writes answer, w.Accepted s.docs) {k : Hash} (hk : ∀ t ∈ answer.transactions, t.hash ≠ k) :
    (s.poll answer).docs.stored k = s.docs.stored k := by
  rw [(poll_accepted hne hwf hacc).2.1, stored_writeAll_of_not_mem fun w hw he => ?_]
  obtain ⟨t, ht, hwrite⟩ := List.mem_filterMap.mp hw
  refine hk t ht ?_
  rw [← write_transaction hwrite]
  exact he

/-- A poll that finds its own data, where it does not write, lists its batch and what was stored as confirmed. -/
theorem listed_iff (hne : answer.transactions ≠ []) (hwf : WellFormed s answer)
    (hacc : ∀ w ∈ s.docs.writes answer, w.Accepted s.docs)
    (hbatch : ∀ t ∈ answer.transactions, (s.poll answer).docs.stored t.hash = some t)
    (hsame : ∀ t ∈ answer.transactions, t.hash ∈ s.confirmed → s.docs.stored t.hash = some t) {t : Transaction} :
    (∃ k, (k ∈ (s.poll answer).confirmed ∨ k ∈ (s.poll answer).unconfirmed) ∧
      (s.poll answer).docs.stored k = some t) ↔ s.Lists answer t := by
  have hmemConf := mem_confirmed_poll hne hwf hacc
  have hmemUnconf := mem_unconfirmed_poll hne hwf hacc
  constructor
  · rintro ⟨k, hk, hdoc⟩
    by_cases hmem : ∃ t' ∈ answer.transactions, t'.hash = k
    · obtain ⟨t', ht', rfl⟩ := hmem
      rw [hbatch t' ht'] at hdoc
      exact Or.inl (Option.some.inj hdoc ▸ ht')
    · have hout : ∀ t' ∈ answer.transactions, t'.hash ≠ k := fun t' ht' he => hmem ⟨t', ht', he⟩
      rw [stored_poll_of_not_mem hne hwf hacc hout] at hdoc
      refine Or.inr ⟨k, ?_, hdoc⟩
      rcases hk with hk | hk
      · rcases (hmemConf k).mp hk with ⟨t', ht', he, -⟩ | hk
        · exact absurd he (hout t' ht')
        · exact hk
      · obtain ⟨t', ht', he, -⟩ := (hmemUnconf k).mp hk
        exact absurd he (hout t' ht')
  · rintro (ht | ⟨k, hk, hdoc⟩)
    · refine ⟨t.hash, ?_, hbatch t ht⟩
      cases hc : t.isConfirmed with
      | true => exact Or.inl ((hmemConf _).mpr (Or.inl ⟨t, ht, rfl, hc⟩))
      | false => exact Or.inr ((hmemUnconf _).mpr ⟨t, ht, rfl, hc⟩)
    · refine ⟨k, Or.inl ((hmemConf k).mpr (Or.inr hk)), ?_⟩
      by_cases hmem : ∃ t' ∈ answer.transactions, t'.hash = k
      · obtain ⟨t', ht', rfl⟩ := hmem
        rw [hbatch t' ht', ← hsame t' ht' hk, hdoc]
      · rw [stored_poll_of_not_mem hne hwf hacc fun t' ht' he => hmem ⟨t', ht', he⟩]
        exact hdoc

theorem nodup_confirmed_poll (h : Inv s) (hne : answer.transactions ≠ []) (hwf : WellFormed s answer)
    (hacc : ∀ w ∈ s.docs.writes answer, w.Accepted s.docs) : (s.poll answer).confirmed.Nodup := by
  unfold Session.confirmed
  rw [(poll_accepted hne hwf hacc).1]
  refine List.nodup_append.mpr ⟨?_, h.confirmedNodup, ?_⟩
  · exact List.nodup_reverse.mpr (hwf.distinct.sublist (List.filter_sublist.map Transaction.hash))
  · rintro a ha b hb rfl
    obtain ⟨t, ht, rfl⟩ := List.mem_map.mp (List.mem_reverse.mp ha)
    have hconfirms := (List.mem_filter.mp ht).2
    simp only [HistoryDoc.confirms, decide_eq_true_iff] at hconfirms
    rcases hconfirms.2 with hu | hc
    · exact h.disjoint hb hu
    · exact hc hb

/-- A regular poll leaves every transaction of its batch stored as it was reported. -/
theorem Inv.stored_batch (h : Inv s) (hne : answer.transactions ≠ []) (hwf : WellFormed s answer)
    (hok : Regular s answer) {t : Transaction} (ht : t ∈ answer.transactions) :
    (s.poll answer).docs.stored t.hash = some t := by
  rw [stored_poll_of_mem hne hwf ((accepted_iff h hwf).mpr hok.fresh) ht]
  split
  · next hsame => exact hok.same t ht (hsame.imp (fun hc => hc.1) id)
  · rfl

theorem Inv.stored_listed (h : Inv s) (hne : answer.transactions ≠ []) (hwf : WellFormed s answer)
    (hok : Regular s answer) {k : Hash} (hk : k ∈ (s.poll answer).confirmed ∨ k ∈ (s.poll answer).unconfirmed) :
    ∃ t, (s.poll answer).latest k = some t ∧ (s.poll answer).docs.stored k = some t := by
  have hacc := (accepted_iff h hwf).mpr hok.fresh
  by_cases hmem : ∃ t ∈ answer.transactions, t.hash = k
  · obtain ⟨t, ht, rfl⟩ := hmem
    exact ⟨t, latest_poll_of_mem hwf.distinct ht, h.stored_batch hne hwf hok ht⟩
  -- What the batch does not report is listed as confirmed from before.
  have hout : ∀ t ∈ answer.transactions, t.hash ≠ k := fun t ht he => hmem ⟨t, ht, he⟩
  have hold : k ∈ s.confirmed := by
    rcases hk with hk | hk
    · rcases (mem_confirmed_poll hne hwf hacc k).mp hk with ⟨t, ht, he, -⟩ | hk
      · exact absurd he (hout t ht)
      · exact hk
    · obtain ⟨t, ht, he, -⟩ := (mem_unconfirmed_poll hne hwf hacc k).mp hk
      exact absurd he (hout t ht)
  obtain ⟨t, hlatest, hdoc⟩ := h.stored k (Or.inl hold)
  refine ⟨t, ?_, ?_⟩
  · rw [latest_poll_of_not_mem hout]
    exact hlatest
  · rw [stored_poll_of_not_mem hne hwf hacc hout]
    exact hdoc

theorem Inv.poll_batch (h : Inv s) (hne : answer.transactions ≠ []) (hwf : WellFormed s answer)
    (hok : Regular s answer) : Inv (s.poll answer) := by
  have hacc := (accepted_iff h hwf).mpr hok.fresh
  have hmemConf := mem_confirmed_poll hne hwf hacc
  have hmemUnconf := mem_unconfirmed_poll hne hwf hacc
  have hbatch : ∀ t ∈ answer.transactions, (s.poll answer).docs.stored t.hash = some t :=
    fun _ ht => h.stored_batch hne hwf hok ht
  have hstored : ∀ k, k ∈ (s.poll answer).confirmed ∨ k ∈ (s.poll answer).unconfirmed →
      ∃ t, (s.poll answer).latest k = some t ∧ (s.poll answer).docs.stored k = some t :=
    fun _ hk => h.stored_listed hne hwf hok hk
  have hsucceeded : (s.poll answer).succeeded = true := by
    obtain ⟨ts, hts, hserves⟩ := (poll_accepted hne hwf hacc).2.2 fun k hk => (hstored k hk).imp fun t ht => ht.2
    refine hserves.mpr ⟨hok.settings hne, fun t ht => hok.contacts hne t ?_⟩
    exact (listed_iff hne hwf hacc hbatch fun t ht hc => hok.same t ht (Or.inl hc)).mp ((hts t).mp ht)
  exact {
    succeeded := hsucceeded
    confirmedNodup := nodup_confirmed_poll h hne hwf hacc
    unconfirmedNodup := by
      unfold Session.unconfirmed
      rw [(poll_accepted hne hwf hacc).1]
      exact List.nodup_reverse.mpr (hwf.distinct.sublist (List.filter_sublist.map Transaction.hash))
    disjoint := by
      intro k hk hk'
      obtain ⟨t, ht, rfl, hc⟩ := (hmemUnconf k).mp hk'
      rcases (hmemConf t.hash).mp hk with ⟨t', ht', he, hc'⟩ | hold
      · obtain rfl := List.inj_on_of_nodup_map hwf.distinct ht' ht he
        rw [hc] at hc'
        cases hc'
      · exact not_mem_confirmed h hwf ht hc hold
    unconfirmed := hmemUnconf
    confirmed := by
      intro k hk
      rcases reportedConfirmed_poll.mp hk with hk | hk
      · exact (hmemConf k).mpr (Or.inl hk)
      · exact (hmemConf k).mpr (Or.inr (h.confirmed k hk))
    stored := hstored
    reported := by
      intro k hk
      rcases (hmemConf k).mp hk with hk | hk
      · exact reportedConfirmed_poll.mpr (Or.inl hk)
      · exact reportedConfirmed_poll.mpr (Or.inr (h.reported k hk)) }

theorem Inv.poll (h : Inv s) (hwf : WellFormed s answer) (hok : Regular s answer) : Inv (s.poll answer) := by
  by_cases hempty : answer.transactions = []
  · exact h.poll_empty hempty (hok.cleared hempty)
  · exact h.poll_batch hempty hwf hok

/-- A poll that leaves the session consistent was regular. -/
theorem regular_of_consistent (h : Inv s) (hwf : WellFormed s answer) (hpoll : Consistent (s.poll answer)) :
    Regular s answer := by
  by_cases hempty : answer.transactions = []
  · refine ⟨fun _ => ?_, by simp [hempty], by simp [hempty], fun hne => absurd hempty hne,
      fun hne => absurd hempty hne⟩
    rw [poll_of_empty hempty] at hpoll
    refine List.eq_nil_iff_forall_not_mem.mpr fun k hk => ?_
    obtain ⟨t, ht, -⟩ := (hpoll.unconfirmed k).mp hk
    cases ht
  · have hacc : ∀ w ∈ s.docs.writes answer, w.Accepted s.docs := by
      by_contra hconflict
      have hsucceeded := (s.poll_succeeded answer).mp hpoll.succeeded
      rw [call_pollChain_conflict hempty hwf.distinct hconflict] at hsucceeded
      rcases hsucceeded with he | ⟨ts, he⟩
      · cases he
      · cases he
    have hbatch : ∀ t ∈ answer.transactions, (s.poll answer).docs.stored t.hash = some t := by
      intro t ht
      have hlisted : t.hash ∈ (s.poll answer).confirmed ∨ t.hash ∈ (s.poll answer).unconfirmed := by
        cases hc : t.isConfirmed with
        | true => exact Or.inl ((mem_confirmed_poll hempty hwf hacc _).mpr (Or.inl ⟨t, ht, rfl, hc⟩))
        | false => exact Or.inr ((mem_unconfirmed_poll hempty hwf hacc _).mpr ⟨t, ht, rfl, hc⟩)
      obtain ⟨t', hlatest, hdoc⟩ := hpoll.stored _ hlisted
      rw [latest_poll_of_mem hwf.distinct ht] at hlatest
      rw [hdoc, hlatest]
    have hsame : ∀ t ∈ answer.transactions, t.hash ∈ s.confirmed ∨ t.hash ∈ s.unconfirmed ∧ t.isConfirmed = false →
        s.docs.stored t.hash = some t := by
      intro t ht hold
      have hkept : t.hash ∈ s.confirmed ∧ t.hash ∉ s.unconfirmed ∧ t.isConfirmed = true ∨
          t.hash ∈ s.unconfirmed ∧ t.isConfirmed = false := by
        rcases hold with hold | hold
        · refine Or.inl ⟨hold, fun hu => h.disjoint hold hu, ?_⟩
          cases hc : t.isConfirmed with
          | false => exact absurd hold (not_mem_confirmed h hwf ht hc)
          | true => rfl
        · exact Or.inr hold
      have hdoc := hbatch t ht
      rw [stored_poll_of_mem hempty hwf hacc ht, if_pos hkept] at hdoc
      exact hdoc
    obtain ⟨ts, hts, hserves⟩ := (poll_accepted hempty hwf hacc).2.2 fun k hk =>
      (hpoll.stored k hk).imp fun t ht => ht.2
    obtain ⟨hsettings, hcontacts⟩ := hserves.mp hpoll.succeeded
    refine ⟨fun he => absurd he hempty, (accepted_iff h hwf).mp hacc, hsame, fun _ => hsettings, fun _ t ht => ?_⟩
    exact hcontacts t ((hts t).mpr
      ((listed_iff hempty hwf hacc hbatch fun t ht hc => hsame t ht (Or.inl hc)).mpr ht))

/-- **History.** A session is consistent after every poll if and only if every poll is regular. -/
theorem history_iff (config : Config) (answers : List Answer) (hwf : Along poll WellFormed (start config) answers) :
    Always poll Consistent (start config) answers ↔ Along poll Regular (start config) answers :=
  always_iff_along_of_wf (I := Inv) (fun _ h => h.toConsistent) (fun _ _ h hwf hok => h.poll hwf hok)
    (fun _ _ h hwf hpoll => regular_of_consistent h hwf hpoll) (start_inv config) hwf

/-! ## A transaction that comes back -/

def sampleHash : Hash := ⟨"aa".toList, by decide⟩

def otherHash : Hash := ⟨"bb".toList, by decide⟩

def inMempool (h : Hash) : Transaction := ⟨h, none, ["2N9".toList], ["c0".toList], []⟩

def inBlock (h : Hash) : Transaction := ⟨h, some 500000, ["2N9".toList], ["c0".toList], []⟩

/-- A purchase whose hash is late. -/
def samplePurchase : GlideraTransaction :=
  ⟨none, "2N9".toList, [], "COMPLETE".toList, ⟨"1.5".toList, "USD".toList, "400".toList⟩⟩

def answerOf (transactions : List Transaction) : Answer :=
  ⟨transactions, none, none, some [samplePurchase], some ⟨[("c0".toList, ⟨"c0".toList, none⟩)], by decide⟩⟩

def sampleConfig : Config := ⟨"w".toList, 400000⟩

/-- A transaction enters the mempool, another one comes in, and a block has the first. -/
def confirmedAnswers : List Answer :=
  [answerOf [inMempool sampleHash], answerOf [inMempool sampleHash, inMempool otherHash],
    answerOf [inBlock sampleHash, inMempool otherHash]]

theorem confirmedAnswers_consistent : Always poll Consistent (start sampleConfig) confirmedAnswers :=
  (history_iff sampleConfig confirmedAnswers
    ⟨⟨by decide, by decide +kernel⟩, ⟨by decide, by decide +kernel⟩, ⟨by decide, by decide +kernel⟩, trivial⟩).mpr
    ⟨⟨by decide, by decide +kernel, by decide +kernel, fun _ => rfl, fun _ _ _ _ => rfl⟩,
      ⟨by decide, by decide +kernel, by decide +kernel, fun _ => rfl, fun _ _ _ _ => rfl⟩,
      ⟨by decide, by decide +kernel, by decide +kernel, fun _ => rfl, fun _ _ _ _ => rfl⟩, trivial⟩

/-- A transaction enters the mempool, drops out of it and comes back. -/
def droppedAnswers : List Answer :=
  [answerOf [inMempool sampleHash], answerOf [inMempool otherHash], answerOf [inMempool sampleHash]]

/-- The last poll fails: the transaction is added, and has a document. -/
theorem comeback_fails : Along poll WellFormed (start sampleConfig) droppedAnswers ∧
    (droppedAnswers.foldl poll (start sampleConfig)).succeeded = false ∧
    ¬Always poll Consistent (start sampleConfig) droppedAnswers := by
  have hfails : (droppedAnswers.foldl poll (start sampleConfig)).succeeded = false := by decide +kernel
  refine ⟨⟨⟨by decide, by decide +kernel⟩, ⟨by decide, by decide +kernel⟩, ⟨by decide, by decide +kernel⟩, trivial⟩,
    hfails, fun h => ?_⟩
  have hsucceeded := h.last.succeeded
  rw [hfails] at hsucceeded
  cases hsucceeded

end Session

end History

end WebWallet
