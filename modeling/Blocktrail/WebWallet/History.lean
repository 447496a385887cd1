import Blocktrail.Lib.Documents
import Blocktrail.Lib.Runs
import Blocktrail.Lib.Text

/-! # The transaction history

A poll keeps two lists of hashes and one document a transaction. It inserts or updates a document by what the list of
the last poll says, not by what the store has.
-/

open Assoc Documents Runs Text Throwing

namespace WebWallet

namespace History

/-! ## Documents -/

/-- `_getUniqueIdentifier` throws for the empty one. -/
abbrev Hash := { hash : Str // hash ≠ [] }

instance : LawfulBEq Hash := inferInstance

structure Transaction where
  hash : Hash
  blockHeight : Option Nat
  selfAddresses : List Str
  /-- The hashes of the contacts. -/
  contacts : List Str
  /-- The other fields. -/
  data : Str
deriving DecidableEq

/-- `if (transaction.block_height)`. -/
def Transaction.isConfirmed (t : Transaction) : Bool := t.blockHeight.any (· ≠ 0)

structure HistoryDoc where
  confirmed : List Hash
  unconfirmed : List Hash
deriving DecidableEq

/-- The documents of one wallet, by their type. -/
structure Documents where
  balance : Slot (Int × Int)
  lastBlockHash : Slot (Option Str)
  transactionsHistory : Slot HistoryDoc
  transactions : Store Hash Transaction

inductive Error
  | conflict
  | noTx
  | typeError
  /-- What the settings or the contacts are rejected with. -/
  | notLoaded
deriving DecidableEq

abbrev Wallet := Prog Error Documents

/-- A document that is read to be written. -/
structure Doc (δ : Type) where
  rev : Option Nat
  content : δ

section Storage

variable {κ δ : Type} [DecidableEq κ]

def getFromStorage (store : Store κ δ) (id : κ) (default : δ) : Doc δ :=
  ⟨store.revision id, ((store.get id).map Prod.snd).getD default⟩

/-- A conflict is rethrown. -/
def setToStorage (store : Documents → Store κ δ) (update : Documents → Store κ δ → Documents) (id : κ)
    (rev : Option Nat) (content : δ) : Wallet Unit := do
  let docs ← get
  match (store docs).put id rev content with
  | some stored => set (update docs stored)
  | none => throw .conflict

end Storage

namespace Documents

def empty : Documents := ⟨Store.empty, Store.empty, Store.empty, Store.empty⟩

def getBalanceFromStorage (docs : Documents) : Doc (Int × Int) := getFromStorage docs.balance () (0, 0)

def getLastBlockHashFromStorage (docs : Documents) : Doc (Option Str) := getFromStorage docs.lastBlockHash () none

def getTransactionsHistoryFromStorage (docs : Documents) : Doc HistoryDoc :=
  getFromStorage docs.transactionsHistory () ⟨[], []⟩

/-- The lists, as every reader of them sees them. -/
def history (docs : Documents) : HistoryDoc := docs.getTransactionsHistoryFromStorage.content

/-- What is stored for a hash. -/
def stored (docs : Documents) (h : Hash) : Option Transaction := (docs.transactions.get h).map Prod.snd

/-- `_getTransactionFromStorageByHash` without a transaction: the handler of a missing document reads the hash of
none. -/
def getTransactionFromStorageByHash (docs : Documents) (h : Hash) : Except Error Transaction :=
  match docs.stored h with
  | some t => .ok t
  | none => .error .typeError

end Documents

def setBalanceToStorage (rev : Option Nat) (balance : Int × Int) : Wallet Unit :=
  setToStorage Documents.balance (fun docs stored => { docs with balance := stored }) () rev balance

def setLastBlockHashToStorage (rev : Option Nat) (hash : Option Str) : Wallet Unit :=
  setToStorage Documents.lastBlockHash (fun docs stored => { docs with lastBlockHash := stored }) () rev hash

def setTransactionHistoryToStorage (rev : Option Nat) (history : HistoryDoc) : Wallet Unit :=
  setToStorage Documents.transactionsHistory (fun docs stored => { docs with transactionsHistory := stored }) () rev
    history

def setTransactionToStorage (rev : Option Nat) (t : Transaction) : Wallet Unit :=
  setToStorage Documents.transactions (fun docs stored => { docs with transactions := stored }) t.hash rev t

/-! ## A poll -/

/-- `qty`, `currency` and `price`. -/
structure Purchase where
  qty : Str
  currency : Str
  price : Str
deriving DecidableEq

/-- What the settings have of a purchase. The empty text is an address, or an identifier, that is not there. -/
structure GlideraTransaction where
  transactionHash : Option Hash
  address : Str
  walletIdentifier : Str
  status : Str
  purchase : Purchase
deriving DecidableEq

structure Contact where
  hash : Str
  displayName : Option Str
deriving DecidableEq

/-- What a poll is answered. `none` is a balance that the SDK does not give, settings that are not loaded, and contacts
that are not synchronised. -/
structure Answer where
  transactions : List Transaction
  lastBlockHash : Option Str
  balance : Option (Int × Int)
  settings : Option (List GlideraTransaction)
  /-- `contactsByHash` -/
  contacts : Option (Object Str Contact)

def getBalance (answer : Answer) : Wallet Unit := do
  let doc := (← get).getBalanceFromStorage
  setBalanceToStorage doc.rev (answer.balance.getD doc.content)

def addTransaction (t : Transaction) : Wallet Unit := setTransactionToStorage none t

def updateTransaction (t : Transaction) : Wallet Unit := do
  let doc := getFromStorage (← get).transactions t.hash t
  setTransactionToStorage doc.rev t

/-- What is put for a transaction. -/
inductive Write
  | add (t : Transaction)
  | update (t : Transaction)

def Write.transaction : Write → Transaction
  | .add t => t
  | .update t => t

def Write.run : Write → Wallet Unit
  | .add t => addTransaction t
  | .update t => updateTransaction t

/-- What the loop over the transactions has come to. -/
structure Processed where
  history : HistoryDoc
  newTransactions : List Transaction
  confirmedTransactions : List Transaction
  promises : List Write

namespace Processed

def confirm (p : Processed) (t : Transaction) : Processed :=
  { p with history := { p.history with confirmed := t.hash :: p.history.confirmed } }

def keepUnconfirmed (p : Processed) (t : Transaction) : Processed :=
  if t.hash ∈ p.history.unconfirmed then p
  else { p with history := { p.history with unconfirmed := t.hash :: p.history.unconfirmed } }

def add (p : Processed) (t : Transaction) : Processed :=
  { p with newTransactions := p.newTransactions ++ [t], promises := p.promises ++ [.add t] }

def update (p : Processed) (t : Transaction) : Processed :=
  { p with confirmedTransactions := p.confirmedTransactions ++ [t], promises := p.promises ++ [.update t] }

/-- One turn. -/
def process (oldUnconfirmed : List Hash) (p : Processed) (t : Transaction) : Processed :=
  if t.isConfirmed then
    if t.hash ∈ oldUnconfirmed then (p.confirm t).update t
    else if t.hash ∈ p.history.confirmed then p
    else (p.confirm t).add t
  else
    if t.hash ∈ oldUnconfirmed then p.keepUnconfirmed t
    else (p.keepUnconfirmed t).add t

end Processed

/-- The loop of `_processTransactions`. -/
def processList (history : HistoryDoc) (transactions : List Transaction) : Processed :=
  transactions.foldl (Processed.process history.unconfirmed) ⟨{ history with unconfirmed := [] }, [], [], []⟩

def processTransactions (history : HistoryDoc) (transactions : List Transaction) : Wallet Unit :=
  all ((processList history transactions).promises.map Write.run)

/-- `_prepareTransactionsList` and `_processTransactionDocs`. -/
def prepareTransactionsList (history : HistoryDoc) : Wallet (List Transaction) := do
  let docs ← get
  orRaise ((history.unconfirmed ++ history.confirmed).mapM docs.getTransactionFromStorageByHash)

/-- A transaction with what is shown of it besides. -/
structure Listed where
  transaction : Transaction
  contact : Option Contact
  buybtc : Option Purchase
deriving DecidableEq

/-- What a wallet is made with. -/
structure Config where
  identifier : Str
  /-- 0 where the network has none. -/
  txFilterMinBlockHeight : Nat
deriving DecidableEq

namespace GlideraTransaction

def isComplete (g : GlideraTransaction) : Bool := g.transactionHash.isSome || g.status = "COMPLETE".toList

/-- A purchase whose hash is late gets it from the transaction that pays its address. -/
def fixHash (g : GlideraTransaction) (t : Transaction) : GlideraTransaction :=
  if g.transactionHash = none ∧ g.address ≠ [] ∧ g.address ∈ t.selfAddresses then
    { g with transactionHash := some t.hash }
  else g

/-- The purchase after a turn, and whether the transaction is its own. -/
def extend (identifier : Str) (t : Transaction) (g : GlideraTransaction) : GlideraTransaction × Bool :=
  let fixed := g.fixHash t
  if fixed.transactionHash = some t.hash then
    (if fixed.walletIdentifier = [] then { fixed with walletIdentifier := identifier } else fixed, true)
  else (fixed, false)

end GlideraTransaction

/-- The purchases after a transaction, and the last one that is its own. -/
def addGlideraData (identifier : Str) (complete : List GlideraTransaction) (t : Transaction) :
    List GlideraTransaction × Option Purchase :=
  let turns := complete.map (·.extend identifier t)
  (turns.map Prod.fst, ((turns.filter Prod.snd).getLast?).map fun turn => turn.1.purchase)

/-- The loop over the transactions, without the contacts: the purchases are the same objects in every turn. -/
def addGlideraDataToAll (identifier : Str) : List GlideraTransaction → List Transaction → List (Option Purchase)
  | _, [] => []
  | complete, t :: ts =>
    let (complete', buybtc) := addGlideraData identifier complete t
    buybtc :: addGlideraDataToAll identifier complete' ts

/-- `list` is the promise of the contacts: every look-up of a poll waits for the same one. -/
def findByHash (list : Option (Object Str Contact)) (hash : Str) : Except Error (Option Contact) :=
  match list with
  | some contactsByHash => .ok (contactsByHash.get? hash)
  | none => .error .notLoaded

/-- Only the first contact is looked up. -/
def contactOf (list : Option (Object Str Contact)) (t : Transaction) : Except Error (Option Contact) :=
  match t.contacts with
  | [] => .ok none
  | contactHash :: _ => findByHash list contactHash

def extentTransactionsWithContactsAndGlideraData (config : Config) (answer : Answer) (transactions : List Transaction) :
    Except Error (List Listed) :=
  match answer.settings with
  | none => .error .notLoaded
  | some glideraTransactions => do
    let complete := glideraTransactions.filter GlideraTransaction.isComplete
    let contacts ← transactions.mapM (contactOf answer.contacts)
    return (transactions.zip (contacts.zip (addGlideraDataToAll config.identifier complete transactions))).map
      fun (t, contact, buybtc) => ⟨t, contact, buybtc⟩

/-- The list in memory. -/
def updateTransactionsList (config : Config) (answer : Answer) (transactions : List Transaction) :
    Except Error (List Listed) := do
  let extended ← extentTransactionsWithContactsAndGlideraData config answer transactions
  return if config.txFilterMinBlockHeight ≠ 0 then
    extended.filter fun l => l.transaction.blockHeight.all (config.txFilterMinBlockHeight ≤ ·)
  else extended

def addNewTransactionsToList (config : Config) (answer : Answer) (history : HistoryDoc) : Wallet (List Listed) := do
  let transactions ← prepareTransactionsList history
  orRaise (updateTransactionsList config answer transactions)

/-- What `_pollTransactions` does with a batch that is not empty. -/
def pollBatch (config : Config) (answer : Answer) (lastBlockHashDoc : Doc (Option Str)) (historyDoc : Doc HistoryDoc) :
    Wallet (List Listed) := do
  let history := (processList historyDoc.content answer.transactions).history
  all [processTransactions historyDoc.content answer.transactions, getBalance answer]
  all [setLastBlockHashToStorage lastBlockHashDoc.rev answer.lastBlockHash,
    setTransactionHistoryToStorage historyDoc.rev history]
  addNewTransactionsToList config answer history

def pollChain (config : Config) (answer : Answer) : Wallet (List Listed) := do
  let docs ← get
  if answer.transactions = [] then throw .noTx
  else pollBatch config answer docs.getLastBlockHashFromStorage docs.getTransactionsHistoryFromStorage

/-- `none` is a poll without new transactions: it succeeds, and the list in memory stays. -/
def pollTransactions (config : Config) (answer : Answer) : Wallet (Option (List Listed)) :=
  tryCatch (some <$> pollChain config answer) fun
    | .noTx => pure none
    | e => throw e

/-! ## Sessions -/

/-- The documents after some polls, and what those were answered. -/
structure Session where
  config : Config
  docs : Documents
  /-- The list in memory. -/
  transactions : List Listed
  /-- Whether the last poll has. -/
  succeeded : Bool
  /-- The batches, the last one first. -/
  reports : List (List Transaction)

namespace Session

def start (config : Config) : Session := ⟨config, Documents.empty, [], true, []⟩

def poll (s : Session) (answer : Answer) : Session :=
  let r := call (pollTransactions s.config answer) s.docs
  { s with
    docs := r.2
    transactions := (r.1.toOption.join).getD s.transactions
    succeeded := r.1.isOk
    reports := answer.transactions :: s.reports }

def confirmed (s : Session) : List Hash := s.docs.history.confirmed

def unconfirmed (s : Session) : List Hash := s.docs.history.unconfirmed

def batch (s : Session) : List Transaction := s.reports.headD []

/-- The latest report of a hash. -/
def latest (s : Session) (h : Hash) : Option Transaction := s.reports.flatten.find? (·.hash = h)

def ReportedConfirmed (s : Session) (h : Hash) : Prop := ∃ t ∈ s.reports.flatten, t.hash = h ∧ t.isConfirmed = true

structure Consistent (s : Session) : Prop where
  succeeded : s.succeeded = true
  confirmedNodup : s.confirmed.Nodup
  unconfirmedNodup : s.unconfirmed.Nodup
  disjoint : s.confirmed.Disjoint s.unconfirmed
  unconfirmed : ∀ h, h ∈ s.unconfirmed ↔ ∃ t ∈ s.batch, t.hash = h ∧ t.isConfirmed = false
  confirmed : ∀ h, s.ReportedConfirmed h → h ∈ s.confirmed
  stored : ∀ h, h ∈ s.confirmed ∨ h ∈ s.unconfirmed → ∃ t, s.latest h = some t ∧ s.docs.stored h = some t

/-- Distinct transactions, none of them back in the mempool after a block had it. -/
structure WellFormed (s : Session) (answer : Answer) : Prop where
  distinct : (answer.transactions.map Transaction.hash).Nodup
  chain : ∀ t ∈ answer.transactions, t.isConfirmed = false → ¬s.ReportedConfirmed t.hash

/-- The transactions that the poll of a batch lists: its own, and what is stored of the confirmed ones. -/
def Lists (s : Session) (answer : Answer) (t : Transaction) : Prop :=
  t ∈ answer.transactions ∨ ∃ h ∈ s.confirmed, s.docs.stored h = some t

structure Regular (s : Session) (answer : Answer) : Prop where
  /-- The mempool and the new blocks are not both empty while a transaction is unconfirmed. -/
  cleared : answer.transactions = [] → s.unconfirmed = []
  /-- No transaction comes back. -/
  fresh : ∀ t ∈ answer.transactions, t.hash ∉ s.confirmed → t.hash ∉ s.unconfirmed → s.docs.stored t.hash = none
  /-- No data change but that of a confirmation. -/
  same : ∀ t ∈ answer.transactions, t.hash ∈ s.confirmed ∨ t.hash ∈ s.unconfirmed ∧ t.isConfirmed = false →
    s.docs.stored t.hash = some t
  /-- The settings are loaded. -/
  settings : answer.transactions ≠ [] → answer.settings.isSome = true
  /-- The contacts are synchronised, unless no transaction of the list has one. -/
  contacts : answer.transactions ≠ [] → ∀ t, s.Lists answer t → t.contacts ≠ [] → answer.contacts.isSome = true

end Session

end History

end WebWallet
