import Mathlib.Data.List.Nodup
import Blocktrail.Lib.Runs
import Blocktrail.Lib.Text

/-! # Purchases at Glidera

Every purchase starts one more loop that asks for the transactions in progress. All loops share one flag: it is unset
where a loop asks, and set again for each transaction that is asked for.
-/

open Runs Text

namespace WebWallet

namespace GlideraService

/-! ## Transactions -/

inductive Status
  | PROCESSING
  | COMPLETE
  /-- Other final ones. -/
  | other (text : Str)
deriving DecidableEq

/-- What the service tells of a transaction. -/
structure TxInfo where
  status : Status
  transactionHash : Option Str
  qty : Str

/-- `glideraTransaction`, as `buy` records it. -/
structure Transaction where
  address : Str
  time : Nat
  transactionUuid : Str
  transactionHash : Option Str
  status : Status
  qty : Str
  price : Str
  total : Str
  currency : Str
  walletIdentifier : Str
deriving DecidableEq

/-- `!transactionHash` -/
def noHash (transactionHash : Option Str) : Bool := transactionHash.all fun hash => hash = []

def Transaction.pending (t : Transaction) : Bool := t.status = .PROCESSING || noHash t.transactionHash

/-- A complete transaction without its hash. -/
def TxInfo.hashMissing (newTxInfo : TxInfo) : Bool := newTxInfo.status = .COMPLETE && noHash newTxInfo.transactionHash

def Transaction.updated (t : Transaction) (newTxInfo : TxInfo) : Transaction :=
  if newTxInfo.hashMissing then t
  else { t with qty := newTxInfo.qty, status := newTxInfo.status, transactionHash := newTxInfo.transactionHash }

abbrev UpdateStatus := Str → Option TxInfo

def Transaction.update (t : Transaction) (updateStatus : UpdateStatus) : Transaction :=
  match updateStatus t.transactionUuid with
  | some newTxInfo => t.updated newTxInfo
  | none => t

/-- `glidera_complete` is broadcast. -/
def Transaction.completed (t : Transaction) (updateStatus : UpdateStatus) : Bool :=
  t.status = .PROCESSING && (t.update updateStatus).status = .COMPLETE

/-! ## Loops -/

/-- A request for a transaction, and the answer on its way. -/
structure Request where
  uuid : Str
  answer : Option TxInfo

/-- How far a loop is. -/
inductive Stage
  /-- The access token that it has been started with. -/
  | starting (accessToken : Bool)
  | requesting (requests : List Request) (updateStatus : UpdateStatus)
  /-- The list is written, and stored. -/
  | storing (delay : Bool)
  /-- `delay` is not 0. -/
  | ending (delay : Bool)

structure State where
  /-- `settings.glideraTransactions` -/
  glideraTransactions : List Transaction
  pollPendingTransactions : Bool
  /-- The access token is held. -/
  decryptedAccessToken : Bool
  loops : List Stage
  /-- The timers that start a loop. -/
  timeouts : Nat
  /-- The purchases that are recorded and not yet stored. -/
  buys : Nat
  /-- The transactions of the service. -/
  service : Str → Option TxInfo
  /-- What has been bought, broadcast, and recorded with a final status. -/
  bought : List Transaction
  broadcasts : List Str
  finals : List Str

def finalsOf (transactions : List Transaction) : List Str :=
  (transactions.filter fun t => t.status ≠ .PROCESSING).map Transaction.transactionUuid

/-- `init` has started a loop. -/
def start (glideraTransactions : List Transaction) (service : Str → Option TxInfo) (accessToken : Bool) : State where
  glideraTransactions := glideraTransactions
  pollPendingTransactions := false
  decryptedAccessToken := accessToken
  loops := [.starting accessToken]
  timeouts := 0
  buys := 0
  service := service
  bought := []
  broadcasts := []
  finals := finalsOf glideraTransactions

namespace State

def setLoop (s : State) (i : Nat) (stage : Stage) : State := { s with loops := s.loops.set i stage }

/-- `updatePendingTransactions()` -/
def updatePendingTransactions (s : State) : State :=
  { s with pollPendingTransactions := false, loops := s.loops ++ [.starting s.decryptedAccessToken] }

/-- The transactions in progress are asked for. -/
def request (s : State) (i : Nat) : State :=
  match s.loops[i]? with
  | some (.starting true) =>
    let pending := s.glideraTransactions.filter Transaction.pending
    { s.setLoop i (.requesting (pending.map fun t => ⟨t.transactionUuid, none⟩) fun _ => none) with
      pollPendingTransactions := s.pollPendingTransactions || !pending.isEmpty }
  | some (.starting false) => s.setLoop i (.ending true)
  | _ => s

/-- The service answers a request. -/
def serve (s : State) (i j : Nat) : State :=
  match s.loops[i]? with
  | some (.requesting requests updateStatus) =>
    match requests[j]? with
    | some ⟨uuid, none⟩ => s.setLoop i (.requesting (requests.set j ⟨uuid, s.service uuid⟩) updateStatus)
    | _ => s
  | _ => s

/-- An answer arrives. -/
def receive (s : State) (i j : Nat) : State :=
  match s.loops[i]? with
  | some (.requesting requests updateStatus) =>
    match requests[j]? with
    | some ⟨uuid, some result⟩ =>
      s.setLoop i (.requesting (requests.eraseIdx j) fun u => if u = uuid then some result else updateStatus u)
    | _ => s
  | _ => s

/-- A request fails. -/
def fail (s : State) (i : Nat) : State :=
  match s.loops[i]? with
  | some (.requesting (_ :: _) _) => s.setLoop i (.ending true)
  | _ => s

/-- All requests are answered: the list is read again, changed and written. -/
def write (s : State) (i : Nat) : State :=
  match s.loops[i]? with
  | some (.requesting [] updateStatus) =>
    let hashMissing := s.glideraTransactions.any fun t => (updateStatus t.transactionUuid).any TxInfo.hashMissing
    { s.setLoop i (.storing !hashMissing) with
      glideraTransactions := s.glideraTransactions.map fun t => t.update updateStatus
      broadcasts := s.broadcasts ++
        (s.glideraTransactions.filter fun t => t.completed updateStatus).map Transaction.transactionUuid }
  | _ => s

/-- The promise of `updateGlideraTransactions` settles. -/
def settle (s : State) (i : Nat) : State :=
  match s.loops[i]? with
  | some (.storing delay) => s.setLoop i (.ending delay)
  | _ => s

def finish (s : State) (i : Nat) : State :=
  match s.loops[i]? with
  | some (.ending true) =>
    { s with
      loops := s.loops.eraseIdx i
      timeouts := if s.pollPendingTransactions then s.timeouts + 1 else s.timeouts }
  | some (.ending false) =>
    -- `_update()`
    { s.setLoop i (.starting s.decryptedAccessToken) with pollPendingTransactions := false }
  | _ => s

/-- `buy`, once the service has answered: the transaction is new to it. -/
def buy (s : State) (t : Transaction) : State :=
  match s.service t.transactionUuid with
  | some _ => s
  | none =>
    { s with
      service := fun u => if u = t.transactionUuid then some ⟨t.status, t.transactionHash, t.qty⟩ else s.service u
      glideraTransactions := s.glideraTransactions ++ [t]
      bought := s.bought ++ [t]
      buys := s.buys + 1 }

/-- The promise of `addGlideraTransaction` settles. -/
def stored (s : State) (ok : Bool) : State :=
  if s.buys = 0 then s
  else if ok then updatePendingTransactions { s with buys := s.buys - 1 }
  else { s with buys := s.buys - 1 }

def timeout (s : State) : State :=
  if s.timeouts = 0 then s else updatePendingTransactions { s with timeouts := s.timeouts - 1 }

/-- At the service a final status is kept. -/
def progress (s : State) (uuid : Str) (info : TxInfo) : State :=
  match s.service uuid with
  | some old =>
    if old.status = .PROCESSING ∨ info.status = old.status then
      { s with service := fun u => if u = uuid then some info else s.service u }
    else s
  | none => s

end State

inductive Action
  | buy (t : Transaction)
  | stored (ok : Bool)
  | timeout
  | request (i : Nat)
  | serve (i j : Nat)
  | receive (i j : Nat)
  | fail (i : Nat)
  | write (i : Nat)
  | settle (i : Nat)
  | finish (i : Nat)
  | progress (uuid : Str) (info : TxInfo)
  /-- `setDecryptedAccessToken`, and its timeout. -/
  | accessToken (held : Bool)

def act (s : State) : Action → State
  | .buy t => s.buy t
  | .stored ok => s.stored ok
  | .timeout => s.timeout
  | .request i => s.request i
  | .serve i j => s.serve i j
  | .receive i j => s.receive i j
  | .fail i => s.fail i
  | .write i => s.write i
  | .settle i => s.settle i
  | .finish i => s.finish i
  | .progress uuid info => s.progress uuid info
  | .accessToken held => { s with decryptedAccessToken := held }

def step (s : State) (a : Action) : State :=
  let t := act s a
  { t with finals := t.finals ++ finalsOf t.glideraTransactions }

/-! ## What is relied on -/

/-- A loop is in flight or scheduled. A purchase that is being stored starts one. -/
def State.Polls (s : State) : Prop := s.loops ≠ [] ∨ s.timeouts ≠ 0 ∨ s.buys ≠ 0

structure Good (s : State) : Prop where
  recorded : ∀ b ∈ s.bought, ∃ t, s.glideraTransactions.filter (fun t => t.transactionUuid = b.transactionUuid) = [t] ∧
    t.address = b.address ∧ t.time = b.time ∧ t.walletIdentifier = b.walletIdentifier
  final : ∀ t ∈ s.glideraTransactions, t.transactionUuid ∈ s.finals → t.status ≠ .PROCESSING
  once : s.broadcasts.Nodup
  polls : (∃ t ∈ s.glideraTransactions, t.status = .PROCESSING) → s.decryptedAccessToken = true → s.Polls

/-- A loop does not write that a transaction is in progress over a final status of it. -/
def Fresh (s : State) (a : Action) : Prop :=
  ∀ i updateStatus, a = .write i → s.loops[i]? = some (.requesting [] updateStatus) →
    ∀ t ∈ s.glideraTransactions, t.status ≠ .PROCESSING → (t.update updateStatus).status ≠ .PROCESSING

/-- What goes on polling: a timer, a purchase that is being stored, a loop that starts, or the flag and a loop. -/
def Keeps (s : State) : Prop :=
  s.timeouts ≠ 0 ∨ s.buys ≠ 0 ∨ .starting true ∈ s.loops ∨ (s.pollPendingTransactions = true ∧ s.loops ≠ [])

/-- A recorded transaction is in progress, and the token is held. -/
def Wanted (s : State) : Prop :=
  (∃ t ∈ s.glideraTransactions, t.status = .PROCESSING) ∧ s.decryptedAccessToken = true

/-- A purchase that is not stored, and an access token that is taken anew, find something that goes on polling. -/
def Steady (s : State) : Action → Prop
  | .stored false => Wanted s → Keeps { s with buys := s.buys - 1 }
  | .accessToken true => (∃ t ∈ s.glideraTransactions, t.status = .PROCESSING) → Keeps s
  | _ => True

/-! ## Records -/

/-- What is said of a purchase once and for all. -/
def Transaction.key (t : Transaction) : Str × Str × Nat × Str :=
  (t.transactionUuid, t.address, t.time, t.walletIdentifier)

@[simp] theorem key_update (t : Transaction) (updateStatus : UpdateStatus) : (t.update updateStatus).key = t.key := by
  unfold Transaction.update
  split
  · unfold Transaction.updated
    split <;> rfl
  · rfl

@[simp] theorem uuid_update (t : Transaction) (updateStatus : UpdateStatus) :
    (t.update updateStatus).transactionUuid = t.transactionUuid := congrArg Prod.fst (key_update t updateStatus)

structure Records (s : State) : Prop where
  nodup : (s.glideraTransactions.map Transaction.transactionUuid).Nodup
  known : ∀ t ∈ s.glideraTransactions, (s.service t.transactionUuid).isSome = true
  bought : ∀ b ∈ s.bought, ∃ t ∈ s.glideraTransactions, t.key = b.key
  final : ∀ t ∈ s.glideraTransactions, t.transactionUuid ∈ s.finals → t.status ≠ .PROCESSING
  finals_known : ∀ uuid ∈ s.finals, (s.service uuid).isSome = true
  once : s.broadcasts.Nodup
  broadcasts : ∀ uuid ∈ s.broadcasts, uuid ∈ s.finals ∨
    ∃ t ∈ s.glideraTransactions, t.transactionUuid = uuid ∧ t.status ≠ .PROCESSING

theorem mem_finalsOf {transactions : List Transaction} {uuid : Str} :
    uuid ∈ finalsOf transactions ↔ ∃ t ∈ transactions, t.status ≠ .PROCESSING ∧ t.transactionUuid = uuid := by
  unfold finalsOf
  simp only [List.mem_map, List.mem_filter, decide_eq_true_eq, and_assoc]

/-- The final statuses are noted. -/
def noted (s : State) : State := { s with finals := s.finals ++ finalsOf s.glideraTransactions }

theorem Records.uuid_inj {s : State} (h : Records s) {t u : Transaction} (ht : t ∈ s.glideraTransactions)
    (hu : u ∈ s.glideraTransactions) (he : t.transactionUuid = u.transactionUuid) : t = u :=
  List.inj_on_of_nodup_map h.nodup ht hu he

theorem Records.noted {s : State} (h : Records s) : Records (noted s) where
  nodup := h.nodup
  known := h.known
  bought := h.bought
  final := by
    intro t ht hfinal
    rcases List.mem_append.mp hfinal with hold | hnew
    · exact h.final t ht hold
    · obtain ⟨u, hu, hstatus, he⟩ := mem_finalsOf.mp hnew
      rwa [← h.uuid_inj hu ht he]
  finals_known := by
    intro uuid hfinal
    rcases List.mem_append.mp hfinal with hold | hnew
    · exact h.finals_known uuid hold
    · obtain ⟨u, hu, -, rfl⟩ := mem_finalsOf.mp hnew
      exact h.known u hu
  once := h.once
  broadcasts := by
    intro uuid hu
    rcases h.broadcasts uuid hu with hfinal | ⟨t, ht, rfl, hstatus⟩
    · exact Or.inl (List.mem_append_left _ hfinal)
    · exact Or.inl (List.mem_append_right _ (mem_finalsOf.mpr ⟨t, ht, hstatus, rfl⟩))

/-- Only the list, the service and what has been bought and broadcast matter to the records. -/
structure SameRecords (s s' : State) : Prop where
  list : s'.glideraTransactions = s.glideraTransactions
  bought : s'.bought = s.bought
  broadcasts : s'.broadcasts = s.broadcasts
  finals : s'.finals = s.finals
  service : ∀ uuid, (s.service uuid).isSome = true → (s'.service uuid).isSome = true

theorem Records.of_same {s s' : State} (h : Records s) (hs : SameRecords s s') : Records s' where
  nodup := hs.list ▸ h.nodup
  known := fun t ht => hs.service _ (h.known t (hs.list ▸ ht))
  bought := by
    rw [hs.bought, hs.list]
    exact h.bought
  final := by
    rw [hs.list, hs.finals]
    exact h.final
  finals_known := fun uuid hu => hs.service _ (h.finals_known uuid (hs.finals ▸ hu))
  once := hs.broadcasts ▸ h.once
  broadcasts := by
    rw [hs.broadcasts, hs.list, hs.finals]
    exact h.broadcasts

theorem Records.buy {s : State} (h : Records s) (t : Transaction) : Records (s.buy t) := by
  unfold State.buy
  cases hservice : s.service t.transactionUuid with
  | some info => exact h
  | none =>
    have hnew : ∀ u ∈ s.glideraTransactions, u.transactionUuid ≠ t.transactionUuid := by
      intro u hu he
      have := h.known u hu
      rw [he, hservice] at this
      cases this
    have hisSome : ∀ uuid, (s.service uuid).isSome = true → (if uuid = t.transactionUuid then
        some ⟨t.status, t.transactionHash, t.qty⟩ else s.service uuid : Option TxInfo).isSome = true := by
      intro uuid hu
      split
      · rfl
      · exact hu
    constructor
    · show ((s.glideraTransactions ++ [t]).map Transaction.transactionUuid).Nodup
      rw [List.map_append, List.nodup_append]
      refine ⟨h.nodup, by simp, ?_⟩
      rintro uuid hold _ hmem rfl
      obtain ⟨u, hu, he⟩ := List.mem_map.mp hold
      exact hnew u hu (he.trans (List.mem_singleton.mp hmem))
    · intro u hu
      rcases List.mem_append.mp hu with hu | hu
      · exact hisSome _ (h.known u hu)
      · obtain rfl := List.mem_singleton.mp hu
        simp
    · intro b hb
      rcases List.mem_append.mp hb with hb | hb
      · obtain ⟨u, hu, hkey⟩ := h.bought b hb
        exact ⟨u, List.mem_append_left _ hu, hkey⟩
      · exact ⟨b, List.mem_append_right _ hb, rfl⟩
    · intro u hu hfinal
      rcases List.mem_append.mp hu with hu | hu
      · exact h.final u hu hfinal
      · obtain rfl := List.mem_singleton.mp hu
        have := h.finals_known _ hfinal
        rw [hservice] at this
        cases this
    · exact fun uuid hu => hisSome _ (h.finals_known uuid hu)
    · exact h.once
    · intro uuid hu
      rcases h.broadcasts uuid hu with hfinal | ⟨u, hu, he, hstatus⟩
      · exact Or.inl hfinal
      · exact Or.inr ⟨u, List.mem_append_left _ hu, he, hstatus⟩

/-- The final statuses of the list have been noted. -/
def Noted (s : State) : Prop := ∀ t ∈ s.glideraTransactions, t.status ≠ .PROCESSING → t.transactionUuid ∈ s.finals

theorem noted_noted (s : State) : Noted (noted s) := fun t ht hstatus =>
  List.mem_append_right _ (mem_finalsOf.mpr ⟨t, ht, hstatus, rfl⟩)

theorem Records.write {s : State} (h : Records s) (hn : Noted s) {i : Nat} (hok : Fresh s (.write i)) :
    Records (s.write i) := by
  unfold State.write
  split
  next updateStatus hloop =>
    have hfresh := hok i updateStatus rfl hloop
    have huuids : (s.glideraTransactions.map fun t => t.update updateStatus).map Transaction.transactionUuid =
        s.glideraTransactions.map Transaction.transactionUuid := by
      rw [List.map_map]
      exact List.map_congr_left fun t _ => uuid_update t updateStatus
    constructor
    · exact huuids ▸ h.nodup
    · intro t ht
      obtain ⟨u, hu, rfl⟩ := List.mem_map.mp ht
      rw [uuid_update]
      exact h.known u hu
    · intro b hb
      obtain ⟨t, ht, hkey⟩ := h.bought b hb
      exact ⟨t.update updateStatus, List.mem_map_of_mem ht, (key_update t updateStatus).trans hkey⟩
    · intro t ht hfinal
      obtain ⟨u, hu, rfl⟩ := List.mem_map.mp ht
      rw [uuid_update] at hfinal
      exact hfresh u hu (h.final u hu hfinal)
    · exact h.finals_known
    · show (s.broadcasts ++ (s.glideraTransactions.filter _).map Transaction.transactionUuid).Nodup
      rw [List.nodup_append]
      refine ⟨h.once, h.nodup.sublist (List.filter_sublist.map _), ?_⟩
      rintro uuid hold _ hnew rfl
      obtain ⟨t, ht, rfl⟩ := List.mem_map.mp hnew
      obtain ⟨ht, hcompleted⟩ := List.mem_filter.mp ht
      have hfinal : t.transactionUuid ∈ s.finals := by
        rcases h.broadcasts _ hold with hfinal | ⟨u, hu, he, hstatus⟩
        · exact hfinal
        · exact he ▸ hn u hu hstatus
      unfold Transaction.completed at hcompleted
      rw [Bool.and_eq_true, decide_eq_true_eq] at hcompleted
      exact h.final t ht hfinal hcompleted.1
    · intro uuid hu
      rcases List.mem_append.mp hu with hold | hnew
      · rcases h.broadcasts uuid hold with hfinal | ⟨t, ht, rfl, hstatus⟩
        · exact Or.inl hfinal
        · exact Or.inl (hn t ht hstatus)
      · obtain ⟨t, ht, rfl⟩ := List.mem_map.mp hnew
        obtain ⟨ht, hcompleted⟩ := List.mem_filter.mp ht
        unfold Transaction.completed at hcompleted
        rw [Bool.and_eq_true, decide_eq_true_eq, decide_eq_true_eq] at hcompleted
        refine Or.inr ⟨t.update updateStatus, List.mem_map_of_mem ht, uuid_update t updateStatus, ?_⟩
        rw [hcompleted.2]
        decide
  next => exact h

/-! ## Polls -/

theorem Keeps.polls {s : State} (h : Keeps s) : s.Polls := by
  rcases h with h | h | h | ⟨-, h⟩
  · exact Or.inr (Or.inl h)
  · exact Or.inr (Or.inr h)
  · exact Or.inl (List.ne_nil_of_mem h)
  · exact Or.inl h

theorem mem_set_of_ne {α : Type} {l : List α} {i : Nat} {a old new : α} (ha : a ∈ l) (hi : l[i]? = some old)
    (hne : a ≠ old) : a ∈ l.set i new := by
  obtain ⟨j, hj⟩ := List.mem_iff_getElem?.mp ha
  refine List.mem_iff_getElem?.mpr ⟨j, ?_⟩
  rw [List.getElem?_set_ne]
  · exact hj
  · rintro rfl
    exact hne (Option.some.inj (hj.symm.trans hi))

theorem mem_eraseIdx_of_ne {α : Type} {l : List α} {i : Nat} {a old : α} (ha : a ∈ l) (hi : l[i]? = some old)
    (hne : a ≠ old) : a ∈ l.eraseIdx i := by
  obtain ⟨j, hj⟩ := List.mem_iff_getElem?.mp ha
  refine List.mem_eraseIdx_iff_getElem?.mpr ⟨j, ?_, hj⟩
  rintro rfl
  exact hne (Option.some.inj (hj.symm.trans hi))

theorem Keeps.setLoop {s : State} (h : Keeps s) {i : Nat} {old : Stage} (hi : s.loops[i]? = some old)
    (hold : old ≠ .starting true) (stage : Stage) : Keeps (s.setLoop i stage) := by
  rcases h with h | h | h | ⟨hflag, h⟩
  · exact Or.inl h
  · exact Or.inr (Or.inl h)
  · exact Or.inr (Or.inr (Or.inl (mem_set_of_ne h hi hold.symm)))
  · refine Or.inr (Or.inr (Or.inr ⟨hflag, ?_⟩))
    show s.loops.set i stage ≠ []
    simpa using h

theorem keeps_updatePendingTransactions {s : State} (h : s.decryptedAccessToken = true) :
    Keeps s.updatePendingTransactions := by
  refine Or.inr (Or.inr (Or.inl ?_))
  show .starting true ∈ s.loops ++ [.starting s.decryptedAccessToken]
  rw [h]
  exact List.mem_append_right _ List.mem_cons_self

section Steps

variable {s : State} (h : Wanted s → Keeps s)
include h

theorem keeps_buy (t : Transaction) : Wanted (s.buy t) → Keeps (s.buy t) := by
  unfold State.buy
  split
  · exact h
  · exact fun _ => Or.inr (Or.inl (Nat.succ_ne_zero _))

theorem keeps_stored {ok : Bool} (hok : Steady s (.stored ok)) : Wanted (s.stored ok) → Keeps (s.stored ok) := by
  unfold State.stored
  split
  · exact h
  · cases ok with
    | true => exact fun hw => keeps_updatePendingTransactions hw.2
    | false => exact hok

theorem keeps_timeout : Wanted s.timeout → Keeps s.timeout := by
  unfold State.timeout
  split
  · exact h
  · exact fun hw => keeps_updatePendingTransactions hw.2

theorem keeps_request (i : Nat) : Wanted (s.request i) → Keeps (s.request i) := by
  unfold State.request
  split
  next hloop =>
    rintro ⟨⟨t, ht, hstatus⟩, -⟩
    refine Or.inr (Or.inr (Or.inr ⟨?_, ?_⟩))
    · have hpending : t ∈ s.glideraTransactions.filter Transaction.pending :=
        List.mem_filter.mpr ⟨ht, by simp [Transaction.pending, hstatus]⟩
      show (s.pollPendingTransactions || !(s.glideraTransactions.filter Transaction.pending).isEmpty) = true
      rw [List.isEmpty_eq_false_iff.mpr (List.ne_nil_of_mem hpending), Bool.not_false, Bool.or_true]
    · show s.loops.set i _ ≠ []
      simpa using List.ne_nil_of_mem (List.mem_of_getElem? hloop)
  next hloop => exact fun hw => (h hw).setLoop hloop (by simp) _
  next => exact h

theorem keeps_serve (i j : Nat) : Wanted (s.serve i j) → Keeps (s.serve i j) := by
  unfold State.serve
  split
  next hloop =>
    split
    · exact fun hw => (h hw).setLoop hloop (by simp) _
    · exact h
  next => exact h

theorem keeps_receive (i j : Nat) : Wanted (s.receive i j) → Keeps (s.receive i j) := by
  unfold State.receive
  split
  next hloop =>
    split
    · exact fun hw => (h hw).setLoop hloop (by simp) _
    · exact h
  next => exact h

theorem keeps_fail (i : Nat) : Wanted (s.fail i) → Keeps (s.fail i) := by
  unfold State.fail
  split
  next hloop => exact fun hw => (h hw).setLoop hloop (by simp) _
  next => exact h

theorem keeps_write {i : Nat} (hok : Fresh s (.write i)) : Wanted (s.write i) → Keeps (s.write i) := by
  unfold State.write
  split
  next updateStatus hloop =>
    rintro ⟨⟨t, ht, hstatus⟩, htoken⟩
    obtain ⟨u, hu, rfl⟩ := List.mem_map.mp ht
    have hprocessing : u.status = .PROCESSING := by
      by_contra hfinal
      exact hok i updateStatus rfl hloop u hu hfinal hstatus
    exact (h ⟨⟨u, hu, hprocessing⟩, htoken⟩).setLoop hloop (by simp) _
  next => exact h

theorem keeps_settle (i : Nat) : Wanted (s.settle i) → Keeps (s.settle i) := by
  unfold State.settle
  split
  next hloop => exact fun hw => (h hw).setLoop hloop (by simp) _
  next => exact h

/-- A loop that ends without a timer has found the flag unset, by a loop that goes on. -/
theorem keeps_finish (i : Nat) : Wanted (s.finish i) → Keeps (s.finish i) := by
  unfold State.finish
  split
  next hloop =>
    intro hw
    cases hflag : s.pollPendingTransactions with
    | true => exact Or.inl (Nat.succ_ne_zero _)
    | false =>
      rcases h hw with hk | hk | hk | ⟨hk, -⟩
      · exact Or.inl hk
      · exact Or.inr (Or.inl hk)
      · exact Or.inr (Or.inr (Or.inl (mem_eraseIdx_of_ne hk hloop (by simp))))
      · rw [hflag] at hk
        cases hk
  next hloop =>
    rintro ⟨-, htoken⟩
    refine Or.inr (Or.inr (Or.inl ?_))
    show .starting true ∈ s.loops.set i (.starting s.decryptedAccessToken)
    rw [show s.decryptedAccessToken = true from htoken]
    exact List.mem_set (List.getElem?_eq_some_iff.mp hloop).1 _
  next => exact h

omit h in
theorem keeps_accessToken {held : Bool} (hok : Steady s (.accessToken held)) :
    Wanted { s with decryptedAccessToken := held } → Keeps { s with decryptedAccessToken := held } := by
  rintro ⟨hprocessing, htoken⟩
  obtain rfl : held = true := htoken
  exact hok hprocessing

end Steps

/-! ## Runs -/

theorem Records.act {s : State} (h : Records s) (hn : Noted s) {a : Action} (hok : Fresh s a) : Records (act s a) := by
  cases a with
  | buy t => exact h.buy t
  | write i => exact h.write hn hok
  | progress uuid info =>
    apply h.of_same
    show SameRecords s (s.progress uuid info)
    unfold State.progress
    split
    · split
      · refine ⟨rfl, rfl, rfl, rfl, fun u hu => ?_⟩
        dsimp only
        split
        · rfl
        · exact hu
      · exact ⟨rfl, rfl, rfl, rfl, fun _ hu => hu⟩
    · exact ⟨rfl, rfl, rfl, rfl, fun _ hu => hu⟩
  | _ =>
    apply h.of_same
    unfold GlideraService.act
    dsimp only [State.stored, State.timeout, State.request, State.serve, State.receive, State.fail, State.settle,
      State.finish]
    repeat' split
    all_goals exact ⟨rfl, rfl, rfl, rfl, fun _ hu => hu⟩

theorem keeps_act {s : State} (h : Wanted s → Keeps s) {a : Action} (hsteady : Steady s a) (hok : Fresh s a) :
    Wanted (act s a) → Keeps (act s a) := by
  cases a with
  | buy t => exact keeps_buy h t
  | stored ok => exact keeps_stored h hsteady
  | timeout => exact keeps_timeout h
  | request i => exact keeps_request h i
  | serve i j => exact keeps_serve h i j
  | receive i j => exact keeps_receive h i j
  | fail i => exact keeps_fail h i
  | write i => exact keeps_write h hok
  | settle i => exact keeps_settle h i
  | finish i => exact keeps_finish h i
  | progress uuid info =>
    show Wanted (s.progress uuid info) → Keeps (s.progress uuid info)
    unfold State.progress
    split
    · split
      · exact h
      · exact h
    · exact h
  | accessToken held => exact keeps_accessToken hsteady

structure Inv (s : State) : Prop where
  records : Records s
  noted : Noted s
  polls : Wanted s → Keeps s

theorem filter_uuid {transactions : List Transaction} (hn : (transactions.map Transaction.transactionUuid).Nodup)
    {t : Transaction} (ht : t ∈ transactions) :
    transactions.filter (fun u => u.transactionUuid = t.transactionUuid) = [t] := by
  induction transactions with
  | nil => cases ht
  | cons u transactions ih =>
    rw [List.map_cons, List.nodup_cons] at hn
    rcases List.mem_cons.mp ht with rfl | ht
    · rw [List.filter_cons_of_pos (by simp), List.filter_eq_nil_iff.mpr]
      intro v hv he
      exact hn.1 (List.mem_map.mpr ⟨v, hv, by simpa using he⟩)
    · rw [List.filter_cons_of_neg, ih hn.2 ht]
      intro he
      exact hn.1 (List.mem_map.mpr ⟨t, ht, by simpa using (of_decide_eq_true he).symm⟩)

theorem Inv.good {s : State} (h : Inv s) : Good s where
  recorded := by
    intro b hb
    obtain ⟨t, ht, hkey⟩ := h.records.bought b hb
    simp only [Transaction.key, Prod.mk.injEq] at hkey
    obtain ⟨huuid, haddress, htime, hwallet⟩ := hkey
    exact ⟨t, huuid ▸ filter_uuid h.records.nodup ht, haddress, htime, hwallet⟩
  final := h.records.final
  once := h.records.once
  polls := fun hprocessing htoken => (h.polls ⟨hprocessing, htoken⟩).polls

theorem Inv.step {s : State} (h : Inv s) {a : Action} (hsteady : Steady s a) (hok : Fresh s a) : Inv (step s a) :=
  ⟨(h.records.act h.noted hok).noted, noted_noted _, keeps_act h.polls hsteady hok⟩

/-- A loop that writes an answer that is out of date puts a final status back. -/
theorem fresh_of_good {s : State} (h : Inv s) {a : Action} (hgood : Good (step s a)) : Fresh s a := by
  rintro i updateStatus rfl hloop t ht hstatus hback
  have hlist : (step s (.write i)).glideraTransactions = s.glideraTransactions.map fun t => t.update updateStatus := by
    show (s.write i).glideraTransactions = _
    unfold State.write
    rw [hloop]
  have hfinals : s.finals ⊆ (step s (.write i)).finals := by
    show s.finals ⊆ (s.write i).finals ++ _
    unfold State.write
    rw [hloop]
    exact List.subset_append_left _ _
  refine hgood.final (t.update updateStatus) ?_ ?_ hback
  · rw [hlist]
    exact List.mem_map_of_mem ht
  · rw [uuid_update]
    exact hfinals (h.noted t ht hstatus)

theorem start_inv {transactions : List Transaction} {service : Str → Option TxInfo} (accessToken : Bool)
    (hn : (transactions.map Transaction.transactionUuid).Nodup)
    (hknown : ∀ t ∈ transactions, (service t.transactionUuid).isSome = true) :
    Inv (start transactions service accessToken) := by
  have hrecords : Records { start transactions service accessToken with finals := [] } := by
    refine ⟨hn, hknown, ?_, ?_, ?_, List.nodup_nil, ?_⟩
    · exact fun b hb => absurd hb List.not_mem_nil
    · exact fun t _ hfinal => absurd hfinal List.not_mem_nil
    · exact fun uuid hu => absurd hu List.not_mem_nil
    · exact fun uuid hu => absurd hu List.not_mem_nil
  refine ⟨hrecords.noted, noted_noted { start transactions service accessToken with finals := [] }, ?_⟩
  rintro ⟨-, htoken⟩
  obtain rfl : accessToken = true := htoken
  exact Or.inr (Or.inr (Or.inl List.mem_cons_self))

theorem good_iff (transactions : List Transaction) (service : Str → Option TxInfo) (accessToken : Bool)
    (hn : (transactions.map Transaction.transactionUuid).Nodup)
    (hknown : ∀ t ∈ transactions, (service t.transactionUuid).isSome = true) (actions : List Action)
    (hsteady : Along step Steady (start transactions service accessToken) actions) :
    Always step Good (start transactions service accessToken) actions ↔
      Along step Fresh (start transactions service accessToken) actions :=
  always_iff_along_of_wf (I := Inv) (fun _ h => h.good) (fun _ _ h hwf hok => h.step hwf hok)
    (fun _ _ h _ hgood => fresh_of_good h hgood) (start_inv accessToken hn hknown) hsteady

def bitcoin (uuid : Str) : Transaction :=
  ⟨"1A", 1500000000, uuid, none, .PROCESSING, "0.1", "400", "40", "USD", "web-01"⟩

def complete : TxInfo := ⟨.COMPLETE, some "aa", "0.1"⟩

/-- Two purchases. The first loop gets its answer of `a` before `a` is complete, and writes it after the second loop. -/
def lateAnswer : List Action :=
  [.request 0, .write 0, .settle 0, .finish 0,
    .buy (bitcoin "a"), .stored true, .request 0, .serve 0 0,
    .buy (bitcoin "b"), .stored true, .request 1, .progress "a" complete, .serve 1 0, .serve 1 1, .receive 1 0,
    .receive 1 0, .write 1, .receive 0 0, .write 0]

theorem status_put_back : ¬∀ (transactions : List Transaction) (service : Str → Option TxInfo) (accessToken : Bool),
    (transactions.map Transaction.transactionUuid).Nodup →
    (∀ t ∈ transactions, (service t.transactionUuid).isSome = true) → ∀ actions : List Action,
    Always step Good (start transactions service accessToken) actions := by
  intro h
  have hgood := (h [] (fun _ => none) true List.nodup_nil (by simp) lateAnswer).last
  exact hgood.final (bitcoin "a") (by decide +kernel) (by decide +kernel) rfl

/-- Two purchases and their loops. The first loop writes the answer of `a` before `a` is complete, and the second one
what the service says then. -/
def twoPurchases : List Action :=
  [.request 0, .write 0, .settle 0, .finish 0, .buy (bitcoin "a"), .stored true, .request 0, .serve 0 0,
    .buy (bitcoin "b"), .stored true, .request 1, .receive 0 0, .progress "a" complete, .serve 1 1, .write 0,
    .serve 1 0, .receive 1 1, .settle 0, .receive 1 0, .write 1, .finish 0, .settle 0, .timeout, .finish 0, .request 0]

theorem fresh_of_not_write {s : State} {a : Action} (h : ∀ i, a ≠ .write i) : Fresh s a :=
  fun i _ ha => absurd ha (h i)

theorem fresh_of_processing {s : State} {a : Action} (h : ∀ t ∈ s.glideraTransactions, t.status = .PROCESSING) :
    Fresh s a :=
  fun _ _ _ _ t ht hstatus => absurd (h t ht) hstatus

theorem twoPurchases_good : Always step Good (start [] (fun _ => none) true) twoPurchases := by
  refine (good_iff [] (fun _ => none) true List.nodup_nil (by simp) twoPurchases ?_).mpr ?_
  · simp [twoPurchases, Along, Steady]
  · have hnone : ∀ t ∈ ([] : List Transaction), t.status = .PROCESSING := by simp
    have htwo : ∀ t ∈ [bitcoin "a", bitcoin "b"], t.status = .PROCESSING := by simp [bitcoin]
    refine ⟨?_, fresh_of_processing hnone, ?_, ?_, ?_, ?_, ?_, ?_, ?_, ?_, ?_, ?_, ?_, ?_, fresh_of_processing htwo, ?_, ?_,
      ?_, ?_, fresh_of_processing htwo, ?_, ?_, ?_, ?_, ?_, trivial⟩ <;> exact fresh_of_not_write fun _ => by simp

/-- The first purchase is broadcast once, and the other one is asked for again. -/
example : (twoPurchases.foldl step (start [] (fun _ => none) true)).broadcasts = ["a".toList] := by decide +kernel

/-- A purchase that is not stored has no poll. -/
example : ¬((step (step { start [] (fun _ => none) true with loops := [] } (.buy (bitcoin "a"))) (.stored false)).Polls) := by
  rintro (h | h | h)
  · exact h rfl
  · exact h rfl
  · exact h rfl

end GlideraService

end WebWallet
