import Blocktrail.Lib.Runs
import Blocktrail.Lib.Text

/-! # Polling

One promise is the flag that a poll is running, and one handle is kept of the timer for the next one. Nothing clears
the flag of a poll that fails.
-/

open Text Runs

namespace WebWallet

namespace Polling

/-! ## Polls -/

/-- How far `_pollTransactions` is. -/
inductive Stage
  | polling
  | resyncing
  | done
deriving DecidableEq

/-- A poll waits for its transactions and for the block height. -/
structure Poll where
  id : Nat
  transactions : Stage
  blockHeight : Bool
deriving DecidableEq

/-- What a part of a poll comes to: `_pollTransactions` before its handler, the resync that the handler has started,
and `_getBlockHeight`. A rejection of the first has its message. -/
inductive Event
  | transactions (result : Except Str Unit)
  | resync (ok : Bool)
  | blockHeight (ok : Bool)

/-- `_pollTransactionsCatchHandler`; `none` throws. -/
def pollTransactionsCatchHandler (message : Str) : Option Stage :=
  if message = "NO_TX".toList then some .done
  else if message = "ORPHAN".toList then some .resyncing
  else none

namespace Poll

def start (id : Nat) : Poll := ⟨id, .polling, false⟩

def finished (p : Poll) : Bool := p.transactions = .done && p.blockHeight

/-- A part of the poll has settled; `none` rejects the poll. -/
def receive (p : Poll) : Event → Option Poll
  | .transactions result =>
    if p.transactions = .polling then
      match result with
      | .ok () => some { p with transactions := .done }
      | .error message => (pollTransactionsCatchHandler message).map fun stage => { p with transactions := stage }
    else some p
  | .resync ok =>
    -- the handler polls again once the documents are removed
    if p.transactions = .resyncing then
      if ok then some { p with transactions := .polling } else none
    else some p
  | .blockHeight ok =>
    if p.blockHeight then some p
    else if ok then some { p with blockHeight := true }
    else none

end Poll

/-! ## The wallet -/

structure State where
  pollPromise : Option Nat
  pollTimeout : Option Nat
  noPolling : Bool
  /-- The polls in flight. -/
  polls : List Poll
  /-- The timers that are pending. -/
  timers : List Nat
  /-- The calls of `_setupTimeout` that are due. -/
  setups : Nat
  fresh : Nat

def initial : State := ⟨none, none, false, [], [], 0, 0⟩

/-- `if(self._pollTimeout) self._$timeout.cancel(self._pollTimeout)`. -/
def cancelTimeout (s : State) : State :=
  match s.pollTimeout with
  | some timer => { s with timers := s.timers.filter (· ≠ timer) }
  | none => s

def pollTransactionsAndGetBlockHeight (s : State) : State :=
  match s.pollPromise with
  | some _ => s
  | none =>
    { s with
      pollPromise := some s.fresh
      polls := s.polls ++ [Poll.start s.fresh]
      fresh := s.fresh + 1 }

def disablePolling (s : State) : State := { cancelTimeout s with noPolling := true }

def enablePolling (s : State) : State := pollTransactionsAndGetBlockHeight { s with noPolling := false }

def forcePolling (s : State) : State := pollTransactionsAndGetBlockHeight (cancelTimeout s)

def setupTimeout (s : State) : State :=
  if s.noPolling then s
  else
    let s := cancelTimeout s
    { s with
      pollTimeout := some s.fresh
      timers := s.timers ++ [s.fresh]
      fresh := s.fresh + 1 }

def resetPollPromise (s : State) : State := { s with pollPromise := none }

/-- A part of a poll settles. A poll with all its parts resets the flag, and sets the timer up afterwards; a poll that
is rejected does neither. -/
def settle (s : State) (id : Nat) (event : Event) : State :=
  match s.polls.find? (·.id = id) with
  | none => s
  | some p =>
    let others := s.polls.filter (·.id ≠ id)
    match p.receive event with
    | none => { s with polls := others }
    | some p =>
      if p.finished then { resetPollPromise s with polls := others, setups := s.setups + 1 }
      else { s with polls := p :: others }

inductive Action
  | disablePolling
  | enablePolling
  | forcePolling
  /-- `_initData` polls. -/
  | initData
  | fire (timer : Nat)
  | settle (id : Nat) (event : Event)
  | setupTimeout

def step (s : State) : Action → State
  | .disablePolling => disablePolling s
  | .enablePolling => enablePolling s
  | .forcePolling => forcePolling s
  | .initData => pollTransactionsAndGetBlockHeight s
  | .fire timer =>
    if timer ∈ s.timers then
      pollTransactionsAndGetBlockHeight { s with timers := s.timers.filter (· ≠ timer) }
    else s
  | .settle id event => settle s id event
  | .setupTimeout => if s.setups = 0 then s else setupTimeout { s with setups := s.setups - 1 }

/-! ## What is relied on -/

structure Healthy (s : State) : Prop where
  onePoll : s.polls.length ≤ 1
  oneTimer : s.timers.length ≤ 1
  disabled : s.noPolling = true → s.polls = [] → s.timers = []
  flag : s.polls = [] → s.pollPromise = none
  starts : s.polls = [] → (step s .forcePolling).polls ≠ [] ∧ (step s .enablePolling).polls ≠ []

/-- The action does not make a poll fail. -/
def NoFailure (s : State) (a : Action) : Prop :=
  ∀ p ∈ s.polls, ∀ event, a = .settle p.id event → p.receive event ≠ none

/-- The flag is the poll in flight, and the handle is the pending timer. -/
structure Inv (s : State) : Prop where
  polls : s.polls = [] ∧ s.pollPromise = none ∨ ∃ p, s.polls = [p] ∧ s.pollPromise = some p.id
  timers : s.timers = [] ∨ ∃ timer, s.timers = [timer] ∧ s.pollTimeout = some timer
  disabled : s.noPolling = true → s.timers = []

/-! ## Timers -/

theorem cancelTimeout_timers {s : State} (h : Inv s) : (cancelTimeout s).timers = [] := by
  unfold cancelTimeout
  rcases h.timers with ht | ⟨timer, ht, hhandle⟩
  · cases s.pollTimeout with
    | none => exact ht
    | some timer => simp [ht]
  · simp [hhandle, ht]

theorem cancelTimeout_eq (s : State) : ∃ timers, cancelTimeout s = { s with timers := timers } := by
  unfold cancelTimeout
  split
  · exact ⟨_, rfl⟩
  · exact ⟨s.timers, rfl⟩

theorem Inv.clearTimers {s : State} (h : Inv s) (noPolling : Bool) :
    Inv { s with timers := [], noPolling := noPolling } :=
  ⟨h.polls, Or.inl rfl, fun _ => rfl⟩

theorem Inv.cancelTimeout {s : State} (h : Inv s) : Inv (cancelTimeout s) := by
  have htimers := cancelTimeout_timers h
  obtain ⟨timers, heq⟩ := cancelTimeout_eq s
  rw [heq] at htimers ⊢
  obtain rfl : timers = [] := htimers
  exact h.clearTimers s.noPolling

theorem Inv.setupTimeout {s : State} (h : Inv s) : Inv (setupTimeout s) := by
  unfold Polling.setupTimeout
  split
  · exact h
  · next hpolling =>
    have htimers := cancelTimeout_timers h
    obtain ⟨timers, heq⟩ := cancelTimeout_eq s
    rw [heq] at htimers ⊢
    obtain rfl : timers = [] := htimers
    exact ⟨h.polls, Or.inr ⟨s.fresh, rfl, rfl⟩, fun hno => absurd hno hpolling⟩

/-! ## Polls -/

theorem Inv.poll {s : State} (h : Inv s) : Inv (pollTransactionsAndGetBlockHeight s) := by
  unfold pollTransactionsAndGetBlockHeight
  rcases h.polls with ⟨hpolls, hflag⟩ | ⟨p, hpolls, hflag⟩
  · rw [hflag]
    exact ⟨Or.inr ⟨Poll.start s.fresh, by simp [hpolls], rfl⟩, h.timers, h.disabled⟩
  · rw [hflag]
    exact h

theorem polls_poll {s : State} (h : Inv s) : (pollTransactionsAndGetBlockHeight s).polls ≠ [] := by
  unfold pollTransactionsAndGetBlockHeight
  rcases h.polls with ⟨-, hflag⟩ | ⟨p, hpolls, hflag⟩
  · simp [hflag]
  · simp [hflag, hpolls]

theorem receive_id {p q : Poll} {event : Event} (h : p.receive event = some q) : q.id = p.id := by
  unfold Poll.receive at h
  rcases event with result | ok | ok
  · dsimp only at h
    split at h
    · rcases result with message | _
      · obtain ⟨stage, -, rfl⟩ := Option.map_eq_some_iff.mp h
        rfl
      · obtain rfl := Option.some.inj h
        rfl
    · obtain rfl := Option.some.inj h
      rfl
  · dsimp only at h
    split at h
    · cases ok
      · cases h
      · obtain rfl := Option.some.inj h
        rfl
    · obtain rfl := Option.some.inj h
      rfl
  · dsimp only at h
    split at h
    · obtain rfl := Option.some.inj h
      rfl
    · cases ok
      · cases h
      · obtain rfl := Option.some.inj h
        rfl

/-- The only poll in flight is rejected, and the flag stays. -/
theorem settle_rejected {s : State} {p : Poll} {event : Event} (hpolls : s.polls = [p])
    (h : p.receive event = none) : settle s p.id event = { s with polls := [] } := by
  unfold settle
  simp [hpolls, h]

theorem settle_received {s : State} {p q : Poll} {event : Event} (hpolls : s.polls = [p])
    (h : p.receive event = some q) : settle s p.id event =
      if q.finished then { s with pollPromise := none, polls := [], setups := s.setups + 1 }
      else { s with polls := [q] } := by
  unfold settle
  simp [hpolls, h, resetPollPromise]

theorem settle_other {s : State} {id : Nat} (h : ∀ p ∈ s.polls, p.id ≠ id) (event : Event) :
    settle s id event = s := by
  unfold settle
  rw [List.find?_eq_none.mpr (by simpa using h)]

theorem Inv.settle {s : State} (h : Inv s) (id : Nat) (event : Event) (hok : NoFailure s (.settle id event)) :
    Inv (settle s id event) := by
  rcases h.polls with ⟨hpolls, -⟩ | ⟨p, hpolls, hflag⟩
  · rw [settle_other (by simp [hpolls])]
    exact h
  · by_cases hid : p.id = id
    · subst hid
      rcases hq : p.receive event with _ | q
      · exact absurd hq (hok p (by simp [hpolls]) event rfl)
      · rw [settle_received hpolls hq]
        split
        · exact ⟨Or.inl ⟨rfl, rfl⟩, h.timers, h.disabled⟩
        · refine ⟨Or.inr ⟨q, rfl, ?_⟩, h.timers, h.disabled⟩
          rw [receive_id hq]
          exact hflag
    · rw [settle_other (by simpa [hpolls] using hid)]
      exact h

/-! ## Runs -/

theorem Inv.step {s : State} (h : Inv s) {a : Action} (hok : NoFailure s a) : Inv (step s a) := by
  cases a with
  | disablePolling => exact ⟨h.cancelTimeout.polls, h.cancelTimeout.timers, fun _ => cancelTimeout_timers h⟩
  | enablePolling => exact Inv.poll ⟨h.polls, h.timers, fun hno => absurd hno Bool.false_ne_true⟩
  | forcePolling => exact h.cancelTimeout.poll
  | initData => exact h.poll
  | fire timer =>
    show Inv (if timer ∈ s.timers then _ else s)
    split
    · next hmem =>
      have htimers : s.timers.filter (· ≠ timer) = [] := by
        rcases h.timers with ht | ⟨pending, ht, -⟩
        · rw [ht] at hmem
          cases hmem
        · rw [ht] at hmem
          obtain rfl := List.mem_singleton.mp hmem
          simp [ht]
      rw [htimers]
      exact (h.clearTimers s.noPolling).poll
    · exact h
  | settle id event => exact h.settle id event hok
  | setupTimeout =>
    show Inv (if s.setups = 0 then s else _)
    split
    · exact h
    · exact Inv.setupTimeout ⟨h.polls, h.timers, h.disabled⟩

theorem Inv.healthy {s : State} (h : Inv s) : Healthy s where
  onePoll := by
    rcases h.polls with ⟨hpolls, -⟩ | ⟨p, hpolls, -⟩
    · simp [hpolls]
    · simp [hpolls]
  oneTimer := by
    rcases h.timers with ht | ⟨timer, ht, -⟩
    · simp [ht]
    · simp [ht]
  disabled := fun hno _ => h.disabled hno
  flag := by
    intro hempty
    rcases h.polls with ⟨-, hflag⟩ | ⟨p, hpolls, -⟩
    · exact hflag
    · rw [hpolls] at hempty
      cases hempty
  starts := by
    intro _
    refine ⟨polls_poll h.cancelTimeout, polls_poll ?_⟩
    exact ⟨h.polls, h.timers, fun hno => absurd hno Bool.false_ne_true⟩

/-- A poll that fails is the end of polling: the flag stays. -/
theorem not_healthy_of_failure {s : State} (h : Inv s) {a : Action} (hfail : ¬NoFailure s a) : ¬Healthy (step s a) := by
  intro hhealthy
  simp only [NoFailure, not_forall, not_not] at hfail
  obtain ⟨p, hp, event, rfl, hnone⟩ := hfail
  rcases h.polls with ⟨hpolls, -⟩ | ⟨q, hpolls, hflag⟩
  · rw [hpolls] at hp
    cases hp
  · rw [hpolls] at hp
    obtain rfl := List.mem_singleton.mp hp
    have hstep : step s (.settle p.id event) = { s with polls := [] } := settle_rejected hpolls hnone
    have hclear := hhealthy.flag (by rw [hstep])
    rw [hstep] at hclear
    rw [hflag] at hclear
    cases hclear

theorem initial_inv : Inv initial := ⟨Or.inl ⟨rfl, rfl⟩, Or.inl rfl, fun _ => rfl⟩

/-- **Polling.** A run is healthy in every state that it reaches if and only if no poll of it fails. -/
theorem healthy_iff (actions : List Action) :
    Always step Healthy initial actions ↔ Along step NoFailure initial actions :=
  always_iff_along_of_inv (I := Inv) (fun _ h => h.healthy) (fun _ _ h hok => h.step hok)
    (fun _ _ h hbad => not_not.mp fun hfail => not_healthy_of_failure h hfail hbad) initial_inv

/-- `forcePolling`, and the first request of the poll fails. -/
def offlineRun : List Action := [.forcePolling, .settle 0 (.transactions (.error "Network Error"))]

/-- No poll is in flight, the flag is set, and no call polls again. -/
theorem offline_stops_polling :
    let s := offlineRun.foldl step initial
    s.polls = [] ∧ s.pollPromise = some 0 ∧ (step s .forcePolling).polls = [] ∧ (step s .enablePolling).polls = [] ∧
      s.timers = [] := by
  decide

end Polling

end WebWallet
