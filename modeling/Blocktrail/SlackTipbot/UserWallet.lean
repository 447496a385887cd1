import Mathlib.Data.List.Basic
import Blocktrail.Bitcoin.Script
import Blocktrail.Lib.Runs

/-! # The wallet of a user

`getWallet` has no lock: every command asks for the wallet while there is none yet, and every command that is told that
there is none creates it.
-/

open Text Bitcoin Runs

namespace SlackTipbot

namespace UserWallet

structure Wallet where
  identifier : Str
  object : Nat
deriving DecidableEq

/-- The functions that call `getWallet`. `send` has one call for the sender, one for the recipient, and one to pay. -/
inductive Caller
  | getBalanceLine
  | tellDepositeAddress
  | withdraw
  | sendSelf
  | sendUser
  | sendPay
deriving DecidableEq

/-- What the callback of a caller does first with its wallet. -/
def Caller.method : Caller → Str
  | getBalanceLine | withdraw | sendSelf => "getBalance"
  | tellDepositeAddress | sendUser => "getNewAddress"
  | sendPay => "pay"

/-- The callback, up to the request that it makes of the wallet. -/
def Caller.callback (caller : Caller) : Option Wallet → Except JsError (Wallet × Str)
  | some wallet => .ok (wallet, caller.method)
  | none => .error ⟨"TypeError", "Cannot read property '" ++ caller.method ++ "' of undefined"⟩

/-! ## Calls -/

/-- An error is one with another status than 404. -/
inductive InitAnswer
  | wallet (w : Wallet)
  | notFound
  | error
deriving DecidableEq

/-- How far a call of `getWallet` is. A request is with the service until it has an answer. -/
inductive Phase
  | initWallet (retry : Bool) (answer : Option InitAnswer)
  | createNewWallet (answer : Option (Option Wallet))
  | waiting
  | called
deriving DecidableEq

structure Call where
  caller : Caller
  phase : Phase

structure State where
  wallet : Option Wallet
  /-- The service has the wallet. -/
  created : Bool
  calls : List Call
  /-- The callbacks that were called, with what they were given. -/
  callbacks : List (Nat × Option Wallet)
  /-- `user.wallet` had a wallet, and has it no longer. -/
  emptied : Bool

inductive Action
  | getWallet (caller : Caller)
  | serveInit (id object : Nat) (transient : Bool)
  | answerInit (id : Nat)
  /-- `fails` is an error of the request, which may have created the wallet before. -/
  | serveCreate (id object : Nat) (fails creates : Bool)
  | answerCreate (id : Nat)
  | timeout (id : Nat)

namespace State

def start (created : Bool) : State := ⟨none, created, [], [], false⟩

variable (s : State)

def phase? (id : Nat) : Option Phase := (s.calls[id]?).map Call.phase

def setPhase (id : Nat) (phase : Phase) : State :=
  { s with calls := s.calls.modify id fun call => { call with phase := phase } }

/-- `self.wallet = wallet`. -/
def setWallet (wallet : Option Wallet) : State :=
  { s with wallet := wallet, emptied := s.emptied || (s.wallet.isSome && wallet.isNone) }

/-- `cb(wallet)`. -/
def callBack (id : Nat) (wallet : Option Wallet) : State :=
  { s.setPhase id .called with callbacks := s.callbacks ++ [(id, wallet)] }

/-- `getWallet`, of a call that has its place. -/
def enter (id : Nat) (retry : Bool) : State :=
  match s.wallet with
  | some wallet => s.callBack id (some wallet)
  | none => s.setPhase id (.initWallet retry none)

/-- The callback of `initWallet`. -/
def onInit (id : Nat) (retry : Bool) : InitAnswer → State
  | .wallet w => (s.setWallet (some w)).callBack id (some w)
  | .notFound => s.setPhase id (.createNewWallet none)
  | .error => if retry then s.callBack id none else s.setPhase id .waiting

/-- What the service answers `initWallet` with. -/
def served (identifier : Str) (object : Nat) (transient : Bool) : InitAnswer :=
  if transient then .error else if s.created then .wallet ⟨identifier, object⟩ else .notFound

/-- The service creates a wallet once. -/
def serveCreate (identifier : Str) (id object : Nat) (fails creates : Bool) : State :=
  if s.created || fails then
    State.setPhase { s with created := s.created || creates } id (.createNewWallet (some none))
  else State.setPhase { s with created := true } id (.createNewWallet (some (some ⟨identifier, object⟩)))

end State

/-- What does not apply changes nothing. -/
def step (identifier : Str) (s : State) : Action → State
  | .getWallet caller => State.enter { s with calls := s.calls ++ [⟨caller, .waiting⟩] } s.calls.length false
  | .serveInit id object transient =>
    match s.phase? id with
    | some (.initWallet retry none) =>
      s.setPhase id (.initWallet retry (some (s.served identifier object transient)))
    | _ => s
  | .answerInit id =>
    match s.phase? id with
    | some (.initWallet retry (some answer)) => s.onInit id retry answer
    | _ => s
  | .serveCreate id object fails creates =>
    match s.phase? id with
    | some (.createNewWallet none) => s.serveCreate identifier id object fails creates
    | _ => s
  | .answerCreate id =>
    match s.phase? id with
    | some (.createNewWallet (some wallet)) => (s.setWallet wallet).callBack id wallet
    | _ => s
  | .timeout id =>
    match s.phase? id with
    | some .waiting => s.enter id true
    | _ => s

/-! ## What is promised -/

/-- Every call has called back once or has a request or a timer of its own; what is called back is used or refused
without an exception; the wallet stays. -/
structure Good (identifier : Str) (s : State) : Prop where
  once : ∀ id call, s.calls[id]? = some call →
    (s.callbacks.countP fun e => e.1 = id) = if call.phase = .called then 1 else 0
  handled : ∀ id wallet call, (id, wallet) ∈ s.callbacks → s.calls[id]? = some call →
    ∃ r, call.caller.callback wallet = .ok r
  own : ∀ id w, (id, some w) ∈ s.callbacks → w.identifier = identifier
  kept : s.emptied = false

/-- No answer to `createNewWallet` is an error, and no answer to a repeated `initWallet` is one. -/
def Answered (s : State) : Action → Prop
  | .answerInit id => s.phase? id ≠ some (.initWallet true (some .error))
  | .answerCreate id => s.phase? id ≠ some (.createNewWallet (some none))
  | _ => True

/-! ## The invariant -/

/-- The wallet that a request is answered with. -/
def Phase.wallet? : Phase → Option Wallet
  | initWallet _ (some (.wallet w)) => some w
  | createNewWallet (some wallet) => wallet
  | _ => none

structure Inv (identifier : Str) (s : State) : Prop extends Good identifier s where
  bound : ∀ e ∈ s.callbacks, e.1 < s.calls.length
  held : ∀ w, s.wallet = some w → w.identifier = identifier
  answered : ∀ (id : Nat) (call : Call) (w : Wallet), s.calls[id]? = some call → call.phase.wallet? = some w → w.identifier = identifier

section Steps

variable {identifier : Str} {s : State}

theorem calls_setPhase (s : State) (id : Nat) (phase : Phase) (j : Nat) :
    (s.setPhase id phase).calls[j]? =
      if id = j then (s.calls[j]?).map fun call => { call with phase := phase } else s.calls[j]? := by
  unfold State.setPhase
  rw [List.getElem?_modify]
  split
  · rfl
  · simp

theorem exists_call {id : Nat} {phase : Phase} (h : s.phase? id = some phase) :
    ∃ call, s.calls[id]? = some call ∧ call.phase = phase := by
  unfold State.phase? at h
  rw [Option.map_eq_some_iff] at h
  exact h

theorem Inv.setPhase (h : Inv identifier s) {id : Nat} {old phase : Phase} (hold : s.phase? id = some old)
    (hcalled : old ≠ .called) (hphase : phase ≠ .called) (hw : ∀ w, phase.wallet? = some w → w.identifier = identifier) :
    Inv identifier (s.setPhase id phase) := by
  obtain ⟨call, hcall, rfl⟩ := exists_call hold
  refine ⟨⟨?_, ?_, h.own, h.kept⟩, ?_, h.held, ?_⟩
  · intro j call' hj
    have honce := h.once j
    rw [calls_setPhase] at hj
    split at hj
    next hij =>
      subst hij
      rw [hcall] at hj
      cases hj
      rw [if_neg hphase]
      exact (honce call hcall).trans (if_neg hcalled)
    next => exact honce call' hj
  · intro j wallet call' hmem hj
    rw [calls_setPhase] at hj
    split at hj
    next hij =>
      subst hij
      rw [hcall] at hj
      cases hj
      exact h.handled id wallet call hmem hcall
    next => exact h.handled j wallet call' hmem hj
  · intro e he
    simpa [State.setPhase] using h.bound e he
  · intro j call' w hj hcarries
    rw [calls_setPhase] at hj
    split at hj
    next hij =>
      subst hij
      rw [hcall] at hj
      cases hj
      exact hw w hcarries
    next => exact h.answered j call' w hj hcarries

theorem Inv.callBack (h : Inv identifier s) {id : Nat} {old : Phase} (hold : s.phase? id = some old)
    (hcalled : old ≠ .called) {w : Wallet} (hw : w.identifier = identifier) :
    Inv identifier (s.callBack id (some w)) := by
  obtain ⟨call, hcall, rfl⟩ := exists_call hold
  have hnone : (s.callbacks.countP fun e => e.1 = id) = 0 := (h.once id call hcall).trans (if_neg hcalled)
  have hcalls : ∀ j call', (s.callBack id (some w)).calls[j]? = some call' →
      (j = id ∧ call' = { call with phase := .called }) ∨ (j ≠ id ∧ s.calls[j]? = some call') := by
    intro j call' hj
    have hj : (s.setPhase id .called).calls[j]? = some call' := hj
    rw [calls_setPhase] at hj
    split at hj
    next hij =>
      subst hij
      rw [hcall] at hj
      cases hj
      exact Or.inl ⟨rfl, rfl⟩
    next hij => exact Or.inr ⟨Ne.symm hij, hj⟩
  have hcount : ∀ j, ((s.callBack id (some w)).callbacks.countP fun e => e.1 = j) =
      (s.callbacks.countP fun e => e.1 = j) + if id = j then 1 else 0 := by
    intro j
    simp [State.callBack, List.countP_append, List.countP_cons]
  refine ⟨⟨?_, ?_, ?_, h.kept⟩, ?_, h.held, ?_⟩
  · intro j call' hj
    rw [hcount]
    rcases hcalls j call' hj with ⟨rfl, rfl⟩ | ⟨hne, hj⟩
    · rw [hnone]
      simp
    · rw [h.once j call' hj, if_neg (Ne.symm hne), Nat.add_zero]
  · intro j wallet call' hmem hj
    rcases List.mem_append.mp hmem with hm | hm
    · rcases hcalls j call' hj with ⟨rfl, rfl⟩ | ⟨-, hj⟩
      · exact h.handled j wallet call hm hcall
      · exact h.handled j wallet call' hm hj
    · cases List.mem_singleton.mp hm
      exact ⟨_, rfl⟩
  · intro j w' hmem
    rcases List.mem_append.mp hmem with hmem | hmem
    · exact h.own j w' hmem
    · cases List.mem_singleton.mp hmem
      exact hw
  · intro e he
    have hlength : (s.callBack id (some w)).calls.length = s.calls.length := by simp [State.callBack, State.setPhase]
    rw [hlength]
    rcases List.mem_append.mp he with he | he
    · exact h.bound e he
    · rw [List.mem_singleton.mp he]
      exact (List.getElem?_eq_some_iff.mp hcall).1
  · intro j call' w' hj hcarries
    rcases hcalls j call' hj with ⟨rfl, rfl⟩ | ⟨-, hj⟩
    · cases hcarries
    · exact h.answered j call' w' hj hcarries

theorem Inv.setWallet (h : Inv identifier s) {w : Wallet} (hw : w.identifier = identifier) :
    Inv identifier (s.setWallet (some w)) := by
  refine ⟨⟨h.once, h.handled, h.own, ?_⟩, h.bound, ?_, h.answered⟩
  · simp [State.setWallet, h.kept]
  · intro w' hw'
    cases hw'
    exact hw

theorem Inv.created (h : Inv identifier s) (created : Bool) : Inv identifier { s with created := created } :=
  ⟨⟨h.once, h.handled, h.own, h.kept⟩, h.bound, h.held, h.answered⟩

theorem Inv.enter (h : Inv identifier s) {id : Nat} (old : Phase) (hold : s.phase? id = some old)
    (hcalled : old ≠ .called) (retry : Bool) : Inv identifier (s.enter id retry) := by
  unfold State.enter
  rcases hw : s.wallet with _ | w
  · exact h.setPhase hold hcalled (by simp) (by simp [Phase.wallet?])
  · exact h.callBack hold hcalled (h.held w hw)

theorem Inv.addCall (h : Inv identifier s) (caller : Caller) :
    Inv identifier { s with calls := s.calls ++ [⟨caller, .waiting⟩] } := by
  have hcalls : ∀ j call, (s.calls ++ [⟨caller, .waiting⟩])[j]? = some call →
      s.calls[j]? = some call ∨ (j = s.calls.length ∧ call = ⟨caller, .waiting⟩) := by
    intro j call hj
    rw [List.getElem?_append] at hj
    split at hj
    · exact Or.inl hj
    · next hlt =>
      have hj0 : j - s.calls.length = 0 := by
        have := (List.getElem?_eq_some_iff.mp hj).1
        simp at this
        omega
      rw [hj0] at hj
      exact Or.inr ⟨by omega, (Option.some.inj hj).symm⟩
  refine ⟨⟨?_, ?_, h.own, h.kept⟩, ?_, h.held, ?_⟩
  · intro j call hj
    rcases hcalls j call hj with hj | ⟨rfl, rfl⟩
    · exact h.once j call hj
    · rw [if_neg (by simp), List.countP_eq_zero]
      intro e he
      have := h.bound e he
      simp
      omega
  · intro j wallet call hmem hj
    rcases hcalls j call hj with hj | ⟨rfl, rfl⟩
    · exact h.handled j wallet call hmem hj
    · exact absurd (h.bound _ hmem) (Nat.lt_irrefl _)
  · intro e he
    have := h.bound e he
    simp
    omega
  · intro j call w hj hcarries
    rcases hcalls j call hj with hj | ⟨rfl, rfl⟩
    · exact h.answered j call w hj hcarries
    · cases hcarries

theorem Inv.onInit (h : Inv identifier s) {id : Nat} {retry : Bool} {answer : InitAnswer}
    (hold : s.phase? id = some (.initWallet retry (some answer))) (hok : Answered s (.answerInit id)) :
    Inv identifier (s.onInit id retry answer) := by
  cases answer with
  | wallet w =>
    obtain ⟨call, hcall, hphase⟩ := exists_call hold
    have hw : w.identifier = identifier := h.answered id call w hcall (by rw [hphase]; rfl)
    exact (h.setWallet hw).callBack hold (by simp) hw
  | notFound => exact h.setPhase hold (by simp) (by simp) (by simp [Phase.wallet?])
  | error =>
    cases retry with
    | true => exact absurd hold hok
    | false => exact h.setPhase hold (by simp) (by simp) (by simp [Phase.wallet?])

theorem Inv.serveCreate (h : Inv identifier s) {id : Nat} (hold : s.phase? id = some (.createNewWallet none))
    (object : Nat) (fails creates : Bool) : Inv identifier (s.serveCreate identifier id object fails creates) := by
  unfold State.serveCreate
  split
  · exact (h.created _).setPhase hold (by simp) (by simp) (by simp [Phase.wallet?])
  · exact (h.created _).setPhase hold (by simp) (by simp) (by
      intro w hw
      cases hw
      rfl)

/-- **Step.** Where no call is answered with an error for good, every step keeps the invariant. -/
theorem Inv.step (h : Inv identifier s) (a : Action) (hok : Answered s a) :
    Inv identifier (step identifier s a) := by
  cases a with
  | getWallet caller =>
    refine (h.addCall caller).enter .waiting ?_ (by simp) false
    simp [State.phase?]
  | serveInit id object transient =>
    unfold UserWallet.step
    dsimp only
    split
    next retry hold =>
      refine h.setPhase hold (by simp) (by simp) ?_
      intro w hw
      unfold State.served at hw
      split_ifs at hw
      · cases hw
      · cases hw
        rfl
      · cases hw
    next => exact h
  | answerInit id =>
    unfold UserWallet.step
    dsimp only
    split
    next retry answer hold => exact h.onInit hold hok
    next => exact h
  | serveCreate id object fails creates =>
    unfold UserWallet.step
    dsimp only
    split
    next hold => exact h.serveCreate hold object fails creates
    next => exact h
  | answerCreate id =>
    unfold UserWallet.step
    dsimp only
    split
    next wallet hold =>
      cases wallet with
      | none => exact absurd hold hok
      | some w =>
        obtain ⟨call, hcall, hphase⟩ := exists_call hold
        have hw : w.identifier = identifier := h.answered id call w hcall (by rw [hphase]; rfl)
        exact (h.setWallet hw).callBack hold (by simp) hw
    next => exact h
  | timeout id =>
    unfold UserWallet.step
    dsimp only
    split
    next hold => exact h.enter .waiting hold (by simp) true
    next => exact h

theorem not_good_of_none {id : Nat} {old : Phase} (hold : s.phase? id = some old) :
    ¬Good identifier (s.callBack id none) := by
  intro hgood
  obtain ⟨call, hcall, -⟩ := exists_call hold
  have hcall' : (s.callBack id none).calls[id]? = some { call with phase := .called } := by
    have h := calls_setPhase s id .called id
    rw [if_pos rfl, hcall] at h
    exact h
  obtain ⟨r, hr⟩ := hgood.handled id none _ (List.mem_append_right _ (List.mem_singleton_self _)) hcall'
  cases hr

theorem answered_of_good (a : Action) (h : Good identifier (step identifier s a)) : Answered s a := by
  cases a with
  | answerInit id =>
    intro hold
    unfold step at h
    dsimp only at h
    rw [hold] at h
    exact not_good_of_none hold h
  | answerCreate id =>
    intro hold
    unfold step at h
    dsimp only at h
    rw [hold] at h
    exact not_good_of_none (s := s.setWallet none) hold h
  | getWallet => trivial
  | serveInit => trivial
  | serveCreate => trivial
  | timeout => trivial

end Steps

theorem start_inv (identifier : Str) (created : Bool) : Inv identifier (.start created) where
  once id call h := by cases h
  handled id wallet call h := by cases h
  own id w h := by cases h
  kept := rfl
  bound e h := by cases h
  held w h := by cases h
  answered id call w h := by cases h

/-- **Callbacks.** Every call gets the wallet or a refusal that its caller handles, and the wallet stays, in exactly the
runs in which no `createNewWallet` and no repeated `initWallet` is answered with an error. -/
theorem wallets_iff (identifier : Str) (created : Bool) (as : List Action) :
    Always (step identifier) (Good identifier) (.start created) as ↔
      Along (step identifier) Answered (.start created) as :=
  always_iff_along_of_inv (I := Inv identifier) (fun _ h => h.toGood) (fun _ a h => h.step a)
    (fun _ a _ => answered_of_good a) (start_inv identifier created)

/-- Two commands ask for the wallet before there is one. The second creation fails. -/
def twoCommands : List Action :=
  [.getWallet .getBalanceLine, .getWallet .sendUser, .serveInit 0 0 false, .serveInit 1 0 false, .answerInit 0,
    .answerInit 1, .serveCreate 0 1 false false, .serveCreate 1 2 false false, .answerCreate 0, .answerCreate 1]

theorem wallet_lost : ¬∀ (identifier : Str) (created : Bool) (as : List Action),
    Always (step identifier) (Good identifier) (.start created) as := by
  intro h
  have hlast := (h "SLACK-U1".toList false twoCommands).last
  exact absurd hlast.kept (by decide)

end UserWallet

end SlackTipbot
