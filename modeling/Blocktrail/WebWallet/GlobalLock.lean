import Mathlib.Logic.Function.Basic
import Blocktrail.Lib.Documents
import Blocktrail.Lib.Runs

/-! # The lock of the tabs

One document says which tab has the lock. A tab that takes it writes its own id, and every tab looks at the document from
time to time. A tab that refreshes the document just as another one takes it gets a conflict, and looks no more.
-/

open Documents Runs

namespace WebWallet

namespace GlobalLock

/-- The document. The id of a tab is its number. -/
structure Lock where
  uuid : Option Nat
  ts : Option Int
deriving DecidableEq

/-- What an operation of the database comes to. -/
inductive Outcome
  | ok
  /-- The database is closed. -/
  | closed
  | failed
deriving DecidableEq

inductive Stage
  | idle
  | getting
  | taking (rev : Option Nat) (prevTs : Option Int) (ts : Int)
  /-- A timeout is pending. -/
  | waiting
  | checking
  | refreshing (rev : Nat) (ts : Int)
  | stopped
deriving DecidableEq

structure Tab where
  stage : Stage
  /-- The tab has been sent to the page of the lost lock. -/
  told : Bool
  closed : Bool
  /-- What `init` logs. -/
  tookLock : Option Bool
deriving DecidableEq

structure State where
  lock : Slot Lock
  tabs : Nat → Tab

def start (stored : Slot Lock) : State := ⟨stored, fun _ => ⟨.idle, false, false, none⟩⟩

def State.setTab (s : State) (tab : Nat) (t : Tab) : State := { s with tabs := Function.update s.tabs tab t }

/-- The tab that the document names. -/
def State.owner (s : State) : Option Nat := (s.lock.get ()).bind fun row => row.2.uuid

/-! ## Steps -/

def init (s : State) (tab : Nat) : State :=
  if (s.tabs tab).stage = .idle then s.setTab tab { s.tabs tab with stage := .getting } else s

/-- `acquireLock` has read the document; without one it begins a new one. -/
def readAcquire (s : State) (tab : Nat) (outcome : Outcome) (now : Int) : State :=
  if (s.tabs tab).stage = .getting then
    let row := if outcome = .ok then s.lock.get () else none
    s.setTab tab { s.tabs tab with stage := .taking (row.map Prod.fst) (row.bind fun row => row.2.ts) now }
  else s

/-- A recently active lock was taken. -/
def tookLook (prevTs : Option Int) (ts : Int) : Bool := prevTs.any fun prevTs => prevTs ≠ 0 && ts - 1000 < prevTs

/-- Where the put fails the tab is told, and it sets up its checks all the same. -/
def writeAcquire (s : State) (tab : Nat) (outcome : Outcome) : State :=
  match (s.tabs tab).stage with
  | .taking rev prevTs ts =>
    match if outcome = .ok then s.lock.put () rev ⟨some tab, some ts⟩ else none with
    | some lock =>
      { s with lock := lock }.setTab tab { s.tabs tab with stage := .waiting, tookLock := some (tookLook prevTs ts) }
    | none => s.setTab tab { s.tabs tab with stage := .waiting, told := true }
  | _ => s

def timeout (s : State) (tab : Nat) : State :=
  if (s.tabs tab).stage = .waiting then s.setTab tab { s.tabs tab with stage := .checking } else s

def readCheck (s : State) (tab : Nat) (outcome : Outcome) (now : Int) : State :=
  if (s.tabs tab).stage = .checking then
    match outcome with
    | .ok =>
      match s.lock.get () with
      | some (rev, doc) =>
        if doc.uuid ≠ some tab then s.setTab tab { s.tabs tab with stage := .stopped, told := true }
        else s.setTab tab { s.tabs tab with stage := .refreshing rev now }
      | none => s.setTab tab { s.tabs tab with stage := .stopped }
    | .closed => s.setTab tab { s.tabs tab with stage := .stopped, closed := true }
    | .failed => s.setTab tab { s.tabs tab with stage := .stopped }
  else s

/-- Only the put that is accepted sets up another check. -/
def writeCheck (s : State) (tab : Nat) (outcome : Outcome) : State :=
  match (s.tabs tab).stage with
  | .refreshing rev ts =>
    match if outcome = .ok then s.lock.put () (some rev) ⟨some tab, some ts⟩ else none with
    | some lock => { s with lock := lock }.setTab tab { s.tabs tab with stage := .waiting }
    | none => s.setTab tab { s.tabs tab with stage := .stopped, closed := outcome = .closed }
  | _ => s

inductive Action
  | init (tab : Nat)
  | readAcquire (tab : Nat) (outcome : Outcome) (now : Int)
  | writeAcquire (tab : Nat) (outcome : Outcome)
  | timeout (tab : Nat)
  | readCheck (tab : Nat) (outcome : Outcome) (now : Int)
  | writeCheck (tab : Nat) (outcome : Outcome)
deriving DecidableEq

def step (s : State) : Action → State
  | .init tab => init s tab
  | .readAcquire tab outcome now => readAcquire s tab outcome now
  | .writeAcquire tab outcome => writeAcquire s tab outcome
  | .timeout tab => timeout s tab
  | .readCheck tab outcome now => readCheck s tab outcome now
  | .writeCheck tab outcome => writeCheck s tab outcome

/-! ## What is relied on -/

namespace Tab

/-- `init` is complete. -/
def Initialized (t : Tab) : Prop :=
  t.stage ≠ .idle ∧ t.stage ≠ .getting ∧ ∀ rev prevTs ts, t.stage ≠ .taking rev prevTs ts

def Checks (t : Tab) : Prop := t.stage = .waiting ∨ t.stage = .checking ∨ ∃ rev ts, t.stage = .refreshing rev ts

end Tab

structure Safe (s : State) : Prop where
  aware : ∀ tab, (s.tabs tab).Initialized → (s.tabs tab).told = false → (s.tabs tab).closed = false →
    s.owner = some tab ∨ (s.tabs tab).Checks
  told : ∀ tab, (s.tabs tab).Initialized → ¬(s.tabs tab).Checks →
    (s.tabs tab).told = true ∨ (s.tabs tab).closed = true
  /-- A check that reads the document of another tab tells. -/
  findsOut : ∀ tab now, (s.tabs tab).stage = .checking → s.lock.get () ≠ none → s.owner ≠ some tab →
    ((readCheck s tab .ok now).tabs tab).told = true

/-- The operations of a check succeed, or the database is closed, or the tab has been told. A put succeeds where nothing
has been put since the check has read the document. -/
def Undisturbed (s : State) : Action → Prop
  | .readCheck tab outcome _ => (s.tabs tab).stage = .checking → (s.tabs tab).told = true ∨
    outcome = .closed ∨ outcome = .ok ∧ s.lock.get () ≠ none
  | .writeCheck tab outcome => ∀ rev ts, (s.tabs tab).stage = .refreshing rev ts → (s.tabs tab).told = true ∨
    outcome = .closed ∨ outcome = .ok ∧ s.lock.revision () = some rev
  | _ => True

/-! ## The invariant -/

structure Inv (s : State) : Prop where
  stopped : ∀ tab, (s.tabs tab).stage = .stopped → (s.tabs tab).told = true ∨ (s.tabs tab).closed = true
  closed : ∀ tab, (s.tabs tab).closed = true → (s.tabs tab).stage = .stopped

theorem start_inv (stored : Slot Lock) : Inv (start stored) := ⟨by rintro tab ⟨⟩, by rintro tab ⟨⟩⟩

variable {s : State}

theorem stopped_of_not_checks {t : Tab} (h : t.Initialized) (hn : ¬t.Checks) : t.stage = .stopped := by
  obtain ⟨hidle, hgetting, htaking⟩ := h
  unfold Tab.Checks at hn
  cases hstage : t.stage with
  | idle => exact absurd hstage hidle
  | getting => exact absurd hstage hgetting
  | taking rev prevTs ts => exact absurd hstage (htaking rev prevTs ts)
  | waiting => exact absurd (Or.inl hstage) hn
  | checking => exact absurd (Or.inr (Or.inl hstage)) hn
  | refreshing rev ts => exact absurd (Or.inr (Or.inr ⟨rev, ts, hstage⟩)) hn
  | stopped => rfl

theorem readCheck_told {tab : Nat} (now : Int) (hstage : (s.tabs tab).stage = .checking)
    (hlock : s.lock.get () ≠ none) (howner : s.owner ≠ some tab) :
    ((readCheck s tab .ok now).tabs tab).told = true := by
  obtain ⟨⟨rev, doc⟩, hdoc⟩ := Option.ne_none_iff_exists'.mp hlock
  have huuid : doc.uuid ≠ some tab := by
    unfold State.owner at howner
    rwa [hdoc] at howner
  unfold readCheck
  rw [if_pos hstage, hdoc]
  dsimp only
  rw [if_pos huuid]
  unfold State.setTab
  simp

theorem Inv.safe (h : Inv s) : Safe s where
  aware := by
    intro tab hinit htold hclosed
    by_cases hchecks : (s.tabs tab).Checks
    · exact Or.inr hchecks
    · rcases h.stopped tab (stopped_of_not_checks hinit hchecks) with hyes | hyes
      · cases htold.symm.trans hyes
      · cases hclosed.symm.trans hyes
  told := fun tab hinit hchecks => h.stopped tab (stopped_of_not_checks hinit hchecks)
  findsOut := fun _ now => readCheck_told now

/-! ## What a step keeps -/

theorem Inv.setTab (h : Inv s) (lock : Slot Lock) (tab : Nat) {t : Tab}
    (hstopped : t.stage = .stopped → t.told = true ∨ t.closed = true) (hclosed : t.closed = true → t.stage = .stopped) :
    Inv ({ s with lock := lock }.setTab tab t) := by
  have hget : ∀ tab', ({ s with lock := lock }.setTab tab t).tabs tab' = if tab' = tab then t else s.tabs tab' :=
    fun tab' => Function.update_apply s.tabs tab t tab'
  constructor
  · intro tab'
    rw [hget]
    split
    · exact hstopped
    · exact h.stopped tab'
  · intro tab'
    rw [hget]
    split
    · exact hclosed
    · exact h.closed tab'

theorem Inv.closed_eq (h : Inv s) {tab : Nat} (hne : (s.tabs tab).stage ≠ .stopped) : (s.tabs tab).closed = false := by
  cases hclosed : (s.tabs tab).closed with
  | false => rfl
  | true => exact absurd (h.closed tab hclosed) hne

theorem Inv.goesOn (h : Inv s) (lock : Slot Lock) {tab : Nat} {t : Tab} (hold : (s.tabs tab).stage ≠ .stopped)
    (hstage : t.stage ≠ .stopped) (hclosed : t.closed = (s.tabs tab).closed) :
    Inv ({ s with lock := lock }.setTab tab t) := by
  refine h.setTab lock tab (fun hstopped => absurd hstopped hstage) fun hyes => ?_
  rw [hclosed, h.closed_eq hold] at hyes
  cases hyes

theorem Inv.stops (h : Inv s) (tab : Nat) {t : Tab} (hstage : t.stage = .stopped)
    (hwhy : t.told = true ∨ t.closed = true) : Inv (s.setTab tab t) :=
  h.setTab s.lock tab (fun _ => hwhy) fun _ => hstage

theorem Inv.init (h : Inv s) (tab : Nat) : Inv (init s tab) := by
  unfold GlobalLock.init
  split
  · next hstage => exact h.goesOn s.lock (by rw [hstage]; rintro ⟨⟩) (by rintro ⟨⟩) rfl
  · exact h

theorem Inv.readAcquire (h : Inv s) (tab : Nat) (outcome : Outcome) (now : Int) :
    Inv (readAcquire s tab outcome now) := by
  unfold GlobalLock.readAcquire
  split
  · next hstage => exact h.goesOn s.lock (by rw [hstage]; rintro ⟨⟩) (by rintro ⟨⟩) rfl
  · exact h

theorem Inv.writeAcquire (h : Inv s) (tab : Nat) (outcome : Outcome) : Inv (writeAcquire s tab outcome) := by
  unfold GlobalLock.writeAcquire
  split
  · next rev prevTs ts hstage =>
    have hold : (s.tabs tab).stage ≠ .stopped := by
      rw [hstage]
      rintro ⟨⟩
    split
    · next lock _ => exact h.goesOn lock hold (by rintro ⟨⟩) rfl
    · exact h.goesOn s.lock hold (by rintro ⟨⟩) rfl
  · exact h

theorem Inv.timeout (h : Inv s) (tab : Nat) : Inv (timeout s tab) := by
  unfold GlobalLock.timeout
  split
  · next hstage => exact h.goesOn s.lock (by rw [hstage]; rintro ⟨⟩) (by rintro ⟨⟩) rfl
  · exact h

theorem Inv.readCheck (h : Inv s) {tab : Nat} {outcome : Outcome} {now : Int}
    (hok : Undisturbed s (.readCheck tab outcome now)) : Inv (readCheck s tab outcome now) := by
  unfold GlobalLock.readCheck
  split
  · next hstage =>
    have hold : (s.tabs tab).stage ≠ .stopped := by
      rw [hstage]
      rintro ⟨⟩
    cases outcome with
    | ok =>
      cases hlock : s.lock.get () with
      | some row =>
        obtain ⟨rev, doc⟩ := row
        dsimp only
        split
        · exact h.stops tab rfl (Or.inl rfl)
        · exact h.goesOn s.lock hold (by rintro ⟨⟩) rfl
      | none =>
        rcases hok hstage with htold | hclosed | ⟨-, hsome⟩
        · exact h.stops tab rfl (Or.inl htold)
        · cases hclosed
        · exact absurd hlock hsome
    | closed => exact h.stops tab rfl (Or.inr rfl)
    | failed =>
      rcases hok hstage with htold | hclosed | ⟨hok, -⟩
      · exact h.stops tab rfl (Or.inl htold)
      · cases hclosed
      · cases hok
  · exact h

theorem Inv.writeCheck (h : Inv s) {tab : Nat} {outcome : Outcome} (hok : Undisturbed s (.writeCheck tab outcome)) :
    Inv (writeCheck s tab outcome) := by
  unfold GlobalLock.writeCheck
  split
  · next rev ts hstage =>
    have hold : (s.tabs tab).stage ≠ .stopped := by
      rw [hstage]
      rintro ⟨⟩
    split
    · next lock _ => exact h.goesOn lock hold (by rintro ⟨⟩) rfl
    · next hput =>
      rcases hok rev ts hstage with htold | rfl | ⟨rfl, hrev⟩
      · exact h.setTab s.lock tab (fun _ => Or.inl htold) fun _ => rfl
      · exact h.setTab s.lock tab (fun _ => Or.inr rfl) fun _ => rfl
      · rw [if_pos rfl, ← hrev, Store.put_revision] at hput
        cases hput
  · exact h

theorem Inv.step (h : Inv s) {a : Action} (hok : Undisturbed s a) : Inv (step s a) := by
  cases a with
  | init tab => exact h.init tab
  | readAcquire tab outcome now => exact h.readAcquire tab outcome now
  | writeAcquire tab outcome => exact h.writeAcquire tab outcome
  | timeout tab => exact h.timeout tab
  | readCheck tab outcome now => exact h.readCheck hok
  | writeCheck tab outcome => exact h.writeCheck hok

/-! ## What a step breaks -/

theorem Safe.setTab {lock : Slot Lock} {tab : Nat} {t : Tab} (h : Safe ({ s with lock := lock }.setTab tab t))
    (hstage : t.stage = .stopped) : t.told = true ∨ t.closed = true := by
  have hself : ({ s with lock := lock }.setTab tab t).tabs tab = t := by
    unfold State.setTab
    exact Function.update_self ..
  have htold := h.told tab
  rw [hself] at htold
  refine htold ⟨?_, ?_, ?_⟩ ?_
  · rw [hstage]
    rintro ⟨⟩
  · rw [hstage]
    rintro ⟨⟩
  · rw [hstage]
    rintro rev prevTs ts ⟨⟩
  · unfold Tab.Checks
    rw [hstage]
    rintro (⟨⟨⟩⟩ | ⟨⟨⟩⟩ | ⟨_, _, ⟨⟩⟩)

theorem Inv.undisturbed_readCheck (h : Inv s) {tab : Nat} {outcome : Outcome} {now : Int}
    (hsafe : Safe (GlobalLock.readCheck s tab outcome now)) : Undisturbed s (.readCheck tab outcome now) := by
  intro hstage
  have hopen : (s.tabs tab).closed = false := h.closed_eq (by rw [hstage]; rintro ⟨⟩)
  unfold GlobalLock.readCheck at hsafe
  rw [if_pos hstage] at hsafe
  cases outcome with
  | ok =>
    by_cases hlock : s.lock.get () = none
    · rw [hlock] at hsafe
      rcases Safe.setTab hsafe rfl with htold | hclosed
      · exact Or.inl htold
      · cases hopen.symm.trans hclosed
    · exact Or.inr (Or.inr ⟨rfl, hlock⟩)
  | closed => exact Or.inr (Or.inl rfl)
  | failed =>
    rcases Safe.setTab hsafe rfl with htold | hclosed
    · exact Or.inl htold
    · cases hopen.symm.trans hclosed

theorem undisturbed_writeCheck {tab : Nat} {outcome : Outcome}
    (hsafe : Safe (GlobalLock.writeCheck s tab outcome)) : Undisturbed s (.writeCheck tab outcome) := by
  intro rev ts hstage
  unfold GlobalLock.writeCheck at hsafe
  rw [hstage] at hsafe
  dsimp only at hsafe
  cases hput : (if outcome = .ok then s.lock.put () (some rev) ⟨some tab, some ts⟩ else none) with
  | some lock =>
    have hok : outcome = .ok := by
      by_contra hne
      rw [if_neg hne] at hput
      cases hput
    rw [if_pos hok] at hput
    exact Or.inr (Or.inr ⟨hok, (Store.put_eq_some.mp hput).1.symm⟩)
  | none =>
    rw [hput] at hsafe
    rcases Safe.setTab hsafe rfl with htold | hclosed
    · exact Or.inl htold
    · exact Or.inr (Or.inl (of_decide_eq_true hclosed))

theorem Inv.undisturbed (h : Inv s) {a : Action} (hsafe : Safe (GlobalLock.step s a)) : Undisturbed s a := by
  cases a with
  | init tab => trivial
  | readAcquire tab outcome now => trivial
  | writeAcquire tab outcome => trivial
  | timeout tab => trivial
  | readCheck tab outcome now => exact h.undisturbed_readCheck hsafe
  | writeCheck tab outcome => exact undisturbed_writeCheck hsafe

/-- **The lock of the tabs.** A tab that loses the lock finds out, and none stops its checks untold, in the runs whose
checks are undisturbed and in no others. -/
theorem safe_iff (stored : Slot Lock) (actions : List Action) :
    Always step Safe (start stored) actions ↔ Along step Undisturbed (start stored) actions :=
  always_iff_along_of_inv (fun _ h => h.safe) (fun _ _ h hok => h.step hok) (fun _ _ h hsafe => h.undisturbed hsafe)
    (start_inv stored)

/-! ## A conflict -/

/-- The first tab has the lock and has read the document for its check, when the second one takes the lock. -/
def conflictRun : List Action :=
  [.init 0, .readAcquire 0 .ok 0, .writeAcquire 0 .ok, .timeout 0, .readCheck 0 .ok 100,
    .init 1, .readAcquire 1 .ok 100, .writeAcquire 1 .ok, .writeCheck 0 .ok]

/-- The put of the first tab is a conflict. It is not told, and looks no more. -/
theorem conflict_untold : (conflictRun.foldl step (start Store.empty)).owner = some 1 ∧
    (conflictRun.foldl step (start Store.empty)).tabs 0 = ⟨.stopped, false, false, some false⟩ ∧
    ¬Always step Safe (start Store.empty) conflictRun := by
  have htab : (conflictRun.foldl step (start Store.empty)).tabs 0 = ⟨.stopped, false, false, some false⟩ := by
    decide +kernel
  refine ⟨by decide +kernel, htab, fun h => ?_⟩
  have htold := h.last.told 0
  rw [htab] at htold
  rcases htold ⟨by rintro ⟨⟩, by rintro ⟨⟩, by rintro rev prevTs ts ⟨⟩⟩
    (by rintro (⟨⟨⟩⟩ | ⟨⟨⟩⟩ | ⟨_, _, ⟨⟩⟩)) with hyes | hyes
  · cases hyes
  · cases hyes

end GlobalLock

end WebWallet
