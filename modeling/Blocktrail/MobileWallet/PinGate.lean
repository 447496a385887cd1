import Blocktrail.Lib.Runs
import Blocktrail.Lib.Text

/-! # The PIN gate

The screen that opens the wallet counts wrong PINs in the local settings, and is locked after the fifth. The send screen
and the settings try PINs on the same ciphertext.
-/

open Runs Text

namespace MobileWallet

namespace PinGate

/-- The counter in the local settings. -/
structure Settings where
  pinFailureCount : Nat
  /-- In milliseconds; `none` is null. -/
  pinLastFailure : Option Nat
deriving DecidableEq

/-- What the handler of a `setLocalSettings` does. -/
inductive Handler
  | failure
  | release
deriving DecidableEq

structure Write where
  data : Settings
  handler : Handler
deriving DecidableEq

/-- How far the submission of a PIN is. -/
inductive Submission
  /-- The wallet info is read. -/
  | reading (pin : Str)
  /-- The PIN is right; the timeout is awaited. -/
  | opened
  /-- The PIN is wrong; the failure is written. -/
  | recording
deriving DecidableEq

/-- A PIN that was tried on the ciphertext. -/
structure Try where
  time : Nat
  right : Bool

structure State where
  now : Nat
  stored : Settings
  localSettingsData : Settings
  /-- In the order of their calls. -/
  writes : List Write
  /-- A write has failed: those that follow fail with it until the app starts again. -/
  broken : Bool
  isFormSubmit : Bool
  isLocked : Bool
  submission : Option Submission
  /-- The last one first. -/
  tries : List Try

def start : State := ⟨0, ⟨0, none⟩, ⟨0, none⟩, [], false, false, false, none, []⟩

/-! ## The screen -/

def pinLockTimeSeconds : Nat := 5 * 60

/-- `(milliseconds / 1000).toFixed(0)`. -/
def toFixed (milliseconds : Nat) : Nat := (milliseconds + 500) / 1000

/-- A null counts as 0. -/
def State.lockTimer (s : State) : Int :=
  pinLockTimeSeconds - toFixed (s.now - s.localSettingsData.pinLastFailure.getD 0)

def evaluateLock (s : State) : State :=
  if s.localSettingsData.pinFailureCount > 4 then { s with isLocked := true } else s

/-- A turn of the interval, which runs while the screen is locked. -/
def interval (s : State) : State :=
  if s.isLocked ∧ s.lockTimer ≤ 0 then { s with writes := s.writes ++ [⟨⟨0, none⟩, .release⟩] } else s

def onSubmitFormPin (s : State) (pin : Str) : State :=
  if s.isFormSubmit ∨ s.isLocked then s
  else if pin = [] then { s with isFormSubmit := true }
  else if length16 pin < 4 then { s with isFormSubmit := true }
  else { s with isFormSubmit := true, submission := some (.reading pin) }

section Pins

variable (opens : Str → Bool)

/-- A PIN is tried on the ciphertext, by whatever screen. -/
def State.tried (s : State) (pin : Str) : State := { s with tries := ⟨s.now, opens pin⟩ :: s.tries }

/-- The wallet info has come. -/
def decrypt (s : State) : State :=
  match s.submission with
  | some (.reading pin) =>
    if opens pin then { s.tried opens pin with submission := some .opened }
    else
      { s.tried opens pin with
        submission := some .recording
        writes := s.writes ++ [⟨⟨s.localSettingsData.pinFailureCount + 1, some s.now⟩, .failure⟩] }
  | _ => s

/-- The timeout after a right PIN. -/
def timeout (s : State) : State :=
  match s.submission with
  | some .opened => { s with isFormSubmit := false, submission := none }
  | _ => s

/-- The oldest write is answered. Nothing handles a failure. -/
def answer (s : State) (ok : Bool) : State :=
  match s.writes with
  | [] => s
  | w :: writes =>
    if ok ∧ ¬s.broken then
      let s := { s with stored := w.data, localSettingsData := w.data, writes := writes }
      match w.handler with
      | .failure => { evaluateLock s with isFormSubmit := false, submission := none }
      | .release => { s with isLocked := false }
    else
      let s := { s with broken := true, writes := writes }
      match w.handler with
      | .failure => { s with submission := none }
      | .release => s

/-- The app starts again, at the screen. -/
def restart (s : State) : State :=
  evaluateLock
    { s with
      localSettingsData := s.stored
      writes := []
      broken := false
      isFormSubmit := false
      isLocked := false
      submission := none }

inductive Action
  | tick (milliseconds : Nat)
  | submit (pin : Str)
  | decrypt
  | timeout
  | answer (ok : Bool)
  | interval
  | restart
  /-- `unlockWithPin`. -/
  | send (pin : Str)
  /-- `unlockDataWithPin`, which the dialog calls with a PIN that is not empty. -/
  | settings (pin : Str)

def step (s : State) : Action → State
  | .tick milliseconds => { s with now := s.now + milliseconds }
  | .submit pin => onSubmitFormPin s pin
  | .decrypt => decrypt opens s
  | .timeout => timeout s
  | .answer ok => answer s ok
  | .interval => interval s
  | .restart => restart s
  | .send pin => s.tried opens pin
  | .settings pin => if pin = [] then s else s.tried opens pin

/-! ## What is relied on -/

/-- Five minutes. -/
def pause : Nat := 300000

/-- A try at `time` comes after a pause. -/
def Paused (time : Nat) (tries : List Try) : Prop := ∀ t ∈ tries.head?, t.time + pause ≤ time

instance (time : Nat) (tries : List Try) : Decidable (Paused time tries) :=
  decidable_of_iff (tries.head?.all fun t => t.time + pause ≤ time) (by
    cases tries <;> simp [Paused])

/-- The wrong PINs since a right one or a pause. -/
def streak : List Try → Nat
  | [] => 0
  | t :: tries => if t.right then 0 else if Paused t.time tries then 1 else streak tries + 1

/-- After five wrong PINs a pause comes before the next try. -/
def Paced : List Try → Prop
  | [] => True
  | t :: tries => (streak tries < 5 ∨ Paused t.time tries) ∧ Paced tries

structure Sound (s : State) : Prop where
  paced : Paced s.tries
  anew : ∀ t ∈ s.tries.head?, t.right = true → s.localSettingsData.pinFailureCount = 0
  accepts : s.submission = none → s.isLocked = false → s.isFormSubmit = false

/-- A right PIN, where there is nothing to count anew from. -/
def State.MayTry (s : State) (pin : Str) : Prop :=
  opens pin = true ∧ s.localSettingsData.pinFailureCount = 0 ∧ s.submission ≠ some .recording

def State.MayDecrypt (s : State) : Prop :=
  match s.submission with
  | some (.reading pin) => opens pin = true → s.localSettingsData.pinFailureCount = 0
  | _ => True

/-- A PIN at the screen is long enough and those of the other screens are right, no right one finds wrong ones counted,
writes succeed, the lock is not rounded off, and the app does not start again before a failure is written. -/
def Undisturbed (s : State) : Action → Prop
  | .submit pin => s.isFormSubmit = false → s.isLocked = false → pin ≠ [] ∧ 4 ≤ length16 pin
  | .decrypt => s.MayDecrypt opens
  | .answer ok => s.writes ≠ [] → ok = true
  | .interval => s.isLocked = true → s.lockTimer ≤ 0 → s.localSettingsData.pinLastFailure.getD 0 + pause ≤ s.now
  | .restart => s.submission ≠ some .recording
  | .send pin => s.MayTry opens pin
  | .settings pin => pin ≠ [] → s.MayTry opens pin
  | _ => True

variable {opens : Str → Bool} {s : State}

/-! ## The invariant -/

/-- How far the counter is, and what is about to be written. -/
inductive Phase (s : State) : Prop
  | locked (last : Nat) (hlocked : s.isLocked = true) (hsubmission : s.submission = none)
      (hstored : s.stored = ⟨5, some last⟩) (hlast : ∀ t ∈ s.tries.head?, t.time ≤ last)
      (hwrites : ∀ w ∈ s.writes, w = ⟨⟨0, none⟩, .release⟩) (hreleased : s.writes ≠ [] → Paused s.now s.tries)
  | entry (hlocked : s.isLocked = false) (hsubmission : s.submission ≠ some .recording)
      (hcount : s.stored.pinFailureCount ≤ 4) (hwrites : ∀ w ∈ s.writes, w = ⟨⟨0, none⟩, .release⟩)
      (hreleased : s.writes ≠ [] → s.stored.pinFailureCount = 0)
      (hstreak : streak s.tries ≤ s.stored.pinFailureCount ∨ Paused s.now s.tries)
  | recording (releases : List Write) (last : Nat) (hlocked : s.isLocked = false)
      (hsubmission : s.submission = some .recording) (hcount : s.stored.pinFailureCount ≤ 4)
      (hwrites : s.writes = releases ++ [⟨⟨s.stored.pinFailureCount + 1, some last⟩, .failure⟩])
      (hreleases : ∀ w ∈ releases, w = ⟨⟨0, none⟩, .release⟩)
      (hreleased : releases ≠ [] → s.stored.pinFailureCount = 0) (hlast : ∀ t ∈ s.tries.head?, t.time ≤ last)
      (hstreak : streak s.tries ≤ s.stored.pinFailureCount + 1) (hwrong : ∀ t ∈ s.tries.head?, t.right = false)

structure Inv (s : State) : Prop where
  memory : s.localSettingsData = s.stored
  broken : s.broken = false
  form : s.isFormSubmit = s.submission.isSome
  paced : Paced s.tries
  anew : ∀ t ∈ s.tries.head?, t.right = true → s.stored.pinFailureCount = 0
  phase : Phase s

theorem start_inv : Inv start where
  memory := rfl
  broken := rfl
  form := rfl
  paced := trivial
  anew := by rintro t ⟨⟩
  phase := .entry rfl (by rintro ⟨⟩) (by decide) (by rintro w ⟨⟩) (fun h => absurd rfl h) (Or.inl (by decide))

theorem Inv.sound (h : Inv s) : Sound s where
  paced := h.paced
  anew := by
    rw [h.memory]
    exact h.anew
  accepts := by
    intro hnone _
    rw [h.form, hnone]
    rfl

theorem Paused.later {time time' : Nat} {tries : List Try} (h : Paused time tries) (hle : time ≤ time') :
    Paused time' tries := fun t ht => Nat.le_trans (h t ht) hle

/-! ## Tries -/

theorem streak_right {t : Try} {tries : List Try} (h : t.right = true) : streak (t :: tries) = 0 := by
  unfold streak
  rw [if_pos h]

theorem streak_wrong {t : Try} {tries : List Try} (h : t.right = false) {n : Nat}
    (hn : streak tries ≤ n ∨ Paused t.time tries) : streak (t :: tries) ≤ n + 1 := by
  unfold streak
  rw [if_neg (by rw [h]; decide)]
  split
  · omega
  · next hpaused =>
    rcases hn with hn | hn
    · omega
    · exact absurd hn hpaused

theorem Paced.cons {tries : List Try} (h : Paced tries) {t : Try} {n : Nat} (hn : n ≤ 4)
    (hstreak : streak tries ≤ n ∨ Paused t.time tries) : Paced (t :: tries) := by
  refine ⟨?_, h⟩
  rcases hstreak with hstreak | hpaused
  · exact Or.inl (by omega)
  · exact Or.inr hpaused

/-! ## What a step keeps -/

theorem Inv.tick (h : Inv s) (milliseconds : Nat) : Inv { s with now := s.now + milliseconds } := by
  have hle : s.now ≤ s.now + milliseconds := Nat.le_add_right _ _
  refine ⟨h.memory, h.broken, h.form, h.paced, h.anew, ?_⟩
  cases h.phase with
  | locked last hlocked hsubmission hstored hlast hwrites hreleased =>
    exact .locked last hlocked hsubmission hstored hlast hwrites fun hne => (hreleased hne).later hle
  | entry hlocked hsubmission hcount hwrites hreleased hstreak =>
    exact .entry hlocked hsubmission hcount hwrites hreleased (hstreak.imp_right fun hpaused => hpaused.later hle)
  | recording releases last hlocked hsubmission hcount hwrites hreleases hreleased hlast hstreak hwrong =>
    exact .recording releases last hlocked hsubmission hcount hwrites hreleases hreleased hlast hstreak hwrong

theorem Inv.onSubmitFormPin (h : Inv s) {pin : Str}
    (hok : s.isFormSubmit = false → s.isLocked = false → pin ≠ [] ∧ 4 ≤ length16 pin) :
    Inv (onSubmitFormPin s pin) := by
  unfold PinGate.onSubmitFormPin
  by_cases hbusy : s.isFormSubmit = true ∨ s.isLocked = true
  · rw [if_pos hbusy]
    exact h
  obtain ⟨hform, hlocked⟩ := not_or.mp hbusy
  obtain ⟨hne, hlength⟩ := hok (Bool.eq_false_iff.mpr hform) (Bool.eq_false_iff.mpr hlocked)
  rw [if_neg hbusy, if_neg hne, if_neg (Nat.not_lt.mpr hlength)]
  refine ⟨h.memory, h.broken, rfl, h.paced, h.anew, ?_⟩
  cases h.phase with
  | locked last hlocked' => exact absurd hlocked' hlocked
  | entry hlocked hsubmission hcount hwrites hreleased hstreak =>
    exact .entry hlocked (by rintro ⟨⟩) hcount hwrites hreleased hstreak
  | recording releases last hlocked' hsubmission =>
    have hsome := h.form
    rw [hsubmission] at hsome
    exact absurd hsome hform

theorem Inv.right (h : Inv s) {pin : Str} (hpin : opens pin = true) (hcount : s.localSettingsData.pinFailureCount = 0)
    {submission : Option Submission} (hrecording : s.submission ≠ some .recording)
    (hnew : submission ≠ some .recording) (hform : s.isFormSubmit = submission.isSome) :
    Inv { s.tried opens pin with submission := submission } := by
  rw [h.memory] at hcount
  have hright : (⟨s.now, opens pin⟩ : Try).right = true := hpin
  cases h.phase with
  | locked last _ _ hstored =>
    rw [hstored] at hcount
    cases hcount
  | entry hlocked hsubmission hcount' hwrites hreleased hstreak =>
    refine ⟨h.memory, h.broken, hform, h.paced.cons hcount' hstreak, fun _ _ _ => hcount,
      .entry hlocked hnew hcount' hwrites hreleased (Or.inl ?_)⟩
    change streak (_ :: s.tries) ≤ s.stored.pinFailureCount
    rw [streak_right hright]
    exact Nat.zero_le _
  | recording releases last hlocked hsubmission => exact absurd hsubmission hrecording

theorem Inv.tried (h : Inv s) {pin : Str} (hok : s.MayTry opens pin) : Inv (s.tried opens pin) :=
  h.right hok.1 hok.2.1 hok.2.2 hok.2.2 h.form

theorem Inv.decrypt (h : Inv s) (hok : s.MayDecrypt opens) : Inv (decrypt opens s) := by
  unfold State.MayDecrypt at hok
  unfold PinGate.decrypt
  split
  · next pin hsubmission =>
    rw [hsubmission] at hok
    have hform := h.form
    rw [hsubmission] at hform
    by_cases hpin : opens pin = true
    · rw [if_pos hpin]
      exact h.right hpin (hok hpin) (by rw [hsubmission]; rintro ⟨⟩) (by rintro ⟨⟩) hform
    · rw [if_neg hpin]
      have hwrong : (⟨s.now, opens pin⟩ : Try).right = false := Bool.eq_false_iff.mpr hpin
      cases h.phase with
      | locked last _ hnone =>
        rw [hsubmission] at hnone
        cases hnone
      | entry hlocked _ hcount hwrites hreleased hstreak =>
        refine ⟨h.memory, h.broken, hform, h.paced.cons hcount hstreak, ?_,
          .recording s.writes s.now hlocked rfl hcount ?_ hwrites hreleased ?_ (streak_wrong hwrong hstreak) ?_⟩
        · rintro t ⟨⟩ hright
          exact absurd hright hpin
        · rw [h.memory]
          rfl
        · rintro t ⟨⟩
          exact Nat.le_refl _
        · rintro t ⟨⟩
          exact hwrong
      | recording releases last _ hrecording =>
        rw [hsubmission] at hrecording
        cases hrecording
  · exact h

theorem Inv.timeout (h : Inv s) : Inv (timeout s) := by
  unfold PinGate.timeout
  split
  · next hsubmission =>
    refine ⟨h.memory, h.broken, rfl, h.paced, h.anew, ?_⟩
    cases h.phase with
    | locked last hlocked _ hstored hlast hwrites hreleased =>
      exact .locked last hlocked rfl hstored hlast hwrites hreleased
    | entry hlocked _ hcount hwrites hreleased hstreak =>
      exact .entry hlocked (by rintro ⟨⟩) hcount hwrites hreleased hstreak
    | recording releases last _ hrecording =>
      rw [hsubmission] at hrecording
      cases hrecording
  · exact h

theorem Inv.released (h : Inv s) {writes : List Write} (hs : s.writes = ⟨⟨0, none⟩, .release⟩ :: writes) :
    Inv { s with stored := ⟨0, none⟩, localSettingsData := ⟨0, none⟩, writes := writes, isLocked := false } := by
  have hne : s.writes ≠ [] := by
    rw [hs]
    exact List.cons_ne_nil _ _
  refine ⟨rfl, h.broken, h.form, h.paced, fun _ _ _ => rfl, ?_⟩
  cases h.phase with
  | locked last _ hsubmission _ _ hwrites hreleased =>
    rw [hs] at hwrites
    exact .entry rfl (by rw [hsubmission]; rintro ⟨⟩) (Nat.zero_le 4) (List.forall_mem_cons.mp hwrites).2
      (fun _ => rfl) (Or.inr (hreleased hne))
  | entry _ hsubmission _ hwrites hreleased hstreak =>
    rw [hs] at hwrites
    rw [hreleased hne] at hstreak
    exact .entry rfl hsubmission (Nat.zero_le 4) (List.forall_mem_cons.mp hwrites).2 (fun _ => rfl) hstreak
  | recording releases last _ hsubmission _ hwrites hreleases hreleased hlast hstreak hwrong =>
    cases releases with
    | nil =>
      rw [hs] at hwrites
      cases hwrites
    | cons w releases =>
      rw [hs] at hwrites
      obtain ⟨-, hrest⟩ := List.cons.inj hwrites
      have hcount := hreleased (List.cons_ne_nil _ _)
      rw [hcount] at hrest hstreak
      exact .recording releases last rfl hsubmission (Nat.zero_le 4) hrest (List.forall_mem_cons.mp hreleases).2
        (fun _ => rfl) hlast hstreak hwrong

/-- A failure is written. The fifth locks the screen. -/
theorem Inv.recorded (h : Inv s) {w : Write} {writes : List Write} (hs : s.writes = w :: writes)
    (hw : w.handler = .failure) : Inv { evaluateLock { s with
      stored := w.data, localSettingsData := w.data, writes := writes } with isFormSubmit := false, submission := none } := by
  cases h.phase with
  | locked last _ _ _ _ hwrites =>
    rw [hs] at hwrites
    rw [(List.forall_mem_cons.mp hwrites).1] at hw
    cases hw
  | entry _ _ _ hwrites =>
    rw [hs] at hwrites
    rw [(List.forall_mem_cons.mp hwrites).1] at hw
    cases hw
  | recording releases last hlocked hsubmission hcount hwrites hreleases _ hlast hstreak hwrong =>
    cases releases with
    | cons r releases =>
      rw [hs] at hwrites
      obtain ⟨rfl, -⟩ := List.cons.inj hwrites
      rw [(List.forall_mem_cons.mp hreleases).1] at hw
      cases hw
    | nil =>
      rw [hs] at hwrites
      obtain ⟨rfl, rfl⟩ := List.cons.inj hwrites
      have hanew : ∀ t ∈ s.tries.head?, t.right = true → s.stored.pinFailureCount + 1 = 0 := by
        intro t ht hright
        rw [hwrong t ht] at hright
        cases hright
      unfold evaluateLock
      dsimp only
      split
      · next hgt =>
        have hfive : s.stored.pinFailureCount + 1 = 5 := by omega
        refine ⟨rfl, h.broken, rfl, h.paced, hanew, .locked last rfl rfl ?_ hlast (by rintro w ⟨⟩) fun hne => absurd rfl hne⟩
        change (⟨s.stored.pinFailureCount + 1, some last⟩ : Settings) = _
        rw [hfive]
      · next hle =>
        exact ⟨rfl, h.broken, rfl, h.paced, hanew, .entry hlocked (by rintro ⟨⟩) (Nat.not_lt.mp hle) (by rintro w ⟨⟩)
          (fun hne => absurd rfl hne) (Or.inl hstreak)⟩

theorem Inv.answer (h : Inv s) {ok : Bool} (hok : s.writes ≠ [] → ok = true) : Inv (answer s ok) := by
  unfold PinGate.answer
  split
  · exact h
  · next w writes hs =>
    obtain rfl : ok = true := hok (by rw [hs]; exact List.cons_ne_nil _ _)
    rw [if_pos ⟨rfl, by rw [h.broken]; decide⟩]
    dsimp only
    obtain ⟨data, handler⟩ := w
    cases handler with
    | failure => exact h.recorded hs rfl
    | release =>
      have hdata : data = ⟨0, none⟩ := by
        have hmem : (⟨data, .release⟩ : Write) ∈ s.writes := by
          rw [hs]
          exact List.mem_cons_self
        cases h.phase with
        | locked last _ _ _ _ hwrites => exact congrArg Write.data (hwrites _ hmem)
        | entry _ _ _ hwrites => exact congrArg Write.data (hwrites _ hmem)
        | recording releases last _ _ _ hwrites hreleases =>
          rw [hwrites, List.mem_append, List.mem_singleton] at hmem
          rcases hmem with hmem | hmem
          · exact congrArg Write.data (hreleases _ hmem)
          · cases congrArg Write.handler hmem
      subst hdata
      exact h.released hs

theorem Inv.interval (h : Inv s)
    (hok : s.isLocked = true → s.lockTimer ≤ 0 → s.localSettingsData.pinLastFailure.getD 0 + pause ≤ s.now) :
    Inv (interval s) := by
  unfold PinGate.interval
  split
  · next hdue =>
    have hpause := hok hdue.1 hdue.2
    rw [h.memory] at hpause
    refine ⟨h.memory, h.broken, h.form, h.paced, h.anew, ?_⟩
    cases h.phase with
    | locked last hlocked hsubmission hstored hlast hwrites hreleased =>
      rw [hstored] at hpause
      refine .locked last hlocked hsubmission hstored hlast ?_ fun _ t ht => ?_
      · intro w hw
        rcases List.mem_append.mp hw with hw | hw
        · exact hwrites w hw
        · exact List.mem_singleton.mp hw
      · exact Nat.le_trans (Nat.add_le_add_right (hlast t ht) pause) hpause
    | entry hlocked => rw [hlocked] at hdue; cases hdue.1
    | recording releases last hlocked => rw [hlocked] at hdue; cases hdue.1
  · exact h

theorem Inv.restart (h : Inv s) (hok : s.submission ≠ some .recording) : Inv (restart s) := by
  unfold PinGate.restart evaluateLock
  dsimp only
  cases h.phase with
  | locked last _ _ hstored hlast =>
    rw [if_pos (by rw [hstored]; exact Nat.lt_succ_self 4)]
    exact ⟨rfl, rfl, rfl, h.paced, h.anew, .locked last rfl rfl hstored hlast (by rintro w ⟨⟩) fun hne => absurd rfl hne⟩
  | entry _ _ hcount _ _ hstreak =>
    rw [if_neg (Nat.not_lt.mpr hcount)]
    exact ⟨rfl, rfl, rfl, h.paced, h.anew, .entry rfl (by rintro ⟨⟩) hcount (by rintro w ⟨⟩)
      (fun hne => absurd rfl hne) hstreak⟩
  | recording releases last _ hsubmission => exact absurd hsubmission hok

/-- **One step.** -/
theorem Inv.step (h : Inv s) {a : Action} (hok : Undisturbed opens s a) : Inv (step opens s a) := by
  cases a with
  | tick milliseconds => exact h.tick milliseconds
  | submit pin => exact h.onSubmitFormPin hok
  | decrypt => exact h.decrypt hok
  | timeout => exact h.timeout
  | answer ok => exact h.answer hok
  | interval => exact h.interval hok
  | restart => exact h.restart hok
  | send pin => exact h.tried hok
  | settings pin =>
    change Inv (if pin = [] then s else s.tried opens pin)
    split
    · exact h
    · next hne => exact h.tried (hok hne)

/-- **The PIN gate.** In every run that is undisturbed a pause comes after five wrong PINs, a right one starts the count
anew, and the form takes the next PIN. -/
theorem gate_sound (opens : Str → Bool) (actions : List Action) (h : Along (step opens) (Undisturbed opens) start actions) :
    Always (step opens) Sound start actions := by
  have hinv : Always (step opens) Inv start actions := always_of_along (fun _ _ hs hok => hs.step hok) start_inv h
  exact hinv.mono fun _ hs => hs.sound

end Pins

/-! ## Runs -/

instance (opens : Str → Bool) (s : State) (a : Action) : Decidable (Undisturbed opens s a) := by
  unfold Undisturbed State.MayTry State.MayDecrypt
  cases a <;> dsimp only <;> first | infer_instance | (split <;> infer_instance)

def isPin (pin : Str) : Bool := pin = "1234"

/-- A PIN at the screen, to its end. -/
def enter (pin : Str) : List Action := [.submit pin, .decrypt, .timeout, .answer true]

/-- Five wrong PINs, the pause, and the right one at every screen. -/
def pausedRun : List Action :=
  enter "0000" ++ enter "1111" ++ enter "2222" ++ enter "3333" ++ enter "4444" ++
    [.submit "5555", .restart, .tick 300000, .interval, .answer true] ++ enter "1234" ++
    [.send "1234", .settings "1234"]

theorem pausedRun_sound : Always (step isPin) Sound start pausedRun :=
  gate_sound isPin pausedRun (by decide +kernel)

/-- The other screens count nothing, a right PIN leaves the count, an empty PIN leaves the form busy, and a failure that is
not written is not counted. -/
theorem gate_open : ¬Always (step isPin) Sound start (List.replicate 6 (.send "0000")) ∧
    ¬Always (step isPin) Sound start (enter "0000" ++ enter "1234") ∧
    ¬Always (step isPin) Sound start [.submit []] ∧
    ¬Always (step isPin) Sound start ((List.replicate 6 [Action.submit "0000", .decrypt, .restart]).flatten) := by
  refine ⟨fun h => ?_, fun h => ?_, fun h => ?_, fun h => ?_⟩
  · have hpaced := h.last.paced.1
    revert hpaced
    decide +kernel
  · have hcount := h.last.anew _ rfl (by decide +kernel)
    revert hcount
    decide +kernel
  · cases h.last.accepts rfl rfl
  · have hpaced := h.last.paced.1
    revert hpaced
    decide +kernel

end PinGate

end MobileWallet
