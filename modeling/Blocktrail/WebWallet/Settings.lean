import Mathlib.Logic.Function.Basic
import Blocktrail.Lib.Runs
import Blocktrail.Lib.Text

/-! # Settings

The settings live in one document. Updates write it and push it up, two downloads write it, and what is set during a
download waits in a buffer. The flag of a download is cleared when its answer arrives, and not when it fails.
-/

open Runs Text

namespace WebWallet

namespace Settings

/-! ## Settings -/

/-- The values of JavaScript that settings have. -/
inductive Value
  | undefined
  | null
  | bool (b : Bool)
  | number (n : Int)
  | text (t : Str)
  | list (items : List Str)
deriving DecidableEq

/-- What is downloaded and pushed up by itself. -/
inductive Part
  | settings
  | profile
deriving DecidableEq

def pendingSettingsPropertyList : List Str :=
  ["verifiedEmail", "passwordScore", "localCurrency", "language", "receiveNewsletter", "glideraAccessToken",
    "glideraTransactions", "latestVersionWeb", "glideraActivationNoticePending", "username", "email",
    "hideBCCSweepWarning", "walletActivated", "knownLanguages", "showArchived"]

def pendingProfilePropertyList : List Str := ["profilePic"]

def Part.properties : Part → List Str
  | .settings => pendingSettingsPropertyList
  | .profile => pendingProfilePropertyList

/-- The properties of `settingsData` and `profileData`. -/
def Part.uploaded : Part → List Str
  | .settings =>
    ["localCurrency", "language", "receiveNewsletter", "glideraAccessToken", "glideraTransactions", "latestVersionWeb",
      "glideraActivationNoticePending", "passwordScore", "buyBTCRegion", "username", "email", "hideBCCSweepWarning",
      "walletActivated", "knownLanguages", "showArchived"]
  | .profile => ["profilePic"]

/-- The properties of an object. -/
abbrev Properties := Str → Option Value

inductive Update
  | updateSettingsUp (newSettings : Properties)
  | addGlideraTransaction (transaction : Str)
  | updateGlideraTransactions (transactions : List Str)

/-- How far a download is. -/
inductive Stage
  | fetching
  /-- The server has answered. `versions` is what it had of the user's updates. -/
  | answered (answer : Str → Value) (versions : Str → Nat)
  | merging
  | storing

structure Download where
  part : Part
  stage : Stage

/-- What an update has still to do. -/
inductive Task
  /-- The local storage is updated, and a part is pushed up afterwards. -/
  | storing (next : Option Part)
  | pushing (part : Part)
  | sent (part : Part) (versions : Str → Nat)

structure State where
  doc : Str → Value
  pending : Properties
  /-- `_syncingSettingsDown` and `_syncingProfileDown`. -/
  syncing : Part → Option Nat
  downloads : Nat → Option Download
  /-- The updates that wait for a download of the settings. -/
  waiting : Nat → List Update
  tasks : Nat → Option Task
  fresh : Nat
  /-- Every call of an update has returned a promise. -/
  promised : Bool
  /-- What the user has last set a property to, unless a newer value has come from the server. -/
  last : Properties
  /-- The number of times that the user has set a property. -/
  version : Str → Nat
  /-- The version that was last pushed up, and the one that the server has. -/
  sentVersion : Str → Nat
  server : Str → Nat

/-- No update and no download is in progress. -/
def start (doc : Str → Value) : State where
  doc := doc
  pending := fun _ => none
  syncing := fun _ => none
  downloads := fun _ => none
  waiting := fun _ => []
  tasks := fun _ => none
  fresh := 0
  promised := true
  last := fun _ => none
  version := fun _ => 0
  sentVersion := fun _ => 0
  server := fun _ => 0

namespace State

/-- The setters of `_doc` put the property into `_pending`. -/
def toPending (s : State) (k : Str) : Bool :=
  (s.syncing .settings).isSome && k ∈ pendingSettingsPropertyList ||
    (s.syncing .profile).isSome && k ∈ pendingProfilePropertyList

/-- Properties are set on `_doc`. -/
def assign (s : State) (new : Properties) : State :=
  { s with
    doc := fun k => if s.toPending k then s.doc k else (new k).getD (s.doc k)
    pending := fun k => if s.toPending k then (new k).or (s.pending k) else s.pending k }

def setTask (s : State) (id : Nat) (task : Option Task) : State :=
  { s with tasks := Function.update s.tasks id task }

def setDownload (s : State) (id : Nat) (download : Option Download) : State :=
  { s with downloads := Function.update s.downloads id download }

def addTask (s : State) (task : Task) : State := { s.setTask s.fresh (some task) with fresh := s.fresh + 1 }

end State

/-! ## Updates -/

def checkOnPropertyUpList (obj : Properties) (propertyList : List Str) : Bool :=
  propertyList.any fun k => (obj k).getD .undefined ≠ .undefined

/-- `{glideraTransactions: transactions}`. -/
def glideraTransactions (transactions : List Str) : Properties :=
  fun k => if k = "glideraTransactions".toList then some (.list transactions) else none

namespace Update

/-- What an update sets; `none` throws. -/
def values (doc : Str → Value) : Update → Option Properties
  | .updateSettingsUp newSettings => some newSettings
  | .addGlideraTransaction transaction =>
    match doc "glideraTransactions" with
    | .list transactions => some (glideraTransactions (transactions ++ [transaction]))
    | _ => none
  | .updateGlideraTransactions transactions => some (glideraTransactions transactions)

/-- An update pushes a part up. -/
def flag (u : Update) (part : Part) : Bool :=
  match u with
  | .updateSettingsUp newSettings => checkOnPropertyUpList newSettings part.properties
  | .addGlideraTransaction _ => part = .settings
  | .updateGlideraTransactions _ => part = .settings

end Update

/-- With both parts, neither waits for the local storage: `then` is given a promise. -/
def startTasks (s : State) (u : Update) : State :=
  match u.flag .settings, u.flag .profile with
  | true, true => ((s.addTask (.storing none)).addTask (.pushing .settings)).addTask (.pushing .profile)
  | true, false => s.addTask (.storing (some .settings))
  | false, true => s.addTask (.storing (some .profile))
  | false, false => s.addTask (.storing none)

/-- The user has set the properties. -/
def record (s : State) (new : Properties) : State :=
  { s with
    last := fun k => (new k).or (s.last k)
    version := fun k => if (new k).isSome then s.version k + 1 else s.version k }

/-- An update during a download of the settings waits for it, and returns no promise. -/
def submit (s : State) (u : Update) : State :=
  match s.syncing .settings with
  | some id => { s with waiting := Function.update s.waiting id (s.waiting id ++ [u]), promised := false }
  | none =>
    match u.values s.doc with
    | some new => startTasks (s.assign new) u
    | none => { s with promised := false }

/-- The user calls an update. -/
def update (s : State) (u : Update) : State :=
  match u.values s.doc with
  | some new => submit (record s new) u
  | none => submit s u

/-- The operation on the local storage is over. -/
def stored (s : State) (id : Nat) : State :=
  match s.tasks id with
  | some (.storing next) => s.setTask id (next.map .pushing)
  | _ => s

/-- `_doc` is read and sent. (`glideraTransactions || []`: where there are none, an empty list is sent.) -/
def send (s : State) (id : Nat) : State :=
  match s.tasks id with
  | some (.pushing part) =>
    let current := fun k => k ∈ part.uploaded ∧ s.last k = some (s.doc k)
    { s.setTask id (some (.sent part fun k => if current k then s.version k else 0)) with
      sentVersion := fun k => if current k then s.version k else s.sentVersion k }
  | _ => s

def serverStores (s : State) (id : Nat) : State :=
  match s.tasks id with
  | some (.sent part versions) =>
    { s with server := fun k => if k ∈ part.uploaded then versions k else s.server k }
  | _ => s

/-- The server's answer has no effect, whatever it is. -/
def pushAnswered (s : State) (id : Nat) : State :=
  match s.tasks id with
  | some (.sent _ _) => s.setTask id none
  | _ => s

/-! ## Downloads -/

def syncDown (part : Part) (s : State) : State :=
  match s.syncing part with
  | some _ => s
  | none =>
    { s.setDownload s.fresh (some ⟨part, .fetching⟩) with
      syncing := Function.update s.syncing part (some s.fresh)
      fresh := s.fresh + 1 }

def syncSettingsDown : State → State := syncDown .settings

def syncProfileDown : State → State := syncDown .profile

/-- `_setSDKSettingsToDoc`. -/
def fromSettings (doc : Str → Value) (sdkSettings : Str → Value) : Properties := fun k =>
  if k ∈ pendingSettingsPropertyList then
    if k ∈ ["receiveNewsletter".toList, "language".toList, "localCurrency".toList] then
      some (if sdkSettings k = .null then doc k else sdkSettings k)
    else if k = "glideraTransactions".toList then
      some (if sdkSettings k ∈ [.undefined, .null, .bool false, .number 0, .text []] then .list [] else sdkSettings k)
    else some (sdkSettings k)
  else none

/-- `_setSDKProfileToDoc`; the server has a text, or nothing. -/
def fromProfile (sdkProfile : Str → Value) : Properties := fun k =>
  if k ∈ pendingProfilePropertyList then
    match sdkProfile k with
    | .text (c :: cs) => some (.text ("data:image/jpeg;base64,".toList ++ c :: cs))
    | _ => some .null
  else none

def fromServer (part : Part) (doc answer : Str → Value) : Properties :=
  match part with
  | .settings => fromSettings doc answer
  | .profile => fromProfile answer

/-- The server answers. -/
def fetch (s : State) (id : Nat) (answer : Str → Value) : State :=
  match s.downloads id with
  | some ⟨part, .fetching⟩ => s.setDownload id (some ⟨part, .answered answer s.server⟩)
  | _ => s

/-- The answer arrives. What the user has set is superseded where the server had it. -/
def arrive (s : State) (id : Nat) : State :=
  match s.downloads id with
  | some ⟨part, .answered answer versions⟩ =>
    { State.assign { s with syncing := Function.update s.syncing part none } (fromServer part s.doc answer) with
      last := fun k => if k ∈ part.properties ∧ versions k = s.version k then none else s.last k }.setDownload id
      (some ⟨part, .merging⟩)
  | _ => s

/-- No answer arrives. The updates that wait are not run. -/
def fail (s : State) (id : Nat) : State :=
  match s.downloads id with
  | some ⟨_, .fetching⟩ | some ⟨_, .answered _ _⟩ =>
    { s with waiting := Function.update s.waiting id [] }.setDownload id none
  | _ => s

/-- `_syncSettingsFromPendingObject` takes the property out of `_pending`. -/
def State.released (s : State) (k : Str) : Bool :=
  (s.syncing .settings).isNone && k ∈ pendingSettingsPropertyList ||
    (s.syncing .profile).isNone && k ∈ pendingProfilePropertyList

def syncSettingsFromPendingObject (s : State) : State :=
  { s with
    doc := fun k => if s.released k then (s.pending k).getD (s.doc k) else s.doc k
    pending := fun k => if s.released k then none else s.pending k }

def merge (s : State) (id : Nat) : State :=
  match s.downloads id with
  | some ⟨part, .merging⟩ => (syncSettingsFromPendingObject s).setDownload id (some ⟨part, .storing⟩)
  | _ => s

/-- The local storage is updated, and the download is complete. -/
def complete (s : State) (id : Nat) : State :=
  match s.downloads id with
  | some ⟨_, .storing⟩ =>
    (s.waiting id).foldl submit ({ s with waiting := Function.update s.waiting id [] }.setDownload id none)
  | _ => s

/-! ## Runs -/

/-- What happens, in any order. The local storage never fails: its errors are suppressed. -/
inductive Action
  | update (u : Update)
  | syncSettingsDown
  | syncProfileDown
  | stored (id : Nat)
  | send (id : Nat)
  | serverStores (id : Nat)
  | pushAnswered (id : Nat)
  | fetch (id : Nat) (answer : Str → Value)
  | arrive (id : Nat)
  | fail (id : Nat)
  | merge (id : Nat)
  | complete (id : Nat)

def step (s : State) : Action → State
  | .update u => update s u
  | .syncSettingsDown => syncSettingsDown s
  | .syncProfileDown => syncProfileDown s
  | .stored id => stored s id
  | .send id => send s id
  | .serverStores id => serverStores s id
  | .pushAnswered id => pushAnswered s id
  | .fetch id answer => fetch s id answer
  | .arrive id => arrive s id
  | .fail id => fail s id
  | .merge id => merge s id
  | .complete id => complete s id

/-! ## What is relied on -/

namespace State

/-- The download has no answer yet. -/
def Awaits (s : State) (part : Part) (id : Nat) : Prop :=
  s.downloads id = some ⟨part, .fetching⟩ ∨
    ∃ answer versions, s.downloads id = some ⟨part, .answered answer versions⟩

def Done (s : State) : Prop := (∀ id, s.downloads id = none) ∧ ∀ id, s.tasks id = none

/-- A task will push the part up. -/
def Pushes (s : State) (part : Part) (id : Nat) : Prop :=
  s.tasks id = some (.pushing part) ∨ s.tasks id = some (.storing (some part))

end State

structure Synchronised (s : State) : Prop where
  promised : s.promised = true
  /-- A flag is set during a download only. -/
  syncing : ∀ part id, s.syncing part = some id → s.Awaits part id
  /-- What the user has last set is in the document, and it has been pushed up. -/
  kept : s.Done → ∀ part : Part, ∀ k ∈ part.properties, ∀ v, s.last k = some v →
    s.doc k = v ∧ (v ≠ .undefined → s.sentVersion k = s.version k)

/-- An update is made during no download of the settings. It sets properties that are pushed up, and none that has an
older value in `_pending` to which the new one is not added. -/
structure State.MayUpdate (s : State) (u : Update) : Prop where
  syncing : s.syncing .settings = none
  values : ∃ new, u.values s.doc = some new ∧
    (∀ k ∈ pendingSettingsPropertyList, (new k).getD .undefined ≠ .undefined → k ∈ Part.settings.uploaded) ∧
    ∀ k ∈ pendingProfilePropertyList, (new k).isSome → s.pending k = none ∨ (s.syncing .profile).isSome

/-- The answer changes only what the server had when it was fetched, or what waits in `_pending`. -/
def State.MayArrive (s : State) (part : Part) (answer : Str → Value) (versions : Str → Nat) : Prop :=
  ∀ k ∈ part.properties, s.last k ≠ none →
    versions k = s.version k ∨ s.pending k ≠ none ∨ fromServer part s.doc answer k = some (s.doc k)

/-- Nothing of the part waits in `_pending`, or it will be pushed up once more. -/
def State.MaySend (s : State) (part : Part) (id : Nat) : Prop :=
  (∀ k ∈ part.properties, s.pending k = none) ∨ ∃ id', id' ≠ id ∧ s.Pushes part id'

def Undisturbed (s : State) : Action → Prop
  | .update u => s.MayUpdate u
  | .arrive id => ∀ part answer versions, s.downloads id = some ⟨part, .answered answer versions⟩ →
    s.MayArrive part answer versions
  | .fail id => ∀ part, ¬s.Awaits part id
  | .send id => ∀ part, s.tasks id = some (.pushing part) → s.MaySend part id
  | _ => True

/-! ## The invariant -/

structure Base (s : State) : Prop where
  promised : s.promised = true
  waiting : ∀ id, s.waiting id = []
  downloadIds : ∀ id d, s.downloads id = some d → id < s.fresh
  taskIds : ∀ id t, s.tasks id = some t → id < s.fresh
  /-- The download without an answer is the one of the flag. -/
  syncing : ∀ part id, s.syncing part = some id ↔ s.Awaits part id
  /-- Only what a download will take out is in `_pending`. -/
  pending : ∀ k, s.pending k ≠ none → k ∈ pendingProfilePropertyList ∧
    (s.syncing .profile ≠ none ∨ ∃ id, s.downloads id = some ⟨.profile, .merging⟩)
  values : ∀ part : Part, ∀ k ∈ part.properties, ∀ v, s.last k = some v →
    s.pending k = some v ∨ s.pending k = none ∧ s.doc k = v

structure Inv (s : State) : Prop extends Base s where
  /-- What the user has last set has been pushed up, or will be. -/
  pushed : ∀ part : Part, ∀ k ∈ part.properties, ∀ v, s.last k = some v → v ≠ .undefined →
    k ∈ part.uploaded ∧ (s.sentVersion k = s.version k ∨ ∃ id, s.Pushes part id)

theorem start_inv (doc : Str → Value) : Inv (start doc) where
  promised := rfl
  waiting := fun _ => rfl
  downloadIds := by rintro id d ⟨⟩
  taskIds := by rintro id t ⟨⟩
  syncing := by
    intro part id
    constructor
    · rintro ⟨⟩
    · rintro (h | ⟨answer, versions, h⟩) <;> cases h
  pending := fun k h => absurd rfl h
  values := by rintro part k - v ⟨⟩
  pushed := by rintro part k - v ⟨⟩

variable {s : State}

theorem Inv.synchronised (h : Inv s) : Synchronised s where
  promised := h.promised
  syncing := fun part id hid => (h.syncing part id).mp hid
  kept := by
    rintro ⟨hdownloads, htasks⟩ part k hk v hv
    have hpending : s.pending k = none := by
      by_contra hne
      rcases (h.pending k hne).2 with hflag | ⟨id, hid⟩
      · obtain ⟨id, hid⟩ := Option.ne_none_iff_exists'.mp hflag
        rcases (h.syncing .profile id).mp hid with hid | ⟨answer, versions, hid⟩
        · cases (hdownloads id).symm.trans hid
        · cases (hdownloads id).symm.trans hid
      · cases (hdownloads id).symm.trans hid
    constructor
    · rcases h.values part k hk v hv with hp | ⟨-, hdoc⟩
      · cases hpending.symm.trans hp
      · exact hdoc
    · intro hne
      rcases (h.pushed part k hk v hv hne).2 with hsent | ⟨id, hid | hid⟩
      · exact hsent
      · cases (htasks id).symm.trans hid
      · cases (htasks id).symm.trans hid

theorem properties_disjoint {k : Str} (hsettings : k ∈ pendingSettingsPropertyList)
    (hprofile : k ∈ pendingProfilePropertyList) : False := by
  rw [pendingProfilePropertyList, List.mem_singleton] at hprofile
  subst hprofile
  revert hsettings
  decide

/-! ## Tasks -/

theorem tasks_setTask_self (id : Nat) (task : Option Task) : (s.setTask id task).tasks id = task := by
  unfold State.setTask
  exact Function.update_self ..

theorem tasks_setTask_of_ne {id id' : Nat} (h : id' ≠ id) (task : Option Task) :
    (s.setTask id task).tasks id' = s.tasks id' := by
  unfold State.setTask
  exact Function.update_of_ne h ..

theorem Base.setTask (h : Base s) {id : Nat} (hid : id < s.fresh) (task : Option Task) : Base (s.setTask id task) where
  promised := h.promised
  waiting := h.waiting
  downloadIds := h.downloadIds
  taskIds := by
    intro id' t ht
    by_cases heq : id' = id
    · rwa [heq]
    · rw [tasks_setTask_of_ne heq] at ht
      exact h.taskIds id' t ht
  syncing := h.syncing
  pending := h.pending
  values := h.values

theorem Pushes.setTask_of_ne {part : Part} {id id' : Nat} (h : s.Pushes part id') (hne : id' ≠ id)
    (task : Option Task) : (s.setTask id task).Pushes part id' := by
  unfold State.Pushes
  rw [tasks_setTask_of_ne hne]
  exact h

/-- A task changes, and what it will push up it still will. -/
theorem Inv.setTask (h : Inv s) {id : Nat} {old : Task} (hid : s.tasks id = some old) (task : Option Task)
    (hpushes : ∀ part, s.Pushes part id → task = some (.pushing part) ∨ task = some (.storing (some part))) :
    Inv (s.setTask id task) where
  toBase := h.toBase.setTask (h.taskIds id old hid) task
  pushed := by
    intro part k hk v hv hne
    obtain ⟨huploaded, hsent | ⟨id', hpush⟩⟩ := h.pushed part k hk v hv hne
    · exact ⟨huploaded, Or.inl hsent⟩
    · refine ⟨huploaded, Or.inr ⟨id', ?_⟩⟩
      by_cases heq : id' = id
      · subst heq
        unfold State.Pushes
        rw [tasks_setTask_self]
        exact hpushes part hpush
      · exact Pushes.setTask_of_ne hpush heq task

theorem Inv.stored (h : Inv s) (id : Nat) : Inv (stored s id) := by
  unfold Settings.stored
  split
  · next next hid =>
    refine h.setTask hid _ fun part hpush => ?_
    rcases hpush with hpush | hpush
    · cases hid.symm.trans hpush
    · cases hid.symm.trans hpush
      exact Or.inl rfl
  · exact h

theorem Inv.pushAnswered (h : Inv s) (id : Nat) : Inv (pushAnswered s id) := by
  unfold Settings.pushAnswered
  split
  · next part versions hid =>
    refine h.setTask hid _ fun part hpush => ?_
    rcases hpush with hpush | hpush
    · cases hid.symm.trans hpush
    · cases hid.symm.trans hpush
  · exact h

theorem Inv.serverStores (h : Inv s) (id : Nat) : Inv (serverStores s id) := by
  unfold Settings.serverStores
  split
  · exact ⟨⟨h.promised, h.waiting, h.downloadIds, h.taskIds, h.syncing, h.pending, h.values⟩, h.pushed⟩
  · exact h

/-- The version that the user has last set is sent, or waits in `_pending` and will be pushed up once more. -/
theorem Inv.send (h : Inv s) {id : Nat} (hok : ∀ part, s.tasks id = some (.pushing part) → s.MaySend part id) :
    Inv (send s id) := by
  unfold Settings.send
  split
  · next part hid =>
    have hbase := h.toBase.setTask (h.taskIds id _ hid)
    dsimp only
    generalize some (Task.sent part _) = task
    have hb := hbase task
    refine ⟨⟨hb.promised, hb.waiting, hb.downloadIds, hb.taskIds, hb.syncing, hb.pending, hb.values⟩, ?_⟩
    intro part' k hk v hlast hne
    have hv : s.last k = some v := hlast
    obtain ⟨huploaded, hcase⟩ := h.pushed part' k hk v hv hne
    refine ⟨huploaded, ?_⟩
    by_cases hcurrent : k ∈ part.uploaded ∧ s.last k = some (s.doc k)
    · exact Or.inl (if_pos hcurrent)
    · rcases hcase with hsent | ⟨id', hpush⟩
      · exact Or.inl ((if_neg hcurrent).trans hsent)
      · by_cases heq : id' = id
        · -- this push was to carry the version
          subst heq
          have hpart : part' = part := by
            rcases hpush with hpush | hpush
            · cases hid.symm.trans hpush
              rfl
            · cases hid.symm.trans hpush
          subst hpart
          rcases hok part' hid with hnone | ⟨other, hother, hpush'⟩
          · rcases h.values part' k hk v hv with hp | ⟨-, hdoc⟩
            · cases (hnone k hk).symm.trans hp
            · exact absurd ⟨huploaded, by rw [hv, hdoc]⟩ hcurrent
          · exact Or.inr ⟨other, Pushes.setTask_of_ne hpush' hother task⟩
        · exact Or.inr ⟨id', Pushes.setTask_of_ne hpush heq task⟩
  · exact h

theorem Base.addTask (h : Base s) (task : Task) : Base (s.addTask task) where
  promised := h.promised
  waiting := h.waiting
  downloadIds := fun id d hd => Nat.lt_succ_of_lt (h.downloadIds id d hd)
  taskIds := by
    intro id t ht
    by_cases heq : id = s.fresh
    · rw [heq]
      exact Nat.lt_succ_self s.fresh
    · have hold : s.tasks id = some t := (tasks_setTask_of_ne heq (some task)).symm.trans ht
      exact Nat.lt_succ_of_lt (h.taskIds id t hold)
  syncing := h.syncing
  pending := h.pending
  values := h.values

theorem Pushes.addTask {part : Part} {id : Nat} (hpush : s.Pushes part id) (h : Base s) (task : Task) :
    (s.addTask task).Pushes part id := by
  have hne : id ≠ s.fresh := by
    rcases hpush with hpush | hpush
    · exact (h.taskIds id _ hpush).ne
    · exact (h.taskIds id _ hpush).ne
  exact Pushes.setTask_of_ne hpush hne (some task)

theorem pushes_addTask {part : Part} {task : Task} (h : task = .pushing part ∨ task = .storing (some part)) :
    (s.addTask task).Pushes part s.fresh := by
  have hself : (s.addTask task).tasks s.fresh = some task := tasks_setTask_self s.fresh (some task)
  unfold State.Pushes
  rw [hself]
  rcases h with rfl | rfl
  · exact Or.inl rfl
  · exact Or.inr rfl

/-- The tasks of an update push up the parts that it flags, and the other tasks remain. -/
theorem startTasks_spec (h : Base s) (u : Update) : Base (startTasks s u) ∧
    (∀ part, u.flag part = true → ∃ id, (startTasks s u).Pushes part id) ∧
    ∀ part id, s.Pushes part id → (startTasks s u).Pushes part id := by
  unfold startTasks
  cases hsettings : u.flag .settings with
  | true =>
    cases hprofile : u.flag .profile with
    | true =>
      have h1 := h.addTask (.storing none)
      have h2 := h1.addTask (.pushing .settings)
      refine ⟨h2.addTask _, ?_, fun part id hpush => ?_⟩
      · intro part _
        cases part with
        | settings => exact ⟨_, Pushes.addTask (pushes_addTask (Or.inl rfl)) h2 _⟩
        | profile => exact ⟨_, pushes_addTask (Or.inl rfl)⟩
      · exact Pushes.addTask (Pushes.addTask (Pushes.addTask hpush h _) h1 _) h2 _
    | false =>
      refine ⟨h.addTask _, ?_, fun part id hpush => Pushes.addTask hpush h _⟩
      intro part hpart
      cases part with
      | settings => exact ⟨_, pushes_addTask (Or.inr rfl)⟩
      | profile => cases hprofile.symm.trans hpart
  | false =>
    cases hprofile : u.flag .profile with
    | true =>
      refine ⟨h.addTask _, ?_, fun part id hpush => Pushes.addTask hpush h _⟩
      intro part hpart
      cases part with
      | settings => cases hsettings.symm.trans hpart
      | profile => exact ⟨_, pushes_addTask (Or.inr rfl)⟩
    | false =>
      refine ⟨h.addTask _, ?_, fun part id hpush => Pushes.addTask hpush h _⟩
      intro part hpart
      cases part with
      | settings => cases hsettings.symm.trans hpart
      | profile => cases hprofile.symm.trans hpart

@[simp] theorem last_addTask (task : Task) : (s.addTask task).last = s.last := rfl

@[simp] theorem version_addTask (task : Task) : (s.addTask task).version = s.version := rfl

@[simp] theorem sentVersion_addTask (task : Task) : (s.addTask task).sentVersion = s.sentVersion := rfl

theorem startTasks_same (u : Update) : (startTasks s u).last = s.last ∧ (startTasks s u).version = s.version ∧
    (startTasks s u).sentVersion = s.sentVersion := by
  unfold startTasks
  cases u.flag .settings <;> cases u.flag .profile <;> simp

/-! ## Updates -/

theorem flag_of_values {u : Update} {doc : Str → Value} {new : Properties} (hnew : u.values doc = some new)
    {part : Part} {k : Str} (hk : k ∈ part.properties) {v : Value} (hv : new k = some v) (hne : v ≠ .undefined) :
    u.flag part = true := by
  have hglidera : ∀ {transactions}, new = glideraTransactions transactions → part = .settings := by
    rintro transactions rfl
    unfold glideraTransactions at hv
    split at hv
    · next heq =>
      subst heq
      cases part with
      | settings => rfl
      | profile => exact absurd hk (by decide)
    · cases hv
  cases u with
  | updateSettingsUp newSettings =>
    cases hnew
    refine List.any_eq_true.mpr ⟨k, hk, ?_⟩
    rw [hv]
    exact decide_eq_true hne
  | addGlideraTransaction transaction =>
    rw [Update.values] at hnew
    split at hnew
    · exact decide_eq_true (hglidera (Option.some.inj hnew).symm)
    · cases hnew
  | updateGlideraTransactions transactions => exact decide_eq_true (hglidera (Option.some.inj hnew).symm)

/-- What the user sets is in the document, or in `_pending` during a download of the profile. -/
theorem Base.assign (h : Base s) (hsyncing : s.syncing .settings = none) {new : Properties}
    (hprofile : ∀ k ∈ pendingProfilePropertyList, (new k).isSome → s.pending k = none ∨ (s.syncing .profile).isSome) :
    Base ((record s new).assign new) := by
  have hpend : ∀ k, (record s new).toPending k = ((s.syncing .profile).isSome && decide (k ∈ pendingProfilePropertyList)) := by
    intro k
    change ((s.syncing .settings).isSome && _ || _) = _
    rw [hsyncing]
    rfl
  refine ⟨h.promised, h.waiting, h.downloadIds, h.taskIds, h.syncing, ?_, ?_⟩
  · intro k hk
    change (if (record s new).toPending k then (new k).or (s.pending k) else s.pending k) ≠ none at hk
    rw [hpend] at hk
    split at hk
    · next hcond =>
      simp only [Bool.and_eq_true, decide_eq_true_eq] at hcond
      exact ⟨hcond.2, Or.inl (Option.isSome_iff_ne_none.mp hcond.1)⟩
    · exact h.pending k hk
  · intro part k hk v hv
    change (new k).or (s.last k) = some v at hv
    change (if (record s new).toPending k then (new k).or (s.pending k) else s.pending k) = some v ∨
      (if (record s new).toPending k then (new k).or (s.pending k) else s.pending k) = none ∧
        (if (record s new).toPending k then s.doc k else (new k).getD (s.doc k)) = v
    rw [hpend]
    cases hn : new k with
    | none =>
      rw [hn, Option.none_or] at hv
      simp only [Option.none_or, Option.getD_none, ite_self]
      exact h.values part k hk v hv
    | some w =>
      rw [hn, Option.some_or] at hv
      cases hv
      split
      · exact Or.inl rfl
      · next hcond =>
        refine Or.inr ⟨?_, rfl⟩
        simp only [Bool.and_eq_true, decide_eq_true_eq, not_and] at hcond
        cases part with
        | settings =>
          by_contra hne
          exact properties_disjoint hk (h.pending k hne).1
        | profile =>
          rcases hprofile k hk (by rw [hn]; rfl) with hnone | hsome
          · exact hnone
          · exact absurd hk (hcond hsome)

theorem Inv.update (h : Inv s) {u : Update} (hok : s.MayUpdate u) : Inv (update s u) := by
  obtain ⟨hsyncing, new, hnew, huploaded, hprofile⟩ := hok
  unfold Settings.update
  rw [hnew]
  dsimp only
  unfold submit
  have hsame : (record s new).syncing .settings = none := hsyncing
  have hnew' : u.values (record s new).doc = some new := hnew
  rw [hsame, hnew']
  dsimp only
  have hbase : Base ((record s new).assign new) := h.toBase.assign hsyncing hprofile
  obtain ⟨hbase', hflag, hkeep⟩ := startTasks_spec hbase u
  obtain ⟨hlast, hversion, hsent⟩ := startTasks_same (s := (record s new).assign new) u
  refine ⟨hbase', fun part k hk v hv hne => ?_⟩
  rw [hlast] at hv
  rw [hversion, hsent]
  have hv' : (new k).or (s.last k) = some v := hv
  cases hn : new k with
  | none =>
    rw [hn, Option.none_or] at hv'
    obtain ⟨hup, hcase⟩ := h.pushed part k hk v hv' hne
    refine ⟨hup, ?_⟩
    rcases hcase with hold | ⟨id, hpush⟩
    · have hsame : (record s new).version k = s.version k := by
        unfold record
        simp [hn]
      exact Or.inl (hold.trans hsame.symm)
    · exact Or.inr ⟨id, hkeep part id hpush⟩
  | some w =>
    rw [hn, Option.some_or] at hv'
    cases hv'
    refine ⟨?_, Or.inr (hflag part (flag_of_values hnew hk hn hne))⟩
    cases part with
    | settings => exact huploaded k hk (by rw [hn]; exact hne)
    | profile => exact hk

/-! ## Downloads -/

theorem downloads_setDownload_self (id : Nat) (download : Option Download) :
    (s.setDownload id download).downloads id = download := by
  unfold State.setDownload
  exact Function.update_self ..

theorem downloads_setDownload_of_ne {id id' : Nat} (h : id' ≠ id) (download : Option Download) :
    (s.setDownload id download).downloads id' = s.downloads id' := by
  unfold State.setDownload
  exact Function.update_of_ne h ..

theorem Awaits.exists {part : Part} {id : Nat} (h : s.Awaits part id) :
    ∃ stage, s.downloads id = some ⟨part, stage⟩ ∧ stage ≠ .merging ∧ stage ≠ .storing := by
  rcases h with h | ⟨answer, versions, h⟩
  · exact ⟨_, h, by rintro ⟨⟩, by rintro ⟨⟩⟩
  · exact ⟨_, h, by rintro ⟨⟩, by rintro ⟨⟩⟩

/-- A download goes on, is over or begins. What it says of the flags and of `_pending` is as before. -/
theorem Base.download (h : Base s) {id : Nat} (hid : id < s.fresh) (download : Option Download)
    (hsyncing : ∀ part, s.syncing part = some id ↔ (s.setDownload id download).Awaits part id)
    (hmerging : s.downloads id = some ⟨.profile, .merging⟩ → (∀ k, s.pending k = none) ∨ s.syncing .profile ≠ none) :
    Base (s.setDownload id download) where
  promised := h.promised
  waiting := h.waiting
  downloadIds := by
    intro id' d hd
    by_cases heq : id' = id
    · rwa [heq]
    · rw [downloads_setDownload_of_ne heq] at hd
      exact h.downloadIds id' d hd
  taskIds := h.taskIds
  syncing := by
    intro part id'
    by_cases heq : id' = id
    · rw [heq]
      exact hsyncing part
    · have hsame : (s.setDownload id download).Awaits part id' ↔ s.Awaits part id' := by
        unfold State.Awaits
        rw [downloads_setDownload_of_ne heq]
      rw [hsame]
      exact h.syncing part id'
  pending := by
    intro k hk
    obtain ⟨hkey, hwhy⟩ := h.pending k hk
    refine ⟨hkey, ?_⟩
    rcases hwhy with hflag | ⟨id', hid'⟩
    · exact Or.inl hflag
    · by_cases heq : id' = id
      · subst heq
        rcases hmerging hid' with hnone | hflag
        · exact absurd (hnone k) hk
        · exact Or.inl hflag
      · exact Or.inr ⟨id', (downloads_setDownload_of_ne heq download).trans hid'⟩
  values := h.values

theorem Inv.fetch (h : Inv s) (id : Nat) (answer : Str → Value) : Inv (fetch s id answer) := by
  unfold Settings.fetch
  split
  · next part hid =>
    refine ⟨h.toBase.download (h.downloadIds id _ hid) _ (fun part' => ?_) ?_, h.pushed⟩
    · rw [h.syncing part' id]
      unfold State.Awaits
      rw [downloads_setDownload_self, hid]
      constructor
      · rintro (heq | ⟨_, _, heq⟩)
        · cases heq
          exact Or.inr ⟨_, _, rfl⟩
        · cases heq
      · rintro (heq | ⟨_, _, heq⟩)
        · cases heq
        · cases heq
          exact Or.inl rfl
    · intro hmerging
      cases hid.symm.trans hmerging
  · exact h

theorem Inv.fail (h : Inv s) {id : Nat} (hok : ∀ part, ¬s.Awaits part id) : Inv (fail s id) := by
  unfold Settings.fail
  split
  · next part hid => exact absurd (Or.inl hid) (hok part)
  · next part answer versions hid => exact absurd (Or.inr ⟨answer, versions, hid⟩) (hok part)
  · exact h

theorem Inv.syncDown (h : Inv s) (part : Part) : Inv (syncDown part s) := by
  unfold Settings.syncDown
  cases hflag : s.syncing part with
  | some id => exact h
  | none =>
    have hnew : s.downloads s.fresh = none := by
      by_contra hne
      obtain ⟨d, hd⟩ := Option.ne_none_iff_exists'.mp hne
      exact absurd (h.downloadIds s.fresh d hd) (Nat.lt_irrefl _)
    dsimp only
    generalize ht : ({ s.setDownload s.fresh (some ⟨part, .fetching⟩) with
      syncing := Function.update s.syncing part (some s.fresh)
      fresh := s.fresh + 1 } : State) = t
    have hself : t.downloads s.fresh = some ⟨part, .fetching⟩ := by
      rw [← ht]
      exact downloads_setDownload_self ..
    have hother : ∀ id, id ≠ s.fresh → t.downloads id = s.downloads id := by
      intro id hne
      rw [← ht]
      exact downloads_setDownload_of_ne hne _
    have hsyncing : t.syncing = Function.update s.syncing part (some s.fresh) := by rw [← ht]
    refine ⟨⟨by rw [← ht]; exact h.promised, by rw [← ht]; exact h.waiting, ?_, ?_, ?_, ?_, ?_⟩, ?_⟩
    · intro id d hd
      have hfresh : t.fresh = s.fresh + 1 := by rw [← ht]
      by_cases heq : id = s.fresh
      · omega
      · rw [hother id heq] at hd
        have := h.downloadIds id d hd
        omega
    · rw [← ht]
      exact fun id task htask => Nat.lt_succ_of_lt (h.taskIds id task htask)
    · intro part' id
      have hawaits : t.Awaits part' id ↔ if id = s.fresh then part' = part else s.Awaits part' id := by
        unfold State.Awaits
        split
        · next heq =>
          rw [heq, hself]
          constructor
          · rintro (hd | ⟨_, _, hd⟩)
            · cases hd
              rfl
            · cases hd
          · rintro rfl
            exact Or.inl rfl
        · next hne => rw [hother id hne]
      rw [hawaits, hsyncing, Function.update_apply]
      by_cases hpart : part' = part
      · subst hpart
        rw [if_pos rfl]
        by_cases heq : id = s.fresh
        · simp [heq]
        · rw [if_neg heq, ← h.syncing part' id, hflag]
          simp [Ne.symm heq]
      · rw [if_neg hpart, h.syncing part' id]
        by_cases heq : id = s.fresh
        · rw [if_pos heq, heq]
          refine iff_of_false (fun hawait => ?_) hpart
          obtain ⟨stage, hd, -⟩ := Awaits.exists hawait
          cases hnew.symm.trans hd
        · rw [if_neg heq]
    · intro k hk
      have hpending : s.pending k ≠ none := by rwa [← ht] at hk
      obtain ⟨hkey, hwhy⟩ := h.pending k hpending
      refine ⟨hkey, ?_⟩
      rcases hwhy with hwhy | ⟨id, hid⟩
      · refine Or.inl ?_
        rw [hsyncing, Function.update_apply]
        split
        · rintro ⟨⟩
        · exact hwhy
      · have hne : id ≠ s.fresh := by
          rintro rfl
          cases hnew.symm.trans hid
        exact Or.inr ⟨id, (hother id hne).trans hid⟩
    · rw [← ht]
      exact h.values
    · rw [← ht]
      exact h.pushed

theorem mem_of_fromServer {part : Part} {doc answer : Str → Value} {k : Str}
    (h : fromServer part doc answer k ≠ none) : k ∈ part.properties := by
  cases part with
  | settings =>
    by_contra hk
    exact h (if_neg hk)
  | profile =>
    by_contra hk
    exact h (if_neg hk)

theorem assign_fromServer (part : Part) (answer : Str → Value) :
    State.assign { s with syncing := Function.update s.syncing part none } (fromServer part s.doc answer) =
      { s with
        syncing := Function.update s.syncing part none
        doc := fun k => (fromServer part s.doc answer k).getD (s.doc k) } := by
  have hdirect : ∀ k, fromServer part s.doc answer k = none ∨
      State.toPending { s with syncing := Function.update s.syncing part none } k = false := by
    intro k
    by_cases hnone : fromServer part s.doc answer k = none
    · exact Or.inl hnone
    · refine Or.inr ?_
      have hk := mem_of_fromServer hnone
      unfold State.toPending
      cases part with
      | settings =>
        have hprofile : k ∉ pendingProfilePropertyList := fun hp => properties_disjoint hk hp
        simp [hprofile]
      | profile =>
        have hsettings : k ∉ pendingSettingsPropertyList := fun hs => properties_disjoint hs hk
        simp [hsettings]
  unfold State.assign
  congr 1
  · funext k
    rcases hdirect k with hnone | hfalse
    · simp [hnone]
    · rw [hfalse]
      rfl
  · funext k
    rcases hdirect k with hnone | hfalse
    · simp [hnone]
    · rw [hfalse]
      rfl

theorem Inv.arrive (h : Inv s) {id : Nat} (hok : ∀ part answer versions,
    s.downloads id = some ⟨part, .answered answer versions⟩ → s.MayArrive part answer versions) :
    Inv (arrive s id) := by
  unfold Settings.arrive
  split
  · next part answer versions hid =>
    have hmay := hok part answer versions hid
    rw [assign_fromServer]
    generalize ht : State.setDownload _ id (some ⟨part, .merging⟩) = t
    have hself : t.downloads id = some ⟨part, .merging⟩ := by
      rw [← ht]
      exact downloads_setDownload_self ..
    have hother : ∀ id', id' ≠ id → t.downloads id' = s.downloads id' := by
      intro id' hne
      rw [← ht]
      exact downloads_setDownload_of_ne hne _
    have hsyncing : t.syncing = Function.update s.syncing part none := by rw [← ht]; rfl
    have hpending : t.pending = s.pending := by rw [← ht]; rfl
    have hdoc : t.doc = fun k => (fromServer part s.doc answer k).getD (s.doc k) := by rw [← ht]; rfl
    have hlast : t.last = fun k => if k ∈ part.properties ∧ versions k = s.version k then none else s.last k := by
      rw [← ht]; rfl
    have hawaited : s.syncing part = some id :=
      (h.syncing part id).mpr (Or.inr ⟨answer, versions, hid⟩)
    refine ⟨⟨by rw [← ht]; exact h.promised, by rw [← ht]; exact h.waiting, ?_, ?_, ?_, ?_, ?_⟩, ?_⟩
    · intro id' d hd
      have hfresh : t.fresh = s.fresh := by rw [← ht]; rfl
      rw [hfresh]
      by_cases heq : id' = id
      · rw [heq]
        exact h.downloadIds id _ hid
      · rw [hother id' heq] at hd
        exact h.downloadIds id' d hd
    · rw [← ht]
      exact h.taskIds
    · intro part' id'
      rw [hsyncing, Function.update_apply]
      by_cases heq : id' = id
      · subst heq
        have hnot : ¬t.Awaits part' id' := by
          intro hawait
          obtain ⟨stage, hd, hmerging, -⟩ := Awaits.exists hawait
          cases hself.symm.trans hd
          exact hmerging rfl
        refine iff_of_false ?_ hnot
        split
        · rintro ⟨⟩
        · next hne =>
          intro hsome
          rcases (h.syncing part' id').mp hsome with hd | ⟨_, _, hd⟩
          · cases hid.symm.trans hd
          · cases hid.symm.trans hd
            exact hne rfl
      · have hsame : t.Awaits part' id' ↔ s.Awaits part' id' := by
          unfold State.Awaits
          rw [hother id' heq]
        rw [hsame, ← h.syncing part' id']
        split
        · next hpart =>
          subst hpart
          rw [hawaited]
          simp [Ne.symm heq]
        · rfl
    · intro k hk
      rw [hpending] at hk
      obtain ⟨hkey, hwhy⟩ := h.pending k hk
      refine ⟨hkey, ?_⟩
      cases part with
      | profile => exact Or.inr ⟨id, hself⟩
      | settings =>
        rcases hwhy with hflag | ⟨id', hid'⟩
        · rw [hsyncing]
          exact Or.inl hflag
        · refine Or.inr ⟨id', (hother id' ?_).trans hid'⟩
          rintro rfl
          cases hid.symm.trans hid'
    · intro part' k hk v hv
      rw [hlast] at hv
      dsimp only at hv
      rw [hpending, hdoc]
      dsimp only
      split at hv
      · cases hv
      · next hnew =>
        rcases h.values part' k hk v hv with hp | ⟨hnone, hold⟩
        · exact Or.inl hp
        · refine Or.inr ⟨hnone, ?_⟩
          by_cases hkey : k ∈ part.properties
          · rcases hmay k hkey (by rw [hv]; rintro ⟨⟩) with hcovered | hsome | hsame
            · exact absurd ⟨hkey, hcovered⟩ hnew
            · exact absurd hnone hsome
            · rw [hsame]
              exact hold
          · have hnone : fromServer part s.doc answer k = none := by
              by_contra hne
              exact hkey (mem_of_fromServer hne)
            rw [hnone]
            exact hold
    · intro part' k hk v hv hne
      rw [hlast] at hv
      dsimp only at hv
      split at hv
      · cases hv
      · have hpushed := h.pushed part' k hk v hv hne
        rw [← ht]
        exact hpushed
  · exact h

theorem Inv.syncSettingsFromPendingObject (h : Inv s) : Inv (syncSettingsFromPendingObject s) := by
  refine ⟨⟨h.promised, h.waiting, h.downloadIds, h.taskIds, h.syncing, ?_, ?_⟩, h.pushed⟩
  · intro k hk
    have hget : (if s.released k then none else s.pending k) ≠ none := hk
    split at hget
    · exact absurd rfl hget
    · exact h.pending k hget
  · intro part k hk v hv
    change (if s.released k then none else s.pending k) = some v ∨ (if s.released k then none else s.pending k) = none ∧
      (if s.released k then (s.pending k).getD (s.doc k) else s.doc k) = v
    split
    · refine Or.inr ⟨rfl, ?_⟩
      rcases h.values part k hk v hv with hp | ⟨hnone, hold⟩
      · rw [hp]
        rfl
      · rw [hnone]
        exact hold
    · exact h.values part k hk v hv

theorem Inv.merge (h : Inv s) (id : Nat) : Inv (merge s id) := by
  unfold Settings.merge
  split
  · next part hid =>
    have hmerged := h.syncSettingsFromPendingObject
    refine ⟨hmerged.toBase.download (h.downloadIds id _ hid) _ (fun part' => ?_) fun hmerging => ?_, hmerged.pushed⟩
    · rw [hmerged.syncing part' id]
      refine iff_of_false (fun hawait => ?_) fun hawait => ?_
      · obtain ⟨stage, hd, hne, -⟩ := Awaits.exists hawait
        cases hid.symm.trans hd
        exact hne rfl
      · obtain ⟨stage, hd, -, hne⟩ := Awaits.exists hawait
        cases (downloads_setDownload_self ..).symm.trans hd
        exact hne rfl
    · -- with no flag set nothing is left in `_pending`
      by_cases hflag : s.syncing .profile = none
      · refine Or.inl fun k => ?_
        by_contra hne
        have hkey := (hmerged.pending k hne).1
        have hget : (if s.released k then none else s.pending k) ≠ none := hne
        have hreleased : s.released k = true := by
          unfold State.released
          simp [hflag, hkey]
        rw [hreleased] at hget
        exact hget rfl
      · exact Or.inr hflag
  · exact h

theorem Inv.complete (h : Inv s) (id : Nat) : Inv (complete s id) := by
  unfold Settings.complete
  split
  · next part hid =>
    rw [h.waiting id, List.foldl_nil]
    have hsame : ({ s with waiting := Function.update s.waiting id [] } : State) = s := by
      have hupdate : Function.update s.waiting id [] = s.waiting := by
        rw [← h.waiting id, Function.update_eq_self]
      rw [hupdate]
    rw [hsame]
    refine ⟨h.toBase.download (h.downloadIds id _ hid) _ (fun part' => ?_) fun hmerging => ?_, h.pushed⟩
    · rw [h.syncing part' id]
      refine iff_of_false (fun hawait => ?_) fun hawait => ?_
      · obtain ⟨stage, hd, -, hne⟩ := Awaits.exists hawait
        cases hid.symm.trans hd
        exact hne rfl
      · obtain ⟨stage, hd, -⟩ := Awaits.exists hawait
        cases (downloads_setDownload_self ..).symm.trans hd
    · cases hid.symm.trans hmerging
  · exact h

/-! ## Whole runs -/

theorem Inv.step (h : Inv s) {a : Action} (hok : Undisturbed s a) : Inv (step s a) := by
  cases a with
  | update u => exact h.update hok
  | syncSettingsDown => exact h.syncDown .settings
  | syncProfileDown => exact h.syncDown .profile
  | stored id => exact h.stored id
  | send id => exact h.send hok
  | serverStores id => exact h.serverStores id
  | pushAnswered id => exact h.pushAnswered id
  | fetch id answer => exact h.fetch id answer
  | arrive id => exact h.arrive hok
  | fail id => exact h.fail hok
  | merge id => exact h.merge id
  | complete id => exact h.complete id

/-- **Settings.** In an undisturbed run every update returns a promise, and once all is done the document has what the
user has last set, and that has been pushed up. -/
theorem synchronised_of_undisturbed (doc : Str → Value) (actions : List Action)
    (hok : Along step Undisturbed (start doc) actions) : Always step Synchronised (start doc) actions :=
  (always_of_along (fun _ _ h hok => h.step hok) (start_inv doc) hok).mono fun _ h => h.synchronised

/-! ## An update after a download that has failed -/

def languageUpdate : Update :=
  .updateSettingsUp fun k => if k = "language".toList then some (.text "de") else none

def emptyDoc : Str → Value := fun _ => .null

def pictureUpdate : Update :=
  .updateSettingsUp fun k => if k = "profilePic".toList then some (.text "pic") else none

/-- The language is set, and a picture while the profile is downloaded: that waits in `_pending`, and is pushed up once
the download is merged. -/
def languageRun : List Action :=
  [.syncProfileDown, .update languageUpdate, .update pictureUpdate, .stored 1, .fetch 0 fun _ => .null, .send 1,
    .arrive 0, .stored 2, .merge 0, .send 2, .serverStores 2, .complete 0, .serverStores 1, .pushAnswered 2,
    .syncSettingsDown, .fetch 3 fun k => if k = "language".toList then .text "de" else .null, .pushAnswered 1,
    .arrive 3, .merge 3, .complete 3]

theorem languageUpdate_may {s : State} (h : s.syncing .settings = none) : s.MayUpdate languageUpdate := by
  refine ⟨h, _, rfl, ?_, fun k hk hset => ?_⟩
  · intro k hk hset
    by_cases heq : k = "language".toList
    · subst heq
      decide
    · rw [if_neg heq] at hset
      exact absurd rfl hset
  · obtain rfl := List.mem_singleton.mp hk
    exact absurd hset (by decide)

theorem pictureUpdate_may {s : State} (h : s.syncing .settings = none) (hprofile : (s.syncing .profile).isSome) :
    s.MayUpdate pictureUpdate := by
  refine ⟨h, _, rfl, fun k hk hset => ?_, fun k hk hset => Or.inr hprofile⟩
  have hne : k ≠ "profilePic".toList := by
    rintro rfl
    revert hk
    decide
  rw [if_neg hne] at hset
  exact absurd rfl hset

theorem languageRun_synchronised : Always step Synchronised (start emptyDoc) languageRun := by
  refine synchronised_of_undisturbed emptyDoc languageRun
    ⟨trivial, languageUpdate_may rfl, pictureUpdate_may rfl rfl, trivial, trivial, ?_, ?_, trivial, trivial, ?_, trivial,
      trivial, trivial, trivial, trivial, trivial, trivial, ?_, trivial, trivial, trivial⟩
  · intro part hpart
    cases hpart
    unfold State.MaySend
    exact Or.inl (by decide +kernel)
  · intro part answer versions hdownload
    cases hdownload
    unfold State.MayArrive
    decide +kernel
  · intro part hpart
    cases hpart
    unfold State.MaySend
    exact Or.inl (by decide +kernel)
  · intro part answer versions hdownload
    cases hdownload
    unfold State.MayArrive
    decide +kernel

/-- The download of the settings fails. -/
def failedRun : List Action := [.syncSettingsDown, .fail 0, .update languageUpdate]

/-- The update returns no promise and is never made, and no download starts any more. -/
theorem update_lost : (failedRun.foldl step (start emptyDoc)).Done ∧
    (failedRun.foldl step (start emptyDoc)).doc "language" = .null ∧
    ¬Always step Synchronised (start emptyDoc) failedRun := by
  refine ⟨⟨?_, fun id => rfl⟩, rfl, fun h => ?_⟩
  · rintro (_ | id)
    · rfl
    · rfl
  · cases h.last.promised

end Settings

end WebWallet
