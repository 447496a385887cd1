import Mathlib.Logic.Function.Basic
import Blocktrail.Lib.Documents
import Blocktrail.Lib.Runs
import Blocktrail.Lib.Text

/-! # The launch data

Three documents are read through a cache of promises. A store or a clear empties the cache when it begins, and writes
later.
-/

open Documents Runs Text

namespace WebWallet

namespace LaunchService

/-! ## Documents -/

inductive Value
  | undefined
  | null
  | bool (b : Bool)
  | text (t : Str)
deriving DecidableEq

def Value.truthy : Value → Bool
  | .undefined => false
  | .null => false
  | .bool b => b
  | .text t => t ≠ []

/-- `value || null`. -/
def Value.orNull (v : Value) : Value := if v.truthy then v else .null

inductive Record
  | accountInfo
  | walletInfo
  | walletBackup
deriving DecidableEq

/-- The properties of a document. -/
abbrev Doc := Str → Value

def accountInfoDoc (accountInfo doc : Doc) : Doc := fun k =>
  if k ∈ ["username".toList, "email".toList, "api_key".toList, "api_secret".toList, "testnet".toList, "secret".toList] then
    accountInfo k
  else if k = "requires2FA".toList then
    if accountInfo "requires_2fa" ≠ .undefined then accountInfo "requires_2fa" else accountInfo "requires2FA"
  else doc k

def walletInfoDoc (identifier networkType : Str) (doc : Doc) : Doc := fun k =>
  if k = "identifier".toList then .text identifier
  else if k = "networkType".toList then .text networkType
  else doc k

def backupInfoDoc (walletInfo doc : Doc) : Doc := fun k =>
  if k ∈ ["walletVersion".toList, "encryptedPassword".toList] then (walletInfo k).orNull
  else if k ∈ ["identifier".toList, "encryptedPrimarySeed".toList, "backupSeed".toList, "encryptedSecret".toList,
      "recoveryEncryptedSecret".toList, "blocktrailPublicKeys".toList, "supportSecret".toList] then
    walletInfo k
  else doc k

/-! ## States -/

/-- A promise for a document. It is settled when its handlers have run. -/
structure Promise where
  record : Record
  answer : Option (Option Doc)
  settled : Bool

inductive Call
  | storing (record : Record) (change : Doc → Doc)
  | putting (record : Record) (rev : Option Nat) (doc : Doc)
  | clearing (record : Record)
  | removing (record : Record) (rev : Nat)
  | updating (changes : List (Str × Value)) (promise : Nat)

/-- What `determineSetupState` comes to. -/
structure SetupState where
  allowed : List Str
  default : Str
deriving DecidableEq

inductive SetupStage
  | account (promise : Nat)
  | wallet (promise : Nat)
  | backup (promise : Nat)
  | done (state : SetupState)

structure Setup where
  stage : SetupStage
  /-- The account info and the wallet info have been in the database ever since the call. -/
  stored : Bool

/-- The record is removed. -/
def Setup.removed (record : Record) (setup : Setup) : Setup := ⟨setup.stage, setup.stored && record = .walletBackup⟩

structure State where
  storage : Store Record Doc
  cache : Record → Option Nat
  promises : Nat → Option Promise
  calls : Nat → Option Call
  setups : Nat → Option Setup
  fresh : Nat

def start (storage : Store Record Doc) : State := ⟨storage, fun _ => none, fun _ => none, fun _ => none, fun _ => none, 0⟩

namespace State

def setCache (s : State) (record : Record) (promise : Option Nat) : State :=
  { s with cache := Function.update s.cache record promise }

def setPromise (s : State) (id : Nat) (promise : Promise) : State :=
  { s with promises := Function.update s.promises id (some promise) }

def setCall (s : State) (id : Nat) (call : Option Call) : State := { s with calls := Function.update s.calls id call }

def setSetup (s : State) (id : Nat) (setup : Setup) : State :=
  { s with setups := Function.update s.setups id (some setup) }

def has (s : State) (record : Record) : Bool := (s.storage.get record).isSome

end State

/-! ## Reads -/

/-- A new promise is cached. -/
def newPromise (s : State) (record : Record) : State :=
  { (s.setPromise s.fresh ⟨record, none, false⟩).setCache record (some s.fresh) with fresh := s.fresh + 1 }

/-- `getAccountInfo`, `getWalletInfo` and `getBackupInfo`, with the promise that is returned. -/
def getInfo (s : State) (record : Record) (useCached : Bool) : State × Nat :=
  match if useCached then s.cache record else none with
  | some promise => (s, promise)
  | none => (newPromise s record, s.fresh)

/-- The database answers. -/
def answer (s : State) (id : Nat) : State :=
  match s.promises id with
  | some ⟨record, none, settled⟩ =>
    s.setPromise id ⟨record, some ((s.storage.get record).map Prod.snd), settled⟩
  | _ => s

/-- The handlers run. For an account info that is missing they empty the cache. -/
def settle (s : State) (id : Nat) : State :=
  match s.promises id with
  | some ⟨record, some answer, false⟩ =>
    let s := s.setPromise id ⟨record, some answer, true⟩
    if record = .accountInfo ∧ answer.isNone then s.setCache record none else s
  | _ => s

/-! ## Stores, updates and clears -/

def store (s : State) (id : Nat) (record : Record) (change : Doc → Doc) : State :=
  (s.setCache record none).setCall id (some (.storing record change))

def storeAccountInfo (s : State) (id : Nat) (accountInfo : Doc) : State :=
  store s id .accountInfo (accountInfoDoc accountInfo)

def storeWalletInfo (s : State) (id : Nat) (identifier networkType : Str) : State :=
  store s id .walletInfo (walletInfoDoc identifier networkType)

def storeBackupInfo (s : State) (id : Nat) (walletInfo : Doc) : State := store s id .walletBackup (backupInfoDoc walletInfo)

/-- `clearAccountInfo`, `clearWalletInfo` and `clearBackupInfo`. -/
def clear (s : State) (id : Nat) (record : Record) : State :=
  (s.setCache record none).setCall id (some (.clearing record))

def updateAccountInfo (s : State) (id : Nat) (changes : List (Str × Value)) : State :=
  let (s, promise) := getInfo s .accountInfo false
  s.setCall id (some (.updating changes promise))

/-- An update goes on with the account info; it throws without one. -/
def continueUpdate (s : State) (id : Nat) : State :=
  match s.calls id with
  | some (.updating changes promise) =>
    match s.promises promise with
    | some ⟨_, some (some accountInfo), true⟩ =>
      storeAccountInfo s id (changes.foldl (fun doc (k, v) => Function.update doc k v) accountInfo)
    | some ⟨_, some none, true⟩ =>
      if changes = [] then (s.setCache .accountInfo none).setCall id none else s.setCall id none
    | _ => s
  | _ => s

/-- The database answers a store or a clear. -/
def read (s : State) (id : Nat) : State :=
  match s.calls id with
  | some (.storing record change) =>
    let row := s.storage.get record
    s.setCall id (some (.putting record (row.map Prod.fst) (change ((row.map Prod.snd).getD fun _ => .undefined))))
  | some (.clearing record) => s.setCall id ((s.storage.get record).map fun row => .removing record row.1)
  | _ => s

/-- A store or a clear writes, and resolves; a conflict rejects it. -/
def write (s : State) (id : Nat) : State :=
  match s.calls id with
  | some (.putting record rev doc) =>
    match s.storage.put record rev doc with
    | some storage => { s with storage := storage }.setCall id none
    | none => s.setCall id none
  | some (.removing record rev) =>
    match s.storage.remove record rev with
    | some storage =>
      { s with
        storage := storage
        setups := fun id => (s.setups id).map (Setup.removed record) }.setCall id none
    | none => s.setCall id none
  | _ => s

/-! ## The setup state -/

def loginState : SetupState where
  allowed := ["app.setup.verifyEmail", "app.setup.wallet", "app.setup.login", "app.setup.register",
    "app.setup.loggedout", "app.setup.forgotPassword", "app.setup.changePassword"]
  default := "app.setup.login"

def summaryState : SetupState where
  allowed := ["app.wallet", "app.wallet.verifyEmail"]
  default := "app.wallet.summary"

def backupState : SetupState where
  allowed := ["app.setup.walletBackup"]
  default := "app.setup.walletBackup"

def determineSetupState (s : State) (id : Nat) : State :=
  let stored := s.has .accountInfo && s.has .walletInfo
  let (s, promise) := getInfo s .accountInfo true
  s.setSetup id ⟨.account promise, stored⟩

/-- What a promise for a document has come to. -/
def State.result (s : State) (promise : Nat) : Option (Option Doc) :=
  match s.promises promise with
  | some ⟨_, answer, true⟩ => answer
  | _ => none

def continueSetup (s : State) (id : Nat) : State :=
  match s.setups id with
  | some ⟨.account promise, stored⟩ =>
    if (s.result promise).isSome then
      -- a missing account info is no rejection
      let (s, promise) := getInfo s .walletInfo true
      s.setSetup id ⟨.wallet promise, stored⟩
    else s
  | some ⟨.wallet promise, stored⟩ =>
    match s.result promise with
    | some (some _) =>
      let (s, promise) := getInfo s .walletBackup true
      s.setSetup id ⟨.backup promise, stored⟩
    | some none => s.setSetup id ⟨.done loginState, stored⟩
    | none => s
  | some ⟨.backup promise, stored⟩ =>
    match s.result promise with
    | some (some backupInfo) =>
      let bare := ["backupSeed".toList, "encryptedPrimarySeed".toList, "walletVersion".toList].all
        fun k => !(backupInfo k).truthy
      s.setSetup id ⟨.done (if bare then summaryState else backupState), stored⟩
    | some none => s.setSetup id ⟨.done summaryState, stored⟩
    | none => s
  | _ => s

/-! ## Runs -/

/-- What happens, in any order. The calls are numbered. -/
inductive Action
  | getInfo (record : Record) (useCached : Bool)
  | storeAccountInfo (id : Nat) (accountInfo : Doc)
  | storeWalletInfo (id : Nat) (identifier networkType : Str)
  | storeBackupInfo (id : Nat) (walletInfo : Doc)
  | updateAccountInfo (id : Nat) (changes : List (Str × Value))
  | clear (id : Nat) (record : Record)
  | determineSetupState (id : Nat)
  | answer (promise : Nat)
  | settle (promise : Nat)
  | continueUpdate (id : Nat)
  | read (id : Nat)
  | write (id : Nat)
  | continueSetup (id : Nat)

def step (s : State) : Action → State
  | .getInfo record useCached => (getInfo s record useCached).1
  | .storeAccountInfo id accountInfo => storeAccountInfo s id accountInfo
  | .storeWalletInfo id identifier networkType => storeWalletInfo s id identifier networkType
  | .storeBackupInfo id walletInfo => storeBackupInfo s id walletInfo
  | .updateAccountInfo id changes => updateAccountInfo s id changes
  | .clear id record => clear s id record
  | .determineSetupState id => determineSetupState s id
  | .answer promise => answer s promise
  | .settle promise => settle s promise
  | .continueUpdate id => continueUpdate s id
  | .read id => read s id
  | .write id => write s id
  | .continueSetup id => continueSetup s id

/-! ## What is relied on -/

/-- What has been read for the cached promise. -/
def State.Cached (s : State) (record : Record) (answer : Option Doc) : Prop :=
  ∃ id promise, s.cache record = some id ∧ s.promises id = some promise ∧ promise.answer = some answer

structure Coherent (s : State) : Prop where
  cached : ∀ record answer, s.Cached record answer → answer = (s.storage.get record).map Prod.snd
  setups : ∀ id stored, s.setups id = some ⟨.done loginState, stored⟩ → stored = false

/-- No other value than the one that is to be written has been read into the cache. -/
def State.MayWrite (s : State) (id : Nat) : Prop :=
  match s.calls id with
  | some (.putting record rev doc) =>
    rev = s.storage.revision record → ∀ answer, s.Cached record answer → answer = some doc
  | some (.removing record rev) =>
    some rev = s.storage.revision record → ∀ answer, s.Cached record answer → answer = none
  | _ => True

def Undisturbed (s : State) : Action → Prop
  | .write id => s.MayWrite id
  | _ => True

/-! ## The invariant -/

structure Inv (s : State) : Prop where
  cached : ∀ record answer, s.Cached record answer → answer = (s.storage.get record).map Prod.snd
  /-- The cache has promises for its records. -/
  records : ∀ record id, s.cache record = some id → ∃ promise, s.promises id = some promise ∧ promise.record = record
  ids : ∀ id promise, s.promises id = some promise → id < s.fresh
  stored : ∀ id setup, s.setups id = some setup → setup.stored = true →
    s.has .accountInfo = true ∧ s.has .walletInfo = true
  /-- A setup that waits for the wallet info will have it. -/
  wallet : ∀ id promise, s.setups id = some ⟨.wallet promise, true⟩ →
    ∃ p, s.promises promise = some p ∧ p.record = .walletInfo ∧ p.answer ≠ some none
  done : ∀ id stored, s.setups id = some ⟨.done loginState, stored⟩ → stored = false

theorem start_inv (storage : Store Record Doc) : Inv (start storage) where
  cached := by rintro record answer ⟨id, promise, ⟨⟩, -⟩
  records := by rintro record id ⟨⟩
  ids := by rintro id promise ⟨⟩
  stored := by rintro id setup ⟨⟩
  wallet := by rintro id promise ⟨⟩
  done := by rintro id stored ⟨⟩

variable {s : State}

theorem Inv.coherent (h : Inv s) : Coherent s := ⟨h.cached, h.done⟩

/-! ## Calls and the cache -/

theorem Inv.setCall (h : Inv s) (id : Nat) (call : Option Call) : Inv (s.setCall id call) :=
  ⟨h.cached, h.records, h.ids, h.stored, h.wallet, h.done⟩

theorem Inv.clearCache (h : Inv s) (record : Record) : Inv (s.setCache record none) := by
  have hcache : ∀ record' id, (s.setCache record none).cache record' = some id → s.cache record' = some id := by
    intro record' id hid
    have hget : Function.update s.cache record none record' = some id := hid
    rw [Function.update_apply] at hget
    split at hget
    · cases hget
    · exact hget
  refine ⟨?_, ?_, h.ids, h.stored, h.wallet, h.done⟩
  · rintro record' answer ⟨id, promise, hid, hpromise⟩
    exact h.cached record' answer ⟨id, promise, hcache record' id hid, hpromise⟩
  · exact fun record' id hid => h.records record' id (hcache record' id hid)

theorem Inv.store (h : Inv s) (id : Nat) (record : Record) (change : Doc → Doc) : Inv (store s id record change) :=
  (h.clearCache record).setCall id _

theorem Inv.clear (h : Inv s) (id : Nat) (record : Record) : Inv (clear s id record) :=
  (h.clearCache record).setCall id _

theorem Inv.read (h : Inv s) (id : Nat) : Inv (read s id) := by
  unfold LaunchService.read
  split
  · exact h.setCall id _
  · exact h.setCall id _
  · exact h

/-! ## Promises -/

theorem promises_setPromise (id id' : Nat) (promise : Promise) :
    (s.setPromise id promise).promises id' = if id' = id then some promise else s.promises id' := by
  unfold State.setPromise
  exact Function.update_apply ..

theorem Inv.setPromise (h : Inv s) {id : Nat} {record : Record} {old new : Option (Option Doc)} {before after : Bool}
    (hid : s.promises id = some ⟨record, old, before⟩)
    (hnew : new = old ∨ new = some ((s.storage.get record).map Prod.snd)) :
    Inv (s.setPromise id ⟨record, new, after⟩) := by
  refine ⟨?_, ?_, ?_, h.stored, ?_, h.done⟩
  · rintro record' answer ⟨id', promise, hcache, hpromise, hanswer⟩
    rw [promises_setPromise] at hpromise
    by_cases heq : id' = id
    · subst heq
      rw [if_pos rfl] at hpromise
      obtain ⟨p, hp, hrecord⟩ := h.records record' id' hcache
      cases hid.symm.trans hp
      cases hpromise
      have hrecord : record = record' := hrecord
      subst hrecord
      rcases hnew with hnew | hnew
      · exact h.cached record answer ⟨id', _, hcache, hid, hnew.symm.trans hanswer⟩
      · exact Option.some.inj (hanswer.symm.trans hnew)
    · rw [if_neg heq] at hpromise
      exact h.cached record' answer ⟨id', promise, hcache, hpromise, hanswer⟩
  · intro record' id' hcache
    rw [promises_setPromise]
    split
    · next heq =>
      subst heq
      obtain ⟨p, hp, hrecord⟩ := h.records record' id' hcache
      cases hid.symm.trans hp
      exact ⟨_, rfl, hrecord⟩
    · exact h.records record' id' hcache
  · intro id' promise hpromise
    rw [promises_setPromise] at hpromise
    split at hpromise
    · next heq => exact heq ▸ h.ids id _ hid
    · exact h.ids id' promise hpromise
  · intro setup id' hsetup
    obtain ⟨p, hp, hrecord, hanswer⟩ := h.wallet setup id' hsetup
    rw [promises_setPromise]
    split
    · next heq =>
      subst heq
      cases hid.symm.trans hp
      refine ⟨_, rfl, hrecord, ?_⟩
      rcases hnew with rfl | rfl
      · exact hanswer
      · intro hnone
        have hhas := (h.stored setup _ hsetup rfl).2
        have hrecord : record = .walletInfo := hrecord
        subst hrecord
        unfold State.has at hhas
        have hmap : (s.storage.get .walletInfo).map Prod.snd = none := Option.some.inj hnone
        rw [Option.map_eq_none_iff.mp hmap] at hhas
        cases hhas
    · exact ⟨p, hp, hrecord, hanswer⟩

theorem Inv.answer (h : Inv s) (id : Nat) : Inv (answer s id) := by
  unfold LaunchService.answer
  split
  · next record settled hid => exact h.setPromise hid (Or.inr rfl)
  · exact h

theorem Inv.settle (h : Inv s) (id : Nat) : Inv (settle s id) := by
  unfold LaunchService.settle
  split
  · next record answer hid =>
    have hinv : Inv (s.setPromise id ⟨record, some answer, true⟩) := h.setPromise hid (Or.inl rfl)
    dsimp only
    split
    · exact hinv.clearCache record
    · exact hinv
  · exact h

theorem Inv.newPromise (h : Inv s) (record : Record) : Inv (newPromise s record) ∧
    (newPromise s record).promises s.fresh = some ⟨record, none, false⟩ := by
  generalize ht : LaunchService.newPromise s record = t
  have hpromises : ∀ id, t.promises id = if id = s.fresh then some ⟨record, none, false⟩ else s.promises id := by
    intro id
    rw [← ht]
    exact promises_setPromise ..
  have hcache : ∀ record', t.cache record' = if record' = record then some s.fresh else s.cache record' := by
    intro record'
    rw [← ht]
    exact Function.update_apply ..
  have hstorage : t.storage = s.storage := by rw [← ht]; rfl
  have hsetups : t.setups = s.setups := by rw [← ht]; rfl
  have hself : t.promises s.fresh = some ⟨record, none, false⟩ := by rw [hpromises, if_pos rfl]
  have hold : ∀ id promise, s.promises id = some promise → t.promises id = some promise := by
    intro id promise hid
    rw [hpromises, if_neg (h.ids id promise hid).ne, hid]
  refine ⟨⟨?_, ?_, ?_, ?_, ?_, ?_⟩, hself⟩
  · rintro record' answer ⟨id, promise, hid, hpromise, hanswer⟩
    rw [hstorage]
    rw [hcache] at hid
    split at hid
    · cases hid
      cases hself.symm.trans hpromise
      cases hanswer
    · obtain ⟨p, hp, -⟩ := h.records record' id hid
      cases (hold id p hp).symm.trans hpromise
      exact h.cached record' answer ⟨id, _, hid, hp, hanswer⟩
  · intro record' id hid
    rw [hcache] at hid
    split at hid
    · next heq =>
      cases hid
      exact ⟨_, hself, heq.symm⟩
    · obtain ⟨p, hp, hrecord⟩ := h.records record' id hid
      exact ⟨p, hold id p hp, hrecord⟩
  · intro id promise hid
    have hfresh : t.fresh = s.fresh + 1 := by rw [← ht]; rfl
    rw [hpromises] at hid
    split at hid
    · omega
    · have := h.ids id promise hid
      omega
  · intro id setup hsetup hstored
    rw [hsetups] at hsetup
    unfold State.has
    rw [hstorage]
    exact h.stored id setup hsetup hstored
  · intro id promise hsetup
    rw [hsetups] at hsetup
    obtain ⟨p, hp, hrest⟩ := h.wallet id promise hsetup
    exact ⟨p, hold promise p hp, hrest⟩
  · rw [hsetups]
    exact h.done

theorem getInfo_spec (h : Inv s) (record : Record) (useCached : Bool) :
    Inv (getInfo s record useCached).1 ∧ (getInfo s record useCached).1.storage = s.storage ∧
      (getInfo s record useCached).1.setups = s.setups ∧
      ∃ p, (getInfo s record useCached).1.promises (getInfo s record useCached).2 = some p ∧ p.record = record ∧
        ∀ answer, p.answer = some answer → answer = (s.storage.get record).map Prod.snd := by
  unfold getInfo
  split
  · next promise hcached =>
    have hcache : s.cache record = some promise := by
      cases useCached with
      | false => cases hcached
      | true => exact hcached
    obtain ⟨p, hp, hrecord⟩ := h.records record promise hcache
    exact ⟨h, rfl, rfl, p, hp, hrecord, fun answer hanswer => h.cached record answer ⟨promise, p, hcache, hp, hanswer⟩⟩
  · obtain ⟨hinv, hself⟩ := h.newPromise record
    exact ⟨hinv, rfl, rfl, _, hself, rfl, by rintro answer ⟨⟩⟩

theorem Inv.updateAccountInfo (h : Inv s) (id : Nat) (changes : List (Str × Value)) :
    Inv (updateAccountInfo s id changes) :=
  (getInfo_spec h .accountInfo false).1.setCall id _

theorem Inv.continueUpdate (h : Inv s) (id : Nat) : Inv (continueUpdate s id) := by
  unfold LaunchService.continueUpdate
  split
  · split
    · exact h.store id .accountInfo _
    · split
      · exact (h.clearCache .accountInfo).setCall id _
      · exact h.setCall id _
    · exact h
  · exact h

/-! ## Setups -/

theorem Inv.setSetup (h : Inv s) (id : Nat) {setup : Setup}
    (hstored : setup.stored = true → s.has .accountInfo = true ∧ s.has .walletInfo = true)
    (hwallet : ∀ promise, setup = ⟨.wallet promise, true⟩ →
      ∃ p, s.promises promise = some p ∧ p.record = .walletInfo ∧ p.answer ≠ some none)
    (hdone : ∀ stored, setup = ⟨.done loginState, stored⟩ → stored = false) : Inv (s.setSetup id setup) := by
  have hsetups : ∀ id', (s.setSetup id setup).setups id' = if id' = id then some setup else s.setups id' := by
    intro id'
    unfold State.setSetup
    exact Function.update_apply ..
  refine ⟨h.cached, h.records, h.ids, ?_, ?_, ?_⟩
  · intro id' setup' hsetup
    rw [hsetups] at hsetup
    split at hsetup
    · cases hsetup
      exact hstored
    · exact h.stored id' setup' hsetup
  · intro id' promise hsetup
    rw [hsetups] at hsetup
    split at hsetup
    · exact hwallet promise (Option.some.inj hsetup)
    · exact h.wallet id' promise hsetup
  · intro id' stored hsetup
    rw [hsetups] at hsetup
    split at hsetup
    · exact hdone stored (Option.some.inj hsetup)
    · exact h.done id' stored hsetup

theorem summaryState_ne : summaryState ≠ loginState := by decide

theorem backupState_ne : backupState ≠ loginState := by decide

theorem Inv.determineSetupState (h : Inv s) (id : Nat) : Inv (determineSetupState s id) := by
  obtain ⟨hinv, hstorage, -⟩ := getInfo_spec h .accountInfo true
  refine hinv.setSetup id (fun hstored => ?_) (by rintro promise ⟨⟩) (by rintro stored ⟨⟩)
  unfold State.has
  rw [hstorage]
  exact Bool.and_eq_true_iff.mp hstored

theorem Inv.continueSetup (h : Inv s) (id : Nat) : Inv (continueSetup s id) := by
  unfold LaunchService.continueSetup
  split
  · next promise stored hid =>
    split
    · obtain ⟨hinv, hstorage, -, p, hp, hrecord, hanswer⟩ := getInfo_spec h .walletInfo true
      have hhas : stored = true → s.has .accountInfo = true ∧ s.has .walletInfo = true := h.stored id _ hid
      refine hinv.setSetup id ?_ ?_ (by rintro stored ⟨⟩)
      · unfold State.has
        rw [hstorage]
        exact hhas
      · rintro promise' heq
        cases heq
        refine ⟨p, hp, hrecord, fun hnone => ?_⟩
        have hmissing := hanswer none hnone
        have hwallet := (hhas rfl).2
        unfold State.has at hwallet
        rw [Option.map_eq_none_iff.mp hmissing.symm] at hwallet
        cases hwallet
    · exact h
  · next promise stored hid =>
    have hhas : stored = true → s.has .accountInfo = true ∧ s.has .walletInfo = true := h.stored id _ hid
    split
    · obtain ⟨hinv, hstorage, -⟩ := getInfo_spec h .walletBackup true
      refine hinv.setSetup id ?_ (by rintro promise ⟨⟩) (by rintro stored ⟨⟩)
      unfold State.has
      rw [hstorage]
      exact hhas
    · next hresult =>
      -- the wallet info is missing: it was not there all along
      refine h.setSetup id hhas (by rintro promise ⟨⟩) ?_
      rintro stored' heq
      cases heq
      cases stored with
      | false => rfl
      | true =>
        obtain ⟨p, hp, -, hanswer⟩ := h.wallet id promise hid
        unfold State.result at hresult
        rw [hp] at hresult
        obtain ⟨record, answer, settled⟩ := p
        cases settled with
        | false => cases hresult
        | true => exact absurd hresult hanswer
    · exact h
  · next promise stored hid =>
    have hhas : stored = true → s.has .accountInfo = true ∧ s.has .walletInfo = true := h.stored id _ hid
    have hdone : ∀ {state}, state ≠ loginState → Inv (s.setSetup id ⟨.done state, stored⟩) := by
      intro state hne
      refine h.setSetup id hhas (by rintro promise ⟨⟩) fun stored' heq => ?_
      exact absurd (SetupStage.done.inj (Setup.mk.inj heq).1) hne
    split
    · refine hdone ?_
      split
      · exact summaryState_ne
      · exact backupState_ne
    · exact hdone summaryState_ne
    · exact h
  · exact h

/-! ## Writes -/

theorem has_write (record : Record) (doc : Doc) {record' : Record} (h : s.has record' = true) :
    ((s.storage.write record doc).get record').isSome = true := by
  rw [Store.get_write]
  split
  · rfl
  · exact h

theorem Inv.write (h : Inv s) {id : Nat} (hok : s.MayWrite id) : Inv (write s id) := by
  unfold State.MayWrite at hok
  unfold LaunchService.write
  split
  · next record rev doc hid =>
    rw [hid] at hok
    split
    · next storage hput =>
      obtain ⟨hrev, rfl⟩ := Store.put_eq_some.mp hput
      suffices hinv : Inv { s with storage := s.storage.write record doc } from hinv.setCall id none
      refine ⟨?_, h.records, h.ids, ?_, h.wallet, h.done⟩
      · intro record' answer hcached
        by_cases heq : record' = record
        · subst heq
          rw [hok hrev answer hcached]
          simp
        · rw [h.cached record' answer hcached]
          exact congrArg (Option.map Prod.snd) (Store.get_write_of_ne s.storage heq doc).symm
      · intro id' setup hsetup hstored
        obtain ⟨haccount, hwallet⟩ := h.stored id' setup hsetup hstored
        exact ⟨has_write record doc haccount, has_write record doc hwallet⟩
    · exact h.setCall id none
  · next record rev hid =>
    rw [hid] at hok
    split
    · next storage hremove =>
      obtain ⟨hrev, rfl⟩ := Store.remove_eq_some.mp hremove
      have hsetup : ∀ {id' stage}, ((s.setups id').map (Setup.removed record)) = some ⟨stage, true⟩ →
          s.setups id' = some ⟨stage, true⟩ ∧ record = .walletBackup := by
        intro id' stage hmap
        obtain ⟨⟨stage', stored⟩, hold, heq⟩ := Option.map_eq_some_iff.mp hmap
        obtain ⟨hstage, hstored⟩ := Setup.mk.inj heq
        have hstage : stage' = stage := hstage
        obtain ⟨hstored, hrecord⟩ := Bool.and_eq_true_iff.mp hstored
        have hstored : stored = true := hstored
        subst hstage hstored
        exact ⟨hold, of_decide_eq_true hrecord⟩
      suffices hinv : Inv { s with
          storage := s.storage.erase record
          setups := fun id => (s.setups id).map (Setup.removed record) } from hinv.setCall id none
      refine ⟨?_, h.records, h.ids, ?_, ?_, ?_⟩
      · intro record' answer hcached
        dsimp only
        rw [Store.get_erase]
        split
        · next heq =>
          subst heq
          rw [hok hrev answer hcached]
          rfl
        · exact h.cached record' answer hcached
      · rintro id' ⟨stage, stored⟩ hmap hstored
        have hstored : stored = true := hstored
        subst hstored
        obtain ⟨hold, rfl⟩ := hsetup hmap
        obtain ⟨haccount, hwallet⟩ := h.stored id' _ hold rfl
        unfold State.has
        dsimp only
        rw [Store.get_erase, Store.get_erase, if_neg (by rintro ⟨⟩), if_neg (by rintro ⟨⟩)]
        exact ⟨haccount, hwallet⟩
      · intro id' promise hmap
        exact h.wallet id' promise (hsetup hmap).1
      · intro id' stored hmap
        cases stored with
        | false => rfl
        | true => exact h.done id' true (hsetup hmap).1
    · exact h.setCall id none
  · exact h

theorem Inv.step (h : Inv s) {a : Action} (hok : Undisturbed s a) : Inv (step s a) := by
  cases a with
  | getInfo record useCached => exact (getInfo_spec h record useCached).1
  | storeAccountInfo id accountInfo => exact h.store id .accountInfo _
  | storeWalletInfo id identifier networkType => exact h.store id .walletInfo _
  | storeBackupInfo id walletInfo => exact h.store id .walletBackup _
  | updateAccountInfo id changes => exact h.updateAccountInfo id changes
  | clear id record => exact h.clear id record
  | determineSetupState id => exact h.determineSetupState id
  | answer promise => exact h.answer promise
  | settle promise => exact h.settle promise
  | continueUpdate id => exact h.continueUpdate id
  | read id => exact h.read id
  | write id => exact h.write hok
  | continueSetup id => exact h.continueSetup id

/-- A write that leaves an older value in the cache makes it stale. -/
theorem undisturbed_of_coherent {a : Action} (h : Coherent (step s a)) : Undisturbed s a := by
  cases a with
  | write id =>
    have hwrite : Coherent (write s id) := h
    unfold write at hwrite
    change s.MayWrite id
    unfold State.MayWrite
    split
    · next record rev doc hid =>
      intro hrev answer hcached
      rw [hid, hrev] at hwrite
      dsimp only at hwrite
      rw [Store.put_revision] at hwrite
      rw [hwrite.cached record answer hcached]
      exact congrArg (Option.map Prod.snd) (Store.get_write_self s.storage record doc)
    · next record rev hid =>
      intro hrev answer hcached
      rw [hid] at hwrite
      dsimp only at hwrite
      rw [Store.remove_eq_some.mpr ⟨hrev, rfl⟩] at hwrite
      rw [hwrite.cached record answer hcached]
      have hget : (s.storage.erase record).get record = none := by
        rw [Store.get_erase, if_pos rfl]
      exact congrArg (Option.map Prod.snd) hget
    · trivial
  | getInfo record useCached => trivial
  | storeAccountInfo id accountInfo => trivial
  | storeWalletInfo id identifier networkType => trivial
  | storeBackupInfo id walletInfo => trivial
  | updateAccountInfo id changes => trivial
  | clear id record => trivial
  | determineSetupState id => trivial
  | answer promise => trivial
  | settle promise => trivial
  | continueUpdate id => trivial
  | read id => trivial
  | continueSetup id => trivial

/-- **Launch data.** The cache has what is stored, and with the account and the wallet stored nobody is sent to the
login, in the runs whose operations write undisturbed and in no others. -/
theorem coherent_iff (storage : Store Record Doc) (actions : List Action) :
    Always step Coherent (start storage) actions ↔ Along step Undisturbed (start storage) actions :=
  always_iff_along_of_inv (fun _ h => h.coherent) (fun _ _ h hok => h.step hok)
    (fun _ _ _ hcoherent => undisturbed_of_coherent hcoherent) (start_inv storage)

/-! ## A read between -/

/-- The account info is stored. While the wallet info is stored, it is read, and the read is answered before the write. -/
def betweenRun : List Action :=
  [.storeAccountInfo 0 fun _ => .undefined, .read 0, .write 0,
    .storeWalletInfo 1 "w" "BTC", .getInfo .walletInfo true, .answer 0, .settle 0, .read 1, .write 1]

/-- The setup state is determined afterwards. -/
def setupRun : List Action :=
  [.determineSetupState 0, .answer 1, .settle 1, .continueSetup 0, .continueSetup 0]

/-- The cache has that there is no wallet info, and the user is sent to the login. -/
theorem sent_to_login : (betweenRun.foldl step (start Store.empty)).has .walletInfo = true ∧
    ((betweenRun ++ setupRun).foldl step (start Store.empty)).setups 0 = some ⟨.done loginState, true⟩ ∧
    ¬Always step Coherent (start Store.empty) (betweenRun ++ setupRun) := by
  have hlogin : ((betweenRun ++ setupRun).foldl step (start Store.empty)).setups 0 = some ⟨.done loginState, true⟩ := rfl
  refine ⟨by decide +kernel, hlogin, fun h => ?_⟩
  cases h.last.setups 0 true hlogin

end LaunchService

end WebWallet
