import Blocktrail.MobileWallet.PinStorage

/-! # The setup of the wallet, from the PIN form

The wallet is opened or created, its secret is stored under the PIN, and the next step of the setup is shown. A wrong
password is to be asked for again, by a setup within the setup.
-/

open Assoc Text Throwing Bitcoin JsSdk

namespace MobileWallet

namespace WalletPin

/-! ## The phone -/

inductive Screen
  | backup
  | profile
  | summary
  | reset
deriving DecidableEq

/-- What the setup uses of a wallet of the SDK. -/
structure Wallet where
  walletVersion : WalletVersion
  secret : Option Data

structure BackupInfo where
  walletVersion : WalletVersion
  encryptedPrimarySeed : Option Str
  backupSeed : Option Str
  encryptedSecret : Option Str
  recoveryEncryptedSecret : Option Str
  blocktrailPublicKeys : List (Nat × Str)

/-- `setupInfoService` -/
structure SetupInfo where
  identifier : Str
  password : Option Str
  networkType : Option Str
  backupInfo : Option BackupInfo
  supportSecret : Option Str

structure WalletBackup where
  identifier : Str
  backupInfo : BackupInfo
  supportSecret : Str

structure Form where
  pin : Str
  pinRepeat : Str

structure Phone where
  form : Form
  isFormSubmit : Bool
  setupInfo : SetupInfo
  /-- The stashed secret. -/
  walletSecret : Option Str
  /-- The records of the storage. -/
  walletInfo : PinStorage.WalletInfo
  walletBackup : Option WalletBackup
  INITIAL_PIN_DONE : Bool
  /-- The screens that the setup has gone to. -/
  screens : List Screen

/-- `$scope.setupInfo`, with its `identifier`. -/
structure Scope where
  setupInfo : Option Str

/-- The scope of the form. Neither the controller nor a scope around it sets `setupInfo`. -/
def scope : Scope := ⟨none⟩

/-! ## Answers -/

/-- What a run of `initWallet` is answered. -/
structure Attempt where
  getAccountInfo : Except JsError Unit
  initWallet : Except JsError Wallet
  /-- The new secret. -/
  upgradeToV3 : Except JsError Data
  supportSecret : Str
  createNewWallet : Except JsError (Wallet × BackupInfo)
  /-- The results of the dialogs for the password. -/
  dialogs : List (Option Str)
  setMainMobileWallet : Except JsError Unit
  aesSalt : Bytes
  setWalletInfo : Except JsError Unit
  setWalletBackup : Except JsError Unit
  /-- The identifier that the setup info is reset to. -/
  freshIdentifier : Str
  /-- The backup record and the settings are read: whether there is a profile picture. -/
  toNextStep : Except JsError Bool

inductive Thrown
  | cancelled
  | error (e : JsError)

/-- A setup waits where an answer has not come. -/
inductive Stop
  | waiting
  | thrown (e : Thrown)

/-- What a promise of the setup resolves with. -/
inductive Value
  | wallet (w : Wallet)
  | no
  | undefined

abbrev Setup (α : Type) := Prog Stop Phone α

def await {α : Type} : Except JsError α → Setup α
  | .ok a => pure a
  | .error e => throw (.thrown (.error e))

/-- `promise.then(success, error)` -/
def thenOr {α β : Type} (m : Setup α) (success : α → Setup β) (error : Thrown → Setup β) : Setup β := do
  match ← settled m with
  | .ok a => success a
  | .error (.thrown e) => error e
  | .error .waiting => throw .waiting

/-! ## The steps -/

def sdkInitWallet (a : Attempt) : Setup Wallet := do
  await a.getAccountInfo
  await a.initWallet

def initWalletSuccessHandler (a : Attempt) (wallet : Wallet) : Setup Value :=
  if wallet.walletVersion ≠ .v3 then do
    let secret ← await a.upgradeToV3
    pure (.wallet ⟨.v3, some secret⟩)
  else pure (.wallet wallet)

def isNotFound (e : JsError) : Bool :=
  decide ("not found".toList <:+: e.message) || decide ("couldn't be found".toList <:+: e.message)

def isPassword (e : JsError) : Bool :=
  e.message ≠ [] && (decide ("password".toList <:+: e.message) || e.name = "WalletDecryptError".toList)

inductive Prompted
  | waiting
  | cancelled
  | password (password : Str)

/-- A blank password is asked for again. -/
def promptWalletPassword : List (Option Str) → Prompted
  | [] => .waiting
  | none :: _ => .cancelled
  | some dialogResult :: dialogs =>
    if trim dialogResult = [] then promptWalletPassword dialogs else .password (trim dialogResult)

/-- `initWallet` is the setup that starts again with the password that is asked for. -/
def initWalletErrorHandler (scope : Scope) (a : Attempt) (initWallet : Setup Value) : Thrown → Setup Value
  | .cancelled => throw (.thrown .cancelled)
  | .error e =>
    if isNotFound e then do
      let (wallet, backupInfo) ← await a.createNewWallet
      modify fun s => { s with setupInfo := { s.setupInfo with
        backupInfo := some backupInfo, supportSecret := some a.supportSecret } }
      pure (.wallet wallet)
    else if isPassword e then
      match scope.setupInfo with
      -- The text that is logged reads the identifier.
      | none => throw (.thrown (.error ⟨"TypeError", "Cannot read property 'identifier' of undefined"⟩))
      | some _ =>
        match promptWalletPassword a.dialogs with
        | .waiting => throw .waiting
        | .cancelled => throw (.thrown .cancelled)
        | .password password => do
          modify fun s => { s with setupInfo := { s.setupInfo with password := some password } }
          initWallet
    else throw (.thrown (.error e))

def stashWalletSecret : Value → Setup Wallet
  | .wallet wallet => do
    let secretHex ← await (PinStorage.secretHex wallet.secret)
    modify fun s => { s with walletSecret := some secretHex }
    pure wallet
  | .no => throw (.thrown (.error ⟨"TypeError", "Cannot read property 'toString' of undefined"⟩))
  | .undefined => throw (.thrown (.error ⟨"TypeError", "Cannot read property 'secret' of undefined"⟩))

def setSdkMainMobileWallet (a : Attempt) (wallet : Wallet) : Setup Wallet := do
  await a.setMainMobileWallet
  pure wallet

def walletInfoOf (setupInfo : SetupInfo) (encryptedSecret : Str) : PinStorage.WalletInfo :=
  ((Object.empty.set .identifier (some setupInfo.identifier)).set .networkType setupInfo.networkType).set
    .encryptedSecret (some encryptedSecret)

variable {Node : Type}

def setWalletInfo (p : Platform Node) (a : Attempt) (wallet : Wallet) : Setup Wallet := do
  let secretHex ← await (PinStorage.secretHex wallet.secret)
  let encryptedSecret ← await (PinStorage.encryptWithPin p (some secretHex) (← get).form.pin a.aesSalt)
  await a.setWalletInfo
  modify fun s => { s with walletInfo := s.walletInfo.assign (walletInfoOf s.setupInfo encryptedSecret) }
  pure wallet

def lockWallet (wallet : Wallet) : Setup Wallet := pure { wallet with secret := none }

def setWalletBackup (a : Attempt) : Setup Unit := do
  let s ← get
  match s.setupInfo.backupInfo, s.setupInfo.supportSecret with
  | some backupInfo, some supportSecret =>
    if supportSecret = [] then pure ()
    else do
      await a.setWalletBackup
      modify fun s => { s with walletBackup := some ⟨s.setupInfo.identifier, backupInfo, supportSecret⟩ }
  | _, _ => pure ()

/-- From the PIN form. -/
def nextScreen (walletBackup : Option WalletBackup) (profilePic : Bool) : Screen :=
  if walletBackup.any fun backup => backup.identifier ≠ [] then .backup
  else if profilePic then .summary
  else .profile

def toNextStep (a : Attempt) : Setup Unit := do
  let profilePic ← await a.toNextStep
  modify fun s => { s with screens := s.screens ++ [nextScreen s.walletBackup profilePic] }

def hallelujah (a : Attempt) : Setup Value := do
  modify fun s => { s with setupInfo := ⟨a.freshIdentifier, none, none, none, none⟩, INITIAL_PIN_DONE := true }
  toNextStep a
  pure .undefined

/-- The steps after `initWalletSuccessHandler` and `initWalletErrorHandler`. -/
def complete (p : Platform Node) (a : Attempt) (value : Value) : Setup Value := do
  let wallet ← stashWalletSecret value
  let wallet ← setSdkMainMobileWallet a wallet
  let wallet ← setWalletInfo p a wallet
  let _ ← lockWallet wallet
  setWalletBackup a
  hallelujah a

/-- The `catch` of `initWallet`. The reset screen follows the alert. -/
def caught : Thrown → Setup Value
  | .cancelled => do
    modify fun s => { s with isFormSubmit := false }
    pure .no
  | .error _ => do
    modify fun s => { s with isFormSubmit := false, screens := s.screens ++ [.reset] }
    pure .undefined

def initWallet (p : Platform Node) (scope : Scope) : List Attempt → Setup Value
  | [] => throw .waiting
  | a :: attempts =>
    thenOr (do
      let value ← thenOr (sdkInitWallet a) (initWalletSuccessHandler a)
        (initWalletErrorHandler scope a (initWallet p scope attempts))
      complete p a value) pure caught

def createWallet (p : Platform Node) (scope : Scope) (isOnline : Bool) (attempts : List Attempt) : Setup Value :=
  if isOnline then do
    modify fun s => { s with isFormSubmit := true }
    initWallet p scope attempts
  else pure .undefined

/-- The conditions under which the form is submitted. The others are alerts. -/
def accepts (s : Phone) (pin pinRepeat : Str) : Bool :=
  !s.isFormSubmit && pin ≠ [] && 4 ≤ length16 pin && pin = pinRepeat

def onSubmitFormPin (p : Platform Node) (scope : Scope) (isOnline : Bool) (attempts : List Attempt) (pin pinRepeat : Str) :
    Setup Value := do
  if accepts (← get) pin pinRepeat then createWallet p scope isOnline attempts else pure .no

/-! ## The ends of a setup -/

def Attempt.answer (a : Attempt) : Except JsError Wallet := a.getAccountInfo >>= fun _ => a.initWallet

/-- The wallet that is opened or created. -/
def Attempt.opened (a : Attempt) : Option Wallet :=
  match a.answer with
  | .ok wallet =>
    if wallet.walletVersion ≠ .v3 then a.upgradeToV3.toOption.map fun secret => ⟨.v3, some secret⟩ else some wallet
  | .error e => if isNotFound e then a.createNewWallet.toOption.map Prod.fst else none

/-- The password is asked for. -/
def Attempt.asks (scope : Scope) (a : Attempt) : Bool :=
  match a.answer with
  | .ok _ => false
  | .error e => !isNotFound e && isPassword e && scope.setupInfo.isSome

/-- A field of the wallet info that is stored. -/
def Phone.stored (s : Phone) (k : PinStorage.Field) : Option Str := (s.walletInfo.get? k).join

/-- The wallet info is stored for the setup that began in `s`, with the secret of the wallet under the PIN. -/
structure Stores (p : Platform Node) (wallet : Wallet) (s t : Phone) : Prop where
  identifier : t.stored .identifier = some s.setupInfo.identifier
  secret : ∃ ciphertext secret, t.stored .encryptedSecret = some ciphertext ∧
    PinStorage.secretHex wallet.secret = .ok secret ∧
    p.aesDecrypt (some (.text ciphertext)) (some (.text s.form.pin)) = some secret

inductive Way
  | reached
  | cancelled
  | failed

/-- How a setup that began in `s` has ended in `t`. -/
def EndsIn (p : Platform Node) (attempts : List Attempt) (s t : Phone) : Way → Prop
  | .reached => (∃ screen, screen ≠ .reset ∧ t.screens = s.screens ++ [screen]) ∧
      ∃ a ∈ attempts, ∃ wallet, a.opened = some wallet ∧ Stores p wallet s t
  | .cancelled => t.screens = s.screens ∧ t.isFormSubmit = false
  | .failed => (∃ n, t.screens = s.screens ++ List.replicate (n + 1) .reset) ∧ t.isFormSubmit = false

/-- Exactly one of the three ways. -/
def EndsOnce (p : Platform Node) (attempts : List Attempt) (s t : Phone) : Prop := ∃! way, EndsIn p attempts s t way

/-- The way that the screens tell. -/
def wayOf : List Screen → Way
  | [] => .cancelled
  | .reset :: _ => .failed
  | _ :: _ => .reached

theorem EndsIn.way_eq {p : Platform Node} {attempts : List Attempt} {s t : Phone} {way : Way}
    (h : EndsIn p attempts s t way) : way = wayOf (t.screens.drop s.screens.length) := by
  cases way with
  | reached =>
    obtain ⟨⟨screen, hne, hs⟩, -⟩ := h
    rw [hs, List.drop_left]
    cases screen <;> first | rfl | exact absurd rfl hne
  | cancelled => simp [h.1, wayOf]
  | failed =>
    obtain ⟨⟨n, hs⟩, -⟩ := h
    rw [hs, List.drop_left]
    rfl

theorem EndsIn.endsOnce {p : Platform Node} {attempts : List Attempt} {s t : Phone} (way : Way)
    (h : EndsIn p attempts s t way) : EndsOnce p attempts s t := ⟨way, h, fun _ h' => h'.way_eq.trans h.way_eq.symm⟩

/-! ## Steps that return or throw -/

/-- A step returns, or it throws an error before a screen is shown. -/
def Yields {α : Type} (m : Setup α) (s : Phone) (screens : List Screen) (Q : α → Phone → Prop) : Prop :=
  (∃ a t, call m s = (.ok a, t) ∧ Q a t) ∨ ∃ e t, call m s = (.error (.thrown (.error e)), t) ∧ t.screens = screens

section Yields

variable {α β : Type} {s : Phone} {screens : List Screen}

theorem Yields.pure {a : α} {Q : α → Phone → Prop} (h : Q a s) : Yields (pure a) s screens Q := Or.inl ⟨a, s, rfl, h⟩

theorem Yields.modify {g : Phone → Phone} {Q : Unit → Phone → Prop} (h : Q () (g s)) :
    Yields (modify g) s screens Q := Or.inl ⟨(), g s, rfl, h⟩

theorem Yields.await {x : Except JsError α} {Q : α → Phone → Prop} (hs : s.screens = screens)
    (h : ∀ a, x = .ok a → Q a s) : Yields (await x) s screens Q := by
  cases x with
  | ok a => exact Or.inl ⟨a, s, rfl, h a rfl⟩
  | error e => exact Or.inr ⟨e, s, rfl, hs⟩

theorem Yields.of_call_eq {m m' : Setup α} {Q : α → Phone → Prop} (h : call m s = call m' s)
    (hm : Yields m' s screens Q) : Yields m s screens Q := by
  unfold Yields
  rw [h]
  exact hm

theorem Yields.bind {m : Setup α} {k : α → Setup β} {Q : α → Phone → Prop} {R : β → Phone → Prop}
    (h : Yields m s screens Q) (hk : ∀ a t, Q a t → Yields (k a) t screens R) : Yields (m >>= k) s screens R := by
  rcases h with ⟨a, t, hm, hq⟩ | ⟨e, t, hm, hs⟩
  · rcases hk a t hq with ⟨b, u, hb, hr⟩ | ⟨e, u, hb, hs⟩
    · exact Or.inl ⟨b, u, (call_bind_ok hm).trans hb, hr⟩
    · exact Or.inr ⟨e, u, (call_bind_ok hm).trans hb, hs⟩
  · exact Or.inr ⟨e, t, call_bind_error hm, hs⟩

end Yields

/-! ## From a wallet to the next step -/

theorem stored_setWalletInfo (s : Phone) (setupInfo : SetupInfo) (encryptedSecret : Str) (k : PinStorage.Field) :
    ({ s with walletInfo := s.walletInfo.assign (walletInfoOf setupInfo encryptedSecret) } : Phone).stored k =
      match k with
      | .identifier => some setupInfo.identifier
      | .networkType => setupInfo.networkType
      | .encryptedSecret => some encryptedSecret
      | .encryptedPassword => s.stored .encryptedPassword := by
  unfold Phone.stored walletInfoOf
  cases k <;> simp [Object.get?_assign, Object.get?_set, Object.get?_empty]

theorem setWalletInfo_spec {p : Platform Node} (hp : Inverts p) (a : Attempt) (wallet : Wallet) (s : Phone) :
    Yields (setWalletInfo p a wallet) s s.screens fun _ t => t.screens = s.screens ∧ Stores p wallet s t := by
  unfold setWalletInfo
  refine Yields.bind (Q := fun secretHex t => t = s ∧ PinStorage.secretHex wallet.secret = .ok secretHex)
    (Yields.await rfl fun secretHex h => ⟨rfl, h⟩) ?_
  rintro secretHex t ⟨rfl, hsecret⟩
  refine Yields.bind (Q := fun u t' => t' = t ∧ u = t) (Or.inl ⟨t, t, rfl, rfl, rfl⟩) ?_
  rintro u t' ⟨rfl, rfl⟩
  refine Yields.bind (Q := fun ciphertext t => t = u ∧
    p.aesEncrypt (some (.text secretHex)) (.text u.form.pin) a.aesSalt = .ok ciphertext)
    (Yields.await rfl fun ciphertext h => ⟨rfl, h⟩) ?_
  rintro ciphertext t ⟨rfl, hciphertext⟩
  refine Yields.bind (Q := fun _ u => u = t) (Yields.await rfl fun _ _ => rfl) ?_
  rintro - u rfl
  refine Yields.bind (Q := fun _ t => t.screens = u.screens ∧ Stores p wallet u t) (Yields.modify ⟨rfl, ?_, ?_⟩) ?_
  · exact stored_setWalletInfo ..
  · exact ⟨ciphertext, secretHex, stored_setWalletInfo .., hsecret, hp.aes _ _ _ _ hciphertext⟩
  · exact fun _ t h => Yields.pure h

theorem setWalletBackup_spec (a : Attempt) (s : Phone) :
    Yields (setWalletBackup a) s s.screens fun _ t => t.screens = s.screens ∧ t.walletInfo = s.walletInfo := by
  unfold setWalletBackup
  refine Yields.bind (Q := fun u t => t = s ∧ u = s) (Or.inl ⟨s, s, rfl, rfl, rfl⟩) ?_
  rintro u t ⟨rfl, rfl⟩
  split
  next =>
    split
    · exact Yields.pure ⟨rfl, rfl⟩
    · refine Yields.bind (Q := fun _ t => t = u) (Yields.await rfl fun _ _ => rfl) ?_
      rintro - t rfl
      exact Yields.modify ⟨rfl, rfl⟩
  next => exact Yields.pure ⟨rfl, rfl⟩

theorem nextScreen_ne_reset (walletBackup : Option WalletBackup) (profilePic : Bool) :
    nextScreen walletBackup profilePic ≠ .reset := by
  unfold nextScreen
  split
  · decide
  · split <;> decide

theorem hallelujah_spec (a : Attempt) (s : Phone) : Yields (hallelujah a) s s.screens fun value t =>
    value = .undefined ∧ (∃ screen, screen ≠ .reset ∧ t.screens = s.screens ++ [screen]) ∧
      t.walletInfo = s.walletInfo := by
  unfold hallelujah toNextStep
  refine Yields.bind (Q := fun _ t => t.screens = s.screens ∧ t.walletInfo = s.walletInfo) (Yields.modify ⟨rfl, rfl⟩) ?_
  rintro - t ⟨hscreens, hinfo⟩
  refine Yields.bind (Q := fun _ u => (∃ screen, screen ≠ .reset ∧ u.screens = s.screens ++ [screen]) ∧
    u.walletInfo = s.walletInfo) ?_ fun _ u h => Yields.pure ⟨rfl, h⟩
  refine Yields.bind (Q := fun _ u => u = t) (Yields.await hscreens fun _ _ => rfl) ?_
  rintro profilePic u rfl
  exact Yields.modify ⟨⟨_, nextScreen_ne_reset _ _, congrArg (· ++ _) hscreens⟩, hinfo⟩

theorem complete_spec {p : Platform Node} (hp : Inverts p) (a : Attempt) (wallet : Wallet) (s : Phone) :
    Yields (complete p a (.wallet wallet)) s s.screens fun value t => value = .undefined ∧
      (∃ screen, screen ≠ .reset ∧ t.screens = s.screens ++ [screen]) ∧ Stores p wallet s t := by
  unfold complete
  refine Yields.bind (Q := fun w t => w = wallet ∧ t.screens = s.screens ∧ t.form = s.form ∧ t.setupInfo = s.setupInfo)
    ?_ ?_
  · unfold stashWalletSecret
    refine Yields.bind (Q := fun _ t => t = s) (Yields.await rfl fun _ _ => rfl) ?_
    rintro secretHex t rfl
    exact Yields.bind (Yields.modify ⟨rfl, rfl, rfl⟩) fun _ u h => Yields.pure ⟨rfl, h⟩
  rintro w t ⟨rfl, hscreens, hform, hinfo⟩
  refine Yields.bind (Q := fun w' u => w' = w ∧ u = t) ?_ ?_
  · unfold setSdkMainMobileWallet
    exact Yields.bind (Q := fun _ u => u = t) (Yields.await hscreens fun _ _ => rfl) fun _ u h => Yields.pure ⟨rfl, h⟩
  rintro w' u ⟨rfl, rfl⟩
  refine Yields.bind (hscreens ▸ setWalletInfo_spec hp a w' u) ?_
  rintro w t ⟨hscreens', hstores⟩
  refine Yields.bind (Q := fun _ u => u = t) (Yields.pure rfl) ?_
  rintro - u' rfl
  refine Yields.bind (hscreens' ▸ setWalletBackup_spec a u') ?_
  rintro - v ⟨hscreens'', hbackup⟩
  rcases hallelujah_spec a v with ⟨value, x, hx, hvalue, hnext, hinfo'⟩ | ⟨e, x, hx, hx'⟩
  · rw [hscreens''] at hnext
    refine Or.inl ⟨value, x, hx, hvalue, hnext, ?_, ?_⟩
    · unfold Phone.stored
      rw [hinfo', hbackup, ← hinfo]
      exact hstores.identifier
    · unfold Phone.stored
      rw [hinfo', hbackup, ← hform]
      exact hstores.secret
  · exact Or.inr ⟨e, x, hx, hx'.trans hscreens''⟩

/-- A setup that has ended within a setup is no wallet. -/
theorem complete_of_ended {p : Platform Node} (a : Attempt) {value : Value} (h : value = .no ∨ value = .undefined)
    (s : Phone) : ∃ e, call (complete p a value) s = (.error (.thrown (.error e)), s) := by
  rcases h with rfl | rfl
  · exact ⟨_, rfl⟩
  · exact ⟨_, rfl⟩

/-! ## To a wallet -/

def openWallet (scope : Scope) (a : Attempt) (retry : Setup Value) : Setup Value :=
  thenOr (sdkInitWallet a) (initWalletSuccessHandler a) (initWalletErrorHandler scope a retry)

section ThenOr

variable {α β : Type} {m : Setup α} {success : α → Setup β} {error : Thrown → Setup β} {s t : Phone}

theorem call_thenOr_ok {x : α} (h : call m s = (.ok x, t)) : call (thenOr m success error) s = call (success x) t := by
  unfold thenOr
  rw [call_bind_ok (call_settled m s), h]

theorem call_thenOr_thrown {e : Thrown} (h : call m s = (.error (.thrown e), t)) :
    call (thenOr m success error) s = call (error e) t := by
  unfold thenOr
  rw [call_bind_ok (call_settled m s), h]

theorem call_thenOr_waiting (h : call m s = (.error .waiting, t)) :
    call (thenOr m success error) s = (.error .waiting, t) := by
  unfold thenOr
  rw [call_bind_ok (call_settled m s), h]
  rfl

end ThenOr

theorem call_await {α : Type} (x : Except JsError α) (s : Phone) :
    call (await x) s = (x.mapError fun e => Stop.thrown (.error e), s) := by
  cases x <;> rfl

theorem call_sdkInitWallet (a : Attempt) (s : Phone) :
    call (sdkInitWallet a) s = (a.answer.mapError fun e => Stop.thrown (.error e), s) := by
  unfold sdkInitWallet Attempt.answer
  cases a.getAccountInfo with
  | ok _ => exact call_await a.initWallet s
  | error e => rfl

/-- Without a wallet there is no stage that waits or is cancelled. -/
theorem openWallet_spec {scope : Scope} {a : Attempt} (h : a.asks scope = false) (retry : Setup Value) (s : Phone) :
    Yields (openWallet scope a retry) s s.screens fun value t =>
      ∃ wallet, value = .wallet wallet ∧ a.opened = some wallet ∧ t.screens = s.screens ∧ t.form = s.form ∧
        t.setupInfo.identifier = s.setupInfo.identifier := by
  have hopen := call_sdkInitWallet a s
  unfold openWallet
  unfold Attempt.asks at h
  unfold Attempt.opened
  cases hanswer : a.answer with
  | ok wallet =>
    rw [hanswer] at hopen
    refine Yields.of_call_eq (call_thenOr_ok hopen) ?_
    unfold initWalletSuccessHandler
    dsimp only
    split
    · refine Yields.bind (Q := fun secret t => t = s ∧ a.upgradeToV3 = .ok secret)
        (Yields.await rfl fun _ hx => ⟨rfl, hx⟩) ?_
      rintro secret t ⟨rfl, hx⟩
      exact Yields.pure ⟨_, rfl, by rw [hx]; rfl, rfl, rfl, rfl⟩
    · exact Yields.pure ⟨_, rfl, rfl, rfl, rfl, rfl⟩
  | error e =>
    rw [hanswer] at hopen h
    refine Yields.of_call_eq (call_thenOr_thrown hopen) ?_
    simp only [initWalletErrorHandler]
    dsimp only at h
    by_cases hnot : isNotFound e = true
    · rw [if_pos hnot, if_pos hnot]
      refine Yields.bind (Q := fun created t => t = s ∧ a.createNewWallet = .ok created)
        (Yields.await rfl fun _ hx => ⟨rfl, hx⟩) ?_
      rintro ⟨wallet, backupInfo⟩ t ⟨rfl, hx⟩
      exact Yields.bind (Q := fun _ u => u.screens = t.screens ∧ u.form = t.form ∧
        u.setupInfo.identifier = t.setupInfo.identifier) (Yields.modify ⟨rfl, rfl, rfl⟩)
        fun _ u hu => Yields.pure ⟨_, rfl, by rw [hx]; rfl, hu⟩
    · rw [if_neg hnot, if_neg hnot]
      by_cases hpassword : isPassword e = true
      · have hscope : scope.setupInfo = none := by simpa [hnot, hpassword] using h
        rw [if_pos hpassword, hscope]
        exact Or.inr ⟨_, s, rfl, rfl⟩
      · rw [if_neg hpassword]
        exact Or.inr ⟨e, s, rfl, rfl⟩

theorem call_openWallet_of_asks {scope : Scope} {a : Attempt} (h : a.asks scope = true) (retry : Setup Value) (s : Phone) :
    call (openWallet scope a retry) s =
      match promptWalletPassword a.dialogs with
      | .waiting => (.error .waiting, s)
      | .cancelled => (.error (.thrown .cancelled), s)
      | .password password => call retry { s with setupInfo := { s.setupInfo with password := some password } } := by
  have hopen := call_sdkInitWallet a s
  unfold openWallet
  unfold Attempt.asks at h
  cases hanswer : a.answer with
  | ok wallet =>
    rw [hanswer] at h
    cases h
  | error e =>
    rw [hanswer] at hopen h
    dsimp only at h
    rw [Bool.and_eq_true, Bool.and_eq_true, Bool.not_eq_true', Option.isSome_iff_exists] at h
    obtain ⟨⟨hnot, hpassword⟩, identifier, hscope⟩ := h
    rw [call_thenOr_thrown hopen]
    simp only [initWalletErrorHandler]
    rw [hscope, if_neg (by simp [hnot]), if_pos hpassword]
    cases promptWalletPassword a.dialogs <;> rfl

/-! ## The whole setup -/

theorem initWallet_cons (p : Platform Node) (scope : Scope) (a : Attempt) (attempts : List Attempt) :
    initWallet p scope (a :: attempts) =
      thenOr (openWallet scope a (initWallet p scope attempts) >>= complete p a) pure caught := rfl

/-- A setup that does not ask for a password reaches the next step or fails. -/
theorem initWallet_of_not_asks {p : Platform Node} (hp : Inverts p) {scope : Scope} {a : Attempt}
    (h : a.asks scope = false) (attempts : List Attempt) (s : Phone) :
    ∃ t, call (initWallet p scope (a :: attempts)) s = (.ok .undefined, t) ∧ EndsOnce p (a :: attempts) s t := by
  rw [initWallet_cons]
  have hall : Yields (openWallet scope a (initWallet p scope attempts) >>= complete p a) s s.screens fun value t =>
      value = .undefined ∧ EndsIn p (a :: attempts) s t .reached := by
    refine Yields.bind (openWallet_spec h _ s) ?_
    rintro value t ⟨wallet, rfl, hopened, hscreens, hform, hidentifier⟩
    rcases complete_spec hp a wallet t with ⟨value, u, hu, hvalue, hnext, hstores⟩ | ⟨e, u, hu, hu'⟩
    · rw [hscreens] at hnext
      refine Or.inl ⟨value, u, hu, hvalue, hnext, a, List.mem_cons_self, wallet, hopened, ?_, ?_⟩
      · rw [← hidentifier]
        exact hstores.identifier
      · rw [← hform]
        exact hstores.secret
    · exact Or.inr ⟨e, u, hu, hu'.trans hscreens⟩
  rcases hall with ⟨value, t, ht, rfl, hreached⟩ | ⟨e, t, ht, hscreens⟩
  · exact ⟨t, call_thenOr_ok ht, EndsIn.endsOnce .reached hreached⟩
  · refine ⟨_, call_thenOr_thrown ht, EndsIn.endsOnce .failed ⟨⟨0, ?_⟩, rfl⟩⟩
    exact congrArg (· ++ [Screen.reset]) hscreens

/-- A setup is never refused: it returns or waits. -/
theorem initWallet_error {p : Platform Node} {scope : Scope} {attempts : List Attempt} {s t : Phone} {stop : Stop}
    (h : call (initWallet p scope attempts) s = (.error stop, t)) : stop = .waiting := by
  cases attempts with
  | nil =>
    cases h
    rfl
  | cons a attempts =>
    rw [initWallet_cons] at h
    cases hm : call (openWallet scope a (initWallet p scope attempts) >>= complete p a) s with
    | mk r u =>
      cases r with
      | ok value =>
        rw [call_thenOr_ok hm] at h
        cases h
      | error stop' =>
        cases stop' with
        | waiting =>
          rw [call_thenOr_waiting hm] at h
          cases h
          rfl
        | thrown e =>
          rw [call_thenOr_thrown hm] at h
          cases e <;> cases h

/-- Where the password is asked for, the setup fails once the setup within it has ended, however that was. -/
theorem initWallet_of_asks {p : Platform Node} {scope : Scope} {a : Attempt} (h : a.asks scope = true) {password : Str}
    (hprompt : promptWalletPassword a.dialogs = .password password) {attempts : List Attempt} {s t : Phone}
    {value : Value} (hended : value = .no ∨ value = .undefined) (hinner : call (initWallet p scope attempts)
      { s with setupInfo := { s.setupInfo with password := some password } } = (.ok value, t)) :
    call (initWallet p scope (a :: attempts)) s =
      (.ok .undefined, { t with isFormSubmit := false, screens := t.screens ++ [.reset] }) := by
  have hopen := call_openWallet_of_asks h (initWallet p scope attempts) s
  rw [hprompt] at hopen
  obtain ⟨e, he⟩ := complete_of_ended (p := p) a hended t
  rw [initWallet_cons]
  exact call_thenOr_thrown ((call_bind_ok (hopen.trans hinner)).trans he)

/-- A retry that reaches the next step goes to the reset screen after it. -/
theorem not_endsOnce_of_asks {p : Platform Node} {scope : Scope} {a : Attempt} (h : a.asks scope = true) {password : Str}
    (hprompt : promptWalletPassword a.dialogs = .password password) {attempts : List Attempt} {s t u : Phone}
    {value value' : Value} (hended : value = .no ∨ value = .undefined) (hinner : call (initWallet p scope attempts)
      { s with setupInfo := { s.setupInfo with password := some password } } = (.ok value, t))
    (hreached : ∃ screen, screen ≠ .reset ∧ t.screens = s.screens ++ [screen])
    (houter : call (initWallet p scope (a :: attempts)) s = (.ok value', u)) : ¬EndsOnce p (a :: attempts) s u := by
  rw [initWallet_of_asks h hprompt hended hinner] at houter
  cases houter
  obtain ⟨screen, hne, hscreens⟩ := hreached
  rintro ⟨way, hway, -⟩
  have hw := hway.way_eq
  dsimp only at hw
  rw [hscreens, List.append_assoc, List.drop_left] at hw
  obtain rfl : way = .reached := by cases screen <;> first | exact hw | exact absurd rfl hne
  obtain ⟨⟨screen', -, hs⟩, -⟩ := hway
  have hlength := congrArg List.length hs
  simp [hscreens] at hlength

theorem EndsOnce.submitted {p : Platform Node} {attempts : List Attempt} {s t : Phone}
    (h : EndsOnce p attempts { s with isFormSubmit := true } t) : EndsOnce p attempts s t := by
  obtain ⟨way, hway, -⟩ := h
  apply EndsIn.endsOnce way
  cases way with
  | reached =>
    obtain ⟨hscreens, a, ha, wallet, hopened, hidentifier, hsecret⟩ := hway
    exact ⟨hscreens, a, ha, wallet, hopened, hidentifier, hsecret⟩
  | cancelled => exact hway
  | failed => exact hway

theorem asks_scope (a : Attempt) : a.asks scope = false := by
  unfold Attempt.asks scope
  split <;> simp

def samplePhone : Phone where
  form := ⟨"1234", "1234"⟩
  isFormSubmit := false
  setupInfo := ⟨"app-01", some "old", some "BTC", none, none⟩
  walletSecret := none
  walletInfo := PinStorage.walletInfoDefaults
  walletBackup := none
  INITIAL_PIN_DONE := false
  screens := []

/-- A wallet of version 2 is opened and upgraded. -/
def opened : Attempt where
  getAccountInfo := .ok ()
  initWallet := .ok ⟨.v2, some (.text "0707")⟩
  upgradeToV3 := .ok (.buffer [8, 8])
  supportSecret := "123456"
  createNewWallet := .error ⟨"Error", "exists"⟩
  dialogs := [some "new"]
  setMainMobileWallet := .ok ()
  aesSalt := []
  setWalletInfo := .ok ()
  setWalletBackup := .ok ()
  freshIdentifier := "app-02"
  toNextStep := .ok false

def wrongPassword : Attempt := { opened with initWallet := .error ⟨"WalletDecryptError", "Failed to decrypt secret"⟩ }

/-- With the identifier in its scope, the setup would go to the reset screen after a right second password. -/
example : (call (initWallet PinStorage.pinPlatform ⟨some "app-01"⟩ [wrongPassword, opened]) samplePhone).2.screens =
    [.profile, .reset] := by decide +kernel

end WalletPin

end MobileWallet
