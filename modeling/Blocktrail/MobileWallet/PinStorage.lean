import Blocktrail.JsSdk.Lifecycle
import Blocktrail.MobileWallet.LocalStorage

/-! # The PIN of the wallet

The wallet info holds the password or the secret under the PIN. The first unlock with the PIN puts the secret in the
place of the password, and the settings encrypt what they find again.
-/

open Assoc Text Throwing Bitcoin Runs JsSdk

namespace MobileWallet

namespace PinStorage

/-! ## The wallet info -/

inductive Field
  | identifier
  | networkType
  | encryptedSecret
  | encryptedPassword
deriving DecidableEq

/-- A field may be null. -/
abbrev WalletInfo := Object Field (Option Str)

def walletInfoDefaults : WalletInfo :=
  (((Object.empty.set .identifier none).set .networkType none).set .encryptedSecret none).set .encryptedPassword none

/-- The wallet object of the SDK with its server, and the storage of the wallet info. -/
structure Device (Node : Type) where
  sdkWallet : World Node
  /-- `_walletData.networkType`. -/
  networkType : Str
  walletInfo : LocalStorage.State Field (Option Str)

variable {Node : Type}

/-- A field of the record that is stored. -/
def Device.stored (d : Device Node) (k : Field) : Option Str :=
  (LocalStorage.recordValue walletInfoDefaults d.walletInfo.storage k).join

abbrev Method (Node : Type) (α : Type) := Prog JsError (Device Node) α

def getWalletInfo : Method Node WalletInfo := do
  pure (LocalStorage.getData walletInfoDefaults (← get).walletInfo.storage true).2

def setWalletInfo (data : WalletInfo) : Method Node Unit :=
  modify fun d => { d with walletInfo := LocalStorage.save walletInfoDefaults d.walletInfo data }

/-! ## Unlocking -/

/-- What `unlockDataWithPin` gives. `none` is undefined. -/
structure UnlockData where
  identifier : Option Str
  networkType : Option Str
  secret : Option Str
  password : Option Str

def pinError (message : Str) : JsError := ⟨"WalletPinError", message⟩

/-- `AES.decrypt(ciphertext, pin).toString(Utf8)`, where a throw and an empty text are a bad PIN. -/
def decryptWithPin (p : Platform Node) (ciphertext : Option Str) (pin : Str) : Except JsError Str :=
  match p.aesDecrypt (ciphertext.map Data.text) (some (.text pin)) with
  | none => .error (pinError "Malformed UTF-8 data")
  | some text => if text = [] then .error (pinError "Bad PIN") else .ok text

/-- `unlockDataWithPin` of the wallet info that it gets. -/
def unlockWalletInfo (p : Platform Node) (pin : Str) (walletInfo : Field → Option Str) : Except JsError UnlockData :=
  if truthy ((walletInfo .encryptedSecret).map Data.text) then
    (decryptWithPin p (walletInfo .encryptedSecret) pin).map fun secret =>
      ⟨walletInfo .identifier, walletInfo .networkType, some secret, none⟩
  else
    (decryptWithPin p (walletInfo .encryptedPassword) pin).map fun password =>
      ⟨walletInfo .identifier, walletInfo .networkType, none, some password⟩

def unlockDataWithPin (p : Platform Node) (pin : Str) : Method Node UnlockData := do
  let walletInfo ← getWalletInfo
  orRaise (unlockWalletInfo p pin fun k => (walletInfo.get? k).join)

/-- A call on the wallet of the SDK. -/
def onWallet {α : Type} (m : JsSdk.Method Node α) : Method Node α := fun d =>
  match call m d.sdkWallet with
  | (r, sdkWallet) => (r, { d with sdkWallet })

/-- The options of an unlock with a secret, a password, or neither. -/
def unlockOptions (secret password : Option Data) : UnlockOptions where
  passphrase := none
  password := password
  secret := secret
  primarySeed := none
  primaryPrivateKey := false
  primaryMnemonic := none
  encryptedPrimarySeed := none
  encryptedSecret := none

/-- `secret.toString('hex')`: a text is left as it is. -/
def toHex : Data → Str
  | .text s => s
  | .buffer b => Hex.encode b

def secretHex : Option Data → Except JsError Str
  | some secret => .ok (toHex secret)
  | none => .error ⟨"TypeError", "Cannot read property 'toString' of null"⟩

/-- `AES.encrypt(text, pin).toString()`. -/
def encryptWithPin (p : Platform Node) (text : Option Str) (pin : Str) (salt : Bytes) : Except JsError Str :=
  match text with
  | some text => p.aesEncrypt (some (.text text)) (.text pin) salt
  | none => .error ⟨"TypeError", "Cannot read property 'words' of undefined"⟩

/-- The secret takes the place of the password. -/
def storeSecret (p : Platform Node) (a : Answers) (pin : Str) : Method Node Unit := do
  let d ← get
  let secret ← orRaise (secretHex d.sdkWallet.wallet.secret)
  let encryptedSecret ← orRaise (encryptWithPin p (some secret) pin a.aesSalt)
  setWalletInfo ((((Object.empty.set .identifier (some d.sdkWallet.wallet.identifier)).set .networkType
    (some d.networkType)).set .encryptedSecret (some encryptedSecret)).set .encryptedPassword none)

def unlockWithPin (p : Platform Node) (a : Answers) (pin : Str) : Method Node Unit := do
  let unlock ← unlockDataWithPin p pin
  let secret := unlock.secret.map fun secret => Data.buffer (Hex.decode secret)
  let _ ← onWallet (JsSdk.unlock p a (unlockOptions secret (unlock.password.map Data.text)))
  if secret.isNone then storeSecret p a pin else pure ()

def unlockWithPassword (p : Platform Node) (a : Answers) (password : Str) : Method Node Unit := do
  let _ ← onWallet (JsSdk.unlock p a (unlockOptions none (some (.text password))))
  pure ()

/-- `setWalletInfo` of the setup, with the secret that is in the wallet then. -/
def setupWalletInfo (p : Platform Node) (a : Answers) (identifier networkType pin : Str) : Method Node Unit := do
  let secret ← orRaise (secretHex (← get).sdkWallet.wallet.secret)
  let encryptedSecret ← orRaise (encryptWithPin p (some secret) pin a.aesSalt)
  setWalletInfo (((Object.empty.set .identifier (some identifier)).set .networkType (some networkType)).set
    .encryptedSecret (some encryptedSecret))

/-! ## The settings -/

def updatePin (p : Platform Node) (a : Answers) (data : UnlockData) (pin : Str) : Method Node Unit := do
  if truthy (data.secret.map Data.text) then
    let encryptedSecret ← orRaise (encryptWithPin p data.secret pin a.aesSalt)
    setWalletInfo ((Object.empty.set .encryptedPassword none).set .encryptedSecret (some encryptedSecret))
  else
    let encryptedPassword ← orRaise (encryptWithPin p data.password pin a.aesSalt)
    setWalletInfo ((Object.empty.set .encryptedPassword (some encryptedPassword)).set .encryptedSecret none)

/-- What the dialog for the new PIN gives. -/
structure DialogResult where
  pin : Str
  pinRepeat : Str

/-- The PIN that is set. An alert sets none. -/
def promptNewPin (p : Platform Node) (a : Answers) (data : UnlockData) (dialogResult : Option DialogResult) :
    Method Node (Option Str) :=
  match dialogResult with
  | none => pure none
  | some result =>
    if result.pin = [] ∨ length16 result.pin < 4 ∨ result.pin ≠ result.pinRepeat then pure none
    else do
      updatePin p a data result.pinRepeat
      pure (some result.pinRepeat)

def unlockData (p : Platform Node) (a : Answers) (isPassword : Bool) (key : Str)
    (dialogResult : Option DialogResult) : Method Node (Option Str) :=
  if isPassword then do
    unlockWithPassword p a key
    let secret ← orRaise (secretHex (← get).sdkWallet.wallet.secret)
    promptNewPin p a ⟨none, none, some secret, none⟩ dialogResult
  else do
    let data ← unlockDataWithPin p key
    promptNewPin p a data dialogResult

/-! ## Runs -/

/-- What a call of `unlockWithPin` came to. -/
structure Attempt (Node : Type) where
  right : Bool
  result : Except JsError Unit
  /-- The device before it. -/
  before : Device Node

structure State (Node : Type) where
  device : Device Node
  /-- The current PIN. -/
  pin : Str
  /-- The call of `unlockWithPin`, where the last action was one. -/
  last : Option (Attempt Node)

inductive Action
  | unlockWithPin (a : Answers) (pin : Str)
  | lock
  /-- A PIN change, with the answer of its dialog. -/
  | changePin (a : Answers) (isPassword : Bool) (key : Str) (dialogResult : Option DialogResult)

def step (p : Platform Node) (s : State Node) : Action → State Node
  | .unlockWithPin a pin =>
    let (result, device) := call (unlockWithPin p a pin) s.device
    ⟨device, s.pin, some ⟨pin = s.pin, result, s.device⟩⟩
  | .lock => ⟨after (onWallet JsSdk.lock) s.device, s.pin, none⟩
  | .changePin a isPassword key dialogResult =>
    match call (unlockData p a isPassword key dialogResult) s.device with
    | (.ok (some pin), device) => ⟨device, pin, none⟩
    | (_, device) => ⟨device, s.pin, none⟩

/-! ## What is relied on -/

/-- A text is encrypted under every PIN, and what opens under one key opens under no other. -/
structure Keyed (p : Platform Node) : Prop where
  encrypts : ∀ text pin salt, ∃ ciphertext, ciphertext ≠ [] ∧
    p.aesEncrypt (some (.text text)) (.text pin) salt = .ok ciphertext
  aes : ∀ ciphertext key key' text text', p.aesDecrypt ciphertext (some key) = some text →
    p.aesDecrypt ciphertext (some key') = some text' → text' ≠ [] → key' = key
  gcm : ∀ ciphertext key key' pt pt', p.gcmDecrypt ciphertext key = some pt →
    p.gcmDecrypt ciphertext key' = some pt' → key' = key

section Wallet

variable (p : Platform Node) (seed : Bytes) (root : Node) (password : Str) (secret : Data)

/-- A wallet of version 2 or 3, with the seed and the secret that its password gives. -/
structure Genuine (w : Wallet Node) : Prop where
  version : w.walletVersion = .v2 ∨ w.walletVersion = .v3
  key : p.hd.fromSeedBuffer seed w.network = .ok root
  checksum : p.hd.getAddress root = w.checksum
  recovers : recover p w.stored (.text password) = some (seed, some secret)

/-- One field has the text under the PIN, the other is null. -/
structure Keeps (d : Device Node) (pin : Str) (kept other : Field) (text : Str) : Prop where
  kept : ∃ salt ciphertext, encryptWithPin p (some text) pin salt = .ok ciphertext ∧ d.stored kept = some ciphertext
  other : d.stored other = none

/-- The wallet info has the password or the secret under the PIN. -/
inductive Holds (d : Device Node) (pin : Str) : Prop
  | password (h : Keeps p d pin .encryptedPassword .encryptedSecret password)
  | secret (h : Keeps p d pin .encryptedSecret .encryptedPassword (toHex secret))

structure Sound (s : State Node) : Prop where
  one : (s.device.stored .encryptedSecret).isSome ≠ (s.device.stored .encryptedPassword).isSome
  right : ∀ attempt, s.last = some attempt → attempt.right = true →
    attempt.result = .ok () ∧ Recovered p seed (some secret) s.device.sdkWallet
  wrong : ∀ attempt, s.last = some attempt → attempt.right = false →
    (∃ message, attempt.result = .error (pinError message)) ∧ ∀ k, s.device.stored k = attempt.before.stored k

/-- What the wallet info has is not empty, and it is a secret only for version 3; no upgrade of the key index fails. -/
structure Device.Opens (d : Device Node) (a : Answers) : Prop where
  password : d.stored .encryptedSecret = none → password ≠ []
  secret : d.stored .encryptedSecret ≠ none → d.sdkWallet.wallet.walletVersion = .v3 ∧ toHex secret ≠ []
  upgrade : ∀ keyIndex, d.sdkWallet.wallet.upgradeToKeyIndex = some keyIndex →
    AnswersUpgrade p a root d.sdkWallet.wallet.network keyIndex

def Opens (s : State Node) : Action → Prop
  | .unlockWithPin a pin => pin = s.pin → s.device.Opens p root password secret a
  | _ => True

/-- A device whose wallet info opens the wallet with `pin`, between two calls. -/
structure Ready (d : Device Node) (pin : Str) : Prop where
  genuine : Genuine p seed root password secret d.sdkWallet.wallet
  sameNetwork : SameNetwork d.sdkWallet
  idle : LocalStorage.Idle d.walletInfo
  holds : Holds p password secret d pin

structure Begins (s : State Node) : Prop where
  ready : Ready p seed root password secret s.device s.pin
  last : s.last = none

end Wallet

variable {p : Platform Node} {seed : Bytes} {root : Node} {password : Str} {secret : Data}

/-! ## The wallet info -/

theorem call_onWallet {α : Type} {m : JsSdk.Method Node α} {d : Device Node} {r : Except JsError α}
    (h : (call m d.sdkWallet).1 = r) : call (onWallet m) d = (r, { d with sdkWallet := after m d.sdkWallet }) := by
  subst h
  rfl

theorem defaults_isSome (k : Field) : (walletInfoDefaults.get? k).isSome = true := by
  cases k <;> rfl

theorem call_setWalletInfo {d : Device Node} (h : LocalStorage.Idle d.walletInfo) {data : WalletInfo} {k₀ : Field}
    (hdata : (data.get? k₀).isSome = true) :
    ∃ walletInfo, call (setWalletInfo data) d = (.ok (), { d with walletInfo }) ∧ LocalStorage.Idle walletInfo ∧
      ∀ k, ({ d with walletInfo } : Device Node).stored k = (data.get? k).getD (d.stored k) := by
  obtain ⟨hidle, hvalue⟩ := h.save_spec hdata (defaults_isSome k₀)
  refine ⟨_, rfl, hidle, fun k => ?_⟩
  unfold Device.stored
  rw [hvalue k (defaults_isSome k)]
  cases data.get? k <;> rfl

/-! ## What the PIN opens -/

theorem Keyed.encryptWithPin (hk : Keyed p) (text pin : Str) (salt : Bytes) :
    ∃ ciphertext, encryptWithPin p (some text) pin salt = .ok ciphertext ∧ ciphertext ≠ [] := by
  obtain ⟨ciphertext, hne, he⟩ := hk.encrypts text pin salt
  exact ⟨ciphertext, he, hne⟩

theorem encryptWithPin_ne_nil (hk : Keyed p) {text pin : Str} {salt : Bytes} {ciphertext : Str}
    (h : encryptWithPin p (some text) pin salt = .ok ciphertext) : ciphertext ≠ [] := by
  obtain ⟨ciphertext', he, hne⟩ := hk.encryptWithPin text pin salt
  cases he.symm.trans h
  exact hne

theorem decryptWithPin_right (hi : Inverts p) {text pin : Str} {salt : Bytes} {ciphertext : Str}
    (h : encryptWithPin p (some text) pin salt = .ok ciphertext) :
    decryptWithPin p (some ciphertext) pin = if text = [] then .error (pinError "Bad PIN") else .ok text := by
  have hd : p.aesDecrypt (some (.text ciphertext)) (some (.text pin)) = some text := hi.aes _ _ _ _ h
  unfold decryptWithPin
  rw [Option.map_some, hd]

theorem decryptWithPin_wrong (hi : Inverts p) (hk : Keyed p) {text pin pin' : Str} {salt : Bytes} {ciphertext : Str}
    (h : encryptWithPin p (some text) pin salt = .ok ciphertext) (hpin : pin' ≠ pin) :
    ∃ message, decryptWithPin p (some ciphertext) pin' = .error (pinError message) := by
  have hd : p.aesDecrypt (some (.text ciphertext)) (some (.text pin)) = some text := hi.aes _ _ _ _ h
  unfold decryptWithPin
  rw [Option.map_some]
  split
  · exact ⟨_, rfl⟩
  · next text' hd' =>
    split
    · exact ⟨_, rfl⟩
    · next hne => exact absurd (Data.text.inj (hk.aes _ _ _ _ _ hd hd' hne)) hpin

theorem call_unlockDataWithPin (p : Platform Node) (pin : Str) (d : Device Node) :
    call (unlockDataWithPin p pin) d = (unlockWalletInfo p pin d.stored, d) := by
  unfold unlockDataWithPin getWalletInfo
  rw [bind_assoc, call_get_bind, pure_bind, call_orRaise]
  rfl

theorem truthy_map_text {x : Option Str} : truthy (x.map Data.text) = true ↔ ∃ s, x = some s ∧ s ≠ [] := by
  cases x with
  | none => exact ⟨fun h => (by cases h), fun ⟨s, h, _⟩ => (by cases h)⟩
  | some s => exact ⟨fun h => ⟨s, rfl, by simpa [truthy] using h⟩, fun ⟨s', h, hne⟩ => (by cases h; simpa [truthy] using hne)⟩

theorem Holds.cases (hk : Keyed p) {d : Device Node} {pin : Str} (h : Holds p password secret d pin) :
    ∃ salt ciphertext, ∃ isSecret : Bool,
      encryptWithPin p (some (if isSecret then toHex secret else password)) pin salt = .ok ciphertext ∧
        ((d.stored .encryptedSecret).isSome ↔ isSecret = true) ∧
        ((d.stored .encryptedPassword).isSome ↔ isSecret = false) ∧
        ∀ pin', unlockWalletInfo p pin' d.stored = (decryptWithPin p (some ciphertext) pin').map fun text =>
          ⟨d.stored .identifier, d.stored .networkType, if isSecret then some text else none,
            if isSecret then none else some text⟩ := by
  cases h with
  | password h =>
    obtain ⟨⟨salt, ciphertext, he, hkept⟩, hother⟩ := h
    refine ⟨salt, ciphertext, false, he, by simp [hother], by simp [hkept], fun pin' => ?_⟩
    unfold unlockWalletInfo
    rw [if_neg (by rw [hother]; decide), hkept]
    rfl
  | secret h =>
    obtain ⟨⟨salt, ciphertext, he, hkept⟩, hother⟩ := h
    refine ⟨salt, ciphertext, true, he, by simp [hkept], by simp [hother], fun pin' => ?_⟩
    unfold unlockWalletInfo
    rw [if_pos (truthy_map_text.mpr ⟨ciphertext, hkept, encryptWithPin_ne_nil hk he⟩), hkept]
    rfl

/-! ## The wallet -/

theorem Genuine.of_same {w w' : Wallet Node} (h : Genuine p seed root password secret w)
    (hv : w'.walletVersion = w.walletVersion) (hn : w'.network = w.network) (hc : w'.checksum = w.checksum)
    (hs : w'.stored = w.stored) : Genuine p seed root password secret w' := by
  refine ⟨?_, ?_, ?_, ?_⟩
  · rw [hv]
    exact h.version
  · rw [hn]
    exact h.key
  · rw [hc]
    exact h.checksum
  · rw [hs]
    exact h.recovers

theorem Genuine.unlock {s : World Node} (h : Genuine p seed root password secret s.wallet) (hn : SameNetwork s)
    (a : Answers) (o : UnlockOptions) :
    Genuine p seed root password secret (after (JsSdk.unlock p a o) s).wallet ∧
      SameNetwork (after (JsSdk.unlock p a o) s) := by
  rcases unlock_cases p a o s hn with ⟨-, secret', kept, ht⟩ | ⟨seed', secret', kept, -, ⟨e, -, ht⟩ | ⟨key, -, ⟨-, ht⟩ | ⟨-, keyIndex, hout⟩⟩⟩
  · rw [ht]
    exact ⟨h.of_same rfl rfl rfl rfl, hn⟩
  · rw [ht]
    exact ⟨h.of_same rfl rfl rfl rfl, hn⟩
  · rw [ht]
    exact ⟨h.of_same rfl rfl rfl rfl, hn⟩
  · obtain ⟨⟨k, b, c, ht⟩, -, -⟩ := hout
    rw [ht]
    exact ⟨h.of_same rfl rfl rfl rfl, hn⟩

theorem Genuine.unlocked {s : World Node} (h : Genuine p seed root password secret s.wallet) {o : UnlockOptions}
    {kept : Option Bytes} (hc : call (unlockVersion p o) s = (.ok root, s.holding (some secret) (some seed) kept))
    (a : Answers) :
    Recovered p seed (some secret) (after (JsSdk.unlock p a o) s) ∧
      ((∃ r, (call (JsSdk.unlock p a o) s).1 = .ok r) ↔
        ∀ keyIndex, s.wallet.upgradeToKeyIndex = some keyIndex → AnswersUpgrade p a root s.wallet.network keyIndex) := by
  refine ⟨?_, unlock_ok_iff hc h.checksum⟩
  rcases unlock_of_key (a := a) hc with ⟨hne, -⟩ | ⟨-, keyIndex, hout⟩
  · exact absurd h.checksum hne
  · exact hout.recovered h.checksum

theorem givesPassword_unlockOptions (key : Data) : GivesPassword (unlockOptions none (some key)) key :=
  ⟨rfl, rfl, rfl, rfl, rfl, rfl, rfl, rfl⟩

theorem Genuine.not_v1 {w : Wallet Node} (h : Genuine p seed root password secret w) : w.walletVersion ≠ .v1 := by
  rcases h.version with hv | hv <;> rw [hv] <;> decide

theorem Genuine.unlockVersion_password {s : World Node} (h : Genuine p seed root password secret s.wallet)
    (hn : SameNetwork s) : ∃ kept, call (unlockVersion p (unlockOptions none (some (.text password)))) s =
      (.ok root, s.holding (some secret) (some seed) kept) :=
  JsSdk.unlockVersion_password hn (givesPassword_unlockOptions _) h.recovers h.key fun hv => absurd hv h.not_v1

/-! ## The secret as a key -/

theorem call_unlockVersion_secret {s : World Node} {b : Bytes} (hv : s.wallet.walletVersion = .v3)
    (hs : seedUnderV3 p s.wallet.encryptedPrimarySeed (some (.buffer b)) = some seed) (hne : seed ≠ [])
    (hk : p.hd.fromSeedBuffer seed s.wallet.network = .ok root) :
    call (unlockVersion p (unlockOptions (some (.buffer b)) none)) s =
      (.ok root, s.holding (some (.buffer b)) (some seed) s.sdk.primarySeed) := by
  have hseed := decryptPrimarySeedV3_assigns p s.wallet.encryptedPrimarySeed (some (.buffer b)) seed s hs hne
  unfold unlockVersion
  rw [call_get_bind]
  dsimp only
  rw [hv]
  change call (unlockV3 p (unlockOptions (some (.buffer b)) none)) s = _
  unfold unlockV3 unlockEncrypted
  rw [call_get_bind]
  dsimp only
  rw [call_bind_ok (call_takeSecret _ s)]
  change call (decryptPrimarySeedV3 p s.wallet.encryptedPrimarySeed >>= fun _ => rootOfSeed p)
    (s.withSecret (some (.buffer b))) = _
  rw [call_bind_ok hseed, call_rootOfSeed, hk]

theorem Genuine.unlockVersion_secret {s : World Node} (h : Genuine p seed root password secret s.wallet)
    (hv : s.wallet.walletVersion = .v3) :
    ∃ kept, call (unlockVersion p (unlockOptions (some (.buffer (Hex.decode (toHex secret)))) none)) s =
      (.ok root, s.holding (some secret) (some seed) kept) := by
  have hr := h.recovers
  unfold recover at hr
  rw [show s.wallet.stored.walletVersion = .v3 from hv] at hr
  obtain ⟨secret', hsecret, hseed, hsome⟩ := recoverEncrypted_eq_some.mp hr
  cases hsome
  obtain ⟨b, rfl⟩ := secretUnderV3_buffer hsecret
  have hne : seed ≠ [] := by
    rintro rfl
    cases h.key
  refine ⟨s.sdk.primarySeed, ?_⟩
  rw [show Hex.decode (toHex (.buffer b)) = b from Hex.decode_encode b]
  exact call_unlockVersion_secret hv hseed hne h.key

/-- A `Buffer` is no passphrase: the secret of version 2 does not open the seed from the wallet info. -/
theorem Genuine.secret_refused (hk : Keyed p) {s : World Node} (h : Genuine p seed root password secret s.wallet)
    (hn : SameNetwork s) (hv : s.wallet.walletVersion = .v2) (a : Answers) (b : Bytes) :
    ∃ e, (call (JsSdk.unlock p a (unlockOptions (some (.buffer b)) none)) s).1 = .error e := by
  have hr := h.recovers
  unfold recover at hr
  rw [show s.wallet.stored.walletVersion = .v2 from hv] at hr
  obtain ⟨secret', hsecret, hseed, hsome⟩ := recoverEncrypted_eq_some.mp hr
  cases hsome
  obtain ⟨t, rfl, -⟩ := secretUnderV2_text hsecret
  obtain ⟨text, htext, -⟩ := Option.map_eq_some_iff.mp hseed
  have hout := (unlockVersion_spec p (unlockOptions (some (.buffer b)) none) s hn).key
  have hobtained : obtainedSeed p s.wallet (unlockOptions (some (.buffer b)) none) =
      seedUnderV2 p s.wallet.encryptedPrimarySeed (some (.buffer b)) := by
    unfold obtainedSeed
    rw [hv]
    rfl
  rw [hobtained] at hout
  have hnone : (call (unlockVersion p (unlockOptions (some (.buffer b)) none)) s).1.toOption = none := by
    rw [hout]
    unfold seedUnderV2
    cases hd : p.aesDecrypt s.wallet.encryptedPrimarySeed (some (.buffer b)) with
    | none => rfl
    | some text' =>
      by_cases hne : text' = []
      · rw [hne]
        rfl
      · cases hk.aes _ _ _ _ _ htext hd hne
  unfold JsSdk.unlock
  cases hcall : (call (unlockVersion p (unlockOptions (some (.buffer b)) none)) s).1 with
  | error e => exact ⟨e, call_bind_fst_error hcall⟩
  | ok key =>
    rw [hcall] at hnone
    cases hnone

theorem recover_unique (hk : Keyed p) {d : StoredData} (hv : d.walletVersion = .v2 ∨ d.walletVersion = .v3)
    {pw pw' : Data} {seed' : Bytes} {secret' : Option Data} (h : recover p d pw = some (seed, some secret))
    (h' : recover p d pw' = some (seed', secret')) : secret' = some secret := by
  unfold recover at h h'
  rcases hv with hv | hv <;> rw [hv] at h h'
  · obtain ⟨s, hs, -, hsome⟩ := recoverEncrypted_eq_some.mp h
    obtain ⟨s', hs', -, rfl⟩ := recoverEncrypted_eq_some.mp h'
    cases hsome
    unfold secretUnderV2 at hs hs'
    split at hs
    · cases hs
    next t ht =>
    split at hs'
    · cases hs'
    next t' ht' =>
    split at hs'
    · cases hs'
    next hne =>
    cases hk.aes _ _ _ _ _ ht ht' hne
    cases ht.symm.trans ht'
    rw [if_neg hne] at hs
    cases hs
    exact hs'.symm
  · obtain ⟨s, hs, -, hsome⟩ := recoverEncrypted_eq_some.mp h
    obtain ⟨s', hs', -, rfl⟩ := recoverEncrypted_eq_some.mp h'
    cases hsome
    unfold secretUnderV3 at hs hs'
    split at hs
    next ct pwb hct hpwb =>
      rw [hct] at hs'
      split at hs'
      next ct' pwb' hct' hpwb' =>
        cases hct'
        obtain ⟨b, hb, rfl⟩ := Option.map_eq_some_iff.mp hs
        obtain ⟨b', hb', rfl⟩ := Option.map_eq_some_iff.mp hs'
        cases hk.gcm _ _ _ _ _ hb hb'
        cases hb.symm.trans hb'
        rfl
      · cases hs'
    · cases hs

theorem obtainedSeedEncrypted_password {w : Wallet Node} {o : UnlockOptions} {pw : Data} (ho : GivesPassword o pw)
    {secretUnder : Option Data → Option Data → Option Data} {seedUnder : Option Data → Option Data → Option Bytes} :
    obtainedSeedEncrypted w o secretUnder seedUnder =
      (recoverEncrypted w.stored pw secretUnder seedUnder).map Prod.fst := by
  unfold obtainedSeedEncrypted recoverEncrypted
  simp only [ho.primaryPrivateKey, ho.primarySeed, ho.secret, ho.conflict, ho.anyPassword, ho.encryptedPrimarySeed,
    ho.encryptedSecret, truthy, Bool.false_eq_true, if_false, Option.getD_none, Wallet.stored]
  cases secretUnder w.encryptedSecret (some pw) with
  | none => rfl
  | some secret =>
    dsimp only [Option.bind_eq_bind, Option.bind_some]
    cases seedUnder w.encryptedPrimarySeed (some secret) <;> rfl

/-- Whatever password is tried: an unlock that resolves leaves the secret of the wallet. -/
theorem Genuine.secret_of_ok (hk : Keyed p) {s : World Node} (h : Genuine p seed root password secret s.wallet)
    (hn : SameNetwork s) {a : Answers} {key : Str} {r : Option Bool}
    (hok : (call (JsSdk.unlock p a (unlockOptions none (some (.text key)))) s).1 = .ok r) :
    (after (JsSdk.unlock p a (unlockOptions none (some (.text key)))) s).wallet.secret = some secret := by
  cases hcall : (call (unlockVersion p (unlockOptions none (some (.text key)))) s).1 with
  | error e =>
    unfold JsSdk.unlock at hok
    rw [call_bind_fst_error hcall] at hok
    cases hok
  | ok root' =>
    have hout := (unlockVersion_spec p (unlockOptions none (some (.text key))) s hn).key
    rw [hcall] at hout
    obtain ⟨seed', hobtained, hroot⟩ := Option.bind_eq_some_iff.mp hout.symm
    have hrecover : ∃ secret', recover p s.wallet.stored (.text key) = some (seed', secret') := by
      unfold obtainedSeed at hobtained
      unfold recover
      rcases h.version with hv | hv <;> rw [hv] at hobtained <;> dsimp only at hobtained <;>
        rw [obtainedSeedEncrypted_password (givesPassword_unlockOptions _)] at hobtained
      · obtain ⟨⟨_, secret'⟩, hsome, rfl⟩ := Option.map_eq_some_iff.mp hobtained
        rw [show s.wallet.stored.walletVersion = .v2 from hv]
        exact ⟨secret', hsome⟩
      · obtain ⟨⟨_, secret'⟩, hsome, rfl⟩ := Option.map_eq_some_iff.mp hobtained
        rw [show s.wallet.stored.walletVersion = .v3 from hv]
        exact ⟨secret', hsome⟩
    obtain ⟨secret', hrecover⟩ := hrecover
    obtain rfl := recover_unique hk h.version h.recovers hrecover
    obtain ⟨kept, hc⟩ := JsSdk.unlockVersion_password hn (givesPassword_unlockOptions (.text key)) hrecover
      (toOption_eq_some hroot) fun hv => absurd hv h.not_v1
    rcases unlock_of_key (a := a) hc with ⟨-, ht⟩ | ⟨-, keyIndex, ⟨⟨k, b, c, ht⟩, -, -⟩⟩ <;> rw [ht] <;> rfl

/-! ## What the calls do -/

/-- The data of the right PIN, or of the password. -/
def Right (password : Str) (secret : Data) (data : UnlockData) : Prop :=
  data.secret = some (toHex secret) ∧ data.password = none ∨ data.secret = none ∧ data.password = some password

theorem Ready.unlockDataWithPin_wrong (hi : Inverts p) (hk : Keyed p) {d : Device Node} {pin pin' : Str}
    (h : Ready p seed root password secret d pin) (hpin : pin' ≠ pin) :
    ∃ message, call (unlockDataWithPin p pin') d = (.error (pinError message), d) := by
  obtain ⟨salt, ciphertext, isSecret, he, -, -, hinfo⟩ := h.holds.cases hk
  obtain ⟨message, hwrong⟩ := decryptWithPin_wrong hi hk he hpin
  refine ⟨message, ?_⟩
  rw [call_unlockDataWithPin, hinfo, hwrong]
  rfl

theorem Ready.unlockDataWithPin_right (hi : Inverts p) (hk : Keyed p) {d : Device Node} {pin : Str}
    (h : Ready p seed root password secret d pin) :
    ∃ isSecret : Bool, (d.stored .encryptedSecret = none ↔ isSecret = false) ∧
      ((if isSecret then toHex secret else password) = [] ∧
          call (unlockDataWithPin p pin) d = (.error (pinError "Bad PIN"), d) ∨
        (if isSecret then toHex secret else password) ≠ [] ∧ ∃ data, call (unlockDataWithPin p pin) d = (.ok data, d) ∧
          data.secret = (if isSecret then some (toHex secret) else none) ∧
          data.password = (if isSecret then none else some password)) := by
  obtain ⟨salt, ciphertext, isSecret, he, hsecret, -, hinfo⟩ := h.holds.cases hk
  refine ⟨isSecret, ?_, ?_⟩
  · rw [← Option.not_isSome_iff_eq_none, hsecret, Bool.not_eq_true]
  · rw [call_unlockDataWithPin, hinfo, decryptWithPin_right hi he]
    by_cases hempty : (if isSecret then toHex secret else password) = []
    · rw [if_pos hempty]
      exact Or.inl ⟨hempty, rfl⟩
    · rw [if_neg hempty]
      refine Or.inr ⟨hempty, _, rfl, ?_, ?_⟩ <;> cases isSecret <;> rfl

theorem Ready.onUnlock {d : Device Node} {pin : Str} (h : Ready p seed root password secret d pin) (a : Answers)
    (o : UnlockOptions) :
    Ready p seed root password secret { d with sdkWallet := after (JsSdk.unlock p a o) d.sdkWallet } pin := by
  obtain ⟨hgenuine, hnetwork⟩ := h.genuine.unlock h.sameNetwork a o
  refine ⟨hgenuine, hnetwork, h.idle, ?_⟩
  cases h.holds with
  | password hkeeps => exact .password ⟨hkeeps.kept, hkeeps.other⟩
  | secret hkeeps => exact .secret ⟨hkeeps.kept, hkeeps.other⟩

theorem Ready.onLock {d : Device Node} {pin : Str} (h : Ready p seed root password secret d pin) :
    Ready p seed root password secret (after (onWallet JsSdk.lock) d) pin := by
  refine ⟨h.genuine.of_same rfl rfl rfl rfl, h.sameNetwork, h.idle, ?_⟩
  cases h.holds with
  | password hkeeps => exact .password ⟨hkeeps.kept, hkeeps.other⟩
  | secret hkeeps => exact .secret ⟨hkeeps.kept, hkeeps.other⟩

theorem Ready.storesSecret {d : Device Node} {pin pin' : Str} (h : Ready p seed root password secret d pin)
    {salt : Bytes} {ciphertext : Str} (he : encryptWithPin p (some (toHex secret)) pin' salt = .ok ciphertext)
    (data : WalletInfo) (hsecret : data.get? .encryptedSecret = some (some ciphertext))
    (hpassword : data.get? .encryptedPassword = some none) :
    ∃ d', call (setWalletInfo data) d = (.ok (), d') ∧ Ready p seed root password secret d' pin' ∧
      d'.sdkWallet = d.sdkWallet := by
  obtain ⟨walletInfo, hcall, hidle, hstored⟩ := call_setWalletInfo h.idle (Option.isSome_iff_exists.mpr ⟨_, hsecret⟩)
  refine ⟨_, hcall, ⟨h.genuine, h.sameNetwork, hidle, .secret ⟨⟨salt, ciphertext, he, ?_⟩, ?_⟩⟩, rfl⟩
  · rw [hstored, hsecret]
    rfl
  · rw [hstored, hpassword]
    rfl

theorem Ready.storesPassword {d : Device Node} {pin pin' : Str} (h : Ready p seed root password secret d pin)
    {salt : Bytes} {ciphertext : Str} (he : encryptWithPin p (some password) pin' salt = .ok ciphertext)
    {data : WalletInfo} (hpassword : data.get? .encryptedPassword = some (some ciphertext))
    (hsecret : data.get? .encryptedSecret = some none) :
    ∃ d', call (setWalletInfo data) d = (.ok (), d') ∧ Ready p seed root password secret d' pin' := by
  obtain ⟨walletInfo, hcall, hidle, hstored⟩ := call_setWalletInfo h.idle (Option.isSome_iff_exists.mpr ⟨_, hpassword⟩)
  refine ⟨_, hcall, h.genuine, h.sameNetwork, hidle, .password ⟨⟨salt, ciphertext, he, ?_⟩, ?_⟩⟩
  · rw [hstored, hpassword]
    rfl
  · rw [hstored, hsecret]
    rfl

theorem Ready.storeSecret (hk : Keyed p) {d : Device Node} {pin : Str} (h : Ready p seed root password secret d pin)
    (hsecret : d.sdkWallet.wallet.secret = some secret) (a : Answers) :
    ∃ d', call (storeSecret p a pin) d = (.ok (), d') ∧ Ready p seed root password secret d' pin ∧
      d'.sdkWallet = d.sdkWallet := by
  obtain ⟨ciphertext, he, -⟩ := hk.encryptWithPin (toHex secret) pin a.aesSalt
  unfold PinStorage.storeSecret
  rw [call_get_bind, hsecret, call_orRaise_bind_ok (show secretHex (some secret) = .ok (toHex secret) from rfl),
    call_orRaise_bind_ok he]
  exact h.storesSecret he _ (by simp [Object.get?_set]) (by simp [Object.get?_set])

theorem Ready.updatePin (hk : Keyed p) {d : Device Node} {pin : Str} (h : Ready p seed root password secret d pin)
    (a : Answers) {data : UnlockData} (hdata : Right password secret data) (pin' : Str) :
    (∃ d', call (updatePin p a data pin') d = (.ok (), d') ∧ Ready p seed root password secret d' pin') ∨
      ∃ e, call (updatePin p a data pin') d = (.error e, d) := by
  unfold PinStorage.updatePin
  rcases hdata with ⟨hsecret, hpassword⟩ | ⟨hsecret, hpassword⟩
  · split
    · obtain ⟨ciphertext, he, -⟩ := hk.encryptWithPin (toHex secret) pin' a.aesSalt
      rw [hsecret, call_orRaise_bind_ok he]
      obtain ⟨d', hcall, hready, -⟩ := h.storesSecret he ((Object.empty.set .encryptedPassword none).set
        .encryptedSecret (some ciphertext)) (by simp [Object.get?_set]) (by simp [Object.get?_set])
      exact Or.inl ⟨d', hcall, hready⟩
    · rw [hpassword]
      exact Or.inr ⟨_, call_orRaise_bind_error rfl⟩
  · rw [hsecret, if_neg (by decide), hpassword]
    obtain ⟨ciphertext, he, -⟩ := hk.encryptWithPin password pin' a.aesSalt
    rw [call_orRaise_bind_ok he]
    exact Or.inl (h.storesPassword he (by simp [Object.get?_set]) (by simp [Object.get?_set]))

theorem setupWalletInfo_ready (hk : Keyed p) {d : Device Node}
    (hg : Genuine p seed root password secret d.sdkWallet.wallet) (hn : SameNetwork d.sdkWallet)
    (hidle : LocalStorage.Idle d.walletInfo) (hpassword : d.stored .encryptedPassword = none)
    (hsecret : d.sdkWallet.wallet.secret = some secret) (a : Answers) (identifier networkType pin : Str) :
    ∃ d', call (setupWalletInfo p a identifier networkType pin) d = (.ok (), d') ∧
      Ready p seed root password secret d' pin := by
  obtain ⟨ciphertext, he, -⟩ := hk.encryptWithPin (toHex secret) pin a.aesSalt
  unfold setupWalletInfo
  rw [call_get_bind, hsecret, call_orRaise_bind_ok (show secretHex (some secret) = .ok (toHex secret) from rfl),
    call_orRaise_bind_ok he]
  have hdata : ((((Object.empty.set .identifier (some identifier)).set .networkType (some networkType)).set
      .encryptedSecret (some ciphertext) : WalletInfo).get? .encryptedSecret).isSome = true := by
    simp [Object.get?_set]
  obtain ⟨walletInfo, hcall, hidle', hstored⟩ := call_setWalletInfo hidle hdata
  refine ⟨_, hcall, hg, hn, hidle', .secret ⟨⟨a.aesSalt, ciphertext, he, ?_⟩, ?_⟩⟩
  · rw [hstored]
    simp [Object.get?_set]
  · rw [hstored]
    simpa [Object.get?_set, Object.get?_empty] using hpassword

/-! ## unlockWithPin -/

theorem Ready.unlockWithPin_wrong (hi : Inverts p) (hk : Keyed p) {d : Device Node} {pin pin' : Str}
    (h : Ready p seed root password secret d pin) (hpin : pin' ≠ pin) (a : Answers) :
    ∃ message, call (unlockWithPin p a pin') d = (.error (pinError message), d) := by
  obtain ⟨message, hdata⟩ := h.unlockDataWithPin_wrong hi hk hpin
  exact ⟨message, call_bind_error hdata⟩

theorem Ready.unlockWithPin_right (hi : Inverts p) (hk : Keyed p) {d : Device Node} {pin : Str}
    (h : Ready p seed root password secret d pin) {a : Answers} (hopens : d.Opens p root password secret a) :
    ∃ d', call (unlockWithPin p a pin) d = (.ok (), d') ∧ Ready p seed root password secret d' pin ∧
      Recovered p seed (some secret) d'.sdkWallet := by
  obtain ⟨isSecret, hstored, ⟨hempty, -⟩ | ⟨-, data, hdata, hsecret, hpassword⟩⟩ := h.unlockDataWithPin_right hi hk
  · cases isSecret with
    | false => exact absurd hempty (hopens.password (hstored.mpr rfl))
    | true => exact absurd hempty (hopens.secret fun hnone => by cases hstored.mp hnone).2
  unfold unlockWithPin
  rw [call_bind_ok hdata, hsecret, hpassword]
  cases isSecret with
  | false =>
    obtain ⟨kept, hc⟩ := h.genuine.unlockVersion_password h.sameNetwork
    obtain ⟨hrecovered, hok⟩ := h.genuine.unlocked hc a
    obtain ⟨r, hr⟩ := hok.mpr hopens.upgrade
    obtain ⟨d', hcall, hready, hsdk⟩ := (h.onUnlock a _).storeSecret hk hrecovered.secret a
    refine ⟨d', ?_, hready, hsdk ▸ hrecovered⟩
    exact (call_bind_ok (call_onWallet hr)).trans hcall
  | true =>
    obtain ⟨hv, -⟩ := hopens.secret fun hnone => by cases hstored.mp hnone
    obtain ⟨kept, hc⟩ := h.genuine.unlockVersion_secret hv
    obtain ⟨hrecovered, hok⟩ := h.genuine.unlocked hc a
    obtain ⟨r, hr⟩ := hok.mpr hopens.upgrade
    exact ⟨_, call_bind_ok (call_onWallet hr), h.onUnlock a _, hrecovered⟩

theorem Ready.opens_of_ok (hi : Inverts p) (hk : Keyed p) {d : Device Node} {pin : Str}
    (h : Ready p seed root password secret d pin) {a : Answers} (hok : (call (unlockWithPin p a pin) d).1 = .ok ()) :
    d.Opens p root password secret a := by
  obtain ⟨isSecret, hstored, ⟨-, hdata⟩ | ⟨hne, data, hdata, hsecret, hpassword⟩⟩ := h.unlockDataWithPin_right hi hk
  · unfold unlockWithPin at hok
    rw [call_bind_error hdata] at hok
    cases hok
  unfold unlockWithPin at hok
  rw [call_bind_ok hdata, hsecret, hpassword] at hok
  dsimp only at hok
  have hunlock : ∃ r, (call (JsSdk.unlock p a (unlockOptions
      ((if isSecret then some (toHex secret) else none).map fun secret => Data.buffer (Hex.decode secret))
      ((if isSecret then none else some password).map Data.text))) d.sdkWallet).1 = .ok r := by
    rcases hr : (call (JsSdk.unlock p a (unlockOptions
      ((if isSecret then some (toHex secret) else none).map fun secret => Data.buffer (Hex.decode secret))
      ((if isSecret then none else some password).map Data.text))) d.sdkWallet).1 with e | r
    · rw [call_bind_error (call_onWallet hr)] at hok
      cases hok
    · exact ⟨r, rfl⟩
  cases isSecret with
  | false =>
    obtain ⟨kept, hc⟩ := h.genuine.unlockVersion_password h.sameNetwork
    exact ⟨fun _ => hne, fun hsome => absurd (hstored.mpr rfl) hsome, (h.genuine.unlocked hc a).2.mp hunlock⟩
  | true =>
    have hsome : d.stored .encryptedSecret ≠ none := fun hnone => by cases hstored.mp hnone
    rcases h.genuine.version with hv | hv
    · obtain ⟨e, he⟩ := h.genuine.secret_refused hk h.sameNetwork hv a (Hex.decode (toHex secret))
      obtain ⟨r, hr⟩ := hunlock
      cases he.symm.trans hr
    · obtain ⟨kept, hc⟩ := h.genuine.unlockVersion_secret hv
      exact ⟨fun hnone => absurd hnone hsome, fun _ => ⟨hv, hne⟩, (h.genuine.unlocked hc a).2.mp hunlock⟩

/-! ## PIN changes -/

theorem Ready.promptNewPin (hk : Keyed p) {d : Device Node} {pin : Str} (h : Ready p seed root password secret d pin)
    (a : Answers) {data : UnlockData} (hdata : Right password secret data) (dialogResult : Option DialogResult) :
    ∃ r d', call (promptNewPin p a data dialogResult) d = (r, d') ∧
      ((∃ pin', r = .ok (some pin') ∧ Ready p seed root password secret d' pin') ∨
        (∀ pin', r ≠ .ok (some pin')) ∧ Ready p seed root password secret d' pin) := by
  unfold PinStorage.promptNewPin
  split
  · exact ⟨_, _, rfl, Or.inr ⟨fun pin' => by rintro ⟨⟩, h⟩⟩
  · next result =>
    split
    · exact ⟨_, _, rfl, Or.inr ⟨fun pin' => by rintro ⟨⟩, h⟩⟩
    · rcases h.updatePin hk a hdata result.pinRepeat with ⟨d', hcall, hready⟩ | ⟨e, hcall⟩
      · exact ⟨_, _, call_bind_ok hcall, Or.inl ⟨_, rfl, hready⟩⟩
      · exact ⟨_, _, call_bind_error hcall, Or.inr ⟨fun pin' => by rintro ⟨⟩, h⟩⟩

/-- **A PIN change.** With the PIN or the password, right or wrong, the PIN that is current afterwards is the one the
wallet info is encrypted with. -/
theorem Ready.unlockData (hi : Inverts p) (hk : Keyed p) {d : Device Node} {pin : Str}
    (h : Ready p seed root password secret d pin) (a : Answers) (isPassword : Bool) (key : Str)
    (dialogResult : Option DialogResult) :
    ∃ r d', call (unlockData p a isPassword key dialogResult) d = (r, d') ∧
      ((∃ pin', r = .ok (some pin') ∧ Ready p seed root password secret d' pin') ∨
        (∀ pin', r ≠ .ok (some pin')) ∧ Ready p seed root password secret d' pin) := by
  cases isPassword with
  | true =>
    change ∃ r d', call (unlockWithPassword p a key >>= fun _ => get >>= _) d = (r, d') ∧ _
    have hunlock := h.onUnlock a (unlockOptions none (some (.text key)))
    rcases hr : (call (JsSdk.unlock p a (unlockOptions none (some (.text key)))) d.sdkWallet).1 with e | r
    · have hcall : call (unlockWithPassword p a key) d = (.error e,
          { d with sdkWallet := after (JsSdk.unlock p a (unlockOptions none (some (.text key)))) d.sdkWallet }) :=
        call_bind_error (call_onWallet hr)
      exact ⟨_, _, call_bind_error hcall, Or.inr ⟨fun pin' => by rintro ⟨⟩, hunlock⟩⟩
    · have hcall : call (unlockWithPassword p a key) d = (.ok (),
          { d with sdkWallet := after (JsSdk.unlock p a (unlockOptions none (some (.text key)))) d.sdkWallet }) :=
        call_bind_ok (call_onWallet hr)
      rw [call_bind_ok hcall, call_get_bind, h.genuine.secret_of_ok hk h.sameNetwork hr,
        call_orRaise_bind_ok (show secretHex (some secret) = .ok (toHex secret) from rfl)]
      exact hunlock.promptNewPin hk a (Or.inl ⟨rfl, rfl⟩) dialogResult
  | false =>
    change ∃ r d', call (unlockDataWithPin p key >>= fun data => PinStorage.promptNewPin p a data dialogResult) d =
      (r, d') ∧ _
    by_cases hpin : key = pin
    · subst hpin
      obtain ⟨isSecret, -, ⟨-, hdata⟩ | ⟨-, data, hdata, hsecret, hpassword⟩⟩ := h.unlockDataWithPin_right hi hk
      · exact ⟨_, _, call_bind_error hdata, Or.inr ⟨fun pin' => by rintro ⟨⟩, h⟩⟩
      · rw [call_bind_ok hdata]
        refine h.promptNewPin hk a ?_ dialogResult
        cases isSecret with
        | false => exact Or.inr ⟨hsecret, hpassword⟩
        | true => exact Or.inl ⟨hsecret, hpassword⟩
    · obtain ⟨message, hdata⟩ := h.unlockDataWithPin_wrong hi hk hpin
      exact ⟨_, _, call_bind_error hdata, Or.inr ⟨fun pin' => by rintro ⟨⟩, h⟩⟩

/-! ## Every run -/

structure Inv (p : Platform Node) (seed : Bytes) (root : Node) (password : Str) (secret : Data) (s : State Node) :
    Prop where
  ready : Ready p seed root password secret s.device s.pin
  right : ∀ attempt, s.last = some attempt → attempt.right = true →
    attempt.result = .ok () ∧ Recovered p seed (some secret) s.device.sdkWallet
  wrong : ∀ attempt, s.last = some attempt → attempt.right = false →
    (∃ message, attempt.result = .error (pinError message)) ∧ ∀ k, s.device.stored k = attempt.before.stored k

theorem Begins.inv {s : State Node} (h : Begins p seed root password secret s) :
    Inv p seed root password secret s := by
  refine ⟨h.ready, ?_, ?_⟩ <;> rw [h.last] <;> rintro attempt ⟨⟩

theorem Inv.sound (hk : Keyed p) {s : State Node} (h : Inv p seed root password secret s) :
    Sound p seed secret s := by
  refine ⟨?_, h.right, h.wrong⟩
  obtain ⟨salt, ciphertext, isSecret, -, hsecret, hpassword, -⟩ := h.ready.holds.cases hk
  intro heq
  rw [heq, hpassword] at hsecret
  cases isSecret <;> simp at hsecret

theorem inv_of_ready {d : Device Node} {pin : Str} (h : Ready p seed root password secret d pin) :
    Inv p seed root password secret ⟨d, pin, none⟩ :=
  ⟨h, by rintro attempt ⟨⟩, by rintro attempt ⟨⟩⟩

/-- **One step.** -/
theorem Inv.step (hi : Inverts p) (hk : Keyed p) {s : State Node} (h : Inv p seed root password secret s)
    {action : Action} (hok : Opens p root password secret s action) :
    Inv p seed root password secret (step p s action) := by
  cases action with
  | unlockWithPin a pin =>
    unfold PinStorage.step
    dsimp only
    by_cases hpin : pin = s.pin
    · obtain ⟨d', hcall, hready, hrecovered⟩ := h.ready.unlockWithPin_right hi hk (hok hpin)
      rw [hpin, hcall]
      refine ⟨hready, ?_, ?_⟩
      · rintro attempt ⟨⟩ -
        exact ⟨rfl, hrecovered⟩
      · rintro attempt ⟨⟩ hright
        simp at hright
    · obtain ⟨message, hcall⟩ := h.ready.unlockWithPin_wrong hi hk hpin a
      rw [hcall]
      refine ⟨h.ready, ?_, ?_⟩
      · rintro attempt ⟨⟩ hright
        exact absurd (of_decide_eq_true hright) hpin
      · rintro attempt ⟨⟩ -
        exact ⟨⟨message, rfl⟩, fun k => rfl⟩
  | lock => exact inv_of_ready h.ready.onLock
  | changePin a isPassword key dialogResult =>
    obtain ⟨r, d', hcall, ⟨pin', rfl, hready⟩ | ⟨hr, hready⟩⟩ := h.ready.unlockData hi hk a isPassword key dialogResult
    · unfold PinStorage.step
      dsimp only
      rw [hcall]
      exact inv_of_ready hready
    · unfold PinStorage.step
      dsimp only
      rw [hcall]
      rcases r with e | _ | pin'
      · exact inv_of_ready hready
      · exact inv_of_ready hready
      · exact absurd rfl (hr pin')

theorem Inv.opens (hi : Inverts p) (hk : Keyed p) {s : State Node} (h : Inv p seed root password secret s)
    {action : Action} (hsound : Sound p seed secret (PinStorage.step p s action)) :
    Opens p root password secret s action := by
  cases action with
  | unlockWithPin a pin =>
    rintro rfl
    exact h.ready.opens_of_ok hi hk (hsound.right _ rfl (decide_eq_true rfl)).1
  | lock => trivial
  | changePin a isPassword key dialogResult => trivial

/-- **PIN storage.** The current PIN unlocks the wallet every time, a wrong one changes nothing, and one field is
stored, in the runs that unlock only what is not empty and no secret of version 2, and in no others. -/
theorem pin_opens_iff (p : Platform Node) (hi : Inverts p) (hk : Keyed p) (seed : Bytes) (root : Node) (password : Str)
    (secret : Data) (s : State Node) (hs : Begins p seed root password secret s) (actions : List Action) :
    Always (step p) (Sound p seed secret) s actions ↔ Along (step p) (Opens p root password secret) s actions :=
  always_iff_along_of_inv (fun _ h => h.sound hk) (fun _ _ h hok => h.step hi hk hok)
    (fun _ _ h hsound => h.opens hi hk hsound) hs.inv

/-! ## A wallet of each version -/

/-- The length of the key, the key and the text. -/
def sealWith {α : Type} (one zero : α) (key text : List α) : List α :=
  List.replicate key.length one ++ zero :: (key ++ text)

def openWith {α : Type} [DecidableEq α] (one : α) (key text : List α) : Option (List α) :=
  let n := (text.takeWhile (· = one)).length
  let rest := text.drop (n + 1)
  if rest.take n = key then some (rest.drop n) else none

theorem openWith_sealWith {α : Type} [DecidableEq α] {one zero : α} (h : zero ≠ one) (key text : List α) :
    openWith one key (sealWith one zero key text) = some text := by
  have hn : (sealWith one zero key text).takeWhile (· = one) = List.replicate key.length one := by
    unfold sealWith
    rw [List.takeWhile_append_of_pos (by simp), List.takeWhile_cons_of_neg (by simp [h]), List.append_nil]
  unfold openWith
  dsimp only
  rw [hn, List.length_replicate]
  unfold sealWith
  rw [List.drop_append, List.length_replicate]
  simp

theorem openWith_key {α : Type} [DecidableEq α] {one : α} {key key' text pt pt' : List α}
    (h : openWith one key text = some pt) (h' : openWith one key' text = some pt') : key' = key := by
  unfold openWith at h h'
  dsimp only at h h'
  split at h
  · next hkey =>
    split at h'
    · next hkey' => exact hkey'.symm.trans hkey
    · cases h'
  · cases h

def pinPlatform : Platform SampleNode :=
  { samplePlatform with
    aesDecrypt := fun ct key =>
      match ct, key with
      | some (.text ct), some (.text key) => openWith '1' key ct
      | _, _ => none
    aesEncrypt := fun pt key _ =>
      match pt, key with
      | some (.text pt), .text key => .ok (sealWith '1' '0' key pt)
      | _, _ => .error ⟨"Error", "Malformed UTF-8 data"⟩
    gcmDecrypt := fun ct pw => openWith 1 pw ct
    gcmEncrypt := fun pt pw _ _ _ => sealWith 1 0 pw pt }

theorem pinPlatform_inverts : Inverts pinPlatform := by
  refine ⟨fun pt pw _ _ _ _ _ => openWith_sealWith (by decide) pw pt, ?_⟩
  rintro s (key | b) salt ct h
  · cases h
    exact openWith_sealWith (by decide) key s
  · cases h

theorem pinPlatform_keyed : Keyed pinPlatform := by
  refine ⟨fun text pin salt => ⟨sealWith '1' '0' pin text, by simp [sealWith], rfl⟩, ?_, fun _ _ _ _ _ => openWith_key⟩
  rintro (_ | ct | b) (key | b') (key' | b'') text text' h h' -
  all_goals first
    | exact congrArg Data.text (openWith_key h h')
    | cases h
    | cases h'

/-- The secret of the wallets. -/
def sampleSecret : Bytes := [7, 7]

def pinArgs (version : WalletVersion) : WalletArgs SampleNode :=
  { sampleArgs with
    walletVersion := version
    primaryMnemonic := none
    encryptedPrimarySeed := some (.text (if version = .v3 then Base64.encode (sealWith 1 0 sampleSecret (sampleRoot "right").seed)
      else sealWith '1' '0' (Hex.encode sampleSecret) (Base64.encode (sampleRoot "right").seed)))
    encryptedSecret := some (.text (if version = .v3 then Base64.encode (sealWith 1 0 (utf8 "right") sampleSecret)
      else sealWith '1' '0' "right" (Hex.encode sampleSecret))) }

def pinWorld (version : WalletVersion) : World SampleNode :=
  ⟨(newWallet sampleSdk (pinArgs version)).toOption.getD sampleWallet, sampleSdk, sampleServer⟩

/-- The wallet info has the password under the PIN `1234`. -/
def pinState (version : WalletVersion) : State SampleNode where
  device := ⟨pinWorld version, "BTC", LocalStorage.start (fun _ => .empty) (Documents.Store.empty.write ()
    (walletInfoDefaults.set .encryptedPassword (some (sealWith '1' '0' "1234" "right"))))⟩
  pin := "1234"
  last := none

theorem pinState_begins (version : WalletVersion) (secret : Data)
    (hv : version = .v2 ∧ secret = .text (Hex.encode sampleSecret) ∨ version = .v3 ∧ secret = .buffer sampleSecret) :
    Begins pinPlatform (sampleRoot "right").seed (sampleRoot "right") "right" secret (pinState version) := by
  have hn : SameNetwork (pinState version).device.sdkWallet := by
    rcases hv with ⟨rfl, -⟩ | ⟨rfl, -⟩ <;> rfl
  refine ⟨⟨⟨?_, ?_, ?_, ?_⟩, hn, ⟨rfl, rfl⟩, .password ⟨⟨[], _, rfl, ?_⟩, ?_⟩⟩, rfl⟩ <;>
    rcases hv with ⟨rfl, rfl⟩ | ⟨rfl, rfl⟩ <;> decide +kernel

def newPin (pin : Str) : Option DialogResult := some ⟨pin, pin⟩

/-- The PIN is changed with the PIN and with the password. -/
def changesRun : List Action :=
  [.unlockWithPin sampleAnswers "1234", .lock, .changePin sampleAnswers false "1234" (newPin "5678"),
    .unlockWithPin sampleAnswers "1234", .unlockWithPin sampleAnswers "5678",
    .changePin sampleAnswers true "right" (newPin "0000"), .unlockWithPin sampleAnswers "0000"]

theorem opens_v3 {d : Device SampleNode} (hv : d.sdkWallet.wallet.walletVersion = .v3)
    (hu : d.sdkWallet.wallet.upgradeToKeyIndex = none) (a : Answers) :
    d.Opens pinPlatform (sampleRoot "right") "right" (.buffer sampleSecret) a := by
  refine ⟨fun _ => by decide, fun _ => ⟨hv, by decide⟩, fun keyIndex h => ?_⟩
  rw [hu] at h
  cases h

theorem changesRun_sound :
    Always (step pinPlatform) (Sound pinPlatform (sampleRoot "right").seed (.buffer sampleSecret)) (pinState .v3)
      changesRun := by
  refine (pin_opens_iff pinPlatform pinPlatform_inverts pinPlatform_keyed _ (sampleRoot "right") "right" _ _
    (pinState_begins .v3 _ (Or.inr ⟨rfl, rfl⟩)) changesRun).mpr
    ⟨fun _ => opens_v3 ?_ ?_ _, trivial, trivial, fun _ => opens_v3 ?_ ?_ _, fun _ => opens_v3 ?_ ?_ _, trivial,
      fun _ => opens_v3 ?_ ?_ _, trivial⟩ <;> decide +kernel

/-- The second unlock of a version 2 wallet takes the secret for a key of bytes. -/
theorem second_unlock_fails :
    ¬Always (step pinPlatform) (Sound pinPlatform (sampleRoot "right").seed (.text (Hex.encode sampleSecret)))
      (pinState .v2) [.unlockWithPin sampleAnswers "1234", .lock, .unlockWithPin sampleAnswers "1234"] := by
  intro h
  have hresult := (h.last.right _ rfl rfl).1
  revert hresult
  decide +kernel

end PinStorage

end MobileWallet
