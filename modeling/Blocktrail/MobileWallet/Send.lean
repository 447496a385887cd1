import Mathlib.Logic.Function.Basic
import Blocktrail.Lib.Runs
import Blocktrail.Lib.Text

/-! # The send screen

What is shown as the recipient, the contact and the address are fields of their own. Several actions write them, at once
or after a while, and a confirmation prepares the payment from what they are when its checks are over.
-/

open Runs Text

namespace MobileWallet

namespace Send

structure Contact where
  displayName : Str
  hashes : List Str
  /-- `matches.length > 0`. -/
  hasWallet : Bool
deriving DecidableEq

/-- What `recipientDisplay` was set to. -/
inductive Display
  | none
  | contact (contact : Contact)
  | address (address : Str)
  /-- A link is checked. -/
  | test
deriving DecidableEq

def Display.text : Display → Str
  | .none => []
  | .contact c => c.displayName
  | .address a => a
  | .test => "test"

/-- What the user has confirmed: what was shown and what was entered. Amounts are in satoshi. -/
structure Confirmed where
  shown : Display
  amount : Nat
deriving DecidableEq

inductive ConfirmStage
  | fetchingFee
  | lookingUp (contact : Contact)
  | toValidate
  | validating (address : Option Str)
  | readingWalletInfo
deriving DecidableEq

/-- A `confirmSend`, with the number of changes that the user had made. -/
structure Confirm where
  stage : ConfirmStage
  confirmed : Confirmed
  changes : Nat
deriving DecidableEq

inductive SendStage
  | lookingUp (contact : Contact)
  | unlocking
  | paying
deriving DecidableEq

/-- The scope of a screen where an address is typed. An amount of zero is none. -/
structure AddressInput where
  addressInput : Option Str
  addressAmount : Nat
deriving DecidableEq

/-- `$scope.pay`, and the confirmation that has prepared it. -/
structure Payment where
  address : Str
  amount : Nat
  confirmed : Confirmed
deriving DecidableEq

structure State where
  btcValue : Nat
  recipient : Option Contact
  recipientDisplay : Display
  recipientAddress : Option Str
  working : Bool
  pay : Option Payment
  addressInputs : Nat → AddressInput
  /-- The typed addresses that are checked, with their screens. -/
  inputs : Nat → Option (Nat × Str)
  /-- The links that are checked, with their amounts. -/
  uris : Nat → Option (Option Str × Option Nat)
  confirms : Nat → Option Confirm
  sends : Nat → Option SendStage
  /-- The number of changes of what is shown and of the amount. -/
  changes : Nat
  /-- What the contacts service has returned, and what `wallet.pay` was called with. -/
  returned : List (Contact × Str)
  paid : List Payment

def initial : State where
  btcValue := 0
  recipient := none
  recipientDisplay := .none
  recipientAddress := none
  working := false
  pay := none
  addressInputs := fun _ => ⟨none, 0⟩
  inputs := fun _ => none
  uris := fun _ => none
  confirms := fun _ => none
  sends := fun _ => none
  changes := 0
  returned := []
  paid := []

namespace State

def setConfirm (s : State) (id : Nat) (confirm : Option Confirm) : State :=
  { s with confirms := Function.update s.confirms id confirm }

def setSend (s : State) (id : Nat) (stage : Option SendStage) : State :=
  { s with sends := Function.update s.sends id stage }

/-- The contact that `getSendingAddress` looks up. -/
def toLookUp (s : State) : Option Contact := if s.recipientAddress.getD [] = [] then s.recipient else none

/-- `getSendingAddress` has looked a contact up. -/
def found (s : State) (contact : Contact) (address : Str) : State :=
  { s with recipientAddress := some address, returned := (contact, address) :: s.returned }

/-- An address is shown and cached. -/
def setAddress (s : State) (address : Str) (btcValue : Nat) : State :=
  { s with
    recipientDisplay := .address address
    recipientAddress := some address
    btcValue := btcValue
    changes := s.changes + 1 }

end State

/-! ## The recipient and the amount -/

/-- The address that is cached stays. -/
def selectContact (s : State) (contact : Contact) : State :=
  if contact.hasWallet then
    { s with recipient := some contact, recipientDisplay := .contact contact, changes := s.changes + 1 }
  else s

def confirmInput (s : State) (id screen : Nat) (address : Str) : State :=
  { s with
    addressInputs := Function.update s.addressInputs screen ⟨some address, (s.addressInputs screen).addressAmount⟩
    inputs := Function.update s.inputs id (some (screen, address)) }

def clearRecipient (s : State) : State :=
  { s with recipient := none, recipientDisplay := .none, recipientAddress := none, changes := s.changes + 1 }

def scanQR (s : State) (address : Str) (amount : Option Nat) : State :=
  (clearRecipient s).setAddress address (amount.getD s.btcValue)

/-- A link that has no address is found invalid. -/
def checkBitcoinUri (s : State) (id : Nat) (address : Option Str) (amount : Option Nat) : State :=
  { s with
    recipientDisplay := .test
    changes := s.changes + 1
    uris := Function.update s.uris id (some (address, amount)) }

def setAmount (s : State) (btcValue : Nat) : State := { s with btcValue := btcValue, changes := s.changes + 1 }

/-! ## Confirming and sending -/

def confirmSend (s : State) (id : Nat) : State :=
  if s.working then s
  else s.setConfirm id (some ⟨.fetchingFee, ⟨s.recipientDisplay, s.btcValue⟩, s.changes⟩)

/-- `possible`: the prioboost, if it was chosen. `funds`: the balance. -/
def feeFetched (s : State) (id : Nat) (possible : Bool) (funds : Nat) : State :=
  match s.confirms id with
  | some ⟨.fetchingFee, confirmed, changes⟩ =>
    if !possible || s.btcValue = 0 || funds ≤ s.btcValue || s.recipientDisplay.text = [] then s.setConfirm id none
    else
      match s.toLookUp with
      | some contact => s.setConfirm id (some ⟨.lookingUp contact, confirmed, changes⟩)
      | none => s.setConfirm id (some ⟨.toValidate, confirmed, changes⟩)
  | _ => s

/-- The contacts service answers a confirmation. -/
def addressFound (s : State) (id : Nat) (result : Option Str) : State :=
  match s.confirms id with
  | some ⟨.lookingUp contact, confirmed, changes⟩ =>
    match result with
    | some address => (s.found contact address).setConfirm id (some ⟨.toValidate, confirmed, changes⟩)
    | none => s.setConfirm id none
  | _ => s

def validate (s : State) (id : Nat) : State :=
  match s.confirms id with
  | some ⟨.toValidate, confirmed, changes⟩ =>
    s.setConfirm id (some ⟨.validating s.recipientAddress, confirmed, changes⟩)
  | _ => s

/-- `$scope.pay` is set for the address and the amount as they are now. -/
def prepare (s : State) (confirmed : Confirmed) : State :=
  { s with pay := some ⟨s.recipientAddress.getD "null", s.btcValue, confirmed⟩ }

def walletInfoRead (s : State) (id : Nat) : State :=
  match s.confirms id with
  | some ⟨.readingWalletInfo, _, _⟩ => s.setConfirm id none
  | _ => s

def send (s : State) (id : Nat) : State :=
  if s.working then s
  else
    match s.toLookUp with
    | some contact => { s with working := true }.setSend id (some (.lookingUp contact))
    | none => { s with working := true }.setSend id (some .unlocking)

/-- The contacts service answers a `send`. -/
def sendAddressFound (s : State) (id : Nat) (result : Option Str) : State :=
  match s.sends id with
  | some (.lookingUp contact) =>
    match result with
    | some address => (s.found contact address).setSend id (some .unlocking)
    | none => { s with working := false }.setSend id none
  | _ => s

/-- The wallet is unlocked and pays `$scope.pay`. -/
def unlocked (s : State) (id : Nat) (ok : Bool) : State :=
  match s.sends id with
  | some .unlocking =>
    if ok then { s with paid := s.pay.toList ++ s.paid }.setSend id (some .paying)
    else { s with working := false }.setSend id none
  | _ => s

def payDone (s : State) (id : Nat) : State :=
  match s.sends id with
  | some .paying => { s with working := false }.setSend id none
  | _ => s

section Wallet

-- `decodeAddress` of the SDK wallet
variable (valid : Str → Bool)

/-- `fromClipboard` has parsed what it has pasted. -/
def clipboardParsed (s : State) (screen : Nat) (address : Str) (amount : Nat) : State :=
  if valid address then
    let addressAmount := if amount = 0 then (s.addressInputs screen).addressAmount else amount
    { s with addressInputs := Function.update s.addressInputs screen ⟨some address, addressAmount⟩ }
  else s

/-- What the screen holds by now is taken, also where another address was checked, and an amount of the clipboard where
none is entered. -/
def inputValidated (s : State) (id : Nat) : State :=
  match s.inputs id with
  | some (screen, address) =>
    let s := { s with inputs := Function.update s.inputs id none }
    if valid address then
      let input := s.addressInputs screen
      s.setAddress (input.addressInput.getD address) (if s.btcValue = 0 then input.addressAmount else s.btcValue)
    else s
  | none => s

def uriValidated (s : State) (id : Nat) : State :=
  match s.uris id with
  | some (address, amount) =>
    let s := { s with uris := Function.update s.uris id none }
    match address with
    | some address => if valid address then s.setAddress address (amount.getD s.btcValue) else s
    | none => s
  | none => s

def validated (s : State) (id : Nat) : State :=
  match s.confirms id with
  | some ⟨.validating address, confirmed, changes⟩ =>
    if address.any valid then (prepare s confirmed).setConfirm id (some ⟨.readingWalletInfo, confirmed, changes⟩)
    else s.setConfirm id none
  | _ => s

/-! ## Runs -/

/-- What the user does, and the ends of what that starts, in any order. -/
inductive Action
  | selectContact (contact : Contact)
  | confirmInput (id screen : Nat) (address : Str)
  | clipboardParsed (screen : Nat) (address : Str) (amount : Nat)
  | inputValidated (id : Nat)
  | scanQR (address : Str) (amount : Option Nat)
  | checkBitcoinUri (id : Nat) (address : Option Str) (amount : Option Nat)
  | uriValidated (id : Nat)
  | clearRecipient
  | setAmount (btcValue : Nat)
  | confirmSend (id : Nat)
  | feeFetched (id : Nat) (possible : Bool) (funds : Nat)
  | addressFound (id : Nat) (result : Option Str)
  | validate (id : Nat)
  | validated (id : Nat)
  | walletInfoRead (id : Nat)
  | send (id : Nat)
  | sendAddressFound (id : Nat) (result : Option Str)
  | unlocked (id : Nat) (ok : Bool)
  | payDone (id : Nat)
deriving DecidableEq

def step (s : State) : Action → State
  | .selectContact contact => selectContact s contact
  | .confirmInput id screen address => confirmInput s id screen address
  | .clipboardParsed screen address amount => clipboardParsed valid s screen address amount
  | .inputValidated id => inputValidated valid s id
  | .scanQR address amount => scanQR s address amount
  | .checkBitcoinUri id address amount => checkBitcoinUri s id address amount
  | .uriValidated id => uriValidated valid s id
  | .clearRecipient => clearRecipient s
  | .setAmount btcValue => setAmount s btcValue
  | .confirmSend id => confirmSend s id
  | .feeFetched id possible funds => feeFetched s id possible funds
  | .addressFound id result => addressFound s id result
  | .validate id => validate s id
  | .validated id => validated valid s id
  | .walletInfoRead id => walletInfoRead s id
  | .send id => send s id
  | .sendAddressFound id result => sendAddressFound s id result
  | .unlocked id ok => unlocked s id ok
  | .payDone id => payDone s id

/-! ## What is relied on -/

/-- A payment is for what was shown and entered when it was confirmed. -/
structure Payment.Matches (returned : List (Contact × Str)) (p : Payment) : Prop where
  amount : p.amount = p.confirmed.amount
  address : match p.confirmed.shown with
    | .address address => p.address = address
    | .contact contact => (contact, p.address) ∈ returned
    | _ => False

def PaysShown (s : State) : Prop := ∀ p ∈ s.paid, p.Matches s.returned

/-- Neither an address nor another contact is shown. -/
def State.MayFind (s : State) (contact : Contact) : Prop :=
  s.recipientDisplay = .none ∨ s.recipientDisplay = .test ∨ s.recipientDisplay = .contact contact

/-- A contact is selected while no address is cached, the contacts service answers for what is shown, and a payment is
prepared while nothing was changed since it was confirmed and no link is being checked. -/
def Undisturbed (s : State) : Action → Prop
  | .selectContact contact => contact.hasWallet = true → s.recipientAddress.getD [] = []
  | .addressFound id result => result.isSome = true →
    ∀ contact confirmed changes, s.confirms id = some ⟨.lookingUp contact, confirmed, changes⟩ → s.MayFind contact
  | .sendAddressFound id result => result.isSome = true →
    ∀ contact, s.sends id = some (.lookingUp contact) → s.MayFind contact
  | .validated id => ∀ address confirmed changes, s.confirms id = some ⟨.validating address, confirmed, changes⟩ →
    address.any valid = true → changes = s.changes ∧ s.recipientDisplay ≠ .test
  | _ => True

end Wallet

/-! ## The invariant -/

/-- The cached address is that of what is shown. -/
structure Cached (s : State) : Prop where
  address : ∀ address, s.recipientDisplay = .address address → s.recipientAddress = some address
  recipient : ∀ contact, s.recipientDisplay = .contact contact → s.recipient = some contact
  contact : ∀ contact address, s.recipientDisplay = .contact contact → s.recipientAddress = some address →
    address = [] ∨ (contact, address) ∈ s.returned

/-- And there is one. -/
def Settled (s : State) : Prop :=
  ∀ contact, s.recipientDisplay = .contact contact →
    ∃ address, s.recipientAddress = some address ∧ (contact, address) ∈ s.returned

/-- What a confirmation knows unless something was changed. -/
structure Confirm.Ok (s : State) (c : Confirm) : Prop where
  le : c.changes ≤ s.changes
  confirmed : c.changes = s.changes → c.confirmed = ⟨s.recipientDisplay, s.btcValue⟩
  shown : c.changes = s.changes → c.stage ≠ .fetchingFee → s.recipientDisplay ≠ .none
  settled : c.changes = s.changes → c.stage = .toValidate ∨ (∃ address, c.stage = .validating address) → Settled s

structure Inv (s : State) : Prop where
  cached : Cached s
  confirms : ∀ id c, s.confirms id = some c → c.Ok s
  pay : ∀ p, s.pay = some p → p.Matches s.returned
  paid : PaysShown s

theorem initial_inv : Inv initial where
  cached := ⟨by rintro address ⟨⟩, by rintro contact ⟨⟩, by rintro contact address ⟨⟩⟩
  confirms := by rintro id c ⟨⟩
  pay := by rintro p ⟨⟩
  paid := by rintro p ⟨⟩

variable {valid : Str → Bool} {s s' : State}

/-! ## What changes leave -/

theorem Payment.Matches.mono {returned returned' : List (Contact × Str)} {p : Payment} (h : p.Matches returned)
    (hsub : ∀ r ∈ returned, r ∈ returned') : p.Matches returned' := by
  refine ⟨h.amount, ?_⟩
  have haddress := h.address
  split
  · next heq =>
    rw [heq] at haddress
    exact haddress
  · next heq =>
    rw [heq] at haddress
    exact hsub _ haddress
  · next hcontact haddr =>
    split at haddress
    · next heq => exact absurd heq (hcontact _)
    · next heq => exact absurd heq (haddr _)
    · exact haddress

/-- The user has changed something: no confirmation in progress prepares a payment any more. -/
theorem Confirm.Ok.changed {c : Confirm} (h : c.Ok s) (hchanges : s'.changes = s.changes + 1) : c.Ok s' := by
  have hne : c.changes ≠ s'.changes := by
    have := h.le
    omega
  have hle : c.changes ≤ s'.changes := by
    have := h.le
    omega
  exact ⟨hle, fun heq => absurd heq hne, fun heq => absurd heq hne, fun heq => absurd heq hne⟩

theorem Inv.changed (h : Inv s) (hcached : Cached s') (hchanges : s'.changes = s.changes + 1)
    (hconfirms : s'.confirms = s.confirms) (hpay : s'.pay = s.pay) (hpaid : s'.paid = s.paid)
    (hreturned : s'.returned = s.returned) : Inv s' where
  cached := hcached
  confirms := by
    intro id c hc
    rw [hconfirms] at hc
    exact (h.confirms id c hc).changed hchanges
  pay := by
    rw [hpay, hreturned]
    exact h.pay
  paid := by
    unfold PaysShown
    rw [hpaid, hreturned]
    exact h.paid

theorem Inv.setAddress (h : Inv s) (address : Str) (btcValue : Nat) : Inv (s.setAddress address btcValue) := by
  refine h.changed ⟨?_, by rintro contact ⟨⟩, by rintro contact address ⟨⟩⟩ rfl rfl rfl rfl rfl
  rintro address ⟨⟩
  rfl

theorem Inv.clearRecipient (h : Inv s) : Inv (clearRecipient s) :=
  h.changed ⟨by rintro address ⟨⟩, by rintro contact ⟨⟩, by rintro contact address ⟨⟩⟩ rfl rfl rfl rfl rfl

theorem Inv.selectContact (h : Inv s) {contact : Contact} (hok : Undisturbed valid s (.selectContact contact)) :
    Inv (selectContact s contact) := by
  unfold Send.selectContact
  split
  · next hwallet =>
    have hempty := hok hwallet
    refine h.changed ⟨by rintro address ⟨⟩, ?_, ?_⟩ rfl rfl rfl rfl rfl
    · rintro contact' ⟨⟩
      rfl
    · rintro contact' address ⟨⟩ haddress
      have hcached : s.recipientAddress = some address := haddress
      rw [hcached] at hempty
      exact Or.inl hempty
  · exact h

theorem Inv.checkBitcoinUri (h : Inv s) (id : Nat) (address : Option Str) (amount : Option Nat) :
    Inv (checkBitcoinUri s id address amount) :=
  h.changed ⟨by rintro address ⟨⟩, by rintro contact ⟨⟩, by rintro contact address ⟨⟩⟩ rfl rfl rfl rfl rfl

theorem Inv.setAmount (h : Inv s) (btcValue : Nat) : Inv (setAmount s btcValue) :=
  h.changed ⟨h.cached.address, h.cached.recipient, h.cached.contact⟩ rfl rfl rfl rfl rfl

theorem Confirm.Ok.same {c : Confirm} (h : c.Ok s) (hchanges : s'.changes = s.changes)
    (hdisplay : s'.recipientDisplay = s.recipientDisplay) (hvalue : s'.btcValue = s.btcValue)
    (haddress : s'.recipientAddress = s.recipientAddress) (hreturned : s'.returned = s.returned) : c.Ok s' := by
  refine ⟨hchanges ▸ h.le, ?_, ?_, ?_⟩
  · rw [hchanges, hdisplay, hvalue]
    exact h.confirmed
  · rw [hchanges, hdisplay]
    exact h.shown
  · unfold Settled
    rw [hchanges, hdisplay, haddress, hreturned]
    exact h.settled

theorem Inv.inputs (h : Inv s) (addressInputs : Nat → AddressInput) (inputs : Nat → Option (Nat × Str)) :
    Inv { s with addressInputs := addressInputs, inputs := inputs } :=
  ⟨⟨h.cached.address, h.cached.recipient, h.cached.contact⟩,
    fun id c hc => (h.confirms id c hc).same rfl rfl rfl rfl rfl, h.pay, h.paid⟩

theorem Inv.uris (h : Inv s) (uris : Nat → Option (Option Str × Option Nat)) : Inv { s with uris := uris } :=
  ⟨⟨h.cached.address, h.cached.recipient, h.cached.contact⟩,
    fun id c hc => (h.confirms id c hc).same rfl rfl rfl rfl rfl, h.pay, h.paid⟩

theorem Inv.working (h : Inv s) (working : Bool) : Inv { s with working := working } :=
  ⟨⟨h.cached.address, h.cached.recipient, h.cached.contact⟩,
    fun id c hc => (h.confirms id c hc).same rfl rfl rfl rfl rfl, h.pay, h.paid⟩

theorem Inv.setSend (h : Inv s) (id : Nat) (stage : Option SendStage) : Inv (s.setSend id stage) :=
  ⟨⟨h.cached.address, h.cached.recipient, h.cached.contact⟩,
    fun id c hc => (h.confirms id c hc).same rfl rfl rfl rfl rfl, h.pay, h.paid⟩

theorem Inv.clipboardParsed (h : Inv s) (screen : Nat) (address : Str) (amount : Nat) :
    Inv (clipboardParsed valid s screen address amount) := by
  unfold Send.clipboardParsed
  split
  · exact h.inputs _ s.inputs
  · exact h

theorem Inv.inputValidated (h : Inv s) (id : Nat) : Inv (inputValidated valid s id) := by
  unfold Send.inputValidated
  split
  · have hinputs := h.inputs s.addressInputs (Function.update s.inputs id none)
    dsimp only
    split
    · exact hinputs.setAddress _ _
    · exact hinputs
  · exact h

theorem Inv.uriValidated (h : Inv s) (id : Nat) : Inv (uriValidated valid s id) := by
  unfold Send.uriValidated
  split
  · have huris := h.uris (Function.update s.uris id none)
    dsimp only
    split
    · split
      · exact huris.setAddress _ _
      · exact huris
    · exact huris
  · exact h

/-! ## Confirmations -/

theorem Inv.setConfirm (h : Inv s) (id : Nat) {confirm : Option Confirm} (hok : ∀ c, confirm = some c → c.Ok s) :
    Inv (s.setConfirm id confirm) := by
  refine ⟨⟨h.cached.address, h.cached.recipient, h.cached.contact⟩, fun id' c hc => ?_, h.pay, h.paid⟩
  have hget : Function.update s.confirms id confirm id' = some c := hc
  rw [Function.update_apply] at hget
  have hold : c.Ok s := by
    split at hget
    · exact hok c hget
    · exact h.confirms id' c hget
  exact hold.same rfl rfl rfl rfl rfl

theorem Inv.endConfirm (h : Inv s) (id : Nat) : Inv (s.setConfirm id none) := h.setConfirm id (by rintro c ⟨⟩)

theorem Inv.confirmSend (h : Inv s) (id : Nat) : Inv (confirmSend s id) := by
  unfold Send.confirmSend
  split
  · exact h
  · refine h.setConfirm id ?_
    rintro c ⟨⟩
    refine ⟨le_refl s.changes, fun _ => rfl, fun _ hne => absurd rfl hne, ?_⟩
    rintro - (hstage | ⟨address, hstage⟩) <;> cases hstage

theorem Inv.feeFetched (h : Inv s) (id : Nat) (possible : Bool) (funds : Nat) :
    Inv (feeFetched s id possible funds) := by
  unfold Send.feeFetched
  split
  · next confirmed changes hid =>
    have hok := h.confirms id _ hid
    split
    · exact h.endConfirm id
    · next hchecks =>
      have hshown : s.recipientDisplay ≠ .none := by
        intro hnone
        rw [hnone] at hchecks
        simp [Display.text] at hchecks
      split
      · refine h.setConfirm id ?_
        rintro c ⟨⟩
        refine ⟨hok.le, hok.confirmed, fun _ _ => hshown, ?_⟩
        rintro - (hstage | ⟨address, hstage⟩) <;> cases hstage
      · next hlook =>
        refine h.setConfirm id ?_
        rintro c ⟨⟩
        refine ⟨hok.le, hok.confirmed, fun _ _ => hshown, fun _ _ contact hcontact => ?_⟩
        -- the contact was not looked up, because an address is cached
        unfold State.toLookUp at hlook
        split at hlook
        · cases (h.cached.recipient contact hcontact).symm.trans hlook
        · next hcached =>
          cases haddress : s.recipientAddress with
          | none =>
            rw [haddress] at hcached
            exact absurd rfl hcached
          | some address =>
            rw [haddress] at hcached
            rcases h.cached.contact contact address hcontact haddress with hempty | hreturned
            · exact absurd hempty hcached
            · exact ⟨address, rfl, hreturned⟩
  · exact h

/-- An address is cached that belongs to what is shown, if to anything. -/
theorem Inv.found (h : Inv s) {contact : Contact} (hmay : s.MayFind contact) (address : Str) :
    Inv (s.found contact address) ∧ Settled (s.found contact address) := by
  have hcontact : ∀ contact', s.recipientDisplay = .contact contact' → contact' = contact := by
    intro contact' heq
    unfold State.MayFind at hmay
    rw [heq] at hmay
    rcases hmay with hmay | hmay | hmay
    · cases hmay
    · cases hmay
    · cases hmay
      rfl
  have hsettled : Settled (s.found contact address) := by
    intro contact' heq
    rw [hcontact contact' heq]
    exact ⟨address, rfl, List.mem_cons_self⟩
  have hmono : ∀ r ∈ s.returned, r ∈ (s.found contact address).returned := fun r hr => List.mem_cons_of_mem _ hr
  refine ⟨⟨⟨?_, h.cached.recipient, ?_⟩, ?_, ?_, ?_⟩, hsettled⟩
  · intro address' heq
    have hdisplay : s.recipientDisplay = .address address' := heq
    unfold State.MayFind at hmay
    rw [hdisplay] at hmay
    rcases hmay with hmay | hmay | hmay <;> cases hmay
  · intro contact' address' heq haddress
    cases haddress
    obtain ⟨address', haddress', hmem⟩ := hsettled contact' heq
    cases haddress'
    exact Or.inr hmem
  · intro id c hc
    have hok := h.confirms id c hc
    exact ⟨hok.le, hok.confirmed, hok.shown, fun _ _ => hsettled⟩
  · exact fun p hp => (h.pay p hp).mono hmono
  · exact fun p hp => (h.paid p hp).mono hmono

theorem Inv.addressFound (h : Inv s) {id : Nat} {result : Option Str}
    (hok : Undisturbed valid s (.addressFound id result)) : Inv (addressFound s id result) := by
  unfold Send.addressFound
  split
  · next contact confirmed changes hid =>
    split
    · next address =>
      obtain ⟨hfound, hsettled⟩ := h.found (hok rfl contact confirmed changes hid) address
      have hconfirm := h.confirms id _ hid
      refine hfound.setConfirm id ?_
      rintro c ⟨⟩
      exact ⟨hconfirm.le, hconfirm.confirmed, fun heq _ => hconfirm.shown heq (by rintro ⟨⟩), fun _ _ => hsettled⟩
    · exact h.endConfirm id
  · exact h

theorem Inv.validate (h : Inv s) (id : Nat) : Inv (validate s id) := by
  unfold Send.validate
  split
  · next confirmed changes hid =>
    have hconfirm := h.confirms id _ hid
    refine h.setConfirm id ?_
    rintro c ⟨⟩
    exact ⟨hconfirm.le, hconfirm.confirmed, fun heq _ => hconfirm.shown heq (by rintro ⟨⟩),
      fun heq _ => hconfirm.settled heq (Or.inl rfl)⟩
  · exact h

theorem Inv.validated (h : Inv s) {id : Nat} (hok : Undisturbed valid s (.validated id)) :
    Inv (validated valid s id) := by
  unfold Send.validated
  split
  · next address confirmed changes hid =>
    split
    · next hvalid =>
      obtain ⟨hchanges, htest⟩ := hok address confirmed changes hid hvalid
      have hconfirm := h.confirms id _ hid
      have hconfirmed : confirmed = ⟨s.recipientDisplay, s.btcValue⟩ := hconfirm.confirmed hchanges
      have hshown := hconfirm.shown hchanges (by rintro ⟨⟩)
      have hsettled := hconfirm.settled hchanges (Or.inr ⟨address, rfl⟩)
      have hmatches : Payment.Matches s.returned ⟨s.recipientAddress.getD "null", s.btcValue, confirmed⟩ := by
        subst hconfirmed
        refine ⟨rfl, ?_⟩
        dsimp only
        cases hdisplay : s.recipientDisplay with
        | none => exact absurd hdisplay hshown
        | test => exact absurd hdisplay htest
        | address a =>
          rw [h.cached.address a hdisplay]
          rfl
        | contact c =>
          obtain ⟨a, ha, hmem⟩ := hsettled c hdisplay
          rw [ha]
          exact hmem
      have hprepared : Inv (prepare s confirmed) := by
        refine ⟨⟨h.cached.address, h.cached.recipient, h.cached.contact⟩,
          fun id c hc => (h.confirms id c hc).same rfl rfl rfl rfl rfl, ?_, h.paid⟩
        rintro p ⟨⟩
        exact hmatches
      refine hprepared.setConfirm id ?_
      rintro c ⟨⟩
      refine ⟨hconfirm.le, hconfirm.confirmed, fun heq _ => hconfirm.shown heq (by rintro ⟨⟩), ?_⟩
      rintro - (hstage | ⟨a, hstage⟩) <;> cases hstage
    · exact h.endConfirm id
  · exact h

theorem Inv.walletInfoRead (h : Inv s) (id : Nat) : Inv (walletInfoRead s id) := by
  unfold Send.walletInfoRead
  split
  · exact h.endConfirm id
  · exact h

/-! ## Payments -/

theorem Inv.send (h : Inv s) (id : Nat) : Inv (send s id) := by
  unfold Send.send
  split
  · exact h
  · split
    · exact (h.working true).setSend id _
    · exact (h.working true).setSend id _

theorem Inv.sendAddressFound (h : Inv s) {id : Nat} {result : Option Str}
    (hok : Undisturbed valid s (.sendAddressFound id result)) : Inv (sendAddressFound s id result) := by
  unfold Send.sendAddressFound
  split
  · next contact hid =>
    split
    · next address => exact (h.found (hok rfl contact hid) address).1.setSend id _
    · exact (h.working false).setSend id none
  · exact h

theorem Inv.unlocked (h : Inv s) (id : Nat) (ok : Bool) : Inv (unlocked s id ok) := by
  unfold Send.unlocked
  split
  · split
    · suffices hinv : Inv { s with paid := s.pay.toList ++ s.paid } from hinv.setSend id _
      refine ⟨⟨h.cached.address, h.cached.recipient, h.cached.contact⟩,
        fun id c hc => (h.confirms id c hc).same rfl rfl rfl rfl rfl, h.pay, fun p hp => ?_⟩
      rcases List.mem_append.mp hp with hpay | hold
      · exact h.pay p (Option.mem_toList.mp hpay)
      · exact h.paid p hold
    · exact (h.working false).setSend id none
  · exact h

theorem Inv.payDone (h : Inv s) (id : Nat) : Inv (payDone s id) := by
  unfold Send.payDone
  split
  · exact (h.working false).setSend id none
  · exact h

theorem Inv.step (h : Inv s) {a : Action} (hok : Undisturbed valid s a) : Inv (step valid s a) := by
  cases a with
  | selectContact contact => exact h.selectContact hok
  | confirmInput id screen address => exact h.inputs _ _
  | clipboardParsed screen address amount => exact h.clipboardParsed screen address amount
  | inputValidated id => exact h.inputValidated id
  | scanQR address amount => exact h.clearRecipient.setAddress address _
  | checkBitcoinUri id address amount => exact h.checkBitcoinUri id address amount
  | uriValidated id => exact h.uriValidated id
  | clearRecipient => exact h.clearRecipient
  | setAmount btcValue => exact h.setAmount btcValue
  | confirmSend id => exact h.confirmSend id
  | feeFetched id possible funds => exact h.feeFetched id possible funds
  | addressFound id result => exact h.addressFound hok
  | validate id => exact h.validate id
  | validated id => exact h.validated hok
  | walletInfoRead id => exact h.walletInfoRead id
  | send id => exact h.send id
  | sendAddressFound id result => exact h.sendAddressFound hok
  | unlocked id ok => exact h.unlocked id ok
  | payDone id => exact h.payDone id

/-- **The send screen.** In an undisturbed run the wallet pays what was shown and entered when the payment was
confirmed. -/
theorem pays_shown (valid : Str → Bool) (actions : List Action)
    (hok : Along (step valid) (Undisturbed valid) initial actions) : Always (step valid) PaysShown initial actions :=
  (always_of_along (fun _ _ h hok => h.step hok) initial_inv hok).mono fun _ h => h.paid

/-! ## A contact with a foreign address -/

def alice : Contact := ⟨"Alice", ["hash"], true⟩

/-- The amount is entered and confirmed, the payment is sent and the wallet unlocked. -/
def payRun : List Action :=
  [.setAmount 5000, .confirmSend 0, .feeFetched 0 true 100000, .validate 0, .validated 0, .walletInfoRead 0, .send 0,
    .unlocked 0 true]

/-- A contact is paid, whose address is looked up, while an amount is changed and confirmed again. Then an address is
scanned and paid to. -/
def contactRun : List Action :=
  [.selectContact alice, .setAmount 4000, .confirmSend 1, .setAmount 5000, .confirmSend 0, .feeFetched 0 true 100000,
    .feeFetched 1 false 100000, .addressFound 0 (some "1ALiCeSLRHtKNngkdXEeobR76b53LETtpyT"), .validate 0,
    .validated 0, .send 0, .walletInfoRead 0, .unlocked 0 true, .payDone 0,
    .scanQR "1BoatSLRHtKNngkdXEeobR76b53LETtpyT" none] ++ payRun

theorem contactRun_pays_shown : Always (step fun _ => true) PaysShown initial contactRun := by
  refine pays_shown (fun _ => true) contactRun
    ⟨fun _ => rfl, trivial, trivial, trivial, trivial, trivial, trivial, ?_, trivial, ?_, trivial, trivial, trivial,
      trivial, trivial, trivial, trivial, trivial, trivial, ?_, trivial, trivial, trivial, trivial⟩
  · rintro - contact confirmed changes hid
    cases hid
    exact Or.inr (Or.inr rfl)
  · rintro address confirmed changes hid -
    cases hid
    exact ⟨rfl, by rintro ⟨⟩⟩
  · rintro address confirmed changes hid -
    cases hid
    exact ⟨rfl, by rintro ⟨⟩⟩

/-- While the contacts are listed a link is opened, and then a contact is selected. -/
def foreignRun : List Action :=
  [.checkBitcoinUri 0 (some "1BoatSLRHtKNngkdXEeobR76b53LETtpyT") none, .uriValidated 0, .selectContact alice] ++ payRun

/-- The contact is shown, and the address of the link is paid. -/
theorem pays_foreign : (foreignRun.foldl (step fun _ => true) initial).paid =
      [⟨"1BoatSLRHtKNngkdXEeobR76b53LETtpyT", 5000, ⟨.contact alice, 5000⟩⟩] ∧
    ¬Always (step fun _ => true) PaysShown initial foreignRun := by
  have hpaid : (foreignRun.foldl (step fun _ => true) initial).paid =
      [⟨"1BoatSLRHtKNngkdXEeobR76b53LETtpyT", 5000, ⟨.contact alice, 5000⟩⟩] := by decide +kernel
  refine ⟨hpaid, fun h => ?_⟩
  have hmatches := (h.last _ (by rw [hpaid]; exact List.mem_cons_self)).address
  have hnone : (foreignRun.foldl (step fun _ => true) initial).returned = [] := by decide +kernel
  rw [hnone] at hmatches
  cases hmatches

end Send

end MobileWallet
