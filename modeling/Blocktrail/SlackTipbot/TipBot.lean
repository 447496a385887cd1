import Blocktrail.Lib.Lines
import Blocktrail.Lib.Runs
import Mathlib.Data.List.Nodup

/-! # The tip bot

Requests that need a confirmation wait as triggers in one list. A message that is no command goes through the triggers,
and a trigger that is answered or times out takes itself off the list.
-/

open Text

namespace SlackTipbot

/-! ## Texts -/

/-- `message.match(/…/g)`: every match, from left to right. `here` matches at the start of a text. -/
def matchAll (here : Str → Option Str) : Nat → Str → List Str
  | skip + 1, _ :: s => matchAll here skip s
  | 0, c :: s =>
    match here (c :: s) with
    | some found => found :: matchAll here (found.length - 1) s
    | none => matchAll here 0 s
  | _, [] => (here []).toList

/-- One of several words, the first that fits. -/
def oneOf (words : List Str) (s : Str) : Option Str := words.find? (·.isPrefixOf s)

def isAlphanumeric (c : Char) : Bool :=
  ('a' ≤ c ∧ c ≤ 'z') ∨ ('A' ≤ c ∧ c ≤ 'Z') ∨ ('0' ≤ c ∧ c ≤ '9')

/-- `[132Nm][a-zA-Z0-9]{25,36}` -/
def addressHere : Str → Option Str
  | [] => none
  | c :: s =>
    let rest := (s.takeWhile isAlphanumeric).take 36
    if c ∈ "132Nm".toList ∧ 25 ≤ rest.length then some (c :: rest) else none

/-- Whether one of the words stands in the message, in capitals or not. -/
def speaks (words : List String) (message : Str) : Bool := words.any fun word => has word.toList message

def balanceWords : List String := ["balance"]

def allBalancesWords : List String :=
  ["all balance", "allbalance", "every balance", "everybalance", "everys balance", "everysbalance", "everyone balance",
    "everyonebalance", "everyones balance", "everyonesbalance"]

def demandWords : List String :=
  ["ask", "demand", "deserve", "receive", "sendme", "send me", "giveme", "give me", "gimme", "ow me", "ows me", "owe me",
    "owes me", "own me", "owns me"]

def sendWords : List String := ["send", "give", "sent"]

def affirmativeWords : List String := ["OK", "yes", "fine", "sure"]

def negativeWords : List String := ["no"]

/-! ## Triggers -/

structure Channel where
  id : Str
  is_channel : Bool
  is_group : Bool

/-- What is put to a user. -/
inductive Request
  | withdraw (user dm : Str) (value : Int) (address : Str)
  | demand (mentioned user : Str) (value : Int)
deriving DecidableEq

inductive Reply
  | accepted
  | refused
deriving DecidableEq

/-- `matchFn`: what a message of a user is to a request. -/
def Request.matchFn (channel message user : Str) : Request → Option Reply
  | .withdraw own dm _ _ =>
    if channel = dm ∧ user = own ∧ speaks affirmativeWords message then some .accepted
    else if channel = dm ∧ user = own ∧ speaks negativeWords message then some .refused
    else none
  | .demand mentioned _ _ =>
    if user = mentioned ∧ speaks affirmativeWords message then some .accepted
    else if user = mentioned ∧ speaks negativeWords message then some .refused
    else none

/-- Triggers are objects: no two have one `ref`. -/
structure Trigger where
  ref : Nat
  request : Request
deriving DecidableEq

/-- A call of `user.withdraw` or `mentioned.send` by a trigger, and the message that it answers. -/
structure Execution where
  trigger : Trigger
  channel : Str
  user : Str
  message : Str

/-- What waits for `normalizeValue` to answer. -/
inductive Conversion
  | withdraw (user address : Str)
  | demand (user mentioned : Str)
  | send (user mentioned : Str)

/-- What `normalizeValue` calls back with: `rate === false`, `!value`, or a value. -/
inductive Normalized
  | unsupported
  | invalid
  | value (v : Int)

/-- A bot, with what it uses of Slack and of `bitcoinjs-lib`. -/
structure Config where
  selfId : Str
  getDMByUserId : Str → Option Str
  TESTNET : Bool
  TICKER : Str
  DEMAND : Bool
  /-- The version of an address. -/
  fromBase58Check : Str → Option Nat

structure TipBot where
  users : List Str
  userRegex : List Str
  CURRENCIES : List Str
  triggers : List Trigger
  /-- The timers that run. -/
  timers : List Nat
  created : Nat
  conversions : List Conversion
  executed : List Execution

namespace TipBot

def start : TipBot where
  users := []
  userRegex := []
  CURRENCIES := ["USD".toList, "EUR".toList, "GBP".toList]
  triggers := []
  timers := []
  created := 0
  conversions := []
  executed := []

/-- `trigger.destroy()`. `splice` without a count takes everything from the index on. -/
def destroy (self : TipBot) (ref : Nat) : TipBot :=
  match self.triggers.findIdx? (·.ref = ref) with
  | some idx => { self with triggers := self.triggers.take idx }
  | none => self

/-- `self.triggers.push(new Trigger(…))`, with its timeout. -/
def addTrigger (self : TipBot) (request : Request) : TipBot :=
  { self with
    triggers := self.triggers ++ [⟨self.created, request⟩]
    timers := self.created :: self.timers
    created := self.created + 1 }

/-- `trigger.match(…)` -/
def matchTrigger (self : TipBot) (channel message user : Str) (trigger : Trigger) : TipBot × Bool :=
  match trigger.request.matchFn channel message user with
  | some .accepted =>
    ({ self with executed := ⟨trigger, channel, user, message⟩ :: self.executed }.destroy trigger.ref, true)
  | some .refused => (self.destroy trigger.ref, true)
  | none => (self, false)

/-- `_.any(triggers, …)` over a copy of the list. -/
def anyTrigger (channel message user : Str) : TipBot → List Trigger → TipBot × Bool
  | self, [] => (self, false)
  | self, trigger :: triggers =>
    match self.matchTrigger channel message user trigger with
    | (self, true) => (self, true)
    | (self, false) => anyTrigger channel message user self triggers

/-! ## Users -/

structure Member where
  id : Str
  deleted : Bool
  is_bot : Bool

def updateUserRegex (o : Config) (self : TipBot) : TipBot :=
  { self with userRegex := self.users.filter (· ≠ o.selfId) }

def updateUserFromMember (o : Config) (self : TipBot) (member : Member) (updateRegex : Bool) : TipBot :=
  let self := if member.deleted then { self with users := self.users.filter (· ≠ member.id) } else self
  if member.deleted || member.is_bot then self
  else
    let self := if member.id ∈ self.users then self else { self with users := self.users ++ [member.id] }
    if updateRegex then updateUserRegex o self else self

/-- What `init` does with the list of users. -/
def initUsers (o : Config) (self : TipBot) (members : List Member) : TipBot :=
  updateUserRegex o (members.foldl (fun self member => updateUserFromMember o self member false) self)

/-! ## Messages -/

/-- The users that a message mentions. One that is known no more counts as the sender. -/
def userMatches (self : TipBot) (user message : Str) : List Str :=
  let ids := if self.userRegex = [] then [[]] else self.userRegex
  (((matchAll (oneOf ids) 0 message).filter (· ≠ user)).map fun id => if id ∈ self.users then id else user).eraseDups

/-- Whether `AMOUNT_REGEX` matches: everything but the unit may be missing. -/
def hasAmount (o : Config) (self : TipBot) (message : Str) : Bool :=
  let currencies := if self.CURRENCIES = [] then [[]] else self.CURRENCIES
  ("Satoshi".toList :: o.TICKER :: currencies).any fun unit => has unit message

def versions (o : Config) : List Nat := if o.TESTNET then [0x6f, 0xc4] else [0x00, 0x05]

/-- The one address of a message, if it is of the network. -/
def addressOf (o : Config) (message : Str) : Option Str :=
  match ((matchAll addressHere 0 message).filter fun a => (o.fromBase58Check a).isSome).eraseDups with
  | [address] => if (o.fromBase58Check address).any (· ∈ versions o) then some address else none
  | _ => none

inductive Command
  /-- Answered with texts, or not at all. -/
  | text
  | convert (conversion : Conversion)
  /-- No command so far: for the triggers. -/
  | other

/-- What a message is, down to the triggers. -/
def command (o : Config) (self : TipBot) (channel : Channel) (user message : Str) : Command :=
  if user ∉ self.users then .text
  else if user = o.selfId then .text
  else if (channel.is_channel || channel.is_group) && !decide (o.selfId <:+: message) then .text
  else if speaks allBalancesWords message then .text
  else if speaks balanceWords message then .text
  else if speaks ["deposit"] message then .text
  else if speaks ["withdraw"] message then
    match addressOf o message with
    | some address => if hasAmount o self message then .convert (.withdraw user address) else .text
    | none => .text
  else
    match userMatches self user message with
    | [mentioned] =>
      if hasAmount o self message && speaks demandWords message then
        if o.DEMAND then .convert (.demand user mentioned) else .text
      else if hasAmount o self message && speaks sendWords message then .convert (.send user mentioned)
      else .other
    | _ => .other

def onMessage (o : Config) (self : TipBot) (channel : Channel) (user message : Str) : TipBot :=
  match command o self channel user message with
  | .text => self
  | .convert conversion => { self with conversions := self.conversions ++ [conversion] }
  -- What no trigger takes is answered with texts.
  | .other => (anyTrigger channel.id message user self self.triggers).1

def MIN_TIP : Int := 10000

/-- The callback that `normalizeValue` is given. -/
def normalized (o : Config) (self : TipBot) : Conversion → Normalized → TipBot
  | .withdraw user address, .value value =>
    match o.getDMByUserId user with
    | some dm => self.addTrigger (.withdraw user dm value address)
    -- `dm.send` throws.
    | none => self
  | .demand user mentioned, .value value => if value < MIN_TIP then self else self.addTrigger (.demand mentioned user value)
  -- A payment that needs no confirmation, or a text.
  | _, _ => self

inductive Event
  | message (channel : Channel) (user message : Str)
  /-- `normalizeValue` answers one of those that wait. -/
  | normalized (i : Nat) (answer : Normalized)
  | timeout (ref : Nat)
  | init (members : List Member)
  | userChange (member : Member)
  | priceRates (currencies : List Str)

def step (o : Config) (self : TipBot) : Event → TipBot
  | .message channel user message => onMessage o self channel user message
  | .normalized i answer =>
    match self.conversions[i]? with
    | some conversion => normalized o { self with conversions := self.conversions.eraseIdx i } conversion answer
    | none => self
  | .timeout ref =>
    if ref ∈ self.timers then { self with timers := self.timers.erase ref }.destroy ref else self
  | .init members => initUsers o self members
  | .userChange member => updateUserFromMember o self member true
  | .priceRates currencies => { self with CURRENCIES := currencies.filter (· ≠ o.TICKER) }

end TipBot

end SlackTipbot
