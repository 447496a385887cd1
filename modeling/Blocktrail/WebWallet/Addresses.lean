import Mathlib.Logic.Function.Basic
import Mathlib.Data.List.Nodup
import Blocktrail.Lib.Documents
import Blocktrail.Lib.Runs
import Blocktrail.Lib.Text

/-! # Receiving addresses

A document keeps addresses for when the SDK cannot be asked. Refills put addresses into it and `getNewAddress` takes
them off; a refill puts back all that its first read listed.
-/

open Documents Runs Text

namespace WebWallet

namespace Addresses

/-! ## Calls -/

/-- An address that is no empty string. -/
abbrev Address := { address : Str // address ≠ [] }

/-- `Array.prototype.unique`, of addresses: the first of each. -/
def unique : List Address → List Address
  | [] => []
  | a :: as => a :: (unique as).filter (· ≠ a)

/-- How far a `refillOfflineAddresses` is. `old` is what its first read listed, `fetched` what the SDK has given it. -/
inductive Refill
  | reading (max : Int)
  | fetching (old fetched : List Address) (pending : Nat)
  | rereading (old fetched : List Address)
  | saving (rev : Option Nat) (available old fetched : List Address)
deriving DecidableEq

/-- How far a `getNewAddress` is. -/
inductive Take
  | reading
  | saving (rev : Option Nat) (address : Address) (rest : List Address)
  /-- No offline address: the SDK is asked. -/
  | asking
deriving DecidableEq

structure State where
  addresses : Slot (List Address)
  isRefilling : Bool
  refills : Nat → Option Refill
  takes : Nat → Option Take
  /-- The number of addresses that the SDK has given. -/
  given : Nat
  /-- What the calls of `getNewAddress` have returned. -/
  returned : List Address
  /-- What the SDK has given to the refills that are complete. -/
  obtained : List Address

namespace State

/-- The addresses of the document; one that is missing has none. -/
def available (s : State) : List Address := ((s.addresses.get ()).map Prod.snd).getD []

def setRefill (s : State) (id : Nat) (stage : Option Refill) : State :=
  { s with refills := Function.update s.refills id stage }

def setTake (s : State) (id : Nat) (stage : Option Take) : State :=
  { s with takes := Function.update s.takes id stage }

end State

/-- No call is made yet. -/
def start (stored : Slot (List Address)) : State := ⟨stored, false, fun _ => none, fun _ => none, 0, [], []⟩

/-- The calls are numbered. Their reads, their writes and the SDK's answers to them come in any order. -/
inductive Action
  | refillOfflineAddresses (id : Nat) (max : Int)
  | readRefill (id : Nat)
  | answerRefill (id : Nat) (ok : Bool)
  | writeRefill (id : Nat) (ok : Bool)
  | getNewAddress (id : Nat)
  | readTake (id : Nat)
  | writeTake (id : Nat) (ok : Bool)
  | answerTake (id : Nat) (ok : Bool)
  /-- The SDK gives an address to nobody, as to a refill that has failed meanwhile. -/
  | discard
deriving DecidableEq

/-! ## Steps -/

def amountOfOfflineAddresses : Int := 30

/-- A call while a refill is in progress gets the promise of that one. -/
def refillOfflineAddresses (s : State) (id : Nat) (max : Int) : State :=
  if s.isRefilling then s else { s with isRefilling := true }.setRefill id (some (.reading max))

def readRefill (s : State) (id : Nat) : State :=
  match s.refills id with
  | some (.reading max) =>
    let refill := amountOfOfflineAddresses - s.available.length
    let cappedRefill := min (min refill max) 5
    if 0 < cappedRefill then s.setRefill id (some (.fetching s.available [] cappedRefill.toNat))
    else { s with isRefilling := false }.setRefill id none
  | some (.rereading old fetched) =>
    s.setRefill id (some (.saving (s.addresses.revision ()) (unique (s.available ++ (old ++ fetched))) old fetched))
  | _ => s

def answerRefill (sdk : Nat → Address) (s : State) (id : Nat) (ok : Bool) : State :=
  match s.refills id with
  | some (.fetching old fetched pending) =>
    if ok then
      let fetched := fetched ++ [sdk s.given]
      { s with given := s.given + 1 }.setRefill id
        (if pending ≤ 1 then some (.rereading old fetched) else some (.fetching old fetched (pending - 1)))
    else { s with isRefilling := false }.setRefill id none
  | _ => s

/-- The chain of the second read is not returned: its failure goes nowhere. -/
def writeRefill (s : State) (id : Nat) (ok : Bool) : State :=
  match s.refills id with
  | some (.saving rev available _ fetched) =>
    match if ok then s.addresses.put () rev available else none with
    | some stored =>
      { s with
        addresses := stored
        isRefilling := false
        obtained := s.obtained ++ fetched }.setRefill id none
    | none => s.setRefill id none
  | _ => s

def getNewAddress (s : State) (id : Nat) : State :=
  match s.takes id with
  | none => s.setTake id (some .reading)
  | some _ => s

def readTake (s : State) (id : Nat) : State :=
  match s.takes id with
  | some .reading =>
    match s.available with
    | [] => s.setTake id (some .asking)
    | address :: rest => s.setTake id (some (.saving (s.addresses.revision ()) address rest))
  | _ => s

def writeTake (s : State) (id : Nat) (ok : Bool) : State :=
  match s.takes id with
  | some (.saving rev address rest) =>
    match if ok then s.addresses.put () rev rest else none with
    | some stored => { s with addresses := stored, returned := s.returned ++ [address] }.setTake id none
    | none => s.setTake id (some .asking)
  | _ => s

def answerTake (sdk : Nat → Address) (s : State) (id : Nat) (ok : Bool) : State :=
  match s.takes id with
  | some .asking =>
    if ok then { s with given := s.given + 1, returned := s.returned ++ [sdk s.given] }.setTake id none
    else s.setTake id none
  | _ => s

def step (sdk : Nat → Address) (s : State) : Action → State
  | .refillOfflineAddresses id max => refillOfflineAddresses s id max
  | .readRefill id => readRefill s id
  | .answerRefill id ok => answerRefill sdk s id ok
  | .writeRefill id ok => writeRefill s id ok
  | .getNewAddress id => getNewAddress s id
  | .readTake id => readTake s id
  | .writeTake id ok => writeTake s id ok
  | .answerTake id ok => answerTake sdk s id ok
  | .discard => { s with given := s.given + 1 }

/-! ## What is relied on -/

structure Safe (s : State) : Prop where
  once : s.returned.Nodup
  kept : ∀ a ∈ s.obtained, a ∈ s.returned ∨ a ∈ s.available
  /-- With no refill in progress, a call starts one. -/
  restarts : (∀ id, s.refills id = none) → ∀ id max, (refillOfflineAddresses s id max).refills id = some (.reading max)

/-- A refill that saves is not disturbed: the store accepts its write, and nothing that its first read listed has been
handed out since. -/
def Undisturbed (s : State) : Action → Prop
  | .writeRefill id ok =>
    match s.refills id with
    | some (.saving rev _ old _) => ok = true ∧ rev = s.addresses.revision () ∧ ∀ x ∈ old, x ∉ s.returned
    | _ => True
  | _ => True

/-! ## Unique lists -/

theorem mem_unique {as : List Address} {a : Address} : a ∈ unique as ↔ a ∈ as := by
  induction as with
  | nil => rfl
  | cons b as ih =>
    unfold unique
    rw [List.mem_cons, List.mem_filter, ih, List.mem_cons]
    by_cases h : a = b
    · simp [h]
    · simp [h]

theorem nodup_unique (as : List Address) : (unique as).Nodup := by
  induction as with
  | nil => exact List.nodup_nil
  | cons b as ih =>
    unfold unique
    refine List.nodup_cons.mpr ⟨?_, ih.filter _⟩
    simp

/-! ## The invariant -/

section Sdk

variable (sdk : Nat → Address)

/-- The SDK will not give the address any more. -/
def Given (s : State) (a : Address) : Prop := ∀ i, s.given ≤ i → sdk i ≠ a

/-- A revision that has been read. -/
def Seen (s : State) (rev : Option Nat) : Prop := ∀ r, rev = some r → r < s.addresses.clock

/-- What a refill has read and fetched: the first is in the document or handed out, the second is neither. -/
structure Snapshot (s : State) (old fetched : List Address) : Prop where
  nodup : fetched.Nodup
  given : ∀ a ∈ fetched, Given sdk s a
  apart : ∀ a ∈ fetched, a ∉ s.available ∧ a ∉ s.returned
  old : ∀ a ∈ old, a ∈ s.available ∨ a ∈ s.returned

def Refill.Ok (s : State) : Refill → Prop
  | .reading _ => True
  | .fetching old fetched _ => Snapshot sdk s old fetched
  | .rereading old fetched => Snapshot sdk s old fetched
  | .saving rev available old fetched =>
    Snapshot sdk s old fetched ∧ Seen s rev ∧
      (rev = s.addresses.revision () → available = unique (s.available ++ (old ++ fetched)))

def Take.Ok (s : State) : Take → Prop
  | .saving rev address rest => Seen s rev ∧ (rev = s.addresses.revision () → s.available = address :: rest)
  | _ => True

structure Inv (s : State) : Prop where
  returnedNodup : s.returned.Nodup
  availableNodup : s.available.Nodup
  apart : ∀ a ∈ s.available, a ∉ s.returned
  given : ∀ a, a ∈ s.available ∨ a ∈ s.returned → Given sdk s a
  kept : ∀ a ∈ s.obtained, a ∈ s.returned ∨ a ∈ s.available
  /-- One refill is in progress, or none. -/
  flag : s.isRefilling = false ∧ (∀ id, s.refills id = none) ∨
    s.isRefilling = true ∧ ∃ id stage, s.refills id = some stage ∧ ∀ id', id' ≠ id → s.refills id' = none
  refills : ∀ id stage, s.refills id = some stage → stage.Ok sdk s
  takes : ∀ id stage, s.takes id = some stage → stage.Ok s

variable {sdk} {s s' : State}

/-! ## What a change of the document leaves -/

theorem Given.mono (h : s.given ≤ s'.given) {a : Address} (ha : Given sdk s a) : Given sdk s' a :=
  fun i hi => ha i (h.trans hi)

/-- The document is as it was, or has a revision that nobody has read. -/
def Saved (s s' : State) : Prop :=
  s'.addresses = s.addresses ∨
    s'.addresses.revision () = some s.addresses.clock ∧ s.addresses.clock ≤ s'.addresses.clock

theorem Seen.saved {rev : Option Nat} (h : Seen s rev) (hs : Saved s s') : Seen s' rev := by
  rcases hs with hs | ⟨-, hclock⟩
  · unfold Seen
    rw [hs]
    exact h
  · exact fun r hr => Nat.lt_of_lt_of_le (h r hr) hclock

theorem available_saved (hs : s'.addresses = s.addresses) : s'.available = s.available := by
  unfold State.available
  rw [hs]

/-- What was read before a put is not current after it. -/
theorem Seen.current {rev : Option Nat} (h : Seen s rev) (hs : Saved s s')
    (hrev : rev = s'.addresses.revision ()) : s'.addresses = s.addresses := by
  rcases hs with hs | ⟨hnew, -⟩
  · exact hs
  · exact absurd (h s.addresses.clock (hrev.trans hnew)) (Nat.lt_irrefl _)

theorem Take.Ok.saved {stage : Take} (h : stage.Ok s) (hs : Saved s s') : stage.Ok s' := by
  cases stage with
  | reading => trivial
  | asking => trivial
  | saving rev address rest =>
    refine ⟨h.1.saved hs, fun hrev => ?_⟩
    have hsame := h.1.current hs hrev
    rw [available_saved hsame]
    exact h.2 (by rw [hrev, hsame])

/-- Addresses move from the document to the callers, and new ones come from the SDK. -/
structure Moves (sdk : Nat → Address) (s s' : State) : Prop where
  given : s.given ≤ s'.given
  kept : ∀ a, a ∈ s.available ∨ a ∈ s.returned → a ∈ s'.available ∨ a ∈ s'.returned
  fresh : ∀ a, a ∈ s'.available ∨ a ∈ s'.returned → (a ∈ s.available ∨ a ∈ s.returned) ∨ ¬Given sdk s a
  saved : Saved s s'

theorem Moves.same (hgiven : s.given ≤ s'.given) (haddresses : s'.addresses = s.addresses)
    (hreturned : s'.returned = s.returned) : Moves sdk s s' where
  given := hgiven
  kept := by
    intro a ha
    rwa [available_saved haddresses, hreturned]
  fresh := by
    intro a ha
    rw [available_saved haddresses, hreturned] at ha
    exact Or.inl ha
  saved := Or.inl haddresses

theorem Snapshot.moves {old fetched : List Address} (h : Snapshot sdk s old fetched) (hm : Moves sdk s s') :
    Snapshot sdk s' old fetched where
  nodup := h.nodup
  given := fun a ha => (h.given a ha).mono hm.given
  apart := by
    intro a ha
    rw [← not_or]
    intro hmem
    rcases hm.fresh a hmem with hold | hnew
    · exact (not_or.mpr (h.apart a ha)) hold
    · exact hnew (h.given a ha)
  old := fun a ha => hm.kept a (h.old a ha)

theorem Refill.Ok.moves {stage : Refill} (h : stage.Ok sdk s) (hm : Moves sdk s s') : stage.Ok sdk s' := by
  cases stage with
  | reading max => trivial
  | fetching old fetched pending => exact Snapshot.moves h hm
  | rereading old fetched => exact Snapshot.moves h hm
  | saving rev available old fetched =>
    refine ⟨h.1.moves hm, h.2.1.saved hm.saved, fun hrev => ?_⟩
    have hsame := h.2.1.current hm.saved hrev
    rw [available_saved hsame]
    exact h.2.2 (by rw [hrev, hsame])

/-! ## What a step keeps -/

theorem seen_revision (s : State) : Seen s (s.addresses.revision ()) := by
  intro r hr
  unfold Store.revision at hr
  obtain ⟨row, hrow, rfl⟩ := Option.map_eq_some_iff.mp hr
  exact s.addresses.revs_lt () row hrow

theorem Inv.setTake (h : Inv sdk s) (id : Nat) {stage : Option Take} (hstage : ∀ t, stage = some t → t.Ok s) :
    Inv sdk (s.setTake id stage) where
  returnedNodup := h.returnedNodup
  availableNodup := h.availableNodup
  apart := h.apart
  given := h.given
  kept := h.kept
  flag := h.flag
  refills := fun id' r hr => (h.refills id' r hr).moves (Moves.same (le_refl s.given) rfl rfl)
  takes := by
    intro id' t ht
    have hget : Function.update s.takes id stage id' = some t := ht
    rw [Function.update_apply] at hget
    have hok : t.Ok s := by
      split at hget
      · exact hstage t hget
      · exact h.takes id' t hget
    exact hok.saved (Or.inl rfl)

theorem Inv.setRefill (h : Inv sdk s) {id : Nat} (hothers : ∀ id', id' ≠ id → s.refills id' = none) {flag : Bool}
    {stage : Option Refill} (hflag : flag = stage.isSome) (hstage : ∀ r, stage = some r → r.Ok sdk s) :
    Inv sdk ({ s with isRefilling := flag }.setRefill id stage) where
  returnedNodup := h.returnedNodup
  availableNodup := h.availableNodup
  apart := h.apart
  given := h.given
  kept := h.kept
  flag := by
    have hnone : ∀ id', id' ≠ id → Function.update s.refills id stage id' = none := by
      intro id' hne
      rw [Function.update_of_ne hne]
      exact hothers id' hne
    cases stage with
    | none =>
      refine Or.inl ⟨hflag, fun id' => ?_⟩
      by_cases hid : id' = id
      · subst hid
        exact Function.update_self id' none s.refills
      · exact hnone id' hid
    | some r =>
      have hself : Function.update s.refills id (some r) id = some r := Function.update_self id (some r) s.refills
      exact Or.inr ⟨hflag, id, r, hself, hnone⟩
  refills := by
    intro id' r hr
    have hget : Function.update s.refills id stage id' = some r := hr
    rw [Function.update_apply] at hget
    have hok : r.Ok sdk s := by
      split at hget
      · exact hstage r hget
      · exact h.refills id' r hget
    exact hok.moves (Moves.same (le_refl s.given) rfl rfl)
  takes := fun id' t ht => (h.takes id' t ht).saved (Or.inl rfl)

theorem Inv.others (h : Inv sdk s) {id : Nat} {stage : Refill} (hid : s.refills id = some stage) :
    s.isRefilling = true ∧ ∀ id', id' ≠ id → s.refills id' = none := by
  rcases h.flag with ⟨-, hnone⟩ | ⟨hflag, id0, stage0, -, hothers⟩
  · rw [hnone id] at hid
    cases hid
  · obtain rfl : id = id0 := by
      by_contra hne
      rw [hothers id hne] at hid
      cases hid
    exact ⟨hflag, hothers⟩

theorem Inv.setStage (h : Inv sdk s) {id : Nat} {stage : Refill} (hid : s.refills id = some stage) {r : Refill}
    (hr : r.Ok sdk s) : Inv sdk (s.setRefill id (some r)) := by
  obtain ⟨hflag, hothers⟩ := h.others hid
  have hset : Inv sdk ({ s with isRefilling := true }.setRefill id (some r)) :=
    h.setRefill hothers rfl (by rintro r' ⟨⟩; exact hr)
  rw [← hflag] at hset
  exact hset

theorem Inv.endRefill (h : Inv sdk s) {id : Nat} {stage : Refill} (hid : s.refills id = some stage) :
    Inv sdk ({ s with isRefilling := false }.setRefill id none) :=
  h.setRefill (h.others hid).2 rfl (by rintro r ⟨⟩)

/-! ## Steps -/

theorem Inv.refillOfflineAddresses (h : Inv sdk s) (id : Nat) (max : Int) :
    Inv sdk (refillOfflineAddresses s id max) := by
  unfold Addresses.refillOfflineAddresses
  split
  · exact h
  · next hflag =>
    have hnone : ∀ id', s.refills id' = none := by
      rcases h.flag with ⟨-, hnone⟩ | ⟨htrue, -⟩
      · exact hnone
      · exact absurd htrue hflag
    exact h.setRefill (fun id' _ => hnone id') rfl (by rintro r ⟨⟩; trivial)

theorem Inv.readRefill (h : Inv sdk s) (id : Nat) : Inv sdk (readRefill s id) := by
  unfold Addresses.readRefill
  split
  · next max hid =>
    dsimp only
    split
    · have hsnapshot : Snapshot sdk s s.available [] := ⟨List.nodup_nil, by simp, by simp, fun a ha => Or.inl ha⟩
      exact h.setStage hid hsnapshot
    · exact h.endRefill hid
  · next old fetched hid =>
    have hsnapshot : Snapshot sdk s old fetched := h.refills id _ hid
    exact h.setStage hid ⟨hsnapshot, seen_revision s, fun _ => rfl⟩
  · exact h

/-- The SDK gives an address, and it goes nowhere. -/
theorem Inv.discard (h : Inv sdk s) : Inv sdk { s with given := s.given + 1 } where
  returnedNodup := h.returnedNodup
  availableNodup := h.availableNodup
  apart := h.apart
  given := fun a ha => (h.given a ha).mono (Nat.le_succ s.given)
  kept := h.kept
  flag := h.flag
  refills := fun id r hr => (h.refills id r hr).moves (Moves.same (Nat.le_succ s.given) rfl rfl)
  takes := fun id t ht => (h.takes id t ht).saved (Or.inl rfl)

theorem not_given_next (s : State) : ¬Given sdk s (sdk s.given) := fun h => h s.given le_rfl rfl

theorem given_next (hsdk : Function.Injective sdk) (hs : s'.given = s.given + 1) : Given sdk s' (sdk s.given) := by
  intro i hi he
  have := hsdk he
  omega

theorem Snapshot.fetch (hsdk : Function.Injective sdk) (h : Inv sdk s) {old fetched : List Address}
    (hs : Snapshot sdk s old fetched) :
    Snapshot sdk { s with given := s.given + 1 } old (fetched ++ [sdk s.given]) where
  nodup := by
    refine List.nodup_append.mpr ⟨hs.nodup, List.nodup_singleton _, ?_⟩
    rintro a ha b hb rfl
    rw [List.mem_singleton.mp hb] at ha
    exact not_given_next s (hs.given _ ha)
  given := by
    intro a ha
    rcases List.mem_append.mp ha with ha | ha
    · exact (hs.given a ha).mono (Nat.le_succ s.given)
    · rw [List.mem_singleton.mp ha]
      exact given_next hsdk rfl
  apart := by
    intro a ha
    rcases List.mem_append.mp ha with ha | ha
    · exact hs.apart a ha
    · rw [List.mem_singleton.mp ha]
      exact ⟨fun hmem => not_given_next s (h.given _ (Or.inl hmem)),
        fun hmem => not_given_next s (h.given _ (Or.inr hmem))⟩
  old := hs.old

theorem Inv.answerRefill (hsdk : Function.Injective sdk) (h : Inv sdk s) (id : Nat) (ok : Bool) :
    Inv sdk (answerRefill sdk s id ok) := by
  unfold Addresses.answerRefill
  split
  · next old fetched pending hid =>
    cases ok with
    | false => exact h.endRefill hid
    | true =>
      have hsnapshot : Snapshot sdk s old fetched := h.refills id _ hid
      have hfetch := Snapshot.fetch hsdk h hsnapshot
      rw [if_pos rfl]
      dsimp only
      split
      · exact h.discard.setStage hid hfetch
      · exact h.discard.setStage hid hfetch
  · exact h

/-! ## The save of a refill -/

theorem available_write {s t : State} {available : List Address}
    (ht : t.addresses = s.addresses.write () available) : t.available = available := by
  unfold State.available
  rw [ht, Store.get_write_self]
  rfl

theorem saved_write (s : State) {t : State} {available : List Address}
    (ht : t.addresses = s.addresses.write () available) : Saved s t := by
  refine Or.inr ⟨?_, ?_⟩
  · rw [ht, Store.revision, Store.get_write_self]
    rfl
  · rw [ht]
    exact Nat.le_succ s.addresses.clock

/-- Undisturbed, a refill saves the addresses that are there and those that it has fetched. -/
theorem Inv.writeRefill (h : Inv sdk s) {id : Nat} {ok : Bool}
    (hok : Undisturbed s (.writeRefill id ok)) : Inv sdk (writeRefill s id ok) := by
  unfold Addresses.writeRefill
  split
  · next rev available old fetched hid =>
    simp only [Undisturbed, hid] at hok
    obtain ⟨rfl, hrev, hreturned⟩ := hok
    obtain ⟨hsnapshot, -, havailable⟩ := h.refills id _ hid
    obtain ⟨-, hothers⟩ := h.others hid
    rw [if_pos rfl, hrev, Store.put_revision]
    dsimp only
    have hmem : ∀ a, a ∈ available ↔ a ∈ s.available ∨ a ∈ fetched := by
      intro a
      rw [havailable hrev, mem_unique]
      simp only [List.mem_append]
      constructor
      · rintro (ha | ha | ha)
        · exact Or.inl ha
        · exact Or.inl ((hsnapshot.old a ha).resolve_right (hreturned a ha))
        · exact Or.inr ha
      · rintro (ha | ha)
        · exact Or.inl ha
        · exact Or.inr (Or.inr ha)
    generalize ht : State.setRefill { s with
      addresses := s.addresses.write () available
      isRefilling := false
      obtained := s.obtained ++ fetched } id none = t
    have haddresses : t.addresses = s.addresses.write () available := by rw [← ht]; rfl
    have hreturned' : t.returned = s.returned := by rw [← ht]; rfl
    have hgiven : t.given = s.given := by rw [← ht]; rfl
    have havail : t.available = available := available_write haddresses
    exact {
      returnedNodup := by
        rw [hreturned']
        exact h.returnedNodup
      availableNodup := by
        rw [havail, havailable hrev]
        exact nodup_unique _
      apart := by
        intro a ha
        rw [havail, hmem] at ha
        rw [hreturned']
        rcases ha with ha | ha
        · exact h.apart a ha
        · exact (hsnapshot.apart a ha).2
      given := by
        intro a ha
        rw [havail, hmem, hreturned'] at ha
        refine Given.mono hgiven.ge ?_
        rcases ha with (ha | ha) | ha
        · exact h.given a (Or.inl ha)
        · exact hsnapshot.given a ha
        · exact h.given a (Or.inr ha)
      kept := by
        intro a ha
        have hobtained : a ∈ s.obtained ++ fetched := by rw [← ht] at ha; exact ha
        rw [havail, hmem, hreturned']
        rcases List.mem_append.mp hobtained with ha | ha
        · exact (h.kept a ha).imp (fun hret => hret) Or.inl
        · exact Or.inr (Or.inr ha)
      flag := by
        rw [← ht]
        refine Or.inl ⟨rfl, fun id' => ?_⟩
        show Function.update s.refills id none id' = none
        rw [Function.update_apply]
        split
        · rfl
        · next hne => exact hothers id' hne
      refills := by
        intro id' r hr
        rw [← ht] at hr
        have hget : Function.update s.refills id none id' = some r := hr
        rw [Function.update_apply] at hget
        split at hget
        · cases hget
        · next hne =>
          rw [hothers id' hne] at hget
          cases hget
      takes := by
        intro id' stage hstage
        rw [← ht] at hstage
        exact (h.takes id' stage hstage).saved (saved_write s haddresses) }
  · exact h

/-! ## The takes -/

theorem Inv.getNewAddress (h : Inv sdk s) (id : Nat) : Inv sdk (getNewAddress s id) := by
  unfold Addresses.getNewAddress
  split
  · exact h.setTake id (by rintro t ⟨⟩; trivial)
  · exact h

theorem Inv.readTake (h : Inv sdk s) (id : Nat) : Inv sdk (readTake s id) := by
  unfold Addresses.readTake
  split
  · split
    · exact h.setTake id (by rintro t ⟨⟩; trivial)
    · next address rest hread => exact h.setTake id (by rintro t ⟨⟩; exact ⟨seen_revision s, fun _ => hread⟩)
  · exact h

/-- The invariant moves along with the addresses; the lists of the state after are what is left to show. -/
theorem Inv.moves {t : State} (h : Inv sdk s) (hm : Moves sdk s t) (hreturned : t.returned.Nodup)
    (havailable : t.available.Nodup) (hapart : ∀ a ∈ t.available, a ∉ t.returned)
    (hgiven : ∀ a, a ∈ t.available ∨ a ∈ t.returned → Given sdk t a) (hobtained : t.obtained = s.obtained)
    (hflag : t.isRefilling = s.isRefilling) (hrefills : t.refills = s.refills) (htakes : t.takes = s.takes) :
    Inv sdk t where
  returnedNodup := hreturned
  availableNodup := havailable
  apart := hapart
  given := hgiven
  kept := by
    intro a ha
    rw [hobtained] at ha
    exact (hm.kept a (h.kept a ha).symm).symm
  flag := by
    rw [hflag, hrefills]
    exact h.flag
  refills := by
    intro id r hr
    rw [hrefills] at hr
    exact (h.refills id r hr).moves hm
  takes := by
    intro id stage hstage
    rw [htakes] at hstage
    exact (h.takes id stage hstage).saved hm.saved

theorem nodup_concat {l : List Address} (hl : l.Nodup) {a : Address} (ha : a ∉ l) : (l ++ [a]).Nodup := by
  refine List.nodup_append.mpr ⟨hl, List.nodup_singleton a, ?_⟩
  rintro x hx b hb rfl
  rw [List.mem_singleton.mp hb] at hx
  exact ha hx

theorem Inv.writeTake (h : Inv sdk s) (id : Nat) (ok : Bool) : Inv sdk (writeTake s id ok) := by
  unfold Addresses.writeTake
  split
  · next rev address rest hid =>
    cases hput : (if ok then s.addresses.put () rev rest else none) with
    | none => exact h.setTake id (by rintro t ⟨⟩; trivial)
    | some stored =>
      have hput' : s.addresses.put () rev rest = some stored := by
        cases ok with
        | false => cases hput
        | true => exact hput
      obtain ⟨hrev, rfl⟩ := Store.put_eq_some.mp hput'
      have havail : s.available = address :: rest := (h.takes id _ hid).2 hrev
      obtain ⟨hnotin, hrest⟩ := List.nodup_cons.mp (havail ▸ h.availableNodup)
      have haddress : address ∉ s.returned := h.apart address (by simp [havail])
      dsimp only
      generalize ht : ({ s with
        addresses := s.addresses.write () rest
        returned := s.returned ++ [address] } : State) = t
      have haddresses : t.addresses = s.addresses.write () rest := by rw [← ht]
      have hreturned : t.returned = s.returned ++ [address] := by rw [← ht]
      have hgiven : t.given = s.given := by rw [← ht]
      have havail' : t.available = rest := available_write haddresses
      have hmem : ∀ a, a ∈ t.available ∨ a ∈ t.returned ↔ a ∈ s.available ∨ a ∈ s.returned := by
        intro a
        rw [havail', hreturned, havail]
        simp only [List.mem_append, List.mem_cons, List.not_mem_nil, or_false]
        tauto
      have hmoves : Moves sdk s t :=
        ⟨hgiven.ge, fun a ha => (hmem a).mpr ha, fun a ha => Or.inl ((hmem a).mp ha), saved_write s haddresses⟩
      have hinv : Inv sdk t := by
        refine h.moves hmoves ?_ ?_ ?_ ?_ (by rw [← ht]) (by rw [← ht]) (by rw [← ht]) (by rw [← ht])
        · rw [hreturned]
          exact nodup_concat h.returnedNodup haddress
        · rw [havail']
          exact hrest
        · intro a ha
          rw [havail'] at ha
          rw [hreturned, List.mem_append, List.mem_singleton, not_or]
          refine ⟨h.apart a (by simp [havail, ha]), ?_⟩
          rintro rfl
          exact hnotin ha
        · intro a ha
          exact (h.given a ((hmem a).mp ha)).mono hgiven.ge
      exact hinv.setTake id (by rintro t' ⟨⟩)
  · exact h

theorem Inv.answerTake (hsdk : Function.Injective sdk) (h : Inv sdk s) (id : Nat) (ok : Bool) :
    Inv sdk (answerTake sdk s id ok) := by
  unfold Addresses.answerTake
  split
  · cases ok with
    | false => exact h.setTake id (by rintro t ⟨⟩)
    | true =>
      rw [if_pos rfl]
      generalize ht : ({ s with given := s.given + 1, returned := s.returned ++ [sdk s.given] } : State) = t
      have haddresses : t.addresses = s.addresses := by rw [← ht]
      have hreturned : t.returned = s.returned ++ [sdk s.given] := by rw [← ht]
      have hgiven : t.given = s.given + 1 := by rw [← ht]
      have havail : t.available = s.available := available_saved haddresses
      have hnew : ∀ a, a ∈ s.available ∨ a ∈ s.returned → a ≠ sdk s.given := by
        rintro a ha rfl
        exact not_given_next s (h.given _ ha)
      have hmem : ∀ a, a ∈ t.available ∨ a ∈ t.returned ↔ (a ∈ s.available ∨ a ∈ s.returned) ∨ a = sdk s.given := by
        intro a
        rw [havail, hreturned, List.mem_append, List.mem_singleton, or_assoc]
      have hmoves : Moves sdk s t := by
        refine ⟨by omega, fun a ha => (hmem a).mpr (Or.inl ha), fun a ha => ?_, Or.inl haddresses⟩
        rcases (hmem a).mp ha with ha | rfl
        · exact Or.inl ha
        · exact Or.inr (not_given_next s)
      have hinv : Inv sdk t := by
        refine h.moves hmoves ?_ ?_ ?_ ?_ (by rw [← ht]) (by rw [← ht]) (by rw [← ht]) (by rw [← ht])
        · rw [hreturned]
          exact nodup_concat h.returnedNodup fun hr => hnew _ (Or.inr hr) rfl
        · rw [havail]
          exact h.availableNodup
        · intro a ha
          rw [havail] at ha
          rw [hreturned, List.mem_append, List.mem_singleton, not_or]
          exact ⟨h.apart a ha, hnew a (Or.inl ha)⟩
        · intro a ha
          rcases (hmem a).mp ha with ha | rfl
          · exact (h.given a ha).mono (by omega)
          · exact given_next hsdk hgiven
      exact hinv.setTake id (by rintro t' ⟨⟩)
  · exact h

/-! ## Runs -/

theorem Inv.step (hsdk : Function.Injective sdk) (h : Inv sdk s) {a : Action} (hok : Undisturbed s a) :
    Inv sdk (step sdk s a) := by
  cases a with
  | refillOfflineAddresses id max => exact h.refillOfflineAddresses id max
  | readRefill id => exact h.readRefill id
  | answerRefill id ok => exact h.answerRefill hsdk id ok
  | writeRefill id ok => exact h.writeRefill hok
  | getNewAddress id => exact h.getNewAddress id
  | readTake id => exact h.readTake id
  | writeTake id ok => exact h.writeTake id ok
  | answerTake id ok => exact h.answerTake hsdk id ok
  | discard => exact h.discard

theorem Inv.safe (h : Inv sdk s) : Safe s where
  once := h.returnedNodup
  kept := h.kept
  restarts := by
    intro hnone id max
    have hflag : s.isRefilling = false := by
      rcases h.flag with ⟨hflag, -⟩ | ⟨-, id', stage, hid, -⟩
      · exact hflag
      · rw [hnone id'] at hid
        cases hid
    unfold Addresses.refillOfflineAddresses
    rw [hflag]
    exact Function.update_self id (some (.reading max)) s.refills

theorem start_inv {stored : Slot (List Address)} (hnodup : (start stored).available.Nodup)
    (hgiven : ∀ a ∈ (start stored).available, ∀ i, sdk i ≠ a) : Inv sdk (start stored) where
  returnedNodup := List.nodup_nil
  availableNodup := hnodup
  apart := fun a _ => List.not_mem_nil
  given := by
    rintro a (ha | ha)
    · exact fun i _ => hgiven a ha i
    · cases ha
  kept := by rintro a ⟨⟩
  flag := Or.inl ⟨rfl, fun _ => rfl⟩
  refills := by rintro id stage ⟨⟩
  takes := by rintro id stage ⟨⟩

end Sdk

/-- **Addresses.** In a run whose refills save undisturbed, no address is returned twice or lost, and a refill runs
again after one that has failed. -/
theorem safe_of_undisturbed (sdk : Nat → Address) (hsdk : Function.Injective sdk) (stored : Slot (List Address))
    (hnodup : (start stored).available.Nodup) (hgiven : ∀ a ∈ (start stored).available, ∀ i, sdk i ≠ a)
    (actions : List Action) (hok : Along (step sdk) Undisturbed (start stored) actions) :
    Always (step sdk) Safe (start stored) actions :=
  (always_of_along (fun _ _ h hok => h.step hsdk hok) (start_inv hnodup hgiven) hok).mono fun _ h => h.safe

/-! ## An address that is handed out twice -/

def sampleSdk (n : Nat) : Address := ⟨List.replicate (n + 1) 'a', List.cons_ne_nil _ _⟩

theorem sampleSdk_injective : Function.Injective sampleSdk := by
  intro m n h
  have hlength := congrArg (fun a : Address => a.val.length) h
  simpa [sampleSdk] using hlength

/-- One refill by one address. -/
def refillRun (id : Nat) : List Action :=
  [.refillOfflineAddresses id 1, .readRefill id, .answerRefill id true, .readRefill id, .writeRefill id true]

def takeRun (id : Nat) : List Action := [.getNewAddress id, .readTake id, .writeTake id true]

/-- A refill by two addresses, with a call that asks the SDK meanwhile, and two calls that read the same address: one of
them conflicts, and asks the SDK. -/
def interleavedRun : List Action :=
  [.refillOfflineAddresses 0 2, .readRefill 0, .getNewAddress 0, .readTake 0, .refillOfflineAddresses 1 1,
    .answerRefill 0 true, .answerTake 0 true, .answerRefill 0 true, .readRefill 0, .getNewAddress 1,
    .writeRefill 0 true, .readTake 1, .getNewAddress 2, .readTake 2, .writeTake 1 true, .writeTake 2 true,
    .answerTake 2 true]

theorem sampleRun_safe : Always (step sampleSdk) Safe (start Store.empty) interleavedRun :=
  safe_of_undisturbed sampleSdk sampleSdk_injective Store.empty (by decide) (by rintro a ⟨⟩) interleavedRun
    ⟨trivial, trivial, trivial, trivial, trivial, trivial, trivial, trivial, trivial, trivial,
      ⟨rfl, rfl, by rintro x ⟨⟩⟩, trivial, trivial, trivial, trivial, trivial, trivial, trivial⟩

/-- A `getNewAddress` while a refill waits for the SDK. -/
def disturbedRun : List Action :=
  refillRun 0 ++ [.refillOfflineAddresses 0 1, .readRefill 0] ++ takeRun 0 ++
    [.answerRefill 0 true, .readRefill 0, .writeRefill 0 true] ++ takeRun 1

/-- The refill puts the address back, and the next call returns it again. -/
theorem handed_out_twice : Function.Injective sampleSdk ∧
    (disturbedRun.foldl (step sampleSdk) (start Store.empty)).returned = [sampleSdk 0, sampleSdk 0] ∧
    ¬Always (step sampleSdk) Safe (start Store.empty) disturbedRun := by
  have htwice : (disturbedRun.foldl (step sampleSdk) (start Store.empty)).returned = [sampleSdk 0, sampleSdk 0] := by
    decide +kernel
  refine ⟨sampleSdk_injective, htwice, fun h => ?_⟩
  have honce := h.last.once
  rw [htwice] at honce
  simp at honce

end Addresses

end WebWallet
