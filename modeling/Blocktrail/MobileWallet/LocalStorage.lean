import Blocktrail.Lib.Documents
import Blocktrail.Lib.Runs
import Blocktrail.Lib.Text

/-! # The local storage

A record is one document. While a write is in progress the data of other calls are kept back, and written together after
it, in the object of the first of them; their calls get the promise of that write. A write that fails leaves its promise
there.
-/

open Assoc Documents Runs Text

namespace MobileWallet

namespace LocalStorage

variable {κ α : Type} [DecidableEq κ]

/-! ## Records -/

def updateDocAccordingToSchema (schema doc : Object κ α) : Object κ α :=
  schema.assign (doc.filter fun k => (schema.get? k).isSome)

/-- `none` throws: the data have nothing of the schema. -/
def prepareObjectAccordingToSchema (schema data : Object κ α) : Option (Object κ α) :=
  let dataAccordingSchema := data.filter fun k => (schema.get? k).isSome
  if dataAccordingSchema.entries = [] then none else some (schema.assign dataAccordingSchema)

/-- A call of `setData`: the object that it was given, the data that this had, and the promise that it has returned. -/
structure Call (κ α : Type) where
  object : Nat
  data : Object κ α
  promise : Nat

/-- `_.assign(target, ...sources)`, in the memory of all objects. The target may be a source. -/
def assignInto (objects : Nat → Object κ α) (target : Nat) (sources : List Nat) : Nat → Object κ α :=
  sources.foldl (fun objects source => Function.update objects target ((objects target).assign (objects source))) objects

/-- The object of the first call takes the data of the others. `none` where there is nothing to write. -/
def getSquashedPendingData (objects : Nat → Object κ α) (pending : List (Call κ α)) :
    (Nat → Object κ α) × Option Nat :=
  match pending.map Call.object with
  | [] => (objects, none)
  | target :: sources =>
    let objects := assignInto objects target sources
    (objects, if (objects target).entries = [] then none else some target)

/-! ## States -/

inductive Stage (κ α : Type)
  | reading
  | putting (rev : Option Nat) (doc : Object κ α)

/-- The write in progress, of the data of an object. `calls` are those whose data it writes. -/
structure Write (κ α : Type) where
  promise : Nat
  object : Nat
  calls : List (Call κ α)
  stage : Stage κ α

structure State (κ α : Type) [DecidableEq κ] where
  /-- What the objects hold that calls are given. -/
  objects : Nat → Object κ α
  storage : Slot (Object κ α)
  pending : List (Call κ α)
  pendingPromise : Option Nat
  write : Option (Write κ α)
  /-- The promises that settle with the write in progress. -/
  follows : List Nat
  /-- What promises have come to. -/
  results : Nat → Option Bool
  fresh : Nat
  /-- The calls in their order, and those whose data have been written, in the order of the writes. -/
  calls : List (Call κ α)
  written : List (Call κ α)

def start (objects : Nat → Object κ α) (stored : Slot (Object κ α)) : State κ α :=
  ⟨objects, stored, [], none, none, [], fun _ => none, 0, [], []⟩

section Schema

variable (defaults : Object κ α)

/-! ## Steps -/

/-- What `getData` makes of the document, with its revision. Where the storage fails there are the defaults. -/
def getData (storage : Slot (Object κ α)) (ok : Bool) : Option Nat × Object κ α :=
  match if ok then storage.get () else none with
  | some (rev, doc) => (some rev, updateDocAccordingToSchema defaults doc)
  | none => (none, defaults)

/-- A write begins. -/
def begin (s : State κ α) (object : Nat) (calls : List (Call κ α)) : State κ α :=
  { s with
    write := some ⟨s.fresh, object, calls, .reading⟩
    pendingPromise := some s.fresh
    follows := s.follows ++ [s.fresh]
    fresh := s.fresh + 1 }

def setData (s : State κ α) (object : Nat) : State κ α :=
  match s.pendingPromise with
  | some promise =>
    let call : Call κ α := ⟨object, s.objects object, promise⟩
    { s with pending := s.pending ++ [call], calls := s.calls ++ [call] }
  | none =>
    let call : Call κ α := ⟨object, s.objects object, s.fresh⟩
    { begin s object [call] with calls := s.calls ++ [call] }

/-- The promises settle that follow the write. -/
def settle (s : State κ α) (result : Bool) : State κ α :=
  { s with
    write := none
    follows := []
    results := fun promise => if promise ∈ s.follows then some result else s.results promise }

/-- The document is read and changed. -/
def read (s : State κ α) (ok : Bool) : State κ α :=
  match s.write with
  | some ⟨promise, object, calls, .reading⟩ =>
    let (rev, doc) := getData defaults s.storage ok
    match prepareObjectAccordingToSchema doc (s.objects object) with
    | some doc => { s with write := some ⟨promise, object, calls, .putting rev doc⟩ }
    | none => settle s false
  | _ => s

/-- The data that were kept back are written next. -/
def flush (s : State κ α) : State κ α :=
  let squashed := getSquashedPendingData s.objects s.pending
  match squashed.2 with
  | some object => { begin s object s.pending with objects := squashed.1, pending := [] }
  | none => settle { s with objects := squashed.1, pending := [], written := s.written ++ s.pending } true

/-- Only a put that is accepted unsets `_pendingPromise`. -/
def put (s : State κ α) (ok : Bool) : State κ α :=
  match s.write with
  | some ⟨_, _, calls, .putting rev doc⟩ =>
    match if ok then s.storage.put () rev doc else none with
    | some storage => flush { s with storage := storage, pendingPromise := none, written := s.written ++ calls }
    | none => settle s false
  | _ => s

/-- What happens, in any order. A call of `getData` leaves all as it is. -/
inductive Action
  | getData (ok : Bool)
  | setData (object : Nat)
  | read (ok : Bool)
  | put (ok : Bool)

def step (s : State κ α) : Action → State κ α
  | .getData _ => s
  | .setData object => setData s object
  | .read ok => read defaults s ok
  | .put ok => put s ok

/-! ## What is relied on -/

/-- The record that `getData` reads. -/
def recordValue (storage : Slot (Object κ α)) (k : κ) : Option α := (getData defaults storage true).2.get? k

/-- The last of the values that calls give a key. -/
def lastValue (calls : List (Call κ α)) (k : κ) (initial : Option α) : Option α :=
  calls.foldl (fun value call => (call.data.get? k).or value) initial

structure Sound (stored : Slot (Object κ α)) (s : State κ α) : Prop where
  order : s.written.Sublist s.calls
  record : ∀ k, (defaults.get? k).isSome = true →
    recordValue defaults s.storage k = lastValue s.written k (recordValue defaults stored k)
  resolves : ∀ call ∈ s.calls, s.results call.promise = some true → call ∈ s.written
  rejects : ∀ call ∈ s.calls, s.results call.promise = some false → call ∉ s.written
  /-- A call finds no promise, and writes, or the promise of a write that is in progress. -/
  writes : ∀ promise, s.pendingPromise = some promise →
    s.results promise = none ∧ s.write.map Write.promise = some promise

/-- The calls without the later ones that were given the object of the first. -/
def firstOnce : List (Call κ α) → List (Call κ α)
  | [] => []
  | call :: calls => call :: calls.filter fun later => later.object ≠ call.object

/-- The object of the first call does not come again behind other values. -/
def NoneLost (calls : List (Call κ α)) : Prop :=
  ∀ k, (defaults.get? k).isSome = true → lastValue (firstOnce calls) k none = lastValue calls k none

/-- The data of a write have something of the schema, its put is accepted, and none of its calls is lost. -/
def Undisturbed (s : State κ α) : Action → Prop
  | .read ok => ∀ promise object calls, s.write = some ⟨promise, object, calls, .reading⟩ →
    prepareObjectAccordingToSchema (getData defaults s.storage ok).2 (s.objects object) ≠ none
  | .put ok => ∀ promise object calls rev doc, s.write = some ⟨promise, object, calls, .putting rev doc⟩ →
    ok = true ∧ rev = s.storage.revision () ∧ NoneLost defaults calls
  | _ => True

/-! ## Values -/

theorem lastValue_append (calls calls' : List (Call κ α)) (k : κ) (initial : Option α) :
    lastValue (calls ++ calls') k initial = lastValue calls' k (lastValue calls k initial) :=
  List.foldl_append

theorem lastValue_eq_or (calls : List (Call κ α)) (k : κ) (initial : Option α) :
    lastValue calls k initial = (lastValue calls k none).or initial := by
  induction calls generalizing initial with
  | nil => rfl
  | cons call calls ih =>
    change lastValue calls k ((call.data.get? k).or initial) = (lastValue calls k ((call.data.get? k).or none)).or initial
    rw [ih ((call.data.get? k).or initial), ih ((call.data.get? k).or none), Option.or_none, Option.or_assoc]

theorem lastValue_isSome_iff {calls : List (Call κ α)} {k : κ} {initial : Option α} :
    (lastValue calls k initial).isSome = true ↔
      (∃ call ∈ calls, (call.data.get? k).isSome = true) ∨ initial.isSome = true := by
  induction calls generalizing initial with
  | nil => simp [lastValue]
  | cons call calls ih =>
    change (lastValue calls k ((call.data.get? k).or initial)).isSome = true ↔ _
    rw [ih, Option.isSome_or, Bool.or_eq_true]
    simp only [List.mem_cons, exists_eq_or_imp]
    exact or_left_comm.trans or_assoc.symm

/-- Calls that were given one object were given the same data. -/
def SameData (calls : List (Call κ α)) : Prop :=
  ∀ call ∈ calls, ∀ call' ∈ calls, call.object = call'.object → call.data = call'.data

theorem isSome_firstOnce {calls : List (Call κ α)} (h : SameData calls) (k : κ) :
    (lastValue (firstOnce calls) k none).isSome = (lastValue calls k none).isSome := by
  rw [Bool.eq_iff_iff, lastValue_isSome_iff, lastValue_isSome_iff]
  cases calls with
  | nil => rfl
  | cons first calls =>
    refine or_congr_left ⟨?_, ?_⟩
    · rintro ⟨call, hcall, hsome⟩
      refine ⟨call, ?_, hsome⟩
      rcases List.mem_cons.mp hcall with rfl | hcall
      · exact List.mem_cons_self
      · exact List.mem_cons_of_mem _ (List.mem_filter.mp hcall).1
    · rintro ⟨call, hcall, hsome⟩
      by_cases hobject : call.object = first.object
      · refine ⟨first, List.mem_cons_self, ?_⟩
        rwa [← h call hcall first List.mem_cons_self hobject]
      · rcases List.mem_cons.mp hcall with rfl | hcall
        · exact absurd rfl hobject
        · exact ⟨call, List.mem_cons_of_mem _ (List.mem_filter.mpr ⟨hcall, by simpa using hobject⟩), hsome⟩

theorem NoneLost.lastValue {calls : List (Call κ α)} (h : NoneLost defaults calls) {k : κ}
    (hk : (defaults.get? k).isSome = true) (initial : Option α) :
    lastValue (firstOnce calls) k initial = lastValue calls k initial := by
  rw [lastValue_eq_or, h k hk, ← lastValue_eq_or]

theorem lastValue_none_eq {calls : List (Call κ α)} (h : SameData calls) {k : κ} {initial : Option α}
    (heq : lastValue (firstOnce calls) k initial = lastValue calls k initial) :
    lastValue (firstOnce calls) k none = lastValue calls k none := by
  have hsome := isSome_firstOnce h k
  rw [lastValue_eq_or, lastValue_eq_or calls] at heq
  cases hfirst : lastValue (firstOnce calls) k none with
  | none =>
    rw [hfirst] at hsome
    exact (Option.not_isSome_iff_eq_none.mp (by simp [← hsome])).symm
  | some a =>
    rw [hfirst] at hsome heq
    obtain ⟨b, hb⟩ := Option.isSome_iff_exists.mp hsome.symm
    rw [hb] at heq ⊢
    exact heq

theorem lastValue_of_empty {calls : List (Call κ α)} (h : SameData calls)
    (hempty : ∀ k, lastValue (firstOnce calls) k none = none) (k : κ) (initial : Option α) :
    lastValue calls k initial = initial := by
  have hsome := isSome_firstOnce h k
  rw [hempty k] at hsome
  have hnone : lastValue calls k none = none := Option.not_isSome_iff_eq_none.mp (by simp [← hsome])
  rw [lastValue_eq_or, hnone, Option.none_or]

omit [DecidableEq κ] in
theorem sameData_of_objects {objects : Nat → Object κ α} {calls : List (Call κ α)}
    (h : ∀ call ∈ calls, objects call.object = call.data) : SameData calls := by
  intro call hcall call' hcall' heq
  rw [← h call hcall, ← h call' hcall', heq]

/-! ## Squashing -/

theorem get?_assignInto {objects : Nat → Object κ α} (target : Nat) {calls : List (Call κ α)}
    (h : ∀ call ∈ calls, call.object ≠ target → objects call.object = call.data) (k : κ) :
    (assignInto objects target (calls.map Call.object) target).get? k =
      lastValue (calls.filter fun call => call.object ≠ target) k ((objects target).get? k) := by
  induction calls generalizing objects with
  | nil => rfl
  | cons call calls ih =>
    have hrest : ∀ later ∈ calls, later.object ≠ target →
        Function.update objects target ((objects target).assign (objects call.object)) later.object = later.data := by
      intro later hlater hne
      rw [Function.update_of_ne hne]
      exact h later (List.mem_cons_of_mem call hlater) hne
    rw [List.map_cons]
    change (assignInto (Function.update objects target _) target (calls.map Call.object) target).get? k = _
    rw [ih hrest, Function.update_self, Object.get?_assign, List.filter_cons]
    by_cases hobject : call.object = target
    · rw [hobject, Option.or_self, if_neg (by simp)]
    · rw [h call List.mem_cons_self hobject, if_pos (by simpa using hobject)]
      rfl

theorem squashed_spec {objects : Nat → Object κ α} {calls : List (Call κ α)}
    (h : ∀ call ∈ calls, objects call.object = call.data) (k : κ) (initial : Option α) :
    lastValue (firstOnce calls) k initial =
      ((getSquashedPendingData objects calls).2.bind fun object =>
        ((getSquashedPendingData objects calls).1 object).get? k).or initial := by
  rw [lastValue_eq_or]
  cases calls with
  | nil => rfl
  | cons first calls =>
    have hget := get?_assignInto first.object
      (fun call hcall _ => h call (List.mem_cons_of_mem first hcall)) k
    rw [h first List.mem_cons_self] at hget
    have hfirst : lastValue (firstOnce (first :: calls)) k none =
        (assignInto objects first.object (calls.map Call.object) first.object).get? k := by
      rw [hget]
      change lastValue (calls.filter _) k ((first.data.get? k).or none) = _
      rw [Option.or_none]
    rw [hfirst]
    unfold getSquashedPendingData
    rw [List.map_cons]
    dsimp only
    split
    · next hempty =>
      unfold Object.get?
      rw [hempty]
      rfl
    · rfl

theorem recordValue_isSome (storage : Slot (Object κ α)) {k : κ} (hk : (defaults.get? k).isSome = true) :
    (recordValue defaults storage k).isSome = true := by
  unfold recordValue getData
  split
  · unfold updateDocAccordingToSchema
    rw [Object.get?_assign, Option.isSome_or, hk, Bool.or_true]
  · exact hk

theorem prepare_spec {schema data doc : Object κ α} (h : prepareObjectAccordingToSchema schema data = some doc) {k : κ}
    (hk : (schema.get? k).isSome = true) : doc.get? k = (data.get? k).or (schema.get? k) := by
  unfold prepareObjectAccordingToSchema at h
  dsimp only at h
  split at h
  · cases h
  · cases h
    rw [Object.get?_assign, Object.get?_filter, if_pos hk]

theorem recordValue_write (storage : Slot (Object κ α)) (doc : Object κ α) {k : κ} (hk : (defaults.get? k).isSome = true)
    (hdoc : (doc.get? k).isSome = true) : recordValue defaults (storage.write () doc) k = doc.get? k := by
  unfold recordValue getData
  rw [if_pos rfl, Store.get_write_self]
  dsimp only
  unfold updateDocAccordingToSchema
  rw [Object.get?_assign, Object.get?_filter, if_pos hk, Option.or_of_isSome hdoc]

/-! ## The invariant -/

def State.writing (s : State κ α) : List (Call κ α) := s.write.elim [] Write.calls

structure Inv (stored : Slot (Object κ α)) (s : State κ α) : Prop where
  /-- Calls are written in their order. -/
  calls : s.calls = s.written ++ s.writing ++ s.pending
  record : ∀ k, (defaults.get? k).isSome = true →
    recordValue defaults s.storage k = lastValue s.written k (recordValue defaults stored k)
  live : s.pendingPromise = s.write.map Write.promise
  idle : s.write = none → s.pending = []
  promise : ∀ w, s.write = some w → w.promise ∈ s.follows
  follows : ∀ promise ∈ s.follows, promise < s.fresh ∧ s.results promise = none
  unsettled : ∀ call ∈ s.writing ++ s.pending, call.promise ∈ s.follows
  results : ∀ promise, s.results promise ≠ some false
  fresh : ∀ promise, s.fresh ≤ promise → s.results promise = none
  /-- Only the squash changes an object, and then no call is kept back. -/
  objects : ∀ call ∈ s.pending, s.objects call.object = call.data
  same : SameData s.writing
  /-- The data of a write are those of its calls, where the object of the first counts once. -/
  data : ∀ w, s.write = some w → ∀ k initial,
    lastValue (firstOnce w.calls) k initial = ((s.objects w.object).get? k).or initial
  putting : ∀ promise object calls rev doc, s.write = some ⟨promise, object, calls, .putting rev doc⟩ →
    rev = s.storage.revision () → ∀ k, (defaults.get? k).isSome = true →
      doc.get? k = ((s.objects object).get? k).or (recordValue defaults s.storage k)

theorem start_inv (objects : Nat → Object κ α) (stored : Slot (Object κ α)) :
    Inv defaults stored (start objects stored) where
  calls := rfl
  record := fun _ _ => rfl
  live := rfl
  idle := fun _ => rfl
  promise := by rintro w ⟨⟩
  follows := by rintro promise ⟨⟩
  unsettled := by rintro call ⟨⟩
  results := by rintro promise ⟨⟩
  fresh := fun _ _ => rfl
  objects := by rintro call ⟨⟩
  same := by rintro call ⟨⟩
  data := by rintro w ⟨⟩
  putting := by rintro promise object calls rev doc ⟨⟩

variable {defaults} {stored : Slot (Object κ α)} {s : State κ α}

theorem Inv.sound (h : Inv defaults stored s) : Sound defaults stored s where
  order := by
    rw [h.calls, List.append_assoc]
    exact List.sublist_append_left _ _
  record := h.record
  resolves := by
    intro call hcall hresult
    rw [h.calls, List.append_assoc, List.mem_append] at hcall
    rcases hcall with hwritten | hopen
    · exact hwritten
    · rw [(h.follows call.promise (h.unsettled call hopen)).2] at hresult
      cases hresult
  rejects := fun call _ hresult => absurd hresult (h.results call.promise)
  writes := by
    intro promise hpromise
    have hwrite := hpromise
    rw [h.live] at hwrite
    refine ⟨?_, hwrite⟩
    obtain ⟨w, hw, rfl⟩ := Option.map_eq_some_iff.mp hwrite
    exact (h.follows w.promise (h.promise w hw)).2

/-! ## What a step keeps -/

theorem inv_begin {object : Nat} {calls : List (Call κ α)} (hcalls : s.calls = s.written ++ calls)
    (hpending : s.pending = [])
    (hrecord : ∀ k, (defaults.get? k).isSome = true →
      recordValue defaults s.storage k = lastValue s.written k (recordValue defaults stored k))
    (hfollows : ∀ promise ∈ s.follows, promise < s.fresh ∧ s.results promise = none)
    (hunsettled : ∀ call ∈ calls, call.promise ∈ s.follows ∨ call.promise = s.fresh)
    (hresults : ∀ promise, s.results promise ≠ some false)
    (hfresh : ∀ promise, s.fresh ≤ promise → s.results promise = none)
    (hsame : SameData calls)
    (hdata : ∀ k initial, lastValue (firstOnce calls) k initial = ((s.objects object).get? k).or initial) :
    Inv defaults stored (begin s object calls) where
  calls := by
    change s.calls = s.written ++ calls ++ s.pending
    rw [hpending, List.append_nil, hcalls]
  record := hrecord
  live := rfl
  idle := by rintro ⟨⟩
  promise := by
    rintro w ⟨⟩
    exact List.mem_append_right _ (List.mem_singleton.mpr rfl)
  follows := by
    intro promise hpromise
    change promise < s.fresh + 1 ∧ s.results promise = none
    rcases List.mem_append.mp hpromise with hold | hnew
    · obtain ⟨hlt, hnone⟩ := hfollows promise hold
      exact ⟨by omega, hnone⟩
    · rw [List.mem_singleton.mp hnew]
      exact ⟨by omega, hfresh s.fresh (le_refl s.fresh)⟩
  unsettled := by
    intro call hcall
    have hmem : call ∈ calls := by
      change call ∈ calls ++ s.pending at hcall
      rwa [hpending, List.append_nil] at hcall
    refine List.mem_append.mpr ?_
    rcases hunsettled call hmem with hold | hnew
    · exact Or.inl hold
    · exact Or.inr (List.mem_singleton.mpr hnew)
  results := hresults
  fresh := fun promise hle => hfresh promise (by
    change s.fresh + 1 ≤ promise at hle
    omega)
  objects := by
    intro call hcall
    change call ∈ s.pending at hcall
    rw [hpending] at hcall
    cases hcall
  same := hsame
  data := by
    rintro w ⟨⟩
    exact hdata
  putting := by rintro promise object calls rev doc ⟨⟩

theorem Inv.setData (h : Inv defaults stored s) (object : Nat) : Inv defaults stored (setData s object) := by
  unfold LocalStorage.setData
  cases hpromise : s.pendingPromise with
  | some promise =>
    have hlive := h.live.symm.trans hpromise
    obtain ⟨w, hw, rfl⟩ := Option.map_eq_some_iff.mp hlive
    dsimp only
    refine ⟨?_, h.record, hpromise.symm.trans h.live, ?_, h.promise, h.follows, ?_, h.results, h.fresh, ?_, h.same,
      h.data, h.putting⟩
    · change s.calls ++ _ = s.written ++ s.writing ++ (s.pending ++ _)
      rw [h.calls, List.append_assoc _ s.pending]
    · intro hnone
      cases hw.symm.trans hnone
    · intro call hcall
      change call ∈ s.writing ++ (s.pending ++ [_]) at hcall
      rw [← List.append_assoc, List.mem_append, List.mem_singleton] at hcall
      rcases hcall with hold | rfl
      · exact h.unsettled call hold
      · exact h.promise w hw
    · intro call hcall
      rcases List.mem_append.mp hcall with hold | hnew
      · exact h.objects call hold
      · rw [List.mem_singleton.mp hnew]
  | none =>
    have hwrite : s.write = none := Option.map_eq_none_iff.mp (h.live.symm.trans hpromise)
    have hpending := h.idle hwrite
    have hall : s.calls = s.written := by
      rw [h.calls, hpending]
      unfold State.writing
      rw [hwrite]
      simp
    generalize hcall : (⟨object, s.objects object, s.fresh⟩ : Call κ α) = call
    have hinv : Inv defaults stored (begin { s with calls := s.calls ++ [call] } object [call]) := by
      subst hcall
      refine inv_begin ?_ hpending h.record h.follows ?_ h.results h.fresh ?_ (fun k initial => rfl)
      · change s.calls ++ _ = s.written ++ _
        rw [hall]
      · intro call hcall
        rw [List.mem_singleton.mp hcall]
        exact Or.inr rfl
      · intro call hcall call' hcall' _
        rw [List.mem_singleton.mp hcall, List.mem_singleton.mp hcall']
    exact hinv

theorem Inv.read (h : Inv defaults stored s) {ok : Bool} (hok : Undisturbed defaults s (.read ok)) :
    Inv defaults stored (read defaults s ok) := by
  unfold LocalStorage.read
  split
  · next promise object calls hw =>
    have hsome := hok promise object calls hw
    have hwriting : s.writing = calls := by
      unfold State.writing
      rw [hw]
      rfl
    cases hprepare : prepareObjectAccordingToSchema (getData defaults s.storage ok).2 (s.objects object) with
    | none => exact absurd hprepare hsome
    | some doc =>
      dsimp only
      rw [hprepare]
      refine ⟨?_, h.record, ?_, by rintro ⟨⟩, ?_, h.follows, ?_, h.results, h.fresh, h.objects, ?_, ?_, ?_⟩
      · rw [h.calls, hwriting]
        rfl
      · rw [h.live, hw]
        rfl
      · rintro w ⟨⟩
        exact h.promise ⟨promise, object, calls, .reading⟩ hw
      · rw [← hwriting]
        exact h.unsettled
      · have hsame := h.same
        rw [hwriting] at hsame
        exact hsame
      · rintro w ⟨⟩
        exact h.data ⟨promise, object, calls, .reading⟩ hw
      · rintro promise' object' calls' rev doc' heq hrev k hk
        cases heq
        have hget : (getData defaults s.storage ok).2.get? k = recordValue defaults s.storage k := by
          cases ok with
          | true => rfl
          | false =>
            -- without the document nothing was missed
            have hnone : s.storage.get () = none := Option.map_eq_none_iff.mp hrev.symm
            unfold recordValue getData
            rw [if_pos rfl, hnone]
            rfl
        rw [prepare_spec hprepare (hget ▸ recordValue_isSome defaults s.storage hk), hget]
  · exact h

theorem Inv.flush (hcalls : s.calls = s.written ++ s.pending)
    (hrecord : ∀ k, (defaults.get? k).isSome = true →
      recordValue defaults s.storage k = lastValue s.written k (recordValue defaults stored k))
    (hpromise : s.pendingPromise = none)
    (hfollows : ∀ promise ∈ s.follows, promise < s.fresh ∧ s.results promise = none)
    (hunsettled : ∀ call ∈ s.pending, call.promise ∈ s.follows)
    (hresults : ∀ promise, s.results promise ≠ some false)
    (hfresh : ∀ promise, s.fresh ≤ promise → s.results promise = none)
    (hobjects : ∀ call ∈ s.pending, s.objects call.object = call.data) : Inv defaults stored (flush s) := by
  have hspec := squashed_spec hobjects
  have hsame := sameData_of_objects hobjects
  unfold LocalStorage.flush
  dsimp only
  cases hsquashed : (getSquashedPendingData s.objects s.pending).2 with
  | some object =>
    rw [hsquashed] at hspec
    have hinv : Inv defaults stored
        (begin { s with objects := (getSquashedPendingData s.objects s.pending).1, pending := [] } object s.pending) :=
      inv_begin hcalls rfl hrecord hfollows (fun call hcall => Or.inl (hunsettled call hcall)) hresults hfresh hsame hspec
    exact hinv
  | none =>
    rw [hsquashed] at hspec
    have hlast := lastValue_of_empty hsame fun k => hspec k none
    refine ⟨?_, ?_, ?_, fun _ => rfl, by rintro w ⟨⟩, by rintro promise ⟨⟩, by rintro call ⟨⟩, ?_, ?_,
      by rintro call ⟨⟩, by rintro call ⟨⟩, by rintro w ⟨⟩, by rintro promise object calls rev doc ⟨⟩⟩
    · change s.calls = s.written ++ s.pending ++ [] ++ []
      rw [hcalls, List.append_nil, List.append_nil]
    · intro k hk
      change recordValue defaults s.storage k = lastValue (s.written ++ s.pending) k (recordValue defaults stored k)
      rw [lastValue_append, hlast]
      exact hrecord k hk
    · exact hpromise
    · intro promise
      change (if promise ∈ s.follows then some true else s.results promise) ≠ some false
      split
      · rintro ⟨⟩
      · exact hresults promise
    · intro promise hle
      change (if promise ∈ s.follows then some true else s.results promise) = none
      split
      · next hmem =>
        have hlt := (hfollows promise hmem).1
        have hle' : s.fresh ≤ promise := hle
        omega
      · exact hfresh promise hle

theorem Inv.put (h : Inv defaults stored s) {ok : Bool} (hok : Undisturbed defaults s (.put ok)) :
    Inv defaults stored (put s ok) := by
  unfold LocalStorage.put
  split
  · next promise object calls rev doc hw =>
    obtain ⟨rfl, rfl, hnone⟩ := hok promise object calls rev doc hw
    have hwriting : s.writing = calls := by
      unfold State.writing
      rw [hw]
      rfl
    have hdoc := h.putting promise object calls _ doc hw rfl
    rw [if_pos rfl, Store.put_revision]
    dsimp only
    refine Inv.flush ?_ ?_ rfl h.follows ?_ h.results h.fresh h.objects
    · change s.calls = s.written ++ calls ++ s.pending
      rw [h.calls, hwriting]
    · intro k hk
      change recordValue defaults (s.storage.write () doc) k = lastValue (s.written ++ calls) k (recordValue defaults stored k)
      have hsome : (doc.get? k).isSome = true := by
        rw [hdoc k hk, Option.isSome_or, recordValue_isSome defaults s.storage hk, Bool.or_true]
      rw [recordValue_write defaults s.storage doc hk hsome, hdoc k hk, lastValue_append, ← h.record k hk,
        ← hnone.lastValue defaults hk]
      exact (h.data _ hw k _).symm
    · exact fun call hcall => h.unsettled call (List.mem_append_right _ hcall)
  · exact h

theorem Inv.step (h : Inv defaults stored s) {a : Action} (hok : Undisturbed defaults s a) :
    Inv defaults stored (step defaults s a) := by
  cases a with
  | getData ok => exact h
  | setData object => exact h.setData object
  | read ok => exact h.read hok
  | put ok => exact h.put hok

/-! ## What a step breaks -/

/-- A write that fails leaves its promise. -/
theorem Inv.not_sound_settle (h : Inv defaults stored s) {w : Write κ α} (hw : s.write = some w) :
    ¬Sound defaults stored (settle s false) := by
  intro hsound
  have hpromise : s.pendingPromise = some w.promise := by
    rw [h.live, hw]
    rfl
  have hresult := (hsound.writes w.promise hpromise).1
  have hget : (if w.promise ∈ s.follows then some false else s.results w.promise) = none := hresult
  rw [if_pos (h.promise w hw)] at hget
  cases hget

theorem Inv.noneLost (h : Inv defaults stored s) {promise object : Nat} {calls : List (Call κ α)} {doc : Object κ α}
    (hw : s.write = some ⟨promise, object, calls, .putting (s.storage.revision ()) doc⟩)
    (hsound : Sound defaults stored (LocalStorage.flush
      { s with storage := s.storage.write () doc, pendingPromise := none, written := s.written ++ calls })) :
    NoneLost defaults calls := by
  intro k hk
  have hdoc := h.putting promise object calls _ doc hw rfl k hk
  have hsome : (doc.get? k).isSome = true := by
    rw [hdoc, Option.isSome_or, recordValue_isSome defaults s.storage hk, Bool.or_true]
  have hrecord : recordValue defaults (s.storage.write () doc) k =
      lastValue (s.written ++ calls) k (recordValue defaults stored k) := by
    have hflush := hsound.record k hk
    have hspec := squashed_spec h.objects
    unfold LocalStorage.flush at hflush
    dsimp only at hflush
    cases hsquashed : (getSquashedPendingData s.objects s.pending).2 with
    | some object' =>
      rw [hsquashed] at hflush
      exact hflush
    | none =>
      rw [hsquashed] at hflush hspec
      dsimp only [settle] at hflush
      rw [lastValue_append, lastValue_of_empty (sameData_of_objects h.objects) fun k => hspec k none] at hflush
      exact hflush
  rw [recordValue_write defaults s.storage doc hk hsome, hdoc, lastValue_append, ← h.record k hk,
    ← h.data _ hw k (recordValue defaults s.storage k)] at hrecord
  have hsame := h.same
  unfold State.writing at hsame
  rw [hw] at hsame
  exact lastValue_none_eq hsame hrecord

theorem Inv.undisturbed (h : Inv defaults stored s) {a : Action}
    (hsound : Sound defaults stored (LocalStorage.step defaults s a)) : Undisturbed defaults s a := by
  cases a with
  | getData ok => trivial
  | setData object => trivial
  | read ok =>
    intro promise object calls hw hnone
    have hread : Sound defaults stored (LocalStorage.read defaults s ok) := hsound
    unfold LocalStorage.read at hread
    rw [hw] at hread
    dsimp only at hread
    rw [hnone] at hread
    exact h.not_sound_settle hw hread
  | put ok =>
    intro promise object calls rev doc hw
    have hput : Sound defaults stored (LocalStorage.put s ok) := hsound
    unfold LocalStorage.put at hput
    rw [hw] at hput
    dsimp only at hput
    cases hstored : (if ok then s.storage.put () rev doc else none) with
    | some storage =>
      cases ok with
      | false => cases hstored
      | true =>
        rw [if_pos rfl] at hstored
        obtain ⟨rfl, rfl⟩ := Store.put_eq_some.mp hstored
        rw [if_pos rfl, hstored] at hput
        exact ⟨rfl, rfl, h.noneLost hw hput⟩
    | none =>
      rw [hstored] at hput
      exact absurd hput (h.not_sound_settle hw)

/-! ## One call after another -/

/-- A call of `setData` with an object of its own, awaited, where the storage takes the put. -/
def save (defaults : Object κ α) (s : State κ α) (data : Object κ α) : State κ α :=
  put (read defaults (setData { s with objects := Function.update s.objects s.fresh data } s.fresh) true) true

structure Idle (s : State κ α) : Prop where
  pendingPromise : s.pendingPromise = none
  pending : s.pending = []

theorem prepare_isSome {schema data : Object κ α} {k : κ} (hdata : (data.get? k).isSome = true)
    (hschema : (schema.get? k).isSome = true) : (prepareObjectAccordingToSchema schema data).isSome = true := by
  unfold prepareObjectAccordingToSchema
  dsimp only
  split
  · next hempty =>
    have hget := Object.get?_filter data (fun k => (schema.get? k).isSome) k
    have hnone : (data.filter fun k => (schema.get? k).isSome).get? k = none := congrArg (List.lookup k) hempty
    rw [hnone, if_pos hschema] at hget
    rw [← hget] at hdata
    cases hdata
  · rfl

theorem getData_revision (storage : Slot (Object κ α)) : (getData defaults storage true).1 = storage.revision () := by
  unfold getData Store.revision
  rw [if_pos rfl]
  cases storage.get () with
  | none => rfl
  | some row => rfl

theorem Idle.save (h : Idle s) {data doc : Object κ α}
    (hdoc : prepareObjectAccordingToSchema (getData defaults s.storage true).2 data = some doc) :
    Idle (save defaults s data) ∧ (save defaults s data).storage = s.storage.write () doc := by
  have hset : setData { s with objects := Function.update s.objects s.fresh data } s.fresh =
      { begin { s with objects := Function.update s.objects s.fresh data } s.fresh [⟨s.fresh, data, s.fresh⟩] with
        calls := s.calls ++ [⟨s.fresh, data, s.fresh⟩] } := by
    unfold setData
    dsimp only
    rw [h.pendingPromise, Function.update_self]
  have hput : s.storage.put () (getData defaults s.storage true).1 doc = some (s.storage.write () doc) := by
    rw [getData_revision]
    exact Store.put_revision s.storage () doc
  have hpending (objects : Nat → Object κ α) : (getSquashedPendingData objects s.pending).2 = none := by
    rw [h.pending]
    rfl
  unfold LocalStorage.save
  rw [hset]
  unfold read begin
  dsimp only
  rw [Function.update_self, hdoc]
  unfold put
  dsimp only
  rw [if_pos rfl, hput]
  unfold flush
  dsimp only
  rw [hpending]
  exact ⟨⟨rfl, rfl⟩, rfl⟩

/-- **A call at a time.** The record has the data, and is otherwise as it was. -/
theorem Idle.save_spec (h : Idle s) {data : Object κ α} {k₀ : κ} (hdata : (data.get? k₀).isSome = true)
    (hk₀ : (defaults.get? k₀).isSome = true) :
    Idle (LocalStorage.save defaults s data) ∧ ∀ k, (defaults.get? k).isSome = true →
      recordValue defaults (LocalStorage.save defaults s data).storage k =
        (data.get? k).or (recordValue defaults s.storage k) := by
  obtain ⟨doc, hdoc⟩ := Option.isSome_iff_exists.mp (prepare_isSome hdata (recordValue_isSome defaults s.storage hk₀))
  obtain ⟨hidle, hstorage⟩ := h.save hdoc
  refine ⟨hidle, fun k hk => ?_⟩
  have hget : doc.get? k = (data.get? k).or (recordValue defaults s.storage k) :=
    prepare_spec hdoc (recordValue_isSome defaults s.storage hk)
  have hsome : (doc.get? k).isSome = true := by
    rw [hget, Option.isSome_or, recordValue_isSome defaults s.storage hk, Bool.or_true]
  rw [hstorage, recordValue_write defaults s.storage doc hk hsome, hget]

end Schema

/-! ## A put that fails, and an object that comes again -/

def pinAttempts (n : Nat) : Object Str Nat := Object.empty.set "pinAttempts" n

-- The object of the first call behind the write has taken the data of the second, when it comes again.
example : recordValue (pinAttempts 0)
    ([.setData 0, .setData 1, .setData 2, .setData 1, .read true, .put true, .read true, .put true].foldl
      (step (pinAttempts 0)) (start pinAttempts Store.empty)).storage "pinAttempts" = some 2 := rfl

/-- The put of the first call fails. -/
def failedRun : List Action :=
  [.setData 1, .read true, .put false, .setData 2, .read true, .put true]

end LocalStorage

end MobileWallet
