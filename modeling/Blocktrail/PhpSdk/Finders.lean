import Mathlib.Algebra.Order.BigOperators.Group.List
import Mathlib.Algebra.Order.Ring.Nat
import Mathlib.Data.List.Dedup
import Blocktrail.Lib.Runs
import Blocktrail.PhpSdk.SweeperSpec
import Blocktrail.PhpSdk.UnspentOutputFinder

/-! # The two finders of unspent outputs

The data API lists the outputs page by page, and calls of it may fail. Both finders are asked for the same addresses.
-/

open Text Bitcoin Runs

namespace PhpSdk

namespace Finders

open BlocktrailUnspentOutputFinder (AddressQuery Finder Thrown)

/-! ## The data API -/

/-- The unspent outputs of the addresses, and the pages on which they are listed, which a last page without any
follows. -/
structure Api where
  outputs : Str → List ApiUtxo
  addressPages : Nat → Str → List (List ApiUtxo)
  batchPages : Nat → List Str → List (List ApiUtxo)
  own : ∀ address, ∀ utxo ∈ outputs address, utxo.address = address
  address_nonempty : ∀ limit address, ∀ page ∈ addressPages limit address, page ≠ []
  batch_nonempty : ∀ limit addresses, ∀ page ∈ batchPages limit addresses, page ≠ []
  address_all : ∀ limit address, (addressPages limit address).flatten.Perm (outputs address)
  batch_all : ∀ limit addresses, (batchPages limit addresses).flatten.Perm (addresses.dedup.flatMap outputs)

/-- The calls that fail. -/
abbrev Failures := Nat → Option PhpError

/-- Pages count from 1. -/
def answer (fails : Failures) (pages : List (List ApiUtxo)) (n page : Nat) : Except PhpError (List ApiUtxo) :=
  match fails n with
  | some e => .error e
  | none => .ok (pages[page - 1]?.getD [])

def Api.addressQuery (api : Api) (fails : Failures) : AddressQuery := fun n address page limit =>
  answer fails (api.addressPages limit address) n page

def Api.batchQuery (api : Api) (fails : Failures) : UnspentOutputsQuery := fun n addresses page limit =>
  answer fails (api.batchPages limit addresses) n page

/-! ## Calls of both finders -/

/-- The same addresses for both, and the calls that fail for each. -/
structure Action where
  addresses : List Str
  fails : Failures
  batchFails : Failures

/-- The `retries` of the finder that keeps them, and what the last calls have returned or thrown. -/
structure State where
  retries : Nat
  addresses : List Str
  found : Option (Except PhpError (List Utxo))
  batchFound : Option (Except PhpError (List Utxo))

def start : State := ⟨0, [], some (.ok []), some (.ok [])⟩

section Run

variable (api : Api) (limit batchLimit : Nat)

/-- Turns enough for one of several lists of pages. -/
def enough (pages : List (List (List ApiUtxo))) : Nat := (pages.map fun p => 6 * (p.length + 2)).sum + 1

def getUTXOs (retries : Nat) (a : Action) : Option (Except Thrown (List Utxo × Finder)) :=
  BlocktrailUnspentOutputFinder.getUTXOs (api.addressQuery a.fails) limit a.addresses ⟨retries, 0⟩
    (enough (a.addresses.map (api.addressPages limit)))

def batchGetUTXOs (a : Action) : Option (Except PhpError (List Utxo × Nat)) :=
  PhpSdk.getUTXOs (api.batchQuery a.batchFails) batchLimit a.addresses 0
    (enough ((Series.chunk 500 a.addresses).map (api.batchPages batchLimit)))

def step (s : State) (a : Action) : State where
  retries :=
    match getUTXOs api limit s.retries a with
    | some (.ok (_, finder)) => finder.retries
    | some (.error (_, finder)) => finder.retries
    | none => s.retries
  addresses := a.addresses
  found := (getUTXOs api limit s.retries a).map fun r => (r.mapError Prod.fst).map Prod.fst
  batchFound := (batchGetUTXOs api batchLimit a).map fun r => r.map Prod.fst

/-! ## What is asked of the finders -/

/-- Every unspent output of every address once, with all that is known of it. -/
def Complete (addresses : List Str) (utxos : List Utxo) : Prop :=
  utxos.Perm ((addresses.dedup.flatMap api.outputs).map resultOf)

/-- Sweep data that differ in the order of the outputs of an address. -/
structure SameData (d e : SweepData) : Prop where
  count : d.count = e.count
  balance : d.balance = e.balance
  addressesSearched : d.addressesSearched = e.addressesSearched
  entry : ∀ address, (d.utxos.get? address).map AddressUTXOs.entry = (e.utxos.get? address).map AddressUTXOs.entry
  utxos : ∀ address, (((d.utxos.get? address).map AddressUTXOs.utxos).getD []).Perm
    (((e.utxos.get? address).map AddressUTXOs.utxos).getD [])

/-- What the loop of `discoverWalletFunds` makes of the outputs. -/
def SameSweep (utxos utxos' : List Utxo) : Prop :=
  ∀ addresses d, ∃ e e', utxos.foldlM (addUtxo addresses) d = .ok e ∧ utxos'.foldlM (addUtxo addresses) d = .ok e' ∧
    SameData e e'

structure Good (s : State) : Prop where
  ends : (∃ r, s.found = some r) ∧ ∃ r, s.batchFound = some r
  complete : ∀ utxos, s.found = some (.ok utxos) → Complete api s.addresses utxos
  batch_complete : ∀ utxos, s.batchFound = some (.ok utxos) → Complete api s.addresses utxos
  same : ∀ utxos utxos', s.found = some (.ok utxos) → s.batchFound = some (.ok utxos') →
    utxos.Perm utxos' ∧ SameSweep utxos utxos'
  /-- The next call has its full number of retries. -/
  full : ∀ e, s.found = some (.error e) → s.retries = 0

/-- Each of the addresses is answered after at most five calls that fail. -/
inductive InTime (fails : Failures) : Nat → List Str → Prop
  | nil (n : Nat) : InTime fails n []
  | cons {n k : Nat} {address : Str} {addresses : List Str} (hk : k ≤ retryLimit)
    (hfails : ∀ j < k, fails (n + j) ≠ none) (h : fails (n + k) = none)
    (rest : InTime fails (n + k + 1) addresses) : InTime fails n (address :: addresses)

/-- No address has an unspent output, and each is answered in time. -/
def Empty (a : Action) : Prop := (∀ address ∈ a.addresses, api.outputs address = []) ∧ InTime a.fails 0 a.addresses

end Run

/-! ## Pages -/

/-- What has been read of the pages. -/
structure Upto (pages : List (List ApiUtxo)) (s : PagesRead) : Prop where
  pos : 1 ≤ s.page
  le : s.page ≤ pages.length + 1
  utxos : s.utxos = (pages.take (s.page - 1)).flatten
  retries : s.retries ≤ retryLimit

theorem upto_start (pages : List (List ApiUtxo)) (calls : Nat) {retries : Nat} (h : retries ≤ retryLimit) :
    Upto pages ⟨calls, 1, retries, []⟩ := ⟨Nat.le_refl 1, by simp, by simp, h⟩

theorem Upto.next {pages : List (List ApiUtxo)} (hne : ∀ page ∈ pages, page ≠ []) {s : PagesRead} (h : Upto pages s) :
    (pages[s.page - 1]?.getD [] ≠ [] ∧ s.page ≤ pages.length ∧
      Upto pages { s with calls := s.calls + 1, utxos := s.utxos ++ pages[s.page - 1]?.getD [], page := s.page + 1 }) ∨
    (pages[s.page - 1]?.getD [] = [] ∧ s.utxos = pages.flatten) := by
  obtain ⟨hpos, hle, hutxos, hretries⟩ := h
  by_cases hlast : s.page ≤ pages.length
  · left
    have hlt : s.page - 1 < pages.length := by omega
    rw [List.getElem?_eq_getElem hlt, Option.getD_some]
    refine ⟨hne _ (List.getElem_mem hlt), hlast, by simp, by simpa using hlast, ?_, hretries⟩
    have htake : pages.take (s.page - 1) ++ [pages[s.page - 1]] = pages.take (s.page - 1 + 1) :=
      List.take_concat_get' _ _ hlt
    show s.utxos ++ pages[s.page - 1] = (pages.take (s.page + 1 - 1)).flatten
    rw [show s.page + 1 - 1 = s.page - 1 + 1 by omega, ← htake, hutxos, List.flatten_append, List.flatten_singleton]
  · right
    have hge : pages.length ≤ s.page - 1 := by omega
    rw [List.getElem?_eq_none hge]
    exact ⟨rfl, by rw [hutxos, List.take_of_length_le hge]⟩

theorem appended (results utxos : List Utxo) :
    (if 0 < utxos.length then results ++ utxos else results) = results ++ utxos := by
  split
  · rfl
  next h => rw [List.length_eq_zero_iff.mp (Nat.eq_zero_of_not_pos h), List.append_nil]

/-! ## The finder that goes address by address -/

section Address

variable {api : Api} (fails : Failures) {limit : Nat}

theorem nextPage_cases {address : Str} {s : PagesRead} (h : Upto (api.addressPages limit address) s) :
    (∃ t, BlocktrailUnspentOutputFinder.nextPage (api.addressQuery fails) limit address s = .ok (.inl t) ∧
      Upto (api.addressPages limit address) t ∧
      (retryLimit - t.retries) * ((api.addressPages limit address).length + 2) +
          ((api.addressPages limit address).length + 2 - t.page) <
        (retryLimit - s.retries) * ((api.addressPages limit address).length + 2) +
          ((api.addressPages limit address).length + 2 - s.page)) ∨
    (∃ t, BlocktrailUnspentOutputFinder.nextPage (api.addressQuery fails) limit address s = .ok (.inr t) ∧
      t.utxos = (api.addressPages limit address).flatten) ∨
    ∃ e finder, BlocktrailUnspentOutputFinder.nextPage (api.addressQuery fails) limit address s = .error (e, finder) ∧
      finder.retries = retryLimit := by
  have hnext := h.next (api.address_nonempty limit address)
  unfold BlocktrailUnspentOutputFinder.nextPage Api.addressQuery answer
  generalize api.addressPages limit address = pages at h hnext ⊢
  cases hfails : fails s.calls with
  | none =>
    dsimp only
    rcases hnext with ⟨hne, hle, ht⟩ | ⟨hnil, hs⟩
    · rw [if_pos (List.length_pos_iff.mpr hne)]
      refine Or.inl ⟨_, rfl, ht, ?_⟩
      dsimp only
      omega
    · rw [hnil]
      exact Or.inr (Or.inl ⟨_, rfl, by simpa using hs⟩)
  | some e =>
    dsimp only
    split
    next hlt =>
      refine Or.inl ⟨_, rfl, upto_start pages _ hlt, ?_⟩
      obtain ⟨k, hk⟩ : ∃ k, retryLimit - s.retries = k + 1 := ⟨retryLimit - s.retries - 1, by omega⟩
      have hk' : retryLimit - (s.retries + 1) = k := by omega
      have hpos := h.pos
      dsimp only
      rw [hk, hk', Nat.add_one_mul]
      omega
    next hge => exact Or.inr (Or.inr ⟨e, _, rfl, Nat.le_antisymm h.retries (Nat.le_of_not_lt hge)⟩)

/-- An address is answered with all its outputs and the retries start again, or the retries are used up. -/
theorem getUnspentOutputs_cases {address : Str} {finder : Finder} (hretries : finder.retries ≤ retryLimit) {fuel : Nat}
    (hfuel : 6 * ((api.addressPages limit address).length + 2) ≤ fuel) :
    (∃ calls, BlocktrailUnspentOutputFinder.getUnspentOutputs (api.addressQuery fails) limit address finder fuel =
      some (.ok ((api.addressPages limit address).flatten.map BlocktrailUnspentOutputFinder.resultOf, ⟨0, calls⟩))) ∨
    ∃ e finder', BlocktrailUnspentOutputFinder.getUnspentOutputs (api.addressQuery fails) limit address finder fuel =
      some (.error (e, finder')) ∧ finder'.retries = retryLimit := by
  have hstart := upto_start (api.addressPages limit address) finder.calls hretries
  have hcases := Series.recur_cases
    (fun s => some (BlocktrailUnspentOutputFinder.nextPage (api.addressQuery fails) limit address s))
    (Upto (api.addressPages limit address))
    (fun s => (retryLimit - s.retries) * ((api.addressPages limit address).length + 2) +
      ((api.addressPages limit address).length + 2 - s.page)) ?_ fuel hstart ?_
  · unfold BlocktrailUnspentOutputFinder.getUnspentOutputs
    obtain ⟨t, ht, ⟨r, hr, hrecur⟩ | ⟨e, he, hrecur⟩⟩ := hcases
    · rw [hrecur]
      rcases nextPage_cases fails ht with ⟨u, hu, -⟩ | ⟨u, hu, hutxos⟩ | ⟨e, f, hu, -⟩
      · rw [hu] at hr
        cases hr
      · rw [hu] at hr
        cases hr
        rw [← hutxos]
        exact Or.inl ⟨_, rfl⟩
      · rw [hu] at hr
        cases hr
    · rw [hrecur]
      rcases nextPage_cases fails ht with ⟨u, hu, -⟩ | ⟨u, hu, -⟩ | ⟨e', f, hu, hf⟩
      · rw [hu] at he
        cases he
      · rw [hu] at he
        cases he
      · rw [hu] at he
        cases he
        exact Or.inr ⟨e', f, rfl, hf⟩
  · intro s hs
    rcases nextPage_cases fails hs with ⟨t, ht, hI, hμ⟩ | ⟨t, ht, -⟩ | ⟨e, f, ht, -⟩
    · exact Or.inl ⟨t, congrArg some ht, hI, hμ⟩
    · exact Or.inr (Or.inl ⟨t, congrArg some ht⟩)
    · exact Or.inr (Or.inr ⟨_, congrArg some ht⟩)
  · have hle : (retryLimit - finder.retries) * ((api.addressPages limit address).length + 2) ≤
        5 * ((api.addressPages limit address).length + 2) := Nat.mul_le_mul_right _ (Nat.sub_le 5 _)
    dsimp only
    omega

theorem getUTXOs_cases {finder : Finder} (hretries : finder.retries ≤ retryLimit) {addresses : List Str} {fuel : Nat}
    (hfuel : ∀ address ∈ addresses, 6 * ((api.addressPages limit address).length + 2) ≤ fuel) (results : List Utxo) :
    (∃ finder', Series.eachSeries (BlocktrailUnspentOutputFinder.addAddress (api.addressQuery fails) limit fuel) addresses
        (results, finder) = some (.ok (results ++ (addresses.flatMap fun address =>
          (api.addressPages limit address).flatten).map BlocktrailUnspentOutputFinder.resultOf, finder')) ∧
        finder'.retries ≤ finder.retries) ∨
    ∃ e finder', Series.eachSeries (BlocktrailUnspentOutputFinder.addAddress (api.addressQuery fails) limit fuel) addresses
      (results, finder) = some (.error (e, finder')) ∧ finder'.retries = retryLimit := by
  induction addresses generalizing finder results with
  | nil => exact Or.inl ⟨finder, by simp [Series.eachSeries], Nat.le_refl _⟩
  | cons address addresses ih =>
    unfold Series.eachSeries BlocktrailUnspentOutputFinder.addAddress
    rcases getUnspentOutputs_cases fails hretries (hfuel address List.mem_cons_self) with
      ⟨calls, hok⟩ | ⟨e, finder', herror, hlimit⟩
    · rw [hok]
      simp only [Option.map_some, Except.map]
      rw [appended]
      have hzero : Finder.retries ⟨0, calls⟩ ≤ retryLimit := Nat.zero_le _
      rcases ih hzero (fun a ha => hfuel a (List.mem_cons_of_mem _ ha)) _ with
        ⟨finder', hrest, hle⟩ | ⟨e, finder', hrest, hlimit⟩
      · refine Or.inl ⟨finder', ?_, Nat.le_trans hle (Nat.zero_le _)⟩
        exact hrest.trans (by simp)
      · exact Or.inr ⟨e, finder', hrest, hlimit⟩
    · rw [herror]
      exact Or.inr ⟨e, finder', rfl, hlimit⟩

end Address

/-! ## The finder that goes chunk by chunk -/

section Batch

variable {api : Api} (fails : Failures) {limit : Nat}

theorem batchNextPage_cases {addresses : List Str} {s : PagesRead} (h : Upto (api.batchPages limit addresses) s) :
    (∃ t, PagesRead.nextPage (api.batchQuery fails) limit addresses s = .ok (.inl t) ∧
      Upto (api.batchPages limit addresses) t ∧
      retryLimit - t.retries + ((api.batchPages limit addresses).length + 2 - t.page) <
        retryLimit - s.retries + ((api.batchPages limit addresses).length + 2 - s.page)) ∨
    (∃ t, PagesRead.nextPage (api.batchQuery fails) limit addresses s = .ok (.inr t) ∧
      t.utxos = (api.batchPages limit addresses).flatten) ∨
    ∃ e, PagesRead.nextPage (api.batchQuery fails) limit addresses s = .error e := by
  have hnext := h.next (api.batch_nonempty limit addresses)
  unfold PagesRead.nextPage Api.batchQuery answer
  generalize api.batchPages limit addresses = pages at h hnext ⊢
  cases hfails : fails s.calls with
  | none =>
    dsimp only
    rcases hnext with ⟨hne, hle, ht⟩ | ⟨hnil, hs⟩
    · rw [if_pos (List.length_pos_iff.mpr hne)]
      refine Or.inl ⟨_, rfl, ht, ?_⟩
      dsimp only
      omega
    · rw [hnil]
      exact Or.inr (Or.inl ⟨_, rfl, by simpa using hs⟩)
  | some e =>
    dsimp only
    split
    next hlt =>
      refine Or.inl ⟨_, rfl, ⟨h.pos, h.le, h.utxos, hlt⟩, ?_⟩
      dsimp only
      omega
    next hge => exact Or.inr (Or.inr ⟨e, rfl⟩)

theorem batchGetUnspentOutputs_cases (addresses : List Str) (calls : Nat) {fuel : Nat}
    (hfuel : 6 * ((api.batchPages limit addresses).length + 2) ≤ fuel) :
    (∃ calls', PhpSdk.getUnspentOutputs (api.batchQuery fails) limit addresses calls fuel =
      some (.ok ((api.batchPages limit addresses).flatten.map resultOf, calls'))) ∨
    ∃ e, PhpSdk.getUnspentOutputs (api.batchQuery fails) limit addresses calls fuel = some (.error e) := by
  have hcases := Series.recur_cases
    (fun s => some (PagesRead.nextPage (api.batchQuery fails) limit addresses s))
    (Upto (api.batchPages limit addresses))
    (fun s => retryLimit - s.retries + ((api.batchPages limit addresses).length + 2 - s.page)) ?_ fuel
    (upto_start (api.batchPages limit addresses) calls (Nat.zero_le _)) ?_
  · unfold PhpSdk.getUnspentOutputs
    obtain ⟨t, ht, ⟨r, hr, hrecur⟩ | ⟨e, he, hrecur⟩⟩ := hcases
    · rw [hrecur]
      rcases batchNextPage_cases fails ht with ⟨u, hu, -⟩ | ⟨u, hu, hutxos⟩ | ⟨e, hu⟩
      · rw [hu] at hr
        cases hr
      · rw [hu] at hr
        cases hr
        rw [← hutxos]
        exact Or.inl ⟨_, rfl⟩
      · rw [hu] at hr
        cases hr
    · rw [hrecur]
      exact Or.inr ⟨e, rfl⟩
  · intro s hs
    rcases batchNextPage_cases fails hs with ⟨t, ht, hI, hμ⟩ | ⟨t, ht, -⟩ | ⟨e, ht⟩
    · exact Or.inl ⟨t, congrArg some ht, hI, hμ⟩
    · exact Or.inr (Or.inl ⟨t, congrArg some ht⟩)
    · exact Or.inr (Or.inr ⟨e, congrArg some ht⟩)
  · show retryLimit - 0 + ((api.batchPages limit addresses).length + 2 - 1) < fuel
    unfold retryLimit
    omega

theorem batchGetUTXOs_cases {chunks : List (List Str)} {fuel : Nat}
    (hfuel : ∀ chunk ∈ chunks, 6 * ((api.batchPages limit chunk).length + 2) ≤ fuel) (results : List Utxo) (calls : Nat) :
    (∃ calls', Series.eachSeries (addChunk (api.batchQuery fails) limit fuel) chunks (results, calls) =
      some (.ok (results ++ (chunks.flatMap fun chunk => (api.batchPages limit chunk).flatten).map resultOf, calls'))) ∨
    ∃ e, Series.eachSeries (addChunk (api.batchQuery fails) limit fuel) chunks (results, calls) = some (.error e) := by
  induction chunks generalizing calls results with
  | nil => exact Or.inl ⟨calls, by simp [Series.eachSeries]⟩
  | cons chunk chunks ih =>
    unfold Series.eachSeries addChunk
    rcases batchGetUnspentOutputs_cases fails chunk calls (hfuel chunk List.mem_cons_self) with
      ⟨calls', hok⟩ | ⟨e, herror⟩
    · rw [hok]
      simp only [Option.map_some, Except.map]
      rw [appended]
      rcases ih (fun c hc => hfuel c (List.mem_cons_of_mem _ hc)) _ calls' with ⟨calls'', hrest⟩ | ⟨e, hrest⟩
      · exact Or.inl ⟨calls'', hrest.trans (by simp)⟩
      · exact Or.inr ⟨e, hrest⟩
    · rw [herror]
      exact Or.inr ⟨e, rfl⟩

end Batch

/-! ## Addresses without outputs -/

section Nothing

variable {api : Api} (fails : Failures) {limit : Nat}

theorem addressPages_eq_nil (limit : Nat) {address : Str} (h : api.outputs address = []) : api.addressPages limit address = [] := by
  have hflatten : (api.addressPages limit address).flatten = [] :=
    List.Perm.eq_nil (h ▸ api.address_all limit address)
  rw [List.flatten_eq_nil_iff] at hflatten
  exact List.eq_nil_iff_forall_not_mem.mpr fun page hpage =>
    api.address_nonempty limit address page hpage (hflatten page hpage)

theorem recur_nothing {address : Str} (n : Nat) (h : api.addressPages limit address = []) {d retries fuel : Nat}
    (hd : retries + d = retryLimit) (hfuel : d < fuel) :
    (∃ k t, k ≤ d ∧ (∀ j < k, fails (n + j) ≠ none) ∧ fails (n + k) = none ∧ t.utxos = [] ∧ t.calls = n + k + 1 ∧
      Series.recur (fun s => some (BlocktrailUnspentOutputFinder.nextPage (api.addressQuery fails) limit address s)) fuel
        ⟨n, 1, retries, []⟩ = some (.ok t)) ∨
    (∀ j ≤ d, fails (n + j) ≠ none) ∧ ∃ e,
      Series.recur (fun s => some (BlocktrailUnspentOutputFinder.nextPage (api.addressQuery fails) limit address s)) fuel
        ⟨n, 1, retries, []⟩ = some (.error e) := by
  induction d generalizing n retries fuel with
  | zero =>
    obtain ⟨fuel, rfl⟩ := Nat.exists_eq_add_one_of_ne_zero (Nat.ne_of_gt hfuel)
    unfold Series.recur BlocktrailUnspentOutputFinder.nextPage Api.addressQuery answer
    rw [h]
    cases hfails : fails n with
    | none => exact Or.inl ⟨0, _, Nat.le_refl 0, fun j hj => absurd hj (Nat.not_lt_zero j), hfails, rfl, rfl, rfl⟩
    | some e =>
      right
      constructor
      · intro j hj
        obtain rfl := Nat.le_zero.mp hj
        simp [hfails]
      · dsimp only
        rw [if_neg (by omega)]
        exact ⟨_, rfl⟩
  | succ d ih =>
    obtain ⟨fuel, rfl⟩ := Nat.exists_eq_add_one_of_ne_zero (Nat.ne_of_gt (Nat.zero_lt_of_lt hfuel))
    unfold Series.recur
    cases hfails : fails n with
    | none =>
      have hturn : BlocktrailUnspentOutputFinder.nextPage (api.addressQuery fails) limit address ⟨n, 1, retries, []⟩ =
          .ok (.inr ⟨n + 1, 2, retries, []⟩) := by
        unfold BlocktrailUnspentOutputFinder.nextPage Api.addressQuery answer
        rw [h, hfails]
        rfl
      rw [hturn]
      exact Or.inl ⟨0, _, Nat.zero_le _, fun j hj => absurd hj (Nat.not_lt_zero j), hfails, rfl, rfl, rfl⟩
    | some e =>
      have hturn : BlocktrailUnspentOutputFinder.nextPage (api.addressQuery fails) limit address ⟨n, 1, retries, []⟩ =
          .ok (.inl ⟨n + 1, 1, retries + 1, []⟩) := by
        unfold BlocktrailUnspentOutputFinder.nextPage Api.addressQuery answer
        have hlt : retries < retryLimit := by omega
        rw [h, hfails]
        exact if_pos hlt
      rw [hturn]
      dsimp only
      have hshift : ∀ j, n + 1 + j = n + (j + 1) := fun j => by omega
      have hd' : retries + 1 + d = retryLimit := by omega
      rcases ih (n + 1) hd' (Nat.lt_of_succ_lt_succ hfuel) with
        ⟨k, t, hk, hbefore, hnone, hutxos, hcalls, hrecur⟩ | ⟨hall, e', hrecur⟩
      · refine Or.inl ⟨k + 1, t, by omega, ?_, hshift k ▸ hnone, hutxos, by omega, hrecur⟩
        intro j hj
        cases j with
        | zero => simp [hfails]
        | succ j => exact hshift j ▸ hbefore j (by omega)
      · refine Or.inr ⟨?_, e', hrecur⟩
        intro j hj
        cases j with
        | zero => simp [hfails]
        | succ j => exact hshift j ▸ hall j (by omega)

theorem getUTXOs_nothing {addresses : List Str} (h : ∀ address ∈ addresses, api.outputs address = []) (n : Nat) {fuel : Nat}
    (hfuel : ∀ address ∈ addresses, retryLimit < fuel) :
    (∃ calls, Series.eachSeries (BlocktrailUnspentOutputFinder.addAddress (api.addressQuery fails) limit fuel) addresses
      ([], ⟨0, n⟩) = some (.ok ([], ⟨0, calls⟩))) ∧ InTime fails n addresses ∨
    (∃ e, Series.eachSeries (BlocktrailUnspentOutputFinder.addAddress (api.addressQuery fails) limit fuel) addresses
      ([], ⟨0, n⟩) = some (.error e)) ∧ ¬InTime fails n addresses := by
  induction addresses generalizing n with
  | nil => exact Or.inl ⟨⟨n, rfl⟩, .nil n⟩
  | cons address addresses ih =>
    have hpages := addressPages_eq_nil limit (h address List.mem_cons_self)
    have hrest := fun n => ih (fun a ha => h a (List.mem_cons_of_mem _ ha)) n fun a ha =>
      hfuel a (List.mem_cons_of_mem _ ha)
    unfold Series.eachSeries BlocktrailUnspentOutputFinder.addAddress BlocktrailUnspentOutputFinder.getUnspentOutputs
    rcases recur_nothing fails n hpages (Nat.zero_add retryLimit)
        (hfuel address List.mem_cons_self) with
      ⟨k, t, hk, hbefore, hnone, hutxos, hcalls, hrecur⟩ | ⟨hall, e, hrecur⟩
    · have hcount : ∀ k', (∀ j < k', fails (n + j) ≠ none) → fails (n + k') = none → k' = k := by
        intro k' hbefore' hnone'
        rcases Nat.lt_trichotomy k' k with hlt | heq | hgt
        · exact absurd hnone' (hbefore k' hlt)
        · exact heq
        · exact absurd hnone (hbefore' k hgt)
      rw [hrecur]
      simp only [Option.map_some, Except.map, hutxos, hcalls, List.map_nil, List.length_nil, Nat.lt_irrefl, if_false]
      rcases hrest (n + k + 1) with ⟨hok, htime⟩ | ⟨herror, htime⟩
      · exact Or.inl ⟨hok, .cons hk hbefore hnone htime⟩
      · refine Or.inr ⟨herror, ?_⟩
        rintro (_ | ⟨hk', hbefore', hnone', hrest'⟩)
        obtain rfl := hcount _ hbefore' hnone'
        exact htime hrest'
    · rw [hrecur]
      refine Or.inr ⟨⟨e, rfl⟩, ?_⟩
      rintro (_ | ⟨hk', hbefore', hnone', hrest'⟩)
      exact hall _ hk' hnone'

end Nothing

/-! ## Calls of both -/

theorem le_enough {pages : List (List (List ApiUtxo))} {p : List (List ApiUtxo)} (h : p ∈ pages) :
    6 * (p.length + 2) ≤ enough pages := by
  have hle := List.le_sum_of_mem (List.mem_map_of_mem (f := fun p => 6 * (List.length p + 2)) h)
  unfold enough
  omega

section Calls

variable {api : Api} {limit batchLimit : Nat}

theorem found_cases (api : Api) (limit : Nat) {retries : Nat} (hretries : retries ≤ retryLimit) (a : Action) :
    (∃ finder, getUTXOs api limit retries a = some (.ok ((a.addresses.flatMap fun address =>
      (api.addressPages limit address).flatten).map BlocktrailUnspentOutputFinder.resultOf, finder)) ∧
        finder.retries ≤ retries) ∨
    ∃ e finder, getUTXOs api limit retries a = some (.error (e, finder)) ∧ finder.retries = retryLimit :=
  getUTXOs_cases a.fails hretries (fun _ haddress => le_enough (List.mem_map_of_mem haddress)) []

theorem batchFound_cases (api : Api) (batchLimit : Nat) (a : Action) :
    (∃ calls, batchGetUTXOs api batchLimit a = some (.ok (((Series.chunk 500 a.addresses).flatMap fun chunk =>
      (api.batchPages batchLimit chunk).flatten).map resultOf, calls))) ∨
    ∃ e, batchGetUTXOs api batchLimit a = some (.error e) :=
  batchGetUTXOs_cases a.batchFails (fun _ hchunk => le_enough (List.mem_map_of_mem hchunk)) [] 0

/-- Whatever fails, the batch finder throws or returns every output of different addresses once. -/
theorem batch_complete {a : Action} (hn : a.addresses.Nodup) {utxos : List Utxo} {calls : Nat}
    (h : batchGetUTXOs api batchLimit a = some (.ok (utxos, calls))) : Complete api a.addresses utxos := by
  rcases batchFound_cases api batchLimit a with ⟨calls', hok⟩ | ⟨e, herror⟩
  · rw [hok] at h
    cases h
    unfold Complete
    apply List.Perm.map
    have hflatten := Series.flatten_chunk (show 0 < 500 by decide) a.addresses
    have hchunks : ∀ chunk ∈ Series.chunk 500 a.addresses,
        ((api.batchPages batchLimit chunk).flatten).Perm (chunk.flatMap api.outputs) := by
      intro chunk hchunk
      have hnodup : chunk.Nodup := hn.sublist (hflatten ▸ List.sublist_flatten_of_mem hchunk)
      have hall := api.batch_all batchLimit chunk
      rwa [List.dedup_eq_self.mpr hnodup] at hall
    rw [List.dedup_eq_self.mpr hn]
    conv_rhs => rw [← hflatten, ← List.flatMap_id, List.flatMap_assoc]
    exact List.Perm.flatMap_left _ hchunks
  · rw [herror] at h
    cases h

theorem sameData_refl (d : SweepData) : SameData d d := ⟨rfl, rfl, rfl, fun _ => rfl, fun _ => List.Perm.refl _⟩

theorem good_of_empty {s : State} (h0 : s.retries = 0) {a : Action} (h : Empty api a) :
    (step api limit batchLimit s a).retries = 0 ∧ Good api (step api limit batchLimit s a) := by
  obtain ⟨houtputs, htime⟩ := h
  obtain ⟨calls, hfound⟩ : ∃ calls, getUTXOs api limit 0 a = some (.ok ([], ⟨0, calls⟩)) := by
    have hfuel : ∀ address ∈ a.addresses, retryLimit < enough (a.addresses.map (api.addressPages limit)) := by
      intro address haddress
      have := le_enough (List.mem_map_of_mem (f := api.addressPages limit) haddress)
      unfold retryLimit
      omega
    rcases getUTXOs_nothing a.fails houtputs 0 hfuel with ⟨hok, -⟩ | ⟨-, hnot⟩
    · exact hok
    · exact absurd htime hnot
  have hexpected : a.addresses.dedup.flatMap api.outputs = [] := by
    rw [List.flatMap_eq_nil_iff]
    exact fun address haddress => houtputs address (List.mem_dedup.mp haddress)
  have hbatch : (∃ calls, batchGetUTXOs api batchLimit a = some (.ok ([], calls))) ∨
      ∃ e, batchGetUTXOs api batchLimit a = some (.error e) := by
    rcases batchFound_cases api batchLimit a with ⟨calls', hok⟩ | herror
    · left
      refine ⟨calls', hok.trans ?_⟩
      have hnil : ((Series.chunk 500 a.addresses).flatMap fun chunk => (api.batchPages batchLimit chunk).flatten) = [] := by
        rw [List.flatMap_eq_nil_iff]
        intro chunk hchunk
        have hall := api.batch_all batchLimit chunk
        have hchunk' : chunk.dedup.flatMap api.outputs = [] := by
          rw [List.flatMap_eq_nil_iff]
          intro address haddress
          apply houtputs
          rw [← Series.flatten_chunk (show 0 < 500 by decide) a.addresses]
          exact List.mem_flatten.mpr ⟨chunk, hchunk, List.mem_dedup.mp haddress⟩
        rw [hchunk'] at hall
        exact hall.eq_nil
      rw [hnil]
      rfl
    · exact Or.inr herror
  have hstep : step api limit batchLimit s a =
      ⟨0, a.addresses, some (.ok []), (batchGetUTXOs api batchLimit a).map fun r => r.map Prod.fst⟩ := by
    unfold step
    rw [h0, hfound]
    rfl
  rw [hstep]
  have hcomplete : Complete api a.addresses [] := by
    unfold Complete
    rw [hexpected]
    exact List.Perm.refl _
  refine ⟨rfl, ⟨⟨_, rfl⟩, ?_⟩, ?_, ?_, ?_, fun _ _ => rfl⟩
  · rcases hbatch with ⟨calls, hok⟩ | ⟨e, herror⟩
    · exact ⟨_, congrArg (Option.map _) hok⟩
    · exact ⟨_, congrArg (Option.map _) herror⟩
  · intro utxos hutxos
    cases hutxos
    exact hcomplete
  · intro utxos hutxos
    dsimp only at hutxos
    rcases hbatch with ⟨calls, hok⟩ | ⟨e, herror⟩
    · rw [hok] at hutxos
      cases hutxos
      exact hcomplete
    · rw [herror] at hutxos
      cases hutxos
  · intro utxos utxos' hutxos hutxos'
    dsimp only at hutxos hutxos'
    cases hutxos
    rcases hbatch with ⟨calls, hok⟩ | ⟨e, herror⟩
    · rw [hok] at hutxos'
      cases hutxos'
      exact ⟨List.Perm.refl _, fun addresses d => ⟨d, d, rfl, rfl, sameData_refl d⟩⟩
    · rw [herror] at hutxos'
      cases hutxos'

/-- Without its address no output is complete, and after a call that throws there are no retries. -/
theorem empty_of_good {s : State} (h0 : s.retries = 0) {a : Action} (h : Good api (step api limit batchLimit s a)) :
    Empty api a := by
  rcases found_cases api limit (Nat.zero_le retryLimit) a with ⟨finder, hfound, -⟩ | ⟨e, finder, hfound, hlimit⟩
  · have houtputs : ∀ address ∈ a.addresses, api.outputs address = [] := by
      intro address haddress
      by_contra hne
      obtain ⟨utxo, hutxo⟩ := List.exists_mem_of_ne_nil _ hne
      have hcomplete := h.complete _ (by
        unfold step
        rw [h0, hfound]
        rfl)
      have hmem : resultOf utxo ∈ (a.addresses.dedup.flatMap api.outputs).map resultOf :=
        List.mem_map_of_mem (List.mem_flatMap.mpr ⟨address, List.mem_dedup.mpr haddress, hutxo⟩)
      obtain ⟨utxo', -, he⟩ := List.mem_map.mp (hcomplete.mem_iff.mpr hmem)
      exact absurd (congrArg Utxo.address he) (by simp [resultOf, BlocktrailUnspentOutputFinder.resultOf])
    refine ⟨houtputs, ?_⟩
    have hfuel : ∀ address ∈ a.addresses, retryLimit < enough (a.addresses.map (api.addressPages limit)) := by
      intro address haddress
      have := le_enough (List.mem_map_of_mem (f := api.addressPages limit) haddress)
      unfold retryLimit
      omega
    rcases getUTXOs_nothing a.fails houtputs 0 hfuel with ⟨-, htime⟩ | ⟨⟨e, herror⟩, -⟩
    · exact htime
    · exact absurd (hfound.symm.trans herror) (by simp)
  · have hfull := h.full e (by
      unfold step
      rw [h0, hfound]
      rfl)
    unfold step at hfull
    rw [h0, hfound] at hfull
    exact absurd (hlimit.symm.trans hfull) (by decide)

end Calls

theorem finders_iff (api : Api) (limit batchLimit : Nat) (actions : List Action) :
    Always (step api limit batchLimit) (Good api) start actions ↔
      ∀ a ∈ actions, (∀ address ∈ a.addresses, api.outputs address = []) ∧ InTime a.fails 0 a.addresses := by
  have hstart : start.retries = 0 ∧ Good api start := by
    refine ⟨rfl, ⟨⟨_, rfl⟩, _, rfl⟩, ?_, ?_, ?_, fun _ _ => rfl⟩
    · intro utxos hutxos
      cases hutxos
      exact List.Perm.refl _
    · intro utxos hutxos
      cases hutxos
      exact List.Perm.refl _
    · intro utxos utxos' hutxos hutxos'
      cases hutxos
      cases hutxos'
      exact ⟨List.Perm.refl _, fun addresses d => ⟨d, d, rfl, rfl, sameData_refl d⟩⟩
  rw [always_iff_along_of_inv (I := fun s => s.retries = 0 ∧ Good api s) (fun _ hs => hs.2) (fun _ _ hs ha => good_of_empty hs.1 ha) (fun _ _ hs h => empty_of_good hs.1 h) hstart]
  exact along_actions

/-- No retry is left after a call that throws. -/
example (api : Api) (e : PhpError) :
    (step api 500 200 start ⟨["1A"], fun _ => some e, fun _ => none⟩).retries = retryLimit := rfl

/-- All outputs on one page. -/
def onePage (outputs : List ApiUtxo) : List (List ApiUtxo) := if outputs = [] then [] else [outputs]

theorem onePage_nonempty (outputs : List ApiUtxo) : ∀ page ∈ onePage outputs, page ≠ [] := by
  unfold onePage
  split
  · simp
  next h => simpa using h

theorem flatten_onePage (outputs : List ApiUtxo) : (onePage outputs).flatten = outputs := by
  unfold onePage
  split
  next h => rw [h]; rfl
  next => simp

def Api.ofOutputs (outputs : Str → List ApiUtxo) (own : ∀ address, ∀ utxo ∈ outputs address, utxo.address = address) :
    Api where
  outputs := outputs
  addressPages _ address := onePage (outputs address)
  batchPages _ addresses := onePage (addresses.dedup.flatMap outputs)
  own := own
  address_nonempty _ _ := onePage_nonempty _
  batch_nonempty _ _ := onePage_nonempty _
  address_all _ _ := List.Perm.of_eq (flatten_onePage _)
  batch_all _ _ := List.Perm.of_eq (flatten_onePage _)

def funded : ApiUtxo := ⟨"aa", 0, 1000, "1A", "76a9"⟩

def fundedApi : Api :=
  Api.ofOutputs (fun address => if address = "1A".toList then [funded] else []) <| by
    intro address utxo h
    split at h
    next ha => rw [List.mem_singleton.mp h, ha]; rfl
    next => cases h

/-- One unspent output: the finder that goes address by address leaves its address out. -/
theorem address_left_out : ¬∀ (api : Api) (limit batchLimit : Nat) (actions : List Action),
    Always (step api limit batchLimit) (Good api) start actions := by
  intro h
  have hgood := (h fundedApi 500 200 [⟨["1A"], fun _ => none, fun _ => none⟩]).last
  have hcomplete := hgood.complete [⟨none, some 1000, "aa", 0, "76a9"⟩] rfl
  have hmem := hcomplete.mem_iff.mp List.mem_cons_self
  obtain ⟨utxo, -, he⟩ := List.mem_map.mp hmem
  exact absurd (congrArg Utxo.address he) (by simp [resultOf])

end Finders

end PhpSdk
