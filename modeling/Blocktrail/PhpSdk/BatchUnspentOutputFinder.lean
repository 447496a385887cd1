import Blocktrail.Bitcoin.UnspentPages
import Blocktrail.PhpSdk.Sweeper

/-! # The batch finder of unspent outputs -/

open Text Bitcoin

namespace PhpSdk

/-- `$client->batchAddressUnspentOutputs($addresses, $page, $limit)`, by the number of calls before: a call that fails
may be answered later. -/
abbrev UnspentOutputsQuery := Nat → List Str → Nat → Nat → Except PhpError (List ApiUtxo)

def retryLimit : Nat := 5

/-- The variables of `getUnspentOutputs`, and the calls that the client has had. -/
structure PagesRead where
  calls : Nat
  page : Nat
  retries : Nat
  utxos : List ApiUtxo

/-- One turn of the loop: on with `inl`, out with `inr`. -/
def PagesRead.nextPage (query : UnspentOutputsQuery) (paginationLimit : Nat) (addresses : List Str) (s : PagesRead) :
    Except PhpError (PagesRead ⊕ PagesRead) :=
  match query s.calls addresses s.page paginationLimit with
  | .ok data =>
    let t := { s with calls := s.calls + 1, utxos := s.utxos ++ data, page := s.page + 1 }
    .ok (if 0 < data.length then .inl t else .inr t)
  | .error e =>
    if s.retries < retryLimit then .ok (.inl { s with calls := s.calls + 1, retries := s.retries + 1 }) else .error e

def resultOf (utxo : ApiUtxo) : Utxo := ⟨some utxo.address, some utxo.value, utxo.hash, utxo.index, utxo.script_hex⟩

/-- `getUnspentOutputs($addresses)`, after so many calls: the outputs, and the calls with these. -/
def getUnspentOutputs (query : UnspentOutputsQuery) (paginationLimit : Nat) (addresses : List Str) (calls fuel : Nat) :
    Option (Except PhpError (List Utxo × Nat)) :=
  (Series.recur (fun s => some (PagesRead.nextPage query paginationLimit addresses s)) fuel ⟨calls, 1, 0, []⟩).map
    fun r => r.map fun s => (s.utxos.map resultOf, s.calls)

/-- The loop body over the chunks: the results so far and the calls. -/
def addChunk (query : UnspentOutputsQuery) (paginationLimit fuel : Nat) (addresses : List Str) (s : List Utxo × Nat) :
    Option (Except PhpError (List Utxo × Nat)) :=
  (getUnspentOutputs query paginationLimit addresses s.2 fuel).map fun r =>
    r.map fun utxos => (if 0 < utxos.1.length then s.1 ++ utxos.1 else s.1, utxos.2)

/-- `getUTXOs($addresses)`. -/
def getUTXOs (query : UnspentOutputsQuery) (paginationLimit : Nat) (addresses : List Str) (calls fuel : Nat) :
    Option (Except PhpError (List Utxo × Nat)) :=
  Series.eachSeries (addChunk query paginationLimit fuel) (Series.chunk 500 addresses) ([], calls)

/-! ## What is read -/

/-- The pages with outputs that the client reads for a query, with no more failures than it retries, from so many calls,
a page and so many retries on, and the calls in the end. -/
inductive Reads (query : UnspentOutputsQuery) (paginationLimit : Nat) (addresses : List Str) :
    Nat → Nat → Nat → List (List ApiUtxo) → Nat → Prop
  | last {calls page retries : Nat} (h : query calls addresses page paginationLimit = .ok []) :
    Reads query paginationLimit addresses calls page retries [] (calls + 1)
  | page {calls page retries calls' : Nat} {outputs : List ApiUtxo} {pages : List (List ApiUtxo)}
    (h : query calls addresses page paginationLimit = .ok outputs) (hne : outputs ≠ [])
    (rest : Reads query paginationLimit addresses (calls + 1) (page + 1) retries pages calls') :
    Reads query paginationLimit addresses calls page retries (outputs :: pages) calls'
  | retry {calls page retries calls' : Nat} {e : PhpError} {pages : List (List ApiUtxo)}
    (h : query calls addresses page paginationLimit = .error e) (hlt : retries < retryLimit)
    (rest : Reads query paginationLimit addresses (calls + 1) page (retries + 1) pages calls') :
    Reads query paginationLimit addresses calls page retries pages calls'

/-- The pages of one chunk of addresses after the other. -/
inductive ReadsAll (query : UnspentOutputsQuery) (paginationLimit : Nat) :
    List (List Str) → Nat → List (List ApiUtxo) → Nat → Prop
  | nil (calls : Nat) : ReadsAll query paginationLimit [] calls [] calls
  | cons {addresses : List Str} {chunks : List (List Str)} {calls calls' calls'' : Nat}
    {pages pages' : List (List ApiUtxo)} (h : Reads query paginationLimit addresses calls 1 0 pages calls')
    (rest : ReadsAll query paginationLimit chunks calls' pages' calls'') :
    ReadsAll query paginationLimit (addresses :: chunks) calls (pages ++ pages') calls''

section Reading

variable {query : UnspentOutputsQuery} {paginationLimit : Nat}

theorem recur_of_reads {addresses : List Str} {calls page retries calls' : Nat} {pages : List (List ApiUtxo)}
    (h : Reads query paginationLimit addresses calls page retries pages calls') (utxos : List ApiUtxo) :
    ∃ n, ∀ fuel, n ≤ fuel → ∃ s : PagesRead, s.utxos = utxos ++ pages.flatten ∧ s.calls = calls' ∧
      Series.recur (fun s => some (PagesRead.nextPage query paginationLimit addresses s)) fuel
        ⟨calls, page, retries, utxos⟩ = some (.ok s) := by
  induction h generalizing utxos with
  | @last calls page retries h =>
    refine ⟨1, fun fuel hfuel => ?_⟩
    obtain ⟨fuel, rfl⟩ : ∃ n, fuel = n + 1 := ⟨fuel - 1, by omega⟩
    refine ⟨⟨calls + 1, page + 1, retries, utxos ++ []⟩, by simp, rfl, ?_⟩
    unfold Series.recur
    simp [PagesRead.nextPage, h]
  | @page calls page retries calls' outputs pages h hne _ ih =>
    obtain ⟨n, hn⟩ := ih (utxos ++ outputs)
    refine ⟨n + 1, fun fuel hfuel => ?_⟩
    obtain ⟨fuel, rfl⟩ : ∃ n, fuel = n + 1 := ⟨fuel - 1, by omega⟩
    obtain ⟨s, hs, hcalls, hrecur⟩ := hn fuel (by omega)
    refine ⟨s, by simp [hs], hcalls, ?_⟩
    unfold Series.recur
    simp only [PagesRead.nextPage, h, if_pos (List.length_pos_iff.mpr hne)]
    exact hrecur
  | @retry calls page retries calls' e pages h hlt _ ih =>
    obtain ⟨n, hn⟩ := ih utxos
    refine ⟨n + 1, fun fuel hfuel => ?_⟩
    obtain ⟨fuel, rfl⟩ : ∃ n, fuel = n + 1 := ⟨fuel - 1, by omega⟩
    obtain ⟨s, hs, hcalls, hrecur⟩ := hn fuel (by omega)
    refine ⟨s, hs, hcalls, ?_⟩
    unfold Series.recur
    simp only [PagesRead.nextPage, h, if_pos hlt]
    exact hrecur

theorem addChunk_of_reads {addresses : List Str} {calls calls' : Nat} {pages : List (List ApiUtxo)}
    (h : Reads query paginationLimit addresses calls 1 0 pages calls') (results : List Utxo) :
    ∃ n, ∀ fuel, n ≤ fuel → addChunk query paginationLimit fuel addresses (results, calls) =
      some (.ok (results ++ pages.flatten.map resultOf, calls')) := by
  obtain ⟨n, hn⟩ := recur_of_reads h []
  refine ⟨n, fun fuel hfuel => ?_⟩
  obtain ⟨s, hs, hcalls, hrecur⟩ := hn fuel hfuel
  rw [List.nil_append] at hs
  unfold addChunk getUnspentOutputs
  simp only [hrecur, Option.map_some, Except.map, hs, hcalls]
  split
  · rfl
  · next hlen =>
    have hnil : pages.flatten.map resultOf = [] := List.length_eq_zero_iff.mp (by omega)
    rw [hnil, List.append_nil]

theorem eachSeries_of_reads {chunks : List (List Str)} {calls calls' : Nat} {pages : List (List ApiUtxo)}
    (h : ReadsAll query paginationLimit chunks calls pages calls') (results : List Utxo) :
    ∃ n, ∀ fuel, n ≤ fuel → Series.eachSeries (addChunk query paginationLimit fuel) chunks (results, calls) =
      some (.ok (results ++ pages.flatten.map resultOf, calls')) := by
  induction h generalizing results with
  | nil calls => exact ⟨0, fun fuel _ => by simp [Series.eachSeries]⟩
  | @cons addresses chunks calls calls' calls'' pages pages' h _ ih =>
    obtain ⟨n, hn⟩ := addChunk_of_reads h results
    obtain ⟨m, hm⟩ := ih (results ++ pages.flatten.map resultOf)
    refine ⟨max n m, fun fuel hfuel => ?_⟩
    unfold Series.eachSeries
    rw [hn fuel (le_trans (le_max_left n m) hfuel)]
    simp only
    rw [hm fuel (le_trans (le_max_right n m) hfuel)]
    simp

/-- **Pages.** The finder returns every output of the pages that it reads, in order. -/
theorem getUTXOs_of_reads {addresses : List Str} {calls calls' : Nat} {pages : List (List ApiUtxo)}
    (h : ReadsAll query paginationLimit (Series.chunk 500 addresses) calls pages calls') :
    ∃ n, ∀ fuel, n ≤ fuel → getUTXOs query paginationLimit addresses calls fuel =
      some (.ok (pages.flatten.map resultOf, calls')) :=
  eachSeries_of_reads h []

end Reading

end PhpSdk
