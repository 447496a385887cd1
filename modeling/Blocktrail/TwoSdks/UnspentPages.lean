import Blocktrail.JsSdk.BitcoinService
import Blocktrail.PhpSdk.BatchUnspentOutputFinder

/-! # Pages of unspent outputs, in both SDKs

The JavaScript service ends its loop after the first page. It resolves with all outputs only where there is no second.
-/

open Text Bitcoin Assoc

namespace TwoSdks

/-- What the promise resolves with. -/
def Resolves (query : JsSdk.UnspentOutputsQuery) (paginationLimit : Nat) (addresses : List Str)
    (m : Object Str (List JsSdk.Utxo)) : Prop :=
  ∃ fuel, JsSdk.getBatchUnspentOutputs query paginationLimit addresses fuel = some m

/-- Every output once, under its own address, in order. -/
def Grouped (m : Object Str (List JsSdk.Utxo)) (outputs : List ApiUtxo) : Prop :=
  ∀ address, m.get? address =
    if JsSdk.outputsOf outputs address = [] then none else some (JsSdk.outputsOf outputs address)

/-- An output of the PHP finder in the shape of the other SDK. -/
def toJs (utxo : PhpSdk.Utxo) : JsSdk.Utxo := ⟨utxo.hash, utxo.index, utxo.value.getD 0, utxo.scriptHex⟩

/-- The list of the PHP finder has the outputs of the map under each address. -/
def SameOutputs (m : Object Str (List JsSdk.Utxo)) (utxos : List PhpSdk.Utxo) : Prop :=
  ∀ address, (m.get? address).getD [] = (utxos.filter (·.address = some address)).map toJs

/-- Wherever the PHP finder reads these pages, it returns the outputs of the map. -/
def SameAsPhp (m : Object Str (List JsSdk.Utxo)) (pages : List (List ApiUtxo)) : Prop :=
  ∀ query paginationLimit addresses calls calls',
    PhpSdk.ReadsAll query paginationLimit (Series.chunk 500 addresses) calls pages calls' →
      ∃ utxos n, SameOutputs m utxos ∧
        ∀ fuel, n ≤ fuel → PhpSdk.getUTXOs query paginationLimit addresses calls fuel = some (.ok (utxos, calls'))

/-- What the service should make of the pages of a query. -/
def Right (query : JsSdk.UnspentOutputsQuery) (paginationLimit : Nat) (addresses : List Str) (a : PagedAnswer JsError) :
    Prop :=
  match a.last with
  | .ok _ => ∃ m, Resolves query paginationLimit addresses m ∧ Grouped m a.outputs ∧ SameAsPhp m a.pages
  | .error _ => ¬∃ m, Resolves query paginationLimit addresses m

/-! ## Both SDKs -/

theorem resolves_iff {query : JsSdk.UnspentOutputsQuery} {paginationLimit : Nat} {addresses : List Str}
    {m : Object Str (List JsSdk.Utxo)} : Resolves query paginationLimit addresses m ↔
      m = ((query addresses 1 paginationLimit).toOption.getD []).foldl JsSdk.addOutput .empty := by
  constructor
  · rintro ⟨fuel, h⟩
    cases fuel with
    | zero => cases h
    | succ fuel =>
      rw [JsSdk.getBatchUnspentOutputs_eq] at h
      exact (Option.some.inj h).symm
  · rintro rfl
    exact ⟨1, JsSdk.getBatchUnspentOutputs_eq query paginationLimit addresses 0⟩

theorem grouped_foldl (outputs : List ApiUtxo) : Grouped (outputs.foldl JsSdk.addOutput .empty) outputs := by
  intro address
  rw [JsSdk.get?_foldl_addOutput]
  simp [Object.get?_empty]

/-- A map groups one list of outputs up to their order between addresses, so their number. -/
theorem Grouped.outputsOf_eq {m : Object Str (List JsSdk.Utxo)} {outputs outputs' : List ApiUtxo}
    (h : Grouped m outputs) (h' : Grouped m outputs') (address : Str) :
    JsSdk.outputsOf outputs address = JsSdk.outputsOf outputs' address := by
  have heq := (h address).symm.trans (h' address)
  by_cases hnil : JsSdk.outputsOf outputs address = [] <;> by_cases hnil' : JsSdk.outputsOf outputs' address = [] <;>
    simp_all

theorem Grouped.sameOutputs {m : Object Str (List JsSdk.Utxo)} {outputs : List ApiUtxo} (h : Grouped m outputs) :
    SameOutputs m (outputs.map PhpSdk.resultOf) := by
  intro address
  have hfilter : ((outputs.map PhpSdk.resultOf).filter (·.address = some address)).map toJs =
      JsSdk.outputsOf outputs address := by
    rw [List.filter_map, List.map_map]
    simp only [JsSdk.outputsOf, Function.comp_def, PhpSdk.resultOf, toJs, Option.getD_some, Option.some_inj]
  rw [hfilter, h address]
  split
  · next hnil => simp [hnil]
  · rfl

theorem Grouped.sameAsPhp {m : Object Str (List JsSdk.Utxo)} {pages : List (List ApiUtxo)}
    (h : Grouped m pages.flatten) : SameAsPhp m pages := by
  intro query paginationLimit addresses calls calls' hreads
  obtain ⟨n, hn⟩ := PhpSdk.getUTXOs_of_reads hreads
  exact ⟨_, n, h.sameOutputs, hn⟩

theorem length_eq_of_outputsOf {outputs outputs' : List ApiUtxo}
    (h : ∀ address, JsSdk.outputsOf outputs address = JsSdk.outputsOf outputs' address) :
    outputs.length = outputs'.length := by
  have hcount : ∀ (l : List ApiUtxo) (address : Str),
      (l.map ApiUtxo.address).count address = (JsSdk.outputsOf l address).length := by
    intro l address
    induction l with
    | nil => rfl
    | cons utxo l ih =>
      unfold JsSdk.outputsOf at ih ⊢
      by_cases haddress : utxo.address = address <;> simp_all
  have hperm : (outputs.map ApiUtxo.address).Perm (outputs'.map ApiUtxo.address) :=
    List.perm_iff_count.mpr fun address => by rw [hcount, hcount, h address]
  simpa using hperm.length_eq

theorem length_head_eq_iff {pages : List (List ApiUtxo)} (h : ∀ page ∈ pages, page ≠ []) :
    (pages.head?.getD []).length = pages.flatten.length ↔ pages.length ≤ 1 := by
  match pages with
  | [] => simp
  | [first] => simp
  | first :: second :: rest =>
    have hsecond : 0 < second.length := List.length_pos_iff.mpr (h second (by simp))
    simp only [List.head?_cons, Option.getD_some, List.flatten_cons, List.length_append, List.length_cons]
    omega

/-- **Pages.** The service resolves with every output of every page, as the PHP SDK does, exactly where the query does
not fail and one page holds all outputs. -/
theorem unspent_pages_iff (answers : List Str → Nat → PagedAnswer JsError) (paginationLimit : Nat)
    (addresses : List Str) :
    Right (fun addresses page limit => (answers addresses limit).page page) paginationLimit addresses
        (answers addresses paginationLimit) ↔
      (answers addresses paginationLimit).last = .ok () ∧ (answers addresses paginationLimit).pages.length ≤ 1 := by
  have hres : ∀ m, Resolves (fun addresses page limit => (answers addresses limit).page page) paginationLimit addresses
      m ↔ m = (((answers addresses paginationLimit).page 1).toOption.getD []).foldl JsSdk.addOutput .empty :=
    fun m => resolves_iff
  generalize answers addresses paginationLimit = a at hres ⊢
  unfold Right
  cases hlast : a.last with
  | error e =>
    -- It always resolves.
    simp [hres]
  | ok u =>
    have hfirst : (a.page 1).toOption.getD [] = a.pages.head?.getD [] := by
      unfold PagedAnswer.page
      rcases a.pages with _ | ⟨first, rest⟩
      · rw [hlast]
        rfl
      · rfl
    simp only [true_and, ← length_head_eq_iff a.nonempty, ← hfirst]
    constructor
    · rintro ⟨m, hm, hgrouped, -⟩
      rw [hres] at hm
      subst hm
      exact length_eq_of_outputsOf ((grouped_foldl _).outputsOf_eq hgrouped)
    · intro hlen
      rw [hfirst, length_head_eq_iff a.nonempty] at hlen
      have hall : (a.page 1).toOption.getD [] = a.outputs := by
        rw [hfirst, PagedAnswer.outputs]
        match a.pages, hlen with
        | [], _ => rfl
        | [first], _ => simp
      have hgrouped := grouped_foldl a.outputs
      exact ⟨_, (hres _).mpr rfl, hall ▸ hgrouped, hall ▸ hgrouped.sameAsPhp⟩

/-! ## Two pages -/

def sampleOutput (hash address : String) : ApiUtxo := ⟨hash.toList, 0, 5000, address.toList, "a914".toList⟩

/-- Two outputs, on two pages. -/
def sampleAnswer : PagedAnswer JsError :=
  ⟨[[sampleOutput "aa" "2N1"], [sampleOutput "bb" "2N2"]], by simp, .ok ()⟩

theorem second_page_dropped :
    ¬Right (fun _ page _ => sampleAnswer.page page) 1 ["2N1".toList, "2N2".toList] sampleAnswer := by
  rintro ⟨m, hm, hgrouped, -⟩
  rw [resolves_iff] at hm
  have hget := hgrouped "2N2".toList
  rw [hm] at hget
  exact absurd hget (by decide)

end TwoSdks
