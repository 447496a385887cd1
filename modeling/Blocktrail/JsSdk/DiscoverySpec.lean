import Blocktrail.JsSdk.Discovery

/-! # What discovery finds when every query is answered -/

open Text Throwing Bitcoin Assoc

namespace JsSdk

variable {Node : Type}

/-! ## The results of one batch -/

/-- The client answers for a chunk, with outputs of its addresses only. -/
def Answered (client : BitcoinDataClient) (addressBatch : List Str) : Prop :=
  ∃ results, client.getBatchUnspentOutputs addressBatch = .ok results ∧
    ∀ a outputs, results.get? a = some outputs → outputs ≠ [] → a ∈ addressBatch

/-- The unspent outputs that the client has for an address, asked for in chunks. -/
def outputsIn (client : BitcoinDataClient) (chunks : List (List Str)) (a : Str) : List Utxo :=
  chunks.flatMap fun addressBatch =>
    if a ∈ addressBatch then
      match client.getBatchUnspentOutputs addressBatch with
      | .ok results => (results.get? a).getD []
      | .error _ => []
    else []

def nonempty {α : Type} (l : List α) : Option (List α) := if l = [] then none else some l

theorem get?_keepFound (r : Object Str (List Utxo)) (e : Str × List Utxo) (a : Str) :
    (keepFound r e).get? a = if a = e.1 then (nonempty e.2).or (r.get? a) else r.get? a := by
  unfold keepFound nonempty
  rcases e with ⟨k, _ | ⟨u, us⟩⟩
  · simp
  · rw [if_pos (by simp), Object.get?_set]
    by_cases ha : a = k
    · simp [ha]
    · simp [ha]

theorem foldl_keepFound (o r : Object Str (List Utxo)) (a : Str) :
    (o.entries.foldl keepFound r).get? a = ((o.get? a).bind nonempty).or (r.get? a) := by
  obtain ⟨l, h⟩ := o
  induction l generalizing r with
  | nil => rfl
  | cons e l ih =>
    have hn := List.nodup_cons.mp (show (e.1 :: keys l).Nodup from h)
    rw [Object.get?_cons, List.foldl_cons, ih (keepFound r e) hn.2, get?_keepFound]
    by_cases ha : a = e.1
    · rw [if_pos ha, if_pos ha, Object.get?_eq_none ⟨l, hn.2⟩ (by rw [ha]; exact hn.1)]
      rfl
    · rw [if_neg ha, if_neg ha]

theorem outputsIn_of_not_mem (client : BitcoinDataClient) {chunks : List (List Str)} {a : Str}
    (h : a ∉ chunks.flatten) : outputsIn client chunks a = [] := by
  rw [outputsIn, List.flatMap_eq_nil_iff]
  intro c hc
  rw [if_neg fun ha => h (List.mem_flatten.mpr ⟨c, hc, ha⟩)]

theorem outputsIn_cons (client : BitcoinDataClient) (c : List Str) (cs : List (List Str)) (a : Str) :
    outputsIn client (c :: cs) a =
      (if a ∈ c then
        match client.getBatchUnspentOutputs c with
        | .ok results => (results.get? a).getD []
        | .error _ => []
      else []) ++ outputsIn client cs a := List.flatMap_cons

/-- The results hold what the client has for every address, and nothing else. -/
theorem collectUTXOs_spec {client : BitcoinDataClient} {chunks : List (List Str)}
    (ha : ∀ c ∈ chunks, Answered client c) (hn : chunks.flatten.Nodup) (r : Object Str (List Utxo))
    (hr : ∀ a ∈ chunks.flatten, r.get? a = none) (a : Str) :
    (collectUTXOs client chunks r).get? a = (nonempty (outputsIn client chunks a)).or (r.get? a) := by
  induction chunks generalizing r with
  | nil => rfl
  | cons c cs ih =>
    rw [List.flatten_cons] at hn hr
    obtain ⟨hc, hcs, hdis⟩ := List.nodup_append.mp hn
    obtain ⟨results, hres, hkeys⟩ := ha c List.mem_cons_self
    have hstep : ∀ b, (results.entries.foldl keepFound r).get? b = ((results.get? b).bind nonempty).or (r.get? b) :=
      foldl_keepFound results r
    have hout : ∀ {b}, b ∉ c → (results.get? b).bind nonempty = none := by
      intro b hb
      rcases hg : results.get? b with _ | _ | ⟨u, us⟩
      · rfl
      · rfl
      · exact absurd (hkeys b _ hg (List.cons_ne_nil u us)) hb
    unfold collectUTXOs
    rw [hres]
    simp only
    rw [ih (fun c' hc' => ha c' (List.mem_cons_of_mem c hc')) hcs]
    · rw [hstep, outputsIn_cons, hres]
      by_cases hac : a ∈ c
      · have hnot : a ∉ cs.flatten := fun hmem => hdis a hac a hmem rfl
        rw [outputsIn_of_not_mem client hnot, if_pos hac, List.append_nil]
        rcases hg : results.get? a with _ | _ | ⟨u, us⟩ <;> simp [hg, nonempty]
      · rw [if_neg hac, List.nil_append, hout hac, Option.none_or]
    · intro b hb
      have hbc : b ∉ c := fun hmem => hdis b hmem b hb rfl
      rw [hstep, hout hbc, hr b (List.mem_append_right c hb), Option.none_or]

def DiscoveryArgs.outputsOf (args : DiscoveryArgs) (batch : Object Str BatchEntry) (a : Str) : List Utxo :=
  outputsIn args.client (Series.chunk args.batchChunkSize batch.keys) a

/-- Both queries of a batch are answered. -/
def DiscoveryArgs.Answers (args : DiscoveryArgs) (batch : Object Str BatchEntry) : Prop :=
  ∃ hasTransactions, args.client.batchAddressHasTransactions batch.keys = .ok hasTransactions ∧
    (hasTransactions = true →
      ∀ c ∈ Series.chunk args.batchChunkSize batch.keys, Answered args.client c)

theorem getUTXOs_spec {args : DiscoveryArgs} {batch : Object Str BatchEntry}
    (ha : ∀ c ∈ Series.chunk args.batchChunkSize batch.keys, Answered args.client c) (a : Str) :
    (getUTXOs args.client args.batchChunkSize batch.keys).get? a = nonempty (args.outputsOf batch a) := by
  have hn : (Series.chunk args.batchChunkSize batch.keys).flatten.Nodup := by
    rw [Series.flatten_chunk args.batchChunkSize_pos]
    exact batch.nodup
  rw [getUTXOs, collectUTXOs_spec ha hn .empty (fun _ _ => rfl), Object.get?_empty, Option.or_none]
  rfl

/-! ## Funds of a list of addresses -/

def Funds.addAll (f : Funds) (l : List (Str × AddressUTXOs)) : Funds := l.foldl Funds.add f

theorem Funds.addAll_append (f : Funds) (l m : List (Str × AddressUTXOs)) :
    f.addAll (l ++ m) = (f.addAll l).addAll m := List.foldl_append

theorem foldl_add_value (b : Int) (l : List Utxo) :
    l.foldl (fun carry output => carry + output.value) b = b + (l.map Utxo.value).sum := by
  induction l generalizing b with
  | nil => simp
  | cons u l ih =>
    rw [List.foldl_cons, ih, List.map_cons, List.sum_cons]
    omega

theorem Funds.addAll_spec (f : Funds) (l : List (Str × AddressUTXOs)) (h : (f.utxos.keys ++ keys l).Nodup) :
    (f.addAll l).utxos.entries = f.utxos.entries ++ l ∧
      (f.addAll l).count = f.count + (l.map fun e => e.2.utxos.length).sum ∧
        (f.addAll l).balance = f.balance + (l.map fun e => (e.2.utxos.map Utxo.value).sum).sum := by
  induction l generalizing f with
  | nil => simp [Funds.addAll]
  | cons e l ih =>
    have hassoc : f.utxos.keys ++ keys (e :: l) = (f.utxos.keys ++ [e.1]) ++ keys l := by simp [keys]
    rw [hassoc] at h
    have hnew : e.1 ∉ f.utxos.keys := fun hmem =>
      (List.nodup_append.mp (List.nodup_append.mp h).1).2.2 e.1 hmem e.1 (List.mem_singleton.mpr rfl) rfl
    have hentries : (f.add e).utxos.entries = f.utxos.entries ++ [e] := f.utxos.entries_set_of_not_mem hnew e.2
    have hkeys : (f.add e).utxos.keys = f.utxos.keys ++ [e.1] := by
      unfold Object.keys
      rw [hentries, keys, List.map_append]
      rfl
    obtain ⟨he, hc, hb⟩ := ih (f.add e) (by rw [hkeys]; exact h)
    refine ⟨?_, ?_, ?_⟩
    · rw [show f.addAll (e :: l) = (f.add e).addAll l from rfl, he, hentries, List.append_assoc]
      rfl
    · rw [show f.addAll (e :: l) = (f.add e).addAll l from rfl, hc, List.map_cons, List.sum_cons]
      show f.count + e.2.utxos.length + _ = _
      omega
    · rw [show f.addAll (e :: l) = (f.add e).addAll l from rfl, hb, List.map_cons, List.sum_cons]
      show e.2.utxos.foldl (fun carry output => carry + output.value) f.balance + _ = _
      rw [foldl_add_value]
      omega

/-! ## One batch -/

/-- What a batch adds to the funds. -/
def foundIn (args : DiscoveryArgs) (batch : Object Str BatchEntry) : List (Str × AddressUTXOs) :=
  (getUTXOs args.client args.batchChunkSize batch.keys).entries.filterMap fun e =>
    ((batch.get? e.1).map fun b => fundsOf b e.2).map fun found => (e.1, found)

theorem nodup_foundIn (args : DiscoveryArgs) (batch : Object Str BatchEntry) : (keys (foundIn args batch)).Nodup :=
  (keys_filterMap (fun e : Str × List Utxo => (batch.get? e.1).map fun b => fundsOf b e.2) _).nodup
    (getUTXOs args.client args.batchChunkSize batch.keys).nodup

theorem mem_foundIn {args : DiscoveryArgs} {batch : Object Str BatchEntry}
    (ha : ∀ c ∈ Series.chunk args.batchChunkSize batch.keys, Answered args.client c) {address : Str}
    {found : AddressUTXOs} :
    (address, found) ∈ foundIn args batch ↔ args.outputsOf batch address ≠ [] ∧
      ∃ e, batch.get? address = some e ∧ found = fundsOf e (args.outputsOf batch address) := by
  have hspec := getUTXOs_spec ha address
  simp only [foundIn, List.mem_filterMap, Option.map_eq_some_iff, Prod.mk.injEq]
  constructor
  · rintro ⟨⟨k, outputs⟩, hmem, b, ⟨e, he, rfl⟩, rfl, rfl⟩
    rw [(Object.get?_eq_some _).mpr hmem] at hspec
    unfold nonempty at hspec
    split at hspec
    · cases hspec
    · next hne =>
      refine ⟨hne, e, he, ?_⟩
      rw [← Option.some.inj hspec]
  · rintro ⟨hne, e, he, rfl⟩
    rw [nonempty, if_neg hne] at hspec
    exact ⟨(address, _), (Object.get?_eq_some _).mp hspec, _, ⟨e, he, rfl⟩, rfl, rfl⟩

theorem call_saveUTXOs {batch : Object Str BatchEntry} {l : List (Str × List Utxo)}
    (h : ∀ e ∈ l, e.1 ∈ batch.keys) (d : SweepData) :
    call (saveUTXOs batch l) d =
      (.ok ⟨⟩, { d with toFunds :=
        d.toFunds.addAll (l.filterMap fun e =>
          ((batch.get? e.1).map fun b => fundsOf b e.2).map fun found => (e.1, found)) }) := by
  induction l generalizing d with
  | nil => rfl
  | cons e l ih =>
    obtain ⟨b, hb⟩ := batch.exists_get? (h e List.mem_cons_self)
    have hrest := ih (fun e' he' => h e' (List.mem_cons_of_mem e he'))
    unfold saveUTXOs
    rw [hb]
    simp only
    rw [call_bind_ok (call_modify _ _), hrest, List.filterMap_cons, hb]
    rfl

theorem call_searchBatch_true {args : DiscoveryArgs} {batch : Object Str BatchEntry}
    (h : args.client.batchAddressHasTransactions batch.keys = .ok true)
    (ha : ∀ c ∈ Series.chunk args.batchChunkSize batch.keys, Answered args.client c) (d : SweepData) :
    ∃ d', call (searchBatch args.client args.batchChunkSize batch) d = (.ok true, d') ∧
      d'.toFunds = d.toFunds.addAll (foundIn args batch) := by
  have hkeys : ∀ e ∈ (getUTXOs args.client args.batchChunkSize batch.keys).entries, e.1 ∈ batch.keys := by
    intro e he
    have hget := (Object.get?_eq_some _).mpr he
    rw [getUTXOs_spec ha] at hget
    by_contra hnot
    rw [DiscoveryArgs.outputsOf, outputsIn_of_not_mem] at hget
    · cases hget
    · rw [Series.flatten_chunk args.batchChunkSize_pos]
      exact hnot
  unfold searchBatch
  rw [call_bind_ok (call_modify _ _), call_orRaise_bind_ok h, if_pos rfl, call_bind_ok (call_saveUTXOs hkeys _)]
  exact ⟨_, rfl, rfl⟩

theorem call_searchBatch_false {args : DiscoveryArgs} {batch : Object Str BatchEntry}
    (h : args.client.batchAddressHasTransactions batch.keys = .ok false) (d : SweepData) :
    ∃ d', call (searchBatch args.client args.batchChunkSize batch) d = (.ok false, d') ∧ d'.toFunds = d.toFunds := by
  unfold searchBatch
  rw [call_bind_ok (call_modify _ _), call_orRaise_bind_ok h, if_neg (by simp)]
  exact ⟨_, rfl, rfl⟩

end JsSdk
