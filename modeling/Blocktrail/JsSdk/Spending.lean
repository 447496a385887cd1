import Blocktrail.JsSdk.BuildTransaction
import Blocktrail.JsSdk.Payments
import Blocktrail.JsSdk.Sample

/-! # What a transaction spends -/

open Text Throwing Bitcoin

namespace JsSdk

namespace BuildTransaction

/-! ## Accounts -/

def IsHexText (s : Str) : Prop := s.length % 2 = 0 ∧ ∀ c ∈ s, (hexValue? c).isSome = true

/-- A script in bytes, or the text of one. -/
def IsHexScript : PayValue → Prop
  | .string s => IsHexText s
  | _ => True

/-- The output pays what was asked for. -/
def Requests (output : PayOutput) (txOut : TxOutput) : Prop :=
  output.value = .int txOut.value ∧
    match output.scriptPubKey with
    | .string s => IsHexText s ∧ Hex.decode s = txOut.script
    | .buffer bytes _ => bytes = txOut.script
    | .array bytes _ => bytes = txOut.script
    | _ => False

variable {Node : Type}

def total (outs : List TxOutput) : Int := (outs.map TxOutput.value).sum

/-- The coins in order, every output that was asked for and at most one of change, and a remainder that the fee
accounts for. -/
structure Accounted (d : AddressDecoder) (w : Wallet Node) (r : Request) (a : Answers) (send : List PayOutput)
    (s : CoinSelection) (tx : Tx) : Prop where
  spends : tx.ins.map (fun txIn => (txIn.hash, txIn.index)) = s.utxos.map fun utxo =>
    TransactionBuilder.outpoint utxo.hash utxo.idx
  pays : ∃ requested rest, List.Forall₂ Requests send requested ∧ tx.outs.Perm (requested ++ rest) ∧
    (rest = [] ∨ ∃ address script change, rest = [⟨script, change⟩] ∧ changeAddress r a = .ok address ∧
      toOutputScript d address w.network w.useNewCashAddr = .ok script ∧ DUST < change)
  not_negative : ∃ inputs, inputsTotal s.utxos = some inputs ∧ 0 ≤ inputs - total tx.outs
  at_most_fee : ∃ inputs fee, inputsTotal s.utxos = some inputs ∧ s.fee = some fee ∧
    inputs - total tx.outs ≤ fee + 2 * DUST

/-! ## The builder -/

section Builder

variable {b b' : TransactionBuilder}

/-- The outpoint of a coin. -/
def coinOutpoint (utxo : Utxo) : Str × Nat := (utxo.hash, utxo.idx)

/-- An output as it is handed to the builder. -/
def handed (txOut : TxOutput) : Bytes × JsNumber := (txOut.script, .int txOut.value)

theorem addOutput_ok {output : Bytes × JsNumber} (h : addOutput b output = .ok b') :
    ∃ txOut, output = handed txOut ∧ Tx.IsSatoshi txOut.value ∧ b'.tx.outs = b.tx.outs ++ [txOut] ∧
      b'.tx.ins = b.tx.ins := by
  obtain ⟨script, value⟩ := output
  unfold addOutput at h
  dsimp only at h
  split_ifs at h
  cases value with
  | int z =>
    simp only [integer?] at h
    split_ifs at h with hsatoshi
    cases h
    exact ⟨⟨script, z⟩, rfl, hsatoshi, rfl, rfl⟩
  | nan => cases h
  | infinity negative => cases h

theorem addOutputs_ok {outputs : List (Bytes × JsNumber)} (h : outputs.foldlM addOutput b = .ok b') :
    ∃ txOuts : List TxOutput, outputs = txOuts.map handed ∧ (∀ out ∈ txOuts, Tx.IsSatoshi out.value) ∧
      b'.tx.outs = b.tx.outs ++ txOuts ∧ b'.tx.ins = b.tx.ins := by
  induction outputs generalizing b with
  | nil =>
    cases h
    exact ⟨[], rfl, by simp, by simp, rfl⟩
  | cons output outputs ih =>
    rw [List.foldlM_cons] at h
    obtain ⟨b₁, hfirst, hrest⟩ := exists_of_bind_ok h
    obtain ⟨txOut, rfl, hsatoshi, houts, hins⟩ := addOutput_ok hfirst
    obtain ⟨txOuts, rfl, hsatoshi', houts', hins'⟩ := ih hrest
    exact ⟨txOut :: txOuts, rfl, List.forall_mem_cons.mpr ⟨hsatoshi, hsatoshi'⟩, by rw [houts', houts]; simp,
      hins'.trans hins⟩

theorem outpoints_buildIncomplete {signed : List TxIn} (h : signed.length = b.tx.ins.length) :
    (buildIncomplete b signed).ins.map (fun txIn => (txIn.hash, txIn.index)) =
      b.tx.ins.map fun txIn => (txIn.hash, txIn.index) := by
  unfold buildIncomplete
  rw [List.map_zipWith]
  generalize b.tx.ins = ins at h
  induction ins generalizing signed with
  | nil => simp
  | cons txIn ins ih =>
    cases signed with
    | nil => cases h
    | cons s signed =>
      rw [List.zipWith_cons_cons, List.map_cons, ih (by simpa using h)]

end Builder

/-! ## The outputs -/

section Outputs

variable {d : AddressDecoder} {w : Wallet Node} {r : Request} {a : Answers}

@[simp] theorem integer?_int (z : Int) : integer? (.int z) = some z := rfl

/-- Wherever the change is put, the outputs are those asked for and the change. -/
theorem insertChange_split {outputs change : List (Bytes × JsNumber)} {txOuts : List TxOutput}
    (h : insertChange r a outputs change = txOuts.map handed) :
    ∃ requested rest, outputs = requested.map handed ∧ change = rest.map handed ∧ txOuts.Perm (requested ++ rest) := by
  unfold insertChange at h
  split_ifs at h
  · obtain ⟨before, after, rfl, hbefore, hafter⟩ := List.map_eq_append_iff.mp h.symm
    obtain ⟨first, rest, rfl, hfirst, hrest⟩ := List.map_eq_append_iff.mp hbefore
    refine ⟨first ++ after, rest, ?_, hrest.symm, ?_⟩
    · rw [List.map_append, hfirst, hafter, List.take_append_drop]
    · rw [List.append_assoc, List.append_assoc]
      exact List.Perm.append_left first List.perm_append_comm
  · obtain ⟨requested, rest, rfl, hrequested, hrest⟩ := List.map_eq_append_iff.mp h.symm
    exact ⟨requested, rest, hrequested.symm, hrest.symm, List.Perm.refl _⟩

theorem sendOutput_ok {output : PayOutput} {txOut : TxOutput} (h : sendOutput output = .ok (handed txOut)) :
    output.value = .int txOut.value ∧ (Requests output txOut ↔ IsHexScript output.scriptPubKey) := by
  unfold sendOutput at h
  unfold Requests IsHexScript
  split at h
  next => cases h
  next s hne hs =>
    obtain ⟨hscript, hvalue⟩ := Prod.mk.inj (Except.ok.inj h)
    rw [hs]
    exact ⟨hvalue, fun hr => hr.2.1, fun hhex => ⟨hvalue, hhex, hscript⟩⟩
  next bytes text hs =>
    obtain ⟨hscript, hvalue⟩ := Prod.mk.inj (Except.ok.inj h)
    rw [hs]
    exact ⟨hvalue, fun _ => trivial, fun _ => ⟨hvalue, hscript⟩⟩
  next bytes text hs =>
    obtain ⟨hscript, hvalue⟩ := Prod.mk.inj (Except.ok.inj h)
    rw [hs]
    exact ⟨hvalue, fun _ => trivial, fun _ => ⟨hvalue, hscript⟩⟩
  next => cases h

theorem sendOutputs_ok {send : List PayOutput} {requested : List TxOutput}
    (h : send.mapM sendOutput = .ok (requested.map handed)) :
    outputsTotal send = some (total requested) ∧
      ((∀ output ∈ send, IsHexScript output.scriptPubKey) → List.Forall₂ Requests send requested) := by
  rw [mapM_ok_iff_forall₂, List.forall₂_map_right_iff] at h
  unfold outputsTotal total
  induction h with
  | nil => simp
  | cons hhead _ ih =>
    obtain ⟨hvalue, hrequests⟩ := sendOutput_ok hhead
    obtain ⟨hsum, hrest⟩ := ih
    constructor
    · obtain ⟨values, hvalues, hsum'⟩ := Option.map_eq_some_iff.mp hsum
      rw [List.mapM_cons, hvalue, integer?_int, hvalues]
      simp [hsum']
    · intro hhex
      rw [List.forall_mem_cons] at hhex
      exact .cons (hrequests.mpr hhex.1) (hrest hhex.2)

theorem isHexScript_of_requests {send : List PayOutput} {requested : List TxOutput}
    (h : List.Forall₂ Requests send requested) : ∀ output ∈ send, IsHexScript output.scriptPubKey := by
  induction h with
  | nil => simp
  | cons hhead _ ih =>
    rw [List.forall_mem_cons]
    refine ⟨?_, ih⟩
    obtain ⟨-, hscript⟩ := hhead
    unfold IsHexScript
    split at hscript
    next s hs =>
      rw [hs]
      exact hscript.1
    next bytes text hs =>
      rw [hs]
      trivial
    next bytes text hs =>
      rw [hs]
      trivial
    next => cases hscript

theorem toValue_eq_int {amount : Rat} {z : Int} (h : toValue amount = .int z) : amount = z := by
  unfold toValue at h
  split_ifs at h with hden
  obtain rfl := JsNumber.int.inj h
  exact (Rat.coe_int_num_of_den_eq_one hden).symm

theorem usedChange_cases (change : ApiNumber) : usedChange change = 0 ∨ DUST < usedChange change := by
  unfold usedChange
  cases change with
  | none => exact Or.inl rfl
  | some change =>
    dsimp only [Option.elim]
    split_ifs with habove
    · exact Or.inr habove
    · exact Or.inl rfl

theorem changeOutput_ok {change : ApiNumber} {rest : List TxOutput}
    (h : changeOutput d w r a change = .ok (rest.map handed)) :
    (total rest : Rat) = usedChange change ∧
      (rest = [] ∨ ∃ address script change', rest = [⟨script, change'⟩] ∧ changeAddress r a = .ok address ∧
        toOutputScript d address w.network w.useNewCashAddr = .ok script ∧ DUST < change') := by
  unfold changeOutput at h
  split_ifs at h with hpos
  · obtain ⟨address, haddress, h⟩ := exists_of_bind_ok h
    obtain ⟨script, hscript, h⟩ := exists_of_bind_ok h
    obtain ⟨txOut, rfl, hout⟩ := List.map_eq_singleton_iff.mp (Except.ok.inj h).symm
    obtain ⟨hscript', hvalue⟩ := Prod.mk.inj hout
    have hamount := toValue_eq_int hvalue.symm
    have hdust : DUST < txOut.value := by
      have hcases := usedChange_cases change
      rw [hamount] at hcases hpos
      rcases hcases with hzero | hdust
      · exact absurd hpos (by rw [hzero]; exact lt_irrefl 0)
      · exact_mod_cast hdust
    refine ⟨by rw [hamount]; simp [total], Or.inr ⟨address, script, txOut.value, ?_, haddress, hscript, hdust⟩⟩
    rw [← hscript']
  · have hnil : rest = [] := List.map_eq_nil_iff.mp (Except.ok.inj h).symm
    have hzero : usedChange change = 0 := by
      rcases usedChange_cases change with hzero | hdust
      · exact hzero
      · refine absurd (lt_trans ?_ hdust) hpos
        norm_num [DUST]
    exact ⟨by rw [hnil, hzero]; rfl, Or.inl hnil⟩

end Outputs

/-! ## The remainder -/

theorem total_perm {outs outs' : List TxOutput} (h : outs.Perm outs') : total outs = total outs' :=
  (h.map TxOutput.value).sum_eq

theorem total_append (outs outs' : List TxOutput) : total (outs ++ outs') = total outs + total outs' := by
  unfold total
  rw [List.map_append, List.sum_append]

theorem length_mapM_ok {α β ε : Type} {f : α → Except ε β} {l : List α} {m : List β} (h : l.mapM f = .ok m) :
    m.length = l.length := (mapM_ok_iff_forall₂.mp h).length_eq.symm

/-- The change that is used is all that was estimated, where that was compared. -/
theorem remainder_le {send : List PayOutput} {s : CoinSelection} {sum : Int} {inputs fee : Rat}
    (h : prepare send s = .ok ()) (hsum : outputsTotal send = some sum) (hinputs : inputsTotal s.utxos = some inputs)
    (hfee : s.fee = some fee) : inputs - (sum + usedChange s.change) ≤ fee + 2 * DUST := by
  have hestimated : estimatedChange send s = some (inputs - sum - fee) := by
    unfold estimatedChange
    rw [hsum, hinputs, hfee]
    rfl
  unfold prepare at h
  rw [hestimated] at h
  split_ifs at h with hne hestimate
  have hcompared : inputs - sum - fee > DUST * 2 → s.change = some (inputs - sum - fee) := by
    intro hlarge
    by_contra hother
    refine hestimate ?_
    rw [Option.any_some, Bool.and_eq_true, decide_eq_true_eq, decide_eq_true_eq]
    exact ⟨hlarge, fun hsame => hother hsame.symm⟩
  have hdust : (0 : Rat) < DUST := by norm_num [DUST]
  by_cases hlarge : inputs - sum - fee > DUST * 2
  · have hused : usedChange s.change = inputs - sum - fee := by
      rw [hcompared hlarge]
      exact if_pos (by linarith)
    rw [hused]
    linarith
  · rcases usedChange_cases s.change with hzero | habove <;> linarith

/-! ## Room -/

/-- Scripts and a number of outputs that are written with a length before them. -/
structure Fits (outs : List TxOutput) : Prop where
  scripts : ∀ out ∈ outs, out.script.length < 18446744073709551615
  count : outs.length < 18446744073709551615

theorem getLengthForVarInt_lt {n size : Nat} (h : SizeEstimation.getLengthForVarInt n = .ok size) :
    n < 18446744073709551615 := by
  by_contra hlarge
  unfold SizeEstimation.getLengthForVarInt at h
  rw [if_neg (by omega), if_neg (by omega), if_neg (by omega), if_neg hlarge] at h
  cases h

theorem fits_of_estimate {tx : Tx} {utxos : List Utxo} {fee : Nat} (h : estimateVsizeFee tx utxos = .ok fee) :
    Fits tx.outs := by
  obtain ⟨vsize, hvsize, -⟩ := exists_of_bind_ok h
  obtain ⟨weight, hweight, -⟩ := exists_of_bind_ok hvsize
  obtain ⟨outSize, houtSize, h⟩ := exists_of_bind_ok hweight
  obtain ⟨_, -, h⟩ := exists_of_bind_ok h
  obtain ⟨_, -, h⟩ := exists_of_bind_ok h
  obtain ⟨_, hcount, -⟩ := exists_of_bind_ok h
  constructor
  · intro out hout
    obtain ⟨k, hk⟩ := sumM_mem houtSize (List.mem_map_of_mem hout)
    obtain ⟨_, hscript, -⟩ := exists_of_bind_ok hk
    exact getLengthForVarInt_lt hscript
  · exact List.length_map TxOutput.script ▸ getLengthForVarInt_lt hcount

theorem calculateOutputsSize_ok {outs : List TxOutput} (h : Fits outs) :
    ∃ size, SizeEstimation.calculateOutputsSize (outs.map TxOutput.script) = .ok size := by
  refine ⟨_, sumM_ok (g := fun script => 8 + varIntSize script.length + script.length) fun script hscript => ?_⟩
  obtain ⟨out, hout, rfl⟩ := List.mem_map.mp hscript
  rw [SizeEstimation.getLengthForVarInt_ok (h.scripts out hout)]
  rfl

/-! ## A call that resolves -/

/-- What a call that resolves has gone through. -/
structure Steps (p : Platform Node) (d : AddressDecoder) (sign : Sign Node) (w : Wallet Node) (c : Client) (r : Request)
    (a : Answers) (send : List PayOutput) (s : CoinSelection) (tx : Tx) : Prop where
  prepared : prepare send s = .ok ()
  spends : tx.ins.map (fun txIn => (txIn.hash, txIn.index)) = s.utxos.map fun utxo =>
    TransactionBuilder.outpoint utxo.hash utxo.idx
  satoshi : ∀ out ∈ tx.outs, Tx.IsSatoshi out.value
  outputs : ∃ outputs change, send.mapM sendOutput = .ok outputs ∧ changeOutput d w r a s.change = .ok change ∧
    insertChange r a outputs change = tx.outs.map handed
  checked : ∃ estimatedFee, estimateVsizeFee tx s.utxos = .ok estimatedFee ∧
    checkFee w c (r.feeStrategy.getD .optimal) s.fee estimatedFee = .ok ()

section Calls

variable {p : Platform Node} {d : AddressDecoder} {sign : Sign Node} {w : Wallet Node} {c : Client} {r : Request}
  {a : Answers} {send : List PayOutput} {s : CoinSelection} {tx : Tx} {utxos : List Utxo}

theorem steps_of_ok (hsend : convertPayToOutputs d r.pay w.network w.useNewCashAddr = .ok send)
    (hs : a.coinSelection = .ok s) (h : buildTransaction p d sign w c r a = .ok (tx, utxos)) :
    Steps p d sign w c r a send s tx ∧ utxos = s.utxos := by
  unfold buildTransaction at h
  rw [hsend, ok_bind] at h
  obtain ⟨_, -, h⟩ := exists_of_bind_ok h
  rw [hs, ok_bind] at h
  obtain ⟨_, hprepare, h⟩ := exists_of_bind_ok h
  obtain ⟨b₁, hinputs, h⟩ := exists_of_bind_ok h
  obtain ⟨outputs, houtputs, h⟩ := exists_of_bind_ok h
  obtain ⟨change, hchange, h⟩ := exists_of_bind_ok h
  obtain ⟨b₂, hadded, h⟩ := exists_of_bind_ok h
  obtain ⟨signed, hsigned, h⟩ := exists_of_bind_ok h
  obtain ⟨estimatedFee, hestimated, h⟩ := exists_of_bind_ok h
  obtain ⟨_, hcheck, h⟩ := exists_of_bind_ok h
  obtain ⟨rfl, rfl⟩ := Prod.mk.inj (Except.ok.inj h)
  obtain ⟨hins, houts, -, -⟩ := TransactionBuilder.foldlM_addInput_ok coinOutpoint hinputs
  obtain ⟨txOuts, htxOuts, hsatoshi, houts', hins'⟩ := addOutputs_ok hadded
  have hall : (buildIncomplete b₂ signed).outs = txOuts := by
    unfold buildIncomplete
    dsimp only
    rw [houts', houts]
    rfl
  refine ⟨⟨hprepare, ?_, hall ▸ hsatoshi, ⟨outputs, change, houtputs, hchange, htxOuts.trans (hall ▸ rfl)⟩,
    estimatedFee, hestimated, hcheck⟩, rfl⟩
  have hlength : signed.length = b₂.tx.ins.length := by
    rw [length_mapM_ok hsigned, hins', hins]
    simp [TransactionBuilder.new, Tx.new]
  rw [outpoints_buildIncomplete hlength, hins', hins]
  simp [TransactionBuilder.new, Tx.new, TransactionBuilder.txInput, TransactionBuilder.outpoint, coinOutpoint]

end Calls

/-! ## A coin that is not signed -/

def scriptText : Str := "76a914" ++ (List.replicate 40 '7' ++ "88ac".toList)

def coin (value : Rat) : Utxo where
  hash := List.replicate 64 '1'
  idx := 0
  value := some value
  path := "M"
  scriptpubkey_hex := scriptText
  redeem_script := none
  witness_script := none
  sign_mode := some .dontSign

/-- The server suggests a coin, a fee and no change. -/
def suggesting (value fee : Rat) : Answers where
  coinSelection := .ok ⟨[coin value], some fee, some 0⟩
  getNewAddress := .error ⟨"Error", "No address"⟩
  random := 0

def coinTx (outs : List TxOutput) : Tx where
  version := 1
  locktime := 0
  ins := [TransactionBuilder.txInput (List.replicate 64 '1') 0]
  outs := outs

/-- The builder with the coin. -/
def coinBuilder (network : Network) (bitcoinCash : Bool) : TransactionBuilder where
  network := network
  maximumFeeRate := 1000
  inputs := [none]
  prevTxMap := [TransactionBuilder.outpoint (List.replicate 64 '1') 0]
  bitcoinCash := bitcoinCash
  tx := coinTx []

theorem addInput_coin (network : Network) (bitcoinCash : Bool) (value : Rat) :
    [coin value].foldlM (fun txb utxo => txb.addInput utxo.hash utxo.idx)
      { TransactionBuilder.new with network := network, bitcoinCash := bitcoinCash } =
      .ok (coinBuilder network bitcoinCash) := by
  rfl

theorem unsigned_coinBuilder (network : Network) (bitcoinCash : Bool) : (coinBuilder network bitcoinCash).Unsigned := by
  intro input hinput
  exact List.mem_singleton.mp hinput

theorem addOutputs_eq {b : TransactionBuilder} (hb : b.Unsigned) {outs : List TxOutput}
    (h : ∀ out ∈ outs, Tx.IsSatoshi out.value) :
    (outs.map handed).foldlM addOutput b = .ok { b with tx := { b.tx with outs := b.tx.outs ++ outs } } := by
  induction outs generalizing b with
  | nil => simp [pure, Except.pure]
  | cons out outs ih =>
    rw [List.forall_mem_cons] at h
    have hmodify : b.canModifyOutputs = true := by
      rw [TransactionBuilder.canModifyOutputs, TransactionBuilder.signatures_eq_nil hb, List.all_nil]
    have hadd : addOutput b (handed out) = .ok { b with tx := { b.tx with outs := b.tx.outs ++ [out] } } := by
      unfold addOutput handed
      rw [if_neg (by simp [hmodify])]
      exact if_pos h.1
    rw [List.map_cons, List.foldlM_cons, hadd, ok_bind]
    refine (ih (b := { b with tx := { b.tx with outs := b.tx.outs ++ [out] } }) hb h.2).trans ?_
    simp

/-- The coin does not change what its transaction is estimated at. -/
theorem estimate_coinTx {outs : List TxOutput} (h : Fits outs) :
    ∃ estimatedFee, ∀ value, estimateVsizeFee (coinTx outs) [coin value] = .ok estimatedFee := by
  obtain ⟨outSize, hsize⟩ := calculateOutputsSize_ok h
  have hcount := SizeEstimation.getLengthForVarInt_ok (n := (outs.map TxOutput.script).length)
    (List.length_map TxOutput.script ▸ h.count)
  have hsame : ∀ value, estimateVsizeFee (coinTx outs) [coin value] = estimateVsizeFee (coinTx outs) [coin 0] :=
    fun _ => rfl
  have hone : SizeEstimation.getLengthForVarInt ([coin 0].map Utxo.toEstimate).length = .ok 1 := rfl
  obtain ⟨size, hinputs⟩ : ∃ size, SizeEstimation.estimateInputsSize ([coin 0].map Utxo.toEstimate) false = .ok size :=
    ⟨_, rfl⟩
  obtain ⟨witness, hwitness⟩ :
      ∃ witness, SizeEstimation.estimateInputsSize ([coin 0].map Utxo.toEstimate) true = .ok witness := ⟨_, rfl⟩
  suffices h0 : ∃ estimatedFee, estimateVsizeFee (coinTx outs) [coin 0] = .ok estimatedFee by
    obtain ⟨estimatedFee, h0⟩ := h0
    exact ⟨estimatedFee, fun value => (hsame value).trans h0⟩
  unfold estimateVsizeFee SizeEstimation.estimateTxVsize SizeEstimation.estimateTxWeight coinTx
  dsimp only
  rw [hsize, ok_bind, hone, ok_bind, hinputs, ok_bind, hcount, ok_bind, hwitness]
  exact ⟨_, rfl⟩

theorem inputsTotal_coin (value : Rat) : inputsTotal [coin value] = some value := by
  simp [inputsTotal, coin]

theorem prepare_coin {send : List PayOutput} {sum : Int} {value fee : Rat} (hsum : outputsTotal send = some sum)
    (h : value - sum - fee ≤ DUST * 2) : prepare send ⟨[coin value], some fee, some 0⟩ = .ok () := by
  have hestimated : estimatedChange send ⟨[coin value], some fee, some 0⟩ = some (value - sum - fee) := by
    unfold estimatedChange
    rw [hsum, inputsTotal_coin]
    rfl
  unfold prepare
  rw [hestimated, if_neg (List.cons_ne_nil _ _), if_neg]
  rw [Option.any_some, Bool.and_eq_true, decide_eq_true_eq]
  exact fun hlarge => absurd hlarge.1 (not_lt.mpr h)

/-- Payments that some coins can pay: accepted, at least one of them, each of an amount that there is, and no more than a
transaction has room for. -/
structure Pays (d : AddressDecoder) (w : Wallet Node) (r : Request) (send : List PayOutput)
    (requested : List TxOutput) : Prop where
  accepted : convertPayToOutputs d r.pay w.network w.useNewCashAddr = .ok send
  recipients : send ≠ []
  outputs : send.mapM sendOutput = .ok (requested.map handed)
  satoshi : ∀ out ∈ requested, Tx.IsSatoshi out.value
  room : Fits requested

section Coin

variable {d : AddressDecoder} {w : Wallet Node} {r : Request} {send : List PayOutput} {requested : List TxOutput}

theorem Pays.built (h : Pays d w r send requested) (p : Platform Node) (sign : Sign Node) (c : Client) (value fee : Rat)
    {estimatedFee : Nat} (hestimated : estimateVsizeFee (coinTx requested) [coin value] = .ok estimatedFee)
    (hvalue : value - total requested - fee ≤ DUST * 2)
    (hcheck : checkFee w c (r.feeStrategy.getD .optimal) (some fee) estimatedFee = .ok ()) :
    buildTransaction p d sign w c r (suggesting value fee) = .ok (coinTx requested, [coin value]) := by
  have hsum : outputsTotal send = some (total requested) := (sendOutputs_ok h.outputs).1
  have hrecipients : checkRecipients send = .ok () := if_neg (by simpa using h.recipients)
  have hchange : ∀ a : Answers, changeOutput d w r a (some 0) = .ok [] := fun _ => rfl
  have hinsert : ∀ (a : Answers) outputs, insertChange r a outputs [] = outputs := by
    intro a outputs
    unfold insertChange
    split_ifs <;> simp
  have hsigned : ∀ b, [coin value].zipIdx.mapM (signInput p sign w c b) = .ok [⟨[], []⟩] := fun _ => rfl
  unfold buildTransaction suggesting
  rw [h.accepted, ok_bind, hrecipients, ok_bind]
  dsimp only
  rw [ok_bind, prepare_coin hsum hvalue, ok_bind, addInput_coin, ok_bind, h.outputs, ok_bind, hchange, ok_bind, hinsert,
    addOutputs_eq (unsigned_coinBuilder _ _) h.satoshi, ok_bind, hsigned, ok_bind]
  dsimp only
  have hbuilt : buildIncomplete
      { coinBuilder w.network c.bitcoinCash with
        tx := { (coinBuilder w.network c.bitcoinCash).tx with
          outs := (coinBuilder w.network c.bitcoinCash).tx.outs ++ requested } } [⟨[], []⟩] = coinTx requested := rfl
  rw [hbuilt, hestimated, ok_bind, hcheck, ok_bind]
  rfl

theorem exists_pays {p : Platform Node} {sign : Sign Node} {c : Client} {a : Answers} {tx : Tx} {utxos : List Utxo}
    (h : buildTransaction p d sign w c r a = .ok (tx, utxos)) : ∃ send requested, Pays d w r send requested := by
  have hcall := h
  unfold buildTransaction at hcall
  obtain ⟨send, hsend, hcall⟩ := exists_of_bind_ok hcall
  obtain ⟨_, hrecipients, hcall⟩ := exists_of_bind_ok hcall
  obtain ⟨s, hs, -⟩ := exists_of_bind_ok hcall
  obtain ⟨hsteps, -⟩ := steps_of_ok hsend hs h
  obtain ⟨outputs, change, houtputs, hchange, hinsert⟩ := hsteps.outputs
  obtain ⟨requested, rest, rfl, rfl, hperm⟩ := insertChange_split hinsert
  obtain ⟨estimatedFee, hestimated, -⟩ := hsteps.checked
  have hfits := fits_of_estimate hestimated
  refine ⟨send, requested, hsend, ?_, houtputs, fun out hout => ?_, ⟨fun out hout => ?_, ?_⟩⟩
  · rintro rfl
    cases hrecipients
  · exact hsteps.satoshi out (hperm.mem_iff.mpr (List.mem_append_left _ hout))
  · exact hfits.scripts out (hperm.mem_iff.mpr (List.mem_append_left _ hout))
  · have hlength := hperm.length_eq
    have hcount := hfits.count
    rw [List.length_append] at hlength
    omega

end Coin

/-! ## Accounts of coins -/

/-- A wallet with its primary key, and signatures that are the number of their input. -/
def spendingWallet : Wallet SampleNode := { sampleWallet with primaryPrivateKey := some (sampleRoot "right") }

def sampleSign : Sign SampleNode := fun _ vin _ _ _ _ _ => .ok ⟨[UInt8.ofNat vin], []⟩

/-- The client as it is constructed without options. -/
def sampleClient : Client := ⟨false, true, 200⟩

def redeemScript : Bytes := multisigOutput 2 [(sampleRoot "a").pubKey, (sampleRoot "b").pubKey, (sampleRoot "c").pubKey]

/-- A coin of the wallet, from two of three keys. -/
def walletCoin (idx : Nat) (value : Rat) : Utxo where
  hash := List.replicate 64 '2'
  idx := idx
  value := some value
  path := walletPath 0 0 idx
  scriptpubkey_hex := Hex.encode (scriptHashOutput (sampleHashes.hash160 redeemScript))
  redeem_script := some (Hex.encode redeemScript)
  witness_script := none
  sign_mode := none

def addressText (n : Byte) : Str := Hex.encode (Network.bitcoin.pubKeyHash :: List.replicate 20 n)

/-- An address, and data. -/
def spending : Request where
  pay := .list [.array [.string (addressText 11), .printed "3000"],
    .object [("scriptPubKey", .string "6a0101"), ("value", .printed "0")]]
  changeAddress := some (addressText 9)
  randomizeChangeIdx := true
  feeStrategy := none

def spent : CoinSelection := ⟨[walletCoin 4 20000, coin 10000, walletCoin 1 30000], some 20000, some 37000⟩

/-- The change is put between the outputs. -/
def spendingAnswers : Answers where
  coinSelection := .ok spent
  getNewAddress := .error ⟨"Error", "No address"⟩
  random := 1

def spendingOutputs : List PayOutput :=
  [⟨.string (Hex.encode (pubKeyHashOutput ⟨List.replicate 20 11, rfl⟩)), .int 3000⟩, ⟨.string "6a0101", .int 0⟩]

theorem convert_spending :
    convertPayToOutputs sampleDecoder spending.pay spendingWallet.network spendingWallet.useNewCashAddr =
      .ok spendingOutputs := by
  rfl

/-- What is paid in the next two examples. -/
def paying (strategy : FeeStrategy) : Request where
  pay := .list [.object [("scriptPubKey", .string scriptText), ("value", .printed "3000")]]
  changeAddress := none
  randomizeChangeIdx := true
  feeStrategy := some strategy

theorem pays_paying (d : AddressDecoder) (w : Wallet Node) (strategy : FeeStrategy) :
    Pays d w (paying strategy) [⟨.string scriptText, .int 3000⟩] [⟨Hex.decode scriptText, 3000⟩] where
  accepted := rfl
  recipients := List.cons_ne_nil _ _
  outputs := rfl
  satoshi out hout := by
    obtain rfl := List.mem_singleton.mp hout
    exact ⟨by decide, by decide⟩
  room := by
    refine ⟨fun out hout => ?_, by decide⟩
    obtain rfl := List.mem_singleton.mp hout
    decide +kernel

/-- What is left to the miners. -/
def feeUsed (utxos : List Utxo) (tx : Tx) : ApiNumber := (inputsTotal utxos).map fun inputs => inputs - total tx.outs

/-- The cap on what is left, where the client checks it. -/
def Capped (c : Client) (strategy : FeeStrategy) (feeUsed : ApiNumber) (estimatedFee : Nat) : Prop :=
  c.feeSanityCheck = true →
    (strategy ∈ [.highPriority, .optimal, .lowPriority] →
      ∃ fee, feeUsed = some fee ∧ fee ≤ estimatedFee * c.feeSanityCheckBaseFeeMultiplier) ∧
      (strategy = .baseFee → ∃ fee, feeUsed = some fee ∧ |(estimatedFee : Rat) - fee| ≤ BASE_FEE)

def feeStrategies : List FeeStrategy := [.baseFee, .highPriority, .optimal, .lowPriority]

theorem feeUsed_coin (value : Rat) (outs : List TxOutput) :
    feeUsed [coin value] (coinTx outs) = some (value - total outs) := by
  unfold feeUsed
  rw [inputsTotal_coin]
  rfl

/-- **The fee cap.** Of a wallet that checks fees, no payment that can be made has one: some answer is built into a
transaction with a fee above it. -/
theorem fee_capped_iff (p : Platform Node) (d : AddressDecoder) (sign : Sign Node) (w : Wallet Node) (c : Client)
    (r : Request) :
    (∀ (a : Answers) (tx : Tx) (utxos : List Utxo) (estimatedFee : Nat),
      buildTransaction p d sign w c r a = .ok (tx, utxos) → estimateVsizeFee tx utxos = .ok estimatedFee →
        Capped c (r.feeStrategy.getD .optimal) (feeUsed utxos tx) estimatedFee) ↔
      (c.feeSanityCheck = true → r.feeStrategy.getD .optimal ∈ feeStrategies →
        ∀ send requested, ¬Pays d w r send requested) := by
  constructor
  · intro h hcheck hmem send requested hpays
    obtain ⟨estimatedFee, hestimated⟩ := estimate_coinTx hpays.room
    by_cases hbase : r.feeStrategy.getD .optimal = .baseFee
    · -- The server's fee is as far from the estimate as it may be, and dust is left beside it.
      have hfar : checkFee w c .baseFee (some (estimatedFee + BASE_FEE : Nat)) estimatedFee = .ok () := by
        unfold checkFee isFar
        rw [if_pos hcheck]
        norm_num
      have hbuilt := hpays.built p sign c (total requested + (estimatedFee + BASE_FEE : Nat) + DUST * 2) _ (hestimated _)
        (by linarith) (hbase ▸ hfar)
      obtain ⟨fee, hfee, hle⟩ := (h _ _ _ _ hbuilt (hestimated _) hcheck).2 hbase
      obtain rfl := Option.some.inj ((feeUsed_coin _ _).symm.trans hfee)
      rw [abs_le] at hle
      norm_num [DUST] at hle
      linarith [hle.1]
    · obtain ⟨fee, hlarge⟩ := exists_nat_gt (estimatedFee * c.feeSanityCheckBaseFeeMultiplier)
      have hthree : r.feeStrategy.getD .optimal ∈ [FeeStrategy.highPriority, .optimal, .lowPriority] :=
        (List.mem_cons.mp hmem).resolve_left hbase
      have hpassed : checkFee w c (r.feeStrategy.getD .optimal) (some (fee : Rat)) estimatedFee = .ok () := by
        unfold checkFee
        rw [if_pos hcheck]
        simp only [List.mem_cons, List.not_mem_nil, or_false] at hthree
        rcases hthree with hstrategy | hstrategy | hstrategy <;> rw [hstrategy] <;> rfl
      have hbuilt := hpays.built p sign c (total requested + fee) _ (hestimated _) (by norm_num [DUST]) hpassed
      obtain ⟨used, hused, hle⟩ := (h _ _ _ _ hbuilt (hestimated _) hcheck).1 hthree
      obtain rfl := Option.some.inj ((feeUsed_coin _ _).symm.trans hused)
      linarith
  · intro h a tx utxos estimatedFee hbuilt _ hcheck
    obtain ⟨send, requested, hpays⟩ := exists_pays hbuilt
    have hnot : r.feeStrategy.getD .optimal ∉ feeStrategies := fun hmem => h hcheck hmem send requested hpays
    refine ⟨fun hthree => absurd (List.mem_cons_of_mem _ hthree) hnot, fun hbase => absurd ?_ hnot⟩
    rw [hbase]
    exact List.mem_cons_self

/-- A fee of ten bitcoins, for a transaction of less than a kilobyte. -/
theorem high_fee_accepted :
    ¬∀ (r : Request) (a : Answers) (tx : Tx) (utxos : List Utxo) (estimatedFee : Nat),
      buildTransaction samplePlatform sampleDecoder sampleSign spendingWallet sampleClient r a = .ok (tx, utxos) →
      estimateVsizeFee tx utxos = .ok estimatedFee →
        Capped sampleClient (r.feeStrategy.getD .optimal) (feeUsed utxos tx) estimatedFee := by
  intro h
  have hestimated : estimateVsizeFee (coinTx [⟨Hex.decode scriptText, 3000⟩]) [coin 1000003000] = .ok 10000 := rfl
  have hbuilt := (pays_paying sampleDecoder spendingWallet .optimal).built samplePlatform sampleSign sampleClient
    1000003000 1000000000 hestimated (by norm_num [total, DUST]) rfl
  obtain ⟨fee, hfee, hle⟩ := (h _ _ _ _ _ hbuilt hestimated rfl).1 (by decide)
  obtain rfl := Option.some.inj ((feeUsed_coin _ _).symm.trans hfee)
  norm_num [sampleClient, total] at hle

end BuildTransaction

end JsSdk
