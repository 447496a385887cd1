import Blocktrail.JsSdk.Completeness
import Blocktrail.JsSdk.CreateTransaction
import Blocktrail.JsSdk.Spending

/-! # What a sweep pays

With the fee that is given. Without one the estimate has the number of an output in place of its script, and no
transaction is created.
-/

open Text Throwing Bitcoin

namespace JsSdk

namespace CreateTransaction

variable {Node : Type}

/-! ## What is said of a sweep -/

def outpointOf (input : Input) : Str × Nat := (input.txid, input.vout)

def outpoints (sweepData : SweepData) : List (Bytes × Nat) :=
  (inputsOf sweepData).map fun input => TransactionBuilder.outpoint input.txid input.vout

/-- Every output that was discovered, none twice, and the balance less the fee for one script. -/
structure Sweeps (sweepData : SweepData) (script : Bytes) (fee : Int) (tx : Tx) : Prop where
  spends : tx.ins.map (fun txIn => (txIn.hash, txIn.index)) = outpoints sweepData
  once : (outpoints sweepData).Nodup
  pays : tx.outs = [⟨script, sweepData.balance - fee⟩]

/-- The record of an input with the scripts that it has. -/
def Input.toEstimate (input : Input) : SizeEstimation.Utxo where
  scriptPubKeyHex := input.scriptPubKey
  redeemScript := some (Hex.encode input.redeemScript)
  witnessScript := input.witnessScript.map Hex.encode

/-- The estimate from the scripts of the inputs, of a transaction that pays the script. -/
def estimatedFee (sweepData : SweepData) (script : Bytes) (feePerKb : Rat) : Except JsError (Option Int) :=
  estimateVsizeFee [script] ((inputsOf sweepData).map Input.toEstimate) feePerKb

/-- The balance is more than the fee that the scripts of the inputs cost. -/
def ExceedsFee (d : AddressDecoder) (network : Network) (sweepData : SweepData) (destinationAddress : Str)
    (feePerKb : Rat) : Prop :=
  ∃ script fee, toOutputScript d destinationAddress network false = .ok script ∧
    estimatedFee sweepData script feePerKb = .ok (some fee) ∧ fee < sweepData.balance

section

variable (p : Platform Node) (d : AddressDecoder) (sw : Sweeper Node) (s : Signing Node) (sweepData : SweepData)
  (destinationAddress : Str) (feePerKb : Rat)

/-- Without a fee of its own, the call sweeps for the estimated fee, and it fails only where this is too high. -/
structure Sound : Prop where
  sweeps : ∀ tx, createTransaction p d sw s sweepData destinationAddress none feePerKb = .ok tx →
    ∃ script fee, toOutputScript d destinationAddress sw.network false = .ok script ∧
      estimatedFee sweepData script feePerKb = .ok (some fee) ∧ Sweeps sweepData script fee tx ∧
        0 < sweepData.balance - fee
  succeeds : ExceedsFee d sw.network sweepData destinationAddress feePerKb →
    ∃ tx, createTransaction p d sw s sweepData destinationAddress none feePerKb = .ok tx

end

/-! ## What is created -/

section Created

variable {p : Platform Node} {d : AddressDecoder} {sw : Sweeper Node} {s : Signing Node} {sweepData : SweepData}
  {destinationAddress : Str} {feePerKb : Rat}

theorem payFee_ok {b b' : TransactionBuilder} {fee : Option Int} (h : payFee b fee = .ok b') :
    ∃ paid, fee = some paid ∧ b'.tx.ins = b.tx.ins ∧
      b'.tx.outs = b.tx.outs.map fun out => { out with value := out.value - paid } := by
  cases fee with
  | none => cases h
  | some paid =>
    cases h
    exact ⟨paid, rfl, rfl, rfl⟩

theorem outs_buildIncomplete (b : TransactionBuilder) (signed : List TxIn) :
    (BuildTransaction.buildIncomplete b signed).outs = b.tx.outs := rfl

theorem build_ok {b : TransactionBuilder} {signed : List TxIn} {tx : Tx} (h : build s b signed = .ok tx) :
    tx = BuildTransaction.buildIncomplete b signed := by
  unfold build at h
  dsimp only at h
  split_ifs at h with hcomplete
  · obtain ⟨_, -, h⟩ := exists_of_bind_ok h
    cases h
    rfl
  · cases h
    rfl

theorem serialize_ok {tx tx' : Tx} (h : serialize tx = .ok tx') : tx' = tx ∧ ∀ out ∈ tx.outs, 0 ≤ out.value := by
  unfold serialize at h
  split_ifs at h with hvalues
  cases h
  exact ⟨rfl, by simpa using hvalues⟩

/-- **What is created.** A sweep for the fee, whether that is given or not. -/
theorem createTransaction_ok {fee : Option Int} {tx : Tx}
    (h : createTransaction p d sw s sweepData destinationAddress fee feePerKb = .ok tx) :
    ∃ b script paid, toOutputScript d destinationAddress sw.network false = .ok script ∧
      feeOf b (inputsOf sweepData) fee feePerKb = .ok (some paid) ∧ Sweeps sweepData script paid tx ∧
        0 ≤ sweepData.balance - paid := by
  obtain ⟨b₁, hinputs, h⟩ := exists_of_bind_ok h
  obtain ⟨b₂, houtput, h⟩ := exists_of_bind_ok h
  obtain ⟨estimated, hfee, h⟩ := exists_of_bind_ok h
  obtain ⟨b₃, hpaid, h⟩ := exists_of_bind_ok h
  obtain ⟨signed, hsigned, h⟩ := exists_of_bind_ok h
  obtain ⟨built, hbuilt, h⟩ := exists_of_bind_ok h
  obtain ⟨paid, rfl, hins₃, houts₃⟩ := payFee_ok hpaid
  obtain ⟨hins, houts, hnetwork, hnodup⟩ := TransactionBuilder.foldlM_addInput_ok outpointOf hinputs
  obtain ⟨script, hscript, hb₂⟩ := TransactionBuilder.addOutput_ok houtput
  rw [hnetwork] at hscript
  obtain rfl := build_ok hbuilt
  obtain ⟨rfl, hvalues⟩ := serialize_ok h
  rw [List.map_map] at hins hnodup
  have hins₂ : b₃.tx.ins = (inputsOf sweepData).map fun input =>
      TransactionBuilder.txInput input.txid input.vout := by
    rw [hins₃, hb₂]
    exact hins
  have houts₂ : b₃.tx.outs = [⟨script, sweepData.balance - paid⟩] := by
    rw [houts₃, hb₂, houts]
    rfl
  refine ⟨b₂, script, paid, hscript, hfee, ⟨?_, hnodup List.nodup_nil, houts₂⟩, ?_⟩
  · rw [BuildTransaction.outpoints_buildIncomplete, hins₂, List.map_map]
    · rfl
    · rw [BuildTransaction.length_mapM_ok hsigned, hins₂, List.length_zipIdx, List.length_map]
  · refine hvalues ⟨script, _⟩ ?_
    rw [outs_buildIncomplete, houts₂]
    exact List.mem_singleton_self _

/-- With a fee of its own, the call sweeps for it. -/
theorem createTransaction_given {fee : Int} {tx : Tx}
    (h : createTransaction p d sw s sweepData destinationAddress (some fee) feePerKb = .ok tx) :
    ∃ script, toOutputScript d destinationAddress sw.network false = .ok script ∧ Sweeps sweepData script fee tx ∧
      0 ≤ sweepData.balance - fee := by
  obtain ⟨b, script, paid, hscript, hfee, hsweeps, hvalue⟩ := createTransaction_ok h
  cases hfee
  exact ⟨script, hscript, hsweeps, hvalue⟩

/-! ## Without a fee -/

/-- No record can be read: its script is a number. -/
theorem read_calcUtxo (input : Input) :
    (calcUtxo input).read = .error ⟨"TypeError", "\"value\" argument must not be a number"⟩ := rfl

theorem feeOf_none (b : TransactionBuilder) {inputs : List Input} (h : inputs ≠ []) :
    feeOf b inputs none feePerKb = .error ⟨"TypeError", "\"value\" argument must not be a number"⟩ := by
  cases inputs with
  | nil => exact absurd rfl h
  | cons input inputs =>
    unfold feeOf
    rw [List.map_cons, List.mapM_cons, read_calcUtxo]
    rfl

theorem not_created (h : inputsOf sweepData ≠ []) (tx : Tx) :
    createTransaction p d sw s sweepData destinationAddress none feePerKb ≠ .ok tx := by
  intro hcreated
  obtain ⟨b, _, paid, -, hfee, -⟩ := createTransaction_ok hcreated
  rw [feeOf_none b h] at hfee
  cases hfee

end Created

/-- **Sweeping for the estimated fee.** It is as it should be where the balance does not exceed the fee. -/
theorem createTransaction_sound_iff (p : Platform Node) (d : AddressDecoder) (sw : Sweeper Node) (s : Signing Node)
    (sweepData : SweepData) (hfound : inputsOf sweepData ≠ []) (destinationAddress : Str) (feePerKb : Rat) :
    Sound p d sw s sweepData destinationAddress feePerKb ↔
      ¬ExceedsFee d sw.network sweepData destinationAddress feePerKb := by
  constructor
  · intro h hexceeds
    obtain ⟨tx, hcreated⟩ := h.succeeds hexceeds
    exact not_created hfound tx hcreated
  · intro hnot
    exact ⟨fun tx hcreated => absurd hcreated (not_created hfound tx), fun hexceeds => absurd hexceeds hnot⟩

/-! ## A sweep of one output -/

def sampleDestination : Str := Hex.encode (Network.bitcoin.pubKeyHash :: List.replicate 20 7)

/-- The script of the address of `M/0'/0/0`, in hex. -/
def sampleScriptHex : Str :=
  (((sampleSweeper .bitcoin).createAddress samplePlatform (sweepPath (dec 0) 0 0)).toOption.map fun a =>
    Hex.encode a.scriptPubKey).getD []

/-- A client that has one output of that address. -/
def holdingClient : BitcoinDataClient where
  batchAddressHasTransactions addresses := .ok (sampleAddress 0 0 ∈ addresses)
  getBatchUnspentOutputs addresses :=
    .ok (if sampleAddress 0 0 ∈ addresses then
      .set .empty (sampleAddress 0 0) [⟨List.replicate 64 '1', 0, 50000, sampleScriptHex⟩] else .empty)

def sampleSweepData : SweepData :=
  (((sampleSweeper .bitcoin).discoverWalletFunds samplePlatform (sampleDiscovery holdingClient) 3).bind
    Except.toOption).getD .empty

/-- Without the backup key, and with signatures that are empty. -/
def sampleSigning : Signing SampleNode where
  backupPrivateKey := none
  bitcoinCash := false
  sign _ _ _ _ _ _ _ := .ok ⟨[], []⟩
  checkComplete _ _ := .ok ()

theorem sample_discovered :
    (sampleSweeper .bitcoin).discoverWalletFunds samplePlatform (sampleDiscovery holdingClient) 3 =
      some (.ok sampleSweepData) := by
  have hresolves : (((sampleSweeper .bitcoin).discoverWalletFunds samplePlatform (sampleDiscovery holdingClient) 3).bind
      Except.toOption).isSome = true := by decide +kernel
  obtain ⟨d, hd⟩ := Option.isSome_iff_exists.mp hresolves
  obtain ⟨result, hresult, hok⟩ := Option.bind_eq_some_iff.mp hd
  unfold sampleSweepData
  rw [hd, hresult, toOption_eq_some hok]
  rfl

theorem sample_found : inputsOf sampleSweepData ≠ [] := by
  have hlength : (inputsOf sampleSweepData).length = 1 := by decide +kernel
  exact List.ne_nil_of_length_pos (by omega)

/-- The fee of one output from 2 of 3 keys. -/
def sampleFee (feePerKb : Rat) : Option Int :=
  (toOutputScript sampleDecoder sampleDestination .bitcoin false).toOption.bind fun script =>
    (estimatedFee sampleSweepData script feePerKb).toOption.join

theorem sampleFee_of_ok {script : Bytes} {feePerKb : Rat} {fee : Int}
    (hscript : toOutputScript sampleDecoder sampleDestination .bitcoin false = .ok script)
    (hfee : estimatedFee sampleSweepData script feePerKb = .ok (some fee)) : sampleFee feePerKb = some fee := by
  unfold sampleFee
  rw [hscript]
  simp [Except.toOption, hfee]

/-- At a rate at which the output is worth less than its fee. -/
theorem sound_costly :
    Sound samplePlatform sampleDecoder (sampleSweeper .bitcoin) sampleSigning sampleSweepData sampleDestination
      1000000 := by
  refine (createTransaction_sound_iff samplePlatform sampleDecoder (sampleSweeper .bitcoin) sampleSigning sampleSweepData sample_found
    sampleDestination 1000000).mpr ?_
  rintro ⟨script, fee, hscript, hfee, hlt⟩
  have hsome := sampleFee_of_ok hscript hfee
  have hnot : ((sampleFee 1000000).any fun fee => fee < sampleSweepData.balance) = false := by decide +kernel
  rw [hsome] at hnot
  exact absurd hlt (by simpa using hnot)

/-- The output is worth more than its fee, and it is not swept. -/
theorem funds_not_swept :
    ¬∀ (args : DiscoveryArgs) (fuel : Nat) (sweepData : SweepData),
      (sampleSweeper .bitcoin).discoverWalletFunds samplePlatform args fuel = some (.ok sweepData) →
      inputsOf sweepData ≠ [] → ∀ (destinationAddress : Str) (feePerKb : Rat), 0 < feePerKb →
        Sound samplePlatform sampleDecoder (sampleSweeper .bitcoin) sampleSigning sweepData destinationAddress
          feePerKb := by
  intro h
  have hsound := h _ _ _ sample_discovered sample_found sampleDestination 10000 (by norm_num)
  have hexceeds : ((toOutputScript sampleDecoder sampleDestination .bitcoin false).toOption.any fun script =>
      (estimatedFee sampleSweepData script 10000).toOption.any fun fee =>
        fee.any fun fee => fee < sampleSweepData.balance) = true := by
    decide +kernel
  obtain ⟨script, hscript, hany⟩ := (Option.any_eq_true _ _).mp hexceeds
  obtain ⟨estimated, hfee, hany⟩ := (Option.any_eq_true _ _).mp hany
  obtain ⟨fee, rfl, hlt⟩ := (Option.any_eq_true _ _).mp hany
  obtain ⟨tx, hcreated⟩ := hsound.succeeds
    ⟨script, fee, toOption_eq_some hscript, toOption_eq_some hfee, of_decide_eq_true hlt⟩
  exact not_created sample_found tx hcreated

end CreateTransaction

end JsSdk
