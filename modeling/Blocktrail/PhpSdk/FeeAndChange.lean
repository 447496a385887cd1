import Blocktrail.PhpSdk.BuildTx
import Blocktrail.PhpSdk.Sample
import Blocktrail.TwoSdks.SizeEstimation

/-! # Fee and change

What the inputs have over the outputs is change or goes to the miner. Of the change there is none, or more than dust.
-/

open Text Throwing Bitcoin

namespace PhpSdk

variable {Node : Type}

/-! ## Fees grow with the outputs -/

theorem getLengthOfVarInt_mono {m n a b : Nat} (hmn : m ≤ n) (ha : SizeEstimation.getLengthOfVarInt m = .ok a)
    (hb : SizeEstimation.getLengthOfVarInt n = .ok b) : a ≤ b := by
  unfold SizeEstimation.getLengthOfVarInt at ha hb
  split_ifs at ha hb <;> cases ha <;> cases hb <;> omega

theorem estimateOutputsSize_mono {outputs : List SizeEstimation.OutputOption} {output : SizeEstimation.OutputOption}
    {a b : Nat} (ha : SizeEstimation.estimateOutputsSize outputs = .ok a)
    (hb : SizeEstimation.estimateOutputsSize (outputs ++ [output]) = .ok b) : a ≤ b := by
  unfold SizeEstimation.estimateOutputsSize sumM at ha hb
  rw [List.foldlM_append, ha] at hb
  simp only [List.foldlM_cons, List.foldlM_nil, bind_pure] at hb
  rw [ok_bind] at hb
  obtain ⟨size, -, hb⟩ := exists_of_bind_ok hb
  cases hb
  omega

theorem estimateVsize_mono {c : SizeEstimation.OutputClassifier} {utxos : List SizeEstimation.UTXO}
    {outputs : List SizeEstimation.OutputOption} {output : SizeEstimation.OutputOption} {a b : Nat}
    (ha : SizeEstimation.estimateVsize c utxos outputs = .ok a)
    (hb : SizeEstimation.estimateVsize c utxos (outputs ++ [output]) = .ok b) : a ≤ b := by
  unfold SizeEstimation.estimateVsize SizeEstimation.estimateWeight at ha hb
  simp only [bind_assoc, pure_bind] at ha hb
  obtain ⟨size, hsize, ha⟩ := exists_of_bind_ok ha
  obtain ⟨count, hcount, ha⟩ := exists_of_bind_ok ha
  obtain ⟨size', hsize', hb⟩ := exists_of_bind_ok hb
  obtain ⟨count', hcount', hb⟩ := exists_of_bind_ok hb
  have h1 := estimateOutputsSize_mono hsize hsize'
  have h2 := getLengthOfVarInt_mono (by simp) hcount hcount'
  -- The inputs are the same.
  obtain ⟨n, hn, ha⟩ := exists_of_bind_ok ha
  obtain ⟨base, hbase, ha⟩ := exists_of_bind_ok ha
  obtain ⟨n', hn', ha⟩ := exists_of_bind_ok ha
  obtain ⟨witness, hwitness, ha⟩ := exists_of_bind_ok ha
  obtain rfl : n = n' := Except.ok.inj (hn.symm.trans hn')
  simp only [hn, hbase, hwitness, ok_bind] at hb
  cases ha
  cases hb
  omega

theorem feeForSize_mono {a b : Nat} (h : a ≤ b) (feePerKB : Nat) : feeForSize a feePerKB ≤ feeForSize b feePerKB := by
  have hmul := Nat.mul_le_mul_right feePerKB h
  unfold feeForSize
  omega

theorem determineFee_mono {c : SizeEstimation.OutputClassifier} {utxos : List UTXO} {outputs : List Output}
    {output : Output} {feeStrategy : FeeStrategy} {rates : FeeRates} {a b : Int}
    (ha : determineFee c utxos outputs feeStrategy rates = .ok a)
    (hb : determineFee c utxos (outputs ++ [output]) feeStrategy rates = .ok b) : a ≤ b := by
  unfold determineFee estimateVsize at ha hb
  simp only [bind_assoc, List.map_append, List.map_cons, List.map_nil] at ha hb
  obtain ⟨scripts, hscripts, ha⟩ := exists_of_bind_ok ha
  rw [hscripts, ok_bind] at hb
  obtain ⟨size, hsize, ha⟩ := exists_of_bind_ok ha
  obtain ⟨size', hsize', hb⟩ := exists_of_bind_ok hb
  have hle := estimateVsize_mono hsize hsize'
  cases feeStrategy with
  | force_fee => cases ha
  | unknown feeStrategy => cases ha
  | base_fee =>
    cases ha
    cases hb
    unfold baseFeeForSize BASE_FEE
    omega
  | high_priority =>
    cases ha
    cases hb
    exact feeForSize_mono hle _
  | optimal =>
    cases ha
    cases hb
    exact feeForSize_mono hle _
  | low_priority =>
    cases ha
    cases hb
    exact feeForSize_mono hle _

theorem determineFee_congr (c : SizeEstimation.OutputClassifier) (utxos : List UTXO) {outputs outputs' : List Output}
    (h : outputs.map (fun output => output.recipient.option) = outputs'.map fun output => output.recipient.option)
    (feeStrategy : FeeStrategy) (rates : FeeRates) :
    determineFee c utxos outputs feeStrategy rates = determineFee c utxos outputs' feeStrategy rates := by
  unfold determineFee estimateVsize
  rw [h]

/-! ## Where the money goes -/

namespace TransactionBuilder

/-- What the inputs have over the outputs. -/
def surplus (b : TransactionBuilder) : Int := inputsTotal b.utxos - outputsTotal b.outputs

/-- What a change output leaves of the surplus. There is none for a change that is not positive. -/
def minerFee (b : TransactionBuilder) (change : Int) : Int := b.surplus - max change 0

variable (c : SizeEstimation.OutputClassifier) (rates : FeeRates) (b : TransactionBuilder)

def feeWithout : Except PhpError Int := determineFee c b.utxos b.outputs b.feeStrategy rates

/-- The fee with one more output, for an address. -/
def feeWith : Except PhpError Int :=
  determineFee c b.utxos (b.outputs ++ [changeOutput 0]) b.feeStrategy rates

/-- Where the surplus goes. -/
structure Accounts (change : Int) : Prop where
  above : 0 < change → DUST < change
  forced : ∀ fee, b.fee = some fee → fee ≤ b.surplus →
    0 ≤ change ∧ fee ≤ b.minerFee change ∧ b.minerFee change ≤ fee + DUST ∧ (0 < change → b.minerFee change = fee)
  withChange : b.fee = none → 0 < change → b.feeWith c rates = .ok (b.minerFee change)
  withoutChange : b.fee = none → ∀ fee, b.feeWithout c rates = .ok fee → fee ≤ b.surplus → 0 ≤ change ∧
    (change = 0 → fee ≤ b.minerFee change ∧ ∀ fee2, b.feeWith c rates = .ok fee2 →
      b.minerFee change ≤ fee + DUST + (fee2 - fee) ∨ b.minerFee change < 2 * fee2)

/-- The same with strict bounds, and where the money does not do for the fee. -/
structure StrictAccounts (change : Int) : Prop where
  above : change = 0 ∨ DUST < change
  forced : ∀ fee, b.fee = some fee →
    fee ≤ b.minerFee change ∧ b.minerFee change ≤ fee + DUST ∧ (0 < change → b.minerFee change = fee)
  withChange : b.fee = none → 0 < change → b.feeWith c rates = .ok (b.minerFee change)
  withoutChange : b.fee = none → change = 0 → ∀ fee, b.feeWithout c rates = .ok fee → fee ≤ b.surplus →
    fee ≤ b.minerFee change ∧ ∀ fee2, b.feeWith c rates = .ok fee2 →
      b.minerFee change < fee + DUST + (fee2 - fee) ∨ b.minerFee change < 2 * fee2

variable {c rates b}

theorem determineChange_eq (b : TransactionBuilder) (fee : Int) :
    determineChange b.utxos b.outputs fee = b.surplus - fee := rfl

theorem feeWith_eq (change : Int) :
    determineFee c b.utxos (b.outputs ++ [changeOutput change]) b.feeStrategy rates = b.feeWith c rates :=
  determineFee_congr c b.utxos (by simp [changeOutput]) b.feeStrategy rates

theorem determineFeeAndChange_fixed {fee : Int} (h : b.fee = some fee) :
    determineFeeAndChange c b rates =
      .ok (if b.surplus - fee > DUST then (fee, b.surplus - fee) else (b.surplus, 0)) := by
  unfold determineFeeAndChange
  simp only [h, determineChange_eq]
  rw [add_sub_cancel, apply_ite Except.ok]
  rfl

/-- The change for both fees, where the surplus is more than the fee without a change output. -/
def changeFor (b : TransactionBuilder) (fee fee2 : Int) : Int :=
  if fee2 > fee ∧ fee2 > b.surplus - fee then 0
  else if b.surplus - fee2 > DUST then b.surplus - fee2
  else 0

theorem determineFeeAndChange_ok (hnone : b.fee = none) {fee : Int} (hfee : b.feeWithout c rates = .ok fee) :
    determineFeeAndChange c b rates =
      if b.surplus - fee > 0 then
        b.feeWith c rates >>= fun fee2 => .ok (if 0 < b.changeFor fee fee2 then fee2 else fee, b.changeFor fee fee2)
      else .ok (fee, b.surplus - fee) := by
  have hfee' : determineFee c b.utxos b.outputs b.feeStrategy rates = .ok fee := hfee
  unfold determineFeeAndChange
  simp only [hnone, hfee', ok_bind, determineChange_eq]
  split
  · rw [feeWith_eq]
    rcases hwith : b.feeWith c rates with e | fee2
    · rfl
    · have hchange : changeAfter b.utxos b.outputs fee fee2 (b.surplus - fee) = b.changeFor fee fee2 := rfl
      simp only [ok_bind, hchange]
      split
      · rw [feeWith_eq, hwith]
        rfl
      · rw [hfee']
        rfl
  · rfl

theorem accounts_fixed {fee change : Int} (h : b.fee = some fee)
    (hchange : change = if b.surplus - fee > DUST then b.surplus - fee else 0) : b.Accounts c rates change := by
  unfold DUST at hchange
  refine ⟨?_, ?_, by simp [h], by simp [h]⟩
  · unfold DUST
    split_ifs at hchange <;> omega
  · intro fee' hfee' hfunds
    rw [h] at hfee'
    cases hfee'
    unfold minerFee DUST
    split_ifs at hchange <;> omega

theorem accounts_unfunded {fee : Int} (hnone : b.fee = none) (hfee : b.feeWithout c rates = .ok fee)
    (hfunds : b.surplus - fee ≤ 0) : b.Accounts c rates (b.surplus - fee) := by
  refine ⟨by omega, by simp [hnone], by omega, ?_⟩
  intro _ fee' hfee' hle
  rw [hfee] at hfee'
  cases hfee'
  unfold minerFee
  refine ⟨by omega, fun _ => ⟨by omega, fun fee2 hfee2 => .inl ?_⟩⟩
  have hmono := determineFee_mono hfee hfee2
  unfold DUST
  omega

theorem accounts_determined {fee fee2 : Int} (hnone : b.fee = none) (hfee : b.feeWithout c rates = .ok fee)
    (hfee2 : b.feeWith c rates = .ok fee2) (hfunds : b.surplus - fee > 0) :
    b.Accounts c rates (b.changeFor fee fee2) := by
  have hcases : b.changeFor fee fee2 = 0 ∧ (fee2 > b.surplus - fee ∧ fee2 > fee ∨ b.surplus - fee2 ≤ DUST) ∨
      b.changeFor fee fee2 = b.surplus - fee2 ∧ DUST < b.surplus - fee2 := by
    unfold changeFor
    split_ifs with hbump hdust
    · exact .inl ⟨rfl, .inl ⟨hbump.2, hbump.1⟩⟩
    · exact .inr ⟨rfl, hdust⟩
    · exact .inl ⟨rfl, .inr (by omega)⟩
  unfold DUST at hcases
  refine ⟨?_, by simp [hnone], ?_, ?_⟩
  · unfold DUST
    omega
  · intro _ hpos
    rw [hfee2]
    unfold minerFee
    congr 1
    omega
  · intro _ fee' hfee' hle
    rw [hfee] at hfee'
    cases hfee'
    unfold minerFee DUST
    refine ⟨by omega, fun hzero => ⟨by omega, fun fee2' hfee2' => ?_⟩⟩
    rw [hfee2] at hfee2'
    cases hfee2'
    omega

/-- What is returned accounts for the surplus. Nothing is returned only where a fee cannot be determined. -/
theorem accounts_of_ok {fee change : Int} (h : determineFeeAndChange c b rates = .ok (fee, change)) :
    b.Accounts c rates change := by
  rcases hnone : b.fee with _ | fixed
  · rcases hfee : b.feeWithout c rates with e | fee'
    · have hfee' : determineFee c b.utxos b.outputs b.feeStrategy rates = .error e := hfee
      unfold determineFeeAndChange at h
      simp only [hnone, hfee'] at h
      cases h
    · rw [determineFeeAndChange_ok hnone hfee] at h
      split at h
      · next hfunds =>
        obtain ⟨fee2, hfee2, h⟩ := exists_of_bind_ok h
        cases h
        exact accounts_determined hnone hfee hfee2 hfunds
      · next hfunds =>
        cases h
        exact accounts_unfunded hnone hfee (by omega)
  · rw [determineFeeAndChange_fixed hnone] at h
    refine accounts_fixed hnone ?_
    split_ifs at h ⊢ <;> cases h <;> rfl

theorem returns_of_fees (h : b.fee = none → (∃ fee, b.feeWithout c rates = .ok fee) ∧ ∃ fee2, b.feeWith c rates = .ok fee2) :
    ∃ r, determineFeeAndChange c b rates = .ok r := by
  rcases hnone : b.fee with _ | fixed
  · obtain ⟨⟨fee, hfee⟩, fee2, hfee2⟩ := h hnone
    rw [determineFeeAndChange_ok hnone hfee, hfee2]
    split <;> exact ⟨_, rfl⟩
  · exact ⟨_, determineFeeAndChange_fixed hnone⟩

end TransactionBuilder

/-! ## The transaction -/

/-- The values of the outputs of a transaction. -/
def BaseTx.outputsTotal (tx : BaseTx) : Int := (tx.outputs.map Prod.fst).sum

theorem addOut_value {services : PaymentServices Node} {out : Output} {o : Int × Bytes}
    (h : addOut services out = .ok o) : o.1 = out.value := by
  unfold addOut at h
  split at h
  · cases h
    rfl
  · cases h
  · obtain ⟨script, -, h⟩ := exists_of_bind_ok h
    cases h
    rfl
  · cases h

theorem values_of_mapM {services : PaymentServices Node} {send : List Output} {outputs : List (Int × Bytes)}
    (h : send.mapM (addOut services) = .ok outputs) : outputs.map Prod.fst = send.map Output.value := by
  induction send generalizing outputs with
  | nil =>
    cases h
    rfl
  | cons out send ih =>
    rw [List.mapM_cons] at h
    obtain ⟨o, ho, h⟩ := exists_of_bind_ok h
    obtain ⟨os, hos, h⟩ := exists_of_bind_ok h
    cases h
    simp [addOut_value ho, ih hos]

/-- The outputs that a transaction is built of: those asked for, and one for the change where it is positive. -/
def finalOutputs (txBuilder : TransactionBuilder) (change : Int) (address : Str) : List Output :=
  txBuilder.outputs ++ if 0 < change then [⟨.address address, change⟩] else []

theorem addChange_ok {services : PaymentServices Node} {txBuilder : TransactionBuilder} {change : Int}
    {send : List Output} (h : addChange services txBuilder change = .ok send) :
    ∃ address, send = finalOutputs txBuilder change address := by
  unfold addChange at h
  unfold finalOutputs
  split at h
  · next hpos =>
    obtain ⟨address, -, h⟩ := exists_of_bind_ok h
    cases h
    exact ⟨address, by simp [hpos]⟩
  · next hpos =>
    cases h
    exact ⟨[], by simp [hpos]⟩

/-- What is built: the outputs are those asked for, and one for the change where it is positive; the surplus is the
change and the miner's fee. -/
def Built (services : PaymentServices Node) (txBuilder : TransactionBuilder) (tx : BaseTx) : Prop :=
  ∃ prepared fee change address, txBuilder.utxos.mapM (prepare services) = .ok prepared ∧
    let funded := { txBuilder with utxos := prepared.map Prod.fst }
    tx.inputs = funded.utxos.map (fun utxo => (utxo.hash, utxo.index)) ∧ 0 ≤ funded.surplus ∧
      determineFeeAndChange services.classifier funded services.rates = .ok (fee, change) ∧ (tx.outputs.map Prod.fst).Perm ((finalOutputs txBuilder change address).map Output.value) ∧
        inputsTotal funded.utxos = tx.outputsTotal + funded.minerFee change ∧
          (txBuilder.fee = none → 0 < change → determineFee services.classifier funded.utxos
            (finalOutputs txBuilder change address) txBuilder.feeStrategy services.rates = .ok (funded.minerFee change))

theorem built_of_ok {services : PaymentServices Node} {txBuilder : TransactionBuilder} {tx : BaseTx}
    {infos : List SignInfo} (h : buildTx services txBuilder = .ok (tx, infos)) : Built services txBuilder tx := by
  unfold buildTx at h
  obtain ⟨prepared, hprepared, h⟩ := exists_of_bind_ok h
  dsimp only at h
  split at h
  · cases h
  next hfunds =>
  obtain ⟨⟨fee, change⟩, hdetermined, h⟩ := exists_of_bind_ok h
  obtain ⟨-, -, h⟩ := exists_of_bind_ok h
  obtain ⟨send, hsend, h⟩ := exists_of_bind_ok h
  obtain ⟨outputs, houtputs, h⟩ := exists_of_bind_ok h
  cases h
  obtain ⟨address, rfl⟩ := addChange_ok hsend
  have hperm : (outputs.map Prod.fst).Perm ((finalOutputs txBuilder change address).map Output.value) := by
    rw [values_of_mapM houtputs]
    split
    · exact (services.shuffle_perm _).map _
    · exact List.Perm.refl _
  refine ⟨prepared, fee, change, address, hprepared, rfl, ?_, hdetermined, hperm, ?_, ?_⟩
  · simp only [TransactionBuilder.surplus]
    omega
  · have hsum : (outputs.map Prod.fst).sum = outputsTotal txBuilder.outputs + max change 0 := by
      rw [hperm.sum_eq]
      unfold finalOutputs outputsTotal
      split
      · rw [List.map_append, List.sum_append]
        simp
        omega
      · rw [List.append_nil]
        omega
    simp only [BaseTx.outputsTotal, hsum, TransactionBuilder.minerFee, TransactionBuilder.surplus]
    omega
  · intro hnone hpos
    have haccounts := TransactionBuilder.accounts_of_ok hdetermined
    rw [← haccounts.withChange hnone hpos]
    refine determineFee_congr _ _ ?_ _ _
    simp [finalOutputs, hpos, changeOutput, Recipient.option]

/-- **Fee and change.** What is determined accounts for what the inputs have over the outputs, and it is what a
transaction is built of. -/
theorem fee_and_change (services : PaymentServices Node) (c : SizeEstimation.OutputClassifier) (rates : FeeRates)
    (txBuilder : TransactionBuilder) :
    (∀ fee change, determineFeeAndChange c txBuilder rates = .ok (fee, change) → txBuilder.Accounts c rates change) ∧
      ((txBuilder.fee = none → (∃ fee, txBuilder.feeWithout c rates = .ok fee) ∧
        ∃ fee2, txBuilder.feeWith c rates = .ok fee2) → ∃ r, determineFeeAndChange c txBuilder rates = .ok r) ∧
        ∀ tx infos, buildTx services txBuilder = .ok (tx, infos) → Built services txBuilder tx :=
  ⟨fun _ _ h => TransactionBuilder.accounts_of_ok h, TransactionBuilder.returns_of_fees, fun _ _ h => built_of_ok h⟩

/-! ## Payments to evaluate, with too little money, and with change that is just dust -/

def sampleSpend (value : Int) : UTXO where
  hash := "aa".toList
  index := 0
  value := some value
  address := some "1dice8EMZmqKvrGE4Qc9bUFf9PX3xaYDp".toList
  scriptPubKey := some (pubKeyHashOutput TwoSdks.sampleHash)
  path := none
  redeemScript := none
  witnessScript := none
  signMode := .dontSign

/-- A payment of 10000 from one output. -/
def samplePayment (value : Int) (fee : Option Int) : TransactionBuilder where
  utxos := [sampleSpend value]
  outputs := [⟨.address "1dice8EMZmqKvrGE4Qc9bUFf9PX3xaYDp".toList, 10000⟩]
  changeAddress := none
  randomizeChangeOutput := false
  fee := fee
  validateFee := none
  feeStrategy := .optimal

def sampleRates : FeeRates := ⟨20000, 10000, 5000⟩

/-- A wallet of the seeds `[1]` and `[2]`. -/
def paymentWallet : Wallet SampleNode where
  network := "bitcoin"
  testnet := false
  isSegwit := false
  keyIndex := 0
  chainIndex := 0
  changeIndex := 0
  primaryPublicKeys key := if key = dec 0 then some ⟨⟨[1], [HIGHEST_BIT], false⟩, ⟨true, ["0'".toList]⟩⟩ else none
  backupPublicKey := ⟨⟨[2], [], false⟩, ⟨true, []⟩⟩
  blocktrailPublicKeys key := if key = dec 0 then some ⟨⟨[3], [], false⟩, ⟨true, ["0'".toList]⟩⟩ else none

/-- The data API has an output of the wallet. Outputs are turned round. -/
def sampleServices : PaymentServices SampleNode where
  php := sampleBitWasp
  wallet := paymentWallet
  classifier := TwoSdks.sampleClassifier
  transaction _ := (paymentWallet.getWalletScriptByPath sampleBitWasp "M/0'/0/5").toOption.map fun ws =>
    [⟨"own".toList, 30000, ws.spk⟩]
  getPathForAddress _ := .ok "M/0'/0/5"
  getNewChangeAddress := .ok "change".toList
  rates := sampleRates
  addressScript _ := .ok (pubKeyHashOutput TwoSdks.sampleHash)
  shuffle := List.reverse
  shuffle_perm := List.reverse_perm

/-- An output of which only the place is known, and one that is not signed. -/
def shuffledPayment : TransactionBuilder :=
  { samplePayment 20000 none with
    utxos := [⟨"bb".toList, 0, none, none, none, none, none, none, .sign⟩, sampleSpend 20000]
    randomizeChangeOutput := true }

theorem shuffledPayment_built : ∃ tx infos, buildTx sampleServices shuffledPayment = .ok (tx, infos) ∧
    tx.outputs.map Prod.fst = [34770, 10000] ∧ Built sampleServices shuffledPayment tx := by
  have hbuilt : ((buildTx sampleServices shuffledPayment).toOption.map fun r => r.1.outputs.map Prod.fst) =
      some [34770, 10000] := by
    decide +kernel
  obtain ⟨⟨tx, infos⟩, htx, houtputs⟩ := Option.map_eq_some_iff.mp hbuilt
  have htx := toOption_eq_some htx
  exact ⟨tx, infos, htx, houtputs, (fee_and_change sampleServices TwoSdks.sampleClassifier sampleRates
    shuffledPayment).2.2 tx infos htx⟩

/-- Where the money does not do for the fee, the change is negative and a fixed fee is not paid; change that is just
dust goes to the miner. -/
theorem strict_accounts_fail :
    (0 ≤ (samplePayment 11000 none).surplus ∧
      determineFeeAndChange TwoSdks.sampleClassifier (samplePayment 11000 none) sampleRates = .ok (1920, -920) ∧
        ¬(samplePayment 11000 none).StrictAccounts TwoSdks.sampleClassifier sampleRates (-920)) ∧
      (0 ≤ (samplePayment 11000 (some 5000)).surplus ∧
        determineFeeAndChange TwoSdks.sampleClassifier (samplePayment 11000 (some 5000)) sampleRates = .ok (1000, 0) ∧
          ¬(samplePayment 11000 (some 5000)).StrictAccounts TwoSdks.sampleClassifier sampleRates 0) ∧
        (0 ≤ (samplePayment 14990 none).surplus ∧
          determineFeeAndChange TwoSdks.sampleClassifier (samplePayment 14990 none) sampleRates = .ok (1920, 0) ∧
            ¬(samplePayment 14990 none).StrictAccounts TwoSdks.sampleClassifier sampleRates 0) := by
  refine ⟨⟨by decide, by decide +kernel, fun h => ?_⟩, ⟨by decide, by decide +kernel, fun h => ?_⟩,
    ⟨by decide, by decide +kernel, fun h => ?_⟩⟩
  · exact absurd h.above (by decide)
  · exact absurd (h.forced 5000 rfl).1 (by decide)
  · have hstrict := (h.withoutChange rfl rfl 1920 (by decide +kernel) (by decide)).2 2260 (by decide +kernel)
    exact absurd hstrict (by decide)

end PhpSdk
