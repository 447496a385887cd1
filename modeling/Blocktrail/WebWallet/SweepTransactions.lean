import Blocktrail.Bitcoin.SampleAddresses
import Blocktrail.Bitcoin.TransactionBuilder
import Blocktrail.JsSdk.PayTo
import Blocktrail.JsSdk.SizeEstimation
import Blocktrail.WebWallet.SweeperService

/-! # Sweep transactions -/

open Text Throwing Bitcoin Assoc
open JsSdk (DUST)

namespace JsSdk

/-- `Wallet.estimateIncompleteTxSize`, which takes every input for two of three keys. -/
def estimateIncompleteTxSize (tx : Tx) : Nat :=
  4 + 4 + 4 + 4 + tx.outs.length * 34 +
    (tx.ins.map fun _ => 32 + 4 + 3 + 1 + (1 + 72) * 2 + (2 + 105) + 4).sum

/-- `Wallet.estimateIncompleteTxFee`. -/
def estimateIncompleteTxFee (tx : Tx) (feePerKb : Nat) : Option Int := feeOfSize (estimateIncompleteTxSize tx) feePerKb

end JsSdk

namespace WebWallet

namespace SweeperService

open JsSdk (estimateIncompleteTxFee)

variable {Key : Type}

structure Input where
  txid : Str
  vout : Nat
  scriptPubKey : Str
  value : Int
  address : Str

/-- The outputs of every address. -/
def inputsOf (resultUTXOs : Object Str (Found Key)) : List Input :=
  resultUTXOs.entries.flatMap fun e => e.2.utxos.map fun utxo =>
    ⟨utxo.hash, utxo.index, utxo.script_hex, utxo.value, e.1⟩

def txAfter : Nat := 625

def chunksOf (inputs : List Input) : List (List Input) :=
  let numOfTransactions := (inputs.length + (txAfter - 1)) / txAfter
  (List.range numOfTransactions).map fun i => (inputs.take (i * txAfter + txAfter)).drop (i * txAfter)

/-- What the sweep is for. -/
structure SweepOptions where
  network : Str
  recipient : Str

def SweepOptions.isCash (options : SweepOptions) : Bool := lowerAscii options.network = "bcc".toList

def SweepOptions.hashType (options : SweepOptions) : Byte :=
  if options.isCash then SIGHASH_ALL ||| SIGHASH_BITCOINCASHBIP143 else SIGHASH_ALL

structure SweepTx where
  rawTx : Str
  feePaid : Int
  inputCount : Nat
  totalValue : Int

section Sweep

variable (ecpair : ECPair Key) (d : AddressDecoder) (resultUTXOs : Object Str (Found Key)) (options : SweepOptions)
  (feePerKB : Nat)

def addInputs (chunkInputs : List Input) : Except JsError (TransactionBuilder × Int) :=
  chunkInputs.foldlM (fun s input => do
    let rawTransaction ← s.1.addInput input.txid input.vout
    return (rawTransaction, s.2 + input.value)) (.new, 0)

/-- `rawTransaction.tx.outs[0].value -= fee`. -/
def payFee (rawTransaction : TransactionBuilder) (fee : Int) : TransactionBuilder :=
  let outs := rawTransaction.tx.outs
  { rawTransaction with
    tx := { rawTransaction.tx with
      outs := (outs.take 1).map (fun out => { out with value := out.value - fee }) ++ outs.drop 1 } }

def signInput (rawTransaction : TransactionBuilder) (e : Input × Nat) : Except JsError TransactionBuilder :=
  match resultUTXOs.get? e.1.address with
  | none => .error ⟨"TypeError", "Cannot read property 'priv_key' of undefined"⟩
  | some found => rawTransaction.sign ecpair e.2 found.priv_key options.hashType e.1.value

/-- The end of a chunk: sign and build. -/
def signChunk (rawTransaction : TransactionBuilder) (chunkInputs : List Input) (fee totalValue : Int) :
    Except JsError SweepTx := do
  let rawTransaction := if options.isCash then rawTransaction.enableBitcoinCash true else rawTransaction
  let rawTransaction ← chunkInputs.zipIdx.foldlM (signInput ecpair resultUTXOs options) rawTransaction
  let tx ← rawTransaction.build
  return ⟨tx.toHex, fee, chunkInputs.length, totalValue⟩

/-- A chunk with its output: the fee is taken from it. The value `NaN` is not dust, and no hash is made of it. -/
def finishChunk (rawTransaction : TransactionBuilder) (chunkInputs : List Input) (totalValue : Int) :
    Except JsError (Option SweepTx) :=
  match estimateIncompleteTxFee rawTransaction.tx feePerKB with
  | none => .error ⟨"Error", "value has a fractional component"⟩
  | some fee =>
    let rawTransaction := payFee rawTransaction fee
    if (rawTransaction.tx.outs.take 1).all fun out => out.value ≤ DUST then .ok none
    else some <$> signChunk ecpair resultUTXOs options rawTransaction chunkInputs fee totalValue

/-- The transaction of a chunk whose value is above dust. -/
def payChunk (rawTransaction : TransactionBuilder) (chunkInputs : List Input) (totalValue : Int) :
    Except JsError (Option SweepTx) := do
  let rawTransaction ← rawTransaction.addOutput d options.recipient totalValue
  finishChunk ecpair resultUTXOs options feePerKB rawTransaction chunkInputs totalValue

/-- `none` is the `false` of a chunk that is not swept. -/
def sweepChunk (chunkInputs : List Input) : Except JsError (Option SweepTx) := do
  let (rawTransaction, totalValue) ← addInputs chunkInputs
  if totalValue ≤ DUST then return none
  else payChunk ecpair d resultUTXOs options feePerKB rawTransaction chunkInputs totalValue

/-- `signAndSweep`, with the fee that the client answers with. -/
def signAndSweep : Except JsError (List (Option SweepTx)) :=
  (chunksOf (inputsOf resultUTXOs)).mapM (sweepChunk ecpair d resultUTXOs options feePerKB)

end Sweep

/-! ## What is swept -/

section Spec

variable (ecpair : ECPair Key) (d : AddressDecoder) (resultUTXOs : Object Str (Found Key)) (options : SweepOptions)
  (feePerKB : Nat)

def totalOf (chunk : List Input) : Int := (chunk.map Input.value).sum

def inputOf (input : Input) : TxInput := TransactionBuilder.txInput input.txid input.vout

/-- The transaction that is signed: the outputs of the chunk in order, and one output. -/
def unsignedTx (chunk : List Input) (outs : List TxOutput) : Tx := ⟨1, 0, chunk.map inputOf, outs⟩

def feeOf (chunk : List Input) : Option Int := estimateIncompleteTxFee (unsignedTx chunk [⟨[], 0⟩]) feePerKB

/-- The input of a transaction that spends an output, signed with the key of its address and its value. -/
def Spends (unsigned : Tx) (e : Input × Nat) (txIn : TxInput) : Prop :=
  ∃ found, resultUTXOs.get? e.1.address = some found ∧
    let pubKey := ecpair.getPublicKeyBuffer found.priv_key
    let signScript := pubKeyHashOutput (ecpair.hash160 pubKey.val)
    let hash :=
      if options.isCash then ecpair.hashForCashSignature unsigned e.2 signScript e.1.value options.hashType
      else ecpair.hashForSignature unsigned e.2 signScript options.hashType
    let signature := ecpair.sign found.priv_key hash options.hashType
    txIn = { inputOf e.1 with script := compile [.data signature.val, .data pubKey.val] }

/-- The signed transaction of a chunk, to the recipient. -/
structure IsSigned (chunk : List Input) (fee : Int) (tx : Tx) : Prop where
  outs : ∃ script, toOutputScript d options.recipient .bitcoin false = .ok script ∧
    tx.outs = [⟨script, totalOf chunk - fee⟩]
  ins : List.Forall₂ (Spends ecpair resultUTXOs options (unsignedTx chunk tx.outs)) chunk.zipIdx tx.ins
  version : tx.version = 1
  locktime : tx.locktime = 0

/-- What a chunk is turned into. -/
def ChunkResult (chunk : List Input) : Option SweepTx → Prop
  | none => totalOf chunk ≤ DUST ∨ ∃ fee, feeOf feePerKB chunk = some fee ∧ totalOf chunk - fee ≤ DUST
  | some t => ∃ fee, feeOf feePerKB chunk = some fee ∧ DUST < totalOf chunk - fee ∧
    ∃ tx, IsSigned ecpair d resultUTXOs options chunk fee tx ∧ t = ⟨tx.toHex, fee, chunk.length, totalOf chunk⟩

structure Swept (results : List (Option SweepTx)) : Prop where
  all : (chunksOf (inputsOf resultUTXOs)).flatten = inputsOf resultUTXOs
  small : ∀ chunk ∈ chunksOf (inputsOf resultUTXOs), chunk.length ≤ 625
  each : List.Forall₂ (ChunkResult ecpair d resultUTXOs options feePerKB) (chunksOf (inputsOf resultUTXOs)) results
  totals : (results.map fun t => t.elim 0 SweepTx.totalValue).sum =
    (List.zipWith (fun chunk t => if t.isSome then totalOf chunk else 0) (chunksOf (inputsOf resultUTXOs)) results).sum

/-- The fee is above what the builder takes, of what it makes of the values. -/
def AbsurdFee (chunk : List Input) (fee : Int) (tx : Tx) : Prop :=
  ((chunk.map fun input => (input.value % 2 ^ 32).toNat).sum : Nat) - (totalOf chunk - fee) >
    (1000 * tx.virtualSize : Nat)

/-- A chunk with a value to sweep that has no transaction. -/
def Rejected (chunk : List Input) : Prop :=
  DUST < totalOf chunk ∧
    ((∃ e, toOutputScript d options.recipient .bitcoin false = .error e) ∨ Tx.SATOSHI_MAX < totalOf chunk ∨
      feeOf feePerKB chunk = none ∨
      ∃ fee, feeOf feePerKB chunk = some fee ∧ DUST < totalOf chunk - fee ∧
        ∃ tx, IsSigned ecpair d resultUTXOs options chunk fee tx ∧ AbsurdFee chunk fee tx)

/-- Outputs as they are on the chain: every outpoint once, with a value that there is, and keys of the network. -/
structure Discovered : Prop where
  outpoint : ∀ input ∈ inputsOf resultUTXOs, TransactionBuilder.IsOutpoint input.txid input.vout
  nodup : ((inputsOf resultUTXOs).map fun input => TransactionBuilder.outpoint input.txid input.vout).Nodup
  value : ∀ input ∈ inputsOf resultUTXOs, Tx.IsSatoshi input.value
  network : ∀ address found, resultUTXOs.get? address = some found → ecpair.network found.priv_key = .bitcoin

end Spec

/-! ## Chunks -/

theorem flatten_slices {α : Type} (l : List α) (k n : Nat) :
    ((List.range n).map fun i => (l.take (i * k + k)).drop (i * k)).flatten = l.take (n * k) := by
  induction n with
  | zero => simp
  | succ n ih =>
    rw [List.range_succ, List.map_append, List.flatten_append, ih, Nat.succ_mul]
    simp only [List.map_cons, List.map_nil, List.flatten_cons, List.flatten_nil, List.append_nil]
    rw [List.drop_take, Nat.add_sub_cancel_left, List.take_add]

theorem flatten_chunksOf (inputs : List Input) : (chunksOf inputs).flatten = inputs := by
  unfold chunksOf
  rw [flatten_slices]
  apply List.take_of_length_le
  unfold txAfter
  omega

theorem length_le_of_mem_chunksOf {inputs chunk : List Input} (h : chunk ∈ chunksOf inputs) : chunk.length ≤ 625 := by
  unfold chunksOf at h
  rw [List.mem_map] at h
  obtain ⟨i, -, rfl⟩ := h
  rw [List.length_drop, List.length_take]
  unfold txAfter
  omega

theorem ne_nil_of_mem_chunksOf {inputs chunk : List Input} (h : chunk ∈ chunksOf inputs) : chunk ≠ [] := by
  unfold chunksOf at h
  rw [List.mem_map] at h
  obtain ⟨i, hi, rfl⟩ := h
  rw [List.mem_range] at hi
  apply List.ne_nil_of_length_pos
  rw [List.length_drop, List.length_take]
  unfold txAfter at hi ⊢
  omega

/-! ## Inputs -/

section Inputs

variable {ecpair : ECPair Key} {resultUTXOs : Object Str (Found Key)} {options : SweepOptions}

/-- The builder with the inputs of a chunk. -/
def withInputs (b : TransactionBuilder) (chunk : List Input) : TransactionBuilder :=
  { b with
    inputs := b.inputs ++ List.replicate chunk.length none
    prevTxMap := b.prevTxMap ++ chunk.map fun input => TransactionBuilder.outpoint input.txid input.vout
    tx := { b.tx with ins := b.tx.ins ++ chunk.map inputOf } }

theorem foldlM_addInput {chunk : List Input} {b : TransactionBuilder} (hb : b.Unsigned) (total : Int)
    (ho : ∀ input ∈ chunk, TransactionBuilder.IsOutpoint input.txid input.vout)
    (hn : (b.prevTxMap ++ chunk.map fun input => TransactionBuilder.outpoint input.txid input.vout).Nodup) :
    chunk.foldlM (fun s input => do
      let rawTransaction ← s.1.addInput input.txid input.vout
      return (rawTransaction, s.2 + input.value)) (b, total) =
      (.ok (withInputs b chunk, total + totalOf chunk) : Except JsError (TransactionBuilder × Int)) := by
  induction chunk generalizing b total with
  | nil => simp [withInputs, totalOf, pure, Except.pure]
  | cons input chunk ih =>
    have hnew : TransactionBuilder.outpoint input.txid input.vout ∉ b.prevTxMap := by
      intro hmem
      rw [List.map_cons, List.nodup_append] at hn
      exact hn.2.2 _ hmem _ List.mem_cons_self rfl
    rw [List.foldlM_cons, TransactionBuilder.addInput_eq hb (ho input List.mem_cons_self) hnew, ok_bind]
    have hb' : ({ b with
        inputs := b.inputs ++ [none]
        prevTxMap := b.prevTxMap ++ [TransactionBuilder.outpoint input.txid input.vout]
        tx := { b.tx with ins := b.tx.ins ++ [inputOf input] } } : TransactionBuilder).Unsigned := by
      intro i hi
      rcases List.mem_append.mp hi with hi | hi
      · exact hb i hi
      · exact List.mem_singleton.mp hi
    refine (ih hb' (total + input.value) (fun i hi => ho i (List.mem_cons_of_mem input hi)) ?_).trans ?_
    · simpa using hn
    · simp [withInputs, totalOf, List.replicate_succ, Int.add_assoc]

theorem addInputs_eq {chunk : List Input}
    (ho : ∀ input ∈ chunk, TransactionBuilder.IsOutpoint input.txid input.vout)
    (hn : (chunk.map fun input => TransactionBuilder.outpoint input.txid input.vout).Nodup) :
    addInputs chunk = .ok (withInputs .new chunk, totalOf chunk) := by
  have h := foldlM_addInput (b := .new) (fun _ hi => absurd hi List.not_mem_nil) 0 ho hn
  rw [Int.zero_add] at h
  exact h

/-- The input that the loop leaves for an output. -/
def SignedFor (ecpair : ECPair Key) (resultUTXOs : Object Str (Found Key)) (options : SweepOptions)
    (b : TransactionBuilder) (e : Input × Nat) (p : Prepared) : Prop :=
  ∃ found, resultUTXOs.get? e.1.address = some found ∧
    p = TransactionBuilder.signed ecpair b e.2 found.priv_key options.hashType e.1.value

theorem hashType_ne_zero (options : SweepOptions) : options.hashType ≠ 0 := by
  unfold SweepOptions.hashType
  split <;> decide

theorem foldlM_signInput (options : SweepOptions) {chunk : List Input} {b : TransactionBuilder}
    (done : List (Option Prepared)) {n : Nat} (hlength : done.length = n) (hb : b.inputs = done ++ List.replicate chunk.length none)
    (hnetwork : b.network = .bitcoin)
    (hkeys : ∀ input ∈ chunk, Tx.IsSatoshi input.value ∧
      ∃ found, resultUTXOs.get? input.address = some found ∧ ecpair.network found.priv_key = .bitcoin) :
    ∃ ps : List Prepared,
      (chunk.zipIdx n).foldlM (signInput ecpair resultUTXOs options) b = .ok { b with inputs := done ++ ps.map some } ∧
        List.Forall₂ (SignedFor ecpair resultUTXOs options b) (chunk.zipIdx n) ps := by
  induction chunk generalizing b done n with
  | nil =>
    have hdone : done = b.inputs := by simpa using hb.symm
    subst hdone
    exact ⟨[], by simp [pure, Except.pure], List.Forall₂.nil⟩
  | cons input chunk ih =>
    obtain ⟨hvalue, found, hfound, hkey⟩ := hkeys input List.mem_cons_self
    have hi : b.inputs[n]? = some none := by
      rw [hb, ← hlength, List.length_cons, List.replicate_succ]
      simp
    have hsign : signInput ecpair resultUTXOs options b (input, n) =
        .ok { b with inputs :=
          b.inputs.set n (some (TransactionBuilder.signed ecpair b n found.priv_key options.hashType input.value)) } := by
      unfold signInput
      dsimp only
      rw [hfound]
      exact TransactionBuilder.sign_eq (hkey.trans hnetwork.symm) hi (hashType_ne_zero options) hvalue
    generalize hp : TransactionBuilder.signed ecpair b n found.priv_key options.hashType input.value = p at hsign
    have hset : b.inputs.set n (some p) = done ++ [some p] ++ List.replicate chunk.length none := by
      rw [hb, ← hlength, List.length_cons, List.replicate_succ]
      simp
    rw [List.zipIdx_cons, List.foldlM_cons, hsign, ok_bind, hset]
    obtain ⟨ps, hfold, hps⟩ := ih (b := { b with inputs := done ++ [some p] ++ List.replicate chunk.length none })
      (done ++ [some p]) (n := n + 1) (by simp [hlength]) rfl hnetwork
      fun i hi => hkeys i (List.mem_cons_of_mem input hi)
    refine ⟨p :: ps, ?_, List.Forall₂.cons ⟨found, hfound, hp.symm⟩ hps⟩
    rw [hfold]
    simp

theorem spends_of_signedFor {b : TransactionBuilder} (hcash : b.bitcoinCash = options.isCash) {e : Input × Nat}
    {p : Prepared} (h : SignedFor ecpair resultUTXOs options b e p) :
    Spends ecpair resultUTXOs options b.tx e
        { inputOf e.1 with script := TransactionBuilder.scriptOf p, witness := [] } ∧
      p.signature.isSome = true ∧ p.value = e.1.value := by
  obtain ⟨found, hfound, rfl⟩ := h
  refine ⟨⟨found, hfound, ?_⟩, rfl, rfl⟩
  unfold TransactionBuilder.signed TransactionBuilder.scriptOf TransactionBuilder.signatureHash
  rw [hcash]
  rfl

theorem forall₂_spends {b : TransactionBuilder} (hcash : b.bitcoinCash = options.isCash) {chunk : List Input} {n : Nat}
    {ps : List Prepared} (h : List.Forall₂ (SignedFor ecpair resultUTXOs options b) (chunk.zipIdx n) ps) :
    List.Forall₂ (Spends ecpair resultUTXOs options b.tx) (chunk.zipIdx n)
        (List.zipWith (fun txIn script => { txIn with script := script, witness := [] }) (chunk.map inputOf)
          (ps.map TransactionBuilder.scriptOf)) ∧
      (∀ p ∈ ps, p.signature.isSome = true) ∧ ps.map Prepared.value = chunk.map Input.value := by
  induction chunk generalizing n ps with
  | nil =>
    cases h
    exact ⟨List.Forall₂.nil, by simp, rfl⟩
  | cons input chunk ih =>
    rw [List.zipIdx_cons] at h ⊢
    cases h with
    | cons hp hps =>
      obtain ⟨hspends, hsome, hvalue⟩ := spends_of_signedFor hcash hp
      obtain ⟨hrest, hsomes, hvalues⟩ := ih hps
      refine ⟨List.Forall₂.cons hspends hrest, ?_, ?_⟩
      · intro q hq
        rcases List.mem_cons.mp hq with rfl | hq
        · exact hsome
        · exact hsomes q hq
      · rw [List.map_cons, List.map_cons, hvalue, hvalues]

/-- The builder of a chunk, before it is signed. -/
def ready (options : SweepOptions) (chunk : List Input) (outs : List TxOutput) : TransactionBuilder :=
  { withInputs .new chunk with bitcoinCash := options.isCash, tx := unsignedTx chunk outs }

theorem sum_incoming {ps : List Prepared} {chunk : List Input} (h : ps.map Prepared.value = chunk.map Input.value) :
    ((ps.map some).map fun input : Option Prepared => input.elim 0 fun p => (p.value % 2 ^ 32).toNat).sum =
      (chunk.map fun input => (input.value % 2 ^ 32).toNat).sum := by
  have hg := congrArg (List.map fun v : Int => (v % 2 ^ 32).toNat) h
  rw [List.map_map, List.map_map] at hg
  rw [List.map_map]
  exact congrArg List.sum hg

theorem signChunk_ready {chunk : List Input} (hne : chunk ≠ []) (out : TxOutput)
    (hkeys : ∀ input ∈ chunk, Tx.IsSatoshi input.value ∧
      ∃ found, resultUTXOs.get? input.address = some found ∧ ecpair.network found.priv_key = .bitcoin) :
    ∃ b' : TransactionBuilder, ∃ tx : Tx,
      chunk.zipIdx.foldlM (signInput ecpair resultUTXOs options) (ready options chunk [out]) = .ok b' ∧
        tx.outs = [out] ∧ tx.version = 1 ∧ tx.locktime = 0 ∧
        List.Forall₂ (Spends ecpair resultUTXOs options (unsignedTx chunk [out])) chunk.zipIdx tx.ins ∧
        b'.build =
          if ((chunk.map fun input => (input.value % 2 ^ 32).toNat).sum : Nat) - out.value >
            (1000 * tx.virtualSize : Nat) then .error TransactionBuilder.absurdFees
          else .ok tx := by
  obtain ⟨ps, hfold, hps⟩ := foldlM_signInput options (b := ready options chunk [out]) [] (n := 0)
    rfl rfl rfl hkeys
  obtain ⟨hspends, hsome, hvalues⟩ := forall₂_spends rfl hps
  refine ⟨_, TransactionBuilder.withScripts { ready options chunk [out] with inputs := [] ++ ps.map some }
    (ps.map TransactionBuilder.scriptOf), hfold, rfl, rfl, rfl, hspends, ?_⟩
  rw [TransactionBuilder.build_eq (List.nil_append _) hsome]
  · unfold TransactionBuilder.overMaximumFees TransactionBuilder.incoming
    rw [List.nil_append, sum_incoming hvalues]
    simp [ready, withInputs, unsignedTx, TransactionBuilder.new]
  · intro h
    exact hne (List.map_eq_nil_iff.mp h)
  · exact List.cons_ne_nil _ _

end Inputs

/-! ## Results -/

section Results

variable {ecpair : ECPair Key} {d : AddressDecoder} {resultUTXOs : Object Str (Found Key)} {options : SweepOptions}
  {feePerKB : Nat}

theorem exists_found {input : Input} (h : input ∈ inputsOf resultUTXOs) :
    ∃ found, resultUTXOs.get? input.address = some found := by
  unfold inputsOf at h
  rw [List.mem_flatMap] at h
  obtain ⟨⟨address, found⟩, he, hi⟩ := h
  rw [List.mem_map] at hi
  obtain ⟨utxo, -, rfl⟩ := hi
  exact ⟨found, (resultUTXOs.get?_eq_some).mpr he⟩

theorem payFee_eq (chunk : List Input) (script : Bytes) (total fee : Int) :
    (if options.isCash then
        (payFee { withInputs .new chunk with tx := unsignedTx chunk [⟨script, total⟩] } fee).enableBitcoinCash true
      else payFee { withInputs .new chunk with tx := unsignedTx chunk [⟨script, total⟩] } fee) =
      ready options chunk [⟨script, total - fee⟩] := by
  unfold ready
  cases hcash : options.isCash with
  | true => rfl
  | false => rfl

theorem unsigned_withInputs (chunk : List Input) : (withInputs .new chunk).Unsigned := by
  intro input hi
  exact List.eq_of_mem_replicate hi

/-- What is made of a chunk with its output. -/
def finished (ecpair : ECPair Key) (resultUTXOs : Object Str (Found Key)) (options : SweepOptions) (chunk : List Input)
    (script : Bytes) (total : Int) : Option Int → Except JsError (Option SweepTx)
  | none => .error ⟨"Error", "value has a fractional component"⟩
  | some fee =>
    if total - fee ≤ DUST then .ok none
    else
      chunk.zipIdx.foldlM (signInput ecpair resultUTXOs options) (ready options chunk [⟨script, total - fee⟩]) >>= fun b =>
      b.build >>= fun tx => .ok (some ⟨tx.toHex, fee, chunk.length, total⟩)

theorem finishChunk_eq (chunk : List Input) (script : Bytes) (total : Int) :
    finishChunk ecpair resultUTXOs options feePerKB
        { withInputs .new chunk with tx := unsignedTx chunk [⟨script, total⟩] } chunk total =
      finished ecpair resultUTXOs options chunk script total (feeOf feePerKB chunk) := by
  have hfee : estimateIncompleteTxFee (unsignedTx chunk [⟨script, total⟩]) feePerKB = feeOf feePerKB chunk := rfl
  unfold finishChunk finished
  dsimp only
  rw [hfee]
  rcases feeOf feePerKB chunk with - | fee
  · rfl
  dsimp only
  by_cases hdust : total - fee ≤ DUST
  · rw [if_pos hdust, if_pos (by simpa [payFee, unsignedTx] using hdust)]
  · rw [if_neg hdust, if_neg (by simpa [payFee, unsignedTx] using hdust)]
    unfold signChunk
    rw [payFee_eq]
    dsimp only
    rcases chunk.zipIdx.foldlM (signInput ecpair resultUTXOs options)
        (ready options chunk [⟨script, total - fee⟩]) with e | b
    · rfl
    · rw [ok_bind, ok_bind]
      rcases b.build with e | tx
      · rfl
      · rfl

/-- A chunk above dust: the output, then the fee, then the signatures. -/
theorem payChunk_eq (chunk : List Input) (total : Int) (htotal : DUST < total) :
    payChunk ecpair d resultUTXOs options feePerKB (withInputs .new chunk) chunk total =
      (toOutputScript d options.recipient .bitcoin false >>= fun script =>
        if Tx.SATOSHI_MAX < total then .error ⟨"TypeError", "Expected property of type Satoshi"⟩
        else finished ecpair resultUTXOs options chunk script total (feeOf feePerKB chunk)) := by
  have h0 : 0 ≤ total := by
    unfold DUST at htotal
    omega
  have hnetwork : (withInputs .new chunk).network = .bitcoin := rfl
  unfold payChunk
  rw [TransactionBuilder.addOutput_eq (unsigned_withInputs chunk), hnetwork]
  rcases toOutputScript d options.recipient .bitcoin false with e | script
  · rfl
  · rw [ok_bind, ok_bind]
    by_cases hmax : Tx.SATOSHI_MAX < total
    · rw [if_neg (fun h : Tx.IsSatoshi total => absurd h.2 (by omega)), if_pos hmax]
      rfl
    · rw [if_pos ⟨h0, by omega⟩, if_neg hmax, ok_bind]
      exact finishChunk_eq chunk script total

theorem spends_unique {unsigned : Tx} : Relator.RightUnique (Spends ecpair resultUTXOs options unsigned) := by
  rintro e a b ⟨found, hf, ha⟩ ⟨found', hf', hb⟩
  cases hf.symm.trans hf'
  rw [ha, hb]

theorem isSigned_unique {chunk : List Input} {fee : Int} {tx tx' : Tx}
    (h : IsSigned ecpair d resultUTXOs options chunk fee tx) (h' : IsSigned ecpair d resultUTXOs options chunk fee tx') :
    tx = tx' := by
  obtain ⟨script, hs, ho⟩ := h.outs
  obtain ⟨script', hs', ho'⟩ := h'.outs
  cases hs.symm.trans hs'
  have hins := h'.ins
  rw [ho', ← ho] at hins
  have heq := List.right_unique_forall₂' spends_unique h.ins hins
  have hv := h.version.trans h'.version.symm
  have hl := h.locktime.trans h'.locktime.symm
  cases tx
  cases tx'
  simp only at heq hv hl ho ho'
  rw [heq, hv, hl, ho, ho']

theorem sweepChunk_spec (d : AddressDecoder) (options : SweepOptions) (feePerKB : Nat)
    (hd : Discovered ecpair resultUTXOs) {chunk : List Input}
    (hc : chunk ∈ chunksOf (inputsOf resultUTXOs)) :
    (∃ r, sweepChunk ecpair d resultUTXOs options feePerKB chunk = .ok r ∧
        ChunkResult ecpair d resultUTXOs options feePerKB chunk r ∧
        ¬Rejected ecpair d resultUTXOs options feePerKB chunk) ∨
      ∃ e, sweepChunk ecpair d resultUTXOs options feePerKB chunk = .error e ∧
        Rejected ecpair d resultUTXOs options feePerKB chunk := by
  have hsub : chunk.Sublist (inputsOf resultUTXOs) := by
    have h := List.sublist_flatten_of_mem hc
    rwa [flatten_chunksOf] at h
  have hmem : ∀ input ∈ chunk, input ∈ inputsOf resultUTXOs := fun input hi => hsub.subset hi
  have hkeys : ∀ input ∈ chunk, Tx.IsSatoshi input.value ∧
      ∃ found, resultUTXOs.get? input.address = some found ∧ ecpair.network found.priv_key = .bitcoin := by
    intro input hi
    obtain ⟨found, hf⟩ := exists_found (hmem input hi)
    exact ⟨hd.value input (hmem input hi), found, hf, hd.network _ _ hf⟩
  have hadd := addInputs_eq (fun input hi => hd.outpoint input (hmem input hi)) (hd.nodup.sublist (hsub.map _))
  unfold sweepChunk
  rw [hadd, ok_bind]
  dsimp only
  by_cases htotal : totalOf chunk ≤ DUST
  · rw [if_pos htotal]
    exact Or.inl ⟨none, rfl, Or.inl htotal, fun h => absurd h.1 (by omega)⟩
  · have hdust : DUST < totalOf chunk := by omega
    rw [if_neg htotal, payChunk_eq chunk _ hdust]
    rcases hscript : toOutputScript d options.recipient .bitcoin false with e | script
    · exact Or.inr ⟨e, rfl, hdust, Or.inl ⟨e, hscript⟩⟩
    rw [ok_bind]
    by_cases hmax : Tx.SATOSHI_MAX < totalOf chunk
    · rw [if_pos hmax]
      exact Or.inr ⟨_, rfl, hdust, Or.inr (Or.inl hmax)⟩
    rw [if_neg hmax]
    rcases hfee : feeOf feePerKB chunk with - | fee
    · exact Or.inr ⟨_, rfl, hdust, Or.inr (Or.inr (Or.inl hfee))⟩
    unfold finished
    dsimp only
    by_cases hpaid : totalOf chunk - fee ≤ DUST
    · rw [if_pos hpaid]
      refine Or.inl ⟨none, rfl, Or.inr ⟨fee, hfee, hpaid⟩, ?_⟩
      rintro ⟨-, ⟨e, he⟩ | h | h | ⟨fee', hfee', h, -⟩⟩
      · cases hscript.symm.trans he
      · exact hmax h
      · cases hfee.symm.trans h
      · cases hfee.symm.trans hfee'
        exact absurd h (by omega)
    rw [if_neg hpaid]
    obtain ⟨b, tx, hfold, houts, hversion, hlocktime, hspends, hbuild⟩ :=
      signChunk_ready (ne_nil_of_mem_chunksOf hc) ⟨script, totalOf chunk - fee⟩ hkeys
    have hsigned : IsSigned ecpair d resultUTXOs options chunk fee tx :=
      ⟨⟨script, hscript, houts⟩, houts ▸ hspends, hversion, hlocktime⟩
    rw [hfold, ok_bind, hbuild]
    dsimp only
    by_cases habsurd : AbsurdFee chunk fee tx
    · have hover := habsurd
      unfold AbsurdFee at hover
      rw [if_pos hover]
      exact Or.inr ⟨_, rfl, hdust, Or.inr (Or.inr (Or.inr ⟨fee, hfee, by omega, tx, hsigned, habsurd⟩))⟩
    · have hunder := habsurd
      unfold AbsurdFee at hunder
      rw [if_neg hunder, ok_bind]
      refine Or.inl ⟨_, rfl, ⟨fee, hfee, by omega, tx, hsigned, rfl⟩, ?_⟩
      rintro ⟨-, ⟨e, he⟩ | h | h | ⟨fee', hfee', -, tx', hsigned', habsurd'⟩⟩
      · cases hscript.symm.trans he
      · exact hmax h
      · cases hfee.symm.trans h
      · cases hfee.symm.trans hfee'
        exact habsurd (isSigned_unique hsigned hsigned' ▸ habsurd')

theorem sum_reported {chunks : List (List Input)} {results : List (Option SweepTx)}
    (h : List.Forall₂ (ChunkResult ecpair d resultUTXOs options feePerKB) chunks results) :
    (results.map fun t => t.elim 0 SweepTx.totalValue).sum =
      (List.zipWith (fun chunk t => if t.isSome then totalOf chunk else 0) chunks results).sum := by
  induction h with
  | nil => rfl
  | @cons chunk t chunks results hc _ ih =>
    rw [List.map_cons, List.sum_cons, List.zipWith_cons_cons, List.sum_cons, ih]
    cases t with
    | none => rfl
    | some t =>
      obtain ⟨fee, -, -, tx, -, rfl⟩ := hc
      rfl

end Results

/-- **Sweep transactions.** What is resolved sweeps every output once, and nothing is resolved exactly if a chunk with
a value to sweep has no output, a fee that is no number, or one that the builder does not take. -/
theorem signAndSweep_spec (ecpair : ECPair Key) (d : AddressDecoder) (resultUTXOs : Object Str (Found Key))
    (options : SweepOptions) (feePerKB : Nat) (hd : Discovered ecpair resultUTXOs) :
    (∀ results, signAndSweep ecpair d resultUTXOs options feePerKB = .ok results →
        Swept ecpair d resultUTXOs options feePerKB results) ∧
      ((∃ e, signAndSweep ecpair d resultUTXOs options feePerKB = .error e) ↔
        ∃ chunk ∈ chunksOf (inputsOf resultUTXOs), Rejected ecpair d resultUTXOs options feePerKB chunk) := by
  have h := mapM_cases fun chunk hc => sweepChunk_spec d options feePerKB hd hc
  unfold signAndSweep
  rcases h with ⟨results, hr, heach, hnot⟩ | ⟨⟨e, he⟩, hrejected⟩
  · refine ⟨fun results' hr' => ?_, ?_⟩
    · cases hr.symm.trans hr'
      exact ⟨flatten_chunksOf _, fun chunk hc => length_le_of_mem_chunksOf hc, heach, sum_reported heach⟩
    · constructor
      · rintro ⟨e, he⟩
        cases hr.symm.trans he
      · rintro ⟨chunk, hc, hrejected⟩
        exact absurd hrejected (hnot chunk hc)
  · refine ⟨fun results hr => ?_, fun _ => hrejected, fun _ => ⟨e, he⟩⟩
    cases he.symm.trans hr

/-! ## One output of 0.1 BTC -/

def sampleECPair : ECPair Unit where
  network _ := .bitcoin
  getPublicKeyBuffer _ := ⟨someKey.bytes, isCanonicalPubKey_bytes someKey⟩
  hash160 _ := ⟨knownHash, rfl⟩
  hashForSignature tx _ _ _ := tx.toBuffer
  hashForWitnessV0 tx _ _ _ _ := tx.toBuffer
  sign _ _ _ := longSignature

def sampleUTXOs : Object Str (Found Unit) :=
  ⟨[("1BpEi6DfDAUFd7GtittLSdBeYJvcoaVggu".toList, ⟨⟨(), 0⟩, [⟨List.replicate 64 '1', 0, 10000000, []⟩]⟩)],
    by simp [Assoc.keys]⟩

def sampleOptions : SweepOptions := ⟨"btc".toList, "1BpEi6DfDAUFd7GtittLSdBeYJvcoaVggu".toList⟩

theorem sample_discovered : Discovered sampleECPair sampleUTXOs where
  outpoint input hi := by
    rw [List.mem_singleton.mp hi]
    exact ⟨by decide +kernel, by decide +kernel, by decide⟩
  nodup := List.nodup_singleton _
  value input hi := by
    rw [List.mem_singleton.mp hi]
    decide
  network _ _ _ := rfl

theorem one_output_swept : ∃ results,
    signAndSweep sampleECPair renamedDecoder sampleUTXOs sampleOptions 20000 = .ok results ∧
      Swept sampleECPair renamedDecoder sampleUTXOs sampleOptions 20000 results := by
  have h := signAndSweep_spec sampleECPair renamedDecoder sampleUTXOs sampleOptions 20000 sample_discovered
  have hsome : (signAndSweep sampleECPair renamedDecoder sampleUTXOs sampleOptions 20000).toOption.isSome = true := by
    decide +kernel
  rcases hr : signAndSweep sampleECPair renamedDecoder sampleUTXOs sampleOptions 20000 with e | results
  · rw [hr] at hsome
    cases hsome
  · exact ⟨results, rfl, h.1 results hr⟩

/-- At 0.01 BTC for 1000 bytes the builder takes the fee for a mistake. -/
theorem absurd_fee_throws :
    ¬∀ (ecpair : ECPair Unit) (d : AddressDecoder) (resultUTXOs : Object Str (Found Unit)) (options : SweepOptions)
      (feePerKB : Nat), Discovered ecpair resultUTXOs →
      (∃ script, toOutputScript d options.recipient .bitcoin false = .ok script) →
      ∃ results, signAndSweep ecpair d resultUTXOs options feePerKB = .ok results ∧
        Swept ecpair d resultUTXOs options feePerKB results := by
  intro h
  have hscript : (toOutputScript renamedDecoder sampleOptions.recipient .bitcoin false).toOption.isSome = true := by
    decide +kernel
  have hnone : (signAndSweep sampleECPair renamedDecoder sampleUTXOs sampleOptions 1000000).toOption = none := by
    decide +kernel
  obtain ⟨script, hs⟩ := Option.isSome_iff_exists.mp hscript
  obtain ⟨results, hr, -⟩ := h sampleECPair renamedDecoder sampleUTXOs sampleOptions 1000000 sample_discovered
    ⟨script, toOption_eq_some hs⟩
  rw [hr] at hnone
  cases hnone

end SweeperService

end WebWallet
