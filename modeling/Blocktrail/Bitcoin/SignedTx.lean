import Mathlib.Algebra.Order.BigOperators.Group.List
import Mathlib.Algebra.Order.Group.Nat
import Mathlib.Algebra.Order.Ring.Int
import Blocktrail.Bitcoin.TxSize

/-! # Signed transactions

What `TransactionBuilder` makes of signatures, and the weight of a transaction.
-/

namespace Bitcoin

/-! ## Signatures -/

/-- `bip66.check`, of a signature without its last byte. -/
def bip66Check (buffer : Bytes) : Bool :=
  let lenR := (buffer.getD 3 0).toNat
  let lenS := (buffer.getD (5 + lenR) 0).toNat
  8 ≤ buffer.length && buffer.length ≤ 72 && buffer.getD 0 0 == 0x30 &&
    (buffer.getD 1 0).toNat == buffer.length - 2 && buffer.getD 2 0 == 0x02 &&
    lenR != 0 && 5 + lenR < buffer.length && buffer.getD (4 + lenR) 0 == 0x02 &&
    lenS != 0 && 6 + lenR + lenS == buffer.length &&
    buffer.getD 4 0 < 0x80 && !(1 < lenR && buffer.getD 4 0 == 0 && buffer.getD 5 0 < 0x80) &&
    buffer.getD (lenR + 6) 0 < 0x80 &&
    !(1 < lenS && buffer.getD (lenR + 6) 0 == 0 && buffer.getD (lenR + 7) 0 < 0x80)

def isDefinedHashType (hashType : Byte) : Bool :=
  let hashTypeMod := hashType &&& 0x3f
  0x00 < hashTypeMod && hashTypeMod < 0x04

def isCanonicalSignature (buffer : Bytes) : Bool :=
  isDefinedHashType (buffer.getLastD 0) && bip66Check buffer.dropLast

/-- A signature with its hash type, of 72 bytes at most. -/
abbrev Signature := { b : Bytes // isCanonicalSignature b = true ∧ b.length ≤ 72 }

/-! ## Inputs -/

structure TxIn where
  script : Bytes
  witness : List Bytes

def SignScript.signatureCount : SignScript → Nat
  | multisig terms => terms.m
  | pubKey _ => 1
  | pubKeyHash _ => 1

/-- `buildStack`, of all signatures, and of the key that the script has only the hash of. -/
def SignScript.buildStack (signatures : List Signature) (key : PubKey) : SignScript → List Bytes
  | multisig _ => [] :: signatures.map Subtype.val
  | pubKey _ => signatures.map Subtype.val
  | pubKeyHash _ => signatures.map Subtype.val ++ [key.bytes]

/-- `buildInput`, of the stack. -/
def Lock.buildInput (l : Lock) (stack : List Bytes) : TxIn :=
  if l.program.isWitness then
    ⟨compile (l.redeemScript.toList.map .data), stack ++ l.program.revealed.toList⟩
  else ⟨compile ((stack ++ l.redeemScript.toList).map .data), []⟩

/-- The input has every signature that the lock asks for. -/
def Lock.SignedBy (l : Lock) (input : TxIn) : Prop :=
  ∃ (signatures : List Signature) (key : PubKey), signatures.length = l.program.signScript.signatureCount ∧
    input = l.buildInput (l.program.signScript.buildStack signatures key)

/-! ## Transactions -/

/-- `varuint.encodingLength`. -/
def encodingLength (number : Nat) : Nat :=
  if number < 0xfd then 1 else if number ≤ 0xffff then 3 else if number ≤ 0xffffffff then 5 else 9

def varSliceSize (someScript : Bytes) : Nat := encodingLength someScript.length + someScript.length

def vectorSize (someVector : List Bytes) : Nat :=
  encodingLength someVector.length + (someVector.map varSliceSize).sum

/-- The inputs, and the scripts of the outputs. -/
structure Transaction where
  ins : List TxIn
  outs : List Bytes

namespace Transaction

variable (tx : Transaction)

def hasWitnesses : Bool := tx.ins.any fun input => input.witness.length != 0

def byteLength (allowWitness : Bool) : Nat :=
  let hasWitnesses := allowWitness && tx.hasWitnesses
  (if hasWitnesses then 10 else 8) + encodingLength tx.ins.length + encodingLength tx.outs.length +
    (tx.ins.map fun input => 40 + varSliceSize input.script).sum +
    (tx.outs.map fun script => 8 + varSliceSize script).sum +
    if hasWitnesses then (tx.ins.map fun input => vectorSize input.witness).sum else 0

def weight : Nat := tx.byteLength false * 3 + tx.byteLength true

/-- The transaction spends the outputs, each with all signatures. -/
def FullySigned (locks : List Lock) : Prop := List.Forall₂ Lock.SignedBy locks tx.ins

end Transaction

/-! ## Lengths of prefixes -/

/-- What `varIntSize` counts too much. -/
def prefixExcess (n : Nat) : Nat := if n = 65535 then 2 else if n = 4294967295 then 4 else 0

theorem varIntSize_eq (n : Nat) : varIntSize n = encodingLength n + prefixExcess n := by
  unfold varIntSize encodingLength prefixExcess
  split_ifs <;> omega

theorem encodingLength_add_le {a b : Nat} (h : a ≤ b) : encodingLength a + a ≤ varIntSize b + b := by
  unfold varIntSize encodingLength
  split_ifs <;> omega

theorem encodingLength_eq {n : Nat} (h : n < 65535) : encodingLength n = varIntSize n := by
  unfold varIntSize encodingLength
  split_ifs <;> omega

theorem length_compileChunk_le {b : Bytes} {n : Nat} (h : b.length ≤ n) :
    (compileChunk (.data b)).length ≤ pushSize n + n := by
  simp only [compileChunk]
  rcases asMinimalOP b with _ | opcode
  · simp only [List.length_append]
    unfold pushdata pushSize
    split_ifs <;> simp only [List.length_cons, List.length_nil] <;> omega
  · have hpush : 1 ≤ pushSize n := by
      unfold pushSize
      split_ifs <;> omega
    simp only [List.length_cons, List.length_nil]
    omega

theorem length_compileChunk {b : Bytes} (h1 : b.length ≠ 1) (h75 : b.length ≠ 75) :
    (compileChunk (.data b)).length = pushSize b.length + b.length := by
  match b, h1 with
  | [], _ => rfl
  | x :: y :: t, _ =>
    have hp : (pushdata (x :: y :: t).length).length = pushSize (x :: y :: t).length := by
      unfold pushdata pushSize
      split_ifs <;> simp only [List.length_cons, List.length_nil] at * <;> omega
    show (pushdata (x :: y :: t).length ++ (x :: y :: t)).length = _
    rw [List.length_append, hp]

/-! ## Sizes of what is built -/

/-- Slices of bounded lengths. -/
abbrev Bounded : List Bytes → List Nat → Prop := List.Forall₂ fun b n => b.length ≤ n

theorem Bounded.sum_le {f : Bytes → Nat} {g : Nat → Nat} {items : List Bytes} {sizes : List Nat}
    (h : Bounded items sizes) (hfg : ∀ b n, b.length ≤ n → f b ≤ g n) : (items.map f).sum ≤ (sizes.map g).sum := by
  refine List.Forall₂.sum_le_sum ?_
  rw [List.forall₂_map_left_iff, List.forall₂_map_right_iff]
  exact h.imp fun b n => hfg b n

theorem length_compile_data (items : List Bytes) :
    (compile (items.map .data)).length = (items.map fun b => (compileChunk (.data b)).length).sum := by
  rw [compile, List.length_flatMap, List.map_map]
  rfl

theorem scriptSig_le {items : List Bytes} {sizes : List Nat} (h : Bounded items sizes) :
    varSliceSize (compile (items.map .data)) ≤ scriptSigSize sizes := by
  have hle : (compile (items.map .data)).length ≤ (sizes.map fun n => pushSize n + n).sum := by
    rw [length_compile_data]
    exact h.sum_le fun b n => length_compileChunk_le
  have hsize := encodingLength_add_le hle
  unfold varSliceSize scriptSigSize
  dsimp only
  omega

theorem scriptSig_eq {items : List Bytes} (h : ∀ b ∈ items, b.length ≠ 1 ∧ b.length ≠ 75)
    (hsum : ((items.map List.length).map fun n => pushSize n + n).sum < 65535) :
    varSliceSize (compile (items.map .data)) = scriptSigSize (items.map List.length) := by
  have hlength : (compile (items.map .data)).length = ((items.map List.length).map fun n => pushSize n + n).sum := by
    rw [length_compile_data, List.map_map]
    exact congrArg List.sum (List.map_congr_left fun b hb => length_compileChunk (h b hb).1 (h b hb).2)
  unfold varSliceSize scriptSigSize
  rw [hlength, encodingLength_eq hsum, Nat.add_comm]

theorem witness_le {items : List Bytes} {sizes : List Nat} (h : Bounded items sizes) (hne : items ≠ []) :
    vectorSize items ≤ witnessSize sizes := by
  have hlength : items.length = sizes.length := h.length_eq
  have hsizes : sizes ≠ [] := by
    rintro rfl
    exact hne (List.length_eq_zero_iff.mp hlength)
  have hitems : (items.map varSliceSize).sum ≤ (sizes.map fun n => varIntSize n + n).sum :=
    h.sum_le fun b n => encodingLength_add_le
  have hcount := varIntSize_eq items.length
  unfold vectorSize witnessSize
  rw [if_neg hsizes, ← hlength]
  omega

theorem witness_eq {items : List Bytes} (h : ∀ b ∈ items, b.length < 65535) (hcount : items.length < 65535)
    (hne : items ≠ []) : vectorSize items = witnessSize (items.map List.length) := by
  have hitems : (items.map varSliceSize).sum = ((items.map List.length).map fun n => varIntSize n + n).sum := by
    rw [List.map_map]
    exact congrArg List.sum (List.map_congr_left fun b hb => by
      rw [varSliceSize, encodingLength_eq (h b hb)]
      rfl)
  unfold vectorSize witnessSize
  rw [if_neg (by simpa using hne), hitems, encodingLength_eq hcount, List.length_map, Nat.add_comm]

/-! ## Signed inputs -/

theorem SignScript.bounded_buildStack (s : SignScript) {signatures : List Signature}
    (h : signatures.length = s.signatureCount) (key : PubKey) : Bounded (s.buildStack signatures key) s.stack := by
  have hsignatures : Bounded (signatures.map Subtype.val) (List.replicate s.signatureCount 72) := by
    rw [← h]
    clear h
    induction signatures with
    | nil => exact .nil
    | cons g signatures ih => exact .cons g.property.2 ih
  cases s with
  | multisig terms => exact .cons (Nat.le_refl 0) hsignatures
  | pubKey k => exact hsignatures
  | pubKeyHash hash => exact List.rel_append hsignatures (.cons (Nat.le_of_eq key.length_eq) .nil)

theorem SignScript.lengths_buildStack (s : SignScript) {signature : Signature} (h : signature.val.length = 72)
    (key : PubKey) :
    (s.buildStack (List.replicate s.signatureCount signature) key).map List.length = s.stack := by
  cases s with
  | multisig terms => simp [buildStack, stack, signatureCount, h]
  | pubKey k => simp [buildStack, stack, signatureCount, h]
  | pubKeyHash hash => simp [buildStack, stack, signatureCount, h, key.length_eq]

theorem bounded_append_self {items : List Bytes} {sizes : List Nat} (h : Bounded items sizes) (script : Option Bytes) :
    Bounded (items ++ script.toList) (sizes ++ script.toList.map List.length) := by
  refine List.rel_append h ?_
  cases script with
  | none => exact .nil
  | some b => exact .cons (Nat.le_refl _) .nil

namespace Lock

theorem scriptSig_le {l : Lock} {input : TxIn} (h : l.SignedBy input) :
    varSliceSize input.script ≤ l.inputSize.scriptSig := by
  obtain ⟨signatures, key, hcount, rfl⟩ := h
  have hstack := l.program.signScript.bounded_buildStack hcount key
  unfold buildInput inputSize stackSize
  rcases l.program.isWitness with _ | _
  · exact Bitcoin.scriptSig_le (bounded_append_self hstack l.redeemScript)
  · exact Bitcoin.scriptSig_le (bounded_append_self .nil l.redeemScript)

theorem witness_eq_nil {l : Lock} {input : TxIn} (h : l.SignedBy input) :
    input.witness = [] ↔ l.program.isWitness = false := by
  obtain ⟨signatures, key, hcount, rfl⟩ := h
  have hlength := (l.program.signScript.bounded_buildStack hcount key).length_eq
  have hne : l.program.signScript.buildStack signatures key ≠ [] := by
    intro hnil
    rw [hnil] at hlength
    exact l.program.signScript.items_ne_nil none (by simpa using List.length_eq_zero_iff.mp hlength.symm)
  unfold buildInput
  rcases l.program.isWitness with _ | _
  · simp
  · simp [hne]

/-- The count of an input's witness, where there is nothing to count. -/
def emptyCount (l : Lock) : Nat := if l.program.isWitness then 0 else 1

theorem vectorSize_le {l : Lock} {input : TxIn} (h : l.SignedBy input) :
    vectorSize input.witness ≤ l.inputSize.witness + l.emptyCount := by
  have hnil := witness_eq_nil h
  obtain ⟨signatures, key, hcount, rfl⟩ := h
  have hstack := l.program.signScript.bounded_buildStack hcount key
  revert hnil
  unfold buildInput inputSize stackSize emptyCount
  rcases l.program.isWitness with _ | _
  · intro _
    exact Nat.le_refl 1
  · intro hnil
    exact witness_le (bounded_append_self hstack l.program.revealed) fun he => absurd (hnil.mp he) (by decide)

theorem inputSize_witness_pos (l : Lock) : 0 < l.inputSize.witness ↔ l.program.isWitness = true := by
  unfold inputSize stackSize
  rcases l.program.isWitness with _ | _
  · simp
  · have hne := l.program.signScript.items_ne_nil l.program.revealed
    have hcount : ∀ n, 0 < varIntSize n := by
      intro n
      unfold varIntSize
      split_ifs <;> omega
    simp only [if_true, witnessSize, if_neg hne, iff_true]
    exact Nat.lt_of_lt_of_le (hcount _) (Nat.le_add_left _ _)

end Lock

/-! ## The largest transaction -/

/-- Of 72 bytes. -/
def longSignature : Signature :=
  ⟨[0x30, 0x45, 0x02, 0x21, 0x00] ++ List.replicate 32 0x80 ++ [0x02, 0x20] ++ List.replicate 32 0x01 ++ [0x01],
    by decide, by decide⟩

def someKey : PubKey := ⟨0x02 :: List.replicate 32 0x01, rfl, Or.inl rfl⟩

namespace Lock

def largestInput (l : Lock) : TxIn :=
  l.buildInput (l.program.signScript.buildStack
    (List.replicate l.program.signScript.signatureCount longSignature) someKey)

theorem signedBy_largestInput (l : Lock) : l.SignedBy l.largestInput :=
  ⟨_, someKey, List.length_replicate, rfl⟩

theorem largestStack_length (s : SignScript) {b : Bytes}
    (h : b ∈ s.buildStack (List.replicate s.signatureCount longSignature) someKey) :
    b.length ≤ 72 ∧ b.length ≠ 1 := by
  have hb : b = [] ∨ b = longSignature.val ∨ b = someKey.bytes := by
    cases s with
    | multisig terms =>
      simp only [SignScript.buildStack, List.map_replicate, List.mem_cons, List.mem_replicate] at h
      rcases h with rfl | ⟨-, rfl⟩
      · exact Or.inl rfl
      · exact Or.inr (Or.inl rfl)
    | pubKey k =>
      simp only [SignScript.buildStack, List.map_replicate, List.mem_replicate] at h
      exact Or.inr (Or.inl h.2)
    | pubKeyHash hash =>
      simp only [SignScript.buildStack, List.map_replicate, List.mem_append, List.mem_replicate, List.mem_singleton] at h
      rcases h with ⟨-, rfl⟩ | rfl
      · exact Or.inr (Or.inl rfl)
      · exact Or.inr (Or.inr rfl)
  rcases hb with rfl | rfl | rfl
  · decide
  · decide
  · decide

theorem scriptSig_largestInput (l : Lock) : varSliceSize l.largestInput.script = l.inputSize.scriptSig := by
  have hlengths := l.program.signScript.lengths_buildStack (show longSignature.val.length = 72 from rfl) someKey
  have hredeem : ∀ b ∈ l.redeemScript.toList, b.length ≠ 1 ∧ b.length ≠ 75 := by
    intro b hb
    have := l.length_redeemScript b (Option.mem_toList.mp hb)
    exact ⟨by omega, this.2.2⟩
  unfold largestInput buildInput inputSize stackSize
  rcases l.program.isWitness with _ | _
  · have hsum := sum_pushes_le (mem_items_le (s := l.program.signScript) l.length_redeemScript_le)
      (length_items_le _ l.redeemScript)
    rw [← hlengths, ← List.map_append] at hsum
    simp only [Bool.false_eq_true, if_false]
    rw [← hlengths, ← List.map_append]
    refine scriptSig_eq (fun b hb => ?_) (Nat.lt_of_le_of_lt hsum (by decide))
    rcases List.mem_append.mp hb with hb | hb
    · have := largestStack_length l.program.signScript hb
      omega
    · exact hredeem b hb
  · have hsum := sum_pushes_le (lengths_le l.length_redeemScript_le) (length_redeem_le l.redeemScript)
    exact scriptSig_eq hredeem (Nat.lt_of_le_of_lt hsum (by decide))

theorem vectorSize_largestInput (l : Lock) :
    vectorSize l.largestInput.witness = l.inputSize.witness + l.emptyCount := by
  have hlengths := l.program.signScript.lengths_buildStack (show longSignature.val.length = 72 from rfl) someKey
  have hne := l.program.signScript.items_ne_nil l.program.revealed
  have hcount := length_items_le l.program.signScript l.program.revealed
  rw [← hlengths, ← List.map_append] at hne hcount
  unfold largestInput buildInput inputSize stackSize emptyCount
  rcases l.program.isWitness with _ | _
  · rfl
  · simp only [if_true, Nat.add_zero]
    rw [← hlengths, ← List.map_append]
    refine Bitcoin.witness_eq (fun b hb => ?_) (by rw [List.length_map] at hcount; omega) (by simpa using hne)
    rcases List.mem_append.mp hb with hb | hb
    · have := largestStack_length l.program.signScript hb
      omega
    · have := l.program.length_revealed_le b (Option.mem_toList.mp hb)
      omega

end Lock

/-! ## Weights -/

/-- What the prefixes of a transaction are counted too long, in bytes. -/
def totalExcess (inputs : Nat) (outs : List Bytes) : Nat :=
  prefixExcess inputs + prefixExcess outs.length + (outs.map fun script => prefixExcess script.length).sum

/-- The witness counts of the inputs without a witness, which stand in a transaction that has one. -/
def emptyCounts (locks : List Lock) : Nat :=
  if locks.any fun l => l.program.isWitness then (locks.map Lock.emptyCount).sum else 0

namespace Transaction

theorem byteLength_add (tx : Transaction) (allowWitness : Bool) :
    tx.byteLength allowWitness = 8 + encodingLength tx.ins.length + encodingLength tx.outs.length +
      (tx.ins.map fun input => 40 + varSliceSize input.script).sum +
      (tx.outs.map fun script => 8 + varSliceSize script).sum +
      if allowWitness && tx.hasWitnesses then 2 + (tx.ins.map fun input => vectorSize input.witness).sum else 0 := by
  unfold byteLength
  dsimp only
  split_ifs <;> omega

theorem sum_outs (outs : List Bytes) :
    ((outs.map List.length).map fun n => 8 + varIntSize n + n).sum =
      (outs.map fun script => 8 + varSliceSize script).sum +
        (outs.map fun script => prefixExcess script.length).sum := by
  induction outs with
  | nil => rfl
  | cons script outs ih =>
    have hprefix := varIntSize_eq script.length
    simp only [List.map_cons, List.sum_cons, ih, varSliceSize]
    omega

theorem hasWitnesses_eq {tx : Transaction} {locks : List Lock} (h : tx.FullySigned locks) :
    tx.hasWitnesses = locks.any fun l => l.program.isWitness := by
  unfold FullySigned at h
  unfold hasWitnesses
  generalize tx.ins = ins at h
  induction h with
  | nil => rfl
  | @cons l input locks ins hsigned _ ih =>
    have hnil := Lock.witness_eq_nil hsigned
    rw [List.any_cons, List.any_cons, ih]
    congr 1
    cases hw : l.program.isWitness with
    | false => simp [hnil.mpr hw]
    | true =>
      have hne : input.witness ≠ [] := fun he => absurd (hnil.mp he) (by simp [hw])
      simpa using hne

theorem witness_pos (locks : List Lock) :
    0 < ((locks.map Lock.inputSize).map InputSize.witness).sum ↔ locks.any (fun l => l.program.isWitness) = true := by
  induction locks with
  | nil => simp
  | cons l locks ih =>
    have hl := l.inputSize_witness_pos
    rw [List.any_cons, Bool.or_eq_true, ← ih, ← hl, List.map_cons, List.map_cons, List.sum_cons]
    omega

theorem weight_eq {tx : Transaction} {locks : List Lock} (h : tx.FullySigned locks) (scripts witnesses : Nat)
    (hscripts : (tx.ins.map fun input => 40 + varSliceSize input.script).sum + scripts =
      ((locks.map Lock.inputSize).map fun size => 40 + size.scriptSig).sum)
    (hwitnesses : (tx.ins.map fun input => vectorSize input.witness).sum + witnesses =
      ((locks.map Lock.inputSize).map InputSize.witness).sum + (locks.map Lock.emptyCount).sum) :
    tx.weight + 4 * totalExcess locks.length tx.outs + 4 * scripts +
        (if locks.any fun l => l.program.isWitness then witnesses else 0) =
      txWeight (locks.map Lock.inputSize) (tx.outs.map List.length) + emptyCounts locks := by
  have hlength : tx.ins.length = locks.length := h.length_eq.symm
  have hins := varIntSize_eq locks.length
  have houts := varIntSize_eq tx.outs.length
  have hscript := sum_outs tx.outs
  have hpos := witness_pos locks
  unfold weight txWeight emptyCounts totalExcess inputsSize
  rw [byteLength_add, byteLength_add, hasWitnesses_eq h, hlength]
  simp only [List.length_map, hscript, hins, houts, Bool.false_and, Bool.true_and, Bool.false_eq_true, false_and, true_and,
    hpos, if_false]
  split_ifs
  · omega
  · omega

/-- **Upper bound.** No signed transaction weighs more than the estimate, but for the counts of empty witnesses and
without what the prefixes are counted too long. -/
theorem weight_le {tx : Transaction} {locks : List Lock} (h : tx.FullySigned locks) :
    tx.weight + 4 * totalExcess locks.length tx.outs ≤
      txWeight (locks.map Lock.inputSize) (tx.outs.map List.length) + emptyCounts locks := by
  have hscripts : (tx.ins.map fun input => 40 + varSliceSize input.script).sum ≤
      ((locks.map Lock.inputSize).map fun size => 40 + size.scriptSig).sum := by
    refine List.Forall₂.sum_le_sum ?_
    rw [List.forall₂_map_left_iff, List.forall₂_map_right_iff, List.forall₂_map_right_iff]
    exact h.flip.imp fun input l hl => Nat.add_le_add_left (Lock.scriptSig_le hl) 40
  have hwitnesses : (tx.ins.map fun input => vectorSize input.witness).sum ≤
      ((locks.map Lock.inputSize).map InputSize.witness).sum + (locks.map Lock.emptyCount).sum := by
    rw [List.map_map, ← List.sum_map_add]
    refine List.Forall₂.sum_le_sum ?_
    rw [List.forall₂_map_left_iff, List.forall₂_map_right_iff]
    exact h.flip.imp fun input l hl => Lock.vectorSize_le hl
  obtain ⟨scripts, hs⟩ := Nat.exists_eq_add_of_le hscripts
  obtain ⟨witnesses, hw⟩ := Nat.exists_eq_add_of_le hwitnesses
  have heq := weight_eq h scripts witnesses hs.symm hw.symm
  omega

/-- With signatures of 72 bytes. -/
def largest (locks : List Lock) (outs : List Bytes) : Transaction := ⟨locks.map Lock.largestInput, outs⟩

theorem fullySigned_largest (locks : List Lock) (outs : List Bytes) : (largest locks outs).FullySigned locks := by
  show List.Forall₂ Lock.SignedBy locks (locks.map Lock.largestInput)
  rw [List.forall₂_map_right_iff, List.forall₂_same]
  exact fun l _ => l.signedBy_largestInput

theorem weight_largest (locks : List Lock) (outs : List Bytes) :
    (largest locks outs).weight + 4 * totalExcess locks.length outs =
      txWeight (locks.map Lock.inputSize) (outs.map List.length) + emptyCounts locks := by
  have heq := weight_eq (fullySigned_largest locks outs) 0 0
    (by simp [largest, Function.comp_def, Lock.scriptSig_largestInput])
    (by simp [largest, Function.comp_def, Lock.vectorSize_largestInput, List.sum_map_add])
  have hzero : (if locks.any fun l => l.program.isWitness then 0 else 0) = 0 := by split_ifs <;> rfl
  rw [hzero] at heq
  exact heq

end Transaction

end Bitcoin
