import Blocktrail.Bitcoin.Classify

/-! # The size of a signed transaction

What the inputs that spend standard outputs take at most: signatures of 72 bytes and compressed keys.
-/

namespace Bitcoin

/-! ## Lengths of prefixes

The bounds are the ones that both SDKs have. A push of 75 bytes, and the largest number of each width, count one size
more than they take.
-/

def pushSize (length : Nat) : Nat :=
  if length < 75 then 1 else if length ≤ 0xff then 2 else if length ≤ 0xffff then 3 else 5

def varIntSize (length : Nat) : Nat :=
  if length < 253 then 1 else if length < 65535 then 3 else if length < 4294967295 then 5 else 9

/-! ## What is spent -/

/-- A script that signatures satisfy. -/
inductive SignScript
  | multisig (terms : Multisig)
  | pubKey (key : CanonicalKey)
  | pubKeyHash (hash : Hash160)

namespace SignScript

def script : SignScript → Bytes
  | multisig terms => terms.script
  | pubKey key => pubKeyOutput key.val
  | pubKeyHash hash => pubKeyHashOutput hash

/-- The sizes of what satisfies the script. -/
def stack : SignScript → List Nat
  | multisig terms => 0 :: List.replicate terms.m 72
  | pubKey _ => [72]
  | pubKeyHash _ => [72, 33]

/-- No script has the length that a push counts too high. -/
theorem length_script (s : SignScript) :
    2 ≤ s.script.length ∧ s.script.length ≤ 1059 ∧ s.script.length ≠ 75 := by
  cases s with
  | multisig terms =>
    have hle := terms.length_script_le
    obtain ⟨a, b, -, hsum⟩ := Multisig.exists_length_keys terms.keys
    have hs := terms.length_script
    rw [hsum] at hs
    show 2 ≤ terms.script.length ∧ terms.script.length ≤ 1059 ∧ terms.script.length ≠ 75
    omega
  | pubKey key =>
    have hl := length_of_isCanonicalPubKey key.property
    have hs : (pubKeyOutput key.val).length = key.val.length + 2 := by simp [pubKeyOutput_eq]
    show 2 ≤ (pubKeyOutput key.val).length ∧ (pubKeyOutput key.val).length ≤ 1059 ∧ (pubKeyOutput key.val).length ≠ 75
    omega
  | pubKeyHash hash =>
    have hl := hash.property
    have hs : (pubKeyHashOutput hash).length = hash.val.length + 5 := by simp [pubKeyHashOutput_eq]
    show 2 ≤ (pubKeyHashOutput hash).length ∧ (pubKeyHashOutput hash).length ≤ 1059 ∧
      (pubKeyHashOutput hash).length ≠ 75
    omega

theorem stack_le (s : SignScript) : ∀ n ∈ s.stack, n ≤ 72 := by
  cases s with
  | multisig terms =>
    intro n hn
    rcases List.mem_cons.mp hn with rfl | hn
    · exact Nat.zero_le _
    · exact Nat.le_of_eq (List.eq_of_mem_replicate hn)
  | pubKey _ => simp [stack]
  | pubKeyHash _ => simp [stack]

theorem length_stack_le (s : SignScript) : s.stack.length ≤ 17 := by
  cases s with
  | multisig terms =>
    have := terms.le
    have := terms.n_le
    simp only [stack, List.length_cons, List.length_replicate]
    omega
  | pubKey _ => simp [stack]
  | pubKeyHash _ => simp [stack]

end SignScript

/-- A script, or a witness program of one. A program of a script carries its hash. -/
inductive Program
  | script (s : SignScript)
  | witnessKey (hash : Hash160)
  | witnessScript (s : SignScript) (hash : Hash256)

namespace Program

def bytes : Program → Bytes
  | script s => s.script
  | witnessKey hash => witnessPubKeyHashOutput hash
  | witnessScript _ hash => witnessScriptHashOutput hash

def signScript : Program → SignScript
  | script s => s
  | witnessKey hash => .pubKeyHash hash
  | witnessScript s _ => s

def isWitness : Program → Bool
  | script _ => false
  | witnessKey _ => true
  | witnessScript _ _ => true

/-- The script that is revealed in the witness. -/
def revealed : Program → Option Bytes
  | witnessScript s _ => some s.script
  | _ => none

theorem length_bytes (p : Program) : 2 ≤ p.bytes.length ∧ p.bytes.length ≤ 1059 ∧ p.bytes.length ≠ 75 := by
  cases p with
  | script s => exact s.length_script
  | witnessKey hash =>
    have hl := hash.property
    have hs : (witnessPubKeyHashOutput hash).length = hash.val.length + 2 := by simp [witnessPubKeyHashOutput_eq]
    show 2 ≤ (witnessPubKeyHashOutput hash).length ∧ (witnessPubKeyHashOutput hash).length ≤ 1059 ∧
      (witnessPubKeyHashOutput hash).length ≠ 75
    omega
  | witnessScript s hash =>
    have hl := hash.property
    have hs : (witnessScriptHashOutput hash).length = hash.val.length + 2 := by simp [witnessScriptHashOutput_eq]
    show 2 ≤ (witnessScriptHashOutput hash).length ∧ (witnessScriptHashOutput hash).length ≤ 1059 ∧
      (witnessScriptHashOutput hash).length ≠ 75
    omega

theorem not_isScriptHashOutput (p : Program) : isScriptHashOutput p.bytes = false := by
  cases p with
  | script s =>
    cases s with
    | multisig terms => exact terms.not_hashOutput_script.2.2.2
    | pubKey key => exact (not_hashOutput_pubKeyOutput key).2.2.2
    | pubKeyHash hash => exact (not_witnessOutput_pubKeyHashOutput hash).2.2
  | witnessKey hash => exact (isWitnessPubKeyHashOutput_self hash).2
  | witnessScript s hash => exact (isWitnessScriptHashOutput_self hash).2.2

theorem isWitness_of_revealed (p : Program) : p.revealed.isSome → p.isWitness = true := by
  cases p <;> simp [revealed, isWitness]

theorem length_revealed_le (p : Program) : ∀ b ∈ p.revealed, b.length ≤ 1059 := by
  intro b hb
  cases p with
  | script s => cases hb
  | witnessKey hash => cases hb
  | witnessScript s hash =>
    obtain rfl := Option.mem_some.mp hb
    exact s.length_script.2.1

end Program

/-- An output: a program of its own, or the hash of one. -/
inductive Lock
  | bare (p : Program)
  | p2sh (p : Program) (hash : Hash160)

namespace Lock

def program : Lock → Program
  | bare p => p
  | p2sh p _ => p

def scriptPubKey : Lock → Bytes
  | bare p => p.bytes
  | p2sh _ hash => scriptHashOutput hash

def redeemScript : Lock → Option Bytes
  | bare _ => none
  | p2sh p _ => some p.bytes

theorem length_redeemScript (l : Lock) :
    ∀ b ∈ l.redeemScript, 2 ≤ b.length ∧ b.length ≤ 1059 ∧ b.length ≠ 75 := by
  intro b hb
  cases l with
  | bare p => cases hb
  | p2sh p hash =>
    obtain rfl := Option.mem_some.mp hb
    exact p.length_bytes

theorem length_redeemScript_le (l : Lock) : ∀ b ∈ l.redeemScript, b.length ≤ 1059 :=
  fun b hb => (l.length_redeemScript b hb).2.1

end Lock

/-! ## The size of an input -/

/-- The script of an input with its length, and its witness. -/
structure InputSize where
  scriptSig : Nat
  witness : Nat
deriving DecidableEq

def scriptSigSize (items : List Nat) : Nat :=
  let size := (items.map fun n => pushSize n + n).sum
  size + varIntSize size

def witnessSize (items : List Nat) : Nat :=
  if items = [] then 0 else (items.map fun n => varIntSize n + n).sum + varIntSize items.length

/-- The size of an input, by what satisfies its script. -/
def stackSize (stack : List Nat) (isWitness : Bool) (rs ws : Option Bytes) : InputSize :=
  if isWitness then
    ⟨scriptSigSize (rs.toList.map List.length), witnessSize (stack ++ ws.toList.map List.length)⟩
  else ⟨scriptSigSize (stack ++ rs.toList.map List.length), 0⟩

def Lock.inputSize (l : Lock) : InputSize :=
  stackSize l.program.signScript.stack l.program.isWitness l.redeemScript l.program.revealed

/-- The inputs, and the witnesses with their two flag bytes where there are any. -/
def inputsSize (sizes : List InputSize) (withWitness : Bool) : Nat :=
  let witness := (sizes.map InputSize.witness).sum
  (sizes.map fun size => 40 + size.scriptSig).sum + if withWitness ∧ 0 < witness then 2 + witness else 0

/-- The weight of a transaction, of the sizes of its inputs and the lengths of its output scripts. -/
def txWeight (inputs : List InputSize) (outs : List Nat) : Nat :=
  let fixed := 4 + varIntSize inputs.length + varIntSize outs.length + (outs.map fun n => 8 + varIntSize n + n).sum + 4
  3 * (fixed + inputsSize inputs false) + (fixed + inputsSize inputs true)

/-! ## Bounds -/

theorem sum_le {f : Nat → Nat} {l : List Nat} {b k : Nat} (h : ∀ n ∈ l, f n ≤ b) (hk : l.length ≤ k) :
    (l.map f).sum ≤ k * b := by
  have hsum : (l.map f).sum ≤ l.length * b := by
    induction l with
    | nil => exact Nat.zero_le _
    | cons a l ih =>
      have ha := h a List.mem_cons_self
      have hl := ih (fun n hn => h n (List.mem_cons_of_mem a hn)) (by rw [List.length_cons] at hk; omega)
      rw [List.map_cons, List.sum_cons, List.length_cons, Nat.succ_mul]
      omega
  exact Nat.le_trans hsum (Nat.mul_le_mul_right b hk)

theorem pushSize_le (n : Nat) : pushSize n ≤ 5 := by
  unfold pushSize
  split_ifs <;> omega

theorem lengths_le {script : Option Bytes} (h : ∀ b ∈ script, b.length ≤ 1059) :
    ∀ n ∈ script.toList.map List.length, n ≤ 1059 := by
  intro n hn
  obtain ⟨b, hb, rfl⟩ := List.mem_map.mp hn
  exact h b (Option.mem_toList.mp hb)

theorem mem_items_le {s : SignScript} {script : Option Bytes} (h : ∀ b ∈ script, b.length ≤ 1059) :
    ∀ n ∈ s.stack ++ script.toList.map List.length, n ≤ 1059 := by
  intro n hn
  rcases List.mem_append.mp hn with hn | hn
  · have := s.stack_le n hn
    omega
  · exact lengths_le h n hn

theorem length_redeem_le (script : Option Bytes) : (script.toList.map List.length).length ≤ 18 := by
  cases script <;> simp

theorem SignScript.items_ne_nil (s : SignScript) (script : Option Bytes) :
    s.stack ++ script.toList.map List.length ≠ [] := by
  cases s <;> simp [stack]

theorem length_items_le (s : SignScript) (script : Option Bytes) :
    (s.stack ++ script.toList.map List.length).length ≤ 18 := by
  have := s.length_stack_le
  have : (script.toList.map List.length).length ≤ 1 := by cases script <;> simp
  rw [List.length_append]
  omega

/-- What is pushed is far below the limits of a length. -/
theorem sum_pushes_le {items : List Nat} (h : ∀ n ∈ items, n ≤ 1059) (hl : items.length ≤ 18) :
    (items.map fun n => pushSize n + n).sum ≤ 18 * 1064 := by
  refine sum_le (fun n hn => ?_) hl
  have := h n hn
  have := pushSize_le n
  omega

end Bitcoin
