import Blocktrail.Bitcoin.Script

/-! # What kind of output a script is

`decompile`, the templates of `bitcoinjs-lib` that need it, and `classifyOutput`.
-/

namespace Bitcoin

/-! ## `decompile` -/

/-- `pushdata.decode`, of a script that starts with a push: the size of the opcode with its number, and the number. -/
def pushdataDecode : Bytes → Option (Nat × Nat)
  | [] => none
  | opcode :: rest =>
    if opcode < OP_PUSHDATA1 then some (1, opcode.toNat)
    else if opcode = OP_PUSHDATA1 then
      match rest with
      | a :: _ => some (2, a.toNat)
      | _ => none
    else if opcode = OP_PUSHDATA2 then
      match rest with
      | a :: b :: _ => some (3, a.toNat + 256 * b.toNat)
      | _ => none
    else
      match rest with
      | a :: b :: c :: d :: _ => some (5, a.toNat + 256 * b.toNat + 65536 * c.toNat + 16777216 * d.toNat)
      | _ => none

/-- A buffer is decompiled to the opcode that is the minimal push of it. -/
def minimalChunk (data : Bytes) : Chunk :=
  match asMinimalOP data with
  | some op => .op op
  | none => .data data

/-- The loop of `decompile`, which takes a byte at least in each turn; `none` is an empty script. -/
def decompileFrom : Nat → Bytes → Option (List Chunk)
  | 0, _ => some []
  | _ + 1, [] => some []
  | fuel + 1, opcode :: rest =>
    if OP_0 < opcode ∧ opcode ≤ OP_PUSHDATA4 then
      match pushdataDecode (opcode :: rest) with
      | none => none
      | some (size, number) =>
        let tail := (opcode :: rest).drop size
        if tail.length < number then none
        else (decompileFrom fuel (tail.drop number)).map (minimalChunk (tail.take number) :: ·)
    else (decompileFrom fuel rest).map (.op opcode :: ·)

/-- `bscript.decompile`. -/
def decompile (script : Bytes) : List Chunk := (decompileFrom script.length script).getD []

/-! ## Templates -/

/-- `bscript.isCanonicalPubKey`, of a buffer. -/
def isCanonicalPubKey (buffer : Bytes) : Bool :=
  match buffer.head? with
  | some 0x02 => buffer.length == 33
  | some 0x03 => buffer.length == 33
  | some 0x04 => buffer.length == 65
  | _ => false

def Chunk.isPubKey : Chunk → Bool
  | .op _ => false
  | .data buffer => isCanonicalPubKey buffer

def Chunk.isOp (code : Byte) : Chunk → Bool
  | .op c => c == code
  | .data _ => false

/-- `chunk - OP_INT_BASE`, of a chunk that is a number. -/
def Chunk.smallInt : Chunk → Option Int
  | .op code => some ((code.toNat : Int) - OP_INT_BASE.toNat)
  | .data _ => none

/-- `multisig.output.decode`, where `multisig.output.check` holds: `m` and the keys. -/
def multisigDecode (chunks : List Chunk) : Option (Nat × List Bytes) :=
  match chunks.head?.bind Chunk.smallInt, chunks.dropLast.getLast?.bind Chunk.smallInt with
  | some m, some n =>
    let keys := (chunks.drop 1).dropLast.dropLast
    if chunks.length < 4 ∨ (chunks.getLast?.map (Chunk.isOp OP_CHECKMULTISIG)) ≠ some true ∨ m ≤ 0 ∨ n > 16 ∨ m > n ∨
        n ≠ chunks.length - 3 ∨ ¬keys.all Chunk.isPubKey then none
    else
      some (m.toNat, keys.filterMap fun
        | .data key => some key
        | .op _ => none)
  | _, _ => none

/-- `pubKey.output.decode`, where `pubKey.output.check` holds. -/
def pubKeyDecode : List Chunk → Option Bytes
  | [.data key, .op op] => if isCanonicalPubKey key ∧ op = OP_CHECKSIG then some key else none
  | _ => none

/-- `0xaa21a9ed`. -/
def commitmentHeader : Bytes := [0xaa, 0x21, 0xa9, 0xed]

def isWitnessCommitmentOutput (chunks : List Chunk) : Bool :=
  let buffer := compile chunks
  37 < buffer.length && buffer[0]? == some OP_RETURN && buffer[1]? == some 0x24 &&
    slice buffer 2 6 == commitmentHeader

def isNullDataOutput (chunks : List Chunk) : Bool :=
  let buffer := compile chunks
  1 < buffer.length && buffer[0]? == some OP_RETURN

/-- `bitcoin.script.types`. -/
inductive OutputType
  | MULTISIG
  | NONSTANDARD
  | NULLDATA
  | P2PK
  | P2PKH
  | P2SH
  | P2WPKH
  | P2WSH
  | WITNESS_COMMITMENT
deriving DecidableEq

def classifyOutput (script : Bytes) : OutputType :=
  if isWitnessPubKeyHashOutput script then .P2WPKH
  else if isWitnessScriptHashOutput script then .P2WSH
  else if isPubKeyHashOutput script then .P2PKH
  else if isScriptHashOutput script then .P2SH
  else if (multisigDecode (decompile script)).isSome then .MULTISIG
  else if (pubKeyDecode (decompile script)).isSome then .P2PK
  else if isWitnessCommitmentOutput (decompile script) then .WITNESS_COMMITMENT
  else if isNullDataOutput (decompile script) then .NULLDATA
  else .NONSTANDARD

/-! ## Scripts of opcodes and pushes -/

/-- A chunk that `compile` writes as it is and `decompile` reads again. -/
def Chunk.Plain : Chunk → Prop
  | .op code => ¬(OP_0 < code ∧ code ≤ OP_PUSHDATA4)
  | .data buffer => 2 ≤ buffer.length ∧ buffer.length < 76

theorem minimalChunk_of_length {buffer : Bytes} (h : 2 ≤ buffer.length) : minimalChunk buffer = .data buffer := by
  match buffer, h with
  | _ :: _ :: _, _ => rfl

theorem decompileFrom_cons_op {op : Byte} (h : ¬(OP_0 < op ∧ op ≤ OP_PUSHDATA4)) (fuel : Nat) (rest : Bytes) :
    decompileFrom (fuel + 1) (op :: rest) = (decompileFrom fuel rest).map (.op op :: ·) := by
  rw [decompileFrom, if_neg h]

theorem pushdataDecode_short {opcode : Byte} (h : opcode < OP_PUSHDATA1) (rest : Bytes) :
    pushdataDecode (opcode :: rest) = some (1, opcode.toNat) := by
  unfold pushdataDecode
  exact if_pos h

theorem decompileFrom_push {buffer : Bytes} (h2 : 2 ≤ buffer.length) (h76 : buffer.length < 76) (fuel : Nat)
    (rest : Bytes) : decompileFrom (fuel + 1) (UInt8.ofNat buffer.length :: (buffer ++ rest)) =
      (decompileFrom fuel rest).map (.data buffer :: ·) := by
  have hn : (UInt8.ofNat buffer.length).toNat = buffer.length := by
    rw [UInt8.toNat_ofNat']
    omega
  have hlt : UInt8.ofNat buffer.length < OP_PUSHDATA1 := by
    rw [UInt8.lt_iff_toNat_lt, hn]
    exact h76
  have hpush : OP_0 < UInt8.ofNat buffer.length ∧ UInt8.ofNat buffer.length ≤ OP_PUSHDATA4 := by
    rw [UInt8.lt_iff_toNat_lt, UInt8.le_iff_toNat_le, hn]
    exact ⟨show 0 < buffer.length by omega, show buffer.length ≤ 78 by omega⟩
  have hlen : ¬(buffer ++ rest).length < buffer.length := by
    rw [List.length_append]
    omega
  rw [decompileFrom, if_pos hpush, pushdataDecode_short hlt, hn]
  dsimp only
  rw [List.drop_succ_cons, List.drop_zero, if_neg hlen, List.take_left, List.drop_left, minimalChunk_of_length h2]

/-- Enough fuel is as good as any. -/
theorem decompileFrom_compile {chunks : List Chunk} (h : ∀ c ∈ chunks, c.Plain) {fuel : Nat}
    (hf : chunks.length ≤ fuel) : decompileFrom fuel (compile chunks) = some chunks := by
  induction chunks generalizing fuel with
  | nil => cases fuel <;> rfl
  | cons c chunks ih =>
    obtain ⟨fuel, rfl⟩ : ∃ k, fuel = k + 1 := ⟨fuel - 1, by rw [List.length_cons] at hf; omega⟩
    have hfuel : chunks.length ≤ fuel := by
      rw [List.length_cons] at hf
      omega
    have hrest := ih (fun c' hc' => h c' (List.mem_cons_of_mem c hc')) hfuel
    have hc := h c List.mem_cons_self
    have hcompile : compile (c :: chunks) = compileChunk c ++ compile chunks := rfl
    rw [hcompile]
    cases c with
    | op op =>
      rw [compileChunk, List.singleton_append, decompileFrom_cons_op hc, hrest]
      rfl
    | data buffer =>
      rw [compileChunk_data hc.1 hc.2, List.cons_append, decompileFrom_push hc.1 hc.2, hrest]
      rfl

theorem length_le_compile {chunks : List Chunk} (h : ∀ c ∈ chunks, c.Plain) :
    chunks.length ≤ (compile chunks).length := by
  induction chunks with
  | nil => exact Nat.le_refl 0
  | cons c chunks ih =>
    have hrest := ih fun c' hc' => h c' (List.mem_cons_of_mem c hc')
    have hc := h c List.mem_cons_self
    have hpos : 1 ≤ (compileChunk c).length := by
      cases c with
      | op _ => simp [compileChunk]
      | data buffer =>
        rw [compileChunk_data hc.1 hc.2]
        simp
    have hcompile : compile (c :: chunks) = compileChunk c ++ compile chunks := rfl
    rw [hcompile, List.length_append, List.length_cons]
    omega

/-- **Round trip.** What is compiled from opcodes and short pushes is decompiled to them. -/
theorem decompile_compile {chunks : List Chunk} (h : ∀ c ∈ chunks, c.Plain) : decompile (compile chunks) = chunks := by
  rw [decompile, decompileFrom_compile h (length_le_compile h)]
  rfl

/-! ## The first byte -/

theorem not_hashOutput {opcode : Byte} {rest : Bytes} (h0 : opcode ≠ OP_0) (h1 : opcode ≠ OP_DUP)
    (h2 : opcode ≠ OP_HASH160) :
    isWitnessPubKeyHashOutput (opcode :: rest) = false ∧ isWitnessScriptHashOutput (opcode :: rest) = false ∧
      isPubKeyHashOutput (opcode :: rest) = false ∧ isScriptHashOutput (opcode :: rest) = false := by
  simp [isWitnessPubKeyHashOutput, isWitnessScriptHashOutput, isPubKeyHashOutput, isScriptHashOutput, h0, h1, h2]

/-! ## Standard outputs -/

abbrev CanonicalKey := { key : Bytes // isCanonicalPubKey key = true }

theorem length_of_isCanonicalPubKey {key : Bytes} (h : isCanonicalPubKey key = true) :
    key.length = 33 ∨ key.length = 65 := by
  unfold isCanonicalPubKey at h
  split at h
  · exact Or.inl (by simpa using h)
  · exact Or.inl (by simpa using h)
  · exact Or.inr (by simpa using h)
  · cases h

theorem isCanonicalPubKey_bytes (key : PubKey) : isCanonicalPubKey key.bytes = true := by
  have hl := key.length_eq
  rcases key.compressed with h | h
  · simp [isCanonicalPubKey, h, hl]
  · simp [isCanonicalPubKey, h, hl]

/-- An `m` of `n` multisig. -/
structure Multisig where
  m : Nat
  keys : List CanonicalKey
  pos : 1 ≤ m
  le : m ≤ keys.length
  n_le : keys.length ≤ 16

def pubKeyOutput (key : Bytes) : Bytes := compile [.data key, .op OP_CHECKSIG]

namespace Multisig

variable (t : Multisig)

def chunks : List Chunk :=
  .op (OP_INT_BASE + UInt8.ofNat t.m) :: (t.keys.map (.data ·.val) ++
    [.op (OP_INT_BASE + UInt8.ofNat t.keys.length), .op OP_CHECKMULTISIG])

/-- `multisig.output.encode`. -/
def script : Bytes := compile t.chunks

theorem toNat_opInt {k : Nat} (h : k ≤ 16) : (OP_INT_BASE + UInt8.ofNat k).toNat = 80 + k := by
  rw [UInt8.toNat_add, UInt8.toNat_ofNat']
  show (80 + k % 256) % 256 = 80 + k
  omega

theorem plain_opInt {k : Nat} (h : k ≤ 16) (h1 : 1 ≤ k) : (Chunk.op (OP_INT_BASE + UInt8.ofNat k)).Plain := by
  rintro ⟨-, hle⟩
  rw [UInt8.le_iff_toNat_le, toNat_opInt h] at hle
  have hle' : 80 + k ≤ 78 := hle
  omega

theorem plain_chunks : ∀ c ∈ t.chunks, c.Plain := by
  have hm := t.pos
  have hle := t.le
  have hn := t.n_le
  intro c hc
  simp only [chunks, List.mem_cons, List.mem_append, List.mem_map, List.not_mem_nil, or_false] at hc
  rcases hc with rfl | ⟨key, -, rfl⟩ | rfl | rfl
  · exact plain_opInt (by omega) hm
  · have hl := length_of_isCanonicalPubKey key.property
    exact ⟨by omega, by omega⟩
  · exact plain_opInt hn (by omega)
  · show ¬(OP_0 < OP_CHECKMULTISIG ∧ OP_CHECKMULTISIG ≤ OP_PUSHDATA4)
    decide

theorem decompile_script : decompile t.script = t.chunks := decompile_compile t.plain_chunks

theorem multisigDecode_script : multisigDecode (decompile t.script) = some (t.m, t.keys.map (·.val)) := by
  have hm := t.pos
  have hle := t.le
  have hn := t.n_le
  have hhead : t.chunks.head?.bind Chunk.smallInt = some (t.m : Int) := by
    show some (((OP_INT_BASE + UInt8.ofNat t.m).toNat : Int) - OP_INT_BASE.toNat) = _
    rw [toNat_opInt (by omega)]
    show some (((80 + t.m : Nat) : Int) - 80) = _
    congr 1
    omega
  have hdrop : t.chunks.dropLast = .op (OP_INT_BASE + UInt8.ofNat t.m) ::
      (t.keys.map (.data ·.val) ++ [.op (OP_INT_BASE + UInt8.ofNat t.keys.length)]) := by
    rw [chunks, List.dropLast_cons_of_ne_nil (by simp)]
    simp [List.dropLast_append_of_ne_nil]
  have hlast : t.chunks.dropLast.getLast?.bind Chunk.smallInt = some (t.keys.length : Int) := by
    rw [hdrop, List.getLast?_cons, List.getLast?_append]
    show some (((OP_INT_BASE + UInt8.ofNat t.keys.length).toNat : Int) - OP_INT_BASE.toNat) = _
    rw [toNat_opInt hn]
    show some (((80 + t.keys.length : Nat) : Int) - 80) = _
    congr 1
    omega
  have hkeys : (t.chunks.drop 1).dropLast.dropLast = t.keys.map (.data ·.val) := by
    simp [chunks, List.dropLast_append_of_ne_nil]
  have hlength : t.chunks.length = t.keys.length + 3 := by
    simp [chunks]
  have hcheck : t.chunks.getLast?.map (Chunk.isOp OP_CHECKMULTISIG) = some true := by
    rw [chunks, List.getLast?_cons, List.getLast?_append]
    rfl
  rw [decompile_script, multisigDecode, hhead, hlast]
  dsimp only
  rw [hkeys, hcheck, hlength, if_neg]
  · simp [List.filterMap_map]
  · have hall : (t.keys.map (Chunk.data ·.val)).all Chunk.isPubKey = true := by
      simp only [List.all_map, List.all_eq_true, Function.comp_apply]
      exact fun key _ => key.property
    rw [hall]
    simp only [ne_eq, not_true_eq_false, or_false, false_or]
    omega

theorem not_hashOutput_script :
    isWitnessPubKeyHashOutput t.script = false ∧ isWitnessScriptHashOutput t.script = false ∧
      isPubKeyHashOutput t.script = false ∧ isScriptHashOutput t.script = false := by
  have hm := t.pos
  have hle := t.le
  have hn := t.n_le
  have hop : (OP_INT_BASE + UInt8.ofNat t.m).toNat = 80 + t.m := toNat_opInt (by omega)
  have hne (c : Byte) (hc : c.toNat < 81 ∨ 96 < c.toNat) : OP_INT_BASE + UInt8.ofNat t.m ≠ c := by
    rintro rfl
    omega
  exact not_hashOutput (hne OP_0 (Or.inl (by decide))) (hne OP_DUP (Or.inr (by decide)))
    (hne OP_HASH160 (Or.inr (by decide)))

theorem classifyOutput_script : classifyOutput t.script = .MULTISIG := by
  obtain ⟨h1, h2, h3, h4⟩ := t.not_hashOutput_script
  simp [classifyOutput, h1, h2, h3, h4, multisigDecode_script]

theorem length_compile_keys (keys : List CanonicalKey) :
    (compile (keys.map (.data ·.val))).length = (keys.map fun key => 1 + key.val.length).sum := by
  induction keys with
  | nil => rfl
  | cons key keys ih =>
    have hl := length_of_isCanonicalPubKey key.property
    have hcompile : compile ((key :: keys).map (.data ·.val)) =
        compileChunk (.data key.val) ++ compile (keys.map (.data ·.val)) := rfl
    rw [hcompile, compileChunk_data (by omega) (by omega), List.length_append, ih, List.length_cons, List.map_cons,
      List.sum_cons]
    omega

theorem length_script : t.script.length = 3 + (t.keys.map fun key => 1 + key.val.length).sum := by
  have hscript : t.script = [OP_INT_BASE + UInt8.ofNat t.m] ++ compile (t.keys.map (.data ·.val)) ++
      [OP_INT_BASE + UInt8.ofNat t.keys.length, OP_CHECKMULTISIG] := by
    rw [script, chunks, compile, compile, List.flatMap_cons, List.flatMap_append]
    simp [compileChunk]
  rw [hscript, List.length_append, List.length_append, length_compile_keys]
  simp only [List.length_cons, List.length_nil]
  omega

theorem exists_length_keys (keys : List CanonicalKey) : ∃ compressed uncompressed,
    compressed + uncompressed = keys.length ∧
      (keys.map fun key => 1 + key.val.length).sum = 34 * compressed + 66 * uncompressed := by
  induction keys with
  | nil => exact ⟨0, 0, rfl, rfl⟩
  | cons key keys ih =>
    obtain ⟨a, b, hlength, hsum⟩ := ih
    rw [List.map_cons, List.sum_cons, List.length_cons, hsum]
    rcases length_of_isCanonicalPubKey key.property with hl | hl
    · exact ⟨a + 1, b, by omega, by omega⟩
    · exact ⟨a, b + 1, by omega, by omega⟩

theorem length_script_le : t.script.length ≤ 1059 := by
  have hn := t.n_le
  obtain ⟨a, b, hlength, hsum⟩ := exists_length_keys t.keys
  rw [length_script, hsum]
  omega

end Multisig

/-! ## Keys and hashes -/

theorem pubKeyOutput_eq (key : CanonicalKey) :
    pubKeyOutput key.val = UInt8.ofNat key.val.length :: (key.val ++ [OP_CHECKSIG]) := by
  have hl := length_of_isCanonicalPubKey key.property
  have hcompile : pubKeyOutput key.val = compileChunk (.data key.val) ++ [OP_CHECKSIG] := rfl
  rw [hcompile, compileChunk_data (by omega) (by omega)]
  rfl

theorem decompile_pubKeyOutput (key : CanonicalKey) :
    decompile (pubKeyOutput key.val) = [.data key.val, .op OP_CHECKSIG] := by
  have hl := length_of_isCanonicalPubKey key.property
  refine decompile_compile fun c hc => ?_
  simp only [List.mem_cons, List.not_mem_nil, or_false] at hc
  rcases hc with rfl | rfl
  · exact ⟨by omega, by omega⟩
  · show ¬(OP_0 < OP_CHECKSIG ∧ OP_CHECKSIG ≤ OP_PUSHDATA4)
    decide

theorem multisigDecode_pubKeyOutput (key : CanonicalKey) : multisigDecode (decompile (pubKeyOutput key.val)) = none := by
  rw [decompile_pubKeyOutput]
  rfl

theorem pubKeyDecode_pubKeyOutput (key : CanonicalKey) :
    pubKeyDecode (decompile (pubKeyOutput key.val)) = some key.val := by
  rw [decompile_pubKeyOutput, pubKeyDecode, if_pos ⟨key.property, rfl⟩]

theorem not_hashOutput_pubKeyOutput (key : CanonicalKey) :
    isWitnessPubKeyHashOutput (pubKeyOutput key.val) = false ∧
      isWitnessScriptHashOutput (pubKeyOutput key.val) = false ∧
      isPubKeyHashOutput (pubKeyOutput key.val) = false ∧ isScriptHashOutput (pubKeyOutput key.val) = false := by
  rw [pubKeyOutput_eq]
  rcases length_of_isCanonicalPubKey key.property with hl | hl
  · rw [hl]
    exact not_hashOutput (by decide) (by decide) (by decide)
  · rw [hl]
    exact not_hashOutput (by decide) (by decide) (by decide)

theorem classifyOutput_pubKeyOutput (key : CanonicalKey) : classifyOutput (pubKeyOutput key.val) = .P2PK := by
  obtain ⟨h1, h2, h3, h4⟩ := not_hashOutput_pubKeyOutput key
  simp [classifyOutput, h1, h2, h3, h4, multisigDecode_pubKeyOutput, pubKeyDecode_pubKeyOutput]

theorem pubKeyHashOutput_eq (h : Hash160) :
    pubKeyHashOutput h = OP_DUP :: OP_HASH160 :: 0x14 :: (h.val ++ [OP_EQUALVERIFY, OP_CHECKSIG]) := by
  have hl := h.property
  have hcompile : pubKeyHashOutput h =
      [OP_DUP, OP_HASH160] ++ (compileChunk (.data h.val) ++ [OP_EQUALVERIFY, OP_CHECKSIG]) := rfl
  rw [hcompile, compileChunk_data (by omega) (by omega), hl]
  rfl

theorem isPubKeyHashOutput_pubKeyHashOutput (h : Hash160) : isPubKeyHashOutput (pubKeyHashOutput h) = true := by
  have hl := h.property
  simp [isPubKeyHashOutput, pubKeyHashOutput_eq, hl]

theorem decompile_pubKeyHashOutput (h : Hash160) : decompile (pubKeyHashOutput h) =
    [.op OP_DUP, .op OP_HASH160, .data h.val, .op OP_EQUALVERIFY, .op OP_CHECKSIG] := by
  have hl := h.property
  have hplain {code : Byte} (hc : OP_PUSHDATA4 < code) : (Chunk.op code).Plain :=
    fun hop => absurd hop.2 (UInt8.not_le.mpr hc)
  refine decompile_compile fun c hc => ?_
  simp only [List.mem_cons, List.not_mem_nil, or_false] at hc
  rcases hc with rfl | rfl | rfl | rfl | rfl
  · exact hplain (by decide)
  · exact hplain (by decide)
  · exact ⟨by omega, by omega⟩
  · exact hplain (by decide)
  · exact hplain (by decide)

theorem decode_pubKeyHashOutput (h : Hash160) :
    multisigDecode (decompile (pubKeyHashOutput h)) = none ∧ pubKeyDecode (decompile (pubKeyHashOutput h)) = none := by
  rw [decompile_pubKeyHashOutput]
  exact ⟨rfl, rfl⟩

theorem not_witnessOutput_pubKeyHashOutput (h : Hash160) :
    isWitnessPubKeyHashOutput (pubKeyHashOutput h) = false ∧ isWitnessScriptHashOutput (pubKeyHashOutput h) = false ∧
      isScriptHashOutput (pubKeyHashOutput h) = false := by
  rw [pubKeyHashOutput_eq]
  simp [isWitnessPubKeyHashOutput, isWitnessScriptHashOutput, isScriptHashOutput, OP_0, OP_DUP, OP_HASH160]

theorem classifyOutput_pubKeyHashOutput (h : Hash160) : classifyOutput (pubKeyHashOutput h) = .P2PKH := by
  obtain ⟨h1, h2, -⟩ := not_witnessOutput_pubKeyHashOutput h
  simp [classifyOutput, h1, h2, isPubKeyHashOutput_pubKeyHashOutput]

/-! ## Programs -/

theorem witnessPubKeyHashOutput_eq (h : Hash160) : witnessPubKeyHashOutput h = OP_0 :: 0x14 :: h.val := by
  have hl := h.property
  have hcompile : witnessPubKeyHashOutput h = [OP_0] ++ (compileChunk (.data h.val) ++ []) := rfl
  rw [hcompile, compileChunk_data (by omega) (by omega), hl, List.append_nil]
  rfl

theorem witnessScriptHashOutput_eq (h : Hash256) : witnessScriptHashOutput h = OP_0 :: 0x20 :: h.val := by
  have hl := h.property
  have hcompile : witnessScriptHashOutput h = [OP_0] ++ (compileChunk (.data h.val) ++ []) := rfl
  rw [hcompile, compileChunk_data (by omega) (by omega), hl, List.append_nil]
  rfl

theorem isWitnessPubKeyHashOutput_self (h : Hash160) :
    isWitnessPubKeyHashOutput (witnessPubKeyHashOutput h) = true ∧
      isScriptHashOutput (witnessPubKeyHashOutput h) = false := by
  have hl := h.property
  simp [isWitnessPubKeyHashOutput, isScriptHashOutput, witnessPubKeyHashOutput_eq, hl, OP_0, OP_HASH160]

theorem isWitnessScriptHashOutput_self (h : Hash256) :
    isWitnessScriptHashOutput (witnessScriptHashOutput h) = true ∧
      isWitnessPubKeyHashOutput (witnessScriptHashOutput h) = false ∧
      isScriptHashOutput (witnessScriptHashOutput h) = false := by
  have hl := h.property
  simp [isWitnessScriptHashOutput, isWitnessPubKeyHashOutput, isScriptHashOutput, witnessScriptHashOutput_eq, hl, OP_0,
    OP_HASH160]

end Bitcoin
