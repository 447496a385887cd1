import Mathlib.Data.List.Dedup
import Blocktrail.Lib.Assoc
import Blocktrail.Lib.Rejection
import Blocktrail.SimplyRandom.Shuffle

/-! # Calls that return -/

open Text Rejection

namespace SimplyRandom

/-! ## Arguments -/

/-- A list whose count is an integer of PHP. -/
abbrev Counted (α : Type) := {l : List α // l.length ≤ PHP_INT_MAX}

/-- What `choose` and `shuffle` are given: the entries of an array with their keys, the properties of an object that can
be seen, or what is no sequence. -/
inductive Value (α : Type)
  | string (s : Counted Byte)
  | array (entries : Counted (Str × α))
  | object (properties : Counted (Str × α))
  | other

inductive Element (α : Type)
  | byte (b : Byte)
  | value (a : α)

/-- An alphabet. An element of an array is known by the text it is joined with. -/
inductive Alphabet
  | string (s : Counted Byte)
  | array (entries : Counted (Str × Bytes))
  | other

structure InvalidArgumentException where
  message : Str

/-! ## The class -/

/-- The loop of `int`: the integer, and what is drawn after it. -/
def intFrom (fuel : Nat) (min max : Int) (draws : List Bytes) : Option (Int × List Bytes) := do
  let bits ← intBits fuel min max
  let (result, draws) ← first (fun test =>
    let result := masked (intMask bits) test
    if (result : Int) > intSub max min then none else some result) draws
  return ((result : Int) + min, draws)

/-- `$value` as it is indexed. -/
def Value.elements {α : Type} : Value α → Option (List (Element α))
  | string s => some (s.val.map .byte)
  | array entries => some (entries.val.map fun entry => .value entry.2)
  | object properties => some (properties.val.map fun property => .value property.2)
  | other => none

/-- `choose($value)`. What is not there is `null`, here `none`. -/
def choose {α : Type} (fuel : Nat) (value : Value α) (draws : List Bytes) :
    Except InvalidArgumentException (Option (Option (Element α) × List Bytes)) :=
  match value.elements with
  | none => .error ⟨"Unsure what to choose from, please provide a string, array or object"⟩
  | some elements => .ok do
    let (i, draws) ← intFrom fuel 0 ((elements.length : Int) - 1) draws
    return (elements[i.toNat]?, draws)

/-- `shuffle($value)`, of a string or of the values. -/
def shuffleValue {α : Type} (value : Value (Option α)) (seeds : List Bytes) :
    Except InvalidArgumentException (Option (Bytes ⊕ List (Option α))) :=
  match value with
  | .string s => .ok ((shuffleString s.val seeds).map .inl)
  | .array entries => .ok ((shuffle (entries.val.map Prod.snd) seeds).map .inr)
  | .object properties => .ok ((shuffle (properties.val.map Prod.snd) seeds).map .inr)
  | .other => .error ⟨"Unsure what to shuffle, please provide a string, array or object"⟩

def Alphabet.letters : Alphabet → Option (List Bytes)
  | string s => some (strSplit s.val)
  | array entries => some (entries.val.map Prod.snd)
  | other => none

/-- `array_unique($alphabet)`: the first of equal elements keeps its key. -/
def arrayUnique (letters : List Bytes) : List (Nat × Bytes) :=
  (letters.zipIdx.filter fun entry => entry.1 ∉ letters.take entry.2).map Prod.swap

/-- The loop of `token`. A key that is not there is joined as an empty string. -/
def tokenLoop (fuel : Nat) (alphabet : List (Nat × Bytes)) : Nat → Bytes → List Bytes → Option (Bytes × List Bytes)
  | 0, result, draws => some (result, draws)
  | length + 1, result, draws => do
    let (i, draws) ← intFrom fuel 0 ((alphabet.length : Int) - 1) draws
    tokenLoop fuel alphabet length (result ++ (alphabet.lookup i.toNat).getD []) draws

/-- `token($length, $alphabet)`. -/
def token (fuel : Nat) (length : Int) (alphabet : Alphabet) (draws : List Bytes) :
    Except InvalidArgumentException (Option (Bytes × List Bytes)) :=
  match alphabet.letters with
  | none => .error ⟨"Expecting either a String or Array alphabet"⟩
  | some letters => .ok (tokenLoop fuel (arrayUnique letters) length.toNat [] draws)

/-! ## Calls that end -/

/-- A call that draws `n` integers of a range: the bits are counted, some draw is accepted, and once `n` draws have been
accepted it returns what it may return. -/
structure Returns {β : Type} (n : Nat) (min max : Int) (good : β → Prop)
    (call : Nat → List Bytes → Option (β × List Bytes)) : Prop where
  counts : 0 < n → ∃ fuel bits, intBits fuel min max = some bits
  accepts : ∀ fuel bits, intBits fuel min max = some bits →
    ∃ test, test.length = bytesFor bits ∧ (int fuel min max [test]).isSome = true
  returns : ∀ fuel draws rest, Served (fun test => int fuel min max [test]) n draws rest →
    ∃ b, call fuel draws = some (b, rest) ∧ good b

/-- A call of `choose`, `shuffle`, `token` or `int`. -/
inductive Call (α : Type)
  | int (min max : Int64)
  | choose (value : Value (Option α))
  | shuffle (value : Value (Option α))
  | token (length : Int) (alphabet : Alphabet)

/-- The elements that `shuffle` takes out of its buffer. -/
def Value.count {α : Type} : Value α → Nat
  | string s => (strSplit s.val).length
  | array entries => entries.val.length
  | object properties => properties.val.length
  | other => 0

/-- The text is made of as many letters. -/
def IsToken (letters : List Bytes) (length : Nat) (text : Bytes) : Prop :=
  ∃ pieces : List Bytes, pieces.length = length ∧ (∀ piece ∈ pieces, piece ∈ letters) ∧ text = pieces.flatten

/-- The call throws, or it ends as soon as enough is drawn. A shuffle needs a seed for each element at most. -/
def Call.Ends {α : Type} : Call α → Prop
  | int min max => Returns 1 min.toInt max.toInt (fun _ => True) fun fuel draws => intFrom fuel min.toInt max.toInt draws
  | choose value =>
    (∀ fuel draws, ∃ e, SimplyRandom.choose fuel value draws = .error e) ∨
      ∃ elements call, value.elements = some elements ∧
        (∀ fuel draws, SimplyRandom.choose fuel value draws = .ok (call fuel draws)) ∧
        Returns 1 0 ((elements.length : Int) - 1) (fun e => ∃ element ∈ elements, e = some element) call
  | shuffle value =>
    (∀ seeds, ∃ e, shuffleValue value seeds = .error e) ∨
      (∀ count ≤ value.count, ∃ fuel bits, countBits fuel count = some bits) ∧
        ∀ seeds, Seeds value.count seeds → value.count ≤ seeds.length →
          ∃ result, shuffleValue value seeds = .ok (some result)
  | token length alphabet =>
    (∀ fuel draws, ∃ e, SimplyRandom.token fuel length alphabet draws = .error e) ∨
      ∃ letters call, alphabet.letters = some letters ∧
        (∀ fuel draws, SimplyRandom.token fuel length alphabet draws = .ok (call fuel draws)) ∧
        Returns length.toNat 0 (((arrayUnique letters).length : Int) - 1) (IsToken letters length.toNat) call

/-- The difference is no negative integer, also not by overflow. -/
def FitsRange (difference : Int) : Prop :=
  0 ≤ difference ∧ difference < 2 ^ 63 ∨ difference < -2 ^ 63 ∨ difference = 2 ^ 64

def Call.Draws {α : Type} : Call α → Prop
  | int min max => FitsRange (difference max.toInt min.toInt)
  | choose value => value.elements ≠ some []
  | shuffle value =>
    match value with
    | .array entries => none ∉ entries.val.map Prod.snd
    | .object properties => none ∉ properties.val.map Prod.snd
    | _ => True
  | token length alphabet =>
    ∀ letters, alphabet.letters = some letters →
      length ≤ 0 ∨ letters ≠ [] ∧ ((letters.take letters.dedup.length).Nodup ∨ [] ∈ letters)

/-! ## The bit count -/

theorem countBits_of_neg (fuel : Nat) {number : Int} (h : number < 0) : countBits fuel number = none := by
  induction fuel generalizing number with
  | zero => rfl
  | succ fuel ih =>
    have hshift : number >>> (1 : Nat) < 0 := by
      rw [Int.shiftRight_eq_div_pow]
      omega
    unfold countBits
    simp only [if_neg (Int.ne_of_lt hshift), ih hshift, Option.map_none]

theorem countBits_succ {fuel : Nat} {number : Int} {bits : Nat} (h : countBits fuel number = some bits) :
    countBits (fuel + 1) number = some bits := by
  induction fuel generalizing number bits with
  | zero => cases h
  | succ fuel ih =>
    unfold countBits at h ⊢
    dsimp only at h ⊢
    split at h
    next hzero => rw [if_pos hzero, h]
    next hzero =>
      obtain ⟨rest, hrest, rfl⟩ := Option.map_eq_some_iff.mp h
      rw [if_neg hzero, ih hrest]
      rfl

theorem countBits_add {fuel : Nat} {number : Int} {bits : Nat} (h : countBits fuel number = some bits) (k : Nat) :
    countBits (fuel + k) number = some bits := by
  induction k with
  | zero => exact h
  | succ k ih => exact countBits_succ ih

theorem countBits_eq_log2 {fuel n bits : Nat} (h : countBits fuel n = some bits) : bits = Nat.log2 n := by
  have hlt : n < 2 ^ (fuel + (n + 1)) :=
    Nat.lt_trans Nat.lt_two_pow_self (Nat.pow_lt_pow_right (by decide) (by omega))
  have heq := countBits_eq hlt (by omega)
  rw [countBits_add h] at heq
  exact Option.some.inj heq

theorem exists_countBits (n : Nat) : ∃ fuel bits, countBits fuel n = some bits :=
  ⟨n + 1, _, countBits_eq (Nat.lt_trans Nat.lt_two_pow_self (Nat.pow_lt_pow_right (by decide) (Nat.lt_succ_self n)))
    (Nat.succ_pos n)⟩

/-! ## The draws of `int` -/

section Draws

variable {fuel bits : Nat} {min max : Int}

theorem intSub_lt (a b : Int) : intSub a b ≤ PHP_INT_MAX := by
  have h := @Int.bmod_lt (difference a b) (2 ^ 64) (by decide)
  unfold intSub PHP_INT_MAX
  omega

theorem exists_intBits_iff : (∃ fuel bits, intBits fuel min max = some bits) ↔ 0 ≤ intSub max min := by
  constructor
  · rintro ⟨fuel, bits, h⟩
    by_contra hneg
    unfold intBits at h
    rw [countBits_of_neg fuel (by omega)] at h
    cases h
  · intro h
    obtain ⟨n, hn⟩ := Int.eq_ofNat_of_zero_le h
    obtain ⟨fuel, bits, hbits⟩ := exists_countBits n
    refine ⟨fuel, bits + 1, ?_⟩
    unfold intBits
    rw [hn, hbits]
    rfl

theorem exists_size (h : intBits fuel min max = some bits) :
    ∃ n : Nat, intSub max min = n ∧ bits = Nat.log2 n + 1 ∧ n ≤ PHP_INT_MAX := by
  obtain ⟨n, hn⟩ := Int.eq_ofNat_of_zero_le (exists_intBits_iff.mp ⟨fuel, bits, h⟩)
  have hle := intSub_lt max min
  refine ⟨n, hn, ?_, by omega⟩
  unfold intBits at h
  rw [hn] at h
  obtain ⟨log, hlog, rfl⟩ := Option.map_eq_some_iff.mp h
  rw [countBits_eq_log2 hlog]

theorem log2_lt {n : Nat} (h : n ≤ PHP_INT_MAX) : Nat.log2 n + 1 ≤ 63 := (⟨0, n, h⟩ : Range).bits_le

theorem exists_of_int {test : Bytes} {v : Int} (h : int fuel min max [test] = some v) :
    ∃ result : Nat, (result : Int) ≤ intSub max min ∧ v = result + min := by
  unfold int at h
  obtain ⟨bits, -, h⟩ := Option.bind_eq_some_iff.mp h
  obtain ⟨result, hfind, hv⟩ := Option.bind_eq_some_iff.mp h
  have hresult := List.find?_some hfind
  refine ⟨result, by simpa using hresult, ?_⟩
  cases hv
  rfl

theorem exists_draw (h : intBits fuel min max = some bits) {result : Nat} (hr : (result : Int) ≤ intSub max min) :
    ∃ test, test.length = bytesFor bits ∧ int fuel min max [test] = some (result + min) := by
  obtain ⟨n, hn, rfl, hle⟩ := exists_size h
  have hsmall : result < 2 ^ (Nat.log2 n + 1) := Nat.lt_of_le_of_lt (by omega) (bits_bounds n).1
  have hbytes : 2 ^ (Nat.log2 n + 1) ≤ 256 ^ bytesFor (Nat.log2 n + 1) := by
    have hpow : 256 ^ bytesFor (Nat.log2 n + 1) = 2 ^ (8 * bytesFor (Nat.log2 n + 1)) := by rw [Nat.pow_mul]
    rw [hpow]
    exact Nat.pow_le_pow_right (by decide) (⟨0, n, hle⟩ : Range).bytesFor_bits
  obtain ⟨test, hlength, hvalue⟩ := ByteStrings.exists_value (bytesFor (Nat.log2 n + 1)) (Nat.lt_of_lt_of_le hsmall hbytes)
  refine ⟨test, hlength, ?_⟩
  have hexact : hexdec result = result := if_pos (by omega)
  rw [int_singleton_eq h (log2_lt hle) hn, hvalue, hexact, Nat.mod_eq_of_lt hsmall, if_pos (by omega)]

theorem accepts_draw (fuel bits : Nat) (h : intBits fuel min max = some bits) :
    ∃ test, test.length = bytesFor bits ∧ (int fuel min max [test]).isSome = true := by
  have hnonneg : ((0 : Nat) : Int) ≤ intSub max min := exists_intBits_iff.mp ⟨fuel, bits, h⟩
  obtain ⟨test, hlength, hint⟩ := exists_draw h hnonneg
  exact ⟨test, hlength, by rw [hint]; rfl⟩

/-- The loop ends with the first draw from which `int` returns. -/
theorem intFrom_eq (fuel : Nat) (min max : Int) (draws : List Bytes) :
    intFrom fuel min max draws = first (fun test => int fuel min max [test]) draws := by
  cases hbits : intBits fuel min max with
  | none =>
    have hnone : ∀ test ∈ draws, int fuel min max [test] = none := by
      intro test _
      unfold int
      rw [hbits]
      rfl
    rw [first_eq_none hnone]
    unfold intFrom
    rw [hbits]
    rfl
  | some bits =>
    have hdraw : (fun test => int fuel min max [test]) = fun test =>
        (if (masked (intMask bits) test : Int) > intSub max min then none else some (masked (intMask bits) test)).map
          fun result : Nat => (result : Int) + min := by
      funext test
      unfold int
      rw [hbits]
      simp only [Option.bind_eq_bind, Option.bind_some, List.map_cons, List.map_nil]
      split_ifs with h
      · simp [h]
      · simp [Int.not_lt.mp h]
    rw [hdraw, first_map]
    unfold intFrom
    rw [hbits]
    simp only [Option.bind_eq_bind, Option.bind_some]
    cases first (fun test =>
        if (masked (intMask bits) test : Int) > intSub max min then none else some (masked (intMask bits) test)) draws with
    | none => rfl
    | some found => rfl

theorem intFrom_of_served {draws rest : List Bytes} {n : Nat}
    (h : Served (fun test => int fuel min max [test]) (n + 1) draws rest) :
    ∃ test v mid, test ∈ draws ∧ int fuel min max [test] = some v ∧ intFrom fuel min max draws = some (v, mid) ∧
      mid ⊆ draws ∧ Served (fun test => int fuel min max [test]) n mid rest := by
  rw [intFrom_eq]
  exact h.first

end Draws

/-! ## `int` and `choose` -/

/-- Two integers of PHP differ by at most `2^64`, whatever is rounded. -/
theorem difference_bounds (a b : Int64) :
    -2 ^ 64 ≤ difference a.toInt b.toInt ∧ difference a.toInt b.toInt ≤ 2 ^ 64 := by
  have ha := a.toInt_lt
  have ha' := a.le_toInt
  have hb := b.toInt_lt
  have hb' := b.le_toInt
  obtain ⟨x, hx, hxle⟩ := double_bounds (show a.toInt.natAbs ≤ 2 ^ 63 by omega) (by decide)
  obtain ⟨y, hy, hyle⟩ := double_bounds (show b.toInt.natAbs ≤ 2 ^ 63 by omega) (by decide)
  obtain ⟨d, hd, hdle⟩ := double_bounds (show (x - y).natAbs ≤ 2 ^ 64 by omega) (by decide)
  unfold difference
  rw [hx, hy]
  simp only [Option.getD_some]
  rw [hd, Option.getD_some]
  split_ifs <;> omega

theorem intSub_nonneg_iff (a b : Int64) : 0 ≤ intSub a.toInt b.toInt ↔ FitsRange (difference a.toInt b.toInt) := by
  obtain ⟨hge, hle⟩ := difference_bounds a b
  unfold intSub FitsRange
  generalize difference a.toInt b.toInt = d at hge hle ⊢
  rw [Int.bmod_def]
  omega

/-- A call of one integer returns where the range is not negative and the integer is of use. -/
theorem returns_one {β : Type} {min max : Int} {good : β → Prop} {call : Nat → List Bytes → Option (β × List Bytes)}
    (h : 0 ≤ intSub max min) (f : Int → β)
    (hcall : ∀ fuel draws, call fuel draws = (intFrom fuel min max draws).map fun found => (f found.1, found.2))
    (hgood : ∀ result : Nat, (result : Int) ≤ intSub max min → good (f (result + min))) :
    Returns 1 min max good call := by
  refine ⟨fun _ => exists_intBits_iff.mpr h, fun fuel bits => accepts_draw fuel bits, fun fuel draws rest hserved => ?_⟩
  obtain ⟨test, v, mid, -, hint, hfrom, -, hrest⟩ := intFrom_of_served hserved
  obtain ⟨result, hresult, rfl⟩ := exists_of_int hint
  obtain rfl := hrest.eq
  exact ⟨_, by rw [hcall, hfrom]; rfl, hgood result hresult⟩

theorem nonneg_of_returns {β : Type} {n : Nat} {min max : Int} {good : β → Prop}
    {call : Nat → List Bytes → Option (β × List Bytes)} (h : Returns n min max good call) (hn : 0 < n) :
    0 ≤ intSub max min := exists_intBits_iff.mp (h.counts hn)

variable {α : Type}

theorem int_ends_iff (min max : Int64) : (Call.int min max : Call α).Ends ↔ (Call.int min max : Call α).Draws := by
  unfold Call.Ends Call.Draws
  dsimp only
  rw [← intSub_nonneg_iff]
  constructor
  · exact fun h => nonneg_of_returns h Nat.one_pos
  · intro h
    refine returns_one h id (fun fuel draws => ?_) fun _ _ => trivial
    simp

theorem Value.length_elements {value : Value α} {elements : List (Element α)} (h : value.elements = some elements) :
    elements.length ≤ PHP_INT_MAX := by
  cases value with
  | string s =>
    cases h
    simpa using s.2
  | array entries =>
    cases h
    simpa using entries.2
  | object properties =>
    cases h
    simpa using properties.2
  | other => cases h

/-- `$count - 1`, where the count may be zero. -/
theorem intSub_count {count : Nat} (h : count ≤ PHP_INT_MAX) : intSub ((count : Int) - 1) 0 = (count : Int) - 1 := by
  rw [intSub_small (by omega) (by omega)]
  omega

theorem choose_ends_iff (value : Value (Option α)) : (Call.choose value).Ends ↔ (Call.choose value).Draws := by
  unfold Call.Ends Call.Draws
  dsimp only
  cases helements : value.elements with
  | none =>
    refine iff_of_true (Or.inl fun fuel draws => ?_) (by simp)
    unfold choose
    rw [helements]
    exact ⟨_, rfl⟩
  | some elements =>
    have hsub := intSub_count (Value.length_elements helements)
    constructor
    · rintro (hthrows | ⟨elements', call, heq, -, hreturns⟩)
      · obtain ⟨e, he⟩ := hthrows 0 []
        unfold choose at he
        rw [helements] at he
        cases he
      · obtain rfl := Option.some.inj heq
        have hnonneg := nonneg_of_returns hreturns Nat.one_pos
        rw [hsub] at hnonneg
        rintro hnil
        obtain rfl := Option.some.inj hnil
        simp at hnonneg
    · intro hne
      have hpos : 0 < elements.length := List.length_pos_iff.mpr fun h => hne (congrArg some h)
      refine Or.inr ⟨elements, _, rfl, fun fuel draws => by unfold choose; rw [helements], ?_⟩
      refine returns_one (by omega) (fun i => elements[i.toNat]?) (fun fuel draws => ?_) fun result hresult => ?_
      · cases intFrom fuel 0 ((elements.length : Int) - 1) draws with
        | none => rfl
        | some found => rfl
      · rw [hsub] at hresult
        have hlt : ((result : Int) + 0).toNat < elements.length := by omega
        exact ⟨_, List.getElem_mem hlt, List.getElem?_eq_getElem hlt⟩

/-! ## `shuffle` -/

theorem length_pos_of_seeds {length : Nat} {seeds : List Bytes} (h : Seeds length seeds) :
    ∀ seed ∈ seeds, 0 < seed.length := by
  intro seed hseed
  rw [h seed hseed]
  omega

theorem shuffle_returns {values : List (Option α)} (h : none ∉ values) {seeds : List Bytes}
    (hseeds : Seeds values.length seeds) (hlength : values.length ≤ seeds.length) :
    ∃ result, shuffle values seeds = some result := by
  refine Shuffling.run_of_isset (fun x hx => ?_) (length_pos_of_seeds hseeds) hlength
  cases x with
  | none => exact absurd hx h
  | some x => rfl

theorem shuffle_eq_none {values : List (Option α)} (h : none ∈ values) (seeds : List Bytes) :
    shuffle values seeds = none := Shuffling.not_run_of_unset rfl h seeds

theorem forall_shuffle_iff {values : List (Option α)} :
    (∀ seeds, Seeds values.length seeds → values.length ≤ seeds.length → ∃ result, shuffle values seeds = some result) ↔
      none ∉ values := by
  constructor
  · intro h hnone
    obtain ⟨result, hresult⟩ := h (List.replicate values.length (List.replicate (max 32 values.length) 0))
      (fun seed hseed => by rw [List.eq_of_mem_replicate hseed, List.length_replicate])
      (by rw [List.length_replicate])
    rw [shuffle_eq_none hnone] at hresult
    cases hresult
  · exact fun h seeds hseeds hlength => shuffle_returns h hseeds hlength

theorem shuffle_ends_iff_of_values {value : Value (Option α)} {values : List (Option α)}
    (hcall : ∀ seeds, shuffleValue value seeds = .ok ((shuffle values seeds).map .inr))
    (hcount : value.count = values.length) : (Call.shuffle value).Ends ↔ none ∉ values := by
  unfold Call.Ends
  dsimp only
  rw [← forall_shuffle_iff, hcount]
  constructor
  · rintro (hthrows | ⟨-, h⟩) seeds hseeds hlength
    · obtain ⟨e, he⟩ := hthrows seeds
      rw [hcall] at he
      cases he
    · obtain ⟨result, hresult⟩ := h seeds hseeds hlength
      rw [hcall] at hresult
      obtain ⟨r, hr, -⟩ := Option.map_eq_some_iff.mp (Except.ok.inj hresult)
      exact ⟨r, hr⟩
  · intro h
    refine Or.inr ⟨fun count _ => exists_countBits count, fun seeds hseeds hlength => ?_⟩
    obtain ⟨result, hresult⟩ := h seeds hseeds hlength
    exact ⟨_, by rw [hcall, hresult]; rfl⟩

theorem shuffle_ends_iff (value : Value (Option α)) : (Call.shuffle value).Ends ↔ (Call.shuffle value).Draws := by
  cases value with
  | string s =>
    have hset : none ∉ (strSplit s.val).map some := by simp
    have hcount : ((strSplit s.val).map some).length = (strSplit s.val).length := List.length_map _
    refine iff_of_true (Or.inr ⟨fun count _ => exists_countBits count, fun seeds hseeds hlength => ?_⟩) trivial
    obtain ⟨result, hresult⟩ := shuffle_returns hset (by rw [hcount]; exact hseeds) (by rw [hcount]; exact hlength)
    unfold shuffleValue shuffleString
    dsimp only
    rw [hresult]
    exact ⟨_, rfl⟩
  | array entries => exact shuffle_ends_iff_of_values (fun _ => rfl) (List.length_map _).symm
  | object properties => exact shuffle_ends_iff_of_values (fun _ => rfl) (List.length_map _).symm
  | other => exact iff_of_true (Or.inl fun seeds => ⟨_, rfl⟩) trivial

/-! ## `token` -/

theorem mem_arrayUnique {letters : List Bytes} {i : Nat} {x : Bytes} :
    (i, x) ∈ arrayUnique letters ↔ letters[i]? = some x ∧ x ∉ letters.take i := by
  unfold arrayUnique
  simp [List.mem_zipIdx_iff_getElem?]

theorem mem_take_iff {letters : List Bytes} {i : Nat} {x : Bytes} :
    x ∈ letters.take i ↔ ∃ j < i, letters[j]? = some x := by
  rw [List.mem_iff_getElem?]
  constructor
  · rintro ⟨j, hj⟩
    rw [List.getElem?_take] at hj
    split at hj
    next hlt => exact ⟨j, hlt, hj⟩
    next => cases hj
  · rintro ⟨j, hlt, hj⟩
    exact ⟨j, by rw [List.getElem?_take, if_pos hlt, hj]⟩

theorem nodup_keys_arrayUnique (letters : List Bytes) : (Assoc.keys (arrayUnique letters)).Nodup := by
  have hindices : (letters.zipIdx.map Prod.snd).Nodup := by
    rw [List.zipIdx_map_snd]
    exact List.nodup_range'
  unfold Assoc.keys arrayUnique
  rw [List.map_map]
  exact hindices.sublist (List.filter_sublist.map Prod.snd)

theorem lookup_arrayUnique {letters : List Bytes} {i : Nat} {x : Bytes} :
    (arrayUnique letters).lookup i = some x ↔ letters[i]? = some x ∧ x ∉ letters.take i := by
  rw [Assoc.lookup_eq_some_iff (nodup_keys_arrayUnique letters), mem_arrayUnique]

theorem length_arrayUnique (letters : List Bytes) : (arrayUnique letters).length = letters.dedup.length := by
  have hnodup : ((arrayUnique letters).map Prod.snd).Nodup := by
    refine List.Nodup.map_on ?_ (List.Nodup.of_map Prod.fst (nodup_keys_arrayUnique letters))
    rintro ⟨i, x⟩ hi ⟨j, y⟩ hj hxy
    obtain rfl : x = y := hxy
    rw [mem_arrayUnique] at hi hj
    rcases Nat.lt_trichotomy i j with hlt | rfl | hgt
    · exact absurd (mem_take_iff.mpr ⟨i, hlt, hi.1⟩) hj.2
    · rfl
    · exact absurd (mem_take_iff.mpr ⟨j, hgt, hj.1⟩) hi.2
  have hmem : ∀ x, x ∈ (arrayUnique letters).map Prod.snd ↔ x ∈ letters.dedup := by
    intro x
    rw [List.mem_dedup, List.mem_map]
    constructor
    · rintro ⟨⟨i, y⟩, hi, rfl⟩
      exact List.mem_of_getElem? (mem_arrayUnique.mp hi).1
    · intro hx
      -- the first place of the letter
      refine ⟨(letters.idxOf x, x), mem_arrayUnique.mpr ⟨?_, ?_⟩, rfl⟩
      · rw [List.getElem?_eq_getElem (List.idxOf_lt_length_of_mem hx), List.getElem_idxOf]
      · rw [List.mem_take_iff_idxOf_lt hx]
        exact Nat.lt_irrefl _
  rw [← List.length_map Prod.snd]
  exact ((List.perm_ext_iff_of_nodup hnodup letters.nodup_dedup).mpr hmem).length_eq

theorem length_dedup_le (letters : List Bytes) : letters.dedup.length ≤ letters.length :=
  letters.dedup_sublist.length_le

theorem nodup_take_iff (letters : List Bytes) : (letters.take letters.dedup.length).Nodup ↔
    ∀ i < letters.dedup.length, (arrayUnique letters).lookup i ≠ none := by
  have hle := length_dedup_le letters
  have hget : ∀ i < letters.dedup.length, (letters.take letters.dedup.length)[i]? = letters[i]? := fun i hi => by
    rw [List.getElem?_take, if_pos hi]
  rw [List.nodup_iff_getElem?_ne_getElem?]
  constructor
  · intro h i hi hnone
    have hsome : letters[i]? = some letters[i] := List.getElem?_eq_getElem (by omega)
    have hfirst : letters[i] ∉ letters.take i := by
      intro htake
      obtain ⟨j, hj, hget'⟩ := mem_take_iff.mp htake
      have hne := h j i hj (by rw [List.length_take]; omega)
      rw [hget j (by omega), hget i hi, hget', hsome] at hne
      exact hne rfl
    rw [lookup_arrayUnique.mpr ⟨hsome, hfirst⟩] at hnone
    cases hnone
  · intro h j i hj hi heq
    rw [List.length_take] at hi
    have hi' : i < letters.dedup.length := by omega
    obtain ⟨x, hx⟩ := Option.ne_none_iff_exists'.mp (h i hi')
    obtain ⟨hsome, hfirst⟩ := lookup_arrayUnique.mp hx
    rw [hget j (by omega), hget i hi', hsome] at heq
    exact hfirst (mem_take_iff.mpr ⟨j, hj, heq⟩)

/-- What is joined for an index. -/
def letterAt (letters : List Bytes) (i : Nat) : Bytes := ((arrayUnique letters).lookup i).getD []

/-- A token is served with as many accepted draws as letters are asked for. -/
theorem tokenLoop_of_served {letters : List Bytes} {fuel n : Nat} {draws rest : List Bytes}
    (h : Served (fun test => int fuel 0 (((arrayUnique letters).length : Int) - 1) [test]) n draws rest)
    (result : Bytes) :
    ∃ pieces : List Bytes, pieces.length = n ∧
      (∀ piece ∈ pieces, ∃ test ∈ draws, ∃ i, int fuel 0 (((arrayUnique letters).length : Int) - 1) [test] = some i ∧
        piece = letterAt letters i.toNat) ∧
      tokenLoop fuel (arrayUnique letters) n result draws = some (result ++ pieces.flatten, rest) := by
  induction n generalizing draws result with
  | zero =>
    obtain rfl := h.eq
    exact ⟨[], rfl, by simp, by simp [tokenLoop]⟩
  | succ n ih =>
    obtain ⟨test, i, mid, htest, hint, hfrom, hmid, hrest⟩ := intFrom_of_served h
    obtain ⟨pieces, hlength, hpieces, hloop⟩ := ih hrest (result ++ letterAt letters i.toNat)
    refine ⟨letterAt letters i.toNat :: pieces, by rw [List.length_cons, hlength], ?_, ?_⟩
    · rw [List.forall_mem_cons]
      refine ⟨⟨test, htest, i, hint, rfl⟩, fun piece hpiece => ?_⟩
      obtain ⟨test', htest', hint'⟩ := hpieces piece hpiece
      exact ⟨test', hmid htest', hint'⟩
    · unfold tokenLoop
      rw [hfrom]
      refine Eq.trans hloop ?_
      rw [List.flatten_cons, List.append_assoc]

theorem Alphabet.length_letters {alphabet : Alphabet} {letters : List Bytes} (h : alphabet.letters = some letters) :
    letters.length ≤ PHP_INT_MAX := by
  cases alphabet with
  | string s =>
    cases h
    unfold strSplit
    split_ifs
    · decide
    · simpa using s.2
  | array entries =>
    cases h
    simpa using entries.2
  | other => cases h

section Token

variable {letters : List Bytes} {fuel : Nat}

theorem intSub_letters (hle : letters.length ≤ PHP_INT_MAX) :
    intSub (((arrayUnique letters).length : Int) - 1) 0 = (letters.dedup.length : Int) - 1 := by
  rw [length_arrayUnique]
  exact intSub_count (Nat.le_trans (length_dedup_le letters) hle)

theorem letterAt_mem (hle : letters.length ≤ PHP_INT_MAX)
    (h : (letters.take letters.dedup.length).Nodup ∨ [] ∈ letters) {test : Bytes} {i : Int}
    (hint : int fuel 0 (((arrayUnique letters).length : Int) - 1) [test] = some i) : letterAt letters i.toNat ∈ letters := by
  obtain ⟨result, hresult, rfl⟩ := exists_of_int hint
  rw [intSub_letters hle] at hresult
  have htoNat : ((result : Int) + 0).toNat = result := by omega
  rw [htoNat]
  unfold letterAt
  cases hlookup : (arrayUnique letters).lookup result with
  | some x => exact List.mem_of_getElem? (lookup_arrayUnique.mp hlookup).1
  | none =>
    rcases h with hnodup | hempty
    · exact absurd hlookup ((nodup_take_iff letters).mp hnodup result (by omega))
    · exact hempty

/-- Draws of a missing key make no letters. -/
theorem exists_empty_token (hle : letters.length ≤ PHP_INT_MAX) {bits n i : Nat}
    (hbits : intBits fuel 0 (((arrayUnique letters).length : Int) - 1) = some bits) (hi : i < letters.dedup.length)
    (hnone : (arrayUnique letters).lookup i = none) :
    ∃ draws, Served (fun test => int fuel 0 (((arrayUnique letters).length : Int) - 1) [test]) n draws [] ∧
      tokenLoop fuel (arrayUnique letters) n [] draws = some ([], []) := by
  have hsmall : (i : Int) ≤ intSub (((arrayUnique letters).length : Int) - 1) 0 := by
    rw [intSub_letters hle]
    omega
  obtain ⟨test, -, hint⟩ := exists_draw hbits hsmall
  have hserved : Served (fun test => int fuel 0 (((arrayUnique letters).length : Int) - 1) [test]) n
      (List.replicate n test) [] := served_replicate (by rw [hint]; rfl) n
  refine ⟨_, hserved, ?_⟩
  obtain ⟨pieces, -, hpieces, hloop⟩ := tokenLoop_of_served hserved []
  rw [hloop]
  have hempty : ∀ piece ∈ pieces, piece = [] := by
    intro piece hpiece
    obtain ⟨test', htest', j, hj, rfl⟩ := hpieces piece hpiece
    obtain rfl := List.eq_of_mem_replicate htest'
    obtain rfl := Option.some.inj (hint.symm.trans hj)
    have htoNat : ((i : Int) + 0).toNat = i := by omega
    unfold letterAt
    rw [htoNat, hnone]
    rfl
  rw [List.flatten_eq_nil_iff.mpr hempty]
  rfl

end Token

theorem token_ends_iff (length : Int) (alphabet : Alphabet) :
    (Call.token length alphabet : Call α).Ends ↔ (Call.token length alphabet : Call α).Draws := by
  unfold Call.Ends Call.Draws
  dsimp only
  cases hletters : alphabet.letters with
  | none =>
    refine iff_of_true (Or.inl fun fuel draws => ?_) (by simp)
    unfold token
    rw [hletters]
    exact ⟨_, rfl⟩
  | some letters =>
    have hle := Alphabet.length_letters hletters
    have hcalls : ∀ fuel draws, token fuel length alphabet draws =
        .ok (tokenLoop fuel (arrayUnique letters) length.toNat [] draws) := by
      intro fuel draws
      unfold token
      rw [hletters]
    constructor
    · rintro (hthrows | ⟨letters', call, heq, hcall, hreturns⟩) letters'' heq''
      · obtain ⟨e, he⟩ := hthrows 0 []
        rw [hcalls] at he
        cases he
      · obtain rfl := Option.some.inj heq
        obtain rfl := Option.some.inj heq''
        rcases Int.lt_or_le 0 length with hpos | hneg
        · right
          have hnonneg := nonneg_of_returns hreturns (by omega)
          rw [intSub_letters hle] at hnonneg
          refine ⟨?_, ?_⟩
          · rintro rfl
            simp at hnonneg
          · by_contra hnot
            rw [not_or, nodup_take_iff] at hnot
            push Not at hnot
            obtain ⟨⟨i, hi, hnone⟩, hempty⟩ := hnot
            obtain ⟨fuel, bits, hbits⟩ := hreturns.counts (by omega)
            obtain ⟨draws, hserved, hloop⟩ := exists_empty_token hle hbits hi hnone
            obtain ⟨text, htext, pieces, hlength, hpieces, hflatten⟩ := hreturns.returns fuel draws [] hserved
            have hsame : call fuel draws = some ([], []) :=
              (Except.ok.inj ((hcalls fuel draws).symm.trans (hcall fuel draws))).symm.trans hloop
            rw [hsame] at htext
            obtain rfl : [] = text := congrArg Prod.fst (Option.some.inj htext)
            obtain ⟨piece, hpiece⟩ := List.exists_mem_of_length_pos (show 0 < pieces.length by omega)
            have hnil := List.flatten_eq_nil_iff.mp hflatten.symm piece hpiece
            exact hempty (hnil ▸ hpieces piece hpiece)
        · exact Or.inl hneg
    · intro h
      have hdraws := h letters rfl
      refine Or.inr ⟨letters, _, rfl, hcalls, ?_, fun fuel bits => accepts_draw fuel bits, ?_⟩
      · intro hn
        obtain ⟨hne, -⟩ := hdraws.resolve_left (by omega)
        apply exists_intBits_iff.mpr
        rw [intSub_letters hle]
        have hpos : 0 < letters.dedup.length := List.length_pos_iff.mpr fun hnil => hne ((List.dedup_eq_nil _).mp hnil)
        omega
      · intro fuel draws rest hserved
        obtain ⟨pieces, hlength, hpieces, hloop⟩ := tokenLoop_of_served hserved []
        refine ⟨_, hloop, pieces, hlength, fun piece hpiece => ?_, rfl⟩
        have hpos := List.length_pos_of_mem hpiece
        obtain ⟨-, hcondition⟩ := hdraws.resolve_left (by omega)
        obtain ⟨test, -, i, hint, rfl⟩ := hpieces piece hpiece
        exact letterAt_mem hle hcondition hint

/-- **Termination.** A call throws or ends exactly if its range is not negative, and neither a key is missing nor an
element is `null`. -/
theorem call_ends_iff (c : Call α) : c.Ends ↔ c.Draws := by
  cases c with
  | int min max => exact int_ends_iff min max
  | choose value => exact choose_ends_iff value
  | shuffle value => exact shuffle_ends_iff value
  | token length alphabet => exact token_ends_iff length alphabet

/-- An empty sequence, an empty alphabet and `max < min`: the bits of `-1` are counted for ever. -/
theorem nothing_to_draw_hangs :
    ¬(Call.choose (.array ⟨[], by decide⟩) : Call Nat).Ends ∧ ¬(Call.token 1 (.array ⟨[], by decide⟩) : Call Nat).Ends ∧
      ¬(Call.int 1 0 : Call Nat).Ends := by
  rw [choose_ends_iff, token_ends_iff, int_ends_iff]
  refine ⟨fun h => h rfl, fun h => ?_, by unfold Call.Draws FitsRange; decide⟩
  rcases h [] rfl with hlength | ⟨hne, -⟩
  · exact absurd hlength (by decide)
  · exact hne rfl

end SimplyRandom
