import Blocktrail.JsSdk.Scripts
import Blocktrail.PhpSdk.Keys

/-! # The order of multisig keys

Both SDKs sort the keys of a multisig script by their hex texts. JS compares the texts in the order of the host, PHP
with `==` and `>`, which compare two texts that look like numbers as numbers.
-/

open Text Bitcoin

namespace TwoSdks

/-- A public key as it is serialised, compressed or not. -/
structure SerializedKey where
  bytes : Bytes
  serialized : bytes.length = 33 ∧ (bytes.head? = some 0x02 ∨ bytes.head? = some 0x03) ∨
    bytes.length = 65 ∧ bytes.head? = some 0x04

namespace SerializedKey

theorem ext_bytes {a b : SerializedKey} (h : a.bytes = b.bytes) : a = b := by
  cases a; cases b; cases h; rfl

instance : DecidableEq SerializedKey := fun a b =>
  decidable_of_iff (a.bytes = b.bytes) ⟨ext_bytes, fun h => h ▸ rfl⟩

def hex (k : SerializedKey) : Str := Hex.encode k.bytes

def ofPubKey (k : PubKey) : SerializedKey := ⟨k.bytes, Or.inl ⟨k.length_eq, k.compressed⟩⟩

/-! ## Byte order -/

def bytesLe (a b : SerializedKey) : Prop := a.bytes.map UInt8.toNat ≤ b.bytes.map UInt8.toNat

instance : DecidableRel bytesLe := fun a b =>
  inferInstanceAs (Decidable (a.bytes.map UInt8.toNat ≤ b.bytes.map UInt8.toNat))

instance : Std.Total bytesLe := ⟨fun a b => le_total (a.bytes.map UInt8.toNat) (b.bytes.map UInt8.toNat)⟩

instance : IsTrans SerializedKey bytesLe := ⟨fun _ _ _ hab hbc => le_trans (α := List Nat) hab hbc⟩

instance : Std.Antisymm bytesLe :=
  ⟨fun _ _ hab hba =>
    ext_bytes (List.map_injective_iff.mpr (fun _ _ h => UInt8.toNat_inj.mp h) (le_antisymm (α := List Nat) hab hba))⟩

def byteSort (keys : List SerializedKey) : List SerializedKey := keys.insertionSort bytesLe

theorem hex_lt {a b : SerializedKey} : a.hex < b.hex ↔ ¬bytesLe b a :=
  Hex.encode_lt_encode.trans (not_le (α := List Nat)).symm

theorem hex_eq {a b : SerializedKey} : a.hex = b.hex ↔ a = b :=
  ⟨fun h => ext_bytes (Hex.encode_injective h), fun h => h ▸ rfl⟩

theorem hex_le {a b : SerializedKey} : a.hex ≤ b.hex ↔ bytesLe a b := by
  rw [← not_lt, hex_lt, not_not]

theorem compareBytes_hex {a b : SerializedKey} : Php.compareBytes a.hex b.hex ≠ .gt ↔ bytesLe a b := by
  unfold Php.compareBytes
  by_cases heq : a = b
  · subst heq
    simp [← hex_le]
  · rw [if_neg (mt hex_eq.mp heq)]
    by_cases hlt : a.hex < b.hex
    · rw [if_pos hlt]
      simp [← hex_le, hlt.le]
    · rw [if_neg hlt]
      have hba : bytesLe b a := not_not.mp (mt hex_lt.mpr hlt)
      have hab : ¬bytesLe a b := fun h => heq (Std.Antisymm.antisymm a b h hba)
      simp [hab]

/-! ## Both sorts -/

def hexLe (collation : Collation) (key1 key2 : SerializedKey) : Prop := collation.localeCompare key1.hex key2.hex ≠ .gt

instance (collation : Collation) : DecidableRel (hexLe collation) := fun key1 key2 =>
  inferInstanceAs (Decidable (collation.localeCompare key1.hex key2.hex ≠ .gt))

/-- `Wallet.sortMultiSigKeys`. -/
def sortMultiSigKeys (collation : Collation) (pubKeys : List SerializedKey) : List SerializedKey :=
  pubKeys.insertionSort (hexLe collation)

section Collated

variable {collation : Collation}

instance : Std.Total (hexLe collation) := ⟨fun a b => by
  have := collation.consistent
  rcases h : collation.localeCompare a.hex b.hex with _ | _ | _
  · exact Or.inl (by simp [hexLe, h])
  · exact Or.inl (by simp [hexLe, h])
  · exact Or.inr (by simp [hexLe, Std.OrientedCmp.lt_of_gt h])⟩

instance : IsTrans SerializedKey (hexLe collation) := ⟨fun a b c hab hbc => by
  have := collation.consistent
  exact Ordering.isLE_iff_ne_gt.mp (Std.TransCmp.isLE_trans (Ordering.isLE_iff_ne_gt.mpr hab)
    (Ordering.isLE_iff_ne_gt.mpr hbc))⟩

/-- Whatever sorts the keys, there is one order of those that the host tells apart. -/
theorem eq_sortMultiSigKeys {keys sorted : List SerializedKey} (hperm : sorted.Perm keys)
    (hsorted : sorted.Pairwise (hexLe collation))
    (hapart : ∀ a ∈ keys, ∀ b ∈ keys, collation.localeCompare a.hex b.hex = .eq → a = b) :
    sorted = sortMultiSigKeys collation keys := by
  have hinsertion := List.perm_insertionSort (hexLe collation) keys
  refine List.Perm.eq_of_pairwise (fun a b ha hb hab hba => ?_) hsorted
    (List.pairwise_insertionSort (hexLe collation) keys) (hperm.trans hinsertion.symm)
  refine hapart a (hperm.mem_iff.mp ha) b (hinsertion.mem_iff.mp hb) ?_
  have := collation.consistent
  rcases h : collation.localeCompare a.hex b.hex with _ | _ | _
  · exact absurd (Std.OrientedCmp.gt_of_lt h) hba
  · rfl
  · exact absurd h hab

end Collated

/-- The left-associative `$av == $bv ? 0 : $av > $bv ? 1 : -1`. -/
def compareKeys (floats : Str → Str → Ordering) (a b : SerializedKey) : Int :=
  let order := Php.compareTexts floats a.hex b.hex
  let test : Bool := if order = .eq then false else order == .gt
  if test then 1 else -1

/-- `BlocktrailSDK::sortMultisigKeys`, where `floats` compares two texts as doubles. -/
def sortMultisigKeys (floats : Str → Str → Ordering) (pubKeys : List SerializedKey) : List SerializedKey :=
  Php.usort (compareKeys floats) pubKeys

/-- On compressed keys these are the sorts of the two wallets. -/
theorem sortMultiSigKeys_ofPubKey (collation : Collation) (keys : List PubKey) :
    sortMultiSigKeys collation (keys.map ofPubKey) = (JsSdk.sortMultiSigKeys collation keys).map ofPubKey :=
  (List.map_insertionSort (r := JsSdk.hexLe collation) (s := hexLe collation) ofPubKey keys
    fun _ _ _ _ => Iff.rfl).symm

theorem sortMultisigKeys_ofPubKey {Node : Type} (php : PhpSdk.BitWasp Node) (keys : List PubKey) :
    sortMultisigKeys php.floats (keys.map ofPubKey) = (PhpSdk.sortMultisigKeys php keys).map ofPubKey :=
  (List.map_insertionSort (r := fun a b => PhpSdk.compareKeys php a b ≤ 0)
    (s := fun a b => compareKeys php.floats a b ≤ 0) ofPubKey keys fun _ _ _ _ => Iff.rfl).symm

/-! ## Where they agree -/

variable {floats : Str → Str → Ordering}

theorem compareKeys_le {a b : SerializedKey} :
    compareKeys floats a b ≤ 0 ↔ Php.compareTexts floats a.hex b.hex ≠ .gt := by
  unfold compareKeys
  cases Php.compareTexts floats a.hex b.hex <;> simp

theorem hex_form (k : SerializedKey) : ∃ d t, k.hex = '0' :: d :: t ∧
    ((d = '2' ∨ d = '3') ∧ t.length = 64 ∨ d = '4' ∧ t.length = 128) := by
  obtain ⟨bytes, hser⟩ := k
  cases bytes with
  | nil => simp at hser
  | cons x bytes =>
    have hlen := Hex.length_encode bytes
    refine ⟨Hex.digit (x.toNat % 16), Hex.encode bytes, ?_, ?_⟩
    · rcases hser with ⟨-, h | h⟩ | ⟨-, h⟩ <;> cases h <;> rfl
    · rcases hser with ⟨hl, h | h⟩ | ⟨hl, h⟩ <;> cases h <;> simp only [List.length_cons] at hl
      · exact Or.inl ⟨Or.inl rfl, by omega⟩
      · exact Or.inl ⟨Or.inr rfl, by omega⟩
      · exact Or.inr ⟨rfl, by omega⟩

theorem compare_forms {d : Char} {s t : Str} {m n : Nat} (hd : d = '2' ∨ d = '3') (hs : s.length = 64)
    (ht : t.length = 128) (hm : Php.numeric ('0' :: d :: s) = .integer m)
    (hn : Php.numeric ('0' :: '4' :: t) = .integer n) :
    m < n ∧ Php.compareBytes ('0' :: d :: s) ('0' :: '4' :: t) = .lt ∧
      Php.compareBytes ('0' :: '4' :: t) ('0' :: d :: s) = .gt := by
  obtain ⟨hda, rfl⟩ := Php.numeric_integer hm
  obtain ⟨-, rfl⟩ := Php.numeric_integer hn
  refine ⟨?_, ?_, ?_⟩
  · have hlt := Php.ofDigitChars_lt hda
    apply hlt.trans_le
    rw [Nat.ofDigitChars_cons, Nat.ofDigitChars_cons, Nat.ofDigitChars_eq_ofDigitChars_zero, ht]
    simp only [List.length_cons, hs]
    calc 10 ^ (64 + 1 + 1) ≤ 10 ^ 128 * (10 * (10 * 0 + ('0'.toNat - '0'.toNat)) + ('4'.toNat - '0'.toNat)) := by decide
      _ ≤ _ := Nat.le_add_right _ _
  · rcases hd with rfl | rfl <;> simp [Php.compareBytes_cons]
  · rcases hd with rfl | rfl <;> simp [Php.compareBytes_cons]

theorem compare_integers {a b : SerializedKey} {m n : Nat} (hm : Php.numeric a.hex = .integer m)
    (hn : Php.numeric b.hex = .integer n) : compare m n = Php.compareBytes a.hex b.hex := by
  obtain ⟨d, s, ha, ⟨hd, hs⟩ | ⟨rfl, hs⟩⟩ := a.hex_form <;> obtain ⟨e, t, hb, ⟨he, ht⟩ | ⟨rfl, ht⟩⟩ := b.hex_form
  · exact Php.compare_integers (by simp [ha, hb, hs, ht]) hm hn
  · rw [ha] at hm
    rw [hb] at hn
    obtain ⟨hlt, hbytes, -⟩ := compare_forms hd hs ht hm hn
    rw [ha, hb, hbytes]
    exact Nat.compare_eq_lt.mpr hlt
  · rw [ha] at hm
    rw [hb] at hn
    obtain ⟨hlt, -, hbytes⟩ := compare_forms he ht hs hn hm
    rw [ha, hb, hbytes]
    exact Nat.compare_eq_gt.mpr hlt
  · exact Php.compare_integers (by simp [ha, hb, hs, ht]) hm hn

theorem compareKeys_bytes {a b : SerializedKey} (h : Php.readsAsFloats a.hex b.hex = false) :
    compareKeys floats a b ≤ 0 ↔ bytesLe a b := by
  rw [compareKeys_le, Php.compareTexts_bytes h fun _ _ => compare_integers, compareBytes_hex]

/-- Any two keys that PHP compares as doubles are in the order of their bytes as doubles, too. -/
def FloatsInOrder (floats : Str → Str → Ordering) (keys : List SerializedKey) : Prop :=
  ∀ a ∈ keys, ∀ b ∈ keys, a ≠ b → Php.readsAsFloats a.hex b.hex = true →
    (floats a.hex b.hex = .gt ↔ ¬bytesLe a b)

theorem floatsInOrder_iff {keys : List SerializedKey} :
    FloatsInOrder floats keys ↔ ∀ a ∈ keys, ∀ b ∈ keys, a ≠ b → (compareKeys floats a b ≤ 0 ↔ bytesLe a b) := by
  unfold FloatsInOrder
  refine forall₂_congr fun a _ => forall₂_congr fun b _ => forall_congr' fun _ => ?_
  rcases hf : Php.readsAsFloats a.hex b.hex with _ | _
  · simp [compareKeys_bytes hf]
  · rw [compareKeys_le, Php.compareTexts_floats hf]
    simp only [forall_const, ne_eq]
    exact iff_not_comm.trans iff_comm

/-- The host has any two different keys in the order of their bytes. -/
def CollatedInOrder (collation : Collation) (keys : List SerializedKey) : Prop :=
  ∀ a ∈ keys, ∀ b ∈ keys, a ≠ b → (collation.localeCompare a.hex b.hex = .gt ↔ ¬bytesLe a b)

theorem collatedInOrder_iff {collation : Collation} {keys : List SerializedKey} :
    CollatedInOrder collation keys ↔ ∀ a ∈ keys, ∀ b ∈ keys, a ≠ b → (hexLe collation a b ↔ bytesLe a b) := by
  unfold CollatedInOrder hexLe
  refine forall₂_congr fun a _ => forall₂_congr fun b _ => forall_congr' fun _ => ?_
  exact iff_not_comm.trans iff_comm

/-- **Both SDKs.** However a list of keys is arranged, both SDKs return it in byte order, and leave that as it is,
exactly where the texts of the host and PHP's doubles are in byte order. -/
theorem sort_byteSort_iff (collation : Collation) (floats : Str → Str → Ordering) (keys : List SerializedKey) :
    (∀ supplied : List SerializedKey, supplied.Perm keys →
      sortMultiSigKeys collation supplied = byteSort keys ∧ sortMultisigKeys floats supplied = byteSort keys ∧
        sortMultiSigKeys collation (sortMultiSigKeys collation supplied) = sortMultiSigKeys collation supplied ∧
        sortMultisigKeys floats (sortMultisigKeys floats supplied) = sortMultisigKeys floats supplied) ↔
      CollatedInOrder collation keys ∧ FloatsInOrder floats keys := by
  rw [collatedInOrder_iff, floatsInOrder_iff]
  constructor
  · intro h
    refine ⟨Php.insertionSort_eq_iff.mp fun supplied hperm => (h supplied hperm).1,
      Php.insertionSort_eq_iff.mp fun supplied hperm => (h supplied hperm).2.1⟩
  · rintro ⟨hcollated, hfloats⟩ supplied hperm
    have hjs : ∀ supplied : List SerializedKey, supplied.Perm keys →
        sortMultiSigKeys collation supplied = byteSort keys := Php.insertionSort_eq_iff.mpr hcollated
    have hphp : ∀ supplied : List SerializedKey, supplied.Perm keys →
        sortMultisigKeys floats supplied = byteSort keys := Php.insertionSort_eq_iff.mpr hfloats
    have hsorted : (byteSort keys).Perm keys := List.perm_insertionSort bytesLe keys
    refine ⟨hjs supplied hperm, hphp supplied hperm, ?_, ?_⟩
    · rw [hjs supplied hperm, hjs _ hsorted]
    · rw [hphp supplied hperm, hphp _ hsorted]

/-- Two keys on the curve: their texts are the numbers `0211…11e9` and `0222…22e6`. -/
def ones : SerializedKey := ⟨0x02 :: List.replicate 31 0x11 ++ [0xe9], by decide⟩

def twos : SerializedKey := ⟨0x02 :: List.replicate 31 0x22 ++ [0xe6], by decide⟩

theorem exponents_change_order : byteSort [ones, twos] = [ones, twos] ∧
    sortMultiSigKeys (.on id) [twos, ones] = [ones, twos] ∧
      sortMultisigKeys Php.compareDoubles [ones, twos] = [twos, ones] := by
  decide +kernel

/-- A text as it is read where `aa` is a letter of its own, behind `z`. -/
def danish : Str → Str
  | 'a' :: 'a' :: rest => '\x7b' :: danish rest
  | c :: rest => c :: danish rest
  | [] => []

def letters : SerializedKey := ⟨0x02 :: 0xaa :: List.replicate 31 0x11, by decide⟩

def digits : SerializedKey := ⟨0x02 :: 0xb0 :: List.replicate 31 0x11, by decide⟩

example : sortMultiSigKeys (.on danish) [letters, digits] = [digits, letters] := by decide +kernel

end SerializedKey

end TwoSdks
