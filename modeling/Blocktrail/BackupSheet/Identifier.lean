import Blocktrail.BackupSheet.Generator
import Blocktrail.BackupSheet.Reading

/-! # The lines of an identifier

The reader takes one line for the identifier, and every line for a phrase that it may hold.
-/

open Text

namespace BackupSheet

def WalletVersion.number : WalletVersion → Int
  | v1 => 1
  | v2 => 2
  | v3 => 3

/-- The texts that the data of a version has. -/
def WalletVersion.fields : WalletVersion → List DataKey
  | v1 => [.walletIdentifier, .primaryMnemonic, .backupMnemonic]
  | _ => [.walletIdentifier, .backupMnemonic, .encryptedPrimaryMnemonic, .encryptedRecoverySecretMnemonic,
      .passwordEncryptedSecretMnemonic]

/-- The lines are read whole, as an identifier: each but the last asks for an identifier again, none has a caption or
ends the reading, and the last asks for no other text. `t` is the version of the last title. -/
def Kept (v : WalletVersion) : Option Int → List Str → Prop
  | _, [] => False
  | t, l :: ls => ends l = false ∧ firstMatch keyIndexAt l = none ∧
      if has "Wallet Identifier" l then Kept v ((firstMatch titleVersionAt l).getD t) ls
      else (∀ l' ∈ ls, squeeze l' = []) ∧ (∀ j ∈ v.fields, asks l ≠ some j) ∧ (v = .v1 ∨ t = some v.number)

/-! ## What is lost -/

def identifierLength (k : Option DataKey) (ls : List Str) : Nat := ((effects k ls).content .walletIdentifier).length

theorem identifierLength_cons (k : Option DataKey) (l : Str) (ls : List Str) : identifierLength k (l :: ls) =
    (if under k l = some .walletIdentifier then (squeeze l).length else 0) + identifierLength (next k l) ls := by
  show ((if under k l = some .walletIdentifier then squeeze l else []) ++
    (effects (next k l) ls).content .walletIdentifier).length = _
  rw [List.length_append, apply_ite List.length]
  rfl

theorem length_squeeze_cons (l : Str) (ls : List Str) :
    (squeeze (l :: ls).flatten).length = (squeeze l).length + (squeeze ls.flatten).length := by
  rw [List.flatten_cons, squeeze_append, List.length_append]

theorem identifierLength_le (k : Option DataKey) (ls : List Str) :
    identifierLength k ls ≤ (squeeze ls.flatten).length := by
  induction ls generalizing k with
  | nil => exact Nat.zero_le _
  | cons l ls ih =>
    have hrest := ih (next k l)
    rw [identifierLength_cons, length_squeeze_cons]
    split
    · omega
    · omega

theorem under_eq {k : Option DataKey} {l : Str} {j : DataKey} (h : under k l = some j) : k = some j ∧ ends l = false := by
  unfold under at h
  split_ifs at h with hends
  exact ⟨h, Bool.eq_false_of_not_eq_true hends⟩

theorem asks_identifier_iff {l : Str} : asks l = some .walletIdentifier ↔ has "Wallet Identifier" l = true := by
  constructor
  · intro h
    by_contra hhas
    unfold asks at h
    rw [if_neg hhas] at h
    split_ifs at h
    all_goals cases h
  · intro h
    unfold asks
    rw [if_pos h]

theorem has_of_next {k : Option DataKey} {l : Str} (h : next k l = some .walletIdentifier) :
    has "Wallet Identifier" l = true := by
  unfold next at h
  cases hasked : asks l with
  | none =>
    rw [hasked, Option.none_or] at h
    cases hunder : under k l with
    | none => rw [hunder] at h; cases h
    | some j => rw [hunder] at h; cases j <;> cases h
  | some j =>
    rw [hasked, Option.some_or] at h
    cases h
    exact asks_identifier_iff.mp hasked

/-- An identifier that is asked for at the end is behind lines that are all taken, or a line that asks for one is lost. -/
theorem lost_of_asked {k : Option DataKey} {ls : List Str} (h : (effects k ls).dataKey = some .walletIdentifier) :
    (k = some .walletIdentifier ∧ identifierLength k ls = (squeeze ls.flatten).length) ∨
      identifierLength k ls + 16 ≤ (squeeze ls.flatten).length := by
  induction ls generalizing k with
  | nil => exact Or.inl ⟨h, rfl⟩
  | cons l ls ih =>
    rw [identifierLength_cons, length_squeeze_cons]
    rcases ih (k := next k l) h with ⟨hnext, hall⟩ | hlost
    · have hlong := length_squeeze_of_has (has_of_next hnext)
      have hsixteen : (squeeze "Wallet Identifier").length = 16 := by decide
      split
      · next hunder => exact Or.inl ⟨(under_eq hunder).1, by omega⟩
      · exact Or.inr (by omega)
    · refine Or.inr ?_
      split
      · omega
      · omega

/-- What is not asked for is lost, unless it is blank. -/
theorem blank_of_none_lost {k : Option DataKey} {ls : List Str} (hk : k ≠ some .walletIdentifier)
    (h : (squeeze ls.flatten).length ≤ identifierLength k ls) : ∀ l ∈ ls, squeeze l = [] := by
  induction ls generalizing k with
  | nil => simp
  | cons l ls ih =>
    have hunder : under k l ≠ some .walletIdentifier := fun hunder => hk (under_eq hunder).1
    rw [identifierLength_cons, length_squeeze_cons, if_neg hunder] at h
    have hle := identifierLength_le (next k l) ls
    have hblank : squeeze l = [] := List.eq_nil_of_length_eq_zero (by omega)
    rw [(Quiet.of_blank hblank).next hk] at h
    have hrest := ih hk (by omega)
    intro l' hl'
    rcases List.mem_cons.mp hl' with rfl | hl'
    · exact hblank
    · exact hrest l' hl'

/-! ## What is kept -/

/-- What the lines do from the key of the identifier, where they are read whole. -/
structure ReadWhole (v : WalletVersion) (t : Option Int) (ls : List Str) (e : Effect) : Prop where
  identifier : e.content .walletIdentifier = squeeze ls.flatten
  keys : e.blocktrailKeys = []
  dataKey : ∀ j ∈ v.fields, e.dataKey ≠ some j
  title : v = .v1 ∨ e.titleVersion.getD t = some v.number

theorem mem_fields_identifier (v : WalletVersion) : .walletIdentifier ∈ v.fields := by
  cases v <;> exact List.mem_cons_self

theorem keysOf_eq_nil_iff {l : Str} (h : ends l = false) : keysOf l = [] ↔ firstMatch keyIndexAt l = none := by
  unfold keysOf
  rw [h]
  simp

theorem effects_identifier {l : Str} (h : ends l = false) (ls : List Str) :
    effects (some .walletIdentifier) (l :: ls) =
      Effect.append ⟨asks l, versionFor (asks l), firstMatch titleVersionAt l, keysOf l,
        fun j => if j = .walletIdentifier then squeeze l else []⟩ (effects (asks l) ls) := by
  have hunder : under (some .walletIdentifier) l = some .walletIdentifier := by
    unfold under
    rw [h]
    rfl
  have hnext : next (some .walletIdentifier) l = asks l := by
    unfold next
    rw [hunder]
    exact Option.or_none
  rw [effects, effectOf, hnext, hunder]
  simp only [Option.some.injEq, eq_comm]

theorem getD_or {α : Type} (a b : Option α) (t : α) : (a.or b).getD t = a.getD (b.getD t) := by
  cases a <;> rfl

theorem readWhole_of_kept {v : WalletVersion} {t : Option Int} {ls : List Str} (h : Kept v t ls) :
    ReadWhole v t ls (effects (some .walletIdentifier) ls) ∧
      (∀ j ≠ .walletIdentifier, (effects (some .walletIdentifier) ls).content j = []) ∧
      (effects (some .walletIdentifier) ls).walletVersion =
        versionFor (effects (some .walletIdentifier) ls).dataKey := by
  induction ls generalizing t with
  | nil => exact absurd h id
  | cons l ls ih =>
    obtain ⟨hends, hkey, hrest⟩ := h
    rw [effects_identifier hends, (keysOf_eq_nil_iff hends).mpr hkey]
    by_cases hhas : has "Wallet Identifier" l = true
    · rw [if_pos hhas] at hrest
      obtain ⟨⟨hidentifier, hkeys, hdataKey, htitle⟩, hothers, hversion⟩ := ih hrest
      rw [asks_identifier_iff.mpr hhas]
      refine ⟨⟨?_, hkeys, hdataKey, ?_⟩, fun j hj => ?_, ?_⟩
      · rw [List.flatten_cons, squeeze_append, ← hidentifier]
        rfl
      · exact htitle.imp id fun htitle => (getD_or _ _ _).trans htitle
      · exact (congrArg₂ (· ++ ·) (if_neg hj) (hothers j hj)).trans (List.append_nil _)
      · exact Option.or_none.trans hversion
    · rw [if_neg hhas] at hrest
      obtain ⟨hblank, hasks, hversion⟩ := hrest
      have hnot : asks l ≠ some .walletIdentifier := fun hasked => hhas (asks_identifier_iff.mp hasked)
      rw [effects_blank hnot hblank, firstMatch_title_eq_none (Bool.eq_false_of_not_eq_true hhas)]
      refine ⟨⟨?_, rfl, hasks, hversion⟩, fun j hj => ?_, rfl⟩
      · rw [List.flatten_cons, squeeze_append, squeeze_flatten_of_blank hblank]
        rfl
      · exact (congrArg (· ++ []) (if_neg hj)).trans (List.append_nil _)

theorem kept_of_readWhole {v : WalletVersion} {t : Option Int} {ls : List Str} (hne : ls ≠ [])
    (h : ReadWhole v t ls (effects (some .walletIdentifier) ls)) : Kept v t ls := by
  induction ls generalizing t with
  | nil => exact absurd rfl hne
  | cons l ls ih =>
    have hlength : identifierLength (some .walletIdentifier) (l :: ls) = _ := congrArg List.length h.identifier
    rw [identifierLength_cons, length_squeeze_cons] at hlength
    have hle := identifierLength_le (next (some .walletIdentifier) l) ls
    have hends : ends l = false := by
      by_contra hends
      have hunder : under (some .walletIdentifier) l ≠ some .walletIdentifier := fun hunder => hends (under_eq hunder).2
      rw [if_neg hunder] at hlength
      have hblank : squeeze l = [] := List.eq_nil_of_length_eq_zero (by omega)
      exact hends (Quiet.of_blank hblank).plain.not_ends
    rw [effects_identifier hends] at h
    obtain ⟨hidentifier, hkeys, hdataKey, htitle⟩ := h
    obtain ⟨hkey, hkeys⟩ := List.append_eq_nil_iff.mp hkeys
    rw [List.flatten_cons, squeeze_append] at hidentifier
    have hsuffix := List.append_cancel_left hidentifier
    refine ⟨hends, (keysOf_eq_nil_iff hends).mp hkey, ?_⟩
    by_cases hhas : has "Wallet Identifier" l = true
    · rw [if_pos hhas]
      rw [asks_identifier_iff.mpr hhas] at hsuffix hkeys hdataKey htitle
      refine ih ?_ ⟨hsuffix, hkeys, hdataKey, ?_⟩
      · rintro rfl
        exact hdataKey _ (mem_fields_identifier v) rfl
      · exact htitle.imp id fun htitle => (getD_or _ _ _).symm.trans htitle
    · have hnot : asks l ≠ some .walletIdentifier := fun hasked => hhas (asks_identifier_iff.mp hasked)
      have hall : (squeeze ls.flatten).length ≤ identifierLength (asks l) ls := (congrArg List.length hsuffix).ge
      have hblank := blank_of_none_lost hnot hall
      rw [if_neg hhas]
      rw [effects_blank hnot hblank, firstMatch_title_eq_none (Bool.eq_false_of_not_eq_true hhas)] at htitle
      rw [effects_blank hnot hblank] at hdataKey
      exact ⟨hblank, hdataKey, htitle⟩

end BackupSheet
