import Blocktrail.BackupSheet.RecoveryTool

/-! # What the reader makes of lines

What a line does depends on the key that it is read under and on the phrases in it. Blanks do not count.
-/

open Text

namespace BackupSheet

/-! ## What one line does -/

/-- The key that a line is read under. -/
def under (k : Option DataKey) (line : Str) : Option DataKey := if ends line then none else k

/-- An identifier has one line. -/
def left : Option DataKey → Option DataKey
  | some .walletIdentifier => none
  | k => k

/-- What a line asks for, of the next. -/
def asks (line : Str) : Option DataKey :=
  if has "Wallet Identifier" line then some .walletIdentifier
  else if has "Encrypted Primary Seed" line then some .encryptedPrimaryMnemonic
  else if has "Backup Seed" line then some .backupMnemonic
  else if has "Encrypted Recovery Secret" line then some .encryptedRecoverySecretMnemonic
  else if has "Password Encrypted Secret" line then some .passwordEncryptedSecretMnemonic
  else if has "Primary Mnemonic" line then some .primaryMnemonic
  else if has "Backup Mnemonic" line then some .backupMnemonic
  else none

def versionFor : Option DataKey → Option Nat
  | some .encryptedPrimaryMnemonic => some 2
  | some .primaryMnemonic => some 1
  | _ => none

/-- The key that is asked for after a line. -/
def next (k : Option DataKey) (line : Str) : Option DataKey := (asks line).or (left (under k line))

/-- The keys that a line adds. -/
def keysOf (line : Str) : List BlocktrailKey :=
  if ends line then [] else (firstMatch keyIndexAt line).toList.map fun keyIndex => ⟨keyIndex, none⟩

theorem startsWith_keyIndexAt {t : Str} {k : Option Int} (h : keyIndexAt t = some k) :
    startsWith "KeyIndex: " t = true := by
  unfold keyIndexAt at h
  split_ifs at h with hstart
  exact hstart

theorem has_of_phrase {p q s : Str} (hpq : fold p <:+: fold q) (h : has q s = true) : has p s = true :=
  has_iff.mpr (hpq.trans (has_iff.mp h))

theorem firstMatch_key_eq_none {line : Str} (h : has "KeyIndex:" line = false) : firstMatch keyIndexAt line = none := by
  cases hmatch : firstMatch keyIndexAt line with
  | none => rfl
  | some v =>
    have hhas := has_of_firstMatch (fun t a => startsWith_keyIndexAt) hmatch
    rw [has_of_phrase (show fold "KeyIndex:" <:+: fold "KeyIndex: " by decide +kernel) hhas] at h
    cases h

theorem handle_eq (line : Str) (r : Reading) :
    handle line r = ⟨under r.dataKey line, { r.scope with blocktrailKeys := r.scope.blocktrailKeys ++ keysOf line }⟩ := by
  unfold handle under keysOf
  split_ifs with hends hhas
  · rw [List.append_nil]
  · cases firstMatch keyIndexAt line with
    | none => simp
    | some keyIndex => rfl
  · rw [firstMatch_key_eq_none (Bool.eq_false_of_not_eq_true hhas)]
    simp

/-- What a scope has under a key, without its blanks. -/
def Scope.content (s : Scope) (k : DataKey) : Str := squeeze (s.texts k)

theorem Scope.content_append (s : Scope) (k j : DataKey) (t : Str) :
    (s.append k t).content j = s.content j ++ if j = k then squeeze t else [] := by
  unfold Scope.content Scope.append
  dsimp only
  split
  · next h =>
    subst h
    exact squeeze_append _ _
  · rw [List.append_nil]

theorem store_eq (line : Str) (r : Reading) :
    ∃ texts : DataKey → Str, store line r = ⟨left r.dataKey, { r.scope with texts := texts }⟩ ∧
      ∀ j, squeeze (texts j) = r.scope.content j ++ if r.dataKey = some j then squeeze line else [] := by
  obtain ⟨k, s⟩ := r
  rcases k with _ | k
  · exact ⟨s.texts, rfl, fun j => (List.append_nil _).symm⟩
  · refine ⟨(store line ⟨some k, s⟩).scope.texts, ?_, fun j => ?_⟩
    · cases k <;> rfl
    · have hcontent : squeeze ((store line ⟨some k, s⟩).scope.texts j) =
          s.content j ++ if j = k then squeeze line else [] := by
        cases k with
        | walletIdentifier => exact s.content_append _ _ _
        | _ =>
          refine (s.content_append _ j (line ++ [' '])).trans ?_
          rw [squeeze_append, squeeze_blank, List.append_nil]
      rw [hcontent]
      simp [eq_comm]

theorem readTitle_eq (line : Str) (r : Reading) :
    readTitle line r =
      ⟨r.dataKey, { r.scope with titleVersion := (firstMatch titleVersionAt line).or r.scope.titleVersion }⟩ := by
  unfold readTitle
  cases firstMatch titleVersionAt line with
  | none => rfl
  | some v => rfl

theorem expect_eq (line : Str) (r : Reading) :
    expect line r = ⟨(asks line).or r.dataKey,
      { r.scope with walletVersion := (versionFor (asks line)).or r.scope.walletVersion }⟩ := by
  unfold expect asks
  split_ifs <;> rfl

/-! ## Effects -/

/-- What lines do: the key that is asked for after them, and what they add to a scope. -/
@[ext]
structure Effect where
  dataKey : Option DataKey
  walletVersion : Option Nat
  titleVersion : Option (Option Int)
  blocktrailKeys : List BlocktrailKey
  content : DataKey → Str

namespace Effect

/-- Lines of no effect, with the key that is asked for. -/
def none (k : Option DataKey) : Effect := ⟨k, .none, .none, [], fun _ => []⟩

@[simp] theorem none_dataKey (k : Option DataKey) : (none k).dataKey = k := rfl

/-- One effect and then another. -/
def append (e f : Effect) : Effect where
  dataKey := f.dataKey
  walletVersion := f.walletVersion.or e.walletVersion
  titleVersion := f.titleVersion.or e.titleVersion
  blocktrailKeys := e.blocktrailKeys ++ f.blocktrailKeys
  content j := e.content j ++ f.content j

theorem append_none (e : Effect) : e.append (.none e.dataKey) = e := by
  ext <;> simp [append, none]

theorem none_append (k : Option DataKey) (e : Effect) : (none k).append e = e := by
  ext <;> simp [append, none]

theorem append_assoc (e f g : Effect) : (e.append f).append g = e.append (f.append g) := by
  ext <;> simp [append, Option.or_assoc]

end Effect

def effectOf (k : Option DataKey) (line : Str) : Effect where
  dataKey := next k line
  walletVersion := versionFor (asks line)
  titleVersion := firstMatch titleVersionAt line
  blocktrailKeys := keysOf line
  content j := if under k line = some j then squeeze line else []

def effects (k : Option DataKey) : List Str → Effect
  | [] => .none k
  | line :: lines => (effectOf k line).append (effects (next k line) lines)

theorem effects_append (k : Option DataKey) (ls ls' : List Str) :
    effects k (ls ++ ls') = (effects k ls).append (effects (effects k ls).dataKey ls') := by
  induction ls generalizing k with
  | nil => exact (Effect.none_append k _).symm
  | cons l ls ih =>
    rw [List.cons_append, effects, ih, effects, Effect.append_assoc]
    rfl

def Reading.effect (r : Reading) : Effect where
  dataKey := r.dataKey
  walletVersion := r.scope.walletVersion
  titleVersion := r.scope.titleVersion
  blocktrailKeys := r.scope.blocktrailKeys
  content := r.scope.content

/-- **One line.** -/
theorem effect_readLine (r : Reading) (line : Str) :
    (readLine r line).effect = r.effect.append (effectOf r.dataKey line) := by
  obtain ⟨texts, hstore, htexts⟩ := store_eq line (handle line r)
  unfold readLine
  rw [hstore, readTitle_eq, expect_eq]
  rw [handle_eq] at htexts ⊢
  exact Effect.ext rfl rfl rfl rfl (funext htexts)

/-- **The lines of a page.** -/
theorem effect_foldl (r : Reading) (ls : List Str) :
    (ls.foldl readLine r).effect = r.effect.append (effects r.dataKey ls) := by
  induction ls generalizing r with
  | nil => exact (Effect.append_none r.effect).symm
  | cons l ls ih =>
    have hkey : (readLine r l).dataKey = next r.dataKey l := congrArg Effect.dataKey (effect_readLine r l)
    rw [List.foldl_cons, ih, effect_readLine, hkey, Effect.append_assoc, effects]

/-! ## Quiet texts -/

def phrases : List Str :=
  ["Backup Seed", "Encrypted Recovery Secret", "Wallet Recovery Instructions", "Backup Mnemonic",
    "BlockTrail Public Keys", "KeyIndex:", "Wallet Identifier", "Encrypted Primary Seed", "Password Encrypted Secret",
    "Primary Mnemonic"]

/-- A text without the phrases that the reader looks for. -/
def Quiet (t : Str) : Prop := ∀ phrase ∈ phrases, has phrase t = false

instance (t : Str) : Decidable (Quiet t) := inferInstanceAs (Decidable (∀ phrase ∈ phrases, has phrase t = false))

theorem Quiet.of_piece {s t : Str} (hst : s <:+: t) (h : Quiet t) : Quiet s :=
  fun phrase hphrase => not_has_of_piece hst (h phrase hphrase)

theorem Quiet.of_blank {s : Str} (h : squeeze s = []) : Quiet s := by
  intro phrase hphrase
  by_contra hhas
  have hle := length_squeeze_of_has (Bool.eq_true_of_not_eq_false hhas)
  rw [h] at hle
  have hpos : ∀ p ∈ phrases, 0 < (squeeze p).length := by decide +kernel
  exact absurd hle (Nat.not_le.mpr (hpos phrase hphrase))

/-- A text that asks for nothing and ends nothing. It may be a caption. -/
def Plain (t : Str) : Prop := ∀ phrase ∈ phrases, phrase ≠ "KeyIndex:".toList → has phrase t = false

theorem Quiet.plain {t : Str} (h : Quiet t) : Plain t := fun phrase hphrase _ => h phrase hphrase

theorem Plain.not_ends {line : Str} (h : Plain line) : ends line = false := by
  unfold ends
  rw [h "Backup Seed" (by decide +kernel) (by decide +kernel), h "Encrypted Recovery Secret" (by decide +kernel) (by decide +kernel),
    h "Wallet Recovery Instructions" (by decide +kernel) (by decide +kernel), h "Backup Mnemonic" (by decide +kernel) (by decide +kernel),
    h "BlockTrail Public Keys" (by decide +kernel) (by decide +kernel)]
  rfl

theorem startsWith_titleVersionAt {t : Str} {v : Option Int} (h : titleVersionAt t = some v) :
    startsWith "Wallet Identifier (" t = true := by
  unfold titleVersionAt at h
  split_ifs at h with hstart
  all_goals exact hstart

theorem firstMatch_title_eq_none {line : Str} (h : has "Wallet Identifier" line = false) :
    firstMatch titleVersionAt line = none := by
  cases hmatch : firstMatch titleVersionAt line with
  | none => rfl
  | some v =>
    have hhas := has_of_firstMatch (fun t a => startsWith_titleVersionAt) hmatch
    rw [has_of_phrase (show fold "Wallet Identifier" <:+: fold "Wallet Identifier (" by decide +kernel) hhas] at h
    cases h

theorem Plain.asks {line : Str} (h : Plain line) : asks line = none := by
  unfold BackupSheet.asks
  rw [h "Wallet Identifier" (by decide +kernel) (by decide +kernel), h "Encrypted Primary Seed" (by decide +kernel) (by decide +kernel),
    h "Backup Seed" (by decide +kernel) (by decide +kernel), h "Encrypted Recovery Secret" (by decide +kernel) (by decide +kernel),
    h "Password Encrypted Secret" (by decide +kernel) (by decide +kernel), h "Primary Mnemonic" (by decide +kernel) (by decide +kernel),
    h "Backup Mnemonic" (by decide +kernel) (by decide +kernel)]
  rfl

theorem Plain.under {line : Str} (h : Plain line) (k : Option DataKey) : under k line = k := by
  unfold BackupSheet.under
  rw [h.not_ends]
  rfl

theorem Plain.effectOf {line : Str} (h : Plain line) (k : Option DataKey) :
    effectOf k line = ⟨left k, none, none, (firstMatch keyIndexAt line).toList.map fun keyIndex => ⟨keyIndex, none⟩,
      fun j => if k = some j then squeeze line else []⟩ := by
  unfold BackupSheet.effectOf next keysOf
  rw [h.asks, h.under, h.not_ends, firstMatch_title_eq_none (h "Wallet Identifier" (by decide +kernel) (by decide +kernel))]
  rfl

theorem left_of_ne {k : Option DataKey} (h : k ≠ some .walletIdentifier) : left k = k := by
  cases k with
  | none => rfl
  | some j => cases j <;> first | rfl | exact absurd rfl h

theorem Quiet.next {line : Str} (h : Quiet line) {k : Option DataKey} (hk : k ≠ some .walletIdentifier) :
    next k line = k := (congrArg Effect.dataKey (h.plain.effectOf k)).trans (left_of_ne hk)

theorem Quiet.effectOf {line : Str} (h : Quiet line) (k : Option DataKey) :
    effectOf k line = ⟨left k, none, none, [], fun j => if k = some j then squeeze line else []⟩ := by
  rw [h.plain.effectOf, firstMatch_key_eq_none (h "KeyIndex:" (by decide +kernel))]
  rfl

theorem effects_quiet {k : Option DataKey} (hk : k ≠ some .walletIdentifier) {ls : List Str} (h : ∀ l ∈ ls, Quiet l) :
    effects k ls = ⟨k, none, none, [], fun j => if k = some j then squeeze ls.flatten else []⟩ := by
  induction ls with
  | nil =>
    refine Effect.ext rfl rfl rfl rfl (funext fun j => ?_)
    exact (ite_self _).symm
  | cons l ls ih =>
    have hl := h l List.mem_cons_self
    rw [effects, hl.effectOf, hl.next hk, ih fun l' hl' => h l' (List.mem_cons_of_mem l hl')]
    refine Effect.ext rfl rfl rfl rfl (funext fun j => ?_)
    unfold Effect.append
    dsimp only
    rw [List.flatten_cons, squeeze_append]
    split
    · rfl
    · rfl

theorem effects_blank {k : Option DataKey} (hk : k ≠ some .walletIdentifier) {ls : List Str}
    (h : ∀ l ∈ ls, squeeze l = []) : effects k ls = .none k := by
  rw [effects_quiet hk fun l hl => Quiet.of_blank (h l hl), squeeze_flatten_of_blank h]
  refine Effect.ext rfl rfl rfl rfl (funext fun j => ?_)
  exact ite_self _

end BackupSheet
