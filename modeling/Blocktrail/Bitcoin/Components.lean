import Blocktrail.Bitcoin.Sample
import Blocktrail.Lib.Separated

/-! # Paths by their components

`Wallet.deriveByPath` compares and cuts texts. A path is a list of components, and this is what it should mean to
derive one path from another.
-/

open Text Throwing

namespace Bitcoin

variable {Node : Type}

/-! ## The meaning of a path -/

/-- The index of a component: a numeral, hardened by an apostrophe at its end. -/
def indexOf (component : Str) : Option Nat :=
  let hardened : Bool := component.getLast? = some apostrophe
  let numeral := if hardened then component.dropLast else component
  let index := Nat.ofDigitChars 10 numeral 0 + if hardened then HIGHEST_BIT else 0
  if numeral ≠ [] ∧ numeral.all Char.isDigit ∧ index < 2 ^ 32 then some index else none

/-- A path that starts so is absolute. -/
def IsRoot (head : Str) : Prop := head = ['m'] ∨ head = ['M']

instance (head : Str) : Decidable (IsRoot head) := inferInstanceAs (Decidable (head = ['m'] ∨ head = ['M']))

/-- The indexes from a key's path to a path that is the same or below it. A public key has no private path. -/
def remaining (keyPath path : Str) : Option (List Nat) :=
  match keyPath.splitOn '/', path.splitOn '/' with
  | k :: ks, p :: ps =>
    if IsRoot k ∧ IsRoot p ∧ ¬(p = ['m'] ∧ k = ['M']) ∧ ks <+: ps then (ps.drop ks.length).mapM indexOf else none
  | _, _ => none

def deriveIndex (lib : HDLib Node) (key : Node) (i : Nat) : Option Node := (lib.derive key (some i)).toOption

/-- The path is public and the key's is private. -/
def toPublic (keyPath path : Str) : Bool := path.head? = some 'M' ∧ keyPath.head? = some 'm'

/-- One index after the other, then made public where the path is. -/
def deriveComponents (lib : HDLib Node) (key : Node) (path keyPath : Str) : Option Node := do
  let indexes ← remaining keyPath path
  let child ← indexes.foldlM (deriveIndex lib) key
  pure (if toPublic keyPath path then lib.neutered child else child)

/-- What deriving `path` from `keyPath` should do. -/
structure DerivesByComponents (lib : HDLib Node) (key : Node) (path keyPath : Str) : Prop where
  derives : (deriveByPath lib key path keyPath).toOption = deriveComponents lib key path (ownPath lib key keyPath)
  /-- Through a path in between that is public or private as the key's is. -/
  through_own : ∀ between is js, remaining (ownPath lib key keyPath) between = some is →
    remaining between path = some js → between.head? = (ownPath lib key keyPath).head? →
      (deriveByPath lib key between keyPath).toOption.bind
          (fun child => (deriveByPath lib child path between).toOption) =
        (deriveByPath lib key path keyPath).toOption
  /-- Through any path in between, where that has the key. -/
  through : ∀ between is js child k, remaining (ownPath lib key keyPath) between = some is →
    remaining between path = some js → deriveByPath lib key between keyPath = .ok child →
      deriveByPath lib child path between = .ok k → deriveByPath lib key path keyPath = .ok k

/-! ## Where the texts have that meaning -/

/-- The letters that a key path and a path below it start with. -/
def Roots (k p : Char) : Prop := (k = 'm' ∨ k = 'M') ∧ (p = 'm' ∨ p = 'M') ∧ ¬(p = 'm' ∧ k = 'M')

/-- The path starts with the key path, in upper or lower case. -/
def Begins (lib : HDLib Node) (keyPath path : Str) : Prop :=
  lib.lowerCase.toLowerCase keyPath <+: lib.lowerCase.toLowerCase path

/-- The path without the length of the key path. -/
def rest (keyPath path : Str) : Str := substr16 (length16 keyPath) path

/-- The pieces of a text between slashes, of which one may come first. -/
def pieces (text : Str) : List Str := (if text.head? = some '/' then text.tail else text).splitOn '/'

/-- The key has the child that `parseInt` reads from the piece. -/
def Derivable (lib : HDLib Node) (key : Node) (piece : Str) : Prop :=
  piece = [] ∨ ∃ i : Nat, chunkIndex piece = some (i : Int) ∧ i < 2 ^ 32 ∧
    (HIGHEST_BIT ≤ i → lib.isNeutered key = false)

/-- The key has a child for every piece of the text. -/
def Readable (lib : HDLib Node) (key : Node) (text : Str) : Prop := ∀ piece ∈ pieces text, Derivable lib key piece

/-- The key paths and paths of which something else is read than their components. -/
inductive Misread (lib : HDLib Node) (key : Node) : Str → Str → Prop
  /-- The path goes on inside the last level of the key path, as `M/10` does behind `M/1`. -/
  | level {k p c : Char} {t more : Str} (roots : Roots k p) (begins : Begins lib (k :: t) (p :: (t ++ c :: more)))
      (hc : c ≠ '/') (readable : Readable lib key (c :: more)) : Misread lib key (k :: t) (p :: (t ++ c :: more))
  /-- A piece below the key path is no numeral, as in `M//1` and `M/1abc`. -/
  | numeral {k p : Char} {t more piece : Str} (roots : Roots k p) (readable : Readable lib key ('/' :: more))
      (hpiece : piece ∈ more.splitOn '/') (hnone : indexOf piece = none) :
      Misread lib key (k :: t) (p :: (t ++ '/' :: more))
  /-- The root is more than a letter, as in `m1`. -/
  | root {k p c : Char} {t more : Str} (roots : Roots k p) (begins : Begins lib (k :: c :: t) (p :: (c :: t ++ more)))
      (hc : c ≠ '/') (readable : Readable lib key more) : Misread lib key (k :: c :: t) (p :: (c :: t ++ more))
  /-- Below the root the path starts with the key path only in another case, as `M/K` does with `M/k`. -/
  | letters {k p : Char} {t u : Str} (roots : Roots k p) (begins : Begins lib (k :: t) (p :: u)) (hnot : ¬t <+: u)
      (readable : Readable lib key (rest (k :: t) (p :: u))) : Misread lib key (k :: t) (p :: u)

/-- The tests that `deriveByPath` makes. -/
def TextuallyBelow (lib : HDLib Node) (keyPath path : Str) : Prop :=
  path.head?.map Char.toLower = some 'm' ∧ keyPath.head?.map Char.toLower = some 'm' ∧
    ¬(path.head? = some 'm' ∧ keyPath.head? = some 'M') ∧ Begins lib keyPath path

/-- The path goes on, behind the key's path, with a slash, and with numerals between slashes. -/
structure Clean (keyPath path : Str) : Prop where
  root : keyPath.tail = [] ∨ keyPath.tail.head? = some '/'
  sameCase : keyPath.tail <+: path.tail
  slash : rest keyPath path = [] ∨ (rest keyPath path).head? = some '/'
  numerals : rest keyPath path ≠ [] → ∀ piece ∈ pieces (rest keyPath path), (indexOf piece).isSome

/-! ## Components and texts -/

theorem mapM_indexOf_isSome {cs : List Str} : (cs.mapM indexOf).isSome ↔ ∀ c ∈ cs, (indexOf c).isSome := by
  induction cs with
  | nil => simp
  | cons c cs ih =>
    rcases hc : indexOf c with _ | i
    · simp [hc]
    · rcases hcs : cs.mapM indexOf with _ | is <;> simp_all

theorem remaining_eq_some {keyPath path : Str} {is : List Nat} : remaining keyPath path = some is ↔
    ∃ (k p : Char) (t : Str) (cs : List Str), keyPath = k :: t ∧ path = p :: (t ++ cs.flatMap ('/' :: ·)) ∧
      (k = 'm' ∨ k = 'M') ∧ (p = 'm' ∨ p = 'M') ∧ ¬(p = 'm' ∧ k = 'M') ∧ (t = [] ∨ t.head? = some '/') ∧
      (∀ c ∈ cs, '/' ∉ c) ∧ cs.mapM indexOf = some is := by
  constructor
  · intro h
    unfold remaining at h
    rcases hk : keyPath.splitOn '/' with _ | ⟨k, ks⟩
    · exact absurd hk (List.splitOn_ne_nil '/' keyPath)
    rcases hp : path.splitOn '/' with _ | ⟨p, ps⟩
    · exact absurd hp (List.splitOn_ne_nil '/' path)
    simp only [hk, hp] at h
    split at h
    · next hcond =>
      obtain ⟨hkr, hpr, hpub, cs, rfl⟩ := hcond
      have hkt := Separated.eq_of_splitOn hk
      have hpt := Separated.eq_of_splitOn hp
      have hslash : ∀ c ∈ cs, '/' ∉ c := fun c hc =>
        Separated.not_mem_of_mem_splitOn (hp ▸ List.mem_cons_of_mem p (List.mem_append_right ks hc))
      rw [List.drop_left] at h
      rw [List.flatMap_append] at hpt
      refine ⟨k.headD 'm', p.headD 'm', ks.flatMap ('/' :: ·), cs, ?_⟩
      have hks := Separated.flatMap_head? '/' ks
      rcases hkr with rfl | rfl <;> rcases hpr with rfl | rfl <;> simp_all
    · cases h
  · rintro ⟨k, p, t, cs, rfl, rfl, hk, hp, hpub, ht, hcs, his⟩
    obtain ⟨ks, rfl, hks⟩ := Separated.exists_flatMap ht
    have hsplit : ∀ c : Char, (c = 'm' ∨ c = 'M') → ∀ xs : List Str, (∀ x ∈ xs, '/' ∉ x) →
        (c :: xs.flatMap ('/' :: ·)).splitOn '/' = [c] :: xs := by
      intro c hc xs hxs
      apply Separated.splitOn_flatMap (x := [c])
      intro x hx
      rcases List.mem_cons.mp hx with rfl | hx
      · rcases hc with rfl | rfl <;> decide
      · exact hxs x hx
    have hboth : ∀ x ∈ ks ++ cs, '/' ∉ x := fun x hx => (List.mem_append.mp hx).elim (hks x) (hcs x)
    unfold remaining
    rw [hsplit k hk ks hks, ← List.flatMap_append, hsplit p hp (ks ++ cs) hboth]
    dsimp only
    rw [if_pos, List.drop_left, his]
    refine ⟨?_, ?_, ?_, List.prefix_append ks cs⟩
    · rcases hk with rfl | rfl <;> simp [IsRoot]
    · rcases hp with rfl | rfl <;> simp [IsRoot]
    · rintro ⟨h1, h2⟩
      exact hpub ⟨List.head_eq_of_cons_eq h1, List.head_eq_of_cons_eq h2⟩

/-! ## What `deriveByPath` does -/

theorem indexOf_eq_some {c : Str} {i : Nat} (h : indexOf c = some i) :
    i < 2 ^ 32 ∧ ∃ numeral, numeral ≠ [] ∧ (∀ d ∈ numeral, d.isDigit) ∧
      (c = numeral ∧ i = Nat.ofDigitChars 10 numeral 0 ∨
        c = numeral ++ [apostrophe] ∧ i = Nat.ofDigitChars 10 numeral 0 + HIGHEST_BIT) := by
  unfold indexOf at h
  by_cases hh : c.getLast? = some apostrophe
  · simp only [hh, decide_true, if_true] at h
    split at h
    · next hcond =>
      cases h
      obtain ⟨hne, hd, hlt⟩ := hcond
      have hc : c = c.dropLast ++ [apostrophe] := (List.dropLast_append_getLast? apostrophe hh).symm
      exact ⟨hlt, c.dropLast, hne, List.all_eq_true.mp hd, Or.inr ⟨hc, rfl⟩⟩
    · cases h
  · simp only [hh, decide_false, Bool.false_eq_true, if_false, Nat.add_zero] at h
    split at h
    · next hcond =>
      cases h
      obtain ⟨hne, hd, hlt⟩ := hcond
      exact ⟨hlt, c, hne, List.all_eq_true.mp hd, Or.inl ⟨rfl, rfl⟩⟩
    · cases h

theorem not_mem_digits {s : Str} (h : ∀ d ∈ s, d.isDigit) : apostrophe ∉ s := fun hmem =>
  absurd (h apostrophe hmem) (by decide)

theorem deriveChunk_of_indexOf (lib : HDLib Node) (key : Node) {c : Str} {i : Nat} (h : indexOf c = some i) :
    deriveChunk lib key c = lib.derive key (some i) := by
  obtain ⟨hlt, numeral, hne, hd, ⟨rfl, rfl⟩ | ⟨rfl, rfl⟩⟩ := indexOf_eq_some h
  · rw [deriveChunk, if_neg hne, chunkIndex, if_neg (not_mem_digits hd), parseInt10_digits hne hd]
  · have hk : Nat.ofDigitChars 10 numeral 0 < HIGHEST_BIT := by
      unfold HIGHEST_BIT at hlt ⊢
      omega
    rw [deriveChunk, if_neg (by simp), chunkIndex_hardened_of (not_mem_digits hd) (parseInt10_digits hne hd) hk]

theorem derive_eq_ok {lib : HDLib Node} {key n : Node} {index : Option Int} :
    lib.derive key index = .ok n ↔ ∃ i : Nat, index = some (i : Int) ∧ i < 2 ^ 32 ∧
      (HIGHEST_BIT ≤ i → lib.isNeutered key = false) ∧ n = lib.child key i := by
  constructor
  · intro h
    unfold HDLib.derive at h
    split at h
    · next i =>
      split at h
      · next hlt =>
        split at h
        · cases h
        · next hpub =>
          cases h
          refine ⟨i, rfl, hlt, fun hi => ?_, rfl⟩
          simpa [hi] using hpub
      · cases h
    · cases h
  · rintro ⟨i, rfl, hlt, hpub, rfl⟩
    show (if i < 2 ^ 32 then _ else _) = _
    rw [if_pos hlt, if_neg]
    rintro ⟨hi, hn⟩
    rw [hpub hi] at hn
    cases hn

theorem deriveChunk_ok {lib : HDLib Node} {key : Node} {piece : Str} :
    (∃ n, deriveChunk lib key piece = .ok n) ↔ Derivable lib key piece := by
  unfold Derivable
  by_cases hnil : piece = []
  · simp [deriveChunk, hnil]
  · have hchunk : deriveChunk lib key piece = lib.derive key (chunkIndex piece) := if_neg hnil
    simp only [hchunk, derive_eq_ok, hnil, false_or]
    constructor
    · rintro ⟨n, i, hi, hlt, hpub, -⟩
      exact ⟨i, hi, hlt, hpub⟩
    · rintro ⟨i, hi, hlt, hpub⟩
      exact ⟨lib.child key i, i, hi, hlt, hpub, rfl⟩

theorem isNeutered_deriveChunk {lib : HDLib Node} (hl : lib.Lawful) {key n : Node} {piece : Str}
    (h : deriveChunk lib key piece = .ok n) : lib.isNeutered n = lib.isNeutered key := by
  unfold deriveChunk at h
  split at h
  · cases h
    rfl
  · obtain ⟨i, -, -, -, rfl⟩ := derive_eq_ok.mp h
    exact hl.isNeutered_child key i

theorem foldlM_deriveChunk_ok {lib : HDLib Node} (hl : lib.Lawful) {key : Node} {chunks : List Str} :
    (∃ n, chunks.foldlM (deriveChunk lib) key = .ok n) ↔ ∀ piece ∈ chunks, Derivable lib key piece := by
  induction chunks generalizing key with
  | nil => simp [pure, Except.pure]
  | cons c chunks ih =>
    rcases hc : deriveChunk lib key c with e | child
    · have hnot : ¬Derivable lib key c := fun hd => by
        obtain ⟨n, hn⟩ := deriveChunk_ok.mpr hd
        rw [hc] at hn
        cases hn
      simp [List.foldlM_cons, hc, hnot, bind, Except.bind]
    · have hd : Derivable lib key c := deriveChunk_ok.mp ⟨child, hc⟩
      have hsame : ∀ piece, Derivable lib child piece ↔ Derivable lib key piece := fun piece => by
        unfold Derivable
        rw [isNeutered_deriveChunk hl hc]
      simp only [List.foldlM_cons, hc, bind, Except.bind, ih, hsame, List.mem_cons, forall_eq_or_imp, hd, true_and]

theorem deriveByPath_of_below (lib : HDLib Node) (key : Node) {path keyPath : Str}
    (h : TextuallyBelow lib (ownPath lib key keyPath) path) :
    deriveByPath lib key path keyPath =
      (pieces (rest (ownPath lib key keyPath) path)).foldlM (deriveChunk lib) key >>= fun n =>
        pure (if toPublic (ownPath lib key keyPath) path then lib.neutered n else n) := by
  obtain ⟨hp, hk, hpub, hpre⟩ := h
  obtain ⟨p, hp, hpl⟩ := Option.map_eq_some_iff.mp hp
  obtain ⟨k, hk, hkl⟩ := Option.map_eq_some_iff.mp hk
  rw [hp, hk, Option.some_inj, Option.some_inj] at hpub
  unfold deriveByPath
  simp only [hp, hk]
  rw [if_neg (by simp [hpl, hkl]), if_neg hpub, if_neg (fun hnot => hnot (List.isPrefixOf_iff_prefix.mpr hpre))]
  simp only [toPublic, hp, hk, Option.some_inj, decide_eq_true_eq]
  rfl

theorem textuallyBelow_of_ok {lib : HDLib Node} {key n : Node} {path keyPath : Str}
    (h : deriveByPath lib key path keyPath = .ok n) : TextuallyBelow lib (ownPath lib key keyPath) path := by
  unfold deriveByPath at h
  generalize ownPath lib key keyPath = ownPath at h ⊢
  dsimp only at h
  split at h
  · next p k hp hk =>
    unfold TextuallyBelow
    rw [hp, hk]
    by_cases hroot : p.toLower ≠ 'm' ∨ k.toLower ≠ 'm'
    · rw [if_pos hroot] at h
      cases h
    by_cases hpub : p = 'm' ∧ k = 'M'
    · rw [if_neg hroot, if_pos hpub] at h
      cases h
    rw [if_neg hroot, if_neg hpub] at h
    by_cases hpre : (lib.lowerCase.toLowerCase ownPath).isPrefixOf (lib.lowerCase.toLowerCase path) = true
    · simp only [ne_eq, not_or, not_not] at hroot
      exact ⟨congrArg some hroot.1, congrArg some hroot.2, by simpa using hpub, List.isPrefixOf_iff_prefix.mp hpre⟩
    · rw [if_pos hpre] at h
      cases h
  · cases h

theorem deriveByPath_ok {lib : HDLib Node} (hl : lib.Lawful) {key : Node} {path keyPath : Str} :
    (∃ n, deriveByPath lib key path keyPath = .ok n) ↔ TextuallyBelow lib (ownPath lib key keyPath) path ∧
      Readable lib key (rest (ownPath lib key keyPath) path) := by
  constructor
  · rintro ⟨n, h⟩
    have hb := textuallyBelow_of_ok h
    rw [deriveByPath_of_below lib key hb] at h
    obtain ⟨m, hm, -⟩ := exists_of_bind_ok h
    exact ⟨hb, (foldlM_deriveChunk_ok hl).mp ⟨m, hm⟩⟩
  · rintro ⟨hb, hd⟩
    obtain ⟨m, hm⟩ := (foldlM_deriveChunk_ok hl).mpr hd
    rw [deriveByPath_of_below lib key hb, hm]
    exact ⟨_, rfl⟩

/-! ## Clean texts -/

theorem Roots.toLower {k p : Char} (h : Roots k p) : k.toLower = 'm' ∧ p.toLower = 'm' := by
  obtain ⟨rfl | rfl, rfl | rfl, -⟩ := h <;> decide

theorem rest_eq {k p : Char} (h : Roots k p) (t u : Str) : rest (k :: t) (p :: (t ++ u)) = u :=
  substr16_root h.toLower.2 h.toLower.1 t u

theorem pieces_slash (more : Str) : pieces ('/' :: more) = more.splitOn '/' := by
  rw [pieces, if_pos List.head?_cons, List.tail_cons]

theorem pieces_eq {cs : List Str} (h : ∀ c ∈ cs, '/' ∉ c) (hne : cs ≠ []) : pieces (cs.flatMap ('/' :: ·)) = cs := by
  cases cs with
  | nil => contradiction
  | cons c cs =>
    have hflat : (c :: cs).flatMap ('/' :: ·) = '/' :: (c ++ cs.flatMap ('/' :: ·)) := by simp
    rw [hflat, pieces_slash]
    exact Separated.splitOn_flatMap h

/-- Letters aside, a path starts with the key path that it goes on from with a slash. -/
theorem begins_append (lib : HDLib Node) {k p : Char} (h : Roots k p) (t : Str) {u : Str}
    (hu : u = [] ∨ u.head? = some '/') : Begins lib (k :: t) (p :: (t ++ u)) := by
  have hroot := toLowerCase_root lib.lowerCase h.toLower.2 h.toLower.1 t
  unfold Begins
  cases u with
  | nil => rw [List.append_nil, hroot]
  | cons c u =>
    obtain rfl : c = '/' := by simpa using hu
    rw [← List.cons_append, lib.lowerCase.slash, hroot]
    exact List.prefix_append _ _

theorem Roots.textuallyBelow {lib : HDLib Node} {k p : Char} {t u : Str} (h : Roots k p)
    (hbegins : Begins lib (k :: t) (p :: u)) : TextuallyBelow lib (k :: t) (p :: u) := by
  obtain ⟨hk, hp⟩ := h.toLower
  exact ⟨congrArg some hp, congrArg some hk, by simpa using fun h1 h2 => h.2.2 ⟨h1, h2⟩, hbegins⟩

theorem TextuallyBelow.exists_roots {lib : HDLib Node} {keyPath path : Str} (h : TextuallyBelow lib keyPath path) :
    ∃ k p t u, keyPath = k :: t ∧ path = p :: u ∧ Roots k p ∧ Begins lib (k :: t) (p :: u) := by
  obtain ⟨hp, hk, hpub, hbegins⟩ := h
  cases path with
  | nil => cases hp
  | cons p u =>
    cases keyPath with
    | nil => cases hk
    | cons k t =>
      exact ⟨k, p, t, u, rfl, rfl, ⟨toLower_eq_m (Option.some.inj hk), toLower_eq_m (Option.some.inj hp),
        by simpa using hpub⟩, hbegins⟩

theorem clean_of_remaining (lib : HDLib Node) {keyPath path : Str} {is : List Nat}
    (h : remaining keyPath path = some is) : TextuallyBelow lib keyPath path ∧ Clean keyPath path := by
  obtain ⟨k, p, t, cs, rfl, rfl, hk, hp, hpub, ht, hcs, his⟩ := remaining_eq_some.mp h
  have hroots : Roots k p := ⟨hk, hp, hpub⟩
  refine ⟨hroots.textuallyBelow (begins_append lib hroots t (Separated.flatMap_head? '/' cs)), ht,
    List.prefix_append _ _, ?_, ?_⟩
  · rw [rest_eq hroots]
    exact Separated.flatMap_head? '/' cs
  · rw [rest_eq hroots]
    intro hne piece hmem
    rw [pieces_eq hcs (by rintro rfl; exact hne rfl)] at hmem
    exact mapM_indexOf_isSome.mp (by simp [his]) piece hmem

theorem remaining_of_clean {lib : HDLib Node} {keyPath path : Str} (hb : TextuallyBelow lib keyPath path)
    (hc : Clean keyPath path) : ∃ is, remaining keyPath path = some is := by
  obtain ⟨k, p, t, u, rfl, rfl, hroots, -⟩ := hb.exists_roots
  obtain ⟨ht, ⟨v, hv⟩, hslash, hnum⟩ := hc
  simp only [List.tail_cons] at ht hv
  subst hv
  rw [rest_eq hroots] at hslash hnum
  obtain ⟨cs, rfl, hcs⟩ := Separated.exists_flatMap hslash
  have hall : ∀ c ∈ cs, (indexOf c).isSome := by
    intro c hmem
    have hne : cs ≠ [] := List.ne_nil_of_mem hmem
    apply hnum (by cases cs <;> simp_all) c
    rwa [pieces_eq hcs hne]
  obtain ⟨is, his⟩ := Option.isSome_iff_exists.mp (mapM_indexOf_isSome.mpr hall)
  exact ⟨is, remaining_eq_some.mpr ⟨k, p, t, cs, rfl, rfl, hroots.1, hroots.2.1, hroots.2.2, ht, hcs, his⟩⟩

theorem misread_iff {lib : HDLib Node} {key : Node} {keyPath path : Str} :
    Misread lib key keyPath path ↔
      TextuallyBelow lib keyPath path ∧ Readable lib key (rest keyPath path) ∧ ¬Clean keyPath path := by
  constructor
  · intro h
    cases h with
    | @level k p c t more roots begins hc readable =>
      refine ⟨roots.textuallyBelow begins, by rwa [rest_eq roots], fun hclean => ?_⟩
      have hslash := hclean.slash
      rw [rest_eq roots] at hslash
      simp [hc] at hslash
    | @numeral k p t more piece roots readable hpiece hnone =>
      refine ⟨roots.textuallyBelow (begins_append lib roots t (Or.inr rfl)), by rwa [rest_eq roots], fun hclean => ?_⟩
      have hnum := hclean.numerals
      rw [rest_eq roots, pieces_slash] at hnum
      have hsome := hnum (List.cons_ne_nil _ _) piece hpiece
      rw [hnone] at hsome
      cases hsome
    | @root k p c t more roots begins hc readable =>
      refine ⟨roots.textuallyBelow begins, by rwa [rest_eq roots], fun hclean => ?_⟩
      have hroot := hclean.root
      simp [hc] at hroot
    | letters roots begins hnot readable =>
      exact ⟨roots.textuallyBelow begins, readable, fun hclean => hnot hclean.sameCase⟩
  · rintro ⟨hb, hread, hnot⟩
    obtain ⟨k, p, t, u, rfl, rfl, roots, begins⟩ := hb.exists_roots
    by_cases hsame : t <+: u
    swap
    · exact .letters roots begins hsame hread
    obtain ⟨v, rfl⟩ := hsame
    rw [rest_eq roots] at hread
    by_cases hroot : t = [] ∨ t.head? = some '/'
    swap
    · cases t with
      | nil => exact absurd (Or.inl rfl) hroot
      | cons c t => exact .root roots begins (by simpa using hroot) hread
    -- The key path is a path, and the path goes on from it.
    by_contra hread'
    refine hnot ⟨hroot, List.prefix_append t v, ?_, ?_⟩
    · rw [rest_eq roots]
      cases v with
      | nil => exact Or.inl rfl
      | cons c more =>
        right
        by_contra hc
        exact hread' (.level roots begins (by simpa using hc) hread)
    · rw [rest_eq roots]
      intro hne piece hpiece
      cases v with
      | nil => exact absurd rfl hne
      | cons c more =>
        rw [Option.isSome_iff_ne_none]
        intro hnone
        by_cases hc : c = '/'
        · subst hc
          rw [pieces_slash] at hpiece
          exact hread' (.numeral roots hread hpiece hnone)
        · exact hread' (.level roots begins hc hread)

/-! ## Deriving by components -/

theorem foldlM_deriveIndex (lib : HDLib Node) (key : Node) {cs : List Str} {is : List Nat}
    (h : cs.mapM indexOf = some is) :
    (cs.foldlM (deriveChunk lib) key).toOption = is.foldlM (deriveIndex lib) key := by
  induction cs generalizing key is with
  | nil =>
    cases h
    rfl
  | cons c cs ih =>
    rw [List.mapM_cons] at h
    obtain ⟨i, hi, h⟩ := Option.bind_eq_some_iff.mp h
    obtain ⟨is', his, h⟩ := Option.bind_eq_some_iff.mp h
    cases h
    rw [List.foldlM_cons, List.foldlM_cons, toOption_bind, deriveChunk_of_indexOf lib key hi]
    exact congrArg _ (funext fun child => ih child his)

theorem derives_of_remaining (lib : HDLib Node) (key : Node) {path keyPath : Str} {is : List Nat}
    (h : remaining (ownPath lib key keyPath) path = some is) :
    (deriveByPath lib key path keyPath).toOption = deriveComponents lib key path (ownPath lib key keyPath) := by
  have hb := (clean_of_remaining lib h).1
  rw [deriveByPath_of_below lib key hb, toOption_bind, deriveComponents, h]
  obtain ⟨k, p, t, cs, hk, rfl, hkroot, hproot, hpub, -, hcs, his⟩ := remaining_eq_some.mp h
  rw [hk, rest_eq ⟨hkroot, hproot, hpub⟩]
  have hfold : ((pieces (cs.flatMap ('/' :: ·))).foldlM (deriveChunk lib) key).toOption =
      is.foldlM (deriveIndex lib) key := by
    by_cases hne : cs = []
    · subst hne
      cases his
      simp [pieces, deriveChunk, bind, Except.bind, pure, Except.pure, Except.toOption]
    · rw [pieces_eq hcs hne]
      exact foldlM_deriveIndex lib key his
  rw [hfold]
  rfl

/-! ## Through a path in between -/

theorem remaining_append {keyPath between path : Str} {is js : List Nat} (h : remaining keyPath between = some is)
    (h' : remaining between path = some js) : remaining keyPath path = some (is ++ js) := by
  obtain ⟨k, b, t, cs, rfl, rfl, hk, hb, hpub, ht, hcs, his⟩ := remaining_eq_some.mp h
  obtain ⟨b', p, t', cs', heq, rfl, -, hp, hpub', -, hcs', hjs⟩ := remaining_eq_some.mp h'
  obtain ⟨rfl, rfl⟩ := List.cons.inj heq
  refine remaining_eq_some.mpr ⟨k, p, t, cs ++ cs', rfl, by simp, hk, hp, ?_, ht, ?_, ?_⟩
  · rintro ⟨rfl, rfl⟩
    rcases hb with rfl | rfl
    · exact hpub ⟨rfl, rfl⟩
    · exact hpub' ⟨rfl, rfl⟩
  · exact fun c hc => (List.mem_append.mp hc).elim (hcs c) (hcs' c)
  · rw [List.mapM_append, his, hjs]
    rfl

theorem foldlM_deriveIndex_neutered {lib : HDLib Node} (hl : lib.Lawful) {key n : Node} {js : List Nat}
    (h : js.foldlM (deriveIndex lib) (lib.neutered key) = some n) :
    ∃ m, js.foldlM (deriveIndex lib) key = some m ∧ n = lib.neutered m := by
  induction js generalizing key with
  | nil =>
    cases h
    exact ⟨key, rfl, rfl⟩
  | cons j js ih =>
    rw [List.foldlM_cons] at h
    obtain ⟨child, hchild, h⟩ := Option.bind_eq_some_iff.mp h
    rw [deriveIndex, lib.derive_public _ (hl.isNeutered_neutered key)] at hchild
    split at hchild
    · next hj =>
      cases hchild
      rw [hl.child_neutered key j hj] at h
      obtain ⟨m, hm, rfl⟩ := ih h
      refine ⟨m, ?_, rfl⟩
      rw [List.foldlM_cons, deriveIndex, lib.derive_lt key hj]
      exact hm
    · cases hchild

theorem ownPath_of_remaining (lib : HDLib Node) (key : Node) {keyPath path : Str} {is : List Nat}
    (h : remaining keyPath path = some is) : ownPath lib key keyPath = keyPath := by
  obtain ⟨k, p, t, cs, rfl, -⟩ := remaining_eq_some.mp h
  exact if_neg (List.cons_ne_nil k t)

theorem deriveByPath_toOption (lib : HDLib Node) (key : Node) {path keyPath : Str} {is : List Nat}
    (h : remaining (ownPath lib key keyPath) path = some is) :
    (deriveByPath lib key path keyPath).toOption = (is.foldlM (deriveIndex lib) key).map fun n =>
      if toPublic (ownPath lib key keyPath) path then lib.neutered n else n := by
  rw [derives_of_remaining lib key h, deriveComponents, h, Option.map_eq_bind]
  rfl

/-- `toPublic` of two steps: at most one of them makes the key public. -/
theorem toPublic_trans {keyPath between path : Str} {is js : List Nat} (h : remaining keyPath between = some is)
    (h' : remaining between path = some js) :
    toPublic keyPath path = (toPublic keyPath between || toPublic between path) := by
  obtain ⟨k, b, t, cs, rfl, rfl, hk, hb, hpub, -⟩ := remaining_eq_some.mp h
  obtain ⟨b', p, t', cs', heq, rfl, -, hp, hpub', -⟩ := remaining_eq_some.mp h'
  obtain ⟨rfl, -⟩ := List.cons.inj heq
  rcases hk with rfl | rfl <;> rcases hb with rfl | rfl <;> rcases hp with rfl | rfl <;> simp_all [toPublic]

theorem deriveByPath_between (lib : HDLib Node) (child : Node) {path between : Str} {js : List Nat}
    (h : remaining between path = some js) :
    (deriveByPath lib child path between).toOption =
      (js.foldlM (deriveIndex lib) child).map fun n => if toPublic between path then lib.neutered n else n := by
  have hown := ownPath_of_remaining lib child h
  have hd : (deriveByPath lib child path between).toOption = (js.foldlM (deriveIndex lib) child).map fun n =>
      if toPublic (ownPath lib child between) path then lib.neutered n else n :=
    deriveByPath_toOption lib child (by rw [hown, h])
  rwa [hown] at hd

theorem through_own {lib : HDLib Node} {key : Node} {path between keyPath : Str} {is js : List Nat}
    (h : remaining (ownPath lib key keyPath) between = some is) (h' : remaining between path = some js)
    (hsame : between.head? = (ownPath lib key keyPath).head?) :
    (deriveByPath lib key between keyPath).toOption.bind
        (fun child => (deriveByPath lib child path between).toOption) =
      (deriveByPath lib key path keyPath).toOption := by
  have hstay : toPublic (ownPath lib key keyPath) between = false := by
    unfold toPublic
    rw [hsame, decide_eq_false_iff_not]
    rintro ⟨h1, h2⟩
    rw [h1] at h2
    cases h2
  rw [deriveByPath_toOption lib key h, deriveByPath_toOption lib key (remaining_append h h'), toPublic_trans h h',
    hstay, List.foldlM_append]
  simp only [Bool.false_eq_true, if_false, Option.map_id', Bool.false_or, deriveByPath_between lib _ h']
  cases is.foldlM (deriveIndex lib) key <;> rfl

theorem through {lib : HDLib Node} (hl : lib.Lawful) {key child k : Node} {path between keyPath : Str}
    {is js : List Nat} (h : remaining (ownPath lib key keyPath) between = some is)
    (h' : remaining between path = some js) (hc : deriveByPath lib key between keyPath = .ok child)
    (hk : deriveByPath lib child path between = .ok k) : deriveByPath lib key path keyPath = .ok k := by
  have h1 := deriveByPath_toOption lib key h
  have h2 := deriveByPath_between lib child h'
  rw [hc] at h1
  rw [hk] at h2
  obtain ⟨n, hn, hchild⟩ := Option.map_eq_some_iff.mp h1.symm
  obtain ⟨m, hm, hk'⟩ := Option.map_eq_some_iff.mp h2.symm
  apply toOption_eq_some
  rw [deriveByPath_toOption lib key (remaining_append h h'), toPublic_trans h h', List.foldlM_append, hn]
  cases htp : toPublic (ownPath lib key keyPath) between with
  | false =>
    rw [htp] at hchild
    simp only [Bool.false_eq_true, if_false] at hchild
    subst hchild
    simp [hm, hk']
  | true =>
    -- The path in between is public, so the second step does not make the key public once more.
    have hstay : toPublic between path = false := by
      unfold toPublic at htp ⊢
      rw [decide_eq_true_iff] at htp
      simp [htp.1]
    rw [htp] at hchild
    rw [hstay] at hk'
    simp only [if_true, Bool.false_eq_true, if_false] at hchild hk'
    subst hchild hk'
    obtain ⟨n', hn', rfl⟩ := foldlM_deriveIndex_neutered hl hm
    simp [hn']

/-! ## The main result -/

/-- **Derivation.** A path is derived as it should be, unless something else is read than its components. -/
theorem derivesByComponents_iff {lib : HDLib Node} (hl : lib.Lawful) (key : Node) (path keyPath : Str) :
    DerivesByComponents lib key path keyPath ↔ ¬Misread lib key (ownPath lib key keyPath) path := by
  constructor
  · intro h hmisread
    obtain ⟨hb, hd, hnot⟩ := misread_iff.mp hmisread
    obtain ⟨n, hn⟩ := (deriveByPath_ok hl).mpr ⟨hb, hd⟩
    have hspec := h.derives
    rw [hn] at hspec
    rcases hr : remaining (ownPath lib key keyPath) path with _ | is
    · rw [deriveComponents, hr] at hspec
      cases hspec
    · exact hnot (clean_of_remaining lib hr).2
  · intro hcond
    refine ⟨?_, fun between is js => through_own, fun between is js child k => through hl⟩
    rcases hr : remaining (ownPath lib key keyPath) path with _ | is
    · -- No component path: the texts are not clean, so one of the tests or one of the pieces fails.
      rcases hd : deriveByPath lib key path keyPath with e | n
      · rw [deriveComponents, hr]
        rfl
      · obtain ⟨hb, hread⟩ := (deriveByPath_ok hl).mp ⟨n, hd⟩
        have hclean := not_not.mp fun hnot => hcond (misread_iff.mpr ⟨hb, hread, hnot⟩)
        obtain ⟨is, his⟩ := remaining_of_clean hb hclean
        rw [hr] at his
        cases his
    · exact derives_of_remaining lib key hr

theorem derivesByComponents_sample :
    DerivesByComponents sampleHD ⟨[], [], true⟩ ("M/0".toList ++ apostrophe :: "/5".toList) "m" :=
  (derivesByComponents_iff sampleHD_lawful _ _ _).mpr fun hmisread =>
    (misread_iff.mp hmisread).2.2 ⟨Or.inl rfl, List.nil_prefix, Or.inr rfl, fun _ => by decide⟩

/-- `M/10` is taken for the child `0` of `M/1`. -/
theorem textual_prefix_accepted : ¬DerivesByComponents sampleHD ⟨[], [1], false⟩ "M/10" "M/1" := fun h =>
  absurd h.derives (by decide)

end Bitcoin
