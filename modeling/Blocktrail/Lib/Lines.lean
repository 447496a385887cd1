import Mathlib.Data.List.Infix
import Blocktrail.Lib.Text

/-! # Phrases, and texts cut into lines -/

namespace Text

/-! ## Phrases, in any case -/

def fold (s : Str) : Str := s.map Char.toLower

def startsWith (phrase s : Str) : Bool := (fold phrase).isPrefixOf (fold s)

/-- `s.search(/phrase/i) !== -1`. -/
def has (phrase : Str) : Str → Bool
  | [] => startsWith phrase []
  | c :: s => startsWith phrase (c :: s) || has phrase s

theorem has_iff {phrase s : Str} : has phrase s = true ↔ fold phrase <:+: fold s := by
  induction s with
  | nil =>
    show (fold phrase).isPrefixOf [] = true ↔ _
    rw [List.isPrefixOf_iff_prefix]
    exact List.prefix_nil.trans List.infix_nil.symm
  | cons c s ih =>
    rw [has, Bool.or_eq_true, ih, startsWith, List.isPrefixOf_iff_prefix]
    exact List.infix_cons_iff.symm

theorem has_iff_exists {phrase s : Str} : has phrase s = true ↔ ∃ u v, s = u ++ v ∧ startsWith phrase v = true := by
  constructor
  · intro h
    induction s with
    | nil => exact ⟨[], [], rfl, h⟩
    | cons c s ih =>
      rw [has, Bool.or_eq_true] at h
      rcases h with h | h
      · exact ⟨[], c :: s, rfl, h⟩
      · obtain ⟨u, v, rfl, hv⟩ := ih h
        exact ⟨c :: u, v, rfl, hv⟩
  · rintro ⟨u, v, rfl, hv⟩
    refine has_iff.mpr ((List.isPrefixOf_iff_prefix.mp hv).isInfix.trans ?_)
    unfold fold
    rw [List.map_append]
    exact (List.suffix_append _ _).isInfix

/-- What `f` makes of the first place in a text where it makes something. -/
def firstMatch {α : Type} (f : Str → Option α) : Str → Option α
  | [] => f []
  | c :: s => (f (c :: s)).or (firstMatch f s)

theorem firstMatch_of_front {α : Type} {f : Str → Option α} {s : Str} {a : α} (h : f s = some a) :
    firstMatch f s = some a := by
  cases s with
  | nil => exact h
  | cons c s =>
    rw [firstMatch, h]
    rfl

theorem has_of_firstMatch {α : Type} {f : Str → Option α} {phrase : Str}
    (hf : ∀ t a, f t = some a → startsWith phrase t = true) {s : Str} {a : α} (h : firstMatch f s = some a) :
    has phrase s = true := by
  induction s with
  | nil => exact hf [] a h
  | cons c s ih =>
    rw [firstMatch, Option.or_eq_some_iff] at h
    rw [has, Bool.or_eq_true]
    rcases h with h | ⟨-, h⟩
    · exact Or.inl (hf _ a h)
    · exact Or.inr (ih h)

theorem has_of_piece {phrase s t : Str} (hst : s <:+: t) (h : has phrase s = true) : has phrase t = true :=
  has_iff.mpr ((has_iff.mp h).trans (hst.map Char.toLower))

theorem not_has_of_piece {phrase s t : Str} (hst : s <:+: t) (h : has phrase t = false) : has phrase s = false :=
  Bool.eq_false_iff.mpr fun hs => Bool.eq_false_iff.mp h (has_of_piece hst hs)

theorem not_has_of_not_mem {phrase s : Str} {c : Char} (hc : c ∈ fold phrase) (hs : c ∉ fold s) :
    has phrase s = false :=
  Bool.eq_false_iff.mpr fun h => hs ((has_iff.mp h).subset hc)

/-! ## Blanks -/

/-- A text without its blanks. -/
def squeeze (s : Str) : Str := s.filter fun c => !c.isWhitespace

@[simp] theorem squeeze_nil : squeeze [] = [] := rfl

@[simp] theorem squeeze_append (s t : Str) : squeeze (s ++ t) = squeeze s ++ squeeze t := List.filter_append ..

theorem squeeze_flatten (ls : List Str) : squeeze ls.flatten = (ls.map squeeze).flatten := List.filter_flatten ..

theorem squeeze_flatten_of_blank {ls : List Str} (h : ∀ l ∈ ls, squeeze l = []) : squeeze ls.flatten = [] := by
  rw [squeeze_flatten, List.flatten_eq_nil_iff]
  exact List.forall_mem_map.mpr h

@[simp] theorem squeeze_blank : squeeze [' '] = [] := rfl

theorem isWhitespace_of_val {c : Char} (h : 32 < c.val) : c.isWhitespace = false := by
  have hne : ∀ d : Char, d.val ≤ 32 → c ≠ d := by
    rintro d hd rfl
    exact absurd hd (UInt32.not_le.mpr h)
  simp [Char.isWhitespace, hne ' ' (by decide), hne '\t' (by decide), hne '\r' (by decide), hne '\n' (by decide)]

theorem isWhitespace_toLower (c : Char) : c.toLower.isWhitespace = c.isWhitespace := by
  unfold Char.toLower
  split
  · next h =>
    have hc : 65 ≤ c.val := h.1
    have hz : c.val ≤ 90 := h.2
    have hlow : 32 < c.val + ('a'.val - 'A'.val) := by
      show 32 < c.val + 32
      rw [UInt32.le_iff_toNat_le] at hc hz
      rw [UInt32.lt_iff_toNat_lt, UInt32.toNat_add]
      simp at hc hz ⊢
      omega
    rw [isWhitespace_of_val (UInt32.lt_of_lt_of_le (by decide) hc)]
    exact isWhitespace_of_val hlow
  · rfl

theorem length_squeeze_fold (s : Str) : (squeeze (fold s)).length = (squeeze s).length := by
  unfold squeeze fold
  rw [List.filter_map, List.length_map]
  congr 2
  funext c
  exact congrArg not (isWhitespace_toLower c)

theorem length_squeeze_of_has {phrase s : Str} (h : has phrase s = true) :
    (squeeze phrase).length ≤ (squeeze s).length := by
  rw [← length_squeeze_fold phrase, ← length_squeeze_fold s]
  exact ((has_iff.mp h).sublist.filter _).length_le

/-! ## Words -/

theorem exists_word {c : Char} {p : Str} (hc : c ∉ p) (hp : p ≠ []) {ws : List Str}
    (h : p <:+: [c].intercalate ws) : ∃ w ∈ ws, p <:+: w := by
  have hhead : ∀ {a b : Str}, p ≠ a ++ c :: b := by
    rintro a b rfl
    exact hc (List.mem_append_right a List.mem_cons_self)
  have hstep : ∀ {a b : Str}, p <:+: a ++ c :: b → p <:+: a ∨ p <:+: b := by
    intro a b h
    rcases List.infix_append_iff.mp h with h | h | ⟨l₁, l₂, heq, h₁, h₂⟩
    · exact Or.inl h
    · rcases List.infix_cons_iff.mp h with hpre | h
      · rcases List.prefix_cons_iff.mp hpre with hnil | ⟨t, heq, -⟩
        · exact absurd hnil hp
        · exact absurd heq (hhead (a := []))
      · exact Or.inr h
    · rcases List.prefix_cons_iff.mp h₂ with rfl | ⟨t, rfl, -⟩
      · rw [heq, List.append_nil]
        exact Or.inl h₁.isInfix
      · exact absurd heq hhead
  induction ws with
  | nil => exact absurd (List.infix_nil.mp h) hp
  | cons w ws ih =>
    rcases ws with _ | ⟨w', ws⟩
    · rw [List.intercalate_singleton] at h
      exact ⟨w, List.mem_cons_self, h⟩
    · rw [List.intercalate_cons_cons, List.append_assoc, List.singleton_append] at h
      rcases hstep h with h | h
      · exact ⟨w, List.mem_cons_self, h⟩
      · obtain ⟨v, hv, hpv⟩ := ih h
        exact ⟨v, List.mem_cons_of_mem w hv, hpv⟩

theorem fold_intercalate (ws : List Str) : fold ([' '].intercalate ws) = [' '].intercalate (ws.map fold) := by
  induction ws with
  | nil => rfl
  | cons w ws ih =>
    cases ws with
    | nil => simp [fold]
    | cons w' ws =>
      rw [List.intercalate_cons_cons, List.map_cons, List.map_cons, List.intercalate_cons_cons, ← List.map_cons, ← ih]
      simp [fold]

/-! ## Lines -/

/-- The lines are pieces of the text, in order, with nothing but blanks left out. -/
inductive Broken : Str → List Str → Prop
  | nil {t : Str} (h : squeeze t = []) : Broken t []
  | cons {g l t : Str} {ls : List Str} (hg : squeeze g = []) (h : Broken t ls) : Broken (g ++ l ++ t) (l :: ls)

theorem broken_singleton (t : Str) : Broken t [t] := by
  have h := Broken.cons (l := t) squeeze_nil (Broken.nil squeeze_nil)
  simpa using h

theorem Broken.piece {t : Str} {ls : List Str} (h : Broken t ls) {l : Str} (hl : l ∈ ls) : l <:+: t := by
  induction h with
  | nil => cases hl
  | @cons g l' t ls _ _ ih =>
    rcases List.mem_cons.mp hl with rfl | hl
    · exact ⟨g, t, rfl⟩
    · exact (ih hl).trans (List.suffix_append (g ++ l') t).isInfix

theorem Broken.squeeze_flatten {t : Str} {ls : List Str} (h : Broken t ls) : squeeze ls.flatten = squeeze t := by
  induction h with
  | nil h => rw [h]; rfl
  | cons hg _ ih => rw [List.flatten_cons, squeeze_append, squeeze_append, squeeze_append, hg, ih, List.nil_append]

end Text
