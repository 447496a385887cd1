import Mathlib.Data.List.Lattice
import Blocktrail.Lib.Assoc

/-! # Stores of documents with revisions

A put or a removal is accepted with the revision that the store has of the document, and for a document that the store
does not have with none. Every put gives a revision that no document has had before.
-/

open Assoc

namespace Documents

structure Store (κ δ : Type) [DecidableEq κ] where
  rows : Object κ (Nat × δ)
  /-- The next revision. -/
  clock : Nat
  revs_lt : ∀ (k : κ) (row : Nat × δ), rows.get? k = some row → row.1 < clock

/-- One document. -/
abbrev Slot (δ : Type) := Store Unit δ

namespace Store

variable {κ δ : Type} [DecidableEq κ]

def empty : Store κ δ := ⟨Object.empty, 0, by rintro k row ⟨⟩⟩

def get (s : Store κ δ) (k : κ) : Option (Nat × δ) := s.rows.get? k

def revision (s : Store κ δ) (k : κ) : Option Nat := (s.get k).map Prod.fst

def write (s : Store κ δ) (k : κ) (d : δ) : Store κ δ where
  rows := s.rows.set k (s.clock, d)
  clock := s.clock + 1
  revs_lt := by
    intro k' row h
    rw [Object.get?_set] at h
    split at h
    · obtain rfl := Option.some.inj h
      exact Nat.lt_succ_self s.clock
    · exact Nat.lt_succ_of_lt (s.revs_lt k' row h)

def erase (s : Store κ δ) (k : κ) : Store κ δ where
  rows := s.rows.filter (· ≠ k)
  clock := s.clock
  revs_lt := by
    intro k' row h
    rw [Object.get?_filter] at h
    split at h
    · exact s.revs_lt k' row h
    · cases h

/-- `none` is a conflict. -/
def put (s : Store κ δ) (k : κ) (rev : Option Nat) (d : δ) : Option (Store κ δ) :=
  if rev = s.revision k then some (s.write k d) else none

/-- `none` is a conflict. -/
def remove (s : Store κ δ) (k : κ) (rev : Nat) : Option (Store κ δ) :=
  if some rev = s.revision k then some (s.erase k) else none

@[simp] theorem get_empty (k : κ) : (empty : Store κ δ).get k = none := rfl

theorem get_write (s : Store κ δ) (k k' : κ) (d : δ) :
    (s.write k d).get k' = if k' = k then some (s.clock, d) else s.get k' := s.rows.get?_set k k' (s.clock, d)

@[simp] theorem get_write_self (s : Store κ δ) (k : κ) (d : δ) : (s.write k d).get k = some (s.clock, d) := by
  simp [get_write]

theorem get_write_of_ne (s : Store κ δ) {k k' : κ} (h : k' ≠ k) (d : δ) : (s.write k d).get k' = s.get k' := by
  simp [get_write, h]

theorem get_erase (s : Store κ δ) (k k' : κ) : (s.erase k).get k' = if k' = k then none else s.get k' := by
  show (s.rows.filter (· ≠ k)).get? k' = _
  rw [Object.get?_filter]
  by_cases h : k' = k
  · simp [h]
  · simp [h, get]

@[simp] theorem put_revision (s : Store κ δ) (k : κ) (d : δ) : s.put k (s.revision k) d = some (s.write k d) :=
  if_pos rfl

theorem revision_of_get {s : Store κ δ} {k : κ} {row : Nat × δ} (h : s.get k = some row) :
    s.revision k = some row.1 := by
  rw [revision, h]
  rfl

theorem put_none (s : Store κ δ) (k : κ) (d : δ) :
    s.put k none d = if s.get k = none then some (s.write k d) else none := by
  unfold put revision
  cases s.get k with
  | none => rfl
  | some row => rfl

theorem put_eq_some {s s' : Store κ δ} {k : κ} {rev : Option Nat} {d : δ} :
    s.put k rev d = some s' ↔ rev = s.revision k ∧ s.write k d = s' := by
  unfold put
  split
  · next h => simp [h]
  · next h => simp [h]

theorem remove_eq_some {s s' : Store κ δ} {k : κ} {rev : Nat} :
    s.remove k rev = some s' ↔ some rev = s.revision k ∧ s.erase k = s' := by
  unfold remove
  split
  · next h => simp [h]
  · next h => simp [h]

/-! ## Many documents -/

/-- The documents whose keys meet `p`, with their revisions. -/
def allDocs (s : Store κ δ) (p : κ → Bool) : List (κ × Nat × δ) := (s.rows.filter p).entries

def removeAll (s : Store κ δ) (rows : List (κ × Nat × δ)) : Option (Store κ δ) :=
  rows.foldlM (fun s row => s.remove row.1 row.2.1) s

theorem removeAll_of_get {rows : List (κ × Nat × δ)} {s : Store κ δ} (hn : (keys rows).Nodup)
    (h : ∀ row ∈ rows, s.get row.1 = some row.2) :
    ∃ s', s.removeAll rows = some s' ∧ ∀ k, s'.get k = if k ∈ keys rows then none else s.get k := by
  induction rows generalizing s with
  | nil => exact ⟨s, rfl, fun k => (if_neg List.not_mem_nil).symm⟩
  | cons row rows ih =>
    obtain ⟨hrow, hn⟩ := List.nodup_cons.mp (show (row.1 :: keys rows).Nodup from hn)
    have hremove : s.remove row.1 row.2.1 = some (s.erase row.1) :=
      if_pos (revision_of_get (h row List.mem_cons_self)).symm
    obtain ⟨s', hs', hget⟩ := ih (s := s.erase row.1) hn (by
      intro row' hrow'
      have hne : row'.1 ≠ row.1 := by
        intro he
        exact hrow (he ▸ List.mem_map_of_mem hrow')
      rw [get_erase, if_neg hne]
      exact h row' (List.mem_cons_of_mem row hrow'))
    refine ⟨s', ?_, fun k => ?_⟩
    · unfold removeAll at hs' ⊢
      rw [List.foldlM_cons, hremove]
      exact hs'
    · rw [hget k, get_erase]
      have hkeys : k ∈ keys (row :: rows) ↔ k = row.1 ∨ k ∈ keys rows := List.mem_cons
      by_cases hk : k = row.1
      · rw [if_pos hk, ite_self, if_pos (hkeys.mpr (Or.inl hk))]
      · rw [if_neg hk]
        simp only [hkeys, hk, false_or]

theorem removeAll_allDocs (s : Store κ δ) (p : κ → Bool) :
    ∃ s', s.removeAll (s.allDocs p) = some s' ∧ ∀ k, s'.get k = if p k then none else s.get k := by
  have hget : ∀ row ∈ s.allDocs p, s.get row.1 = some row.2 := by
    intro row hrow
    exact (Object.get?_eq_some s.rows).mpr (List.mem_filter.mp hrow).1
  obtain ⟨s', hs', h⟩ := removeAll_of_get (s.rows.filter p).nodup hget
  refine ⟨s', hs', fun k => ?_⟩
  rw [h k]
  show (if k ∈ keys (s.allDocs p) then none else s.get k) = _
  have hkeys : k ∈ keys (s.allDocs p) ↔ p k ∧ ∃ row, s.get k = some row := by
    constructor
    · intro hk
      obtain ⟨row, hrow, rfl⟩ := List.mem_map.mp hk
      exact ⟨(List.mem_filter.mp hrow).2, row.2, hget row hrow⟩
    · rintro ⟨hp, row, hrow⟩
      exact List.mem_map_of_mem (a := (k, row))
        (List.mem_filter.mpr ⟨(Object.get?_eq_some s.rows).mp hrow, hp⟩)
  cases hp : p k with
  | false => simp [hkeys, hp]
  | true =>
    cases hrow : s.get k with
    | none => simp
    | some row => simp [hkeys, hp, hrow]

end Store

/-! ## Ranges of keys -/

section Ranges

variable {α : Type} [LT α] [Std.Asymm (· < · : α → α → Prop)] [Std.Trichotomous (· < · : α → α → Prop)]

theorem append_le_append_iff (p l m : List α) : p ++ l ≤ p ++ m ↔ l ≤ m := by
  induction p with
  | nil => rfl
  | cons a p ih =>
    rw [List.cons_append, List.cons_append, List.cons_le_cons_iff, ih]
    constructor
    · rintro (h | h)
      · exact absurd h (Std.Irrefl.irrefl a)
      · exact h.2
    · intro h
      exact Or.inr ⟨rfl, h⟩

/-- From `p` to `p` with a top element there is only what `p` begins. -/
theorem mem_range_iff {p s : List α} {top : α} : (p ≤ s ∧ s ≤ p ++ [top]) ↔ ∃ r, s = p ++ r ∧ r ≤ [top] := by
  constructor
  · induction p generalizing s with
    | nil =>
      rintro ⟨-, h⟩
      exact ⟨s, rfl, h⟩
    | cons a p ih =>
      rintro ⟨h1, h2⟩
      cases s with
      | nil => simp at h1
      | cons b s =>
        rw [List.cons_append] at h2
        rcases List.cons_le_cons_iff.mp h1 with hab | ⟨rfl, hps⟩
        · rcases List.cons_le_cons_iff.mp h2 with hba | ⟨rfl, -⟩
          · exact absurd hba (Std.Asymm.asymm a b hab)
          · exact absurd hab (Std.Irrefl.irrefl b)
        · rcases List.cons_le_cons_iff.mp h2 with hba | ⟨-, hsp⟩
          · exact absurd hba (Std.Irrefl.irrefl a)
          · obtain ⟨r, rfl, hr⟩ := ih ⟨hps, hsp⟩
            exact ⟨r, rfl, hr⟩
  · rintro ⟨r, rfl, h⟩
    exact ⟨List.le_append_left, (append_le_append_iff p r [top]).mpr h⟩

end Ranges

theorem mem_of_prefix_append {α : Type} {l p : List α} (hl : l ≠ []) (h : p <+: l ++ p) {a : α} (ha : a ∈ p) : a ∈ l := by
  obtain ⟨j, hj, rfl⟩ := List.getElem_of_mem ha
  induction j using Nat.strongRecOn with
  | _ j ih =>
    have hpos : 0 < l.length := List.length_pos_iff.mpr hl
    rw [h.getElem hj, List.getElem_append]
    split
    · exact List.getElem_mem _
    · exact ih (j - l.length) (by omega) (by omega) (List.getElem_mem _)

end Documents
