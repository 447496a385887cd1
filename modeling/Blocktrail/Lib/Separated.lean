import Mathlib.Data.List.Basic
import Mathlib.Data.List.Infix

/-! # Texts with separators

`splitOn` takes a text apart at every separator. The text is its first piece, followed by every other piece behind a
separator.
-/

namespace Separated

variable {α : Type} [BEq α] [LawfulBEq α] {sep : α}

omit [BEq α] [LawfulBEq α] in
theorem intercalate_cons_eq (x : List α) (xs : List (List α)) :
    [sep].intercalate (x :: xs) = x ++ xs.flatMap (sep :: ·) := by
  induction xs generalizing x with
  | nil => simp
  | cons y ys ih => simp [ih]

theorem eq_of_splitOn {s x : List α} {xs : List (List α)} (h : s.splitOn sep = x :: xs) :
    s = x ++ xs.flatMap (sep :: ·) := by
  rw [← intercalate_cons_eq, ← h, List.intercalate_splitOn]

theorem not_mem_of_mem_splitOn {s x : List α} (h : x ∈ s.splitOn sep) : sep ∉ x := by
  induction s generalizing x with
  | nil => simp_all
  | cons c s ih =>
    rw [List.splitOn_cons_eq_if_modifyHead] at h
    by_cases hc : c == sep
    · rw [if_pos hc] at h
      rcases List.mem_cons.mp h with rfl | h
      · exact List.not_mem_nil
      · exact ih h
    · rw [if_neg hc] at h
      rcases hs : s.splitOn sep with _ | ⟨y, ys⟩
      · exact absurd hs (List.splitOn_ne_nil sep s)
      · rw [hs] at h ih
        rcases List.mem_cons.mp h with rfl | h
        · have hne : sep ≠ c := fun e => hc (by simp [e])
          simp [hne, ih List.mem_cons_self]
        · exact ih (List.mem_cons_of_mem y h)

theorem splitOn_flatMap {x : List α} {xs : List (List α)} (h : ∀ y ∈ x :: xs, sep ∉ y) :
    (x ++ xs.flatMap (sep :: ·)).splitOn sep = x :: xs := by
  rw [← intercalate_cons_eq]
  exact List.splitOn_intercalate sep h (List.cons_ne_nil x xs)

theorem exists_flatMap {s : List α} (h : s = [] ∨ s.head? = some sep) :
    ∃ xs : List (List α), s = xs.flatMap (sep :: ·) ∧ ∀ x ∈ xs, sep ∉ x := by
  cases s with
  | nil => exact ⟨[], rfl, by simp⟩
  | cons c t =>
    have hc : c = sep := by simpa using h
    subst hc
    rcases ht : t.splitOn c with _ | ⟨x, xs⟩
    · exact absurd ht (List.splitOn_ne_nil c t)
    · refine ⟨x :: xs, ?_, fun y hy => not_mem_of_mem_splitOn (ht ▸ hy)⟩
      rw [List.flatMap_cons, List.cons_append, ← eq_of_splitOn ht]

omit [BEq α] [LawfulBEq α] in
variable (sep) in
theorem flatMap_head? (xs : List (List α)) : xs.flatMap (sep :: ·) = [] ∨ (xs.flatMap (sep :: ·)).head? = some sep := by
  cases xs <;> simp

end Separated
