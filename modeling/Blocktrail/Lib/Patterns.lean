import Mathlib.Data.List.Basic
import Mathlib.Data.List.TakeWhile
import Blocktrail.Lib.Text

/-! # Patterns that backtrack

A pattern lists all its matches at the front of a text, with what is left of the text, in the order in which it tries
them. The first one of a sequence of patterns is what backtracking finds.
-/

open Text

abbrev Pattern (α : Type) := Str → List (α × Str)

namespace Pattern

variable {α β : Type}

/-- Between `lo` and `hi` characters, the most first. -/
def between (p : Char → Bool) (lo hi : Nat) : Pattern Str := fun s =>
  ((List.range (min hi (s.takeWhile p).length + 1)).reverse.filter (lo ≤ ·)).map fun k => (s.take k, s.drop k)

/-- Any number of characters, the most first. -/
def many (p : Char → Bool) : Pattern Str := fun s => between p 0 s.length s

def seq (m : Pattern α) (n : Pattern β) : Pattern (α × β) := fun s =>
  (m s).flatMap fun (a, t) => (n t).map fun (b, u) => ((a, b), u)

def orElse (m n : Pattern α) : Pattern α := fun s => m s ++ n s

def map (f : α → β) (m : Pattern α) : Pattern β := fun s => (m s).map fun (a, t) => (f a, t)

/-- Nothing. -/
def nothing (a : α) : Pattern α := fun s => [(a, s)]

/-- The leftmost place of a match: what stands before it, and the match. -/
def leftmost (m : Pattern α) : Str → Option (Str × α × Str)
  | [] => (m []).head?.map fun r => ([], r)
  | c :: s =>
    match (m (c :: s)).head? with
    | some r => some ([], r)
    | none => (leftmost m s).map fun (before, r) => (c :: before, r)

/-! ## Matches -/

theorem mem_between {p : Char → Bool} {lo hi : Nat} {s d t : Str} :
    (d, t) ∈ between p lo hi s ↔ s = d ++ t ∧ (∀ c ∈ d, p c = true) ∧ lo ≤ d.length ∧ d.length ≤ hi := by
  simp only [between, List.mem_map, List.mem_filter, List.mem_reverse, List.mem_range, Prod.mk.injEq,
    decide_eq_true_eq]
  constructor
  · rintro ⟨k, ⟨hk, hlo⟩, rfl, rfl⟩
    have hprefix : (s.takeWhile p).length ≤ s.length := (List.takeWhile_prefix p).length_le
    have htake : s.take k = (s.takeWhile p).take k := by
      conv_lhs => rw [← List.takeWhile_append_dropWhile (p := p) (l := s)]
      exact List.take_append_of_le_length (by omega)
    refine ⟨(List.take_append_drop k s).symm, fun c hc => ?_, ?_, ?_⟩
    · rw [htake] at hc
      exact List.mem_takeWhile_imp (List.mem_of_mem_take hc)
    · rw [List.length_take]
      omega
    · rw [List.length_take]
      omega
  · rintro ⟨rfl, hd, hlo, hhi⟩
    refine ⟨d.length, ⟨?_, hlo⟩, List.take_left, List.drop_left⟩
    rw [List.takeWhile_append_of_pos hd, List.length_append]
    omega

theorem mem_many {p : Char → Bool} {s d t : Str} : (d, t) ∈ many p s ↔ s = d ++ t ∧ ∀ c ∈ d, p c = true := by
  unfold many
  rw [mem_between]
  constructor
  · rintro ⟨rfl, hd, -, -⟩
    exact ⟨rfl, hd⟩
  · rintro ⟨rfl, hd⟩
    exact ⟨rfl, hd, Nat.zero_le _, by simp⟩

theorem mem_seq {m : Pattern α} {n : Pattern β} {s u : Str} {a : α} {b : β} :
    ((a, b), u) ∈ seq m n s ↔ ∃ t, (a, t) ∈ m s ∧ (b, u) ∈ n t := by
  simp only [seq, List.mem_flatMap, List.mem_map, Prod.mk.injEq, Prod.exists]
  constructor
  · rintro ⟨a', t, hm, b', u', hn, ⟨rfl, rfl⟩, rfl⟩
    exact ⟨t, hm, hn⟩
  · rintro ⟨t, hm, hn⟩
    exact ⟨a, t, hm, b, u, hn, ⟨rfl, rfl⟩, rfl⟩

theorem mem_orElse {m n : Pattern α} {s : Str} {r : α × Str} : r ∈ orElse m n s ↔ r ∈ m s ∨ r ∈ n s :=
  List.mem_append

theorem mem_map {f : α → β} {m : Pattern α} {s t : Str} {b : β} :
    (b, t) ∈ map f m s ↔ ∃ a, (a, t) ∈ m s ∧ f a = b := by
  simp only [map, List.mem_map, Prod.mk.injEq, Prod.exists]
  constructor
  · rintro ⟨a, t', hm, rfl, rfl⟩
    exact ⟨a, hm, rfl⟩
  · rintro ⟨a, hm, rfl⟩
    exact ⟨a, t, hm, rfl, rfl⟩

@[simp] theorem mem_nothing {a : α} {s : Str} {r : α × Str} : r ∈ nothing a s ↔ r = (a, s) := List.mem_singleton

theorem leftmost_eq_some {m : Pattern α} {s before : Str} {r : α × Str} (h : leftmost m s = some (before, r)) :
    ∃ t, s = before ++ t ∧ (m t).head? = some r ∧
      ∀ u v, s = u ++ v → u.length < before.length → m v = [] := by
  induction s generalizing before with
  | nil =>
    rw [leftmost, Option.map_eq_some_iff] at h
    obtain ⟨r', hr, he⟩ := h
    cases he
    exact ⟨[], rfl, hr, fun u v _ hlt => absurd hlt (Nat.not_lt_zero _)⟩
  | cons c s ih =>
    unfold leftmost at h
    split at h
    next r' hr =>
      cases h
      exact ⟨c :: s, rfl, hr, fun u v _ hlt => absurd hlt (Nat.not_lt_zero _)⟩
    next hnone =>
      rw [Option.map_eq_some_iff] at h
      obtain ⟨⟨before', r'⟩, hr, he⟩ := h
      cases he
      obtain ⟨t, rfl, ht, hfirst⟩ := ih hr
      refine ⟨t, rfl, ht, fun u v huv hlt => ?_⟩
      cases u with
      | nil =>
        cases huv
        exact List.head?_eq_none_iff.mp hnone
      | cons c' u =>
        rw [List.cons_append, List.cons.injEq] at huv
        exact hfirst u v huv.2 (by simpa using hlt)

theorem leftmost_isSome {m : Pattern α} {s u v : Str} (h : s = u ++ v) (hm : m v ≠ []) :
    (leftmost m s).isSome = true := by
  induction s generalizing u with
  | nil =>
    obtain ⟨rfl, rfl⟩ := List.nil_eq_append_iff.mp h
    rw [leftmost, Option.isSome_map]
    cases hv : m [] with
    | nil => exact absurd hv hm
    | cons r rs => rfl
  | cons c s ih =>
    unfold leftmost
    split
    · rfl
    next hnone =>
      rw [Option.isSome_map]
      cases u with
      | nil =>
        cases h
        exact absurd (List.head?_eq_none_iff.mp hnone) hm
      | cons c' u =>
        rw [List.cons_append, List.cons.injEq] at h
        exact ih h.2

end Pattern
