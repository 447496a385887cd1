import Blocktrail.Lib.Separated

/-! # Lines with labels

A line is a label, a colon, a blank and a value. The lines of a list are joined by a separator. The text of the lines
gives them back, where no label has a blank and no line has a separator.
-/

namespace Labelled

variable {α : Type} {colon blank sep : α}

/-- A label and its value on a line. -/
def line (colon blank : α) (e : List α × List α) : List α := e.1 ++ colon :: blank :: e.2

/-- The lines of a list, joined. -/
def lines (colon blank sep : α) (es : List (List α × List α)) : List α := [sep].intercalate (es.map (line colon blank))

theorem append_cons_injective {a : α} {xs ys us vs : List α} (hx : a ∉ xs) (hy : a ∉ ys)
    (h : xs ++ a :: us = ys ++ a :: vs) : xs = ys ∧ us = vs := by
  induction xs generalizing ys with
  | nil =>
    cases ys with
    | nil => simpa using h
    | cons y ys =>
      obtain ⟨rfl, -⟩ := List.cons.inj h
      simp at hy
  | cons x xs ih =>
    cases ys with
    | nil =>
      obtain ⟨rfl, -⟩ := List.cons.inj h
      simp at hx
    | cons y ys =>
      simp only [List.mem_cons, not_or, List.cons_append, List.cons.injEq] at hx hy h ⊢
      obtain ⟨hxs, hus⟩ := ih hx.2 hy.2 h.2
      exact ⟨⟨h.1, hxs⟩, hus⟩

theorem line_injective (hne : blank ≠ colon) {e f : List α × List α} (he : blank ∉ e.1) (hf : blank ∉ f.1)
    (h : line colon blank e = line colon blank f) : e = f := by
  have hlabel : ∀ {l : List α}, blank ∉ l → blank ∉ l ++ [colon] := fun hl => by simpa [hl] using hne
  have hcut : (e.1 ++ [colon]) ++ blank :: e.2 = (f.1 ++ [colon]) ++ blank :: f.2 := by simpa [line] using h
  obtain ⟨hlabels, hvalues⟩ := append_cons_injective (hlabel he) (hlabel hf) hcut
  exact Prod.ext (List.append_cancel_right hlabels) hvalues

theorem not_mem_line (hcolon : sep ≠ colon) (hblank : sep ≠ blank) {e : List α × List α} (hl : sep ∉ e.1)
    (hv : sep ∉ e.2) : sep ∉ line colon blank e := by
  simp [line, hl, hv, hcolon, hblank]

variable [BEq α] [LawfulBEq α]

theorem splitOn_lines {es : List (List α × List α)} (hne : es ≠ []) (hs : ∀ e ∈ es, sep ∉ line colon blank e) :
    (lines colon blank sep es).splitOn sep = es.map (line colon blank) := by
  apply List.splitOn_intercalate
  · intro l hl
    obtain ⟨e, he, rfl⟩ := List.mem_map.mp hl
    exact hs e he
  · simpa using hne

/-- **Lines are read back.** -/
theorem lines_injective (hne : blank ≠ colon) {es fs : List (List α × List α)} (hes : es ≠ []) (hfs : fs ≠ [])
    (hel : ∀ e ∈ es, blank ∉ e.1) (hfl : ∀ f ∈ fs, blank ∉ f.1) (hs : ∀ e ∈ es, sep ∉ line colon blank e)
    (hs' : ∀ f ∈ fs, sep ∉ line colon blank f) (h : lines colon blank sep es = lines colon blank sep fs) : es = fs := by
  have hmap : es.map (line colon blank) = fs.map (line colon blank) := by
    rw [← splitOn_lines hes hs, h, splitOn_lines hfs hs']
  clear h hes hfs hs hs'
  induction es generalizing fs with
  | nil => simpa using hmap
  | cons e es ih =>
    cases fs with
    | nil => simp at hmap
    | cons f fs =>
      simp only [List.map_cons, List.cons.injEq, List.forall_mem_cons] at hmap hel hfl
      rw [line_injective hne hel.1 hfl.1 hmap.1, ih hel.2 hfl.2 hmap.2]

end Labelled
