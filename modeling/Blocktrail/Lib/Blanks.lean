import Mathlib.Data.List.Basic
import Mathlib.Data.List.DropRight

/-! # The words of a text

The words are the longest pieces without a blank. What is done to the blanks between them leaves them alone.
-/

namespace Blanks

variable {α : Type} (blank : α → Bool)

def words (s : List α) : List (List α) := (s.splitOnP blank).filter fun w => !w.isEmpty

/-- Every run of blanks becomes one separator. -/
def collapse (sep : α) : List α → List α
  | [] => []
  | c :: s => if blank c then if s.head?.any blank then collapse sep s else sep :: collapse sep s else c :: collapse sep s

/-- Without the blanks at both ends. -/
def strip (s : List α) : List α := (s.dropWhile blank).rdropWhile blank

/-- The text starts and ends with something else than a blank. -/
def Stripped (s : List α) : Prop := (∀ c ∈ s.head?, blank c = false) ∧ ∀ c ∈ s.getLast?, blank c = false

/-- Every place of `a` and `b` in a row becomes `r`, from the left. -/
def replacePair [DecidableEq α] (a b r : α) : List α → List α
  | [] => []
  | [c] => [c]
  | c :: d :: s => if c = a ∧ d = b then r :: replacePair a b r s else c :: replacePair a b r (d :: s)

def replaceOne [DecidableEq α] (a r : α) (s : List α) : List α := s.map fun c => if c = a then r else c

variable {blank}

/-! ## Words -/

@[simp] theorem words_nil : words blank [] = [] := by simp [words]

theorem words_append_cons (s t : List α) {c : α} (hc : blank c = true) :
    words blank (s ++ c :: t) = words blank s ++ words blank t := by
  rw [words, List.splitOnP_append_cons _ _ hc, List.filter_append]
  rfl

@[simp] theorem words_cons_blank (s : List α) {c : α} (hc : blank c = true) : words blank (c :: s) = words blank s := by
  simpa using words_append_cons [] s hc

theorem words_of_plain {w : List α} (hw : ∀ c ∈ w, blank c = false) (hne : w ≠ []) : words blank w = [w] := by
  simp [words, List.splitOnP_eq_singleton hw, hne]

theorem words_of_blank {s : List α} (h : ∀ c ∈ s, blank c = true) : words blank s = [] := by
  induction s with
  | nil => exact words_nil
  | cons c s ih =>
    rw [words_cons_blank s (h c (by simp))]
    exact ih fun d hd => h d (List.mem_cons_of_mem c hd)

theorem words_cons_single {c : α} (hc : blank c = false) {s : List α} (hs : ∀ d ∈ s.head?, blank d = true) :
    words blank (c :: s) = [c] :: words blank s := by
  have hw : words blank [c] = [[c]] := words_of_plain (by simpa using hc) (by simp)
  rcases s with _ | ⟨d, s⟩
  · rw [hw, words_nil]
  · have hd : blank d = true := hs d rfl
    rw [← List.singleton_append, words_append_cons [c] s hd, hw, words_cons_blank s hd]
    rfl

theorem words_cons_cons {c d : α} (hc : blank c = false) (hd : blank d = false) (s : List α) :
    ∃ w ws, words blank (d :: s) = w :: ws ∧ words blank (c :: d :: s) = (c :: w) :: ws := by
  rcases hs : s.splitOnP blank with _ | ⟨x, xs⟩
  · exact absurd hs (List.splitOnP_ne_nil blank s)
  · refine ⟨d :: x, xs.filter fun w => !w.isEmpty, ?_, ?_⟩
    · simp [words, List.splitOnP_cons_eq_if_modifyHead, hd, hs]
    · simp [words, List.splitOnP_cons_eq_if_modifyHead, hc, hd, hs]

theorem words_ne_nil {s : List α} {c : α} (hm : c ∈ s) (hc : blank c = false) : words blank s ≠ [] := by
  induction s with
  | nil => cases hm
  | cons d s ih =>
    cases hd : blank d with
    | true =>
      have hne : c ≠ d := by
        rintro rfl
        simp [hd] at hc
      rw [words_cons_blank s hd]
      exact ih (by simpa [hne] using hm)
    | false =>
      rcases s with _ | ⟨e, s⟩
      · simp [words_of_plain (w := [d]) (by simpa using hd)]
      · cases he : blank e with
        | true => simp [words_cons_single hd (s := e :: s) (by simpa using he)]
        | false =>
          obtain ⟨w, ws, -, hw⟩ := words_cons_cons hd he s
          simp [hw]

theorem plain_of_mem_words {s w : List α} (h : w ∈ words blank s) : (∀ c ∈ w, blank c = false) ∧ w ≠ [] := by
  induction s generalizing w with
  | nil => simp at h
  | cons c s ih =>
    cases hc : blank c with
    | true =>
      rw [words_cons_blank s hc] at h
      exact ih h
    | false =>
      have hsingle (hs : ∀ d ∈ s.head?, blank d = true) : (∀ c ∈ w, blank c = false) ∧ w ≠ [] := by
        rw [words_cons_single hc hs] at h
        rcases List.mem_cons.mp h with rfl | h
        · simp [hc]
        · exact ih h
      rcases s with _ | ⟨d, s⟩
      · exact hsingle (by simp)
      · cases hd : blank d with
        | true => exact hsingle (by simpa using hd)
        | false =>
          obtain ⟨v, ws, hv, hcv⟩ := words_cons_cons hc hd s
          rw [hcv] at h
          rcases List.mem_cons.mp h with rfl | h
          · have := (ih (w := v) (by simp [hv])).1
            simp only [List.mem_cons, forall_eq_or_imp, hc, true_and, ne_eq, List.cons_ne_nil, not_false_eq_true, and_true]
            exact this
          · exact ih (by simp [hv, h])

/-! ## Blanks around and between the words -/

theorem words_append_blanks (s : List α) {g : List α} (hg : ∀ c ∈ g, blank c = true) :
    words blank (s ++ g) = words blank s := by
  rcases g with _ | ⟨c, g⟩
  · rw [List.append_nil]
  · rw [words_append_cons s g (hg c (by simp)), words_of_blank fun d hd => hg d (List.mem_cons_of_mem c hd),
      List.append_nil]

theorem words_blanks_append {g : List α} (hg : ∀ c ∈ g, blank c = true) (s : List α) :
    words blank (g ++ s) = words blank s := by
  induction g with
  | nil => rfl
  | cons c g ih =>
    rw [List.cons_append, words_cons_blank _ (hg c (by simp))]
    exact ih fun d hd => hg d (List.mem_cons_of_mem c hd)

theorem words_separated (s t : List α) {g : List α} (hg : ∀ c ∈ g, blank c = true) (hne : g ≠ []) :
    words blank (s ++ g ++ t) = words blank s ++ words blank t := by
  rcases g with _ | ⟨c, g⟩
  · contradiction
  · rw [List.append_assoc, List.cons_append, words_append_cons s _ (hg c (by simp)),
      words_blanks_append fun d hd => hg d (List.mem_cons_of_mem c hd)]

theorem words_intercalate {sep : α} (hsep : blank sep = true) {ws : List (List α)}
    (h : ∀ w ∈ ws, (∀ c ∈ w, blank c = false) ∧ w ≠ []) : words blank ([sep].intercalate ws) = ws := by
  induction ws with
  | nil => exact words_nil
  | cons w ws ih =>
    obtain ⟨hw, hne⟩ := h w (by simp)
    rcases ws with _ | ⟨v, ws⟩
    · rw [List.intercalate_singleton, words_of_plain hw hne]
    · rw [List.intercalate_cons_cons, words_separated _ _ (by simpa using hsep) (by simp), words_of_plain hw hne,
        ih fun u hu => h u (List.mem_cons_of_mem w hu)]
      rfl

theorem words_dropWhile (s : List α) : words blank (s.dropWhile blank) = words blank s := by
  conv_rhs => rw [← List.takeWhile_append_dropWhile (p := blank) (l := s)]
  exact (words_blanks_append (fun c hc => List.mem_takeWhile_imp hc) _).symm

theorem words_rdropWhile (s : List α) : words blank (s.rdropWhile blank) = words blank s := by
  conv_rhs => rw [← List.rdropWhile_append_rtakeWhile (p := blank) (l := s)]
  exact (words_append_blanks _ fun c hc => List.mem_rtakeWhile_imp hc).symm

theorem words_strip (s : List α) : words blank (strip blank s) = words blank s := by
  rw [strip, words_rdropWhile, words_dropWhile]

theorem stripped_strip (s : List α) : Stripped blank (strip blank s) := by
  constructor
  · intro c hc
    have hpre : (strip blank s) <+: s.dropWhile blank := List.rdropWhile_prefix blank _
    obtain ⟨t, ht⟩ := hpre
    have hhead : (s.dropWhile blank).head? = some c := by
      rw [← ht, List.head?_append, Option.mem_def.mp hc]
      rfl
    have := List.head?_dropWhile_not blank s
    rw [hhead] at this
    simpa using this
  · intro c hc
    obtain ⟨hne, hlast⟩ := List.mem_getLast?_eq_getLast hc
    have := List.rdropWhile_last_not (p := blank) (l := s.dropWhile blank) hne
    rw [hlast]
    simpa [strip] using this

/-! ## Runs of blanks -/

theorem collapse_eq (sep : α) {s : List α} (h : ∀ c ∈ s.getLast?, blank c = false) :
    collapse blank sep s = (if s.head?.any blank then [sep] else []) ++ [sep].intercalate (words blank s) := by
  induction s with
  | nil => simp [collapse]
  | cons c s ih =>
    have ih := ih (by
      rcases s with _ | ⟨d, s⟩
      · simp
      · simpa using h)
    rw [collapse]
    cases hc : blank c with
    | true =>
      have hne : s ≠ [] := by
        rintro rfl
        simp [hc] at h
      rw [words_cons_blank s hc, ih]
      by_cases hs : s.head?.any blank = true <;> simp [hs, hc]
    | false =>
      rw [ih]
      rcases s with _ | ⟨d, s⟩
      · simp [hc, words_of_plain (w := [c]) (by simpa using hc)]
      · cases hd : blank d with
        | true =>
          have hw : words blank (d :: s) ≠ [] := by
            obtain ⟨e, he⟩ : ∃ e, (d :: s).getLast? = some e := ⟨_, List.getLast?_eq_some_getLast (by simp)⟩
            exact words_ne_nil (List.mem_of_getLast? he) (h e (by simpa using he))
          obtain ⟨w, ws, hws⟩ := List.exists_cons_of_ne_nil hw
          rw [words_cons_single hc (by simpa using hd), hws, List.intercalate_cons_cons]
          simp [hc, hd]
        | false =>
          obtain ⟨w, ws, hv, hcv⟩ := words_cons_cons hc hd s
          rw [hcv, hv]
          rcases ws with _ | ⟨v, ws⟩ <;> simp [hc, hd, List.intercalate_cons_cons]

theorem collapse_strip (sep : α) (s : List α) : collapse blank sep (strip blank s) = [sep].intercalate (words blank s) := by
  obtain ⟨hhead, hlast⟩ : Stripped blank (strip blank s) := stripped_strip s
  have hnone : (strip blank s).head?.any blank = false := by
    rcases hc : (strip blank s).head? with _ | c
    · rfl
    · exact hhead c hc
  rw [collapse_eq sep hlast, hnone, words_strip]
  rfl

/-! ## Replacing blanks by blanks -/

section Replace

variable [DecidableEq α] {a b r : α}

theorem head?_replacePair (ha : blank a = true) (hr : blank r = true) (s : List α) :
    (replacePair a b r s).head?.any blank = s.head?.any blank := by
  fun_cases replacePair a b r s with
  | case1 => rfl
  | case2 c => rfl
  | case3 c d s h => simp [ha, hr, h.1]
  | case4 c d s h => simp

theorem collapse_replacePair (sep : α) (ha : blank a = true) (hb : blank b = true) (hr : blank r = true) (s : List α) :
    collapse blank sep (replacePair a b r s) = collapse blank sep s := by
  fun_induction replacePair a b r s with
  | case1 => rfl
  | case2 c => rfl
  | case3 c d s h ih =>
    obtain ⟨rfl, rfl⟩ := h
    simp only [collapse, hr, ha, hb, head?_replacePair ha hr, ih, if_true, List.head?_cons, Option.any_some]
  | case4 c d s h ih =>
    rw [collapse, head?_replacePair ha hr, ih]
    rfl

theorem collapse_replaceOne (sep : α) (ha : blank a = true) (hr : blank r = true) (s : List α) :
    collapse blank sep (replaceOne a r s) = collapse blank sep s := by
  have hblank (c : α) : blank (if c = a then r else c) = blank c := by
    split_ifs with h
    · rw [hr, h, ha]
    · rfl
  induction s with
  | nil => rfl
  | cons c s ih =>
    have hhead : (replaceOne a r s).head?.any blank = s.head?.any blank := by
      rcases s with _ | ⟨d, s⟩
      · rfl
      · simp [replaceOne, hblank]
    show collapse blank sep ((if c = a then r else c) :: replaceOne a r s) = _
    rw [collapse, hblank, hhead, ih, collapse]
    by_cases hc : c = a
    · simp [hc, ha]
    · simp [hc]

theorem replacePair_of_not_mem {s : List α} (h : b ∉ s) : replacePair a b r s = s := by
  fun_induction replacePair a b r s with
  | case1 => rfl
  | case2 c => rfl
  | case3 c d s hp ih => simp [hp.2] at h
  | case4 c d s hp ih => rw [ih fun hb => h (List.mem_cons_of_mem c hb)]

theorem replaceOne_not_mem (h : r ≠ a) (s : List α) : a ∉ replaceOne a r s := by
  unfold replaceOne
  rw [List.mem_map]
  rintro ⟨c, -, hc⟩
  split_ifs at hc with hca
  · exact h hc
  · exact hca hc

theorem mem_replacePair {s : List α} {x : α} (h : x ∈ replacePair a b r s) : x = r ∨ x ∈ s := by
  fun_induction replacePair a b r s with
  | case1 => cases h
  | case2 c => exact Or.inr h
  | case3 c d s hp ih =>
    rcases List.mem_cons.mp h with rfl | h
    · exact Or.inl rfl
    · exact (ih h).imp_right fun hx => List.mem_cons_of_mem c (List.mem_cons_of_mem d hx)
  | case4 c d s hp ih =>
    rcases List.mem_cons.mp h with rfl | h
    · exact Or.inr (by simp)
    · exact (ih h).imp_right fun hx => List.mem_cons_of_mem c hx

theorem mem_replaceOne {s : List α} {x : α} (h : x ∈ replaceOne a r s) : x = r ∨ x ∈ s := by
  obtain ⟨c, hc, rfl⟩ := List.mem_map.mp h
  split_ifs with hca
  · exact Or.inl rfl
  · exact Or.inr hc

theorem replacePair_eq_nil {s : List α} : replacePair a b r s = [] ↔ s = [] := by
  fun_cases replacePair a b r s <;> simp

/-- One character for two of it: only one or two of them become one. -/
theorem replacePair_same_eq_singleton {s : List α} : replacePair a a a s = [a] ↔ s = [a] ∨ s = [a, a] := by
  rcases s with _ | ⟨c, _ | ⟨d, _ | ⟨e, s⟩⟩⟩
  · simp [replacePair]
  · simp [replacePair]
  · by_cases h : c = a ∧ d = a <;> simp [replacePair, h]
  · rw [replacePair]
    split_ifs with h
    · simp [replacePair_eq_nil]
    · simp [replacePair_eq_nil]

end Replace

/-! ## Words that are kept -/

/-- The function works on what is around a word, and leaves the word. -/
def KeepsWords (blank : α → Bool) (f : List α → List α) : Prop :=
  ∀ s w t, (∀ c ∈ w, blank c = false) → w ≠ [] → f (s ++ w ++ t) = f s ++ w ++ f t

theorem KeepsWords.comp {f g : List α → List α} (hf : KeepsWords blank f) (hg : KeepsWords blank g) :
    KeepsWords blank (f ∘ g) := by
  intro s w t hw hne
  simp only [Function.comp_apply, hg s w t hw hne, hf _ w _ hw hne]

theorem keepsWords_replaceOne [DecidableEq α] {a : α} (r : α) (ha : blank a = true) :
    KeepsWords blank (replaceOne a r) := by
  intro s w t hw _
  have hkeep : replaceOne a r w = w := by
    unfold replaceOne
    conv_rhs => rw [← List.map_id w]
    refine List.map_congr_left fun c hc => if_neg ?_
    rintro rfl
    simp [hw c hc] at ha
  simp only [replaceOne, List.map_append] at hkeep ⊢
  rw [hkeep]

section KeepsPairs

variable [DecidableEq α] {a b r : α}

theorem replacePair_cons_ne {c : α} (hc : c ≠ a) (s : List α) : replacePair a b r (c :: s) = c :: replacePair a b r s := by
  rcases s with _ | ⟨d, s⟩
  · rfl
  · rw [replacePair, if_neg fun h => hc h.1]

theorem replacePair_append_cons {c : α} (hc : c ≠ b) (s t : List α) :
    replacePair a b r (s ++ c :: t) = replacePair a b r s ++ replacePair a b r (c :: t) := by
  fun_induction replacePair a b r s with
  | case1 => rfl
  | case2 x =>
    show replacePair a b r (x :: c :: t) = _
    rw [replacePair, if_neg fun h => hc h.2]
    rfl
  | case3 x y s h ih =>
    show replacePair a b r (x :: y :: (s ++ c :: t)) = _
    rw [replacePair, if_pos h, ih]
    rfl
  | case4 x y s h ih =>
    show replacePair a b r (x :: y :: (s ++ c :: t)) = _
    rw [replacePair, if_neg h]
    exact congrArg (x :: ·) ih

theorem keepsWords_replacePair (r : α) (ha : blank a = true) (hb : blank b = true) :
    KeepsWords blank (replacePair a b r) := by
  intro s w t hw hne
  have hne_of {c d : α} (hc : blank c = false) (hd : blank d = true) : c ≠ d := by
    rintro rfl
    simp [hc] at hd
  have hrun : ∀ w : List α, (∀ c ∈ w, blank c = false) → replacePair a b r (w ++ t) = w ++ replacePair a b r t := by
    intro w hw
    induction w with
    | nil => rfl
    | cons c w ih =>
      rw [List.cons_append, replacePair_cons_ne (hne_of (hw c (by simp)) ha),
        ih fun d hd => hw d (List.mem_cons_of_mem c hd)]
      rfl
  rcases w with _ | ⟨c, w⟩
  · contradiction
  · rw [List.append_assoc, List.cons_append, replacePair_append_cons (hne_of (hw c (by simp)) hb), ← List.cons_append,
      hrun (c :: w) hw, List.append_assoc]

end KeepsPairs

/-! ## Layouts -/

/-- Words, with what stands in front of them, between them and behind them. -/
def spread (front first : List α) (rest : List (List α × List α)) (back : List α) : List α :=
  front ++ first ++ rest.flatMap (fun p => p.1 ++ p.2) ++ back

theorem spread_cons (front first : List α) (p : List α × List α) (rest : List (List α × List α)) (back : List α) :
    spread front first (p :: rest) back = front ++ first ++ spread p.1 p.2 rest back := by
  simp [spread]

theorem KeepsWords.spread {f : List α → List α} (hf : KeepsWords blank f) {front first back : List α}
    {rest : List (List α × List α)} (hw : ∀ w ∈ first :: rest.map Prod.snd, (∀ c ∈ w, blank c = false) ∧ w ≠ []) :
    f (spread front first rest back) = spread (f front) first (rest.map fun p => (f p.1, p.2)) (f back) := by
  induction rest generalizing front first with
  | nil =>
    obtain ⟨hplain, hne⟩ := hw first (by simp)
    simpa [Blanks.spread] using hf front first back hplain hne
  | cons p rest ih =>
    obtain ⟨hplain, hne⟩ := hw first (by simp)
    rw [spread_cons, hf front first _ hplain hne, ih fun w h => hw w (List.mem_cons_of_mem first h), List.map_cons,
      spread_cons]

theorem append_plain_inj {u v x y : List α} (hu : ∀ c ∈ u, blank c = true) (hv : ∀ c ∈ v, blank c = true)
    (hx : ∃ c t, x = c :: t ∧ blank c = false) (hy : ∃ c t, y = c :: t ∧ blank c = false) (h : u ++ x = v ++ y) :
    u = v ∧ x = y := by
  have htake {u x : List α} (hu : ∀ c ∈ u, blank c = true) (hx : ∃ c t, x = c :: t ∧ blank c = false) :
      (u ++ x).takeWhile blank = u := by
    obtain ⟨c, t, rfl, hc⟩ := hx
    rw [List.takeWhile_append_of_pos hu, List.takeWhile_cons_of_neg (by simp [hc]), List.append_nil]
  have huv : u = v := by rw [← htake hu hx, h, htake hv hy]
  subst huv
  exact ⟨rfl, List.append_cancel_left h⟩

theorem starts_plain {w : List α} (hw : (∀ c ∈ w, blank c = false) ∧ w ≠ []) (s : List α) :
    ∃ c t, w ++ s = c :: t ∧ blank c = false := by
  obtain ⟨hplain, hne⟩ := hw
  rcases w with _ | ⟨c, w⟩
  · contradiction
  · exact ⟨c, w ++ s, rfl, hplain c (by simp)⟩

theorem starts_intercalate {w : List α} (hw : (∀ c ∈ w, blank c = false) ∧ w ≠ []) (sep : List α) (ws : List (List α)) :
    ∃ c t, sep.intercalate (w :: ws) = c :: t ∧ blank c = false := by
  rcases ws with _ | ⟨v, ws⟩
  · simpa using starts_plain hw []
  · rw [List.intercalate_cons_cons, List.append_assoc]
    exact starts_plain hw _

theorem spread_front (front first : List α) (rest : List (List α × List α)) (back : List α) :
    spread front first rest back = front ++ spread [] first rest back := by simp [spread]

theorem starts_spread {first : List α} (hw : (∀ c ∈ first, blank c = false) ∧ first ≠ [])
    (rest : List (List α × List α)) (back : List α) : ∃ c t, spread [] first rest back = c :: t ∧ blank c = false := by
  rw [spread, List.nil_append, List.append_assoc]
  exact starts_plain hw _

theorem spread_nil_eq_intercalate_iff {sep : α} (hsep : blank sep = true) {first back : List α}
    {rest : List (List α × List α)} (hw : ∀ w ∈ first :: rest.map Prod.snd, (∀ c ∈ w, blank c = false) ∧ w ≠ [])
    (hgaps : ∀ p ∈ rest, ∀ c ∈ p.1, blank c = true) :
    spread [] first rest back = [sep].intercalate (first :: rest.map Prod.snd) ↔
      (∀ p ∈ rest, p.1 = [sep]) ∧ back = [] := by
  induction rest generalizing first with
  | nil => simp [spread]
  | cons p rest ih =>
    have hp := hw p.2 (by simp)
    have ih := @ih p.2 (fun w h => hw w (List.mem_cons_of_mem first h))
      fun q hq => hgaps q (List.mem_cons_of_mem p hq)
    rw [spread_cons, spread_front p.1, List.map_cons, List.intercalate_cons_cons, List.nil_append, List.append_assoc,
      List.append_cancel_left_eq, List.forall_mem_cons, and_assoc, ← ih]
    constructor
    · exact append_plain_inj (hgaps p (by simp)) (by simpa using hsep) (starts_spread hp _ _) (starts_intercalate hp _ _)
    · rintro ⟨hgap, h⟩
      rw [hgap, h]

/-- **Words in a row.** A layout is the words with one separator between them only where it is laid out so. -/
theorem spread_eq_intercalate_iff {sep : α} (hsep : blank sep = true) {front first back : List α}
    {rest : List (List α × List α)} (hw : ∀ w ∈ first :: rest.map Prod.snd, (∀ c ∈ w, blank c = false) ∧ w ≠ [])
    (hfront : ∀ c ∈ front, blank c = true) (hgaps : ∀ p ∈ rest, ∀ c ∈ p.1, blank c = true) :
    spread front first rest back = [sep].intercalate (first :: rest.map Prod.snd) ↔
      front = [] ∧ (∀ p ∈ rest, p.1 = [sep]) ∧ back = [] := by
  have hfirst := hw first (by simp)
  rw [← spread_nil_eq_intercalate_iff hsep hw hgaps]
  constructor
  · intro h
    rw [spread_front] at h
    exact append_plain_inj (v := []) hfront (by simp) (starts_spread hfirst _ _) (starts_intercalate hfirst _ _) h
  · rintro ⟨rfl, h⟩
    exact h

theorem dropWhile_append_plain (u : List α) {x : List α} (hx : ∃ c t, x = c :: t ∧ blank c = false) :
    (u ++ x).dropWhile blank = u.dropWhile blank ++ x := by
  obtain ⟨c, t, rfl, hc⟩ := hx
  induction u with
  | nil => simp [hc]
  | cons d u ih =>
    cases hd : blank d with
    | true => simpa [hd] using ih
    | false => simp [hd]

theorem rdropWhile_append_plain (v : List α) {x : List α} (hx : ∃ c t, x = t ++ [c] ∧ blank c = false) :
    (x ++ v).rdropWhile blank = x ++ v.rdropWhile blank := by
  obtain ⟨c, t, rfl, hc⟩ := hx
  rw [List.rdropWhile, List.reverse_append, dropWhile_append_plain v.reverse ⟨c, t.reverse, by simp, hc⟩]
  simp [List.rdropWhile]

theorem ends_plain {front first : List α} {rest : List (List α × List α)}
    (hw : ∀ w ∈ first :: rest.map Prod.snd, (∀ c ∈ w, blank c = false) ∧ w ≠ []) :
    ∃ c t, spread front first rest [] = t ++ [c] ∧ blank c = false := by
  induction rest generalizing front first with
  | nil =>
    obtain ⟨hplain, hne⟩ := hw first (by simp)
    refine ⟨first.getLast hne, front ++ first.dropLast, ?_, hplain _ (List.getLast_mem hne)⟩
    simp [spread, List.dropLast_append_getLast]
  | cons p rest ih =>
    obtain ⟨c, t, ht, hc⟩ := @ih p.1 p.2 fun w h => hw w (List.mem_cons_of_mem first h)
    exact ⟨c, front ++ first ++ t, by rw [spread_cons, ht, ← List.append_assoc], hc⟩

theorem strip_spread {front first back : List α} {rest : List (List α × List α)}
    (hw : ∀ w ∈ first :: rest.map Prod.snd, (∀ c ∈ w, blank c = false) ∧ w ≠ []) :
    strip blank (spread front first rest back) =
      spread (front.dropWhile blank) first rest (back.rdropWhile blank) := by
  have hback (front back : List α) : spread front first rest back = spread front first rest [] ++ back := by
    simp [spread]
  rw [strip, spread_front, dropWhile_append_plain front (starts_spread (hw first (by simp)) _ _), ← spread_front,
    hback, rdropWhile_append_plain back (ends_plain hw), ← hback]

theorem words_spread {front first back : List α} {rest : List (List α × List α)}
    (hw : ∀ w ∈ first :: rest.map Prod.snd, (∀ c ∈ w, blank c = false) ∧ w ≠ [])
    (hfront : ∀ c ∈ front, blank c = true) (hgaps : ∀ p ∈ rest, (∀ c ∈ p.1, blank c = true) ∧ p.1 ≠ [])
    (hback : ∀ c ∈ back, blank c = true) :
    words blank (spread front first rest back) = first :: rest.map Prod.snd := by
  induction rest generalizing front first with
  | nil =>
    obtain ⟨hplain, hne⟩ := hw first (by simp)
    simp [spread, words_append_blanks _ hback, words_blanks_append hfront, words_of_plain hplain hne]
  | cons p rest ih =>
    obtain ⟨hplain, hne⟩ := hw first (by simp)
    obtain ⟨hgap, hgne⟩ := hgaps p (by simp)
    have ih := @ih [] p.2 (fun w h => hw w (List.mem_cons_of_mem first h)) (by simp)
      fun q hq => hgaps q (List.mem_cons_of_mem p hq)
    rw [spread_cons, spread_front p.1, ← List.append_assoc, words_separated _ _ hgap hgne, ih,
      words_blanks_append hfront, words_of_plain hplain hne]
    rfl

end Blanks
