import Mathlib.Data.List.Forall2
import Mathlib.Data.List.ProdSigma
import Blocktrail.Lib.Throwing

/-! # Loops that may not end, and chunks -/

open Throwing

namespace Series

variable {ε σ α β : Type}

/-! ## One after the other

A body out of fuel or with an exception ends the loop.
-/

def eachSeries (f : α → σ → Option (Except ε σ)) : List α → σ → Option (Except ε σ)
  | [], s => some (.ok s)
  | a :: as, s =>
    match f a s with
    | some (.ok t) => eachSeries f as t
    | r => r

theorem eachSeries_cons {f : α → σ → Option (Except ε σ)} {a : α} {as : List α} {s t : σ}
    (h : eachSeries f (a :: as) s = some (.ok t)) : ∃ u, f a s = some (.ok u) ∧ eachSeries f as u = some (.ok t) := by
  unfold eachSeries at h
  split at h
  · next u hu => exact ⟨u, hu, h⟩
  · next hno => exact absurd h (hno t)

theorem eachSeries_invariant {f : α → σ → Option (Except ε σ)} {I : σ → Prop}
    (hstep : ∀ a s t, f a s = some (.ok t) → I s → I t) {as : List α} {s t : σ}
    (h : eachSeries f as s = some (.ok t)) (h0 : I s) : I t := by
  induction as generalizing s with
  | nil =>
    cases h
    exact h0
  | cons a as ih =>
    obtain ⟨u, hu, h⟩ := eachSeries_cons h
    exact ih h (hstep a s u hu h0)

/-- What one turn establishes and every later turn keeps holds after the loop. -/
theorem eachSeries_mem {f : α → σ → Option (Except ε σ)} {Q : σ → Prop} {a : α}
    (hset : ∀ s t, f a s = some (.ok t) → Q t) (hkeep : ∀ b s t, f b s = some (.ok t) → Q s → Q t) {as : List α}
    (ha : a ∈ as) {s t : σ} (h : eachSeries f as s = some (.ok t)) : Q t := by
  induction as generalizing s with
  | nil => cases ha
  | cons b as ih =>
    obtain ⟨u, hu, hrest⟩ := eachSeries_cons h
    rcases List.mem_cons.mp ha with rfl | ha
    · exact eachSeries_invariant hkeep hrest (hset s u hu)
    · exact ih ha hrest

theorem eachSeries_returns {f : α → σ → Option (Except ε σ)} {as : List α} (h : ∀ a ∈ as, ∀ s, ∃ r, f a s = some r)
    (s : σ) : ∃ r, eachSeries f as s = some r := by
  induction as generalizing s with
  | nil => exact ⟨_, rfl⟩
  | cons a as ih =>
    obtain ⟨r, hr⟩ := h a List.mem_cons_self s
    unfold eachSeries
    rw [hr]
    rcases r with e | t
    · exact ⟨_, rfl⟩
    · exact ih (fun b hb => h b (List.mem_cons_of_mem a hb)) t

theorem eachSeries_ok {f : α → σ → Option (Except ε σ)} {as : List α} {s : σ}
    (h : ∀ a ∈ as, ∀ s, ∃ t, f a s = some (.ok t)) : ∃ t, eachSeries f as s = some (.ok t) := by
  induction as generalizing s with
  | nil => exact ⟨s, rfl⟩
  | cons a as ih =>
    obtain ⟨t, ht⟩ := h a List.mem_cons_self s
    unfold eachSeries
    rw [ht]
    exact ih fun b hb => h b (List.mem_cons_of_mem a hb)

theorem eachSeries_append (f : α → σ → Option (Except ε σ)) (as bs : List α) (s : σ) :
    eachSeries f (as ++ bs) s =
      match eachSeries f as s with
      | some (.ok t) => eachSeries f bs t
      | r => r := by
  induction as generalizing s with
  | nil => rfl
  | cons a as ih =>
    rw [List.cons_append, eachSeries, eachSeries]
    rcases f a s with _ | _ | t
    · rfl
    · rfl
    · exact ih t

theorem eachSeries_map (f : β → σ → Option (Except ε σ)) (g : α → β) (as : List α) (s : σ) :
    eachSeries f (as.map g) s = eachSeries (fun a => f (g a)) as s := by
  induction as generalizing s with
  | nil => rfl
  | cons a as ih =>
    rw [List.map_cons, eachSeries, eachSeries]
    rcases f (g a) s with _ | _ | t
    · rfl
    · rfl
    · exact ih t

/-- A loop in a loop is one loop over pairs. -/
theorem eachSeries_product (f : α × β → σ → Option (Except ε σ)) (as : List α) (bs : List β) (s : σ) :
    eachSeries (fun a => eachSeries (fun b => f (a, b)) bs) as s = eachSeries f (as ×ˢ bs) s := by
  induction as generalizing s with
  | nil => rfl
  | cons a as ih =>
    rw [List.product_cons, eachSeries_append, eachSeries_map, eachSeries]
    rcases eachSeries (fun b => f (a, b)) bs s with _ | _ | t
    · rfl
    · rfl
    · exact ih t

/-! ## Calling itself again

`Sum.inl` is the next call of a function that calls itself when a query is answered, `Sum.inr` its result.
-/

variable {τ : Type}

def recur (body : σ → Option (Except ε (σ ⊕ τ))) : Nat → σ → Option (Except ε τ)
  | 0, _ => none
  | fuel + 1, s =>
    match body s with
    | some (.ok (.inl t)) => recur body fuel t
    | some (.ok (.inr r)) => some (.ok r)
    | some (.error e) => some (.error e)
    | none => none

theorem exists_of_recur_ok {body : σ → Option (Except ε (σ ⊕ τ))} {I : σ → Prop}
    (hstep : ∀ s t, I s → body s = some (.ok (.inl t)) → I t) {fuel : Nat} {s : σ} {r : τ}
    (h : recur body fuel s = some (.ok r)) (h0 : I s) : ∃ t, I t ∧ body t = some (.ok (.inr r)) := by
  induction fuel generalizing s with
  | zero => cases h
  | succ fuel ih =>
    unfold recur at h
    split at h
    · next t ht => exact ih h (hstep s t h0 ht)
    · next r' hr =>
      cases h
      exact ⟨s, h0, hr⟩
    · cases h
    · cases h

theorem recur_returns {body : σ → Option (Except ε (σ ⊕ τ))} {J : Nat → σ → Prop} {Q : τ → Prop} {n : Nat}
    (hstep : ∀ j < n, ∀ s, J j s → ∃ t, body s = some (.ok (.inl t)) ∧ J (j + 1) t)
    (hstop : ∀ s, J n s → ∃ r, body s = some (.ok (.inr r)) ∧ Q r) {fuel : Nat} (hfuel : n < fuel) {s : σ} (h0 : J 0 s) :
    ∃ r, recur body fuel s = some (.ok r) ∧ Q r := by
  have haux : ∀ m fuel j s, j + m = n → m < fuel → J j s → ∃ r, recur body fuel s = some (.ok r) ∧ Q r := by
    intro m
    induction m with
    | zero =>
      intro fuel j s hj hm hs
      obtain ⟨fuel, rfl⟩ := Nat.exists_eq_succ_of_ne_zero (Nat.ne_of_gt hm)
      obtain rfl : j = n := hj
      obtain ⟨r, hr, hq⟩ := hstop s hs
      refine ⟨r, ?_, hq⟩
      unfold recur
      rw [hr]
    | succ m ih =>
      intro fuel j s hj hm hs
      obtain ⟨fuel, rfl⟩ := Nat.exists_eq_succ_of_ne_zero (Nat.ne_of_gt (Nat.lt_of_le_of_lt (Nat.zero_le _) hm))
      obtain ⟨t, ht, hJ⟩ := hstep j (by omega) s hs
      obtain ⟨r, hr, hq⟩ := ih fuel (j + 1) t (by omega) (Nat.lt_of_succ_lt_succ hm) hJ
      refine ⟨r, ?_, hq⟩
      unfold recur
      rw [ht]
      exact hr
  exact haux n fuel 0 s (Nat.zero_add n) hfuel h0

/-- A function that keeps an invariant and comes down to its end returns or throws from a call that meets the invariant. -/
theorem recur_cases (body : σ → Option (Except ε (σ ⊕ τ))) (I : σ → Prop) (μ : σ → Nat)
    (hstep : ∀ s, I s → (∃ t, body s = some (.ok (.inl t)) ∧ I t ∧ μ t < μ s) ∨
      (∃ r, body s = some (.ok (.inr r))) ∨ ∃ e, body s = some (.error e)) (fuel : Nat) {s : σ} (h0 : I s)
    (hfuel : μ s < fuel) :
    ∃ t, I t ∧ ((∃ r, body t = some (.ok (.inr r)) ∧ recur body fuel s = some (.ok r)) ∨
      ∃ e, body t = some (.error e) ∧ recur body fuel s = some (.error e)) := by
  induction fuel generalizing s with
  | zero => omega
  | succ fuel ih =>
    unfold recur
    rcases hstep s h0 with ⟨t, ht, hI, hμ⟩ | ⟨r, hr⟩ | ⟨e, he⟩
    · rw [ht]
      exact ih hI (by omega)
    · exact ⟨s, h0, Or.inl ⟨r, hr, by rw [hr]⟩⟩
    · exact ⟨s, h0, Or.inr ⟨e, he, by rw [he]⟩⟩

/-! ## All of a list -/

/-- The results of all, in order, or what kept one from returning. -/
def all (f : α → Option (Except ε β)) : List α → Option (Except ε (List β))
  | [] => some (.ok [])
  | a :: as =>
    match f a with
    | some (.ok b) =>
      match all f as with
      | some (.ok bs) => some (.ok (b :: bs))
      | r => r
    | some (.error e) => some (.error e)
    | none => none

theorem all_eq_ok {f : α → Option (Except ε β)} {as : List α} {bs : List β} :
    all f as = some (.ok bs) ↔ List.Forall₂ (fun a b => f a = some (.ok b)) as bs := by
  induction as generalizing bs with
  | nil =>
    rw [List.forall₂_nil_left_iff, all]
    constructor
    · intro h
      cases h
      rfl
    · rintro rfl
      rfl
  | cons a as ih =>
    rw [List.forall₂_cons_left_iff, all]
    constructor
    · intro h
      split at h
      · next b hb =>
        split at h
        · next bs' hbs =>
          cases h
          exact ⟨b, bs', hb, ih.mp hbs, rfl⟩
        · next hno => exact absurd h (hno bs)
      · cases h
      · cases h
    · rintro ⟨b, bs', hb, hbs, rfl⟩
      rw [hb]
      dsimp only
      rw [ih.mpr hbs]

theorem exists_all {f : α → Option (Except ε β)} {as : List α} (h : ∀ a ∈ as, ∃ b, f a = some (.ok b)) :
    ∃ bs, all f as = some (.ok bs) := by
  induction as with
  | nil => exact ⟨[], rfl⟩
  | cons a as ih =>
    obtain ⟨b, hb⟩ := h a List.mem_cons_self
    obtain ⟨bs, hbs⟩ := ih fun a' ha => h a' (List.mem_cons_of_mem a ha)
    refine ⟨b :: bs, ?_⟩
    rw [all, hb]
    dsimp only
    rw [hbs]

/-! ## Chunks -/

def chunkAux (size : Nat) : Nat → List α → List (List α)
  | 0, _ => []
  | _, [] => []
  | n + 1, a :: as => (a :: as).take size :: chunkAux size n ((a :: as).drop size)

/-- `_.chunk(array, size)`. -/
def chunk (size : Nat) (l : List α) : List (List α) := if size = 0 then [] else chunkAux size l.length l

theorem flatten_chunk {size : Nat} (h : 0 < size) (l : List α) : (chunk size l).flatten = l := by
  have haux : ∀ n (l : List α), l.length ≤ n → (chunkAux size n l).flatten = l := by
    intro n
    induction n with
    | zero =>
      intro l hl
      rw [List.eq_nil_of_length_eq_zero (Nat.le_zero.mp hl)]
      rfl
    | succ n ih =>
      intro l hl
      rcases l with _ | ⟨a, as⟩
      · rfl
      · rw [chunkAux, List.flatten_cons, ih, List.take_append_drop]
        rw [List.length_drop]
        omega
  rw [chunk, if_neg (Nat.pos_iff_ne_zero.mp h)]
  exact haux l.length l (Nat.le_refl _)

theorem chunkAux_eq {size : Nat} (h : 0 < size) {n m : Nat} {l : List α} (hn : l.length ≤ n) (hm : l.length ≤ m) :
    chunkAux size n l = chunkAux size m l := by
  induction n generalizing m l with
  | zero =>
    obtain rfl := List.eq_nil_of_length_eq_zero (Nat.le_zero.mp hn)
    cases m <;> rfl
  | succ n ih =>
    rcases l with _ | ⟨a, l⟩
    · cases m <;> rfl
    rcases m with _ | m
    · simp at hm
    rw [chunkAux, chunkAux]
    congr 1
    apply ih
    · rw [List.length_drop]; omega
    · rw [List.length_drop]; omega

theorem chunk_append {size : Nat} (h : 0 < size) {c l : List α} (hc : c.length = size) :
    chunk size (c ++ l) = c :: chunk size l := by
  rw [chunk, chunk, if_neg (Nat.pos_iff_ne_zero.mp h), if_neg (Nat.pos_iff_ne_zero.mp h)]
  rcases c with _ | ⟨a, c⟩
  · simp at hc; omega
  rw [List.cons_append, List.length_cons, chunkAux, ← List.cons_append, List.take_left' hc, List.drop_left' hc]
  congr 1
  exact chunkAux_eq h (by simp) (Nat.le_refl _)

theorem chunk_flatten {size : Nat} (h : 0 < size) {ls : List (List α)} (hls : ∀ l ∈ ls, l.length = size) :
    chunk size ls.flatten = ls := by
  induction ls with
  | nil =>
    rw [List.flatten_nil, chunk, if_neg (Nat.pos_iff_ne_zero.mp h)]
    rfl
  | cons l ls ih =>
    rw [List.flatten_cons, chunk_append h (hls l List.mem_cons_self),
      ih fun m hm => hls m (List.mem_cons_of_mem l hm)]

theorem length_of_mem_chunk {size : Nat} (h : 0 < size) {l c : List α} (hl : size ∣ l.length)
    (hc : c ∈ chunk size l) : c.length = size := by
  obtain ⟨k, hk⟩ := hl
  induction k generalizing l with
  | zero =>
    obtain rfl := List.eq_nil_of_length_eq_zero hk
    simp [chunk, chunkAux] at hc
  | succ k ih =>
    have htake : (l.take size).length = size := by
      rw [List.length_take, hk, Nat.mul_succ]
      omega
    rw [← List.take_append_drop size l, chunk_append h htake, List.mem_cons] at hc
    rcases hc with rfl | hc
    · exact htake
    · refine ih hc ?_
      rw [List.length_drop, hk, Nat.mul_succ]
      omega

end Series
