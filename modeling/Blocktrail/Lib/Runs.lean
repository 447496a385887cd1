import Mathlib.Data.List.Basic
import Mathlib.Data.List.Infix

/-! # Runs of a system

`Run step s as s'` is a run of a step relation that may refuse an action or answer it in several ways.
`step` as a function is the special case where every action is answered in one way.
-/

namespace Runs

variable {σ α : Type}

/-! ## Step relations -/

/-- The actions `as`, from first to last, lead from one state to another. -/
inductive Run (step : σ → α → σ → Prop) : σ → List α → σ → Prop
  | nil (s : σ) : Run step s [] s
  | cons {s t u : σ} {a : α} {as : List α} (h : step s a t) (r : Run step t as u) : Run step s (a :: as) u

/-- **Invariant rule.** What every step keeps, every run keeps. -/
theorem Run.invariant {step : σ → α → σ → Prop} {I : σ → Prop}
    (hstep : ∀ s a t, I s → step s a t → I t) {s t : σ} {as : List α} (r : Run step s as t) (h0 : I s) :
    I t := by
  induction r with
  | nil _ => exact h0
  | cons h _ ih => exact ih (hstep _ _ _ h0 h)

theorem Run.append {step : σ → α → σ → Prop} {s t u : σ} {as bs : List α}
    (h : Run step s as t) (k : Run step t bs u) : Run step s (as ++ bs) u := by
  induction h with
  | nil _ => exact k
  | cons h _ ih => exact .cons h (ih k)

/-! ## Step functions -/

/-- `P` of every state that `as` leads through, the first and the last included. -/
def Always (f : σ → α → σ) (P : σ → Prop) : σ → List α → Prop
  | s, [] => P s
  | s, a :: as => P s ∧ Always f P (f s a) as

/-- `ok` of every action of `as` and the state it is taken in. -/
def Along (f : σ → α → σ) (ok : σ → α → Prop) : σ → List α → Prop
  | _, [] => True
  | s, a :: as => ok s a ∧ Along f ok (f s a) as

instance decidableAlong (f : σ → α → σ) (ok : σ → α → Prop) [∀ s a, Decidable (ok s a)] :
    ∀ (s : σ) (as : List α), Decidable (Along f ok s as)
  | _, [] => isTrue trivial
  | s, a :: as =>
    have := decidableAlong f ok (f s a) as
    inferInstanceAs (Decidable (ok s a ∧ Along f ok (f s a) as))

variable {f : σ → α → σ} {P I : σ → Prop} {ok : σ → α → Prop}

theorem Always.head {s : σ} {as : List α} (h : Always f P s as) : P s := by
  cases as with
  | nil => exact h
  | cons a as => exact h.1

theorem Always.last {s : σ} {as : List α} (h : Always f P s as) : P (as.foldl f s) := by
  induction as generalizing s with
  | nil => exact h
  | cons a as ih => exact ih h.2

theorem Always.mono {Q : σ → Prop} (hPQ : ∀ s, P s → Q s) {s : σ} {as : List α}
    (h : Always f P s as) : Always f Q s as := by
  induction as generalizing s with
  | nil => exact hPQ s h
  | cons a as ih => exact ⟨hPQ s h.1, ih h.2⟩

theorem Always.and {Q : σ → Prop} {s : σ} {as : List α} (hP : Always f P s as) (hQ : Always f Q s as) :
    Always f (fun s => P s ∧ Q s) s as := by
  induction as generalizing s with
  | nil => exact ⟨hP, hQ⟩
  | cons a as ih => exact ⟨⟨hP.1, hQ.1⟩, ih hP.2 hQ.2⟩

/-- **Invariant rule, with a condition on each step.** -/
theorem always_of_along (hstep : ∀ s a, I s → ok s a → I (f s a)) {s : σ} {as : List α}
    (h0 : I s) (h : Along f ok s as) : Always f I s as := by
  induction as generalizing s with
  | nil => exact h0
  | cons a as ih => exact ⟨h0, ih (hstep s a h0 h.1) h.2⟩

/-- Where a step keeps the invariant exactly when it meets the condition, so does a run. -/
theorem always_iff_along (hstep : ∀ s a, I s → (I (f s a) ↔ ok s a)) {s : σ} {as : List α}
    (h0 : I s) : Always f I s as ↔ Along f ok s as := by
  refine ⟨fun h => ?_, always_of_along (fun s a hs => (hstep s a hs).mpr) h0⟩
  induction as generalizing s with
  | nil => trivial
  | cons a as ih =>
    have h1 : I (f s a) := h.2.head
    exact ⟨(hstep s a h0).mp h1, ih h1 h.2⟩

/-- Where steps that meet the condition keep an invariant, and the others break what the invariant promises, a run keeps
the promise exactly when all its steps meet the condition. `wf` is what the actions of the run are known to meet. -/
theorem always_iff_along_of_wf {wf : σ → α → Prop} (hI : ∀ s, I s → P s)
    (hkeep : ∀ s a, I s → wf s a → ok s a → I (f s a)) (hbreak : ∀ s a, I s → wf s a → P (f s a) → ok s a)
    {s : σ} {as : List α} (h0 : I s) (hwf : Along f wf s as) : Always f P s as ↔ Along f ok s as := by
  induction as generalizing s with
  | nil => exact ⟨fun _ => trivial, fun _ => hI s h0⟩
  | cons a as ih =>
    constructor
    · intro h
      have hok := hbreak s a h0 hwf.1 h.2.head
      exact ⟨hok, (ih (hkeep s a h0 hwf.1 hok) hwf.2).mp h.2⟩
    · intro h
      exact ⟨hI s h0, (ih (hkeep s a h0 hwf.1 h.1) hwf.2).mpr h.2⟩

theorem along_true {s : σ} (as : List α) : Along f (fun _ _ => True) s as := by
  induction as generalizing s with
  | nil => trivial
  | cons a as ih => exact ⟨trivial, ih⟩

theorem along_actions {ok : α → Prop} {s : σ} {as : List α} : Along f (fun _ a => ok a) s as ↔ ∀ a ∈ as, ok a := by
  induction as generalizing s with
  | nil => simp [Along]
  | cons a as ih => simp [Along, ih]

/-- The same, of any actions. -/
theorem always_iff_along_of_inv (hI : ∀ s, I s → P s) (hkeep : ∀ s a, I s → ok s a → I (f s a))
    (hbreak : ∀ s a, I s → P (f s a) → ok s a) {s : σ} {as : List α} (h0 : I s) :
    Always f P s as ↔ Along f ok s as :=
  always_iff_along_of_wf hI (fun s a hs _ => hkeep s a hs) (fun s a hs _ => hbreak s a hs) h0 (along_true as)

theorem always_of_step (hstep : ∀ s a, I s → I (f s a)) {s : σ} (as : List α) (h0 : I s) :
    Always f I s as := by
  induction as generalizing s with
  | nil => exact h0
  | cons a as ih => exact ⟨h0, ih (hstep s a h0)⟩

/-- Two conditions that are one where the invariant holds are one along a run. -/
theorem along_iff_of_inv {P Q : σ → α → Prop} (hstep : ∀ s a, I s → I (f s a)) (hPQ : ∀ s a, I s → (P s a ↔ Q s a))
    {s : σ} (as : List α) (h0 : I s) : Along f P s as ↔ Along f Q s as := by
  induction as generalizing s with
  | nil => rfl
  | cons a as ih => exact and_congr (hPQ s a h0) (ih (hstep s a h0))

end Runs
