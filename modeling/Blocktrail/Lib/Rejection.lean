import Mathlib.Data.List.Basic

/-! # Drawing until a draw is accepted -/

namespace Rejection

variable {δ β : Type} {accept : δ → Option β}

/-- What the first accepted draw gives, and what is left to draw. -/
def first (accept : δ → Option β) : List δ → Option (β × List δ)
  | [] => none
  | d :: draws =>
    match accept d with
    | some b => some (b, draws)
    | none => first accept draws

/-- `n` draws are accepted before `rest`, the last of them right before it. -/
inductive Served (accept : δ → Option β) : Nat → List δ → List δ → Prop
  | done (rest : List δ) : Served accept 0 rest rest
  | rejected {n : Nat} {d : δ} {draws rest : List δ} (hd : accept d = none) (h : Served accept (n + 1) draws rest) :
      Served accept (n + 1) (d :: draws) rest
  | accepted {n : Nat} {d : δ} {draws rest : List δ} (hd : (accept d).isSome = true) (h : Served accept n draws rest) :
      Served accept (n + 1) (d :: draws) rest

theorem Served.first {n : Nat} {draws rest : List δ} (h : Served accept (n + 1) draws rest) :
    ∃ d b mid, d ∈ draws ∧ accept d = some b ∧ Rejection.first accept draws = some (b, mid) ∧ mid ⊆ draws ∧
      Served accept n mid rest := by
  generalize hm : n + 1 = m at h
  induction h with
  | done => omega
  | rejected hd _ ih =>
    obtain ⟨d', b, mid, hmem, hb, hfirst, hmid, hserved⟩ := ih hm
    refine ⟨d', b, mid, List.mem_cons_of_mem _ hmem, hb, ?_, List.subset_cons_of_subset _ hmid, hserved⟩
    unfold Rejection.first
    rw [hd]
    exact hfirst
  | accepted hd hrest _ =>
    obtain rfl := Nat.succ.inj hm
    obtain ⟨b, hb⟩ := Option.isSome_iff_exists.mp hd
    refine ⟨_, b, _, List.mem_cons_self, hb, ?_, List.subset_cons_self _ _, hrest⟩
    unfold Rejection.first
    rw [hb]

theorem Served.eq {draws rest : List δ} (h : Served accept 0 draws rest) : draws = rest := by
  cases h
  rfl

theorem served_replicate {d : δ} (hd : (accept d).isSome = true) (n : Nat) :
    Served accept n (List.replicate n d) [] := by
  induction n with
  | zero => exact .done []
  | succ n ih => exact .accepted hd ih

theorem first_map {γ : Type} (f : β → γ) (accept : δ → Option β) (draws : List δ) :
    first (fun d => (accept d).map f) draws = (first accept draws).map fun found => (f found.1, found.2) := by
  induction draws with
  | nil => rfl
  | cons d draws ih =>
    unfold first
    cases accept d with
    | none => exact ih
    | some b => rfl

theorem first_eq_none {draws : List δ} (h : ∀ d ∈ draws, accept d = none) : first accept draws = none := by
  induction draws with
  | nil => rfl
  | cons d draws ih =>
    unfold first
    rw [h d List.mem_cons_self]
    exact ih fun e he => h e (List.mem_cons_of_mem d he)

end Rejection
