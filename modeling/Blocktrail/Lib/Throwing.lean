import Mathlib.Algebra.BigOperators.Group.List.Basic
import Mathlib.Algebra.Order.Ring.Int
import Mathlib.Data.List.Forall2

/-! # Programs that change a state and may throw

A throw keeps the state reached so far, as an assignment before a `throw` does.
-/

namespace Throwing

/-- A program over the state `σ` that returns an `α` or throws an `ε`. -/
abbrev Prog (ε σ α : Type) := ExceptT ε (StateM σ) α

variable {ε σ α β : Type}

/-- The result of a program and the state it leaves. -/
def call (m : Prog ε σ α) (s : σ) : Except ε α × σ := StateT.run (ExceptT.run m) s

/-- The state a program leaves, whether it returns or throws. -/
def after (m : Prog ε σ α) (s : σ) : σ := (call m s).2

@[simp] theorem call_pure (a : α) (s : σ) : call (pure a : Prog ε σ α) s = (.ok a, s) := rfl

@[simp] theorem call_throw (e : ε) (s : σ) : call (throw e : Prog ε σ α) s = (.error e, s) := rfl

@[simp] theorem call_get (s : σ) : call (get : Prog ε σ σ) s = (.ok s, s) := rfl

@[simp] theorem call_set (t s : σ) : call (set t : Prog ε σ PUnit) s = (.ok ⟨⟩, t) := rfl

@[simp] theorem call_modify (g : σ → σ) (s : σ) :
    call (modify g : Prog ε σ PUnit) s = (.ok ⟨⟩, g s) := rfl

theorem call_bind (m : Prog ε σ α) (k : α → Prog ε σ β) (s : σ) :
    call (m >>= k) s =
      match call m s with
      | (.ok a, t) => call (k a) t
      | (.error e, t) => (.error e, t) := by
  simp only [call, ExceptT.run_bind, StateT.run_bind]
  show (match (StateT.run (ExceptT.run m) s : Except ε α × σ) with | (a, t) => _) = _
  rcases (StateT.run (ExceptT.run m) s : Except ε α × σ) with ⟨_ | _, _⟩ <;> rfl

theorem call_bind_ok {m : Prog ε σ α} {k : α → Prog ε σ β} {s t : σ} {a : α}
    (h : call m s = (.ok a, t)) : call (m >>= k) s = call (k a) t := by rw [call_bind, h]

theorem call_bind_error {m : Prog ε σ α} {k : α → Prog ε σ β} {s t : σ} {e : ε}
    (h : call m s = (.error e, t)) : call (m >>= k) s = (.error e, t) := by rw [call_bind, h]

theorem call_map (g : α → β) (m : Prog ε σ α) (s : σ) :
    call (g <$> m) s = (g <$> (call m s).1, (call m s).2) := by
  rw [← bind_pure_comp, call_bind]
  rcases call m s with ⟨_ | _, _⟩ <;> rfl

/-- A value that may be an error, as a program that leaves the state alone. -/
def orRaise (x : Except ε α) : Prog ε σ α :=
  match x with
  | .ok a => pure a
  | .error e => throw e

@[simp] theorem call_orRaise (x : Except ε α) (s : σ) : call (orRaise x) s = (x, s) := by
  cases x <;> rfl

theorem call_orRaise_bind_ok {x : Except ε α} {a : α} {k : α → Prog ε σ β} {s : σ} (h : x = .ok a) :
    call (orRaise x >>= k) s = call (k a) s := by
  subst h
  exact call_bind_ok rfl

theorem call_orRaise_bind_error {x : Except ε α} {e : ε} {k : α → Prog ε σ β} {s : σ} (h : x = .error e) :
    call (orRaise x >>= k) s = (.error e, s) := by
  subst h
  exact call_bind_error rfl

theorem orRaise_bind (x : Except ε α) (f : α → Except ε β) :
    (orRaise x >>= fun a => orRaise (f a) : Prog ε σ β) = orRaise (x >>= f) := by
  cases x <;> rfl

/-- What returns has returned at every step. -/
theorem exists_of_bind_ok {x : Except ε α} {f : α → Except ε β} {b : β} (h : x >>= f = .ok b) :
    ∃ a, x = .ok a ∧ f a = .ok b := by
  cases x with
  | error e => cases h
  | ok a => exact ⟨a, rfl, h⟩

theorem error_of_bind {x : Except ε α} {f : α → Except ε β} {e : ε} (h : x >>= f = .error e) :
    x = .error e ∨ ∃ a, x = .ok a ∧ f a = .error e := by
  cases x with
  | error e' =>
    cases h
    exact Or.inl rfl
  | ok a => exact Or.inr ⟨a, rfl, h⟩

theorem call_get_bind (k : σ → Prog ε σ β) (s : σ) : call (get >>= k) s = call (k s) s := call_bind_ok rfl

@[simp] theorem ok_bind (a : α) (f : α → Except ε β) : (Except.ok a >>= f) = f a := rfl

theorem call_tryCatch (m : Prog ε σ α) (handler : ε → Prog ε σ α) (s : σ) :
    call (tryCatch m handler) s =
      match call m s with
      | (.ok a, t) => (.ok a, t)
      | (.error e, t) => call (handler e) t := by
  show StateT.run (match (call m s).1 with
    | .ok a => pure (.ok a)
    | .error e => ExceptT.run (handler e)) (call m s).2 = _
  rcases call m s with ⟨_ | _, _⟩ <;> rfl

/-! ## Programs that are started together -/

/-- What `m` comes to, as a value. -/
def settled (m : Prog ε σ α) : Prog ε σ (Except ε α) := fun s => (.ok (call m s).1, (call m s).2)

theorem call_settled (m : Prog ε σ α) (s : σ) : call (settled m) s = (.ok (call m s).1, (call m s).2) := rfl

/-- Every program of a list runs, also after one that throws; the first throw is rethrown once all have run. -/
def all : List (Prog ε σ Unit) → Prog ε σ Unit
  | [] => pure ()
  | m :: ms => do
    let r ← settled m
    let rs ← settled (all ms)
    orRaise r
    orRaise rs

@[simp] theorem call_all_nil (s : σ) : call (all ([] : List (Prog ε σ Unit))) s = (.ok (), s) := rfl

theorem call_all_cons (m : Prog ε σ Unit) (ms : List (Prog ε σ Unit)) (s : σ) :
    call (all (m :: ms)) s = let t := call m s; let u := call (all ms) t.2; (t.1 >>= fun _ => u.1, u.2) := by
  show call (settled m >>= fun r => settled (all ms) >>= fun rs => orRaise r >>= fun _ => orRaise rs) s = _
  rw [call_bind_ok (call_settled m s), call_bind_ok (call_settled (all ms) _)]
  dsimp only
  rcases (call m s).1 with e | a
  · rw [call_orRaise_bind_error rfl]
    rfl
  · rw [call_orRaise_bind_ok rfl, call_orRaise]
    rfl

theorem call_all_pair_ok {m n : Prog ε σ Unit} {s t u : σ} (hm : call m s = (.ok (), t)) (hn : call n t = (.ok (), u)) :
    call (all [m, n]) s = (.ok (), u) := by
  rw [call_all_cons, hm]
  dsimp only
  rw [call_all_cons, hn]
  rfl

theorem call_all_cons_error {m : Prog ε σ Unit} {ms : List (Prog ε σ Unit)} {s : σ} {e : ε}
    (h : (call m s).1 = .error e) : (call (all (m :: ms)) s).1 = .error e := by
  rw [call_all_cons]
  dsimp only
  rw [h]
  rfl

theorem call_bind_fst_error {m : Prog ε σ α} {k : α → Prog ε σ β} {s : σ} {e : ε} (h : (call m s).1 = .error e) :
    (call (m >>= k) s).1 = .error e := by
  rw [call_bind_error (t := (call m s).2) (Prod.ext h rfl)]

/-! ## Results without their errors -/

theorem toOption_bind (x : Except ε α) (f : α → Except ε β) :
    (x >>= f).toOption = x.toOption.bind fun a => (f a).toOption := by
  cases x <;> rfl

theorem toOption_map (x : Except ε α) (f : α → β) :
    (f <$> x).toOption = x.toOption.map f := by
  cases x <;> rfl

theorem toOption_foldlM (f : σ → α → Except ε σ) (l : List α) (s : σ) :
    (l.foldlM f s).toOption = l.foldlM (fun s a => (f s a).toOption) s := by
  induction l generalizing s with
  | nil => rfl
  | cons a l ih =>
    rw [List.foldlM_cons, List.foldlM_cons, toOption_bind]
    exact congrArg _ (funext ih)

theorem toOption_eq_some {x : Except ε α} {a : α} (h : x.toOption = some a) : x = .ok a := by
  cases x <;> cases h
  rfl

/-! ## Loops that return -/

theorem foldlM_invariant {f : σ → α → Except ε σ} {I : σ → Prop} {l : List α}
    (hstep : ∀ s a t, a ∈ l → f s a = .ok t → I s → I t) {s t : σ} (h : l.foldlM f s = .ok t) (h0 : I s) : I t := by
  induction l generalizing s with
  | nil =>
    cases h
    exact h0
  | cons a l ih =>
    rw [List.foldlM_cons] at h
    obtain ⟨u, hu, hrest⟩ := exists_of_bind_ok h
    exact ih (fun s b t hb => hstep s b t (List.mem_cons_of_mem a hb)) hrest (hstep s a u List.mem_cons_self hu h0)

theorem foldlM_mem {f : σ → α → Except ε σ} {Q : σ → Prop} {l : List α} {a : α} (ha : a ∈ l)
    (hset : ∀ s t, f s a = .ok t → Q t) (hkeep : ∀ s b t, b ∈ l → f s b = .ok t → Q s → Q t) {s t : σ}
    (h : l.foldlM f s = .ok t) : Q t := by
  induction l generalizing s with
  | nil => cases ha
  | cons b l ih =>
    rw [List.foldlM_cons] at h
    obtain ⟨u, hu, hrest⟩ := exists_of_bind_ok h
    have hkeep' : ∀ s c t, c ∈ l → f s c = .ok t → Q s → Q t := fun s c t hc =>
      hkeep s c t (List.mem_cons_of_mem b hc)
    rcases List.mem_cons.mp ha with rfl | ha
    · exact foldlM_invariant hkeep' hrest (hset s u hu)
    · exact ih ha hkeep' hrest

theorem mapM_ok {f : α → Except ε β} {g : α → β} {l : List α} (h : ∀ a ∈ l, f a = .ok (g a)) :
    l.mapM f = .ok (l.map g) := by
  induction l with
  | nil => rfl
  | cons a l ih =>
    rw [List.mapM_cons, h a List.mem_cons_self, ok_bind, ih fun b hb => h b (List.mem_cons_of_mem a hb)]
    rfl

/-- Where each element has a result or is rejected, the list has a result exactly if none is rejected. -/
theorem mapM_cases {f : α → Except ε β} {P : α → β → Prop} {R : α → Prop} {l : List α}
    (h : ∀ a ∈ l, (∃ b, f a = .ok b ∧ P a b ∧ ¬R a) ∨ ∃ e, f a = .error e ∧ R a) :
    (∃ bs, l.mapM f = .ok bs ∧ List.Forall₂ P l bs ∧ ∀ a ∈ l, ¬R a) ∨ (∃ e, l.mapM f = .error e) ∧ ∃ a ∈ l, R a := by
  induction l with
  | nil => exact Or.inl ⟨[], rfl, List.Forall₂.nil, by simp⟩
  | cons a l ih =>
    rw [List.mapM_cons]
    rcases h a List.mem_cons_self with ⟨b, hf, hp, hr⟩ | ⟨e, hf, hr⟩
    · rw [hf, ok_bind]
      rcases ih fun c hc => h c (List.mem_cons_of_mem a hc) with ⟨bs, hl, hps, hrs⟩ | ⟨⟨e, hl⟩, c, hc, hrc⟩
      · rw [hl, ok_bind]
        refine Or.inl ⟨b :: bs, rfl, List.Forall₂.cons hp hps, ?_⟩
        rw [List.forall_mem_cons]
        exact ⟨hr, hrs⟩
      · rw [hl]
        exact Or.inr ⟨⟨e, rfl⟩, c, List.mem_cons_of_mem a hc, hrc⟩
    · rw [hf]
      exact Or.inr ⟨⟨e, rfl⟩, a, List.mem_cons_self, hr⟩

theorem mapM_getElem? {f : α → Except ε β} {l : List α} {m : List β} (h : l.mapM f = .ok m) {j : Nat} {a : α}
    (hj : l[j]? = some a) : ∃ b, f a = .ok b ∧ m[j]? = some b := by
  induction l generalizing m j with
  | nil => cases hj
  | cons c l ih =>
    rw [List.mapM_cons] at h
    obtain ⟨b, hb, h⟩ := exists_of_bind_ok h
    obtain ⟨bs, hbs, h⟩ := exists_of_bind_ok h
    cases h
    cases j with
    | zero =>
      cases hj
      exact ⟨b, hb, rfl⟩
    | succ j =>
      obtain ⟨b', hb', hm⟩ := ih hbs (j := j) hj
      exact ⟨b', hb', hm⟩

theorem foldlM_ok {f : σ → α → Except ε σ} {g : σ → α → σ} {l : List α} (h : ∀ s, ∀ a ∈ l, f s a = .ok (g s a)) (s : σ) :
    l.foldlM f s = .ok (l.foldl g s) := by
  induction l generalizing s with
  | nil => rfl
  | cons a l ih =>
    rw [List.foldlM_cons, h s a List.mem_cons_self, ok_bind, List.foldl_cons]
    exact ih (fun s b hb => h s b (List.mem_cons_of_mem a hb)) _

/-- The sum of what a loop adds up. -/
def sumM (f : α → Except ε Nat) (l : List α) : Except ε Nat :=
  l.foldlM (fun acc a => do return acc + (← f a)) 0

theorem sumM_ok {f : α → Except ε Nat} {g : α → Nat} {l : List α} (h : ∀ a ∈ l, f a = .ok (g a)) :
    sumM f l = .ok (l.map g).sum := by
  have hstep : ∀ acc, ∀ a ∈ l, (do return acc + (← f a) : Except ε Nat) = .ok (acc + g a) := by
    intro acc a ha
    rw [h a ha]
    rfl
  rw [sumM, foldlM_ok hstep, List.sum_eq_foldl, List.foldl_map]

theorem sumM_mem {f : α → Except ε Nat} {l : List α} {n : Nat} (h : sumM f l = .ok n) {a : α} (ha : a ∈ l) :
    ∃ k, f a = .ok k := by
  unfold sumM at h
  refine foldlM_mem (Q := fun _ => ∃ k, f a = .ok k) ha (fun s t hst => ?_) (fun _ _ _ _ _ hk => hk) h
  obtain ⟨k, hk, -⟩ := exists_of_bind_ok hst
  exact ⟨k, hk⟩

theorem sumM_congr {ε' : Type} {f : α → Except ε Nat} {g : β → Except ε' Nat} {l : List α} {m : List β}
    (h : List.Forall₂ (fun a b => (f a).toOption = (g b).toOption) l m) :
    (sumM f l).toOption = (sumM g m).toOption := by
  unfold sumM
  generalize 0 = acc
  induction h generalizing acc with
  | nil => rfl
  | @cons a b l m hab _ ih =>
    rw [List.foldlM_cons, List.foldlM_cons]
    rcases hf : f a with e | x
    · rcases hg : g b with e' | y
      · rfl
      · rw [hf, hg] at hab
        cases hab
    · rcases hg : g b with e' | y
      · rw [hf, hg] at hab
        cases hab
      · rw [hf, hg] at hab
        obtain rfl : x = y := Option.some.inj hab
        exact ih (acc + x)

end Throwing
