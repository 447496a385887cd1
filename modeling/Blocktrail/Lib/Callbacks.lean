import Blocktrail.Lib.Throwing

/-! # Operations that call back

A client calls the operations of an object, one after another and from inside the callbacks it passes. It sees whether
a call returned or threw, and goes on as it likes.
-/

open Throwing

namespace Callbacks

/-- A client, by what it does next. `within` passes a callback, which is a client itself. -/
inductive Client (ε α β : Type)
  | returns
  | throws (e : ε)
  | act (a : α) (next : Except ε Unit → Client ε α β)
  | within (b : β) (fn : Client ε α β) (next : Except ε Unit → Client ε α β)

/-- The operations: `act` has no callback, the others run theirs between `enter` and `leave`. -/
structure System (ε σ α β : Type) where
  act : α → Prog ε σ Unit
  enter : β → Prog ε σ Unit
  leave : Prog ε σ Unit

variable {ε σ α β : Type}

/-- The result of a call that may throw. -/
def attempt (m : Prog ε σ Unit) : Prog ε σ (Except ε Unit) := fun s => (.ok (call m s).1, (call m s).2)

@[simp] theorem call_attempt (m : Prog ε σ Unit) (s : σ) : call (attempt m) s = (.ok (call m s).1, (call m s).2) := rfl

namespace System

variable (S : System ε σ α β)

/-- An operation around its callback. -/
def around (b : β) (fn : Prog ε σ Unit) : Prog ε σ Unit := do
  S.enter b
  fn
  S.leave

def run : Client ε α β → Prog ε σ Unit
  | .returns => pure ()
  | .throws e => throw e
  | .act a next => do run (next (← attempt (S.act a)))
  | .within b fn next => do run (next (← attempt (S.around b (run fn))))

/-- `Q` of every client that is about to go on, in the state it does so: the callbacks included. -/
def Everywhere (Q : Client ε α β → σ → Prop) : Client ε α β → σ → Prop
  | .returns, s => Q .returns s
  | .throws e, s => Q (.throws e) s
  | .act a next, s =>
    Q (.act a next) s ∧ Everywhere Q (next (call (S.act a) s).1) (after (S.act a) s)
  | .within b fn next, s =>
    Q (.within b fn next) s ∧
      ((call (S.enter b) s).1 = .ok () → Everywhere Q fn (after (S.enter b) s)) ∧
      Everywhere Q (next (call (S.around b (S.run fn)) s).1) (after (S.around b (S.run fn)) s)

variable {S} {I : σ → Prop} {Q R : Client ε α β → σ → Prop}

theorem after_run_act (a : α) (next : Except ε Unit → Client ε α β) (s : σ) :
    after (S.run (.act a next)) s = after (S.run (next (call (S.act a) s).1)) (after (S.act a) s) := by
  rw [after, run, call_bind_ok (call_attempt ..)]
  rfl

theorem after_run_within (b : β) (fn : Client ε α β) (next : Except ε Unit → Client ε α β) (s : σ) :
    after (S.run (.within b fn next)) s =
      after (S.run (next (call (S.around b (S.run fn)) s).1)) (after (S.around b (S.run fn)) s) := by
  rw [after, run, call_bind_ok (call_attempt ..)]
  rfl

/-- **Invariant rule.** Where every client is about to do what `Q` allows, and what `Q` allows keeps the invariant and
gives `R`, the invariant is kept and `R` holds everywhere. -/
theorem everywhere_of_step (hR : ∀ c s, I s → Q c s → R c s)
    (hact : ∀ a next s, I s → Q (.act a next) s → I (after (S.act a) s))
    (henter : ∀ b fn next s, I s → Q (.within b fn next) s → (call (S.enter b) s).1 = .ok () →
      I (after (S.enter b) s))
    (haround : ∀ b fn next s, I s → Q (.within b fn next) s →
      ((call (S.enter b) s).1 = .ok () → I (after (S.run fn) (after (S.enter b) s))) →
      I (after (S.around b (S.run fn)) s))
    (c : Client ε α β) (s : σ) (h0 : I s) (h : S.Everywhere Q c s) :
    S.Everywhere R c s ∧ I (after (S.run c) s) := by
  induction c generalizing s with
  | returns => exact ⟨hR _ s h0 h, h0⟩
  | throws e => exact ⟨hR _ s h0 h, h0⟩
  | act a next ih =>
    obtain ⟨hq, hrest⟩ := h
    have hi := hact a next s h0 hq
    obtain ⟨hr, hlast⟩ := ih _ _ hi hrest
    rw [after_run_act]
    exact ⟨⟨hR _ s h0 hq, hr⟩, hlast⟩
  | within b fn next ihfn ih =>
    obtain ⟨hq, hfn, hrest⟩ := h
    have hinside : (call (S.enter b) s).1 = .ok () →
        S.Everywhere R fn (after (S.enter b) s) ∧ I (after (S.run fn) (after (S.enter b) s)) := fun hok =>
      ihfn _ (henter b fn next s h0 hq hok) (hfn hok)
    have hi := haround b fn next s h0 hq fun hok => (hinside hok).2
    obtain ⟨hr, hlast⟩ := ih _ _ hi hrest
    rw [after_run_within]
    exact ⟨⟨hR _ s h0 hq, fun hok => (hinside hok).1, hr⟩, hlast⟩

end System

end Callbacks
