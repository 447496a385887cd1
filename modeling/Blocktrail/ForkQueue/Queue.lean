import Mathlib.Data.Fintype.BigOperators
import Mathlib.Data.Multiset.Basic
import Blocktrail.Lib.Runs

/-! # A queue that forks its workers

`forkqueue/queue.js`: the parent hands each value to a worker that has asked for the next one. A worker asks when it has
started and after each value. Both arrays of the parent are held from their end, where `pop` takes.
-/

namespace ForkQueue

variable {n : Nat} {V C : Type}

structure Queue (n : Nat) (V C : Type) where
  waiting : List (Fin n)
  queue : List V
  dequeued : Nat
  enqueued : Nat
  done : Bool
  terminated : Bool
  callback : Option C

/-- What a worker is at: its `next` is on its way, it has been heard and has nothing to do, or it has a value. -/
inductive Work (V : Type)
  | asking
  | idle
  | busy (v : V)
  deriving DecidableEq

/-- The parent, its workers, and what has happened: the values in the order in which they are to go out, the values sent,
those that workers are done with, those sent to workers that are gone, and the callbacks called. -/
structure World (n : Nat) (V C : Type) where
  parent : Queue n V C
  workers : Fin n → Work V
  put : List V
  sent : List (Fin n × V)
  completed : Multiset V
  lost : Multiset V
  called : List C

/-- The constructor: every worker is forked and asks. -/
def World.start (n : Nat) (V C : Type) : World n V C where
  parent := ⟨[], [], 0, 0, false, false, none⟩
  workers := fun _ => .asking
  put := []
  sent := []
  completed := 0
  lost := 0
  called := []

/-! ## The operations of the parent -/

/-- The loop of `flush`: who still waits, what is still queued, and what is sent to whom. -/
def flushLoop : List (Fin n) → List V → List (Fin n) × List V × List (Fin n × V)
  | w :: waiting, v :: queue =>
    let r := flushLoop waiting queue
    (r.1, r.2.1, (w, v) :: r.2.2)
  | waiting, queue => (waiting, queue, [])

/-- `worker.send`: a worker that is disconnected does not get it. -/
def deliver (workers : Fin n → Work V) (sent : List (Fin n × V)) : Fin n → Work V :=
  sent.foldl (fun f e => Function.update f e.1 (.busy e.2)) workers

def World.flush (s : World n V C) : World n V C :=
  let r := flushLoop s.parent.waiting s.parent.queue
  { s with
    parent := { s.parent with waiting := r.1, queue := r.2.1, dequeued := s.parent.dequeued + r.2.2.length }
    workers := if s.parent.terminated then s.workers else deliver s.workers r.2.2
    sent := s.sent ++ r.2.2
    lost := if s.parent.terminated then s.lost + (r.2.2.map Prod.snd : List V) else s.lost }

/-- `enqueue` of one value, `concat` of many: the last of an array goes out first. -/
def World.concat (s : World n V C) (array : List V) : World n V C :=
  World.flush { s with
    parent := { s.parent with enqueued := s.parent.enqueued + array.length, queue := s.parent.queue ++ array.reverse }
    put := s.put ++ array.reverse }

def World.enqueue (s : World n V C) (v : V) : World n V C :=
  World.flush { s with
    parent := { s.parent with enqueued := s.parent.enqueued + 1, queue := s.parent.queue ++ [v] }
    put := s.put ++ [v] }

/-- `killWorkers`, and the callback. -/
def World.kill (s : World n V C) (callback : Option C) : World n V C :=
  { s with parent := { s.parent with terminated := true }, called := s.called ++ callback.toList }

/-- `end`. -/
def World.stop (s : World n V C) (callback : Option C) : World n V C :=
  if s.parent.queue = [] then s.kill callback
  else { s with parent := { s.parent with done := true, callback := callback } }

/-- The parent has heard a `next`: the worker waits. -/
def World.heard (s : World n V C) (w : Fin n) : World n V C :=
  World.flush { s with
    parent := { s.parent with waiting := w :: s.parent.waiting }
    workers := Function.update s.workers w .idle }

/-- `handleMessage` of `next`. -/
def World.next (s : World n V C) (w : Fin n) : World n V C :=
  if s.parent.terminated then s
  else
    let t := s.heard w
    if s.parent.queue.length = 0 ∧ t.parent.waiting.length = n ∧ t.parent.done then t.kill t.parent.callback else t

/-! ## Runs -/

inductive Act (n : Nat) (V C : Type)
  | enqueue (v : V)
  | concat (array : List V)
  | stop (callback : Option C)
  /-- The `next` of a worker arrives. -/
  | next (w : Fin n)
  /-- A worker is done with its value, and asks. -/
  | finish (w : Fin n)

/-- The steps, in any order. A worker whose channel is closed is not heard. -/
inductive Step : World n V C → Act n V C → World n V C → Prop
  | enqueue (s : World n V C) (v : V) : Step s (.enqueue v) (s.enqueue v)
  | concat (s : World n V C) (array : List V) : Step s (.concat array) (s.concat array)
  | stop (s : World n V C) (callback : Option C) : Step s (.stop callback) (s.stop callback)
  | next (s : World n V C) (w : Fin n) (h : s.workers w = .asking) : Step s (.next w) (s.next w)
  | finish (s : World n V C) (w : Fin n) (v : V) (h : s.workers w = .busy v) :
    Step s (.finish w) { s with workers := Function.update s.workers w .asking, completed := v ::ₘ s.completed }

end ForkQueue
