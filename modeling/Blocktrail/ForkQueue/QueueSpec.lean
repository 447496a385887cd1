import Blocktrail.ForkQueue.Queue

/-! # Every value goes out once, in order

What the parent has taken is what it has sent and what is queued, in order. What it has sent is completed or held by a
worker, until the workers are disconnected.
-/

open Runs

namespace ForkQueue

variable {n : Nat} {V C : Type}

/-! ## What the workers hold -/

def Work.value : Work V → Multiset V
  | .busy v => {v}
  | _ => 0

def held (f : Fin n → Work V) : Multiset V := ∑ w, (f w).value

theorem held_update (f : Fin n → Work V) (w : Fin n) (x : Work V) :
    held (Function.update f w x) + (f w).value = held f + x.value := by
  have hfun : (fun u => (Function.update f w x u).value) = Function.update (fun u => (f u).value) w x.value := by
    funext u
    by_cases hu : u = w
    · subst hu
      simp
    · simp [hu]
  unfold held
  rw [hfun, Finset.sum_update_of_mem (Finset.mem_univ w), ← Finset.add_sum_erase _ _ (Finset.mem_univ w),
    Finset.sdiff_singleton_eq_erase]
  simp only [add_comm, add_left_comm]

theorem held_eq_zero {f : Fin n → Work V} (h : ∀ w, f w = .idle) : held f = 0 :=
  Finset.sum_eq_zero fun w _ => by rw [h w]; rfl

theorem flushLoop_spec (waiting : List (Fin n)) (queue : List V) :
    (flushLoop waiting queue).2.2.map Prod.fst ++ (flushLoop waiting queue).1 = waiting ∧
      (flushLoop waiting queue).2.2.map Prod.snd ++ (flushLoop waiting queue).2.1 = queue ∧
      ((flushLoop waiting queue).1 = [] ∨ (flushLoop waiting queue).2.1 = []) := by
  induction waiting generalizing queue with
  | nil => simp [flushLoop]
  | cons w waiting ih =>
    cases queue with
    | nil => simp [flushLoop]
    | cons v queue =>
      obtain ⟨hw, hv, hend⟩ := ih queue
      simp only [flushLoop, List.map_cons, List.cons_append, hw, hv, true_and]
      exact hend

theorem deliver_cons (f : Fin n → Work V) (e : Fin n × V) (es : List (Fin n × V)) :
    deliver f (e :: es) = deliver (Function.update f e.1 (.busy e.2)) es := rfl

theorem deliver_of_not_mem {f : Fin n → Work V} {es : List (Fin n × V)} {w : Fin n} (h : w ∉ es.map Prod.fst) :
    deliver f es w = f w := by
  induction es generalizing f with
  | nil => rfl
  | cons e es ih =>
    simp only [List.map_cons, List.mem_cons, not_or] at h
    rw [deliver_cons, ih h.2, Function.update_of_ne h.1]

theorem deliver_of_mem {f : Fin n → Work V} {es : List (Fin n × V)} {w : Fin n} (h : w ∈ es.map Prod.fst) :
    ∃ v, deliver f es w = .busy v := by
  induction es generalizing f with
  | nil => simp at h
  | cons e es ih =>
    rw [deliver_cons]
    by_cases hes : w ∈ es.map Prod.fst
    · exact ih hes
    · have hw : w = e.1 := by simpa [hes] using h
      rw [deliver_of_not_mem hes, hw, Function.update_self]
      exact ⟨e.2, rfl⟩

theorem held_deliver {f : Fin n → Work V} {es : List (Fin n × V)} (hnodup : (es.map Prod.fst).Nodup)
    (hidle : ∀ w ∈ es.map Prod.fst, f w = .idle) : held (deliver f es) = held f + (es.map Prod.snd : List V) := by
  induction es generalizing f with
  | nil => simp [deliver]
  | cons e es ih =>
    simp only [List.map_cons, List.nodup_cons, List.forall_mem_cons] at hnodup hidle
    have hupdate := held_update f e.1 (.busy e.2)
    rw [hidle.1] at hupdate
    have hrest : ∀ w ∈ es.map Prod.fst, Function.update f e.1 (.busy e.2) w = .idle := by
      intro w hw
      have hne : w ≠ e.1 := by
        rintro rfl
        exact hnodup.1 hw
      rw [Function.update_of_ne hne]
      exact hidle.2 w hw
    have hheld : held (Function.update f e.1 (.busy e.2)) = held f + {e.2} := by simpa [Work.value] using hupdate
    rw [deliver_cons, ih hnodup.2 hrest, hheld, List.map_cons, add_assoc]
    rfl

/-! ## The invariant -/

/-- What holds before and after a flush. -/
structure Base (s : World n V C) : Prop where
  order : s.sent.map Prod.snd ++ s.parent.queue = s.put
  enqueued : s.parent.enqueued = s.put.length
  dequeued : s.parent.dequeued = s.sent.length
  nodup : s.parent.terminated = false → s.parent.waiting.Nodup
  waits : s.parent.terminated = false → ∀ w, w ∈ s.parent.waiting ↔ s.workers w = .idle
  values : ((s.sent.map Prod.snd : List V) : Multiset V) = s.completed + held s.workers + s.lost
  kept : s.parent.terminated = false → s.lost = 0

/-- No worker waits while a value is queued. -/
structure Inv (s : World n V C) : Prop extends Base s where
  served : s.parent.waiting = [] ∨ s.parent.queue = []
  awake : 0 < n → s.parent.terminated = false → s.parent.done = true → s.parent.waiting.length < n

theorem Base.flush {s : World n V C} (h : Base s) : Base s.flush := by
  obtain ⟨hws, hvs, -⟩ := flushLoop_spec s.parent.waiting s.parent.queue
  unfold World.flush
  generalize flushLoop s.parent.waiting s.parent.queue = r at hws hvs
  obtain ⟨waiting, queue, sent⟩ := r
  dsimp only at hws hvs ⊢
  refine ⟨?_, h.enqueued, ?_, fun ht => ?_, fun ht w => ?_, ?_, fun ht => ?_⟩
  · rw [List.map_append, List.append_assoc, hvs, h.order]
  · rw [List.length_append, h.dequeued]
  · have hnodup := h.nodup ht
    rw [← hws] at hnodup
    exact (List.nodup_append.mp hnodup).2.1
  · have hnodup := h.nodup ht
    have hwaits := h.waits ht w
    rw [← hws] at hnodup hwaits
    simp only [show s.parent.terminated = false from ht, Bool.false_eq_true, if_false]
    constructor
    · intro hw
      have hnot : w ∉ sent.map Prod.fst := fun hs => (List.nodup_append.mp hnodup).2.2 w hs w hw rfl
      rw [deliver_of_not_mem hnot]
      exact hwaits.mp (List.mem_append_right _ hw)
    · intro hw
      by_cases hs : w ∈ sent.map Prod.fst
      · obtain ⟨v, hv⟩ := deliver_of_mem (f := s.workers) hs
        rw [hv] at hw
        cases hw
      · rw [deliver_of_not_mem hs] at hw
        exact (List.mem_append.mp (hwaits.mpr hw)).resolve_left hs
  · rw [List.map_append, ← Multiset.coe_add, h.values]
    cases ht : s.parent.terminated with
    | true =>
      simp only [if_true]
      rw [add_assoc]
    | false =>
      simp only [Bool.false_eq_true, if_false]
      have hnodup := h.nodup ht
      have hwaits := h.waits ht
      rw [← hws] at hnodup hwaits
      have hidle : ∀ w ∈ sent.map Prod.fst, s.workers w = .idle := fun w hw =>
        (hwaits w).mp (List.mem_append_left _ hw)
      rw [held_deliver (List.nodup_append.mp hnodup).1 hidle]
      simp only [add_assoc, add_comm]
  · simp only [show s.parent.terminated = false from ht, Bool.false_eq_true, if_false]
    exact h.kept ht

theorem flush_served (s : World n V C) : s.flush.parent.waiting = [] ∨ s.flush.parent.queue = [] :=
  (flushLoop_spec s.parent.waiting s.parent.queue).2.2

theorem flush_waiting_le (s : World n V C) : s.flush.parent.waiting.length ≤ s.parent.waiting.length := by
  have h := congrArg List.length (flushLoop_spec s.parent.waiting s.parent.queue).1
  rw [List.length_append] at h
  exact Nat.le_trans (Nat.le_add_left _ _) (Nat.le_of_eq h)

theorem flush_waiting_nil {s : World n V C} {w : Fin n} (hw : s.parent.waiting = [w]) (hq : s.parent.queue ≠ []) :
    s.flush.parent.waiting = [] := by
  change (flushLoop s.parent.waiting s.parent.queue).1 = []
  cases hqueue : s.parent.queue with
  | nil => exact absurd hqueue hq
  | cons v queue => simp [hw, flushLoop]

/-! ## Steps -/

theorem start_inv (n : Nat) (V C : Type) : Inv (World.start n V C) := by
  have hheld : held (World.start n V C).workers = 0 := Finset.sum_eq_zero fun w _ => rfl
  refine ⟨⟨rfl, rfl, rfl, fun _ => List.nodup_nil, fun _ w => ?_, ?_, fun _ => rfl⟩, Or.inl rfl, fun _ _ hdone => ?_⟩
  · simp [World.start]
  · rw [hheld]
    rfl
  · cases hdone

theorem Inv.concat {s : World n V C} (h : Inv s) (array : List V) : Inv (s.concat array) := by
  have hbase : Base { s with
      parent := { s.parent with enqueued := s.parent.enqueued + array.length, queue := s.parent.queue ++ array.reverse }
      put := s.put ++ array.reverse } := by
    refine ⟨?_, ?_, h.dequeued, h.nodup, h.waits, h.values, h.kept⟩
    · simp only [← List.append_assoc, h.order]
    · simp [h.enqueued]
  exact ⟨hbase.flush, flush_served _, fun hn ht hd => Nat.lt_of_le_of_lt (flush_waiting_le _) (h.awake hn ht hd)⟩

theorem enqueue_eq (s : World n V C) (v : V) : s.enqueue v = s.concat [v] := rfl

/-- Once the workers are disconnected nothing more is promised of them. -/
theorem Base.kill {s : World n V C} (h : Base s) (hserved : s.parent.waiting = [] ∨ s.parent.queue = [])
    (callback : Option C) : Inv (s.kill callback) := by
  refine ⟨⟨h.order, h.enqueued, h.dequeued, fun ht => ?_, fun ht => ?_, h.values, fun ht => ?_⟩, hserved, fun _ ht => ?_⟩
  all_goals cases ht

theorem Inv.stop {s : World n V C} (h : Inv s) (callback : Option C) : Inv (s.stop callback) := by
  unfold World.stop
  split_ifs with hq
  · exact h.toBase.kill h.served callback
  · refine ⟨⟨h.order, h.enqueued, h.dequeued, h.nodup, h.waits, h.values, h.kept⟩, h.served, fun hn _ _ => ?_⟩
    have hw : s.parent.waiting = [] := h.served.resolve_right hq
    simpa [hw] using hn

theorem Inv.heard {s : World n V C} (h : Inv s) (ht : s.parent.terminated = false) {w : Fin n}
    (hw : s.workers w = .asking) : Base (s.heard w) := by
  have hnot : w ∉ s.parent.waiting := by
    rw [h.waits ht w, hw]
    simp
  have hheld : held (Function.update s.workers w .idle) = held s.workers := by
    have hupdate := held_update s.workers w .idle
    rw [hw] at hupdate
    simpa [Work.value] using hupdate
  refine Base.flush ⟨h.order, h.enqueued, h.dequeued, fun _ => ?_, fun _ u => ?_, ?_, h.kept⟩
  · exact List.nodup_cons.mpr ⟨hnot, h.nodup ht⟩
  · by_cases hu : u = w
    · subst hu
      simp
    · simp [hu, h.waits ht u]
  · rw [hheld]
    exact h.values

theorem heard_length_le {s : World n V C} {w : Fin n} (h : Base (s.heard w))
    (ht : s.parent.terminated = false) : (s.heard w).parent.waiting.length ≤ n := by
  have hcard := (h.nodup ht).length_le_card
  rwa [Fintype.card_fin] at hcard

theorem Inv.next {s : World n V C} (h : Inv s) {w : Fin n} (hw : s.workers w = .asking) : Inv (s.next w) := by
  unfold World.next
  split_ifs with ht
  · exact h
  have ht' : s.parent.terminated = false := by simpa using ht
  have hbase := h.heard ht' hw
  dsimp only
  split_ifs with hend
  · exact hbase.kill (flush_served _) _
  · refine ⟨hbase, flush_served _, fun hn _ hdone => ?_⟩
    have hle := heard_length_le hbase ht'
    rcases Nat.lt_or_eq_of_le hle with hlt | heq
    · exact hlt
    · -- Something was queued, so that no other worker waited, and this one has got a value.
      have hqueue : s.parent.queue ≠ [] := by
        intro hq
        exact hend ⟨by simp [hq], heq, hdone⟩
      have hwaiting : s.parent.waiting = [] := h.served.resolve_right hqueue
      have hnil : (s.heard w).parent.waiting = [] := flush_waiting_nil (w := w) (by simp [hwaiting]) hqueue
      simpa [hnil] using hn

theorem Inv.finish {s : World n V C} (h : Inv s) {w : Fin n} {v : V} (hw : s.workers w = .busy v) :
    Inv { s with workers := Function.update s.workers w .asking, completed := v ::ₘ s.completed } := by
  have hupdate := held_update s.workers w .asking
  rw [hw] at hupdate
  have hheld : held (Function.update s.workers w .asking) + {v} = held s.workers := by
    simpa [Work.value] using hupdate
  refine ⟨⟨h.order, h.enqueued, h.dequeued, h.nodup, fun ht u => ?_, ?_, h.kept⟩, h.served, h.awake⟩
  · by_cases hu : u = w
    · subst hu
      simp [h.waits ht u, hw]
    · simp [hu, h.waits ht u]
  · rw [h.values, ← hheld, ← Multiset.singleton_add]
    simp only [add_assoc, add_comm, add_left_comm]

theorem Inv.step {s t : World n V C} {a : Act n V C} (h : Inv s) (hstep : Step s a t) : Inv t := by
  cases hstep with
  | enqueue v => exact enqueue_eq s v ▸ h.concat [v]
  | concat array => exact h.concat array
  | stop callback => exact h.stop callback
  | next w hw => exact h.next hw
  | finish w v hw => exact h.finish hw

/-! ## Runs -/

/-- What a run of the queue guarantees of the state it has reached. -/
structure Sound (s : World n V C) : Prop where
  /-- Everything put goes out once, in order: it has been sent, or it is queued. -/
  order : s.sent.map Prod.snd ++ s.parent.queue = s.put
  counts : s.parent.enqueued = s.parent.dequeued + s.parent.queue.length
  /-- Until the workers are disconnected nothing sent is lost, and nothing is done twice. -/
  conserved : s.parent.terminated = false →
    (s.put : Multiset V) = s.completed + held s.workers + (s.parent.queue : Multiset V)
  /-- No worker waits beside a queue. -/
  served : s.parent.waiting = [] ∨ s.parent.queue = []
  /-- After `end` of a queue with values some worker is still to be heard, which ends it in the end. -/
  awake : 0 < n → s.parent.terminated = false → s.parent.done = true → ∃ w, s.workers w ≠ .idle
  /-- The step that disconnects the workers leaves nothing queued; a `next` that does so leaves nothing undone. -/
  ending : ∀ a t, Step s a t → s.parent.terminated = false → t.parent.terminated = true →
    t.parent.queue = [] ∧ (t.put : Multiset V) = t.completed + held t.workers ∧
      ((∃ w, a = .next w) → held t.workers = 0)

theorem Inv.conserved {s : World n V C} (h : Inv s) (hlost : s.lost = 0) :
    (s.put : Multiset V) = s.completed + held s.workers + (s.parent.queue : Multiset V) := by
  rw [← h.order, ← Multiset.coe_add, h.values, hlost, add_zero]

theorem Base.idle_of_length {s : World n V C} (h : Base s) (ht : s.parent.terminated = false)
    (hlength : s.parent.waiting.length = n) (w : Fin n) : s.workers w = .idle := by
  rw [← h.waits ht w]
  have hcard : s.parent.waiting.toFinset.card = Fintype.card (Fin n) := by
    rw [List.toFinset_card_of_nodup (h.nodup ht), hlength, Fintype.card_fin]
  have huniv := Finset.card_eq_iff_eq_univ _ |>.mp hcard
  rw [← List.mem_toFinset, huniv]
  exact Finset.mem_univ w

theorem Inv.ending {s t : World n V C} {a : Act n V C} (h : Inv s) (hstep : Step s a t)
    (hs : s.parent.terminated = false) (ht : t.parent.terminated = true) :
    t.parent.queue = [] ∧ (t.put : Multiset V) = t.completed + held t.workers ∧
      ((∃ w, a = .next w) → held t.workers = 0) := by
  have hopen : ∀ {u : World n V C}, u.parent.terminated = false → ¬u.parent.terminated = true :=
    fun hu => by simp [hu]
  cases hstep with
  | enqueue v => exact absurd ht (hopen hs)
  | concat array => exact absurd ht (hopen hs)
  | finish w v hw => exact absurd ht (hopen hs)
  | stop callback =>
    unfold World.stop at ht ⊢
    split_ifs at ht ⊢ with hq
    · have hput := h.conserved (h.kept hs)
      rw [hq, Multiset.coe_nil, add_zero] at hput
      exact ⟨hq, hput, fun ⟨w, hw⟩ => by cases hw⟩
    · exact absurd ht (hopen hs)
  | next w hw =>
    have hbase := h.heard hs hw
    unfold World.next at ht ⊢
    rw [if_neg (hopen hs)] at ht ⊢
    dsimp only at ht ⊢
    split_ifs at ht ⊢ with hend
    · have hidle := hbase.idle_of_length hs hend.2.1
      have hwaiting : (s.heard w).parent.waiting ≠ [] := List.ne_nil_of_mem ((hbase.waits hs w).mpr (hidle w))
      have hqueue : (s.heard w).parent.queue = [] := (flush_served _).resolve_left hwaiting
      have hheld : held (s.heard w).workers = 0 := held_eq_zero hidle
      have hput : ((s.heard w).put : Multiset V) = (s.heard w).completed + held (s.heard w).workers := by
        rw [← hbase.order, hqueue, List.append_nil, hbase.values, hbase.kept hs, add_zero]
      exact ⟨hqueue, hput, fun _ => hheld⟩
    · exact absurd ht (hopen hs)

/-- **Every run of the queue is sound**, whatever the order in which its program, its workers and their messages take
their turns. -/
theorem run_sound {s : World n V C} {as : List (Act n V C)} (r : Run Step (World.start n V C) as s) : Sound s := by
  have h : Inv s := r.invariant (fun _ _ _ hs hstep => hs.step hstep) (start_inv n V C)
  refine ⟨h.order, ?_, fun ht => h.conserved (h.kept ht), h.served, fun hn ht hdone => ?_, fun a t => h.ending⟩
  · rw [h.enqueued, h.dequeued, ← h.order, List.length_append, List.length_map]
  · by_contra hall
    simp only [not_exists, not_not] at hall
    have hlt := h.awake hn ht hdone
    have huniv : ∀ w, w ∈ s.parent.waiting := fun w => (h.waits ht w).mpr (hall w)
    have hcard : Fintype.card (Fin n) ≤ s.parent.waiting.length := by
      rw [← List.toFinset_card_of_nodup (h.nodup ht)]
      exact Finset.card_le_card fun w _ => List.mem_toFinset.mpr (huniv w)
    rw [Fintype.card_fin] at hcard
    omega

/-- Two workers, and an array whose last value goes out first. The `next` of the second worker that is done disconnects
both, with nothing left undone. -/
theorem run_sound_ended : ∃ s : World 2 Nat Unit,
    Run Step (World.start 2 Nat Unit)
      [.concat [7, 8], .next 0, .stop (some ()), .next 1, .finish 0, .next 0, .finish 1, .next 1] s ∧ Sound s ∧
      s.parent.terminated = true ∧ s.sent = [(0, 8), (1, 7)] ∧ s.completed = {7, 8} ∧ held s.workers = 0 ∧
      s.called = [()] := by
  have r : Run Step (World.start 2 Nat Unit)
      [.concat [7, 8], .next 0, .stop (some ()), .next 1, .finish 0, .next 0, .finish 1, .next 1] _ :=
    .cons (.concat _ [7, 8]) (.cons (.next _ 0 rfl) (.cons (.stop _ (some ())) (.cons (.next _ 1 rfl)
      (.cons (.finish _ 0 8 rfl) (.cons (.next _ 0 rfl) (.cons (.finish _ 1 7 rfl) (.cons (.next _ 1 rfl) (.nil _))))))))
  exact ⟨_, r, run_sound r, rfl, rfl, rfl, by rfl, rfl⟩

end ForkQueue
