import Blocktrail.JsSdk.WebWorkifier

/-! # Every request is settled by its own reply

An error event settles every request that listens. The protocol is safe as long as the worker's exceptions
reach the page while no other request waits.
-/

open Text Bitcoin Runs

namespace JsSdk

namespace Workify

variable {Message Result : Type} (compute : Message → Except JsError Result)

/-! ## What a request may be settled with -/

/-- The settlement is the result or the failure of the request itself. -/
def Own (r : Request Message Result) : Settlement Result → Prop
  | .resolved data => data.id = r.id ∧ compute r.message = .ok data.result
  | .rejected origin text =>
    origin = some r.id ∧ ∃ e, compute r.message = .error e ∧ text = rejectionText (errorText e)
  | .notPosted _ => True

/-- A request is settled by its own reply, and no longer listens once its promise is settled. -/
structure RequestSound (r : Request Message Result) : Prop where
  own : ∀ s, r.deferred = some s → Own compute r s
  same : ∀ s, r.promise = some s → r.deferred = some s
  removed : ∀ s, r.promise = some s → r.listening = false

def Sound (s : State Message Result) : Prop := ∀ r ∈ s.requests, RequestSound compute r

/-- A request whose promise is settled stays as it is. -/
def SettledOnce (s : State Message Result) (as : List (Action Message)) : Prop :=
  ∀ pre suf, as = pre ++ suf → ∀ (n : Nat) (r : Request Message Result),
    (pre.foldl (step compute) s).requests[n]? = some r → r.promise.isSome = true →
      (as.foldl (step compute) s).requests[n]? = some r

/-- The whole run keeps to the protocol. -/
def Protocol (as : List (Action Message)) : Prop :=
  Always (step compute) (Sound compute) start as ∧ SettledOnce compute start as

/-- The request waits for its reply. -/
def Request.Waits (r : Request Message Result) : Prop := r.listening = true ∧ r.deferred = none

/-- No post throws, and an error event is dispatched only while no request waits but the one it comes from. -/
def Undisturbed (s : State Message Result) : Action Message → Prop
  | .workify _ exception => exception = none
  | .deliver n => ∀ origin text, s.toPage[n]? = some (.error origin text) →
      ∀ r ∈ s.requests, r.Waits → origin = some r.id
  | _ => True

/-! ## What every run keeps -/

/-- The ids that were given out, each with its message. -/
def calls (s : State Message Result) : List (Nat × Message) := s.requests.map fun r => (r.id, r.message)

/-- An event tells the outcome of a call. -/
def Genuine (calls : List (Nat × Message)) : Event Result → Prop
  | .message data => ∃ message, (data.id, message) ∈ calls ∧ compute message = .ok data.result
  | .error origin text => ∀ id, origin = some id →
      ∃ message, (id, message) ∈ calls ∧ ∃ e, compute message = .error e ∧ text = errorText e

structure Inv (s : State Message Result) : Prop where
  ids : (calls s).map Prod.fst = List.range s.nextId
  posted : ∀ data ∈ s.toWorker, data ∈ calls s
  genuine : ∀ e ∈ s.toPage, Genuine compute (calls s) e
  waiting : ∀ r ∈ s.requests, r.promise.isSome = true → r.deferred.isSome = true

variable {compute}

theorem Genuine.mono {cs cs' : List (Nat × Message)} (h : ∀ c ∈ cs, c ∈ cs') {e : Event Result}
    (he : Genuine compute cs e) : Genuine compute cs' e := by
  cases e with
  | message data =>
    obtain ⟨message, hmem, hc⟩ := he
    exact ⟨message, h _ hmem, hc⟩
  | error origin text =>
    intro id hid
    obtain ⟨message, hmem, e, hc, ht⟩ := he id hid
    exact ⟨message, h _ hmem, e, hc, ht⟩

theorem Inv.message_unique {s : State Message Result} (h : Inv compute s) {id : Nat} {m m' : Message}
    (hm : (id, m) ∈ calls s) (hm' : (id, m') ∈ calls s) : m = m' := by
  have hn : ((calls s).map Prod.fst).Nodup := by
    rw [h.ids]
    exact List.nodup_range
  exact congrArg Prod.snd (List.inj_on_of_nodup_map hn hm hm' rfl)

theorem mem_calls {s : State Message Result} {r : Request Message Result} (h : r ∈ s.requests) :
    (r.id, r.message) ∈ calls s := List.mem_map_of_mem h

/-! ## One request -/

theorem settle_of_settled {r : Request Message Result} (h : r.deferred.isSome = true) (s : Settlement Result) :
    r.settle s = r := by
  obtain ⟨id, message, deferred, listening, promise⟩ := r
  obtain ⟨s', rfl⟩ := Option.isSome_iff_exists.mp h
  rfl

theorem dispatch_of_not_waits {r : Request Message Result} (h : ¬r.Waits) (e : Event Result) : r.dispatch e = r := by
  unfold Request.dispatch
  split
  · next hl =>
    have hd : r.deferred.isSome = true := by
      rw [Option.isSome_iff_ne_none]
      exact fun hd => h ⟨hl, hd⟩
    cases e with
    | message data =>
      simp only [Request.onMessage, settle_of_settled hd, ite_self]
    | error origin text => exact settle_of_settled hd _
  · rfl

theorem dispatch_message {r : Request Message Result} (h : r.Waits) (data : Reply Result) :
    r.dispatch (.message data) = if data.id = r.id then { r with deferred := some (.resolved data) } else r := by
  unfold Request.dispatch Request.onMessage Request.settle
  rw [if_pos h.1, h.2]
  by_cases hid : data.id = r.id
  · simp [hid]
  · simp [hid]

theorem dispatch_error {r : Request Message Result} (h : r.Waits) (origin : Option Nat) (text : Str) :
    r.dispatch (.error origin text) = { r with deferred := some (.rejected origin (rejectionText text)) } := by
  unfold Request.dispatch Request.onError Request.settle
  rw [if_pos h.1, h.2]
  rfl

theorem dispatch_same (r : Request Message Result) (e : Event Result) :
    (r.dispatch e).id = r.id ∧ (r.dispatch e).message = r.message ∧ (r.dispatch e).promise = r.promise ∧
      (r.dispatch e).listening = r.listening ∧ (r.deferred.isSome = true → (r.dispatch e).deferred.isSome = true) := by
  by_cases h : r.Waits
  · cases e with
    | message data =>
      rw [dispatch_message h]
      split
      · exact ⟨rfl, rfl, rfl, rfl, fun _ => rfl⟩
      · exact ⟨rfl, rfl, rfl, rfl, id⟩
    | error origin text =>
      rw [dispatch_error h]
      exact ⟨rfl, rfl, rfl, rfl, fun _ => rfl⟩
  · rw [dispatch_of_not_waits h]
    exact ⟨rfl, rfl, rfl, rfl, id⟩

theorem flush_same (r : Request Message Result) :
    r.flush.id = r.id ∧ r.flush.message = r.message ∧ r.flush.deferred = r.deferred := by
  unfold Request.flush
  split
  · exact ⟨rfl, rfl, rfl⟩
  · exact ⟨rfl, rfl, rfl⟩

theorem flush_of_settled {r : Request Message Result} (h : r.promise.isSome = true) : r.flush = r := by
  obtain ⟨id, message, deferred, listening, promise⟩ := r
  obtain ⟨s, rfl⟩ := Option.isSome_iff_exists.mp h
  unfold Request.flush
  cases deferred <;> rfl

theorem flush_settles {r : Request Message Result} (h : r.flush.promise.isSome = true) :
    r.deferred.isSome = true ∨ r.promise.isSome = true := by
  unfold Request.flush at h
  split at h
  · next hd _ => exact Or.inl (by rw [hd]; rfl)
  · exact Or.inr h

theorem RequestSound.flush {r : Request Message Result} (h : RequestSound compute r) : RequestSound compute r.flush := by
  obtain ⟨hown, hsame, hremoved⟩ := h
  obtain ⟨id, message, deferred, listening, promise⟩ := r
  rcases deferred with _ | s
  · exact ⟨hown, hsame, hremoved⟩
  · rcases promise with _ | s'
    · exact ⟨hown, fun _ hs => hs, fun _ _ => rfl⟩
    · exact ⟨hown, hsame, hremoved⟩

theorem mem_modify {α : Type} {l : List α} {n : Nat} {f : α → α} {a : α} (h : a ∈ l.modify n f) :
    ∃ b ∈ l, a = b ∨ a = f b := by
  induction l generalizing n with
  | nil => simp at h
  | cons b l ih =>
    cases n with
    | zero =>
      rw [List.modify_zero_cons, List.mem_cons] at h
      rcases h with rfl | h
      · exact ⟨b, List.mem_cons_self, Or.inr rfl⟩
      · exact ⟨a, List.mem_cons_of_mem b h, Or.inl rfl⟩
    | succ n =>
      rw [List.modify_succ_cons, List.mem_cons] at h
      rcases h with rfl | h
      · exact ⟨a, List.mem_cons_self, Or.inl rfl⟩
      · obtain ⟨c, hc, hac⟩ := ih h
        exact ⟨c, List.mem_cons_of_mem b hc, hac⟩

/-! ## One step -/

theorem calls_deliver (s : State Message Result) (e : Event Result) :
    (s.requests.map (·.dispatch e)).map (fun r => (r.id, r.message)) = calls s := by
  rw [List.map_map]
  exact List.map_congr_left fun r _ => Prod.ext (dispatch_same r e).1 (dispatch_same r e).2.1

theorem calls_flush (s : State Message Result) (n : Nat) :
    (s.requests.modify n Request.flush).map (fun r => (r.id, r.message)) = calls s := by
  unfold calls
  apply List.ext_getElem?
  intro i
  rw [List.getElem?_map, List.getElem?_map, List.getElem?_modify]
  rcases s.requests[i]? with _ | r
  · simp
  · by_cases hi : n = i
    · simp [hi, (flush_same r).1, (flush_same r).2.1]
    · simp [hi]

theorem inv_start : Inv compute (start : State Message Result) :=
  ⟨rfl, by simp [start], by simp [start], by simp [start]⟩

theorem inv_step {s : State Message Result} (h : Inv compute s) (a : Action Message) : Inv compute (step compute s a) := by
  cases a with
  | workify message exception =>
    have hcalls : ∀ r : Request Message Result, r.id = s.nextId → r.message = message →
        (s.requests ++ [r]).map (fun r => (r.id, r.message)) = calls s ++ [(s.nextId, message)] := by
      intro r hid hm
      rw [List.map_append, calls, List.map_singleton, hid, hm]
    have hids : (calls s ++ [(s.nextId, message)]).map Prod.fst = List.range (s.nextId + 1) := by
      rw [List.map_append, h.ids, List.range_succ, List.map_singleton]
    have hsub : ∀ c ∈ calls s, c ∈ calls s ++ [(s.nextId, message)] := fun c => List.mem_append_left _
    cases exception with
    | none =>
      refine ⟨?_, ?_, ?_, ?_⟩
      · exact (congrArg (List.map Prod.fst) (hcalls _ rfl rfl)).trans hids
      · intro data hdata
        show data ∈ (s.requests ++ [_]).map _
        rw [hcalls _ rfl rfl]
        rcases List.mem_append.mp hdata with hdata | hdata
        · exact hsub _ (h.posted data hdata)
        · exact List.mem_append_right _ hdata
      · intro e he
        show Genuine compute ((s.requests ++ [_]).map _) e
        rw [hcalls _ rfl rfl]
        exact (h.genuine e he).mono hsub
      · intro r hr hp
        rcases List.mem_append.mp hr with hr | hr
        · exact h.waiting r hr hp
        · rw [List.mem_singleton.mp hr] at hp
          cases hp
    | some text =>
      refine ⟨?_, ?_, ?_, ?_⟩
      · exact (congrArg (List.map Prod.fst) (hcalls _ rfl rfl)).trans hids
      · intro data hdata
        show data ∈ (s.requests ++ [_]).map _
        rw [hcalls _ rfl rfl]
        exact hsub _ (h.posted data hdata)
      · intro e he
        show Genuine compute ((s.requests ++ [_]).map _) e
        rw [hcalls _ rfl rfl]
        exact (h.genuine e he).mono hsub
      · intro r hr hp
        rcases List.mem_append.mp hr with hr | hr
        · exact h.waiting r hr hp
        · rw [List.mem_singleton.mp hr]
          rfl
  | work =>
    unfold step
    simp only
    split
    · exact h
    · next data rest hq =>
      refine ⟨h.ids, fun d hd => h.posted d (by rw [hq]; exact List.mem_cons_of_mem data hd), ?_, h.waiting⟩
      intro e he
      rcases List.mem_append.mp he with he | he
      · exact h.genuine e he
      · have hmem : data ∈ calls s := h.posted data (by rw [hq]; exact List.mem_cons_self)
        rw [List.mem_singleton.mp he]
        unfold handle
        split
        · next result hc => exact ⟨data.2, hmem, hc⟩
        · next e hc =>
          intro id hid
          cases hid
          exact ⟨data.2, hmem, e, hc, rfl⟩
  | workerError text =>
    refine ⟨h.ids, h.posted, ?_, h.waiting⟩
    intro e he
    rcases List.mem_append.mp he with he | he
    · exact h.genuine e he
    · rw [List.mem_singleton.mp he]
      intro id hid
      cases hid
  | deliver n =>
    unfold step
    simp only
    split
    · exact h
    · next e he =>
      have hcalls := calls_deliver s e
      refine ⟨?_, ?_, ?_, ?_⟩
      · exact (congrArg (List.map Prod.fst) hcalls).trans h.ids
      · intro data hdata
        show data ∈ (s.requests.map _).map _
        rw [hcalls]
        exact h.posted data hdata
      · intro e' he'
        show Genuine compute ((s.requests.map _).map _) e'
        rw [hcalls]
        exact h.genuine e' (List.mem_of_mem_eraseIdx he')
      · intro r hr hp
        obtain ⟨r', hr', rfl⟩ := List.mem_map.mp hr
        obtain ⟨-, -, hpr, -, hd⟩ := dispatch_same r' e
        rw [hpr] at hp
        exact hd (h.waiting r' hr' hp)
  | flush n =>
    have hcalls := calls_flush s n
    refine ⟨?_, ?_, ?_, ?_⟩
    · exact (congrArg (List.map Prod.fst) hcalls).trans h.ids
    · intro data hdata
      show data ∈ (s.requests.modify n Request.flush).map _
      rw [hcalls]
      exact h.posted data hdata
    · intro e he
      show Genuine compute ((s.requests.modify n Request.flush).map _) e
      rw [hcalls]
      exact h.genuine e he
    · intro r hr hp
      obtain ⟨r', hr', rfl | rfl⟩ := mem_modify hr
      · exact h.waiting _ hr' hp
      · rw [(flush_same r').2.2]
        exact (flush_settles hp).elim id (h.waiting r' hr')

/-- A step keeps the requests sound exactly when it disturbs none. -/
theorem sound_step {s : State Message Result} (h : Inv compute s) (hs : Sound compute s) (a : Action Message) :
    Sound compute (step compute s a) ↔ Undisturbed s a := by
  cases a with
  | workify message exception =>
    cases exception with
    | none =>
      refine ⟨fun _ => rfl, fun _ r hr => ?_⟩
      rcases List.mem_append.mp hr with hr | hr
      · exact hs r hr
      · rw [List.mem_singleton.mp hr]
        exact ⟨by simp, by simp, by simp⟩
    | some text =>
      constructor
      · intro h'
        have hl := (h' _ (List.mem_append_right _ (List.mem_singleton.mpr rfl))).removed _ rfl
        cases hl
      · intro h'
        cases h'
  | work =>
    refine ⟨fun _ => trivial, fun _ => ?_⟩
    unfold step
    simp only
    split <;> exact hs
  | workerError text => exact ⟨fun _ => trivial, fun _ => hs⟩
  | deliver n =>
    unfold step
    simp only
    split
    · next hnone =>
      refine ⟨fun _ origin text he => ?_, fun _ => hs⟩
      rw [hnone] at he
      cases he
    · next e he =>
      constructor
      · intro hs' origin text he' r hr hw
        cases Option.some.inj (he.symm.trans he')
        have hd := (hs' (r.dispatch _) (List.mem_map_of_mem hr)).own (.rejected origin (rejectionText text))
          (by rw [dispatch_error hw])
        rw [dispatch_error hw] at hd
        exact hd.1
      · intro hok r' hr'
        obtain ⟨r, hr, rfl⟩ := List.mem_map.mp hr'
        by_cases hw : r.Waits
        · obtain ⟨hown, hsame, hremoved⟩ := hs r hr
          have hpromise : r.promise = none := by
            rcases hp : r.promise with _ | s'
            · rfl
            · have := hsame s' hp
              rw [hw.2] at this
              cases this
          have hg := h.genuine e (List.mem_of_getElem? he)
          cases e with
          | message data =>
            rw [dispatch_message hw]
            split
            · next hid =>
              refine ⟨fun s' hs' => ?_, fun s' hs' => ?_, fun s' hs' => ?_⟩
              · cases hs'
                obtain ⟨message, hmem, hc⟩ := hg
                rw [hid] at hmem
                rw [h.message_unique hmem (mem_calls hr)] at hc
                exact ⟨hid, hc⟩
              · rw [hpromise] at hs'
                cases hs'
              · rw [hpromise] at hs'
                cases hs'
            · exact hs r hr
          | error origin text =>
            have horigin := hok origin text he r hr hw
            rw [dispatch_error hw]
            refine ⟨fun s' hs' => ?_, fun s' hs' => ?_, fun s' hs' => ?_⟩
            · cases hs'
              obtain ⟨message, hmem, e, hc, ht⟩ := hg r.id horigin
              rw [h.message_unique hmem (mem_calls hr)] at hc
              exact ⟨horigin, e, hc, by rw [ht]⟩
            · rw [hpromise] at hs'
              cases hs'
            · rw [hpromise] at hs'
              cases hs'
        · rw [dispatch_of_not_waits hw]
          exact hs r hr
  | flush n =>
    refine ⟨fun _ => trivial, fun _ r hr => ?_⟩
    obtain ⟨r', hr', rfl | rfl⟩ := mem_modify hr
    · exact hs _ hr'
    · exact (hs r' hr').flush

theorem settled_step {s : State Message Result} (h : Inv compute s) {n : Nat} {r : Request Message Result}
    (hr : s.requests[n]? = some r) (hp : r.promise.isSome = true) (a : Action Message) :
    (step compute s a).requests[n]? = some r := by
  have hlt : n < s.requests.length := (List.getElem?_eq_some_iff.mp hr).1
  cases a with
  | workify message exception =>
    cases exception with
    | none => exact (List.getElem?_append_left hlt).trans hr
    | some text => exact (List.getElem?_append_left hlt).trans hr
  | work =>
    unfold step
    simp only
    split <;> exact hr
  | workerError text => exact hr
  | deliver m =>
    unfold step
    simp only
    split
    · exact hr
    · next e he =>
      have hw : ¬r.Waits := by
        rintro ⟨-, hd⟩
        have := h.waiting r (List.mem_of_getElem? hr) hp
        rw [hd] at this
        cases this
      show (s.requests.map _)[n]? = _
      rw [List.getElem?_map, hr, Option.map_some, dispatch_of_not_waits hw]
  | flush m =>
    show (s.requests.modify m Request.flush)[n]? = _
    rw [List.getElem?_modify, hr]
    by_cases hmn : m = n
    · simp [hmn, flush_of_settled hp]
    · simp [hmn]

/-! ## Runs -/

theorem settled_run {s : State Message Result} (h : Inv compute s) {n : Nat} {r : Request Message Result}
    (hr : s.requests[n]? = some r) (hp : r.promise.isSome = true) (as : List (Action Message)) :
    (as.foldl (step compute) s).requests[n]? = some r := by
  induction as generalizing s with
  | nil => exact hr
  | cons a as ih => exact ih (inv_step h a) (settled_step h hr hp a)

/-- **Requests to the worker.** A run keeps to the protocol exactly when none of its steps disturbs a request. -/
theorem protocol_iff (compute : Message → Except JsError Result) (as : List (Action Message)) :
    Protocol compute as ↔ Along (step compute) Undisturbed (start : State Message Result) as := by
  have hinv : Always (step compute) (Inv compute) start as :=
    always_of_step (fun s a hs => inv_step hs a) as inv_start
  have hiff : Always (step compute) (fun s => Inv compute s ∧ Sound compute s) start as ↔
      Along (step compute) Undisturbed start as := by
    refine always_iff_along (fun s a hs => ?_) ⟨inv_start, fun r hr => by cases hr⟩
    rw [← sound_step hs.1 hs.2 a]
    exact ⟨And.right, fun h => ⟨inv_step hs.1 a, h⟩⟩
  constructor
  · intro h
    exact hiff.mp (hinv.and h.1)
  · intro h
    refine ⟨(hiff.mpr h).mono fun s hs => hs.2, ?_⟩
    rintro pre suf rfl n r hr hp
    rw [List.foldl_append]
    have hpre : Inv compute (pre.foldl (step compute) start) :=
      Always.last (P := Inv compute) (always_of_step (fun s a hs => inv_step hs a) pre inv_start)
    exact settled_run hpre hr hp suf

/-- A worker that negates, and fails on 7. -/
def sampleCompute (n : Nat) : Except JsError Int :=
  if n = 7 then .error ⟨"Error", "Invalid input"⟩ else .ok (-n)

/-- The failure of request 1 settles request 0, which is still with the worker. -/
theorem protocol_broken_by_error :
    ¬Protocol sampleCompute [.workify 3 none, .workify 7 none, .work, .work, .deliver 1] := by
  rintro ⟨hs, -⟩
  have hown := (hs.last ⟨0, 3, some (.rejected (some 1) "Invalid input"), true, none⟩ (by
    show _ ∈ [_, _]
    exact List.mem_cons_self)).own _ rfl
  cases hown.1

end Workify

end JsSdk
