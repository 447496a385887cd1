import Blocktrail.SlackTipbot.TipBot

/-! # Confirmations

A request is pending from its trigger on until its user answers it or its time is over. It is paid at most once, and
only on the word of its user.
-/

open Text Runs

namespace SlackTipbot

/-! ## What should happen to a request -/

/-- Whom a request is put to. -/
def Request.user : Request → Str
  | .withdraw user _ _ _ => user
  | .demand mentioned _ _ => mentioned

/-- A withdrawal is confirmed in the direct messages of its user, a demand anywhere. -/
def Request.HeardIn (o : Config) (channel : Str) : Request → Prop
  | .withdraw user _ _ _ => o.getDMByUserId user = some channel
  | .demand _ _ _ => True

instance (o : Config) (channel : Str) (r : Request) : Decidable (r.HeardIn o channel) :=
  match r with
  | .withdraw user _ _ _ => inferInstanceAs (Decidable (o.getDMByUserId user = some channel))
  | .demand _ _ _ => isTrue trivial

/-- The user whom a request is put to says one of the words. -/
def Request.Hears (o : Config) (r : Request) (words : List String) (channel user message : Str) : Prop :=
  user = r.user ∧ r.HeardIn o channel ∧ speaks words message = true

instance (o : Config) (r : Request) (words : List String) (channel user message : Str) :
    Decidable (r.Hears o words channel user message) :=
  inferInstanceAs (Decidable (_ ∧ _ ∧ _))

def Request.Answered (o : Config) (r : Request) (channel user message : Str) : Prop :=
  r.Hears o affirmativeWords channel user message ∨ r.Hears o negativeWords channel user message

instance (o : Config) (r : Request) (channel user message : Str) : Decidable (r.Answered o channel user message) :=
  inferInstanceAs (Decidable (_ ∨ _))

namespace TipBot

/-- The pending request that an event ends: the first that its user answers, or the one whose time is over. -/
def ends (o : Config) (s : TipBot) : Event → Option Trigger
  | .message channel user message =>
    match command o s channel user message with
    | .other => s.triggers.find? fun t => decide (t.request.Answered o channel.id user message)
    | _ => none
  | .timeout ref => if ref ∈ s.timers then s.triggers.find? (·.ref = ref) else none
  | _ => none

/-- A pending request stays unless the event ends it. -/
def Kept (o : Config) (s : TipBot) (e : Event) : Prop :=
  ∀ t ∈ s.triggers, t ∈ (step o s e).triggers ↔ ends o s e ≠ some t

/-- Nothing is paid, or one pending request on the affirmative reply of its user. -/
def PaysOnReply (o : Config) (s : TipBot) (e : Event) : Prop :=
  (step o s e).executed = s.executed ∨
    ∃ t channel user message, e = .message channel user message ∧ t ∈ s.triggers ∧
      t.request.Hears o affirmativeWords channel.id user message ∧
        (step o s e).executed = ⟨t, channel.id, user, message⟩ :: s.executed

def PaysOnce (s : TipBot) : Prop := (s.executed.map (·.trigger.ref)).Nodup

/-- Every pending request has its timer running. -/
def Timed (s : TipBot) : Prop := ∀ t ∈ s.triggers, t.ref ∈ s.timers

/-- An event that ends a request finds it at the end of the list. -/
def EndsLast (o : Config) (s : TipBot) (e : Event) : Prop :=
  ∀ t, ends o s e = some t → s.triggers.getLast? = some t

/-! ## The invariant -/

/-- The channel that a withdrawal listens to. -/
def RightDM (o : Config) : Request → Prop
  | .withdraw user dm _ _ => o.getDMByUserId user = some dm
  | .demand _ _ _ => True

structure Inv (o : Config) (s : TipBot) : Prop where
  refs : (s.triggers.map (·.ref)).Nodup
  fresh : ∀ t ∈ s.triggers, t.ref < s.created
  dm : ∀ t ∈ s.triggers, RightDM o t.request
  timed : s.Timed
  timers : s.timers.Nodup
  running : ∀ ref ∈ s.timers, ref < s.created
  once : s.PaysOnce
  done : ∀ x ∈ s.executed, x.trigger.ref < s.created ∧ x.trigger.ref ∉ s.triggers.map (·.ref)

/-! ## What a step does -/

theorem matchFn_eq {o : Config} {r : Request} (h : RightDM o r) (channel user message : Str) :
    r.matchFn channel message user =
      if r.Hears o affirmativeWords channel user message then some .accepted
      else if r.Hears o negativeWords channel user message then some .refused
      else none := by
  cases r with
  | withdraw own dm value address =>
    simp only [RightDM] at h
    simp only [Request.matchFn, Request.Hears, Request.HeardIn, Request.user, h, Option.some.injEq]
    have hcomm : ∀ p : Prop, (channel = dm ∧ user = own ∧ p) = (user = own ∧ dm = channel ∧ p) := by
      intro p
      rw [eq_comm (a := channel), and_left_comm]
    simp only [hcomm]
  | demand mentioned own value => simp [Request.matchFn, Request.Hears, Request.HeardIn, Request.user]

theorem matchFn_isSome {o : Config} {r : Request} (h : RightDM o r) (channel user message : Str) :
    (r.matchFn channel message user).isSome = decide (r.Answered o channel user message) := by
  unfold Request.Answered
  rw [matchFn_eq h]
  split_ifs <;> simp_all

theorem destroy_of_split {s : TipBot} {pre post : List Trigger} {t : Trigger} (h : s.triggers = pre ++ t :: post)
    (hpre : ∀ x ∈ pre, x.ref ≠ t.ref) : s.destroy t.ref = { s with triggers := pre } := by
  have hidx : s.triggers.findIdx? (·.ref = t.ref) = some pre.length := by
    rw [h, List.findIdx?_append, List.findIdx?_eq_none_iff.mpr (by simpa using hpre), List.findIdx?_cons]
    simp
  rw [destroy, hidx]
  simp [h]

theorem destroy_of_not_mem {s : TipBot} {ref : Nat} (h : ref ∉ s.triggers.map (·.ref)) : s.destroy ref = s := by
  have hidx : s.triggers.findIdx? (·.ref = ref) = none := by
    apply List.findIdx?_eq_none_iff.mpr
    intro x hx
    simp only [decide_eq_false_iff_not]
    exact fun hr => h (List.mem_map.mpr ⟨x, hx, hr⟩)
  rw [destroy, hidx]

theorem anyTrigger_eq (channel message user : Str) (s : TipBot) (ts : List Trigger) :
    anyTrigger channel message user s ts =
      match ts.find? fun t => (t.request.matchFn channel message user).isSome with
      | some t => s.matchTrigger channel message user t
      | none => (s, false) := by
  induction ts with
  | nil => rfl
  | cons t ts ih =>
    unfold anyTrigger matchTrigger
    rw [List.find?_cons]
    cases h : t.request.matchFn channel message user with
    | none => exact ih
    | some r => cases r <;> simp [h]

/-- What a step leaves of the triggers, the timers, the count and the payments. -/
inductive Does (o : Config) (s : TipBot) (e : Event) : List Trigger → List Nat → Nat → List Execution → Prop
  | same (h : ends o s e = none) : Does o s e s.triggers s.timers s.created s.executed
  | added (h : ends o s e = none) {r : Request} (hr : RightDM o r) :
    Does o s e (s.triggers ++ [⟨s.created, r⟩]) (s.created :: s.timers) (s.created + 1) s.executed
  | expired (h : ends o s e = none) {ref : Nat} (href : ref ∉ s.triggers.map (·.ref)) :
    Does o s e s.triggers (s.timers.erase ref) s.created s.executed
  | refused {pre post : List Trigger} {t : Trigger} (h : ends o s e = some t) (hs : s.triggers = pre ++ t :: post) :
    Does o s e pre s.timers s.created s.executed
  | accepted {pre post : List Trigger} {t : Trigger} {channel : Channel} {user message : Str}
    (he : e = .message channel user message) (h : ends o s e = some t) (hs : s.triggers = pre ++ t :: post)
    (hhears : t.request.Hears o affirmativeWords channel.id user message) :
    Does o s e pre s.timers s.created (⟨t, channel.id, user, message⟩ :: s.executed)
  | timedOut {pre post : List Trigger} {t : Trigger} (h : ends o s e = some t) (hs : s.triggers = pre ++ t :: post) :
    Does o s e pre (s.timers.erase t.ref) s.created s.executed

section Steps

variable {o : Config} {s : TipBot}

theorem Inv.find_split (h : Inv o s) {p : Trigger → Bool} {t : Trigger} (ht : s.triggers.find? p = some t) :
    ∃ pre post, s.triggers = pre ++ t :: post ∧ ∀ x ∈ pre, x.ref ≠ t.ref := by
  obtain ⟨-, pre, post, hs, -⟩ := List.find?_eq_some_iff_append.mp ht
  refine ⟨pre, post, hs, fun x hx hr => ?_⟩
  have hrefs := h.refs
  rw [hs, List.map_append, List.nodup_append] at hrefs
  exact hrefs.2.2 x.ref (List.mem_map_of_mem hx) t.ref (by simp) hr

theorem find?_matchFn (h : Inv o s) (channel user message : Str) :
    s.triggers.find? (fun t => (t.request.matchFn channel message user).isSome) =
      s.triggers.find? fun t => decide (t.request.Answered o channel user message) := by
  rw [← List.head?_filter, ← List.head?_filter]
  exact congrArg List.head? (List.filter_congr fun t ht => matchFn_isSome (h.dm t ht) channel user message)

theorem does_message (h : Inv o s) (channel : Channel) (user message : Str) :
    Does o s (.message channel user message) (onMessage o s channel user message).triggers
      (onMessage o s channel user message).timers (onMessage o s channel user message).created
      (onMessage o s channel user message).executed := by
  unfold onMessage
  cases hc : command o s channel user message with
  | text => exact .same (by simp [ends, hc])
  | convert conversion => exact .same (by simp [ends, hc])
  | other =>
    simp only [anyTrigger_eq, find?_matchFn h]
    have hends : ends o s (.message channel user message) =
        s.triggers.find? fun t => decide (t.request.Answered o channel.id user message) := by simp [ends, hc]
    cases ht : s.triggers.find? fun t => decide (t.request.Answered o channel.id user message) with
    | none => exact .same (hends.trans ht)
    | some t =>
      obtain ⟨pre, post, hs, hpre⟩ := h.find_split ht
      have hanswered : t.request.Answered o channel.id user message := by simpa using List.find?_some ht
      have hdm := h.dm t (List.mem_of_find?_eq_some ht)
      simp only [matchTrigger, matchFn_eq hdm]
      by_cases hyes : t.request.Hears o affirmativeWords channel.id user message
      · simp only [if_pos hyes]
        have hdestroy : ({ s with executed := ⟨t, channel.id, user, message⟩ :: s.executed } : TipBot).destroy t.ref =
            { s with executed := ⟨t, channel.id, user, message⟩ :: s.executed, triggers := pre } :=
          destroy_of_split hs hpre
        rw [hdestroy]
        exact .accepted rfl (hends.trans ht) hs hyes
      · have hno := hanswered.resolve_left hyes
        simp only [if_neg hyes, if_pos hno]
        rw [destroy_of_split hs hpre]
        exact .refused (hends.trans ht) hs

theorem does_timeout (h : Inv o s) (ref : Nat) :
    Does o s (.timeout ref) (step o s (.timeout ref)).triggers (step o s (.timeout ref)).timers
      (step o s (.timeout ref)).created (step o s (.timeout ref)).executed := by
  simp only [step]
  by_cases hrun : ref ∈ s.timers
  · have hends : ends o s (.timeout ref) = s.triggers.find? (·.ref = ref) := by simp [ends, hrun]
    rw [if_pos hrun]
    cases ht : s.triggers.find? (·.ref = ref) with
    | none =>
      have href : ref ∉ s.triggers.map (·.ref) := by simpa using ht
      have hdestroy : ({ s with timers := s.timers.erase ref } : TipBot).destroy ref =
          { s with timers := s.timers.erase ref } := destroy_of_not_mem href
      rw [hdestroy]
      exact .expired (hends.trans ht) href
    | some t =>
      obtain ⟨pre, post, hs, hpre⟩ := h.find_split ht
      obtain rfl : t.ref = ref := by simpa using List.find?_some ht
      have hdestroy : ({ s with timers := s.timers.erase t.ref } : TipBot).destroy t.ref =
          { s with timers := s.timers.erase t.ref, triggers := pre } := destroy_of_split hs hpre
      rw [hdestroy]
      exact .timedOut (hends.trans ht) hs
  · rw [if_neg hrun]
    exact .same (by simp [ends, hrun])

theorem does_normalized (i : Nat) (answer : Normalized) :
    Does o s (.normalized i answer) (step o s (.normalized i answer)).triggers (step o s (.normalized i answer)).timers
      (step o s (.normalized i answer)).created (step o s (.normalized i answer)).executed := by
  simp only [step]
  cases hi : s.conversions[i]? with
  | none => exact .same rfl
  | some conversion =>
    cases answer with
    | unsupported => cases conversion <;> exact .same rfl
    | invalid => cases conversion <;> exact .same rfl
    | value v =>
      cases conversion with
      | withdraw user address =>
        simp only [normalized]
        cases hdm : o.getDMByUserId user with
        | none => exact .same rfl
        | some dm => exact .added rfl hdm
      | demand user mentioned =>
        simp only [normalized]
        split
        · exact .same rfl
        · exact .added rfl trivial
      | send user mentioned => exact .same rfl

/-- Users come and go without any change to the triggers. -/
theorem updateUserFromMember_core (s : TipBot) (member : Member) (updateRegex : Bool) :
    ∃ users userRegex, updateUserFromMember o s member updateRegex = { s with users := users, userRegex := userRegex } := by
  unfold updateUserFromMember updateUserRegex
  dsimp only
  split_ifs <;> exact ⟨_, _, rfl⟩

theorem initUsers_core (s : TipBot) (members : List Member) :
    ∃ users userRegex, initUsers o s members = { s with users := users, userRegex := userRegex } := by
  unfold initUsers
  induction members generalizing s with
  | nil => exact ⟨_, _, rfl⟩
  | cons member members ih =>
    obtain ⟨users, userRegex, h⟩ := updateUserFromMember_core (o := o) s member false
    obtain ⟨users', userRegex', h'⟩ := ih { s with users := users, userRegex := userRegex }
    rw [List.foldl_cons, h, h']
    exact ⟨_, _, rfl⟩

theorem step_does (h : Inv o s) (e : Event) :
    Does o s e (step o s e).triggers (step o s e).timers (step o s e).created (step o s e).executed := by
  cases e with
  | message channel user message => exact does_message h channel user message
  | normalized i answer => exact does_normalized i answer
  | timeout ref => exact does_timeout h ref
  | init members =>
    obtain ⟨users, userRegex, hu⟩ := initUsers_core (o := o) s members
    simp only [step, hu]
    exact .same rfl
  | userChange member =>
    obtain ⟨users, userRegex, hu⟩ := updateUserFromMember_core (o := o) s member true
    simp only [step, hu]
    exact .same rfl
  | priceRates currencies => exact .same rfl

theorem Inv.not_mem_of_split (h : Inv o s) {pre post : List Trigger} {t : Trigger}
    (hs : s.triggers = pre ++ t :: post) {x : Trigger} (hx : x ∈ t :: post) : x.ref ∉ pre.map (·.ref) := by
  have hrefs := h.refs
  rw [hs, List.map_append, List.nodup_append] at hrefs
  exact fun hmem => hrefs.2.2 x.ref hmem x.ref (List.mem_map_of_mem hx) rfl

theorem Inv.cut (h : Inv o s) {pre post : List Trigger} {t : Trigger} (hs : s.triggers = pre ++ t :: post)
    {timers : List Nat} (hsub : timers.Sublist s.timers) (htimed : ∀ x ∈ pre, x.ref ∈ timers) {u : TipBot}
    (htriggers : u.triggers = pre) (htimers : u.timers = timers) (hcreated : u.created = s.created)
    (hexecuted : u.executed = s.executed) : Inv o u := by
  have hmem : ∀ x ∈ pre, x ∈ s.triggers := fun x hx => hs ▸ List.mem_append_left _ hx
  have hrefs := h.refs
  rw [hs, List.map_append, List.nodup_append] at hrefs
  refine ⟨?_, ?_, ?_, ?_, ?_, ?_, ?_, ?_⟩
  · rw [htriggers]
    exact hrefs.1
  · rw [htriggers, hcreated]
    exact fun x hx => h.fresh x (hmem x hx)
  · rw [htriggers]
    exact fun x hx => h.dm x (hmem x hx)
  · unfold Timed
    rw [htriggers, htimers]
    exact htimed
  · rw [htimers]
    exact h.timers.sublist hsub
  · rw [htimers, hcreated]
    exact fun ref href => h.running ref (hsub.subset href)
  · unfold PaysOnce
    rw [hexecuted]
    exact h.once
  · rw [hexecuted, hcreated, htriggers]
    intro x hx
    refine ⟨(h.done x hx).1, fun hpre => (h.done x hx).2 ?_⟩
    rw [hs, List.map_append]
    exact List.mem_append_left _ hpre

theorem inv_of_does (h : Inv o s) {e : Event} {u : TipBot}
    (hd : Does o s e u.triggers u.timers u.created u.executed) : Inv o u := by
  obtain ⟨users, userRegex, currencies, triggers, timers, created, conversions, executed⟩ := u
  simp only at hd
  cases hd with
  | same _ => exact ⟨h.refs, h.fresh, h.dm, h.timed, h.timers, h.running, h.once, h.done⟩
  | @added _ r hr =>
    have hnew : s.created ∉ s.triggers.map (·.ref) := by
      intro hmem
      obtain ⟨t, ht, hr⟩ := List.mem_map.mp hmem
      have := h.fresh t ht
      omega
    refine ⟨?_, ?_, ?_, ?_, ?_, ?_, h.once, ?_⟩
    · simp only [List.map_append, List.map_cons, List.map_nil]
      refine List.nodup_append.mpr ⟨h.refs, List.nodup_singleton _, ?_⟩
      intro ref href new hn heq
      rw [List.mem_singleton] at hn
      exact hnew (hn ▸ heq ▸ href)
    · intro t ht
      simp only [List.mem_append, List.mem_singleton] at ht
      rcases ht with ht | rfl
      · have := h.fresh t ht
        simp only
        omega
      · simp
    · intro t ht
      simp only [List.mem_append, List.mem_singleton] at ht
      rcases ht with ht | rfl
      · exact h.dm t ht
      · exact hr
    · intro t ht
      simp only [List.mem_append, List.mem_singleton] at ht
      rcases ht with ht | rfl
      · exact List.mem_cons_of_mem _ (h.timed t ht)
      · exact List.mem_cons_self
    · refine List.nodup_cons.mpr ⟨fun hmem => ?_, h.timers⟩
      have := h.running _ hmem
      omega
    · intro ref href
      simp only [List.mem_cons] at href
      rcases href with rfl | href
      · simp
      · have := h.running ref href
        simp only
        omega
    · intro x hx
      obtain ⟨hlt, hnot⟩ := h.done x hx
      simp only [List.map_append, List.mem_append, not_or]
      refine ⟨by omega, hnot, ?_⟩
      simp only [List.map_cons, List.map_nil, List.mem_singleton]
      omega
  | @expired _ ref href =>
    refine ⟨h.refs, h.fresh, h.dm, ?_, h.timers.sublist List.erase_sublist, ?_, h.once, h.done⟩
    · intro t ht
      refine (List.mem_erase_of_ne fun heq => href ?_).mpr (h.timed t ht)
      exact heq ▸ List.mem_map_of_mem ht
    · exact fun r hr => h.running r (List.mem_of_mem_erase hr)
  | @refused pre post t _ hs =>
    exact h.cut hs (List.Sublist.refl _) (fun x hx => h.timed x (hs ▸ List.mem_append_left _ hx)) rfl rfl rfl rfl
  | @accepted _ post t channel user message _ _ hs _ =>
    have hcut : Inv o { s with triggers := triggers } :=
      h.cut hs (List.Sublist.refl _) (fun x hx => h.timed x (hs ▸ List.mem_append_left _ hx)) rfl rfl rfl rfl
    have ht : t ∈ s.triggers := hs ▸ List.mem_append_right _ List.mem_cons_self
    refine ⟨hcut.refs, hcut.fresh, hcut.dm, hcut.timed, hcut.timers, hcut.running, ?_, ?_⟩
    · refine List.nodup_cons.mpr ⟨fun hmem => ?_, h.once⟩
      obtain ⟨x, hx, hr⟩ := List.mem_map.mp hmem
      exact (h.done x hx).2 (hr ▸ List.mem_map_of_mem ht)
    · intro x hx
      simp only [List.mem_cons] at hx
      rcases hx with rfl | hx
      · exact ⟨h.fresh t ht, h.not_mem_of_split hs List.mem_cons_self⟩
      · exact hcut.done x hx
  | @timedOut pre post t _ hs =>
    refine h.cut hs List.erase_sublist (fun x hx => ?_) rfl rfl rfl rfl
    refine (List.mem_erase_of_ne fun heq => h.not_mem_of_split hs List.mem_cons_self ?_).mpr
      (h.timed x (hs ▸ List.mem_append_left _ hx))
    exact heq ▸ List.mem_map_of_mem hx

theorem inv_step (h : Inv o s) (e : Event) : Inv o (step o s e) := inv_of_does h (step_does h e)

/-- The part of a list before one of its members lacks this one alone exactly when this one is the last. -/
theorem mem_before_iff {pre post : List Trigger} {t : Trigger} (h : (pre ++ t :: post).Nodup) :
    (∀ x ∈ pre ++ t :: post, x ∈ pre ↔ some t ≠ some x) ↔ (pre ++ t :: post).getLast? = some t := by
  obtain ⟨-, htail, hdisjoint⟩ := List.nodup_append.mp h
  have hnot : ∀ x ∈ t :: post, x ∉ pre := fun x hx hpre => hdisjoint x hpre x hx rfl
  have hpost : t ∉ post := (List.nodup_cons.mp htail).1
  rw [List.getLast?_append_of_ne_nil _ (List.cons_ne_nil t post)]
  constructor
  · intro hall
    rcases List.eq_nil_or_concat post with rfl | ⟨post', z, rfl⟩
    · rfl
    · -- The last of the list is not the member, and goes as well.
      have hz : z ∈ t :: post'.concat z := by simp
      have hzt : t = z := by simpa using (hall z (List.mem_append_right _ hz)).not.mp (hnot z hz)
      exact absurd (by simp [hzt]) hpost
  · intro hlast x hx
    rcases List.eq_nil_or_concat post with rfl | ⟨post', z, rfl⟩
    · rcases List.mem_append.mp hx with hx | hx
      · refine iff_of_true hx fun heq => hnot x ?_ hx
        simpa using heq.symm
      · obtain rfl := List.mem_singleton.mp hx
        simp [hnot x hx]
    · have hzt : z = t := by simpa [List.getLast?_cons] using hlast
      exact absurd (by simp [hzt]) hpost

/-- What is cut off the list is what the event ends exactly when that is the last of the list. -/
theorem kept_iff (h : Inv o s) (e : Event) : Kept o s e ↔ EndsLast o s e := by
  have hcut : ∀ (pre post : List Trigger) (t : Trigger), ends o s e = some t → s.triggers = pre ++ t :: post →
      ((∀ x ∈ s.triggers, x ∈ pre ↔ ends o s e ≠ some x) ↔ EndsLast o s e) := by
    intro pre post t hends hs
    have hnodup : (pre ++ t :: post).Nodup := hs ▸ h.refs.of_map
    simp only [EndsLast, hends, hs]
    rw [mem_before_iff hnodup]
    simp
  have hkeep : ∀ ts : List Trigger, ends o s e = none → (∀ x ∈ s.triggers, x ∈ ts) →
      ((∀ x ∈ s.triggers, x ∈ ts ↔ ends o s e ≠ some x) ↔ EndsLast o s e) := by
    intro ts hnone hall
    simp only [EndsLast, hnone]
    exact iff_of_true (fun x hx => by simp [hall x hx]) (by simp)
  have hd := step_does h e
  unfold Kept
  generalize (step o s e).timers = timers, (step o s e).created = created, (step o s e).executed = executed at hd
  generalize (step o s e).triggers = triggers at hd ⊢
  cases hd with
  | same hnone => exact hkeep _ hnone fun x hx => hx
  | added hnone _ => exact hkeep _ hnone fun x hx => List.mem_append_left _ hx
  | expired hnone _ => exact hkeep _ hnone fun x hx => hx
  | refused hends hs => exact hcut _ _ _ hends hs
  | accepted _ hends hs _ => exact hcut _ _ _ hends hs
  | timedOut hends hs => exact hcut _ _ _ hends hs

theorem paysOnReply (h : Inv o s) (e : Event) : PaysOnReply o s e := by
  have hd := step_does h e
  unfold PaysOnReply
  generalize (step o s e).triggers = triggers, (step o s e).timers = timers, (step o s e).created = created at hd
  generalize (step o s e).executed = executed at hd ⊢
  cases hd with
  | same _ | added _ _ | expired _ _ | refused _ _ | timedOut _ _ => exact .inl rfl
  | accepted he _ hs hhears =>
    exact .inr ⟨_, _, _, _, he, hs ▸ List.mem_append_right _ List.mem_cons_self, hhears, rfl⟩

end Steps

theorem inv_start (o : Config) : Inv o start := by
  refine ⟨List.nodup_nil, ?_, ?_, ?_, List.nodup_nil, ?_, List.nodup_nil, ?_⟩ <;> simp [start, Timed]

/-- **Confirmations.** In every run a request is paid at most once, on the word of its user, and one reply pays one
request at most. That no request goes before its time comes down to where in the list the ended ones stand. -/
theorem confirmations_iff (o : Config) (events : List Event) :
    (Along (step o) (fun s e => Kept o s e ∧ PaysOnReply o s e) start events ∧
        Always (step o) (fun s => PaysOnce s ∧ Timed s) start events) ↔ Along (step o) (EndsLast o) start events := by
  have hinv := always_of_step (fun (s : TipBot) (e : Event) (hs : Inv o s) => inv_step hs e) events (inv_start o)
  have hpays : Always (step o) (fun s => PaysOnce s ∧ Timed s) start events := hinv.mono fun s hs => ⟨hs.once, hs.timed⟩
  rw [and_iff_left hpays]
  exact along_iff_of_inv (fun (s : TipBot) (e : Event) (hs : Inv o s) => inv_step hs e)
    (fun s e hs => (and_iff_left (paysOnReply hs e)).trans (kept_iff hs e)) events (inv_start o)

/-! ## Two withdrawals -/

def sampleAddress : Str := "1dice8EMZmqKvrGE4Qc9bUFf9PX3xaYDp".toList

def sampleConfig : Config where
  selfId := "U0".toList
  getDMByUserId user := if user = "U1".toList then some "D1".toList else if user = "U2".toList then some "D2".toList else none
  TESTNET := false
  TICKER := "BTC".toList
  DEMAND := true
  fromBase58Check address := if address = sampleAddress then some 0 else none

def withdrawMessage : Str := "withdraw 1 BTC to ".toList ++ sampleAddress

/-- Two users want to withdraw, and the first changes her mind. -/
def sampleEvents : List Event :=
  [.init [⟨"U0".toList, false, false⟩, ⟨"U1".toList, false, false⟩, ⟨"U2".toList, false, false⟩],
    .message ⟨"D1".toList, false, false⟩ "U1".toList withdrawMessage, .normalized 0 (.value 100000000),
    .message ⟨"D2".toList, false, false⟩ "U2".toList withdrawMessage, .normalized 0 (.value 100000000),
    .message ⟨"D1".toList, false, false⟩ "U1".toList "no".toList]

def secondRequest : Trigger := ⟨1, .withdraw "U2".toList "D2".toList 100000000 sampleAddress⟩

theorem refusal_drops_another :
    ¬(Along (step sampleConfig) (fun s e => Kept sampleConfig s e ∧ PaysOnReply sampleConfig s e) start sampleEvents ∧
      Always (step sampleConfig) (fun s => PaysOnce s ∧ Timed s) start sampleEvents) := by
  rintro ⟨⟨-, -, -, -, -, ⟨hkept, -⟩, -⟩, -⟩
  have h := hkept secondRequest (by decide +kernel)
  exact absurd (h.mpr (by decide +kernel)) (by decide +kernel)

end TipBot

end SlackTipbot
