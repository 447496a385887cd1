import Mathlib.Logic.Function.Basic
import Blocktrail.Lib.Runs
import Blocktrail.Lib.Text

/-! # The active wallet

The wallet that was active stops polling as soon as another is asked for. The other one takes its place when its
initialisation ends, whatever has been asked for in between.
-/

open Runs Text

namespace WebWallet

namespace WalletsManager

/-! ## Wallets and requests -/

def getWalletUniqueIdentifier (networkType identifier : Str) : Str := networkType ++ '_' :: identifier

/-- What the API lists of a wallet. -/
structure Listed where
  network : Str
  identifier : Str
deriving DecidableEq

def Listed.uniqueIdentifier (w : Listed) : Str := getWalletUniqueIdentifier w.network w.identifier

structure Wallet where
  uniqueIdentifier : Str
  noPolling : Bool
deriving DecidableEq

/-- How far a request is that has not thrown. -/
inductive Stage
  /-- The SDK initialises its wallet. -/
  | starting
  /-- The wallet object exists and loads its data. -/
  | loading
  | failed
  | served
deriving DecidableEq

structure Request where
  uniqueIdentifier : Str
  stage : Stage
deriving DecidableEq

/-- Requests are numbered in their order, and a wallet object has the number of the request that has made it. -/
structure State where
  walletsList : List Listed
  wallets : Str → Option Nat
  activeWallet : Option Nat
  objects : Nat → Option Wallet
  requests : Nat → Option Request
  fresh : Nat

def initial : State := ⟨[], fun _ => none, none, fun _ => none, fun _ => none, 0⟩

inductive Action
  | fetchWalletsList (data : List Listed)
  | setActiveWalletByNetworkTypeAndIdentifier (networkType identifier : Str)
  | setActiveWalletByUniqueIdentifier (uniqueIdentifier : Str)
  | sdkInitWallet (n : Nat) (ok : Bool)
  | initData (n : Nat)
  /-- `polled`: the first poll was over, so that a timer has been set up for the next one. -/
  | initDataFails (n : Nat) (polled : Bool)
deriving DecidableEq

/-! ## Steps -/

namespace State

def setObject (s : State) (n : Nat) (wallet : Option Wallet) : State :=
  { s with objects := Function.update s.objects n wallet }

def setRequest (s : State) (n : Nat) (request : Request) : State :=
  { s with requests := Function.update s.requests n (some request) }

def request (s : State) (uniqueIdentifier : Str) (stage : Stage) : State :=
  { s.setRequest s.fresh ⟨uniqueIdentifier, stage⟩ with fresh := s.fresh + 1 }

def setPolling (s : State) (n : Nat) (polling : Bool) : State :=
  s.setObject n ((s.objects n).map fun wallet => { wallet with noPolling := !polling })

end State

/-- The wallet that the network and the identifier stand for; `none` throws. -/
def resolve (walletsList : List Listed) (networkType identifier : Str) : Option Str :=
  if networkType = [] ∨ identifier = [] then none
  else if walletsList.any fun w => w.uniqueIdentifier = getWalletUniqueIdentifier networkType identifier then
    some (getWalletUniqueIdentifier networkType identifier)
  else (walletsList.find? fun w => w.network = networkType).map fun w =>
    getWalletUniqueIdentifier networkType w.identifier

/-- The unique identifier that an action asks for. -/
def requested (s : State) : Action → Option Str
  | .setActiveWalletByNetworkTypeAndIdentifier networkType identifier => resolve s.walletsList networkType identifier
  | .setActiveWalletByUniqueIdentifier uniqueIdentifier =>
    (s.walletsList.find? fun w => w.uniqueIdentifier = uniqueIdentifier).map Listed.uniqueIdentifier
  | _ => none

/-- `_setActiveWallet`. -/
def setActiveWallet (s : State) (uniqueIdentifier : Str) : State :=
  match s.activeWallet with
  | none => s.request uniqueIdentifier .starting
  | some active =>
    if (s.objects active).map Wallet.uniqueIdentifier ≠ some uniqueIdentifier then
      let s := s.setPolling active false
      match s.wallets uniqueIdentifier with
      | some n => { s.setPolling n true with activeWallet := some n }.request uniqueIdentifier .served
      | none => s.request uniqueIdentifier .starting
    else s.request uniqueIdentifier .served

def setActive (s : State) : Option Str → State
  | some uniqueIdentifier => setActiveWallet s uniqueIdentifier
  | none => s

def sdkInitWallet (s : State) (n : Nat) (ok : Bool) : State :=
  match s.requests n with
  | some ⟨uniqueIdentifier, .starting⟩ =>
    if ok then (s.setObject n (some ⟨uniqueIdentifier, false⟩)).setRequest n ⟨uniqueIdentifier, .loading⟩
    else s.setRequest n ⟨uniqueIdentifier, .failed⟩
  | _ => s

def initData (s : State) (n : Nat) : State :=
  match s.requests n with
  | some ⟨uniqueIdentifier, .loading⟩ =>
    { s with
      wallets := Function.update s.wallets uniqueIdentifier (some n)
      activeWallet := some n }.setRequest n ⟨uniqueIdentifier, .served⟩
  | _ => s

/-- An object without a timer is gone. -/
def initDataFails (s : State) (n : Nat) (polled : Bool) : State :=
  match s.requests n with
  | some ⟨uniqueIdentifier, .loading⟩ =>
    (if polled then s else s.setObject n none).setRequest n ⟨uniqueIdentifier, .failed⟩
  | _ => s

def step (networksEnabled : List Str) (s : State) (a : Action) : State :=
  match a with
  | .fetchWalletsList data => { s with walletsList := data.filter fun w => w.network ∈ networksEnabled }
  | .setActiveWalletByNetworkTypeAndIdentifier .. => setActive s (requested s a)
  | .setActiveWalletByUniqueIdentifier .. => setActive s (requested s a)
  | .sdkInitWallet n ok => sdkInitWallet s n ok
  | .initData n => initData s n
  | .initDataFails n polled => initDataFails s n polled

/-! ## What is relied on -/

def State.Pending (s : State) (n : Nat) : Prop :=
  ∃ r, s.requests n = some r ∧ (r.stage = .starting ∨ r.stage = .loading)

/-- The last request whose initialisation has not failed. -/
def State.Last (s : State) (n : Nat) (r : Request) : Prop :=
  s.requests n = some r ∧ r.stage ≠ .failed ∧ ∀ m r', s.requests m = some r' → r'.stage ≠ .failed → m ≤ n

structure Settled (s : State) : Prop where
  active : ∀ n r, s.Last n r →
    ∃ a wallet, s.activeWallet = some a ∧ s.objects a = some wallet ∧ wallet.uniqueIdentifier = r.uniqueIdentifier
  inactive : (∀ n r, s.requests n = some r → r.stage = .failed) → s.activeWallet = none
  polling : ∀ a wallet, s.objects a = some wallet → (wallet.noPolling = false ↔ s.activeWallet = some a)
  unique : ∀ a b wallet wallet', s.objects a = some wallet → s.objects b = some wallet' →
    wallet.uniqueIdentifier = wallet'.uniqueIdentifier → a = b

def SettledOnceDone (s : State) : Prop := (∀ n, ¬s.Pending n) → Settled s

/-- No wallet stops polling for a request that comes to nothing. -/
def State.ActivePolls (s : State) : Prop :=
  ∀ a wallet, s.activeWallet = some a → s.objects a = some wallet → wallet.noPolling = false

/-- An initialisation may fail: it leaves no object, and another one is pending or the active wallet polls. -/
def State.MayFail (s : State) (n : Nat) : Prop := (∃ m, m ≠ n ∧ s.Pending m) ∨ s.ActivePolls

/-- An initialisation may complete: no wallet polls but those that load their data, no later request has been served,
and there is no wallet of its identifier. -/
structure State.MayComplete (s : State) (n : Nat) (uniqueIdentifier : Str) : Prop where
  polling : ∀ a wallet, s.objects a = some wallet → wallet.noPolling = false → s.Pending a
  last : ∀ m r, s.requests m = some r → r.stage = .served → m < n
  missing : s.wallets uniqueIdentifier = none

/-- The active wallet is asked for only while it polls, and initialisations end only where they may. -/
def Undisturbed (s : State) (a : Action) : Prop :=
  match a with
  | .fetchWalletsList _ => True
  | .setActiveWalletByNetworkTypeAndIdentifier .. | .setActiveWalletByUniqueIdentifier .. =>
    ∀ active wallet, s.activeWallet = some active → s.objects active = some wallet →
      requested s a = some wallet.uniqueIdentifier → wallet.noPolling = false
  | .sdkInitWallet n ok => ok = false → (∃ r, s.requests n = some r ∧ r.stage = .starting) → s.MayFail n
  | .initData n => ∀ r, s.requests n = some r → r.stage = .loading → s.MayComplete n r.uniqueIdentifier
  | .initDataFails n polled => (∃ r, s.requests n = some r ∧ r.stage = .loading) → polled = false ∧ s.MayFail n

/-! ## The invariant -/

/-- The buffer has the wallets that are ready, one for an identifier; the others load their data. -/
structure Buffered (s : State) : Prop where
  fresh : ∀ n r, s.requests n = some r → n < s.fresh
  wallets : ∀ u a, s.wallets u = some a →
    s.requests a = some ⟨u, .served⟩ ∧ ∃ noPolling, s.objects a = some ⟨u, noPolling⟩
  objects : ∀ a wallet, s.objects a = some wallet →
    s.wallets wallet.uniqueIdentifier = some a ∨ s.requests a = some ⟨wallet.uniqueIdentifier, .loading⟩
  /-- A wallet that loads its data polls. -/
  loading : ∀ n u, s.requests n = some ⟨u, .loading⟩ → s.objects n = some ⟨u, false⟩

/-- The active wallet is the one of the last request that was served. -/
structure Active (s : State) : Prop where
  some : ∀ a, s.activeWallet = some a → ∃ u n, s.wallets u = .some a ∧ s.requests n = .some ⟨u, .served⟩ ∧
    ∀ m r, s.requests m = .some r → r.stage = .served → m ≤ n
  none : s.activeWallet = none → ∀ n r, s.requests n = .some r → r.stage ≠ .served

/-- Of the wallets that are ready only the given one may poll. -/
def OnlyPolls (s : State) (active : Option Nat) : Prop :=
  ∀ u a, s.wallets u = some a → s.objects a = some ⟨u, false⟩ → active = some a

structure Inv (s : State) : Prop where
  buffered : Buffered s
  active : Active s
  polling : OnlyPolls s s.activeWallet
  alive : (∃ n, s.Pending n) ∨ s.ActivePolls

theorem initial_inv : Inv initial where
  buffered := ⟨by rintro n r ⟨⟩, by rintro u a ⟨⟩, by rintro a wallet ⟨⟩, by rintro n u ⟨⟩⟩
  active := ⟨by rintro a ⟨⟩, by rintro - n r ⟨⟩⟩
  polling := by rintro u a ⟨⟩
  alive := Or.inr (by rintro a wallet ⟨⟩)

variable {s : State}

theorem Inv.settled (h : Inv s) : SettledOnceDone s := by
  intro hdone
  have hready : ∀ a wallet, s.objects a = some wallet → s.wallets wallet.uniqueIdentifier = some a := by
    intro a wallet ha
    rcases h.buffered.objects a wallet ha with hw | hr
    · exact hw
    · exact absurd ⟨_, hr, Or.inr rfl⟩ (hdone a)
  have hserved : ∀ n r, s.requests n = some r → r.stage ≠ .failed → r.stage = .served := by
    intro n r hr hne
    have hpending := hdone n
    cases hstage : r.stage with
    | starting => exact absurd ⟨r, hr, Or.inl hstage⟩ hpending
    | loading => exact absurd ⟨r, hr, Or.inr hstage⟩ hpending
    | failed => exact absurd hstage hne
    | served => rfl
  have hpolls : s.ActivePolls := by
    rcases h.alive with ⟨n, hn⟩ | hpolls
    · exact absurd hn (hdone n)
    · exact hpolls
  refine ⟨?_, ?_, ?_, ?_⟩
  · rintro n r ⟨hr, hne, hlast⟩
    cases ha : s.activeWallet with
    | none => exact absurd (hserved n r hr hne) (h.active.none ha n r hr)
    | some a =>
      obtain ⟨u, n', hu, hn', hmax⟩ := h.active.some a ha
      have hn : n' = n := Nat.le_antisymm (hlast n' _ hn' (by rintro ⟨⟩)) (hmax n r hr (hserved n r hr hne))
      obtain ⟨noPolling, hobject⟩ := (h.buffered.wallets u a hu).2
      rw [hn, hr] at hn'
      exact ⟨a, ⟨u, noPolling⟩, rfl, hobject, (congrArg Request.uniqueIdentifier (Option.some.inj hn')).symm⟩
  · intro hfailed
    cases ha : s.activeWallet with
    | none => rfl
    | some a =>
      obtain ⟨u, n, -, hn, -⟩ := h.active.some a ha
      cases hfailed n _ hn
  · rintro a ⟨u, noPolling⟩ ha
    constructor
    · rintro rfl
      exact h.polling u a (hready a _ ha) ha
    · exact fun hactive => hpolls a _ hactive ha
  · intro a b wallet wallet' ha hb hu
    have hwa := hready a wallet ha
    rw [hu, hready b wallet' hb] at hwa
    exact (Option.some.inj hwa).symm

/-! ## What a step keeps -/

theorem Inv.fetch (h : Inv s) (walletsList : List Listed) : Inv { s with walletsList := walletsList } :=
  ⟨⟨h.buffered.fresh, h.buffered.wallets, h.buffered.objects, h.buffered.loading⟩, ⟨h.active.some, h.active.none⟩, h.polling, h.alive⟩

theorem objects_setPolling (n : Nat) (polling : Bool) (a : Nat) : (s.setPolling n polling).objects a =
    (s.objects a).map fun wallet => if a = n then { wallet with noPolling := !polling } else wallet := by
  unfold State.setPolling State.setObject
  dsimp only
  rw [Function.update_apply]
  by_cases h : a = n
  · subst h
    simp
  · simp [h]

theorem Buffered.setPolling (h : Buffered s) {v : Str} {n : Nat} (hn : s.wallets v = some n) (polling : Bool) :
    Buffered (s.setPolling n polling) where
  fresh := h.fresh
  wallets := by
    intro u a hu
    obtain ⟨hr, noPolling, ha⟩ := h.wallets u a hu
    refine ⟨hr, ?_⟩
    rw [objects_setPolling, ha]
    by_cases han : a = n
    · exact ⟨!polling, by simp [han]⟩
    · exact ⟨noPolling, by simp [han]⟩
  objects := by
    intro a wallet ha
    rw [objects_setPolling, Option.map_eq_some_iff] at ha
    obtain ⟨wallet', ha', rfl⟩ := ha
    have hw := h.objects a wallet' ha'
    split
    · exact hw
    · exact hw
  loading := by
    intro m u hm
    have hne : m ≠ n := by
      rintro rfl
      cases hm.symm.trans (h.wallets v m hn).1
    rw [objects_setPolling, h.loading m u hm, Option.map_some, if_neg hne]

theorem requests_request {u : Str} {stage : Stage} {n : Nat} {r : Request}
    (h : (s.request u stage).requests n = some r) : n = s.fresh ∧ r = ⟨u, stage⟩ ∨ n ≠ s.fresh ∧ s.requests n = some r := by
  have hget : Function.update s.requests s.fresh (some ⟨u, stage⟩) n = some r := h
  rw [Function.update_apply] at hget
  split at hget
  · next hn => exact Or.inl ⟨hn, (Option.some.inj hget).symm⟩
  · next hn => exact Or.inr ⟨hn, hget⟩

theorem Buffered.request (h : Buffered s) (u : Str) {stage : Stage} (hstage : stage ≠ .loading) :
    Buffered (s.request u stage) where
  fresh := by
    intro n r hr
    have hget : Function.update s.requests s.fresh (some ⟨u, stage⟩) n = some r := hr
    rw [Function.update_apply] at hget
    change n < s.fresh + 1
    split at hget
    · omega
    · exact Nat.lt_succ_of_lt (h.fresh n r hget)
  wallets := by
    intro v a hv
    obtain ⟨hr, hobject⟩ := h.wallets v a hv
    exact ⟨(Function.update_of_ne (h.fresh a _ hr).ne _ _).trans hr, hobject⟩
  objects := by
    intro a wallet ha
    rcases h.objects a wallet ha with hw | hr
    · exact Or.inl hw
    · exact Or.inr ((Function.update_of_ne (h.fresh a _ hr).ne _ _).trans hr)
  loading := by
    intro n v hn
    rcases requests_request hn with ⟨-, heq⟩ | ⟨-, hold⟩
    · cases heq
      exact absurd rfl hstage
    · exact h.loading n v hold

theorem request_self (u : Str) (stage : Stage) : (s.request u stage).requests s.fresh = some ⟨u, stage⟩ :=
  Function.update_self s.fresh _ s.requests

theorem Inv.request_starting (hb : Buffered s) (ha : Active s) (hp : OnlyPolls s s.activeWallet) (u : Str) :
    Inv (s.request u .starting) where
  buffered := hb.request u (by rintro ⟨⟩)
  active := by
    refine ⟨fun a hactive => ?_, fun hactive n r hr => ?_⟩
    · obtain ⟨v, n, hv, hn, hmax⟩ := ha.some a hactive
      refine ⟨v, n, hv, (Function.update_of_ne (hb.fresh n _ hn).ne _ _).trans hn, fun m r hr hstage => ?_⟩
      rcases requests_request hr with ⟨-, rfl⟩ | ⟨-, hm⟩
      · cases hstage
      · exact hmax m r hm hstage
    · rcases requests_request hr with ⟨-, rfl⟩ | ⟨-, hn⟩
      · rintro ⟨⟩
      · exact ha.none hactive n r hn
  polling := hp
  alive := Or.inl ⟨s.fresh, _, request_self u .starting, Or.inl rfl⟩

theorem Inv.request_served (hb : Buffered s) {u : Str} {a : Nat} (hu : s.wallets u = some a)
    (hactive : s.activeWallet = some a) (hp : OnlyPolls s s.activeWallet) (hpolls : s.ActivePolls) :
    Inv (s.request u .served) where
  buffered := hb.request u (by rintro ⟨⟩)
  active := by
    refine ⟨fun a' ha' => ?_, fun hnone => ?_⟩
    · have haa : a = a' := Option.some.inj (hactive.symm.trans ha')
      subst haa
      refine ⟨u, s.fresh, hu, request_self u .served, fun m r hr _ => ?_⟩
      have hm : m < s.fresh + 1 := Buffered.fresh (hb.request u (by rintro ⟨⟩)) m r hr
      omega
    · cases hactive.symm.trans hnone
  polling := hp
  alive := Or.inr hpolls

theorem Inv.setActiveWallet (h : Inv s) {u : Str}
    (hok : ∀ active wallet, s.activeWallet = some active → s.objects active = some wallet →
      some u = some wallet.uniqueIdentifier → wallet.noPolling = false) :
    Inv (setActiveWallet s u) := by
  unfold WalletsManager.setActiveWallet
  cases hactive : s.activeWallet with
  | none => exact Inv.request_starting h.buffered h.active h.polling u
  | some active =>
    obtain ⟨v, n, hv, hn, hmax⟩ := h.active.some active hactive
    obtain ⟨-, noPolling, hobject⟩ := h.buffered.wallets v active hv
    dsimp only
    rw [hobject]
    split
    · next hne =>
      -- the active wallet stops, and no other one polls
      have hbuffered := h.buffered.setPolling hv false
      have hquiet : ∀ w, OnlyPolls (s.setPolling active false) w := by
        intro w x a hx ha
        rw [objects_setPolling, Option.map_eq_some_iff] at ha
        obtain ⟨wallet, ha, hwallet⟩ := ha
        split at hwallet
        · cases hwallet
        · next hne =>
          subst hwallet
          exact absurd (Option.some.inj (hactive.symm.trans (h.polling x a hx ha))).symm hne
      have hwallets : (s.setPolling active false).wallets u = s.wallets u := rfl
      rw [hwallets]
      cases hu : s.wallets u with
      | none =>
        refine Inv.request_starting hbuffered ⟨?_, ?_⟩ (hquiet _) u
        · exact h.active.some
        · exact h.active.none
      | some b =>
        dsimp only
        obtain ⟨hserved, hobjectb⟩ := hbuffered.wallets u b hu
        refine Inv.request_served (a := b) ?_ hu rfl ?_ ?_
        · have hb := hbuffered.setPolling hu true
          exact ⟨hb.fresh, hb.wallets, hb.objects, hb.loading⟩
        · intro x a hx ha
          have hget : ((s.setPolling active false).setPolling b true).objects a = some ⟨x, false⟩ := ha
          rw [objects_setPolling, Option.map_eq_some_iff] at hget
          obtain ⟨wallet, hget, hwallet⟩ := hget
          split at hwallet
          · next hab => rw [hab]
          · subst hwallet
            cases hquiet none x a hx hget
        · intro a wallet ha hget
          cases ha
          have hget' : ((s.setPolling active false).setPolling b true).objects b = some wallet := hget
          rw [objects_setPolling, Option.map_eq_some_iff] at hget'
          obtain ⟨wallet', -, rfl⟩ := hget'
          simp
    · next heq =>
      have huv : v = u := by simpa using heq
      subst huv
      refine Inv.request_served h.buffered hv hactive h.polling fun a wallet ha hget => ?_
      have haa : active = a := Option.some.inj (hactive.symm.trans ha)
      subst haa
      have hwallet : wallet = ⟨v, noPolling⟩ := Option.some.inj (hget.symm.trans hobject)
      exact hok active wallet hactive hget (by rw [hwallet])

theorem requests_setRequest {n m : Nat} {q r : Request} (h : (s.setRequest n q).requests m = some r) :
    m = n ∧ r = q ∨ m ≠ n ∧ s.requests m = some r := by
  have hget : Function.update s.requests n (some q) m = some r := h
  rw [Function.update_apply] at hget
  split at hget
  · next hm => exact Or.inl ⟨hm, (Option.some.inj hget).symm⟩
  · next hm => exact Or.inr ⟨hm, hget⟩

theorem Inv.stage (h : Inv s) {n : Nat} {u : Str} {old stage : Stage} (hn : s.requests n = some ⟨u, old⟩)
    (hold : old ≠ .served) {object : Option Wallet}
    (hstage : stage = .loading ∧ object = some ⟨u, false⟩ ∨ stage = .failed ∧ object = none ∧ s.MayFail n) :
    Inv ((s.setObject n object).setRequest n ⟨u, stage⟩) := by
  have hready : ∀ v a, s.wallets v = some a → a ≠ n := by
    rintro v a hv rfl
    have hserved := (h.buffered.wallets v a hv).1
    rw [hn] at hserved
    cases hserved
    exact hold rfl
  have hne : stage ≠ .served := by
    rcases hstage with ⟨rfl, -⟩ | ⟨rfl, -⟩ <;> rintro ⟨⟩
  generalize ht : (s.setObject n object).setRequest n ⟨u, stage⟩ = t
  have hrequests : ∀ m r, t.requests m = some r → m = n ∧ r = ⟨u, stage⟩ ∨ m ≠ n ∧ s.requests m = some r := by
    intro m r hr
    rw [← ht] at hr
    exact requests_setRequest hr
  have hself : t.requests n = some ⟨u, stage⟩ := by
    rw [← ht]
    exact Function.update_self n _ _
  have hother : ∀ m, m ≠ n → t.requests m = s.requests m ∧ t.objects m = s.objects m := by
    intro m hm
    rw [← ht]
    exact ⟨Function.update_of_ne hm _ _, Function.update_of_ne hm _ _⟩
  have hobject : t.objects n = object := by
    rw [← ht]
    exact Function.update_self n _ _
  have hwallets : t.wallets = s.wallets := by rw [← ht]; rfl
  have hactive : t.activeWallet = s.activeWallet := by rw [← ht]; rfl
  have hfresh : t.fresh = s.fresh := by rw [← ht]; rfl
  constructor
  · refine ⟨fun m r hr => ?_, fun v a hv => ?_, fun a wallet ha => ?_, fun m v hm => ?_⟩
    · rw [hfresh]
      rcases hrequests m r hr with ⟨rfl, -⟩ | ⟨-, hm⟩
      · exact h.buffered.fresh m _ hn
      · exact h.buffered.fresh m r hm
    · rw [hwallets] at hv
      obtain ⟨hr, ho⟩ := hother a (hready v a hv)
      rw [hr, ho]
      exact h.buffered.wallets v a hv
    · by_cases han : a = n
      · subst han
        rw [hobject] at ha
        rcases hstage with ⟨rfl, rfl⟩ | ⟨-, rfl, -⟩
        · cases ha
          exact Or.inr hself
        · cases ha
      · obtain ⟨hr, ho⟩ := hother a han
        rw [ho] at ha
        rw [hwallets, hr]
        exact h.buffered.objects a wallet ha
    · rcases hrequests m _ hm with ⟨rfl, heq⟩ | ⟨hmn, hm⟩
      · rcases hstage with ⟨rfl, rfl⟩ | ⟨rfl, -⟩
        · cases heq
          exact hobject
        · cases heq
      · rw [(hother m hmn).2]
        exact h.buffered.loading m v hm
  · refine ⟨fun a ha => ?_, fun hnone m r hr => ?_⟩
    · rw [hactive] at ha
      obtain ⟨v, m, hv, hm, hmax⟩ := h.active.some a ha
      have hmn : m ≠ n := by
        rintro rfl
        rw [hn] at hm
        cases hm
        exact hold rfl
      refine ⟨v, m, by rw [hwallets, hv], (hother m hmn).1.trans hm, fun k r hr hserved => ?_⟩
      rcases hrequests k r hr with ⟨-, rfl⟩ | ⟨-, hk⟩
      · exact absurd hserved hne
      · exact hmax k r hk hserved
    · rw [hactive] at hnone
      rcases hrequests m r hr with ⟨-, rfl⟩ | ⟨-, hm⟩
      · exact hne
      · exact h.active.none hnone m r hm
  · intro v a hv ha
    rw [hwallets] at hv
    rw [(hother a (hready v a hv)).2] at ha
    rw [hactive]
    exact h.polling v a hv ha
  · rcases hstage with ⟨rfl, -⟩ | ⟨-, -, ⟨m, hmn, r, hm, hpending⟩ | hpolls⟩
    · exact Or.inl ⟨n, _, hself, Or.inr rfl⟩
    · exact Or.inl ⟨m, r, (hother m hmn).1.trans hm, hpending⟩
    · refine Or.inr fun a wallet ha hget => ?_
      rw [hactive] at ha
      obtain ⟨v, -, hv, -⟩ := h.active.some a ha
      rw [(hother a (hready v a hv)).2] at hget
      exact hpolls a wallet ha hget

theorem Inv.sdkInitWallet (h : Inv s) {n : Nat} {ok : Bool}
    (hok : ok = false → (∃ r, s.requests n = some r ∧ r.stage = .starting) → s.MayFail n) :
    Inv (sdkInitWallet s n ok) := by
  unfold WalletsManager.sdkInitWallet
  split
  · next u hn =>
    cases ok with
    | true => exact h.stage hn (by rintro ⟨⟩) (Or.inl ⟨rfl, rfl⟩)
    | false =>
      have hobject : s.objects n = none := by
        refine Option.eq_none_iff_forall_not_mem.mpr fun wallet hwallet => ?_
        rcases h.buffered.objects n wallet hwallet with hready | hr
        · cases hn.symm.trans (h.buffered.wallets _ n hready).1
        · cases hn.symm.trans hr
      have hsame : s.setObject n none = s := by
        unfold State.setObject
        rw [← hobject, Function.update_eq_self]
      have hinv : Inv ((s.setObject n none).setRequest n ⟨u, .failed⟩) :=
        h.stage hn (by rintro ⟨⟩) (Or.inr ⟨rfl, rfl, hok rfl ⟨_, hn, rfl⟩⟩)
      rw [hsame] at hinv
      exact hinv
  · exact h

theorem Inv.initDataFails (h : Inv s) {n : Nat} {polled : Bool}
    (hok : (∃ r, s.requests n = some r ∧ r.stage = .loading) → polled = false ∧ s.MayFail n) :
    Inv (initDataFails s n polled) := by
  unfold WalletsManager.initDataFails
  split
  · next u hn =>
    obtain ⟨rfl, hmay⟩ := hok ⟨_, hn, rfl⟩
    exact h.stage hn (by rintro ⟨⟩) (Or.inr ⟨rfl, rfl, hmay⟩)
  · exact h

theorem Inv.initData (h : Inv s) {n : Nat}
    (hok : ∀ r, s.requests n = some r → r.stage = .loading → s.MayComplete n r.uniqueIdentifier) :
    Inv (initData s n) := by
  unfold WalletsManager.initData
  split
  · next u hn =>
    obtain ⟨hquiet, hlast, hmissing⟩ := hok _ hn rfl
    have hobject : s.objects n = some ⟨u, false⟩ := h.buffered.loading n u hn
    have hready : ∀ v a, s.wallets v = some a → a ≠ n := by
      rintro v a hv rfl
      cases hn.symm.trans (h.buffered.wallets v a hv).1
    generalize ht : State.setRequest _ n _ = t
    have hrequests : ∀ m r, t.requests m = some r → m = n ∧ r = ⟨u, .served⟩ ∨ m ≠ n ∧ s.requests m = some r := by
      intro m r hr
      rw [← ht] at hr
      exact requests_setRequest hr
    have hself : t.requests n = some ⟨u, .served⟩ := by
      rw [← ht]
      exact Function.update_self n _ _
    have hother : ∀ m, m ≠ n → t.requests m = s.requests m := by
      intro m hm
      rw [← ht]
      exact Function.update_of_ne hm _ _
    have hobjects : t.objects = s.objects := by rw [← ht]; rfl
    have hactive : t.activeWallet = some n := by rw [← ht]; rfl
    have hfresh : t.fresh = s.fresh := by rw [← ht]; rfl
    have hnew : t.wallets u = some n := by
      rw [← ht]
      exact Function.update_self u _ _
    have hold : ∀ v, v ≠ u → t.wallets v = s.wallets v := by
      intro v hv
      rw [← ht]
      exact Function.update_of_ne hv _ _
    have hwallets : ∀ v a, t.wallets v = some a → v = u ∧ a = n ∨ v ≠ u ∧ s.wallets v = some a := by
      intro v a hv
      by_cases hvu : v = u
      · rw [hvu, hnew] at hv
        exact Or.inl ⟨hvu, (Option.some.inj hv).symm⟩
      · exact Or.inr ⟨hvu, (hold v hvu).symm.trans hv⟩
    constructor
    · refine ⟨fun m r hr => ?_, fun v a hv => ?_, fun a wallet ha => ?_, fun m v hm => ?_⟩
      · rw [hfresh]
        rcases hrequests m r hr with ⟨rfl, -⟩ | ⟨-, hm⟩
        · exact h.buffered.fresh m _ hn
        · exact h.buffered.fresh m r hm
      · rw [hobjects]
        rcases hwallets v a hv with ⟨rfl, rfl⟩ | ⟨-, hv⟩
        · exact ⟨hself, false, hobject⟩
        · rw [hother a (hready v a hv)]
          exact h.buffered.wallets v a hv
      · rw [hobjects] at ha
        by_cases han : a = n
        · subst han
          cases hobject.symm.trans ha
          exact Or.inl hnew
        · rw [hother a han]
          rcases h.buffered.objects a wallet ha with hw | hr
          · refine Or.inl ((hold _ ?_).trans hw)
            intro hu
            cases hmissing.symm.trans (hu ▸ hw)
          · exact Or.inr hr
      · rw [hobjects]
        rcases hrequests m _ hm with ⟨-, heq⟩ | ⟨-, hm⟩
        · cases heq
        · exact h.buffered.loading m v hm
    · refine ⟨fun a ha => ?_, fun hnone => ?_⟩
      · cases hactive.symm.trans ha
        refine ⟨u, n, hnew, hself, fun m r hr hserved => ?_⟩
        rcases hrequests m r hr with ⟨rfl, -⟩ | ⟨-, hm⟩
        · exact le_refl m
        · exact (hlast m r hm hserved).le
      · cases hactive.symm.trans hnone
    · intro v a hv ha
      rw [hobjects] at ha
      rcases hwallets v a hv with ⟨-, rfl⟩ | ⟨-, hv⟩
      · exact hactive
      · -- a wallet that is ready is no wallet that loads its data
        obtain ⟨r, hr, hpending⟩ := hquiet a _ ha rfl
        cases hr.symm.trans (h.buffered.wallets v a hv).1
        rcases hpending with hpending | hpending <;> cases hpending
    · refine Or.inr fun a wallet ha hget => ?_
      cases hactive.symm.trans ha
      rw [hobjects] at hget
      cases hobject.symm.trans hget
      rfl
  · exact h

theorem requested_setActive (h : Inv s) {asked : Option Str}
    (hok : ∀ active wallet, s.activeWallet = some active → s.objects active = some wallet →
      asked = some wallet.uniqueIdentifier → wallet.noPolling = false) : Inv (setActive s asked) := by
  cases asked with
  | none => exact h
  | some u => exact h.setActiveWallet hok

theorem Inv.step (networksEnabled : List Str) (h : Inv s) {a : Action} (hok : Undisturbed s a) :
    Inv (step networksEnabled s a) := by
  cases a with
  | fetchWalletsList data => exact h.fetch _
  | setActiveWalletByNetworkTypeAndIdentifier networkType identifier => exact requested_setActive h hok
  | setActiveWalletByUniqueIdentifier uniqueIdentifier => exact requested_setActive h hok
  | sdkInitWallet n ok => exact h.sdkInitWallet hok
  | initData n => exact h.initData hok
  | initDataFails n polled => exact h.initDataFails hok

/-- **The active wallet.** In an undisturbed run, whenever nothing is pending the active wallet is the last one that was
asked for and could be initialised, only it polls, and no identifier has two wallets. -/
theorem settled_of_undisturbed (networksEnabled : List Str) (actions : List Action)
    (hok : Along (step networksEnabled) Undisturbed initial actions) :
    Always (step networksEnabled) SettledOnceDone initial actions :=
  (always_of_along (fun _ _ h hok => h.step networksEnabled hok) initial_inv hok).mono fun _ h => h.settled

/-! ## Going back -/

/-- The first wallet is asked for and initialised, and the second one is asked for. -/
def switchRun : List Action :=
  [.fetchWalletsList [⟨"BTC", "a"⟩, ⟨"BTC", "b"⟩], .setActiveWalletByNetworkTypeAndIdentifier "BTC" "a",
    .sdkInitWallet 0 true, .initData 0, .setActiveWalletByUniqueIdentifier "BTC_b"]

/-- The second wallet is initialised. -/
def completeRun : List Action := [.sdkInitWallet 1 true, .initData 1]

theorem switchRun_settled : Always (step ["BTC".toList]) SettledOnceDone initial (switchRun ++ completeRun) := by
  refine settled_of_undisturbed ["BTC".toList] (switchRun ++ completeRun)
    ⟨trivial, by rintro a wallet ⟨⟩, by rintro ⟨⟩, ?_, ?_, by rintro ⟨⟩, ?_, trivial⟩
  · rintro r hr -
    refine ⟨?_, ?_, rfl⟩
    · rintro (_ | a) wallet ha -
      · exact ⟨_, rfl, Or.inr rfl⟩
      · cases ha
    · rintro (_ | m) r' hr' hserved
      · cases hr'
        cases hserved
      · cases hr'
  · rintro a wallet hactive hobject -
    cases hactive
    cases hobject
    rfl
  · rintro r hr -
    cases hr
    refine ⟨?_, ?_, rfl⟩
    · rintro (_ | _ | a) wallet ha hpolls
      · cases ha
        cases hpolls
      · exact ⟨_, rfl, Or.inr rfl⟩
      · cases ha
    · rintro (_ | _ | m) r' hr' hserved
      · decide
      · cases hr'
        cases hserved
      · cases hr'

/-- The first wallet is asked for again before that. -/
def backRun : List Action := switchRun ++ [.setActiveWalletByUniqueIdentifier "BTC_a"] ++ completeRun

/-- The wallet that was asked for last is not the active one. -/
theorem goes_back : ¬Always (step ["BTC".toList]) SettledOnceDone initial backRun := by
  intro h
  have hsettled : Settled (backRun.foldl (step ["BTC".toList]) initial) := by
    refine h.last ?_
    rintro (_ | _ | _ | n) ⟨r, hr, hstage⟩
    · cases hr
      rcases hstage with hstage | hstage <;> cases hstage
    · cases hr
      rcases hstage with hstage | hstage <;> cases hstage
    · cases hr
      rcases hstage with hstage | hstage <;> cases hstage
    · cases hr
  obtain ⟨a, wallet, ha, hobject, huid⟩ := hsettled.active 2 ⟨"BTC_a", .served⟩ (by
    refine ⟨rfl, by rintro ⟨⟩, ?_⟩
    rintro (_ | _ | _ | n) r hr -
    · decide
    · decide
    · decide
    · cases hr)
  cases ha
  cases hobject
  exact absurd huid (by decide)

end WalletsManager

end WebWallet
