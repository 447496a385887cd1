import Blocktrail.Lib.Runs
import Blocktrail.PhpSdk.CachedWalletSpec
import Blocktrail.PhpSdk.ParentKeys

/-! # Runs of the wallet with its caches

The account keys can be upgraded while parents of theirs are remembered, and the two maps of addresses are filled by
whatever paths are asked for.
-/

open Text Throwing Runs Bitcoin

namespace PhpSdk

variable {Node : Type}

namespace CachedWallet

/-! ## Calls -/

inductive Call (Node : Type)
  | getWalletScriptByPath (path : Str)
  | getAddressByPath (path : Str)
  | getNewAddressPair (new : NewDerivation)
  | upgradeKeyIndex (keyIndex : Nat) (result : Except PhpError (List (ApiKey Node)))

/-- The wallet after a call, whether it returned or threw. -/
def step (php : BitWasp Node) (s : CachedWallet Node) : Call Node → CachedWallet Node
  | .getWalletScriptByPath path => after (getWalletScriptByPath php path) s
  | .getAddressByPath path => after (getAddressByPath php path) s
  | .getNewAddressPair new => after (getNewAddressPair php new) s
  | .upgradeKeyIndex keyIndex result => after (upgradeKeyIndex php keyIndex result) s

/-- The maps of paths and addresses are inverse to each other. -/
def Inverse (s : CachedWallet Node) : Prop := ∀ p a, s.derivations p = some a ↔ s.derivationsByAddress a = some p

/-- A path that is asked for the first time ends well, and has no address of a path asked for before. -/
def NewAddress (php : BitWasp Node) (s : CachedWallet Node) (text : Str) : Prop :=
  ∀ w path, s.view = some w → BIP32Path.ofText text = .ok path → s.derivations path.privatePath.toText = none →
    path.EndsWell ∧ ∀ before ws ws', (s.derivations before).isSome → w.directScript php before = .ok ws →
      w.directScript php path.privatePath.toText = .ok ws' → w.addressOf php ws ≠ w.addressOf php ws'

/-- What the account key of the index should be. -/
def privateAccount (php : BitWasp Node) (s : CachedWallet Node) (keyIndex : Nat) : Option (BIP32Key Node) :=
  s.primaryPrivateKey.bind fun ref => (s.store.keyAt ref).bind fun key =>
    (key.buildKey php (accountBIP32Path keyIndex)).toOption

def Meets (php : BitWasp Node) (s : CachedWallet Node) : Call Node → Prop
  | .getWalletScriptByPath _ => True
  | .getAddressByPath path => NewAddress php s path
  | .getNewAddressPair new => NewAddress php s new.path
  | .upgradeKeyIndex keyIndex _ =>
    -- A known account key of the index is the one of the private key.
    ∀ w key account, s.view = some w → w.primaryPublicKeys (dec keyIndex) = some key →
      s.privateAccount php keyIndex = some account → key = account

/-! ## The invariant -/

structure Inv (hk : HierarchicalKeys Node) (php : BitWasp Node) (s : CachedWallet Node) (w : Wallet Node) : Prop where
  coherent : Coherent php s w
  accounts : AccountKeys hk w
  primaryPrivateKey : ∀ ref, s.primaryPrivateKey = some ref → ∃ n, s.store.keyAt ref = some ⟨n, ⟨false, []⟩⟩
  derived : ∀ p a, s.derivations p = some a → ∃ ws, w.directScript php p = .ok ws ∧ a = w.addressOf php ws
  inverse : s.Inverse

section Runs

variable {hk : HierarchicalKeys Node} {php : BitWasp Node} {s t : CachedWallet Node} {w : Wallet Node}

theorem Inv.later (h : Inv hk php s w) (ht : Coherent php t w) (hlater : Later s t) : Inv hk php t w := by
  obtain ⟨hkeeps, store, pubKeys, rfl⟩ := hlater
  refine ⟨ht, h.accounts, ?_, h.derived, h.inverse⟩
  intro ref href
  obtain ⟨n, hn⟩ := h.primaryPrivateKey ref href
  exact ⟨n, hkeeps ref _ hn⟩

theorem ofText_privatePath {text : Str} {path : BIP32Path} (h : BIP32Path.ofText text = .ok path) :
    BIP32Path.ofText path.privatePath.toText = .ok path.privatePath := by
  have hexp : path.privatePath.Exploded := fun level hmem => BIP32Path.exploded_of_ofText h level hmem
  rw [BIP32Path.ofText, BIP32Path.splitOn_toText hexp]
  rfl

theorem inverse_update {f : Str → Option Str} {g : Str → Option Str} (h : ∀ p a, f p = some a ↔ g a = some p)
    {p₀ a₀ : Str} (hp : f p₀ = none) (ha : g a₀ = none) (p a : Str) :
    Function.update f p₀ (some a₀) p = some a ↔ Function.update g a₀ (some p₀) a = some p := by
  by_cases hpp : p = p₀ <;> by_cases haa : a = a₀
  · subst hpp haa
    simp
  · subst hpp
    have hne : ¬g a = some p := fun hg => by
      rw [(h p a).mpr hg] at hp
      cases hp
    simp [haa, hne, Ne.symm haa]
  · subst haa
    have hne : ¬f p = some a := fun hf => by
      rw [(h p a).mp hf] at ha
      cases ha
    simp [hpp, hne, Ne.symm hpp]
  · simp [hpp, haa, h p a]

theorem computes_getRedeemScriptByPath (hs : Coherent php s w) (path : Str) :
    Computes php w s (getRedeemScriptByPath php path) (fun _ a b => a = b)
      (w.getWalletScriptByPath php path >>= fun ws =>
        .ok (w.addressOf php ws, ws.redeemScript, ws.witnessScript)) := by
  unfold getRedeemScriptByPath
  refine (computes_getWalletScriptByPath hs path).bind fun ws ws' t _ ht _ hws => ?_
  subst hws
  refine Computes.get ?_
  rw [← ht.testnet_eq]
  exact Computes.pure ht rfl

variable (hl : hk.Lawful php) (hpub : ∀ n, hk.isPrivate n = false → php.toPublic n = n)

include hl hpub

theorem inv_getAddressByPath (h : Inv hk php s w) {text : Str} (hnew : NewAddress php s text) :
    Inv hk php (after (getAddressByPath php text) s) w := by
  unfold after getAddressByPath
  rcases hpath : BIP32Path.ofText text with e | path
  · exact h
  rw [call_orRaise_bind_ok rfl, call_get_bind]
  rcases hd : s.derivations path.privatePath.toText with _ | address
  · obtain ⟨hends, hdiffer⟩ := hnew w path h.coherent.view hpath hd
    obtain ⟨t, r, hcall, ht, hlater, hout⟩ := computes_getRedeemScriptByPath h.coherent path.privatePath.toText
    have hinv := h.later ht hlater
    have hresult := hout.eq
    cases r with
    | error e =>
      simp only
      rw [call_bind_error hcall]
      exact hinv
    | ok scripts =>
      simp only
      rw [call_bind_ok hcall]
      obtain ⟨ws, hws, hscripts⟩ := exists_of_bind_ok hresult.symm
      obtain rfl := (Except.ok.inj hscripts)
      have hdirect : w.directScript php path.privatePath.toText = .ok ws := by
        apply toOption_eq_some
        rw [← getWalletScriptByPath_eq_direct hl hpub h.accounts (ofText_privatePath hpath) hends, hws]
        rfl
      obtain ⟨-, store, pubKeys, rfl⟩ := hlater
      have hfree : s.derivationsByAddress (w.addressOf php ws) = none := by
        rcases hb : s.derivationsByAddress (w.addressOf php ws) with _ | before
        · rfl
        · have hbefore := (h.inverse before _).mpr hb
          obtain ⟨ws', hws', haddress⟩ := h.derived before _ hbefore
          exact absurd haddress.symm (hdiffer before ws' ws (by simp [hbefore]) hws' hdirect)
      refine ⟨⟨ht.view, ht.store, ht.primary, ht.blocktrail, ht.pubKeys⟩, h.accounts, hinv.primaryPrivateKey, ?_, ?_⟩
      · intro p a hpa
        replace hpa : Function.update s.derivations path.privatePath.toText (some (w.addressOf php ws)) p =
          some a := hpa
        by_cases hp : p = path.privatePath.toText
        · subst hp
          refine ⟨ws, hdirect, ?_⟩
          simpa using hpa.symm
        · exact h.derived p a (by simpa [hp] using hpa)
      · exact inverse_update h.inverse hd hfree
  · exact h

theorem inv_getNewAddressPair (h : Inv hk php s w) {new : NewDerivation} (hnew : NewAddress php s new.path) :
    Inv hk php (after (getNewAddressPair php new) s) w := by
  unfold after getNewAddressPair
  obtain ⟨t, r, hcall, ht, hlater, -⟩ := computes_getRedeemScriptByPath h.coherent new.path
  have hinv := h.later ht hlater
  cases r with
  | error e =>
    rw [call_bind_error hcall]
    exact hinv
  | ok scripts =>
    rw [call_bind_ok hcall]
    cases hv : verify php new scripts with
    | error e =>
      rw [call_orRaise_bind_error rfl]
      exact hinv
    | ok u =>
      rw [call_orRaise_bind_ok rfl]
      have hnew' : NewAddress php t new.path := by
        intro w' path hview
        obtain ⟨-, store, pubKeys, rfl⟩ := hlater
        rw [ht.view] at hview
        cases hview
        exact hnew w path h.coherent.view
      have hafter := inv_getAddressByPath hl hpub hinv hnew'
      unfold after at hafter
      rw [bind_pure_comp, call_map]
      exact hafter

omit hl hpub

/-! ## Upgrades -/

/-- The second wallet has the keys of the first, and maybe more. -/
structure Extends (w w' : Wallet Node) : Prop where
  testnet : w'.testnet = w.testnet
  isSegwit : w'.isSegwit = w.isSegwit
  primary : ∀ idx key, w.primaryPublicKeys idx = some key → w'.primaryPublicKeys idx = some key
  backup : w'.backupPublicKey = w.backupPublicKey
  blocktrail : ∀ idx key, w.blocktrailPublicKeys idx = some key → w'.blocktrailPublicKeys idx = some key

theorem entry_ok {α : Type} {x : Option α} {a : α} (h : entry x = .ok a) : x = some a := by
  unfold entry at h
  split at h
  · exact congrArg some (Except.ok.inj h)
  · cases h

theorem Extends.getBlocktrailPublicKey {w' : Wallet Node} (h : Extends w w') {path : BIP32Path} {key : BIP32Key Node}
    (hk : PhpSdk.getBlocktrailPublicKey w.blocktrailPublicKeys path = .ok key) :
    PhpSdk.getBlocktrailPublicKey w'.blocktrailPublicKeys path = .ok key := by
  unfold PhpSdk.getBlocktrailPublicKey at hk ⊢
  dsimp only at hk ⊢
  split at hk
  · next key' hsome =>
    rw [h.blocktrail _ key' hsome]
    exact hk
  · cases hk

theorem Extends.directScript {w' : Wallet Node} (h : Extends w w') {text : Str} {ws : WalletScript}
    (hws : w.directScript php text = .ok ws) : w'.directScript php text = .ok ws := by
  unfold Wallet.directScript at hws ⊢
  obtain ⟨path, hpath, hws⟩ := exists_of_bind_ok hws
  obtain ⟨key, hkey, hws⟩ := exists_of_bind_ok hws
  obtain ⟨account, haccount, hkey⟩ := exists_of_bind_ok hkey
  rw [hpath, ok_bind, h.primary _ account (entry_ok haccount)]
  show (account.buildKey php path >>= _) = _
  rw [hkey, ok_bind]
  unfold Wallet.getWalletScriptFromKey at hws ⊢
  dsimp only at hws ⊢
  obtain ⟨blocktrail, hblocktrail, hws⟩ := exists_of_bind_ok hws
  rw [h.getBlocktrailPublicKey hblocktrail, ok_bind, h.backup, h.isSegwit]
  exact hws

theorem Extends.addressOf {w w' : Wallet Node} (h : Extends w w') (ws : WalletScript) :
    w'.addressOf php ws = w.addressOf php ws := by
  rw [Wallet.addressOf, Wallet.addressOf, h.testnet]

theorem Inv.extend {w' : Wallet Node} (h : Inv hk php s w) (hext : Extends w w') (ht : Coherent php t w')
    (hacc : AccountKeys hk w')
    (hprivate : ∀ ref, t.primaryPrivateKey = some ref → ∃ n, t.store.keyAt ref = some ⟨n, ⟨false, []⟩⟩)
    (hd : t.derivations = s.derivations) (hda : t.derivationsByAddress = s.derivationsByAddress) :
    Inv hk php t w' := by
  refine ⟨ht, hacc, hprivate, ?_, ?_⟩
  · intro p a hpa
    rw [hd] at hpa
    obtain ⟨ws, hws, ha⟩ := h.derived p a hpa
    exact ⟨ws, hext.directScript hws, ha.trans (hext.addressOf ws).symm⟩
  · unfold Inverse
    rw [hd, hda]
    exact h.inverse

theorem inv_addBlocktrailKey (h : Inv hk php s w) (pubKey : ApiKey Node) :
    ∃ w', Inv hk php (call (addBlocktrailKey pubKey) s).2 w' := by
  unfold addBlocktrailKey
  rw [call_get_bind]
  rcases hb : s.blocktrailPublicKeys pubKey.keyIndex with _ | ref
  · simp only
    rcases pubKey.key with e | key
    · rw [call_orRaise_bind_error rfl]
      exact ⟨w, h⟩
    rw [call_orRaise_bind_ok rfl]
    rcases BIP32Path.ofText pubKey.path with e | path
    · rw [call_orRaise_bind_error rfl]
      exact ⟨w, h⟩
    rw [call_orRaise_bind_ok rfl]
    have hnone : w.blocktrailPublicKeys pubKey.keyIndex = none := by
      rw [h.coherent.blocktrail_eq, hb]
      rfl
    have hkeeps := KeyStore.keeps_push s.store ⟨key, path⟩
    have ht := (h.coherent.withStore hkeeps (KeyStore.transparent_push h.coherent.store ⟨key, path⟩)).setBlocktrail
      pubKey.keyIndex (KeyStore.keyAt_push s.store ⟨key, path⟩)
    have hext : Extends w { w with
        blocktrailPublicKeys := Function.update w.blocktrailPublicKeys pubKey.keyIndex (some ⟨key, path⟩) } := by
      refine ⟨rfl, rfl, fun idx key' hk => hk, rfl, ?_⟩
      intro idx key' hkey'
      by_cases hidx : idx = pubKey.keyIndex
      · rw [hidx, hnone] at hkey'
        cases hkey'
      · simpa [hidx] using hkey'
    refine ⟨_, h.extend hext ht h.accounts ?_ rfl rfl⟩
    intro ref href
    obtain ⟨n, hn⟩ := h.primaryPrivateKey ref href
    exact ⟨n, hkeeps ref _ hn⟩
  · exact ⟨w, h⟩

theorem inv_addBlocktrailKeys (pubKeys : List (ApiKey Node)) (h : Inv hk php s w) :
    ∃ w', Inv hk php (call (addBlocktrailKeys pubKeys) s).2 w' := by
  induction pubKeys generalizing s w with
  | nil => exact ⟨w, h⟩
  | cons pubKey pubKeys ih =>
    obtain ⟨w', h'⟩ := inv_addBlocktrailKey h pubKey
    unfold addBlocktrailKeys
    rcases hcall : call (addBlocktrailKey pubKey) s with ⟨e | u, t⟩
    · rw [call_bind_error hcall]
      rw [hcall] at h'
      exact ⟨w', h'⟩
    · rw [call_bind_ok hcall]
      rw [hcall] at h'
      exact ih h'

theorem buildKey_account {php : BitWasp Node} {n : Node} (k : Nat) {key : BIP32Key Node}
    (h : (⟨n, ⟨false, []⟩⟩ : BIP32Key Node).buildKey php (accountBIP32Path k) = .ok key) :
    ∃ m, key = ⟨php.toPublic m, accountBIP32Path k⟩ := by
  have hb := buildKey_below php n (b := false) (c := true) (fun _ => rfl) [] [dec k ++ [apostrophe]]
  rw [List.nil_append] at hb
  rw [accountBIP32Path, hb] at h
  obtain ⟨m, -, hkey⟩ := exists_of_bind_ok h
  exact ⟨m, (Except.ok.inj hkey).symm⟩

include hl

theorem inv_upgradeKeyIndex (h : Inv hk php s w) {keyIndex : Nat} {result : Except PhpError (List (ApiKey Node))}
    (hmeets : Meets php s (.upgradeKeyIndex keyIndex result)) :
    ∃ w', Inv hk php (after (upgradeKeyIndex php keyIndex result) s) w' := by
  unfold after upgradeKeyIndex
  rw [call_get_bind]
  rcases hp : s.primaryPrivateKey with _ | ref
  · exact ⟨w, h⟩
  simp only
  obtain ⟨n, hn⟩ := h.primaryPrivateKey ref hp
  have hexp : (accountBIP32Path keyIndex).Exploded := by
    intro level hmem
    obtain rfl := List.mem_singleton.mp hmem
    simp only [List.mem_append, List.mem_singleton, not_or]
    exact ⟨slash_not_mem_dec keyIndex, by decide⟩
  obtain ⟨t, r, hcall, ht, hlater, hout⟩ := computes_buildKey h.coherent hn hexp
  have hinv := h.later ht hlater
  generalize hx : (⟨n, ⟨false, []⟩⟩ : BIP32Key Node).buildKey php (accountBIP32Path keyIndex) = x at hout
  cases hout with
  | error e =>
    rw [call_bind_error hcall]
    exact ⟨w, hinv⟩
  | @ok ref' key hholds =>
    rw [call_bind_ok hcall]
    cases result with
    | error e =>
      rw [call_orRaise_bind_error rfl]
      exact ⟨w, hinv⟩
    | ok pubKeys =>
      rw [call_orRaise_bind_ok rfl, call_bind_ok (call_modify _ _)]
      obtain ⟨m, rfl⟩ := buildKey_account keyIndex hx
      have hsame : ∀ old, w.primaryPublicKeys (dec keyIndex) = some old →
          old = ⟨php.toPublic m, accountBIP32Path keyIndex⟩ := by
        intro old hold
        apply hmeets w old _ h.coherent.view hold
        rw [privateAccount, hp, Option.bind_some, hn, Option.bind_some, hx]
        rfl
      have hext : Extends w { w with
          primaryPublicKeys := Function.update w.primaryPublicKeys (dec keyIndex)
            (some ⟨php.toPublic m, accountBIP32Path keyIndex⟩)
          keyIndex := keyIndex } := by
        refine ⟨rfl, rfl, ?_, rfl, fun idx key hk => hk⟩
        intro idx key hkey
        by_cases hidx : idx = dec keyIndex
        · rw [hidx] at hkey ⊢
          simp [hsame key hkey]
        · simpa [hidx] using hkey
      have hacc : AccountKeys hk { w with
          primaryPublicKeys := Function.update w.primaryPublicKeys (dec keyIndex)
            (some ⟨php.toPublic m, accountBIP32Path keyIndex⟩)
          keyIndex := keyIndex } := by
        intro idx key hkey
        by_cases hidx : idx = dec keyIndex
        · simp only [hidx, Function.update_self, Option.some_inj] at hkey
          subst hidx hkey
          exact ⟨dec_ne_nil keyIndex, rfl, hl.isPrivate_toPublic m⟩
        · exact h.accounts idx key (by simpa [hidx] using hkey)
      exact inv_addBlocktrailKeys pubKeys
        (hinv.extend hext (ht.setAccount keyIndex hholds hsame) hacc hinv.primaryPrivateKey rfl rfl)

end Runs

/-! ## Runs -/

/-- A wallet as it is made: nothing remembered yet, account keys below their indexes, and a private root. -/
structure Started (hk : HierarchicalKeys Node) (php : BitWasp Node) (s : CachedWallet Node) (w : Wallet Node) : Prop
    where
  view : s.view = some w
  store : s.store.Transparent php
  primary : ∀ idx ref, s.primaryPublicKeys idx = some ref → (s.store.keyAt ref).isSome
  blocktrail : ∀ idx ref, s.blocktrailPublicKeys idx = some ref → (s.store.keyAt ref).isSome
  accounts : AccountKeys hk w
  primaryPrivateKey : ∀ ref, s.primaryPrivateKey = some ref → ∃ n, s.store.keyAt ref = some ⟨n, ⟨false, []⟩⟩
  pubKeys : s.pubKeys = []
  derivations : ∀ path, s.derivations path = none
  derivationsByAddress : ∀ address, s.derivationsByAddress address = none

variable {hk : HierarchicalKeys Node} {php : BitWasp Node}

theorem Started.inv {s : CachedWallet Node} {w : Wallet Node} (h : Started hk php s w) : Inv hk php s w where
  coherent := ⟨h.view, h.store, h.primary, h.blocktrail, by simp [h.pubKeys]⟩
  accounts := h.accounts
  primaryPrivateKey := h.primaryPrivateKey
  derived := by simp [h.derivations]
  inverse := by simp [Inverse, h.derivations, h.derivationsByAddress]

/-- The scripts of every path that ends well are those of the account key. -/
def SameScripts (php : BitWasp Node) (s : CachedWallet Node) : Prop :=
  ∀ w text path, s.view = some w → BIP32Path.ofText text = .ok path → path.EndsWell →
    (call (getWalletScriptByPath php text) s).1.toOption = (w.directScript php text).toOption

theorem inv_step (hl : hk.Lawful php) (hpub : ∀ n, hk.isPrivate n = false → php.toPublic n = n)
    {s : CachedWallet Node} (h : ∃ w, Inv hk php s w) {c : Call Node} (hmeets : Meets php s c) :
    ∃ w, Inv hk php (step php s c) w := by
  obtain ⟨w, h⟩ := h
  cases c with
  | getWalletScriptByPath path =>
    obtain ⟨t, r, hcall, ht, hlater, -⟩ := computes_getWalletScriptByPath h.coherent path
    refine ⟨w, ?_⟩
    rw [step, after, hcall]
    exact h.later ht hlater
  | getAddressByPath path => exact ⟨w, inv_getAddressByPath hl hpub h hmeets⟩
  | getNewAddressPair new => exact ⟨w, inv_getNewAddressPair hl hpub h hmeets⟩
  | upgradeKeyIndex keyIndex result => exact inv_upgradeKeyIndex hl h hmeets

theorem Inv.sameScripts (hl : hk.Lawful php) (hpub : ∀ n, hk.isPrivate n = false → php.toPublic n = n)
    {s : CachedWallet Node} {w : Wallet Node} (h : Inv hk php s w) : SameScripts php s := by
  intro w' text path hview hpath hends
  rw [h.coherent.view] at hview
  cases hview
  obtain ⟨t, r, hcall, -, -, hout⟩ := computes_getWalletScriptByPath h.coherent text
  rw [hcall, hout.eq]
  exact getWalletScriptByPath_eq_direct hl hpub h.accounts hpath hends

def sampleStart : CachedWallet SampleNode where
  store :=
    [⟨⟨⟨[1], [HIGHEST_BIT], false⟩, accountBIP32Path 0⟩, []⟩,
      ⟨⟨⟨[2], [], false⟩, ⟨true, []⟩⟩, []⟩,
      ⟨⟨⟨[3], [HIGHEST_BIT], false⟩, accountBIP32Path 0⟩, []⟩,
      ⟨⟨⟨[1], [], true⟩, ⟨false, []⟩⟩, []⟩]
  network := "bitcoin".toList
  testnet := false
  isSegwit := false
  keyIndex := 0
  chainIndex := 0
  changeIndex := 0
  primaryPrivateKey := some 3
  primaryPublicKeys := Function.update (fun _ => none) "0".toList (some 0)
  backupPublicKey := 1
  blocktrailPublicKeys := Function.update (fun _ => none) "0".toList (some 2)
  pubKeys := []
  derivations := fun _ => none
  derivationsByAddress := fun _ => none

theorem sampleStart_started : ∃ w, Started sampleKeys sampleBitWasp sampleStart w := by
  have hfresh : ∀ object ∈ sampleStart.store, object.derivations = [] := by decide
  have hprimary : ∀ idx ref, sampleStart.primaryPublicKeys idx = some ref → idx = "0".toList ∧ ref = 0 := by
    intro idx ref h
    simp only [sampleStart, Function.update_apply] at h
    split at h
    · next hidx => exact ⟨hidx, (Option.some.inj h).symm⟩
    · cases h
  have hblocktrail : ∀ idx ref, sampleStart.blocktrailPublicKeys idx = some ref → ref = 2 := by
    intro idx ref h
    simp only [sampleStart, Function.update_apply] at h
    split at h
    · exact (Option.some.inj h).symm
    · cases h
  refine ⟨_, rfl, ?_, ?_, ?_, ?_, ?_, rfl, fun _ => rfl, fun _ => rfl⟩
  · intro ref object ho text derived hd
    rw [hfresh object (List.mem_of_getElem? ho)] at hd
    cases hd
  · intro idx ref h
    obtain ⟨rfl, rfl⟩ := hprimary idx ref h
    rfl
  · intro idx ref h
    obtain rfl := hblocktrail idx ref h
    rfl
  · intro idx key h
    obtain ⟨ref, href, hkey⟩ := Option.bind_eq_some_iff.mp h
    obtain ⟨rfl, rfl⟩ := hprimary idx ref href
    cases hkey
    exact ⟨by decide, by decide, rfl⟩
  · rintro ref ⟨⟩
    exact ⟨_, rfl⟩

theorem sampleKeys_toPublic (n : SampleNode) (hn : sampleKeys.isPrivate n = false) : sampleBitWasp.toPublic n = n := by
  obtain ⟨seed, path, isPrivate⟩ := n
  cases hn
  rfl

/-- The address of a path, from the account key itself. -/
def sampleAddress (s : CachedWallet SampleNode) (path : Str) : Option Str :=
  s.view.bind fun w => (w.directScript sampleBitWasp path).toOption.map (w.addressOf sampleBitWasp)

theorem newAddress_of_known {s : CachedWallet SampleNode} {text : Str} {path : BIP32Path} (known : List Str)
    (hpath : BIP32Path.ofText text = .ok path) (hends : path.EndsWell)
    (hknown : ∀ before, (s.derivations before).isSome → before ∈ known)
    (hnew : ∀ before ∈ known, sampleAddress s before ≠ sampleAddress s path.privatePath.toText) :
    NewAddress sampleBitWasp s text := by
  intro w path' hview hpath' _
  rw [hpath] at hpath'
  cases hpath'
  refine ⟨hends, fun before ws ws' hbefore hws hws' hsame => hnew before (hknown before hbefore) ?_⟩
  unfold sampleAddress
  rw [hview, Option.bind_some, Option.bind_some, hws, hws']
  exact congrArg some hsame

theorem mem_of_isSome_update {f : Str → Option Str} {known : List Str} (h : ∀ x, (f x).isSome → x ∈ known) (k : Str)
    (v : Option Str) (x : Str) (hx : (Function.update f k v x).isSome) : x ∈ k :: known := by
  rw [Function.update_apply] at hx
  split at hx
  · next he => exact he ▸ List.mem_cons_self
  · exact List.mem_cons_of_mem k (h x hx)

theorem meets_of_unknown {s : CachedWallet SampleNode} {keyIndex : Nat}
    (h : (s.view.bind fun w => w.primaryPublicKeys (dec keyIndex)).isSome = false)
    (result : Except PhpError (List (ApiKey SampleNode))) : Meets sampleBitWasp s (.upgradeKeyIndex keyIndex result) := by
  intro w key account hview hkey _
  rw [hview, Option.bind_some, hkey] at h
  cases h

/-- Two addresses, and the scripts of a path. After an upgrade of the key index, an address of the new account. -/
def sampleCalls : List (Call SampleNode) :=
  [.getAddressByPath "m/0'/0/5".toList, .getWalletScriptByPath "M/0'/0/6".toList,
    .getAddressByPath "M/0'/0/7".toList,
    .upgradeKeyIndex 1 (.ok [⟨"1".toList, .ok ⟨[3], [HIGHEST_BIT + 1], false⟩, "M/1'".toList⟩]),
    .getAddressByPath "m/1'/0/0".toList]

end CachedWallet

end PhpSdk
