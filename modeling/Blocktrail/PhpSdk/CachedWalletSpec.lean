import Blocktrail.PhpSdk.CachedWallet

/-! # The caches are transparent

The wallet with its caches computes what the wallet without them computes from the same keys.
-/

open Text Throwing Bitcoin

namespace PhpSdk

variable {Node : Type}

namespace CachedWallet

/-! ## The wallet that the objects make up -/

/-- The wallet without caches. -/
def view (s : CachedWallet Node) : Option (Wallet Node) :=
  (s.store.keyAt s.backupPublicKey).map fun backupPublicKey =>
    { network := s.network
      testnet := s.testnet
      isSegwit := s.isSegwit
      keyIndex := s.keyIndex
      chainIndex := s.chainIndex
      changeIndex := s.changeIndex
      primaryPublicKeys := fun idx => (s.primaryPublicKeys idx).bind s.store.keyAt
      backupPublicKey := backupPublicKey
      blocktrailPublicKeys := fun idx => (s.blocktrailPublicKeys idx).bind s.store.keyAt }

/-- What is remembered of a wallet is so. -/
structure Coherent (php : BitWasp Node) (s : CachedWallet Node) (w : Wallet Node) : Prop where
  view : s.view = some w
  store : s.store.Transparent php
  primary : ∀ idx ref, s.primaryPublicKeys idx = some ref → (s.store.keyAt ref).isSome
  blocktrail : ∀ idx ref, s.blocktrailPublicKeys idx = some ref → (s.store.keyAt ref).isSome
  pubKeys : ∀ text ref, s.pubKeys.lookup text = some ref →
    ∃ (path : BIP32Path) (account key : BIP32Key Node), path.Exploded ∧ path.toText = text ∧
      w.primaryPublicKeys path.getKeyIndex = some account ∧ account.buildKey php path = .ok key ∧
        s.store.keyAt ref = some key

/-- Only the caches of keys have changed, and no key is lost. -/
structure Later (s t : CachedWallet Node) : Prop where
  keeps : KeyStore.Keeps s.store t.store
  same : ∃ store pubKeys, t = { s with store := store, pubKeys := pubKeys }

theorem Later.refl (s : CachedWallet Node) : Later s s := ⟨KeyStore.Keeps.refl _, s.store, s.pubKeys, rfl⟩

theorem Later.trans {s t u : CachedWallet Node} (h : Later s t) (h' : Later t u) : Later s u := by
  obtain ⟨hk, store, pubKeys, rfl⟩ := h
  obtain ⟨hk', store', pubKeys', rfl⟩ := h'
  exact ⟨hk.trans hk', store', pubKeys', rfl⟩

/-- A result of the wallet with caches and of the one without. -/
inductive Outcome {α β : Type} (rel : α → β → Prop) : Except PhpError α → Except PhpError β → Prop
  | error (e : PhpError) : Outcome rel (.error e) (.error e)
  | ok {a : α} {b : β} (h : rel a b) : Outcome rel (.ok a) (.ok b)

theorem Outcome.eq {α : Type} {r x : Except PhpError α} (h : Outcome (fun a b => a = b) r x) : r = x := by
  cases h with
  | error e => rfl
  | ok h => rw [h]

/-- From `s`, the method comes to what `x` is, and keeps the caches right. -/
def Computes {α β : Type} (php : BitWasp Node) (w : Wallet Node) (s : CachedWallet Node) (m : CachedMethod Node α)
    (rel : KeyStore Node → α → β → Prop) (x : Except PhpError β) : Prop :=
  ∃ t r, call m s = (r, t) ∧ Coherent php t w ∧ Later s t ∧ Outcome (rel t.store) r x

/-- The object holds the key. -/
def Holds (store : KeyStore Node) (ref : Nat) (key : BIP32Key Node) : Prop := store.keyAt ref = some key

variable {php : BitWasp Node} {w : Wallet Node} {s : CachedWallet Node}

theorem Computes.bind {α β γ δ : Type} {m : CachedMethod Node α} {k : α → CachedMethod Node γ}
    {rel : KeyStore Node → α → β → Prop} {rel' : KeyStore Node → γ → δ → Prop} {x : Except PhpError β}
    {f : β → Except PhpError δ} (hm : Computes php w s m rel x)
    (hk : ∀ a b t, x = .ok b → Coherent php t w → Later s t → rel t.store a b → Computes php w t (k a) rel' (f b)) :
    Computes php w s (m >>= k) rel' (x >>= f) := by
  obtain ⟨t, r, hcall, ht, hlater, hout⟩ := hm
  cases hout with
  | error e => exact ⟨t, .error e, call_bind_error hcall, ht, hlater, .error e⟩
  | ok h =>
    obtain ⟨u, r', hcall', hu, hlater', hout'⟩ := hk _ _ t rfl ht hlater h
    exact ⟨u, r', (call_bind_ok hcall).trans hcall', hu, hlater.trans hlater', hout'⟩

theorem Computes.pure {α β : Type} {rel : KeyStore Node → α → β → Prop} (hs : Coherent php s w) {a : α} {b : β}
    (h : rel s.store a b) : Computes php w s (Pure.pure a) rel (Except.ok b) :=
  ⟨s, .ok a, rfl, hs, Later.refl s, .ok h⟩

theorem Computes.orRaise {β : Type} (hs : Coherent php s w) (x : Except PhpError β) :
    Computes php w s (orRaise x) (fun _ a b => a = b) x := by
  refine ⟨s, x, call_orRaise x s, hs, Later.refl s, ?_⟩
  cases x with
  | error e => exact .error e
  | ok b => exact .ok rfl

theorem Computes.get {β γ : Type} {k : CachedWallet Node → CachedMethod Node γ} {rel : KeyStore Node → γ → β → Prop}
    {x : Except PhpError β} (h : Computes php w s (k s) rel x) : Computes php w s (MonadState.get >>= k) rel x := by
  obtain ⟨t, r, hcall, h⟩ := h
  exact ⟨t, r, (call_get_bind k s).trans hcall, h⟩

/-! ## Keys -/

theorem bind_keyAt {store store' : KeyStore Node} (hk : KeyStore.Keeps store store') {refs : Str → Option Nat}
    (h : ∀ idx ref, refs idx = some ref → (store.keyAt ref).isSome) :
    (fun idx => (refs idx).bind store'.keyAt) = fun idx => (refs idx).bind store.keyAt := by
  funext idx
  rcases hr : refs idx with _ | ref
  · rfl
  · obtain ⟨key, hkey⟩ := Option.isSome_iff_exists.mp (h idx ref hr)
    simp [hkey, hk ref key hkey]

theorem Coherent.withStore (hs : Coherent php s w) {store : KeyStore Node} (hk : KeyStore.Keeps s.store store)
    (ht : store.Transparent php) : Coherent php { s with store := store } w := by
  have hsome : ∀ ref, (s.store.keyAt ref).isSome → (store.keyAt ref).isSome := by
    intro ref h
    obtain ⟨key, hkey⟩ := Option.isSome_iff_exists.mp h
    simp [hk ref key hkey]
  refine ⟨?_, ht, fun idx ref h => hsome ref (hs.primary idx ref h), fun idx ref h => hsome ref (hs.blocktrail idx ref h),
    ?_⟩
  · rw [← hs.view]
    unfold CachedWallet.view
    dsimp only
    rw [bind_keyAt hk hs.primary, bind_keyAt hk hs.blocktrail]
    rcases hb : s.store.keyAt s.backupPublicKey with _ | b
    · have hview := hs.view
      unfold CachedWallet.view at hview
      rw [hb] at hview
      cases hview
    · rw [hk _ b hb]
  · intro text ref h
    obtain ⟨path, account, key, hp, htext, ha, hb, hkey⟩ := hs.pubKeys text ref h
    exact ⟨path, account, key, hp, htext, ha, hb, hk ref key hkey⟩

theorem Coherent.remember (hs : Coherent php s w) {path : BIP32Path} {account key : BIP32Key Node} {ref : Nat}
    (hp : path.Exploded) (ha : w.primaryPublicKeys path.getKeyIndex = some account)
    (hb : account.buildKey php path = .ok key) (hkey : s.store.keyAt ref = some key) :
    Coherent php { s with pubKeys := (path.toText, ref) :: s.pubKeys } w := by
  refine ⟨hs.view, hs.store, hs.primary, hs.blocktrail, ?_⟩
  intro text r h
  rw [List.lookup_cons] at h
  by_cases htext : text = path.toText
  · subst htext
    simp only [beq_self_eq_true] at h
    cases h
    exact ⟨path, account, key, hp, rfl, ha, hb, hkey⟩
  · simp only [beq_eq_false_iff_ne.mpr htext] at h
    exact hs.pubKeys text r h

theorem Coherent.setBlocktrail (hs : Coherent php s w) (idx : Str) {ref : Nat} {key : BIP32Key Node}
    (hkey : s.store.keyAt ref = some key) :
    Coherent php { s with blocktrailPublicKeys := Function.update s.blocktrailPublicKeys idx (some ref) }
      { w with blocktrailPublicKeys := Function.update w.blocktrailPublicKeys idx (some key) } := by
  have hview := hs.view
  unfold CachedWallet.view at hview
  obtain ⟨b, hb, rfl⟩ := Option.map_eq_some_iff.mp hview
  refine ⟨?_, hs.store, hs.primary, ?_, hs.pubKeys⟩
  · unfold CachedWallet.view
    simp only [hb, Option.map_some, Option.some_inj, Wallet.mk.injEq, true_and]
    funext idx'
    by_cases h : idx' = idx
    · subst h
      simp [hkey]
    · simp [h]
  · intro idx' ref' href
    by_cases h : idx' = idx
    · subst h
      simp only [Function.update_self, Option.some_inj] at href
      subst href
      simp [hkey]
    · simp only [ne_eq, h, not_false_eq_true, Function.update_of_ne] at href
      exact hs.blocktrail idx' ref' href

theorem Coherent.setAccount (hs : Coherent php s w) (keyIndex : Nat) {ref : Nat} {key : BIP32Key Node}
    (hkey : s.store.keyAt ref = some key) (hsame : ∀ old, w.primaryPublicKeys (dec keyIndex) = some old → old = key) :
    Coherent php
      { s with
        primaryPublicKeys := Function.update s.primaryPublicKeys (dec keyIndex) (some ref)
        keyIndex := keyIndex }
      { w with
        primaryPublicKeys := Function.update w.primaryPublicKeys (dec keyIndex) (some key)
        keyIndex := keyIndex } := by
  have hview := hs.view
  unfold CachedWallet.view at hview
  obtain ⟨b, hb, rfl⟩ := Option.map_eq_some_iff.mp hview
  refine ⟨?_, hs.store, ?_, hs.blocktrail, ?_⟩
  · unfold CachedWallet.view
    simp only [hb, Option.map_some, Option.some_inj, Wallet.mk.injEq, true_and, and_true]
    funext idx'
    by_cases h : idx' = dec keyIndex
    · subst h
      simp [hkey]
    · simp [h]
  · intro idx' ref' href
    by_cases h : idx' = dec keyIndex
    · subst h
      simp only [Function.update_self, Option.some_inj] at href
      subst href
      simp [hkey]
    · simp only [ne_eq, h, not_false_eq_true, Function.update_of_ne] at href
      exact hs.primary idx' ref' href
  · intro text ref' hr
    obtain ⟨path, account, key', hp, htext, ha, hbuild, hkey'⟩ := hs.pubKeys text ref' hr
    refine ⟨path, account, key', hp, htext, ?_, hbuild, hkey'⟩
    by_cases h : path.getKeyIndex = dec keyIndex
    · rw [h] at ha ⊢
      simp [hsame account ha]
    · simpa [h] using ha

theorem Coherent.holds_backup (hs : Coherent php s w) : Holds s.store s.backupPublicKey w.backupPublicKey := by
  have h := hs.view
  unfold CachedWallet.view at h
  obtain ⟨b, hb, rfl⟩ := Option.map_eq_some_iff.mp h
  exact hb

theorem Coherent.primary_eq (hs : Coherent php s w) (idx : Str) :
    w.primaryPublicKeys idx = (s.primaryPublicKeys idx).bind s.store.keyAt := by
  have h := hs.view
  unfold CachedWallet.view at h
  obtain ⟨b, -, rfl⟩ := Option.map_eq_some_iff.mp h
  rfl

theorem Coherent.blocktrail_eq (hs : Coherent php s w) (idx : Str) :
    w.blocktrailPublicKeys idx = (s.blocktrailPublicKeys idx).bind s.store.keyAt := by
  have h := hs.view
  unfold CachedWallet.view at h
  obtain ⟨b, -, rfl⟩ := Option.map_eq_some_iff.mp h
  rfl

theorem Coherent.isSegwit_eq (hs : Coherent php s w) : w.isSegwit = s.isSegwit := by
  have h := hs.view
  unfold CachedWallet.view at h
  obtain ⟨b, -, rfl⟩ := Option.map_eq_some_iff.mp h
  rfl

theorem Coherent.testnet_eq (hs : Coherent php s w) : w.testnet = s.testnet := by
  have h := hs.view
  unfold CachedWallet.view at h
  obtain ⟨b, -, rfl⟩ := Option.map_eq_some_iff.mp h
  rfl

/-! ## The methods, one by one -/

theorem computes_buildKey (hs : Coherent php s w) {ref : Nat} {k : BIP32Key Node} (hk : Holds s.store ref k)
    {path : BIP32Path} (hp : path.Exploded) :
    Computes php w s (buildKey php ref path) Holds (k.buildKey php path) := by
  unfold Computes buildKey
  rw [call_get_bind]
  rcases hb : k.buildKey php path with e | key
  · rw [KeyStore.buildKey_error hs.store hk hp hb]
    exact ⟨s, .error e, rfl, hs, Later.refl s, .error e⟩
  · obtain ⟨d, store, hbuild, ht, hkeeps, hd, -⟩ := KeyStore.buildKey_ok hs.store hk hp hb
    rw [hbuild]
    exact ⟨{ s with store := store }, .ok d, rfl, hs.withStore hkeeps ht, ⟨hkeeps, store, s.pubKeys, rfl⟩, .ok hd⟩

theorem computes_keyOf (hs : Coherent php s w) {ref : Nat} {k : BIP32Key Node} (hk : Holds s.store ref k) :
    Computes php w s (keyOf ref) (fun _ a b => a = b) (.ok k) := by
  unfold Computes keyOf
  rw [call_get_bind]
  have hk' : s.store.keyAt ref = some k := hk
  rw [hk']
  exact ⟨s, .ok k, rfl, hs, Later.refl s, .ok rfl⟩

theorem computes_keyOf_bind {β γ : Type} {ref : Nat} {key : BIP32Key Node} (hk : Holds s.store ref key)
    {k : BIP32Key Node → CachedMethod Node γ} {rel : KeyStore Node → γ → β → Prop} {x : Except PhpError β}
    (h : Computes php w s (k key) rel x) : Computes php w s (keyOf ref >>= k) rel x := by
  have hcall : call (keyOf ref) s = (.ok key, s) := by
    have hk' : s.store.keyAt ref = some key := hk
    rw [keyOf, call_get_bind, hk']
    rfl
  obtain ⟨t, r, hr, h⟩ := h
  exact ⟨t, r, (call_bind_ok hcall).trans hr, h⟩

theorem computes_buildKey_keyOf (hs : Coherent php s w) {ref : Nat} {k : BIP32Key Node} (hk : Holds s.store ref k)
    {path : BIP32Path} (hp : path.Exploded) :
    Computes php w s (buildKey php ref path >>= keyOf) (fun _ a b => a = b) (k.buildKey php path) := by
  have h : Computes php w s (buildKey php ref path >>= keyOf) (fun _ a b => a = b) (k.buildKey php path >>= Except.ok) :=
    (computes_buildKey hs hk hp).bind fun a b t _ ht _ hab => computes_keyOf ht hab
  rwa [show (k.buildKey php path >>= Except.ok) = k.buildKey php path from bind_pure _] at h

theorem computes_entry (hs : Coherent php s w) (idx : Str) :
    Computes php w s (orRaise (entry (s.primaryPublicKeys idx))) Holds (entry (w.primaryPublicKeys idx)) := by
  rw [hs.primary_eq idx]
  rcases hr : s.primaryPublicKeys idx with _ | ref
  · exact ⟨s, .error _, rfl, hs, Later.refl s, .error _⟩
  · obtain ⟨key, hkey⟩ := Option.isSome_iff_exists.mp (hs.primary idx ref hr)
    rw [Option.bind_some, hkey]
    exact ⟨s, .ok ref, rfl, hs, Later.refl s, .ok hkey⟩

theorem exploded_parent {path parent : BIP32Path} (hp : path.Exploded) (h : path.parent = .ok parent) :
    parent.Exploded := by
  unfold BIP32Path.parent at h
  split at h
  · cases h
  · cases h
    intro level hmem
    exact hp level (List.mem_of_mem_dropLast hmem)

theorem computes_getParentPublicKey (hs : Coherent php s w) {path : BIP32Path} (hp : path.Exploded) :
    Computes php w s (getParentPublicKey php path) (fun store => Option.Rel (Holds store))
      (w.getParentPublicKey php path) := by
  unfold getParentPublicKey Wallet.getParentPublicKey
  refine (Computes.orRaise hs path.parent).bind fun a parent t hparent ht hlater hab => ?_
  subst hab
  dsimp only
  have hexp : a.publicPath.Exploded := fun level hmem => exploded_parent hp hparent level hmem
  by_cases hcount : a.publicPath.count ≤ 2
  · rw [if_pos hcount, if_pos hcount]
    exact Computes.pure ht .none
  rw [if_neg hcount, if_neg hcount]
  by_cases hhard : a.publicPath.isHardened = true
  · rw [if_pos hhard, if_pos hhard]
    exact Computes.pure ht .none
  rw [if_neg hhard, if_neg hhard]
  apply Computes.get
  rcases hl : t.pubKeys.lookup a.publicPath.toText with _ | ref
  · have hassoc : ∀ x : Except PhpError (BIP32Key Node),
        some <$> (x >>= fun key => key.buildKey php a.publicPath) =
          x >>= fun account => account.buildKey php a.publicPath >>= fun key => Except.ok (some key) := by
      rintro (e | account)
      · rfl
      · rw [ok_bind, ok_bind]
        cases account.buildKey php a.publicPath <;> rfl
    rw [hassoc]
    refine (computes_entry ht _).bind fun ref account u haccount hu hlater' hholds => ?_
    refine (computes_buildKey hu hholds hexp).bind fun ref' key v hkey hv hlater'' hholds' => ?_
    have ha : w.primaryPublicKeys a.publicPath.getKeyIndex = some account := by
      unfold entry at haccount
      split at haccount
      · next hsome => rw [hsome, Except.ok.inj haccount]
      · cases haccount
    exact ⟨_, _, rfl, hv.remember hexp ha hkey hholds', ⟨KeyStore.Keeps.refl _, v.store, _, rfl⟩, .ok (.some hholds')⟩
  · obtain ⟨path', account, key, hp', htext, ha, hb, hkey⟩ := ht.pubKeys _ ref hl
    obtain rfl := BIP32Path.toText_injective hp' hexp htext
    rw [ha]
    show Computes php w t _ _ (some <$> account.buildKey php a.publicPath)
    rw [hb]
    exact Computes.pure ht (.some hkey)

theorem computes_getBlocktrailPublicKey (hs : Coherent php s w) (path : BIP32Path) :
    Computes php w s (getBlocktrailPublicKey path) Holds
      (PhpSdk.getBlocktrailPublicKey w.blocktrailPublicKeys path) := by
  unfold getBlocktrailPublicKey PhpSdk.getBlocktrailPublicKey
  apply Computes.get
  dsimp only
  rw [hs.blocktrail_eq]
  rcases hr : s.blocktrailPublicKeys (Php.remove apostrophe ((path.offsetGet 1).getD [])) with _ | ref
  · exact ⟨s, .error _, rfl, hs, Later.refl s, .error _⟩
  · obtain ⟨key, hkey⟩ := Option.isSome_iff_exists.mp (hs.blocktrail _ ref hr)
    rw [Option.bind_some, hkey]
    exact Computes.pure hs hkey

theorem exploded_unhardenedPath {path : BIP32Path} (hp : path.Exploded) : path.unhardenedPath.Exploded := by
  intro level hmem
  obtain ⟨level', hmem', rfl⟩ := List.mem_map.mp hmem
  exact fun h => hp level' hmem' (List.mem_of_mem_filter h)

theorem computes_getWalletScriptFromKey (hs : Coherent php s w) {ref : Nat} {key : BIP32Key Node}
    (hkey : Holds s.store ref key) {path : BIP32Path} (hp : path.Exploded) :
    Computes php w s (getWalletScriptFromKey php ref path) (fun _ a b => a = b)
      (w.getWalletScriptFromKey php key path) := by
  unfold getWalletScriptFromKey Wallet.getWalletScriptFromKey
  dsimp only
  have hp' : path.publicPath.Exploded := hp
  refine (computes_getBlocktrailPublicKey hs _).bind fun blocktrail c t _ ht hst hc => ?_
  refine (computes_buildKey_keyOf ht (hst.keeps _ _ hkey) hp').bind fun k k' u _ hu htu hk => ?_
  subst hk
  have hbackup : Computes php w u ((do let s ← get; buildKey php s.backupPublicKey path.publicPath.unhardenedPath) >>= keyOf)
      (fun _ a b => a = b) (w.backupPublicKey.buildKey php path.publicPath.unhardenedPath) := by
    rw [bind_assoc]
    apply Computes.get
    exact computes_buildKey_keyOf hu hu.holds_backup (exploded_unhardenedPath hp')
  refine hbackup.bind fun b b' v _ hv huv hb => ?_
  subst hb
  refine (computes_buildKey_keyOf hv (huv.keeps _ _ (htu.keeps _ _ hc)) hp').bind fun c' c'' x _ hx hvx hcc => ?_
  subst hcc
  have hkeyx : Holds x.store ref key := hvx.keeps _ _ (huv.keeps _ _ (htu.keeps _ _ (hst.keeps _ _ hkey)))
  apply computes_keyOf_bind hkeyx
  apply Computes.get
  rw [← hx.isSegwit_eq]
  exact Computes.orRaise hx _

/-- **Transparency.** With its caches, the wallet answers as without them. -/
theorem computes_getWalletScriptByPath (hs : Coherent php s w) (path : Str) :
    Computes php w s (getWalletScriptByPath php path) (fun _ a b => a = b) (w.getWalletScriptByPath php path) := by
  unfold getWalletScriptByPath Wallet.getWalletScriptByPath
  refine (Computes.orRaise hs _).bind fun path' path'' t hpath ht _ hab => ?_
  subst hab
  have hp := BIP32Path.exploded_of_ofText hpath
  refine (computes_getParentPublicKey ht hp).bind fun parent parent' u _ hu _ hrel => ?_
  cases hrel with
  | none =>
    apply Computes.get
    rw [bind_assoc]
    refine (computes_entry hu _).bind fun ref account v _ hv _ hholds => ?_
    refine (computes_buildKey hv hholds hp).bind fun ref' key x _ hx _ hholds' => ?_
    exact computes_getWalletScriptFromKey hx hholds' hp
  | some hholds =>
    have hp' : path'.publicPath.Exploded := hp
    refine (computes_buildKey hu hholds hp').bind fun ref' key x _ hx _ hholds' => ?_
    exact computes_getWalletScriptFromKey hx hholds' hp

end CachedWallet

end PhpSdk
