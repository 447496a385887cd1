import Blocktrail.PhpSdk.Wallet

/-! # The scripts of a wallet path, in the PHP SDK -/

open Text Throwing Bitcoin

namespace PhpSdk

variable {Node : Type}

/-! ## Building keys -/

theorem toText_append (b : Bool) (ls ms : List Str) :
    (⟨b, ls ++ ms⟩ : BIP32Path).toText = (⟨b, ls⟩ : BIP32Path).toText ++ ms.flatMap ('/' :: ·) :=
  Php.implode_append '/' _ ls ms

theorem buildKey_below (php : BitWasp Node) (n : Node) {b c : Bool} (h : b = true → c = true) (ls ms : List Str) :
    (⟨n, ⟨b, ls⟩⟩ : BIP32Key Node).buildKey php ⟨c, ls ++ ms⟩ =
      (if Php.implode '/' ms = [] then .ok n
        else
          match php.derivePath n (Php.implode '/' ms) with
          | some key => .ok key
          | none => .error ⟨"Exception", "Cannot derive key"⟩) >>= fun key =>
        pure ⟨if c && !b then php.toPublic key else key, ⟨c, ls ++ ms⟩⟩ := by
  have htarget : (if (c && !b) = true then (⟨c, ls ++ ms⟩ : BIP32Path).privatePath else ⟨c, ls ++ ms⟩) =
      (⟨b, ls ++ ms⟩ : BIP32Path) := by
    cases b <;> cases c
    · rfl
    · rfl
    · exact absurd (h rfl) (by decide)
    · rfl
  have hrest : (if ((ms.flatMap ('/' :: ·)).head? = some '/') then (ms.flatMap ('/' :: ·)).tail
      else ms.flatMap ('/' :: ·)) = Php.implode '/' ms := by
    rcases ms with _ | ⟨m, ms⟩
    · rfl
    · rw [Php.flatMap_sep]
      rfl
  unfold BIP32Key.buildKey
  simp only [htarget, toText_append, List.drop_left, hrest]
  by_cases he : Php.implode '/' ms = []
  · simp only [if_pos he]
  · simp only [if_neg he]
    cases php.derivePath n (Php.implode '/' ms) <;> rfl

theorem levelText_ne_nil (l : Nat × Bool) : levelText l ≠ [] := by
  unfold levelText
  split
  · simp
  · exact dec_ne_nil l.1

theorem implode_levels_ne_nil {levels : List (Nat × Bool)} (h : levels ≠ []) :
    Php.implode '/' (levels.map levelText) ≠ [] := by
  rcases levels with _ | ⟨l, ls⟩
  · exact absurd rfl h
  · simp [Php.implode, levelText_ne_nil]

theorem buildKey_levels {php : BitWasp Node} {hd : HDLib Node} {hashes : Hashes} (hs : php.Standard hd hashes)
    (n : Node) {b c : Bool} (h : b = true → c = true) (ls : List Str) (levels : List (Nat × Bool))
    (hn : hd.isNeutered n = true ∨ ∀ l ∈ levels, l.1 < HIGHEST_BIT) :
    ((⟨n, ⟨b, ls⟩⟩ : BIP32Key Node).buildKey php ⟨c, ls ++ levels.map levelText⟩).toOption =
      (levels.foldlM (deriveLevel hd) n).toOption.map fun key =>
        ⟨if c && !b then hd.neutered key else key, ⟨c, ls ++ levels.map levelText⟩⟩ := by
  rw [buildKey_below php n h, toOption_bind]
  by_cases hl : levels = []
  · subst hl
    rw [if_pos (by rfl)]
    simp only [hs.toPublic]
    rfl
  · rw [if_neg (implode_levels_ne_nil hl), hs.derivePath n levels hl hn]
    simp only [hs.toPublic]
    cases (levels.foldlM (deriveLevel hd) n).toOption <;> rfl

theorem buildKey_self (php : BitWasp Node) (n : Node) (path : BIP32Path) :
    (⟨n, path⟩ : BIP32Key Node).buildKey php path = .ok ⟨n, path⟩ := by
  have h := buildKey_below php n (b := path.isPublicPath) (c := path.isPublicPath) id path.levels []
  rw [List.append_nil] at h
  refine h.trans ?_
  simp [Php.implode, bind, Except.bind, pure, Except.pure]

theorem buildKey_public {php : BitWasp Node} {hd : HDLib Node} {hashes : Hashes} (hs : php.Standard hd hashes)
    {n : Node} (hn : hd.isNeutered n = true) (ls : List Str) (is : List Nat) :
    ((⟨n, ⟨true, ls⟩⟩ : BIP32Key Node).buildKey php ⟨true, ls ++ is.map dec⟩).toOption =
      (is.foldlM (fun n i => hd.derive n (some (i : Nat))) n).toOption.map fun key => ⟨key, ⟨true, ls ++ is.map dec⟩⟩ := by
  have h := buildKey_levels hs n (b := true) (c := true) id ls (is.map fun i => (i, false)) (Or.inl hn)
  rw [List.map_map, List.foldlM_map] at h
  exact h

/-! ## The path -/

/-- The path of the account key of an index, `M/k'`. -/
def accountBIP32Path (k : Nat) : BIP32Path := ⟨true, [dec k ++ [apostrophe]]⟩

theorem ofText_walletPath (k c i : Nat) :
    BIP32Path.ofText (walletPath k c i) = .ok ⟨true, [dec k ++ [apostrophe], dec c, dec i]⟩ := by
  rw [BIP32Path.ofText, splitOn_walletPath]
  rfl

/-! ## Scripts -/

def WalletScript.scripts (ws : WalletScript) : Bytes × Option Bytes × Bytes :=
  (ws.redeemScript, ws.witnessScript, ws.spk)

def keyScripts (php : BitWasp Node) (witness : Bool) (keys : List PubKey) : Bytes × Option Bytes × Bytes :=
  let multisig := php.multisig 2 (sortMultisigKeys php keys)
  let rs := if witness then php.p2shWitness multisig else php.p2shScript multisig
  (rs, if witness then some multisig else none, php.p2shOutput rs)

/-- The chains a wallet has scripts for. -/
def SupportsChain (segwit : Bool) (c : Nat) : Prop :=
  c = CHAIN_BTC_DEFAULT ∨ c = CHAIN_BCC_DEFAULT ∨ (segwit = true ∧ c = CHAIN_BTC_SEGWIT)

instance (segwit : Bool) (c : Nat) : Decidable (SupportsChain segwit c) :=
  inferInstanceAs (Decidable (_ ∨ _ ∨ _))

theorem scriptOfType_spec (php : BitWasp Node) (isSegwit : Bool) (c : Nat) (path : BIP32Path) (keys : List PubKey) :
    (scriptOfType php isSegwit c path (php.multisig 2 (sortMultisigKeys php keys))).toOption.map WalletScript.scripts =
      if SupportsChain isSegwit c then some (keyScripts php (isSegwit && c == CHAIN_BTC_SEGWIT) keys) else none := by
  unfold scriptOfType
  by_cases hw : isSegwit = true ∧ c = CHAIN_BTC_SEGWIT
  · have hsup : SupportsChain isSegwit c := Or.inr (Or.inr hw)
    rw [if_pos hw, if_pos hsup, hw.1, hw.2]
    rfl
  rw [if_neg hw]
  have hf : (isSegwit && c == CHAIN_BTC_SEGWIT) = false := by
    rw [Bool.eq_false_iff]
    simpa using hw
  by_cases hd : c = CHAIN_BTC_DEFAULT ∨ c = CHAIN_BCC_DEFAULT
  · have hsup : SupportsChain isSegwit c := hd.imp_right Or.inl
    rw [if_pos hd, if_pos hsup, hf]
    rfl
  · rw [if_neg hd, if_neg]
    · rfl
    · rintro (h | h | h)
      · exact hd (Or.inl h)
      · exact hd (Or.inr h)
      · exact hw h

/-- The wallet has these public keys at these places. -/
structure HasKeys (hd : HDLib Node) (w : Wallet Node) (k : Nat) (account backup blocktrail : Node) : Prop where
  primaryPublicKey : w.primaryPublicKeys (dec k) = some ⟨account, accountBIP32Path k⟩
  backupPublicKey : w.backupPublicKey = ⟨backup, ⟨true, []⟩⟩
  blocktrailPublicKey : w.blocktrailPublicKeys (dec k) = some ⟨blocktrail, accountBIP32Path k⟩
  account_public : hd.isNeutered account = true
  backup_public : hd.isNeutered backup = true
  blocktrail_public : hd.isNeutered blocktrail = true

theorem getKeyIndex_eq (k : Nat) (b : Bool) (rest : List Str) :
    (⟨b, (dec k ++ [apostrophe]) :: rest⟩ : BIP32Path).getKeyIndex = dec k :=
  Php.remove_append_of_not_mem (apostrophe_not_mem_dec k)

theorem getBlocktrailPublicKey_eq (keys : Str → Option (BIP32Key Node)) (k : Nat) (rest : List Str) :
    getBlocktrailPublicKey keys ⟨true, (dec k ++ [apostrophe]) :: rest⟩ =
      match keys (dec k) with
      | some key => .ok key
      | none => .error (noBlocktrailKey (dec k)) := by
  have hindex := getKeyIndex_eq k true rest
  unfold BIP32Path.getKeyIndex at hindex
  unfold getBlocktrailPublicKey
  cases hkey : keys (dec k) with
  | none => simp [hindex, hkey]
  | some key => simp [hindex, hkey]

theorem getParentPublicKey_eq {php : BitWasp Node} {w : Wallet Node} (k c i : Nat) :
    w.getParentPublicKey php ⟨true, [dec k ++ [apostrophe], dec c, dec i]⟩ =
      some <$> (entry (w.primaryPublicKeys (dec k)) >>= fun key =>
        key.buildKey php ⟨true, [dec k ++ [apostrophe], dec c]⟩) := by
  have hp : (⟨true, [dec k ++ [apostrophe], dec c, dec i]⟩ : BIP32Path).parent =
      .ok ⟨true, [dec k ++ [apostrophe], dec c]⟩ := by simp [BIP32Path.parent]
  have hc : ¬(⟨true, [dec k ++ [apostrophe], dec c]⟩ : BIP32Path).count ≤ 2 := by simp [BIP32Path.count]
  have hh : (⟨true, [dec k ++ [apostrophe], dec c]⟩ : BIP32Path).isHardened = false := by
    simp [BIP32Path.isHardened, apostrophe_not_mem_dec]
  rw [Wallet.getParentPublicKey, hp]
  simp only [bind, Except.bind, BIP32Path.publicPath, hc, hh, getKeyIndex_eq, if_false, Bool.false_eq_true]

theorem getWalletScriptFromKey_spec {php : BitWasp Node} {hd : HDLib Node} {hashes : Hashes}
    (hs : php.Standard hd hashes) (hl : hd.Lawful) {w : Wallet Node} {k c i : Nat}
    {account backup blocktrail : Node} (hk : HasKeys hd w k account backup blocktrail)
    (hc : c < HIGHEST_BIT) (hi : i < HIGHEST_BIT) :
    ((w.getWalletScriptFromKey php ⟨hd.child (hd.child account c) i, ⟨true, [dec k ++ [apostrophe], dec c, dec i]⟩⟩
        ⟨true, [dec k ++ [apostrophe], dec c, dec i]⟩).toOption.map WalletScript.scripts) =
      if k < HIGHEST_BIT ∧ SupportsChain w.isSegwit c then
        some (keyScripts php (w.isSegwit && c == CHAIN_BTC_SEGWIT) (pathKeys hd account backup blocktrail k c i))
      else none := by
  have hunhard : (⟨true, [dec k ++ [apostrophe], dec c, dec i]⟩ : BIP32Path).unhardenedPath =
      ⟨true, [dec k, dec c, dec i]⟩ := by
    simp [BIP32Path.unhardenedPath, Php.remove_append_of_not_mem, Php.remove_of_not_mem, apostrophe_not_mem_dec]
  have hb := buildKey_public hs hk.backup_public [] [k, c, i]
  have hbc := buildKey_public hs hk.blocktrail_public [dec k ++ [apostrophe]] [c, i]
  have htype : Php.intOf (((⟨true, [dec k ++ [apostrophe], dec c, dec i]⟩ : BIP32Path).offsetGet 2).getD []) = c := by
    rw [show ((⟨true, [dec k ++ [apostrophe], dec c, dec i]⟩ : BIP32Path).offsetGet 2).getD [] = dec c from rfl,
      Php.intOf_dec]
    unfold HIGHEST_BIT at hc
    omega
  have hder : ([k, c, i].foldlM (fun n i => hd.derive n (some (i : Nat))) backup).toOption =
      if k < HIGHEST_BIT then some (hd.child (hd.child (hd.child backup k) c) i) else none := by
    have h := backup_toOption hd hl hk.backup_public k c i
    simp only [hc, hi, and_true] at h
    rw [← h]
    simp [deriveChain]
  have hderb : ([c, i].foldlM (fun n i => hd.derive n (some (i : Nat))) blocktrail).toOption =
      some (hd.child (hd.child blocktrail c) i) := by
    have h := deriveChain_lt hd blocktrail hc hi
    rw [show ([c, i].foldlM (fun n i => hd.derive n (some (i : Nat))) blocktrail) = deriveChain hd blocktrail c i from
      by simp [deriveChain], h]
    rfl
  rw [hder] at hb
  rw [hderb] at hbc
  have hc' : (⟨blocktrail, accountBIP32Path k⟩ : BIP32Key Node).buildKey php
      ⟨true, [dec k ++ [apostrophe], dec c, dec i]⟩ = .ok ⟨hd.child (hd.child blocktrail c) i, _⟩ :=
    toOption_eq_some hbc
  unfold Wallet.getWalletScriptFromKey
  simp only [BIP32Path.publicPath, getBlocktrailPublicKey_eq, hk.blocktrailPublicKey, hk.backupPublicKey, hunhard,
    buildKey_self, hc', ok_bind]
  by_cases hkb : k < HIGHEST_BIT
  · rw [if_pos hkb] at hb
    have hb' : (⟨backup, ⟨true, []⟩⟩ : BIP32Key Node).buildKey php ⟨true, [dec k, dec c, dec i]⟩ =
        .ok ⟨hd.child (hd.child (hd.child backup k) c) i, _⟩ := toOption_eq_some hb
    have hspec := scriptOfType_spec php w.isSegwit c ⟨true, [dec k ++ [apostrophe], dec c, dec i]⟩
      (pathKeys hd account backup blocktrail k c i)
    simp only [hkb, true_and, hb', ok_bind, BIP32Key.publicKey, hs.getPublicKey]
    rw [← hspec, htype]
    rfl
  · rw [if_neg hkb] at hb
    have hb' : ((⟨backup, ⟨true, []⟩⟩ : BIP32Key Node).buildKey php ⟨true, [dec k, dec c, dec i]⟩).toOption = none := hb
    rw [toOption_bind, hb']
    simp [hkb]

/-- **A path of a wallet.** -/
theorem getWalletScriptByPath_spec {php : BitWasp Node} {hd : HDLib Node} {hashes : Hashes}
    (hs : php.Standard hd hashes) (hl : hd.Lawful) {w : Wallet Node} {k : Nat} {account backup blocktrail : Node}
    (hk : HasKeys hd w k account backup blocktrail) (c i : Nat) :
    (w.getWalletScriptByPath php (walletPath k c i)).toOption.map WalletScript.scripts =
      if (k < HIGHEST_BIT ∧ c < HIGHEST_BIT ∧ i < HIGHEST_BIT) ∧ SupportsChain w.isSegwit c then
        some (keyScripts php (w.isSegwit && c == CHAIN_BTC_SEGWIT) (pathKeys hd account backup blocktrail k c i))
      else none := by
  unfold Wallet.getWalletScriptByPath
  rw [ofText_walletPath, ok_bind, getParentPublicKey_eq, hk.primaryPublicKey]
  have hparent := buildKey_public hs hk.account_public [dec k ++ [apostrophe]] [c]
  rw [show ([c].foldlM (fun n i => hd.derive n (some (i : Nat))) account) = hd.derive account (some c) from
    by simp, hd.derive_public account hk.account_public] at hparent
  by_cases hc : c < HIGHEST_BIT
  · rw [if_pos hc] at hparent
    have hp : (⟨account, accountBIP32Path k⟩ : BIP32Key Node).buildKey php ⟨true, [dec k ++ [apostrophe], dec c]⟩ =
        .ok ⟨hd.child account c, _⟩ := toOption_eq_some hparent
    have hn : hd.isNeutered (hd.child account c) = true := by rw [hl.isNeutered_child]; exact hk.account_public
    have hkey := buildKey_public hs hn [dec k ++ [apostrophe], dec c] [i]
    rw [show ([i].foldlM (fun n i => hd.derive n (some (i : Nat))) (hd.child account c)) =
      hd.derive (hd.child account c) (some i) from by simp, hd.derive_public _ hn] at hkey
    simp only [entry, ok_bind, hp]
    show ((⟨hd.child account c, ⟨true, [dec k ++ [apostrophe], dec c]⟩⟩ : BIP32Key Node).buildKey php
      ⟨true, [dec k ++ [apostrophe], dec c, dec i]⟩ >>= fun key => w.getWalletScriptFromKey php key
        ⟨true, [dec k ++ [apostrophe], dec c, dec i]⟩).toOption.map _ = _
    by_cases hi : i < HIGHEST_BIT
    · rw [if_pos hi] at hkey
      have hkey' : (⟨hd.child account c, ⟨true, [dec k ++ [apostrophe], dec c]⟩⟩ : BIP32Key Node).buildKey php
          ⟨true, [dec k ++ [apostrophe], dec c, dec i]⟩ =
        .ok ⟨hd.child (hd.child account c) i, ⟨true, [dec k ++ [apostrophe], dec c, dec i]⟩⟩ := toOption_eq_some hkey
      rw [hkey', ok_bind, getWalletScriptFromKey_spec hs hl hk hc hi]
      simp only [hc, hi, and_true]
    · rw [if_neg hi] at hkey
      have hkey' : ((⟨hd.child account c, ⟨true, [dec k ++ [apostrophe], dec c]⟩⟩ : BIP32Key Node).buildKey php
          ⟨true, [dec k ++ [apostrophe], dec c, dec i]⟩).toOption = none := hkey
      rw [toOption_bind, hkey']
      simp [hi]
  · rw [if_neg hc] at hparent
    have hp : ((⟨account, accountBIP32Path k⟩ : BIP32Key Node).buildKey php
        ⟨true, [dec k ++ [apostrophe], dec c]⟩).toOption = none := hparent
    simp only [entry, ok_bind]
    rw [toOption_bind, toOption_map, hp]
    simp [hc]

/-- A path whose account key or Blocktrail key is missing is rejected. -/
theorem getWalletScriptByPath_missing {php : BitWasp Node} {w : Wallet Node} {k : Nat}
    (h : w.primaryPublicKeys (dec k) = none ∨ w.blocktrailPublicKeys (dec k) = none) (c i : Nat) :
    (w.getWalletScriptByPath php (walletPath k c i)).toOption = none := by
  unfold Wallet.getWalletScriptByPath
  rw [ofText_walletPath, ok_bind, getParentPublicKey_eq]
  rcases hp : w.primaryPublicKeys (dec k) with _ | key
  · rfl
  have hb := h.resolve_left (by rw [hp]; simp)
  have hrest : ∀ key : BIP32Key Node,
      (w.getWalletScriptFromKey php key ⟨true, [dec k ++ [apostrophe], dec c, dec i]⟩).toOption = none := by
    intro key
    unfold Wallet.getWalletScriptFromKey
    simp only [BIP32Path.publicPath, getBlocktrailPublicKey_eq, hb]
    rfl
  rw [toOption_bind]
  rcases (some <$> (entry (some key) >>= fun key => key.buildKey php ⟨true, [dec k ++ [apostrophe], dec c]⟩)).toOption
    with _ | _ | pubKey
  · rfl
  · rw [Option.bind_some, toOption_bind]
    simp [hrest]
  · rw [Option.bind_some, toOption_bind]
    simp [hrest]

end PhpSdk
