import Blocktrail.JsSdk.Scripts

/-! # The scripts of a wallet path

`scriptsFromRoots` is what the scripts of a path should be: a function of the primary root, the backup key
and the Blocktrail key, with no wallet in it. `scriptsFromAccount` starts at the account key.
-/

open Text Throwing Bitcoin

namespace JsSdk

variable {Node : Type}

def scriptsFromAccount (p : Platform Node) (network : Network) (useNewCashAddr : Bool)
    (account backup blocktrail : Node) (k c i : Nat) : Except JsError WalletScripts := do
  let primary ← deriveChain p.hd account c i
  let blocktrail ← deriveChain p.hd blocktrail c i
  let backup ← p.hd.derive backup (some k) >>= fun b => deriveChain p.hd b c i
  scriptsOfKeys p network useNewCashAddr (c == CHAIN_BTC_SEGWIT)
    [p.hd.getPublicKeyBuffer primary, p.hd.getPublicKeyBuffer backup, p.hd.getPublicKeyBuffer blocktrail]

def scriptsFromRoots (p : Platform Node) (network : Network) (useNewCashAddr : Bool)
    (root backup blocktrail : Node) (k c i : Nat) : Except JsError WalletScripts :=
  deriveByPath p.hd root (accountPath k) "m" >>= fun account =>
    scriptsFromAccount p network useNewCashAddr account backup blocktrail k c i

/-! ## The parts of a wallet path -/

@[simp] theorem keyIndexOf_walletPath (k c i : Nat) : keyIndexOf (walletPath k c i) = .ok (dec k) := by
  rw [keyIndexOf, splitOn_walletPath]
  exact congrArg Except.ok (replaceFirst_apostrophe_dec k)

@[simp] theorem keyPathOf_dec (k : Nat) : keyPathOf (dec k) = accountPath k := rfl

@[simp] theorem isWitnessPath_walletPath (network : Network) (k c i : Nat) :
    isWitnessPath network (walletPath k c i) = (c == CHAIN_BTC_SEGWIT) := by
  rw [isWitnessPath, scriptTypeOf, splitOn_walletPath]
  simp only [networkEqualsText, List.getElem?_cons_succ, List.getElem?_cons_zero, Option.bind_some, parseInt_dec]
  rw [Bool.eq_iff_iff]
  simp

/-! ## The keys of a wallet path -/

/-- The account key a wallet has at a key index: the one kept, else the one of its private key. -/
def accountKey (p : Platform Node) (w : Wallet Node) (k : Nat) : Except JsError Node :=
  match w.primaryPublicKeys (dec k) with
  | some key => .ok key
  | none =>
    match w.primaryPrivateKey with
    | some root => deriveByPath p.hd root (accountPath k) "m"
    | none => .error (unknownKeyIndex "getPrimaryPublicKey" (dec k))

/-- Asking for a key at most keeps the account key of the index. -/
def World.caching (s : World Node) (k : Nat) (key : Node) : World Node :=
  { s with wallet := { s.wallet with
      primaryPublicKeys := Function.update s.wallet.primaryPublicKeys (dec k) (some key) } }

@[simp] theorem World.caching_primaryPublicKeys (s : World Node) (k : Nat) (key : Node) :
    (s.caching k key).wallet.primaryPublicKeys =
      Function.update s.wallet.primaryPublicKeys (dec k) (some key) := rfl

theorem update_eq_self_of_some {f : Str → Option Node} {k : Str} {key : Node} (h : f k = some key) :
    Function.update f k (some key) = f := by
  rw [← h, Function.update_eq_self]

theorem getPrimaryPublicKey_spec (p : Platform Node) (s : World Node) (k c i : Nat) :
    call (getPrimaryPublicKey p (walletPath k c i)) s =
      match accountKey p s.wallet k with
      | .ok key => (deriveChain p.hd key c i, s.caching k key)
      | .error e => (.error e, s) := by
  unfold getPrimaryPublicKey accountKey
  simp only [replaceFirst_m_walletPath]
  rw [call_orRaise_bind_ok (keyIndexOf_walletPath k c i), call_get_bind]
  rcases hp : s.wallet.primaryPublicKeys (dec k) with _ | key
  · rcases hr : s.wallet.primaryPrivateKey with _ | root
    · simp only [call_throw]
    dsimp only
    rw [keyPathOf_dec]
    rcases hd : deriveByPath p.hd root (accountPath k) "m" with e | key
    · exact call_orRaise_bind_error rfl
    · rw [call_orRaise_bind_ok rfl, call_modifyWallet_bind rfl, deriveByPath_walletPath, call_orRaise]
      rfl
  · simp only [keyPathOf_dec, deriveByPath_walletPath, call_orRaise, World.caching, update_eq_self_of_some hp]

theorem getBlocktrailPublicKey_spec (p : Platform Node) (keys : Str → Option Node) (k c i : Nat) :
    getBlocktrailPublicKey p keys (walletPath k c i) =
      match keys (dec k) with
      | some key => deriveChain p.hd key c i
      | none => .error (unknownKeyIndex "getBlocktrailPublicKey" (dec k)) := by
  unfold getBlocktrailPublicKey
  simp only [replaceFirst_m_walletPath, keyIndexOf_walletPath, ok_bind]
  rcases keys (dec k) with _ | key
  · rfl
  · exact deriveByPath_walletPath p.hd key k c i

/-! ## The scripts of a wallet path -/

theorem getWalletScriptByPath_account {p : Platform Node} {s : World Node} {account blocktrail : Node} {k : Nat}
    (hacc : accountKey p s.wallet k = .ok account)
    (hb : s.wallet.blocktrailPublicKeys (dec k) = some blocktrail) (c i : Nat) :
    (call (getWalletScriptByPath p (walletPath k c i)) s).1 =
      scriptsFromAccount p s.wallet.network s.wallet.useNewCashAddr account s.wallet.backupPublicKey blocktrail
        k c i := by
  have hprim := getPrimaryPublicKey_spec p s k c i
  rw [hacc] at hprim
  simp only at hprim
  unfold getWalletScriptByPath scriptsFromAccount
  rcases hc : deriveChain p.hd account c i with e | primary <;> rw [hc] at hprim
  · rw [call_bind_error hprim]
    rfl
  rw [call_bind_ok hprim, call_get_bind]
  -- What is left only raises, in the order of the specification.
  have hbt := getBlocktrailPublicKey_spec p s.wallet.blocktrailPublicKeys k c i
  simp only [hb] at hbt
  dsimp only [World.caching]
  simp only [orRaise_bind, call_orRaise, hbt, deriveByPath_backup, isWitnessPath_walletPath]
  rfl

theorem getWalletScriptByPath_no_account {p : Platform Node} {s : World Node} {k : Nat} {e : JsError}
    (hacc : accountKey p s.wallet k = .error e) (c i : Nat) :
    (call (getWalletScriptByPath p (walletPath k c i)) s).1 = .error e := by
  have hprim := getPrimaryPublicKey_spec p s k c i
  rw [hacc] at hprim
  unfold getWalletScriptByPath
  rw [call_bind_error hprim]

/-- **A path of a wallet.** Where the account key is the one of `root`, the scripts are those of the roots. -/
theorem getWalletScriptByPath_spec {p : Platform Node} {s : World Node} {root blocktrail : Node} {k : Nat}
    (hacc : accountKey p s.wallet k = deriveByPath p.hd root (accountPath k) "m")
    (hb : s.wallet.blocktrailPublicKeys (dec k) = some blocktrail) (c i : Nat) :
    (call (getWalletScriptByPath p (walletPath k c i)) s).1 =
      scriptsFromRoots p s.wallet.network s.wallet.useNewCashAddr root s.wallet.backupPublicKey blocktrail k c i := by
  unfold scriptsFromRoots
  rcases hd : deriveByPath p.hd root (accountPath k) "m" with e | account <;> rw [hd] at hacc
  · rw [getWalletScriptByPath_no_account hacc]
    rfl
  · rw [getWalletScriptByPath_account hacc hb]
    rfl

theorem getWalletScriptByPath_no_blocktrail {p : Platform Node} {s : World Node} {k : Nat}
    (hb : s.wallet.blocktrailPublicKeys (dec k) = none) (c i : Nat) :
    (call (getWalletScriptByPath p (walletPath k c i)) s).1.toOption = none := by
  rcases hacc : accountKey p s.wallet k with e | account
  · rw [getWalletScriptByPath_no_account hacc]
    rfl
  have hprim := getPrimaryPublicKey_spec p s k c i
  rw [hacc] at hprim
  simp only at hprim
  unfold getWalletScriptByPath
  rcases hc : deriveChain p.hd account c i with e | primary <;> rw [hc] at hprim
  · rw [call_bind_error hprim]
    rfl
  rw [call_bind_ok hprim, call_get_bind]
  have hbt := getBlocktrailPublicKey_spec p s.wallet.blocktrailPublicKeys k c i
  simp only [hb] at hbt
  dsimp only [World.caching]
  rw [call_orRaise_bind_error hbt]
  rfl

/-! ## The scripts of three keys -/

/-- The scripts of an issued address: redeem script, witness script and scriptPubKey. -/
def WalletScripts.scripts (ws : WalletScripts) : Bytes × Option Bytes × Bytes :=
  (ws.redeemScript, ws.witnessScript, ws.scriptPubKey)

def keyScripts (p : Platform Node) (witness : Bool) (keys : List PubKey) : Bytes × Option Bytes × Bytes :=
  let multisig := multisigOutput 2 (sortMultiSigKeys p.collation keys)
  let rs := if witness then witnessScriptHashOutput (p.hashes.sha256 multisig) else multisig
  (rs, if witness then some multisig else none, scriptHashOutput (p.hashes.hash160 rs))

theorem scriptsOfKeys_ok (p : Platform Node) (network : Network) (cash witness : Bool) (keys : List PubKey) :
    ∃ ws, scriptsOfKeys p network cash witness keys = .ok ws ∧ ws.scripts = keyScripts p witness keys := by
  obtain ⟨addr, ha⟩ := fromOutputScript_scriptHashOutput p.codec (p.hashes.hash160 (keyScripts p witness keys).1)
    network cash
  refine ⟨⟨(keyScripts p witness keys).2.1, (keyScripts p witness keys).1, (keyScripts p witness keys).2.2, addr⟩,
    ?_, rfl⟩
  show fromOutputScript p.codec (scriptHashOutput (p.hashes.hash160 (keyScripts p witness keys).1)) network cash >>= _ = _
  rw [ha]
  rfl

/-- The scripts of a path: none where an index is too large for the backup key. -/
theorem scriptsFromAccount_scripts {p : Platform Node} (hl : p.hd.Lawful) {backup : Node}
    (hb : p.hd.isNeutered backup = true) (network : Network) (cash : Bool) (account blocktrail : Node) (k c i : Nat) :
    (scriptsFromAccount p network cash account backup blocktrail k c i).toOption.map WalletScripts.scripts =
      if k < HIGHEST_BIT ∧ c < HIGHEST_BIT ∧ i < HIGHEST_BIT then
        some (keyScripts p (c == CHAIN_BTC_SEGWIT) (pathKeys p.hd account backup blocktrail k c i))
      else none := by
  have hbu := backup_toOption p.hd hl hb k c i
  simp only [scriptsFromAccount, toOption_bind]
  simp only [toOption_bind] at hbu
  by_cases hi : k < HIGHEST_BIT ∧ c < HIGHEST_BIT ∧ i < HIGHEST_BIT
  · rw [if_pos hi] at hbu
    obtain ⟨ws, hws, hsc⟩ := scriptsOfKeys_ok p network cash (c == CHAIN_BTC_SEGWIT)
      (pathKeys p.hd account backup blocktrail k c i)
    rw [if_pos hi, ← hsc, hbu, deriveChain_lt p.hd account hi.2.1 hi.2.2, deriveChain_lt p.hd blocktrail hi.2.1 hi.2.2]
    rw [pathKeys] at hws
    simp only [Except.toOption, Option.bind_some, hws, Option.map_some]
  · rw [if_neg hi] at hbu
    rw [if_neg hi]
    simp [hbu]

end JsSdk
