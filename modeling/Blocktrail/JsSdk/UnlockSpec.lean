import Blocktrail.JsSdk.Unlock

/-! # What one unlock does

`obtainedSeed` is the seed the options of an unlock give: directly, from the stored data, or from the
mnemonic. `UnlockOutcome` says what the wallet is left with.
-/

open Text Throwing Bitcoin

namespace JsSdk

variable {Node : Type}

/-! ## The seed of the options -/

/-- The root of a seed passes the checksum of the wallet. -/
def Passes (p : Platform Node) (w : Wallet Node) (seed : Bytes) : Prop :=
  ∃ key, p.hd.fromSeedBuffer seed w.network = .ok key ∧ p.hd.getAddress key = w.checksum

/-- The seed `resolvePrimaryPrivateKeyFromOptions` tries. -/
def givenSeedV1 (p : Platform Node) (o : UnlockOptions) (primaryMnemonic : Str) : Option Bytes :=
  if o.conflict ∨ o.primaryPrivateKey then none
  else
    match o.primarySeed with
    | some seed => if primaryMnemonic = [] then some seed else none
    | none =>
      if primaryMnemonic = [] ∨ !truthy o.anyPassword then none
      else (p.mnemonicToSeedHex primaryMnemonic o.anyPassword).toOption.map Hex.decode

/-- A version 1 wallet keeps a seed only after it has made the root of it. -/
def obtainedSeedV1 (p : Platform Node) (w : Wallet Node) (o : UnlockOptions) : Option Bytes :=
  (givenSeedV1 p o ((o.primaryMnemonic <|> w.primaryMnemonic).getD [])).filter fun seed =>
    (p.hd.fromSeedBuffer seed w.network).toOption.isSome

/-- The seed of an unlock that decrypts, under the ciphers of a version. -/
def obtainedSeedEncrypted (w : Wallet Node) (o : UnlockOptions)
    (secretUnder : Option Data → Option Data → Option Data)
    (seedUnder : Option Data → Option Data → Option Bytes) : Option Bytes :=
  let encryptedPrimarySeed := o.encryptedPrimarySeed.getD w.encryptedPrimarySeed
  let encryptedSecret := o.encryptedSecret.getD w.encryptedSecret
  if o.primaryPrivateKey then none
  else
    match o.primarySeed with
    | some seed => some seed
    | none =>
      if truthy o.secret then seedUnder encryptedPrimarySeed o.secret
      else if o.conflict then none
      else
        match secretUnder encryptedSecret o.anyPassword with
        | none => none
        | some secret => seedUnder encryptedPrimarySeed (some secret)

def secretUnderV2 (p : Platform Node) (encryptedSecret password : Option Data) : Option Data :=
  match p.aesDecrypt encryptedSecret password with
  | none => none
  | some t => if t = [] then none else some (.text t)

def seedUnderV2 (p : Platform Node) (encryptedPrimarySeed secret : Option Data) : Option Bytes :=
  (p.aesDecrypt encryptedPrimarySeed secret).map Base64.decode

def secretUnderV3 (p : Platform Node) (encryptedSecret password : Option Data) : Option Data :=
  match bufferFromBase64 encryptedSecret, bufferFrom password with
  | .ok ct, .ok pw => (Encryption.decrypt p ct (some (.buffer pw))).map .buffer
  | _, _ => none

def seedUnderV3 (p : Platform Node) (encryptedPrimarySeed secret : Option Data) : Option Bytes :=
  match bufferFromBase64 encryptedPrimarySeed with
  | .ok ct => Encryption.decrypt p ct secret
  | .error _ => none

/-- The seed an unlock assigns, where it gets to one. -/
def obtainedSeed (p : Platform Node) (w : Wallet Node) (o : UnlockOptions) : Option Bytes :=
  match w.walletVersion with
  | .v1 => obtainedSeedV1 p w o
  | .v2 => obtainedSeedEncrypted w o (secretUnderV2 p) (seedUnderV2 p)
  | .v3 => obtainedSeedEncrypted w o (secretUnderV3 p) (seedUnderV3 p)
  | .other _ => none

/-! ## Outcomes -/

/-- The world with another secret, seed, and seed kept by the `sdk`. -/
def World.holding (s : World Node) (secret : Option Data) (seed kept : Option Bytes) : World Node :=
  { s with wallet := { s.wallet with secret := secret, primarySeed := seed },
           sdk := { s.sdk with primarySeed := kept } }

/-- The part of an unlock that depends on the version, in terms of the seed it gets. -/
structure UnlockOutcome (p : Platform Node) (s : World Node) (seed? : Option Bytes)
    (r : Except JsError Node) (t : World Node) : Prop where
  frame : ∃ secret kept, t = s.holding secret (seed? <|> s.wallet.primarySeed) kept
  key : r.toOption = seed?.bind fun seed => (p.hd.fromSeedBuffer seed s.wallet.network).toOption

/-- A program that makes a key of the seed `seed?`, or throws where there is none. -/
def Unlocks (p : Platform Node) (m : Method Node Node) (s : World Node) (seed? : Option Bytes) : Prop :=
  UnlockOutcome p s seed? (call m s).1 (call m s).2

theorem unlocks_of_error {p : Platform Node} {m : Method Node Node} {s t : World Node} {e : JsError}
    (h : call m s = (.error e, t)) (ht : ∃ secret kept, t = s.holding secret s.wallet.primarySeed kept) :
    Unlocks p m s none := by
  unfold Unlocks
  rw [h]
  exact ⟨ht, rfl⟩

theorem unlocks_of_seed {p : Platform Node} {m : Method Node Node} {s t : World Node} {seed : Bytes}
    {r : Except JsError Node} (h : call m s = (r, t))
    (ht : ∃ secret kept, t = s.holding secret (some seed) kept)
    (hr : r.toOption = (p.hd.fromSeedBuffer seed s.wallet.network).toOption) :
    Unlocks p m s (some seed) := by
  unfold Unlocks
  rw [h]
  exact ⟨ht, hr⟩

/-! ## Version 1 -/

theorem resolve_root {p : Platform Node} {s : World Node} (hn : s.sdk.network = s.wallet.network)
    {m : Method Node (Bytes × Node)} {seed : Bytes} {kept : Option Bytes}
    (hm : call m s = ((fun key => (seed, key)) <$> p.hd.fromSeedBuffer seed s.sdk.network,
      s.holding s.wallet.secret s.wallet.primarySeed kept)) :
    Unlocks p (m >>= fun r => modifyWallet (fun w => { w with primarySeed := some r.1 }) >>= fun _ => pure r.2) s
      (if (p.hd.fromSeedBuffer seed s.wallet.network).toOption.isSome then some seed else none) := by
  rw [hn] at hm
  rcases hr : p.hd.fromSeedBuffer seed s.wallet.network with e | key
  · rw [hr] at hm
    exact unlocks_of_error (call_bind_error hm) ⟨_, _, rfl⟩
  · rw [hr] at hm
    refine unlocks_of_seed (t := s.holding s.wallet.secret (some seed) kept) (r := .ok key) ?_ ⟨_, _, rfl⟩ ?_
    · rw [call_bind_ok hm]
      rfl
    · rw [hr]

theorem call_resolve (p : Platform Node) (o : UnlockOptions) (mnemonic : Str) (s : World Node) :
    match givenSeedV1 p o mnemonic with
    | none => ∃ e, call (resolvePrimaryPrivateKeyFromOptions p o mnemonic) s = (.error e, s)
    | some seed => ∃ kept, call (resolvePrimaryPrivateKeyFromOptions p o mnemonic) s =
        ((fun key => (seed, key)) <$> p.hd.fromSeedBuffer seed s.sdk.network,
          s.holding s.wallet.secret s.wallet.primarySeed kept) := by
  unfold givenSeedV1 resolvePrimaryPrivateKeyFromOptions
  by_cases hc : o.conflict = true
  · simp only [hc, true_or, if_true]
    exact ⟨_, rfl⟩
  by_cases hk : o.primaryPrivateKey = true
  · simp only [hc, hk, or_true, if_true, if_false, Bool.false_eq_true]
    split <;> exact ⟨_, rfl⟩
  simp only [hc, hk, or_self, if_false, Bool.false_eq_true]
  rcases hp : o.primarySeed with _ | seed
  · by_cases hm : mnemonic = []
    · simp only [hm, ne_eq, not_true, false_and, true_or, if_true, if_false, Option.isNone_none, and_self]
      exact ⟨_, rfl⟩
    by_cases ht : truthy o.anyPassword = true
    · simp only [hm, ht, Option.isSome_none, Bool.false_eq_true, and_false, false_and, if_false,
        Bool.not_true, or_self]
      rcases hx : p.mnemonicToSeedHex mnemonic o.anyPassword with e | seedHex
      · exact ⟨e, rfl⟩
      · refine ⟨s.sdk.primarySeed, ?_⟩
        simp only [call_bind, call_orRaise, call_get]
        rcases p.hd.fromSeedBuffer (Hex.decode seedHex) s.sdk.network with e | key <;> rfl
    · simp only [hm, ht, Option.isSome_none, Bool.false_eq_true, and_false, false_and, if_false,
        Bool.not_false, or_true, if_true]
      exact ⟨_, rfl⟩
  · by_cases hm : mnemonic = []
    · simp only [hm, ne_eq, not_true, false_and, if_true, if_false, Option.isNone_some, Bool.false_eq_true,
        and_false]
      refine ⟨some seed, ?_⟩
      simp only [call_bind, call_modify, call_orRaise, call_get]
      have hn : ({ s with sdk := { s.sdk with primarySeed := some seed } } : World Node).sdk.network =
        s.sdk.network := rfl
      rw [hn]
      rcases p.hd.fromSeedBuffer seed s.sdk.network with e | key <;> rfl
    · simp only [hm, ne_eq, not_false_eq_true, true_and, Option.isSome_some, if_true, if_false]
      exact ⟨_, rfl⟩

theorem unlockV1_spec (p : Platform Node) (o : UnlockOptions) (s : World Node)
    (hn : s.sdk.network = s.wallet.network) : Unlocks p (unlockV1 p o) s (obtainedSeedV1 p s.wallet o) := by
  have h := call_resolve p o ((o.primaryMnemonic <|> s.wallet.primaryMnemonic).getD []) s
  have hu : ∀ q, Unlocks p (resolvePrimaryPrivateKeyFromOptions p o
      ((o.primaryMnemonic <|> s.wallet.primaryMnemonic).getD []) >>= fun r =>
        modifyWallet (fun w => { w with primarySeed := some r.1 }) >>= fun _ => pure r.2) s q →
      Unlocks p (unlockV1 p o) s q := fun _ hq => hq
  apply hu
  unfold obtainedSeedV1
  rcases hg : givenSeedV1 p o ((o.primaryMnemonic <|> s.wallet.primaryMnemonic).getD []) with _ | seed <;>
    rw [hg] at h
  · obtain ⟨e, he⟩ := h
    exact unlocks_of_error (call_bind_error he) ⟨s.wallet.secret, s.sdk.primarySeed, rfl⟩
  · obtain ⟨kept, hm⟩ := h
    have hr := resolve_root hn hm
    rw [Option.filter_some]
    exact hr

/-! ## Version 2 and version 3 -/

theorem call_rootOfSeed (p : Platform Node) (s : World Node) (secret : Option Data) (seed : Bytes)
    (kept : Option Bytes) :
    call (rootOfSeed p) (s.holding secret (some seed) kept) =
      (p.hd.fromSeedBuffer seed s.wallet.network, s.holding secret (some seed) kept) := by
  simp only [rootOfSeed, World.holding, call_bind, call_get, call_orRaise]

/-- The wallet with a secret, as the next step of an unlock finds it. -/
def World.withSecret (s : World Node) (secret : Option Data) : World Node :=
  s.holding secret s.wallet.primarySeed s.sdk.primarySeed

/-- What a version's way of decrypting the secret does. -/
def DecryptsSecret (m : Option Data → Option Data → Method Node Unit)
    (secretUnder : Option Data → Option Data → Option Data) : Prop :=
  ∀ enc pw s, match secretUnder enc pw with
    | some secret => call (m enc pw) s = (.ok (), s.withSecret (some secret))
    | none => ∃ e secret, call (m enc pw) s = (.error e, s.withSecret secret)

/-- What a version's way of decrypting the seed does, with the root made of it. -/
def DecryptsSeed (p : Platform Node) (m : Option Data → Method Node Unit)
    (seedUnder : Option Data → Option Data → Option Bytes) : Prop :=
  ∀ enc secret s, ∃ r t, call (m enc >>= fun _ => rootOfSeed p) (s.withSecret secret) = (r, t) ∧
    UnlockOutcome p s (seedUnder enc secret) r t

theorem decryptSecretV2_spec (p : Platform Node) : DecryptsSecret (decryptSecretV2 p) (secretUnderV2 p) := by
  intro enc pw s
  unfold secretUnderV2 decryptSecretV2
  rcases hd : p.aesDecrypt enc pw with _ | t
  · exact ⟨secretError, s.wallet.secret, rfl⟩
  · by_cases hn : t = []
    · simp only [call_bind, call_modifyWallet, if_pos hn, call_throw]
      exact ⟨secretError, some (.text t), rfl⟩
    · simp only [call_bind, call_modifyWallet, if_neg hn, call_pure]
      rfl

theorem decryptSecretV3_spec (p : Platform Node) : DecryptsSecret (decryptSecretV3 p) (secretUnderV3 p) := by
  intro enc pw s
  unfold secretUnderV3 decryptSecretV3
  rcases hb : bufferFromBase64 enc with e | ct
  · exact ⟨e, s.wallet.secret, rfl⟩
  rcases hw : bufferFrom pw with e | pwb
  · exact ⟨e, s.wallet.secret, rfl⟩
  simp only [call_bind, call_orRaise]
  rcases hd : Encryption.decrypt p ct (some (.buffer pwb)) with _ | secret
  · exact ⟨secretError, s.wallet.secret, rfl⟩
  · rfl

theorem decryptPrimarySeedV2_spec (p : Platform Node) :
    DecryptsSeed p (decryptPrimarySeedV2 p) (seedUnderV2 p) := by
  intro enc secret s
  have hs : (s.withSecret secret).wallet.secret = secret := rfl
  unfold seedUnderV2
  rcases hd : p.aesDecrypt enc secret with _ | t
  · refine ⟨.error seedError, s.withSecret secret, ?_, ⟨⟨_, _, rfl⟩, rfl⟩⟩
    simp only [decryptPrimarySeedV2, call_bind, call_get, hs, hd, call_throw]
  · by_cases hn : Base64.decode t = []
    · refine ⟨.error seedError, s.holding secret (some (Base64.decode t)) s.sdk.primarySeed, ?_,
        ⟨⟨_, _, rfl⟩, ?_⟩⟩
      · simp only [decryptPrimarySeedV2, call_bind, call_get, hs, hd, call_modifyWallet, if_pos hn, call_throw]
        rfl
      · -- The empty seed is assigned too; it has no root.
        rw [Option.map_some, Option.bind_some, hn]
        rfl
    · refine ⟨_, s.holding secret (some (Base64.decode t)) s.sdk.primarySeed, ?_, ⟨⟨_, _, rfl⟩, rfl⟩⟩
      simp only [decryptPrimarySeedV2, call_bind, call_get, hs, hd, call_modifyWallet, if_neg hn, call_pure]
      exact call_rootOfSeed p s secret _ _

theorem decryptPrimarySeedV3_spec (p : Platform Node) :
    DecryptsSeed p (decryptPrimarySeedV3 p) (seedUnderV3 p) := by
  intro enc secret s
  have hs : (s.withSecret secret).wallet.secret = secret := rfl
  rcases hb : bufferFromBase64 enc with e | ct
  · have hu : seedUnderV3 p enc secret = none := by simp only [seedUnderV3, hb]
    rw [hu]
    refine ⟨.error e, s.withSecret secret, ?_, ⟨⟨_, _, rfl⟩, rfl⟩⟩
    simp only [decryptPrimarySeedV3, call_bind, call_get, hb, call_orRaise]
  · have hu : seedUnderV3 p enc secret = Encryption.decrypt p ct secret := by simp only [seedUnderV3, hb]
    rw [hu]
    rcases hd : Encryption.decrypt p ct secret with _ | seed
    · refine ⟨.error seedError, s.withSecret secret, ?_, ⟨⟨_, _, rfl⟩, rfl⟩⟩
      simp only [decryptPrimarySeedV3, call_bind, call_get, hb, call_orRaise, hs, hd, call_throw]
    · refine ⟨_, s.holding secret (some seed) s.sdk.primarySeed, ?_, ⟨⟨_, _, rfl⟩, rfl⟩⟩
      simp only [decryptPrimarySeedV3, call_bind, call_get, hb, call_orRaise, hs, hd, call_modifyWallet]
      exact call_rootOfSeed p s secret _ _

/-- The secret an unlock goes on with. -/
def takenSecret (o : UnlockOptions) (s : World Node) : Option Data :=
  if truthy o.secret then o.secret else s.wallet.secret

theorem call_takeSecret (o : UnlockOptions) (s : World Node) :
    call (takeSecret o) s = (.ok (), s.withSecret (takenSecret o s)) := rfl

theorem unlockEncrypted_spec {p : Platform Node} {deprecatedError : Str}
    {decryptSecret : Option Data → Option Data → Method Node Unit}
    {decryptPrimarySeed : Option Data → Method Node Unit}
    {secretUnder : Option Data → Option Data → Option Data}
    {seedUnder : Option Data → Option Data → Option Bytes}
    (hsecret : DecryptsSecret decryptSecret secretUnder) (hseed : DecryptsSeed p decryptPrimarySeed seedUnder)
    (o : UnlockOptions) (s : World Node) :
    Unlocks p (unlockEncrypted p deprecatedError decryptSecret decryptPrimarySeed o) s
      (obtainedSeedEncrypted s.wallet o secretUnder seedUnder) := by
  unfold unlockEncrypted obtainedSeedEncrypted
  by_cases hk : o.primaryPrivateKey = true
  · simp only [if_pos hk]
    refine unlocks_of_error (t := s.withSecret (takenSecret o s))
      (e := ⟨deprecatedError, "specifying primaryPrivateKey has been deprecated"⟩) ?_ ⟨_, _, rfl⟩
    simp only [call_bind, call_get, call_takeSecret]
    rfl
  simp only [if_neg hk]
  rcases hp : o.primarySeed with _ | seed
  · by_cases hs : truthy o.secret = true
    · simp only [if_pos hs]
      obtain ⟨r, t, hc, ho⟩ := hseed (o.encryptedPrimarySeed.getD s.wallet.encryptedPrimarySeed) o.secret s
      have ht : takenSecret o s = o.secret := if_pos hs
      unfold Unlocks
      simp only [call_bind _ _ s, call_get, call_takeSecret, ht, hc]
      exact ho
    simp only [if_neg hs]
    by_cases hc : o.conflict = true
    · simp only [if_pos hc]
      refine unlocks_of_error (t := s.withSecret (takenSecret o s)) (e := conflictError) ?_ ⟨_, _, rfl⟩
      simp only [call_bind, call_get, call_takeSecret]
      rfl
    simp only [if_neg hc]
    have h := hsecret (o.encryptedSecret.getD s.wallet.encryptedSecret) o.anyPassword
      (s.withSecret (takenSecret o s))
    rcases hu : secretUnder (o.encryptedSecret.getD s.wallet.encryptedSecret) o.anyPassword with _ | secret
    · rw [hu] at h
      obtain ⟨e, secret, he⟩ := h
      refine unlocks_of_error (t := s.withSecret secret) (e := e) ?_ ⟨_, _, rfl⟩
      simp only [call_bind, call_get, call_takeSecret, he]
      rfl
    · rw [hu] at h
      obtain ⟨r, t, hc', ho⟩ :=
        hseed (o.encryptedPrimarySeed.getD s.wallet.encryptedPrimarySeed) (some secret) s
      unfold Unlocks
      simp only [call_bind _ _ s, call_get, call_takeSecret]
      rw [call_bind_ok h]
      change UnlockOutcome p s _ (call _ (s.withSecret (some secret))).1 (call _ (s.withSecret (some secret))).2
      rw [hc']
      exact ho
  · refine unlocks_of_seed (t := s.holding (takenSecret o s) (some seed) s.sdk.primarySeed) ?_
      ⟨_, _, rfl⟩ rfl
    simp only [call_bind, call_get, call_takeSecret, call_modifyWallet]
    exact call_rootOfSeed p s _ _ _

/-! ## Every version -/

/-- **An unlock up to the checksum.** It gets the seed that its options give, and makes the root of it. -/
theorem unlockVersion_spec (p : Platform Node) (o : UnlockOptions) (s : World Node)
    (hn : s.sdk.network = s.wallet.network) :
    Unlocks p (unlockVersion p o) s (obtainedSeed p s.wallet o) := by
  unfold unlockVersion obtainedSeed Unlocks
  simp only [call_bind _ _ s, call_get]
  rcases s.wallet.walletVersion with _ | _ | _ | t
  · exact unlockV1_spec p o s hn
  · exact unlockEncrypted_spec (decryptSecretV2_spec p) (decryptPrimarySeedV2_spec p) o s
  · exact unlockEncrypted_spec (decryptSecretV3_spec p) (decryptPrimarySeedV3_spec p) o s
  · exact ⟨⟨s.wallet.secret, s.sdk.primarySeed, rfl⟩, rfl⟩

/-! ## The key index -/

/-- The world with another key index and other public keys. -/
def World.rekeyed (s : World Node) (keyIndex : Nat) (blocktrailPublicKeys primaryPublicKeys : Str → Option Node) :
    World Node :=
  { s with wallet := { s.wallet with keyIndex := keyIndex, blocktrailPublicKeys := blocktrailPublicKeys,
                                     primaryPublicKeys := primaryPublicKeys } }

/-- What `upgradeKeyIndex` leaves: at most another key index and other public keys. -/
structure KeyIndexOutcome (p : Platform Node) (s : World Node) (keyIndex : Nat) (t : World Node) : Prop where
  frame : ∃ k b c, t = s.rekeyed k b c
  blocktrail : ∀ j, (s.wallet.blocktrailPublicKeys j).isSome → (t.wallet.blocktrailPublicKeys j).isSome
  primary : t.wallet.primaryPublicKeys = s.wallet.primaryPublicKeys ∨
    ∃ root child, s.wallet.locked = false ∧ s.wallet.primaryPrivateKey = some root ∧
      p.hd.deriveHardened root keyIndex = .ok child ∧
      t.wallet.primaryPublicKeys =
        Function.update s.wallet.primaryPublicKeys (dec keyIndex) (some (p.hd.neutered child))

theorem KeyIndexOutcome.refl (p : Platform Node) (s : World Node) (keyIndex : Nat) :
    KeyIndexOutcome p s keyIndex s :=
  ⟨⟨s.wallet.keyIndex, s.wallet.blocktrailPublicKeys, s.wallet.primaryPublicKeys, rfl⟩, fun _ h => h,
    Or.inl rfl⟩

theorem call_setBlocktrailPublicKeys (p : Platform Node) (entries : List (Str × Str)) (s : World Node) :
    ∃ r b, call (entries.forM (setBlocktrailPublicKey p)) s =
        (r, s.rekeyed s.wallet.keyIndex b s.wallet.primaryPublicKeys) ∧
      ∀ j, (s.wallet.blocktrailPublicKeys j).isSome → (b j).isSome := by
  induction entries generalizing s with
  | nil => exact ⟨.ok (), s.wallet.blocktrailPublicKeys, rfl, fun _ h => h⟩
  | cons entry entries ih =>
    have hcons : (entry :: entries).forM (setBlocktrailPublicKey p) =
      setBlocktrailPublicKey p entry >>= fun _ => entries.forM (setBlocktrailPublicKey p) := rfl
    rw [hcons]
    rcases hk : p.hd.fromBase58 entry.2 s.wallet.network with e | key
    · refine ⟨.error e, s.wallet.blocktrailPublicKeys, call_bind_error ?_, fun _ h => h⟩
      simp only [setBlocktrailPublicKey, call_bind, call_get, hk, call_orRaise]
      rfl
    · let b' := Function.update s.wallet.blocktrailPublicKeys entry.1 (some key)
      have hset : call (setBlocktrailPublicKey p entry) s =
          (.ok (), s.rekeyed s.wallet.keyIndex b' s.wallet.primaryPublicKeys) := by
        simp only [setBlocktrailPublicKey, call_bind, call_get, hk, call_orRaise, call_modifyWallet]
        rfl
      obtain ⟨r, b, hc, hb⟩ := ih (s.rekeyed s.wallet.keyIndex b' s.wallet.primaryPublicKeys)
      refine ⟨r, b, by rw [call_bind_ok hset, hc]; rfl, fun j hj => hb j ?_⟩
      show (b' j).isSome
      rcases eq_or_ne j entry.1 with rfl | hne
      · simp only [b', Function.update_self, Option.isSome_some]
      · simp only [b', Function.update_of_ne hne]
        exact hj

theorem upgradeKeyIndex_spec (p : Platform Node) (a : Answers) (keyIndex : Nat) (s : World Node) :
    KeyIndexOutcome p s keyIndex (after (upgradeKeyIndex p a keyIndex) s) := by
  unfold after upgradeKeyIndex
  rw [call_get_bind]
  by_cases hl : s.wallet.locked = true
  · rw [if_pos hl]
    exact .refl p s keyIndex
  rw [if_neg hl]
  rcases hr : s.wallet.primaryPrivateKey with _ | root
  · exact .refl p s keyIndex
  dsimp only
  rcases hd : p.hd.deriveHardened root keyIndex with e | child
  · rw [call_orRaise_bind_error rfl]
    exact .refl p s keyIndex
  rw [call_orRaise_bind_ok rfl]
  rcases a.upgradeKeyIndex with e | entries
  · exact .refl p s keyIndex
  rw [call_orRaise_bind_ok rfl, call_modifyWallet_bind (t := s.rekeyed keyIndex s.wallet.blocktrailPublicKeys s.wallet.primaryPublicKeys) rfl]
  obtain ⟨r, b, hc, hb⟩ := call_setBlocktrailPublicKeys p entries
    (s.rekeyed keyIndex s.wallet.blocktrailPublicKeys s.wallet.primaryPublicKeys)
  have hl' : s.wallet.locked = false := by simpa using hl
  rcases r with e | _
  · rw [call_bind_error hc]
    exact ⟨⟨keyIndex, b, s.wallet.primaryPublicKeys, rfl⟩, hb, Or.inl rfl⟩
  · rw [call_bind_ok hc]
    exact ⟨⟨keyIndex, b, _, rfl⟩, hb, Or.inr ⟨root, child, hl', hr, hd, rfl⟩⟩

/-! ## Unlock -/

/-- The world after the root `key` of `seed` was made and assigned. -/
def World.tried (s : World Node) (secret : Option Data) (seed : Bytes) (kept : Option Bytes) (key : Node)
    (locked : Bool) : World Node :=
  { s with wallet := { s.wallet with secret := secret, primarySeed := some seed,
                                     primaryPrivateKey := some key, locked := locked },
           sdk := { s.sdk with primarySeed := kept } }

/-- An unlock that has made a key compares the checksum, and upgrades the key index where one is due. -/
theorem unlock_of_key {p : Platform Node} {a : Answers} {o : UnlockOptions} {s : World Node} {key : Node}
    {secret : Option Data} {seed : Bytes} {kept : Option Bytes}
    (hc : call (unlockVersion p o) s = (.ok key, s.holding secret (some seed) kept)) :
    (p.hd.getAddress key ≠ s.wallet.checksum ∧
        after (unlock p a o) s = s.tried secret seed kept key s.wallet.locked) ∨
      (p.hd.getAddress key = s.wallet.checksum ∧
        ∃ keyIndex, KeyIndexOutcome p (s.tried secret seed kept key false) keyIndex (after (unlock p a o) s)) := by
  unfold after unlock
  rw [call_bind_ok hc]
  rw [call_modifyWallet_bind (t := s.tried secret seed kept key s.wallet.locked) rfl, call_bind_ok (call_get _)]
  have hw : (s.tried secret seed kept key s.wallet.locked).wallet.checksum = s.wallet.checksum := rfl
  simp only [hw]
  by_cases hcs : p.hd.getAddress key = s.wallet.checksum
  · refine Or.inr ⟨hcs, ?_⟩
    rw [if_neg (not_not.mpr hcs), call_modifyWallet_bind (t := s.tried secret seed kept key false) rfl]
    rcases (s.tried secret seed kept key s.wallet.locked).wallet.upgradeToKeyIndex with _ | keyIndex
    · exact ⟨0, .refl p _ 0⟩
    · simp only [call_map]
      exact ⟨keyIndex, upgradeKeyIndex_spec p a keyIndex _⟩
  · refine Or.inl ⟨hcs, ?_⟩
    rw [if_pos hcs]
    rfl

/-- **What an unlock does**, in terms of the seed that its options give. -/
theorem unlock_cases (p : Platform Node) (a : Answers) (o : UnlockOptions) (s : World Node)
    (hn : s.sdk.network = s.wallet.network) :
    (obtainedSeed p s.wallet o = none ∧
      ∃ secret kept, after (unlock p a o) s = s.holding secret s.wallet.primarySeed kept) ∨
    ∃ seed secret kept, obtainedSeed p s.wallet o = some seed ∧
      ((∃ e, p.hd.fromSeedBuffer seed s.wallet.network = .error e ∧
          after (unlock p a o) s = s.holding secret (some seed) kept) ∨
        ∃ key, p.hd.fromSeedBuffer seed s.wallet.network = .ok key ∧
          ((p.hd.getAddress key ≠ s.wallet.checksum ∧
              after (unlock p a o) s = s.tried secret seed kept key s.wallet.locked) ∨
            (p.hd.getAddress key = s.wallet.checksum ∧
              ∃ keyIndex, KeyIndexOutcome p (s.tried secret seed kept key false) keyIndex
                (after (unlock p a o) s)))) := by
  obtain ⟨⟨secret, kept, hf⟩, hkey⟩ := unlockVersion_spec p o s hn
  rcases hc : call (unlockVersion p o) s with ⟨r, t⟩
  rw [hc] at hf hkey
  simp only at hf hkey
  subst hf
  rcases hs : obtainedSeed p s.wallet o with _ | seed <;> rw [hs] at hkey hc
  · rcases r with e | key
    · exact Or.inl ⟨rfl, secret, kept, by unfold after unlock; rw [call_bind_error hc]; rfl⟩
    · cases hkey
  refine Or.inr ⟨seed, secret, kept, rfl, ?_⟩
  rw [Option.bind_some] at hkey
  rcases hr : p.hd.fromSeedBuffer seed s.wallet.network with e | key <;> rw [hr] at hkey
  · rcases r with e' | key'
    · exact Or.inl ⟨e, rfl, by unfold after unlock; rw [call_bind_error hc]; rfl⟩
    · cases hkey
  rcases r with e' | key' <;> cases hkey
  exact Or.inr ⟨key, rfl, unlock_of_key hc⟩

/-! ## Whether an unlock resolves -/

/-- The server gives what an upgrade to `keyIndex` asks for. -/
structure AnswersUpgrade (p : Platform Node) (a : Answers) (root : Node) (network : Network) (keyIndex : Nat) : Prop where
  child : ∃ child, p.hd.deriveHardened root keyIndex = .ok child
  keys : ∃ entries, a.upgradeKeyIndex = .ok entries ∧ ∀ entry ∈ entries, ∃ key, p.hd.fromBase58 entry.2 network = .ok key

theorem setBlocktrailPublicKeys_ok_iff (p : Platform Node) (entries : List (Str × Str)) (s : World Node) :
    (call (entries.forM (setBlocktrailPublicKey p)) s).1 = .ok () ↔
      ∀ entry ∈ entries, ∃ key, p.hd.fromBase58 entry.2 s.wallet.network = .ok key := by
  induction entries generalizing s with
  | nil => exact ⟨fun _ entry hentry => (by cases hentry), fun _ => rfl⟩
  | cons entry entries ih =>
    have hcons : (entry :: entries).forM (setBlocktrailPublicKey p) =
      setBlocktrailPublicKey p entry >>= fun _ => entries.forM (setBlocktrailPublicKey p) := rfl
    rw [hcons, List.forall_mem_cons]
    rcases hk : p.hd.fromBase58 entry.2 s.wallet.network with e | key
    · have hset : (call (setBlocktrailPublicKey p entry) s).1 = .error e := by
        simp only [setBlocktrailPublicKey, call_bind, call_get, hk, call_orRaise]
      rw [call_bind_fst_error hset]
      exact ⟨fun h => (by cases h), fun h => (by obtain ⟨⟨key, hkey⟩, -⟩ := h; cases hkey)⟩
    · have hset : call (setBlocktrailPublicKey p entry) s =
          (.ok (), s.rekeyed s.wallet.keyIndex (Function.update s.wallet.blocktrailPublicKeys entry.1 (some key))
            s.wallet.primaryPublicKeys) := by
        simp only [setBlocktrailPublicKey, call_bind, call_get, hk, call_orRaise, call_modifyWallet]
        rfl
      rw [call_bind_ok hset, ih]
      exact ⟨fun h => ⟨⟨key, rfl⟩, h⟩, fun h => h.2⟩

theorem upgradeKeyIndex_ok_iff (p : Platform Node) (a : Answers) (keyIndex : Nat) {s : World Node} {root : Node}
    (hl : s.wallet.locked = false) (hr : s.wallet.primaryPrivateKey = some root) :
    (∃ r, (call (upgradeKeyIndex p a keyIndex) s).1 = .ok r) ↔ AnswersUpgrade p a root s.wallet.network keyIndex := by
  unfold upgradeKeyIndex
  rw [call_get_bind, if_neg (by simp [hl]), hr]
  dsimp only
  rcases hd : p.hd.deriveHardened root keyIndex with e | child
  · rw [call_orRaise_bind_error rfl]
    refine ⟨fun ⟨r, h⟩ => (by cases h), fun h => ?_⟩
    obtain ⟨child, hchild⟩ := h.child
    cases hd.symm.trans hchild
  rw [call_orRaise_bind_ok rfl]
  rcases ha : a.upgradeKeyIndex with e | entries
  · rw [call_orRaise_bind_error rfl]
    refine ⟨fun ⟨r, h⟩ => (by cases h), fun h => ?_⟩
    obtain ⟨entries, hentries, -⟩ := h.keys
    cases ha.symm.trans hentries
  rw [call_orRaise_bind_ok rfl, call_modifyWallet_bind
    (t := s.rekeyed keyIndex s.wallet.blocktrailPublicKeys s.wallet.primaryPublicKeys) rfl]
  have hkeys := setBlocktrailPublicKeys_ok_iff p entries
    (s.rekeyed keyIndex s.wallet.blocktrailPublicKeys s.wallet.primaryPublicKeys)
  rcases hc : call (entries.forM (setBlocktrailPublicKey p))
    (s.rekeyed keyIndex s.wallet.blocktrailPublicKeys s.wallet.primaryPublicKeys) with ⟨e | _, t⟩
  · rw [hc] at hkeys
    rw [call_bind_error hc]
    refine ⟨fun ⟨r, h⟩ => (by cases h), fun h => ?_⟩
    obtain ⟨entries', hentries, hall⟩ := h.keys
    cases ha.symm.trans hentries
    cases hkeys.mpr hall
  · rw [hc] at hkeys
    rw [call_bind_ok hc]
    exact ⟨fun _ => ⟨⟨child, hd⟩, entries, ha, hkeys.mp rfl⟩, fun _ => ⟨true, rfl⟩⟩

theorem unlock_ok_iff {p : Platform Node} {a : Answers} {o : UnlockOptions} {s : World Node} {key : Node}
    {secret : Option Data} {seed : Bytes} {kept : Option Bytes}
    (hc : call (unlockVersion p o) s = (.ok key, s.holding secret (some seed) kept))
    (hcs : p.hd.getAddress key = s.wallet.checksum) :
    (∃ r, (call (unlock p a o) s).1 = .ok r) ↔
      ∀ keyIndex, s.wallet.upgradeToKeyIndex = some keyIndex → AnswersUpgrade p a key s.wallet.network keyIndex := by
  unfold unlock
  rw [call_bind_ok hc]
  rw [call_modifyWallet_bind (t := s.tried secret seed kept key s.wallet.locked) rfl, call_bind_ok (call_get _)]
  have hw : (s.tried secret seed kept key s.wallet.locked).wallet.checksum = s.wallet.checksum := rfl
  have hu : (s.tried secret seed kept key s.wallet.locked).wallet.upgradeToKeyIndex = s.wallet.upgradeToKeyIndex := rfl
  simp only [hw, hu]
  rw [if_neg (not_not.mpr hcs), call_modifyWallet_bind (t := s.tried secret seed kept key false) rfl]
  rcases s.wallet.upgradeToKeyIndex with _ | keyIndex
  · exact ⟨fun _ keyIndex h => (by cases h), fun _ => ⟨none, rfl⟩⟩
  · dsimp only
    have hup := upgradeKeyIndex_ok_iff p a keyIndex (s := s.tried secret seed kept key false) rfl rfl
    rw [call_map]
    constructor
    · rintro ⟨r, h⟩ i hi
      cases hi
      refine hup.mp ?_
      rcases hr : (call (upgradeKeyIndex p a keyIndex) (s.tried secret seed kept key false)).1 with e | r'
      · rw [hr] at h
        cases h
      · exact ⟨r', rfl⟩
    · intro h
      obtain ⟨r, hr⟩ := hup.mpr (h keyIndex rfl)
      exact ⟨some r, by rw [hr]; rfl⟩

end JsSdk
