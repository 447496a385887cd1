import Blocktrail.JsSdk.Lifecycle
import Blocktrail.JsSdk.RecoverySpec

/-! # What a new wallet is left with

The stored data open with the passphrase, and the mnemonics that are returned for the backup sheet are those of the
stored data.
-/

open Text Throwing Bitcoin Crypt Crypt.Bip39

namespace JsSdk

variable {Node : Type}

/-! ## The steps of `createNewWallet` -/

def NewWalletOptions.seed (o : NewWalletOptions Node) (r : Draws) : Bytes := o.primarySeed.getD r.primarySeed.val

/-- What the steps came to, up to the wallet that is unlocked and the sheet. -/
structure Scheme.Steps {Ct : Type} (scheme : Scheme Node Ct) (p : Platform Node) (sdk : Sdk) (a : Answers) (r : Draws)
    (o : NewWalletOptions Node) (n : NewWallet Node) (e : ProducedData Ct) (k : RemainingData Node)
    (result : StoreResult) (w : Wallet Node) : Prop where
  produce : scheme.produce r o (o.seed r) = .ok e
  remaining : doRemainingWalletData p sdk.network r o (o.seed r) = .ok k
  post : scheme.walletPost p sdk o e k = .ok n.post
  wallet : createdWallet p sdk scheme.version (scheme.createdData o (o.seed r) e k result) = .ok w
  world : n.world = after (unlock p a (createdUnlockOptions scheme.version (scheme.createdData o (o.seed r) e k result)))
    ⟨w, sdk, n.post.server⟩
  backupInfo : scheme.backupInfo p e k.backupSeed result.blocktrailPublicKeys = .ok n.backupInfo

theorem Scheme.createNewWallet_ok {Ct : Type} {scheme : Scheme Node Ct} {p : Platform Node} {sdk : Sdk} {a : Answers}
    {r : Draws} {o : NewWalletOptions Node} {store : WalletPost → Except JsError StoreResult} {n : NewWallet Node}
    (h : scheme.createNewWallet p sdk a r o store = .ok n) : ∃ e k result w, scheme.Steps p sdk a r o n e k result w := by
  unfold Scheme.createNewWallet at h
  dsimp only at h
  split_ifs at h
  · cases h
  obtain ⟨e, he, h⟩ := exists_of_bind_ok h
  obtain ⟨k, hk, h⟩ := exists_of_bind_ok h
  obtain ⟨post, hpost, h⟩ := exists_of_bind_ok h
  obtain ⟨result, -, h⟩ := exists_of_bind_ok h
  obtain ⟨w, hw, h⟩ := exists_of_bind_ok h
  obtain ⟨_, -, h⟩ := exists_of_bind_ok h
  obtain ⟨info, hinfo, h⟩ := exists_of_bind_ok h
  cases h
  exact ⟨e, k, result, w, he, hk, hpost, hw, rfl, hinfo⟩

theorem mnemonicOf_eq_some {α : Type} {f : α → Except JsError Str} {x : Option α} {m : Str}
    (h : mnemonicOf f x = .ok (some m)) : ∃ y, x = some y ∧ f y = .ok m := by
  rcases x with _ | y
  · cases h
  · refine ⟨y, rfl, ?_⟩
    change some <$> f y = .ok (some m) at h
    rcases hf : f y with e | m' <;> rw [hf] at h <;> cases h
    rfl

theorem Scheme.backupInfo_ok {Ct : Type} {scheme : Scheme Node Ct} {p : Platform Node} {e : ProducedData Ct}
    {backupSeed : Option Bytes} {keys : List (Str × Str)} {info : BackupInfo}
    (h : scheme.backupInfo p e backupSeed keys = .ok info) :
    info.walletVersion = scheme.version ∧ info.blocktrailPublicKeys = keys ∧
      mnemonicOf scheme.mnemonic e.encryptedPrimarySeed = .ok info.encryptedPrimarySeed ∧
      mnemonicOf (fun seed => p.entropyToMnemonic (Hex.encode seed)) backupSeed = .ok info.backupSeed ∧
      mnemonicOf scheme.mnemonic e.recoveryEncryptedSecret = .ok info.recoveryEncryptedSecret ∧
      mnemonicOf scheme.mnemonic e.encryptedSecret = .ok info.encryptedSecret := by
  unfold Scheme.backupInfo at h
  obtain ⟨encryptedPrimarySeed, h1, h⟩ := exists_of_bind_ok h
  obtain ⟨backup, h2, h⟩ := exists_of_bind_ok h
  obtain ⟨recovery, h3, h⟩ := exists_of_bind_ok h
  obtain ⟨encryptedSecret, h4, h⟩ := exists_of_bind_ok h
  cases h
  exact ⟨rfl, rfl, h1, h2, h3, h4⟩

/-! ## Ciphertexts -/

section Ciphertexts

variable {p : Platform Node}

theorem secretUnderV2_aesEncrypt (hi : Inverts p) {s ct : Str} {key : Data} {salt : Bytes} (hne : s ≠ [])
    (h : p.aesEncrypt (some (.text s)) key salt = .ok ct) :
    secretUnderV2 p (some (.text ct)) (some key) = some (.text s) := by
  simp only [secretUnderV2, hi.aes s key salt ct h, if_neg hne]

theorem seedUnderV2_aesEncrypt (hi : Inverts p) {seed : Bytes} {ct : Str} {key : Data} {salt : Bytes}
    (h : p.aesEncrypt (some (.text (Base64.encode seed))) key salt = .ok ct) :
    seedUnderV2 p (some (.text ct)) (some key) = some seed := by
  simp only [seedUnderV2, hi.aes _ key salt ct h, Option.map_some, Base64.decode_encode]

theorem seedUnderV3_gcmEncrypt (hi : Inverts p) {seed secret : Bytes} {salt : Salt} {iv : IV} {enc : Option Data}
    (h : bufferFromBase64 enc = .ok (p.gcmEncrypt seed secret salt iv subkeyIterations)) :
    seedUnderV3 p enc (some (.buffer secret)) = some seed := by
  simp only [seedUnderV3, h, Encryption.decrypt]
  exact hi.gcm seed secret salt iv subkeyIterations (by decide) (by decide)

end Ciphertexts

/-! ## Sizes -/

theorem length_utf8_le (s : Str) : (utf8 s).length ≤ 4 * s.length := by
  induction s with
  | nil => exact Nat.le_refl _
  | cons c s ih =>
    have hc := Char.utf8Size_le_four c
    have hlen : (String.utf8EncodeChar c).length = c.utf8Size := String.length_utf8EncodeChar c
    rw [utf8, List.flatMap_cons, List.length_append, hlen, List.length_cons]
    have ih' : (s.flatMap String.utf8EncodeChar).length ≤ 4 * s.length := ih
    omega

theorem Platform.Standard.sheetable {p : Platform Node} {c : Ciphers} {wordlist : Wordlist} (hp : p.Standard c wordlist)
    {s : Str} {key : Data} {salt : Bytes} {ct : Str} (hlen : s.length ≤ 240)
    (h : p.aesEncrypt (some (.text s)) key salt = .ok ct) : Sheetable ct := by
  obtain ⟨rest, rfl, hrest⟩ := hp.aesFormat s key salt ct h
  have hutf8 := length_utf8_le s
  have hmagic : (saltedMagic ++ rest).length = 8 + rest.length := List.length_append
  constructor
  · rw [Base64.decode_encode]
  · unfold IsEntropy
    rw [Base64.decode_encode, hmagic]
    refine ⟨?_, ?_, ?_⟩ <;> omega
  · rw [Base64.decode_encode]
    show some (83 : Byte) ≠ some EncryptionMnemonic.paddingDummy
    decide

/-! ## The encrypted data -/

section Data

variable {p : Platform Node} {r : Draws} {o : NewWalletOptions Node} {seed : Bytes}

theorem Scheme.encryptData_of_produce {Ct : Type} {scheme : Scheme Node Ct} {e : ProducedData Ct} {ct : Ct}
    (h : scheme.produce r o seed = .ok e) (hct : e.encryptedSecret = some ct) :
    determineDataStorage o = true ∧ scheme.encryptData r o seed = .ok e := by
  unfold Scheme.produce at h
  split_ifs at h with hstore
  · exact ⟨hstore, h⟩
  · cases h
    cases hct

theorem givenOption_eq_some {x : Option Data} {y : Data} (h : givenOption x = some y) : x = some y := by
  unfold givenOption at h
  split_ifs at h
  exact h

theorem produceSecretV2_ok {secret passphrase : Option Data} {drawn : Data} {ct : Str}
    (h : produceSecretV2 p r secret passphrase = .ok (drawn, some ct)) :
    drawn = .text (Hex.encode r.secret.val) ∧
      ∃ pw, passphrase = some pw ∧ p.aesEncrypt (some drawn) pw r.aesSecretSalt = .ok ct := by
  unfold produceSecretV2 at h
  split at h
  · cases h
  · cases h
  · next pw _ hpw =>
    obtain ⟨enc, henc, h⟩ := exists_of_bind_ok h
    cases h
    exact ⟨rfl, pw, givenOption_eq_some hpw, henc⟩

/-- The secret that was drawn is under the passphrase and under the recovery secret, and the seed under it. -/
structure EncryptedV2 (p : Platform Node) (r : Draws) (passphrase : Option Data) (seed : Bytes) (secretCt : Str)
    (e : ProducedData Str) : Prop where
  secret : e.secret = some (.text (Hex.encode r.secret.val))
  encryptedSecret : ∃ pw, passphrase = some pw ∧
    p.aesEncrypt (some (.text (Hex.encode r.secret.val))) pw r.aesSecretSalt = .ok secretCt
  encryptedPrimarySeed : ∃ ct, e.encryptedPrimarySeed = some ct ∧
    p.aesEncrypt (some (.text (Base64.encode seed))) (.text (Hex.encode r.secret.val)) r.aesSeedSalt = .ok ct
  recoverySecret : e.recoverySecret = .given (.text (Hex.encode r.recoverySecret.val))
  recoveryEncryptedSecret : ∀ ct, e.recoveryEncryptedSecret = some ct →
    p.aesEncrypt (some (.text (Hex.encode r.secret.val))) (.text (Hex.encode r.recoverySecret.val)) r.aesRecoverySalt =
      .ok ct

theorem encryptDataV2_ok {e : ProducedData Str} {secretCt : Str} (h : encryptDataV2 p r o seed = .ok e)
    (hct : e.encryptedSecret = some secretCt) : EncryptedV2 p r o.anyPassphrase seed secretCt e := by
  unfold encryptDataV2 at h
  obtain ⟨⟨secret, encryptedSecret⟩, hsecret, h⟩ := exists_of_bind_ok h
  obtain ⟨seedCt, hseed, h⟩ := exists_of_bind_ok h
  obtain ⟨recoveryCt, hrecovery, h⟩ := exists_of_bind_ok h
  cases h
  cases hct
  obtain ⟨rfl, pw, hpw, henc⟩ := produceSecretV2_ok hsecret
  refine ⟨rfl, ⟨pw, hpw, henc⟩, ⟨seedCt, rfl, hseed⟩, rfl, fun ct hct => ?_⟩
  cases hct
  exact hrecovery

theorem produceSecretV3_ok {secret passphrase : Option Data} {drawn : Data} {ct : Bytes}
    (h : produceSecretV3 p r secret passphrase = .ok (drawn, some ct)) :
    drawn = .buffer r.secret.val ∧ ∃ pw, bufferFrom passphrase = .ok pw ∧
      ct = p.gcmEncrypt r.secret.val pw r.secretSalt r.secretIV defaultIterations := by
  unfold produceSecretV3 at h
  split at h
  · cases h
  · cases h
  · cases h
  · next pw _ hpw =>
    obtain ⟨pwb, hpwb, h⟩ := exists_of_bind_ok h
    cases h
    exact ⟨rfl, pwb, by rw [givenOption_eq_some hpw]; exact hpwb, rfl⟩

theorem produceRecoveryV3_ok {secret : Bytes} {given recovery : RecoverySecret} {ct : Bytes}
    (h : produceRecoveryV3 p r (.buffer secret) given = .ok (recovery, some ct)) :
    ∃ b, recovery = .given (.buffer b) ∧ ct = p.gcmEncrypt secret b r.recoverySalt r.recoveryIV defaultIterations := by
  have hgiven : ∀ x, (Encryption.encrypt p (some (.buffer secret)) (some x) r.recoverySalt r.recoveryIV defaultIterations >>=
      fun enc => pure (RecoverySecret.given x, some enc)) = .ok (recovery, some ct) →
      ∃ b, recovery = .given (.buffer b) ∧ ct = p.gcmEncrypt secret b r.recoverySalt r.recoveryIV defaultIterations := by
    intro x hx
    rcases x with s | b
    · cases hx
    · cases hx
      exact ⟨b, rfl, rfl⟩
  cases given with
  | no => cases h
  | undefined => exact hgiven _ h
  | given x => exact hgiven _ h

structure EncryptedV3 (p : Platform Node) (r : Draws) (passphrase : Option Data) (seed secretCt : Bytes)
    (e : ProducedData Bytes) : Prop where
  secret : e.secret = some (.buffer r.secret.val)
  encryptedSecret : ∃ pw, bufferFrom passphrase = .ok pw ∧
    secretCt = p.gcmEncrypt r.secret.val pw r.secretSalt r.secretIV defaultIterations
  encryptedPrimarySeed : e.encryptedPrimarySeed =
    some (p.gcmEncrypt seed r.secret.val r.seedSalt r.seedIV subkeyIterations)
  recovery : ∀ ct, e.recoveryEncryptedSecret = some ct → ∃ b, e.recoverySecret = .given (.buffer b) ∧
    ct = p.gcmEncrypt r.secret.val b r.recoverySalt r.recoveryIV defaultIterations

theorem encryptDataV3_ok {e : ProducedData Bytes} {secretCt : Bytes} (h : encryptDataV3 p r o seed = .ok e)
    (hct : e.encryptedSecret = some secretCt) : EncryptedV3 p r o.anyPassphrase seed secretCt e := by
  unfold encryptDataV3 at h
  obtain ⟨⟨secret, encryptedSecret⟩, hsecret, h⟩ := exists_of_bind_ok h
  obtain ⟨seedCt, hseed, h⟩ := exists_of_bind_ok h
  obtain ⟨⟨recovery, recoveryCt⟩, hrecovery, h⟩ := exists_of_bind_ok h
  cases h
  cases hct
  obtain ⟨rfl, henc⟩ := produceSecretV3_ok hsecret
  cases hseed
  refine ⟨rfl, henc, rfl, fun ct hct => ?_⟩
  cases hct
  exact produceRecoveryV3_ok hrecovery

theorem Scheme.walletPost_ok {Ct : Type} {scheme : Scheme Node Ct} {sdk : Sdk} {e : ProducedData Ct}
    {k : RemainingData Node} {post : WalletPost} (h : scheme.walletPost p sdk o e k = .ok post) :
    post.walletVersion = scheme.version ∧
      scheme.post (determineDataStorage o) e.encryptedPrimarySeed = .ok post.encryptedPrimarySeed ∧
      scheme.post (determineDataStorage o) e.encryptedSecret = .ok post.encryptedSecret ∧
      scheme.postRecovery (determineDataStorage o) e.recoverySecret = .ok post.recoverySecret := by
  unfold Scheme.walletPost at h
  obtain ⟨encryptedPrimarySeed, h1, h⟩ := exists_of_bind_ok h
  obtain ⟨encryptedSecret, h2, h⟩ := exists_of_bind_ok h
  obtain ⟨recoverySecret, h3, h⟩ := exists_of_bind_ok h
  obtain ⟨_, -, h⟩ := exists_of_bind_ok h
  obtain ⟨_, -, h⟩ := exists_of_bind_ok h
  cases h
  exact ⟨rfl, h1, h2, h3⟩

end Data

/-! ## The wallet -/

/-- What a new wallet is made of. -/
structure MadeOf (p : Platform Node) (sdk : Sdk) (version : WalletVersion) (d : CreatedData Node) (w : Wallet Node) :
    Prop where
  root : ∃ root child, p.hd.fromSeedBuffer d.primarySeed sdk.network = .ok root ∧
    p.hd.deriveHardened root d.keyIndex = .ok child ∧ w.checksum = p.hd.getAddress root ∧
    w.primaryPublicKeys = createdPublicKeys (p.hd.neutered child)
  blocktrailPublicKeys : ∃ keys, readKeys p sdk.network d.blocktrailPublicKeys = .ok keys
  backupPublicKey : w.backupPublicKey = d.backupPublicKey
  network : w.network = sdk.network
  stored : w.stored = ⟨version, none, d.encryptedPrimarySeed, d.encryptedSecret⟩

theorem createdWallet_madeOf {p : Platform Node} {sdk : Sdk} {version : WalletVersion} {d : CreatedData Node}
    {w : Wallet Node} (hv : version ≠ .v1) (h : createdWallet p sdk version d = .ok w) : MadeOf p sdk version d w := by
  unfold createdWallet at h
  obtain ⟨root, hroot, h⟩ := exists_of_bind_ok h
  obtain ⟨child, hchild, h⟩ := exists_of_bind_ok h
  obtain ⟨keys, hkeys, h⟩ := exists_of_bind_ok h
  have hf := newWallet_fresh h
  refine ⟨⟨root, child, hroot, hchild, hf.checksum, hf.primaryPublicKeys⟩, ⟨keys, hkeys⟩, hf.backupPublicKey, hf.network, ?_⟩
  unfold Wallet.stored
  rw [hf.walletVersion, hf.primaryMnemonic, hf.encryptedPrimarySeed, hf.encryptedSecret]
  simp only [if_neg hv]

/-! ## What the data open with -/

/-- The secret of a new wallet. -/
def drawnSecret (version : WalletVersion) (r : Draws) : Data :=
  match version with
  | .v2 => .text (Hex.encode r.secret.val)
  | _ => .buffer r.secret.val

/-- The passphrase opens the data here and on the server, the pages of the sheet are printed from them, and so does the
recovery secret that the server keeps open the page for it. -/
structure Opened (p : Platform Node) (wordlist : Wordlist) (seed : Bytes) (secret passphrase : Data)
    (stored : StoredData) (post : WalletPost) (info : BackupInfo) (seedWords secretWords : Str) : Prop where
  held : recover p stored passphrase = some (seed, some secret)
  onServer : recover p post.server.stored passphrase = some (seed, some secret)
  prints : Prints p stored seedWords secretWords
  recovery : ∀ words key, info.recoveryEncryptedSecret = some words → post.server.recoverySecret = some key →
    primarySeedOf p wordlist info.walletVersion seedWords (.recovery words key) = .ok seed

section Opened

variable {p : Platform Node} {c : Ciphers} {wordlist : Wordlist} {sdk : Sdk} {a : Answers} {r : Draws}
  {o : NewWalletOptions Node} {n : NewWallet Node} {k : RemainingData Node} {result : StoreResult} {w : Wallet Node}
  {seedWords secretWords : Str} {passphrase : Data}

theorem length_hex_drawn (b : Entropy) : (Hex.encode b.val).length = 64 := by
  have hb : b.val.length = 32 := b.property
  rw [Hex.length_encode, hb]

theorem opened_v2 (hp : p.Standard c wordlist) {e : ProducedData Str}
    (h : (schemeV2 p).Steps p sdk a r o n e k result w) (hsize : (o.seed r).length ≤ 64)
    (hpw : o.anyPassphrase = some passphrase) (hseedWords : n.backupInfo.encryptedPrimarySeed = some seedWords)
    (hsecretWords : n.backupInfo.encryptedSecret = some secretWords) :
    Opened p wordlist (o.seed r) (drawnSecret .v2 r) passphrase w.stored n.post n.backupInfo seedWords secretWords := by
  have hi := hp.inverts
  obtain ⟨hversion, -, hseed, -, hrecovery, hsecret⟩ := Scheme.backupInfo_ok h.backupInfo
  rw [hseedWords] at hseed
  rw [hsecretWords] at hsecret
  obtain ⟨secretCt, hsecretCt, hsecretWords⟩ := mnemonicOf_eq_some hsecret
  obtain ⟨hstore, hdata⟩ := Scheme.encryptData_of_produce h.produce hsecretCt
  have he := encryptDataV2_ok hdata hsecretCt
  obtain ⟨seedCt, hseedCt, hseedAes⟩ := he.encryptedPrimarySeed
  obtain ⟨pw, hpw', hsecretAes⟩ := he.encryptedSecret
  cases hpw.symm.trans hpw'
  obtain ⟨_, hy, hseedWords⟩ := mnemonicOf_eq_some hseed
  cases hseedCt.symm.trans hy
  -- What the ciphertexts give, and that they fit on a sheet.
  have hlen := length_hex_drawn r.secret
  have hsecretOpen := secretUnderV2_aesEncrypt hi (List.ne_nil_of_length_pos (by omega)) hsecretAes
  have hseedOpen := seedUnderV2_aesEncrypt hi hseedAes
  have hseedSheet : Sheetable seedCt := hp.sheetable (by rw [Base64.length_encode]; omega) hseedAes
  have hsecretSheet : Sheetable secretCt := hp.sheetable (by omega) hsecretAes
  have hstored : w.stored = ⟨.v2, none, some (.text seedCt), some (.text secretCt)⟩ := by
    rw [(createdWallet_madeOf (by simp [schemeV2]) h.wallet).stored]
    simp only [Scheme.createdData, hstore, if_true, hseedCt, hsecretCt]
    rfl
  obtain ⟨hpostVersion, hpostSeed, hpostSecret, hpostRecovery⟩ := Scheme.walletPost_ok h.post
  rw [hstore] at hpostSeed hpostSecret hpostRecovery
  rw [hseedCt] at hpostSeed
  rw [hsecretCt] at hpostSecret
  rw [he.recoverySecret] at hpostRecovery
  have hserver : n.post.server.stored = ⟨.v2, none, some (.text seedCt), some (.text secretCt)⟩ := by
    unfold ServerWallet.stored WalletPost.server
    rw [hpostVersion, ← Except.ok.inj hpostSeed, ← Except.ok.inj hpostSecret]
    rfl
  have hopen : recover p ⟨.v2, none, some (.text seedCt), some (.text secretCt)⟩ passphrase =
      some (o.seed r, some (drawnSecret .v2 r)) :=
    recoverEncrypted_eq_some.mpr ⟨_, hsecretOpen, hseedOpen, rfl⟩
  refine ⟨by rw [hstored]; exact hopen, by rw [hserver]; exact hopen, ?_, fun words key hwords hkey => ?_⟩
  · rw [hstored]
    exact .v2 rfl rfl rfl hseedSheet hsecretSheet hseedWords hsecretWords
  · rw [hwords] at hrecovery
    obtain ⟨recoveryCt, hrecoveryCt, hwords⟩ := mnemonicOf_eq_some hrecovery
    have hrecoveryAes := he.recoveryEncryptedSecret recoveryCt hrecoveryCt
    have hkey' : Hex.encode r.recoverySecret.val = key := by
      unfold WalletPost.server at hkey
      rw [← Except.ok.inj hpostRecovery] at hkey
      exact Option.some.inj hkey
    subst hkey'
    rw [hversion]
    refine toOption_eq_some ?_
    have hrecoverySheet : Sheetable recoveryCt := hp.sheetable (by omega) hrecoveryAes
    have hrecoveryOpen := secretUnderV2_aesEncrypt hi (List.ne_nil_of_length_pos (by omega)) hrecoveryAes
    refine (primarySeedV2_toOption hp hseedSheet hrecoverySheet hseedWords hwords rfl).trans ?_
    simp only [SecretSource.keyText, hrecoveryOpen, Option.bind_some]
    exact hseedOpen

theorem pages_v3 {e : ProducedData Bytes} (h : (schemeV3 p).Steps p sdk a r o n e k result w)
    (hpw : o.anyPassphrase = some passphrase) (hseedWords : n.backupInfo.encryptedPrimarySeed = some seedWords)
    (hsecretWords : n.backupInfo.encryptedSecret = some secretWords) :
    ∃ pw, bufferFrom (some passphrase) = .ok pw ∧ determineDataStorage o = true ∧
      e.encryptedSecret = some (p.gcmEncrypt r.secret.val pw r.secretSalt r.secretIV defaultIterations) ∧
      EncryptedV3 p r (some passphrase) (o.seed r) (p.gcmEncrypt r.secret.val pw r.secretSalt r.secretIV defaultIterations) e ∧
      p.encodeMnemonic (p.gcmEncrypt (o.seed r) r.secret.val r.seedSalt r.seedIV subkeyIterations) = .ok seedWords ∧
      p.encodeMnemonic (p.gcmEncrypt r.secret.val pw r.secretSalt r.secretIV defaultIterations) = .ok secretWords := by
  obtain ⟨-, -, hseed, -, -, hsecret⟩ := Scheme.backupInfo_ok h.backupInfo
  rw [hseedWords] at hseed
  rw [hsecretWords] at hsecret
  obtain ⟨secretCt, hsecretCt, hsecretWords⟩ := mnemonicOf_eq_some hsecret
  obtain ⟨hstore, hdata⟩ := Scheme.encryptData_of_produce h.produce hsecretCt
  have he := encryptDataV3_ok hdata hsecretCt
  rw [hpw] at he
  obtain ⟨pw, hpw', rfl⟩ := he.encryptedSecret
  obtain ⟨_, hy, hseedWords⟩ := mnemonicOf_eq_some hseed
  cases he.encryptedPrimarySeed.symm.trans hy
  exact ⟨pw, hpw', hstore, hsecretCt, he, hseedWords, hsecretWords⟩

theorem opened_v3 (hp : p.Standard c wordlist) {e : ProducedData Bytes}
    (h : (schemeV3 p).Steps p sdk a r o n e k result w) (hsize : (o.seed r).length ≤ 64)
    (hpw : o.anyPassphrase = some passphrase) (hseedWords : n.backupInfo.encryptedPrimarySeed = some seedWords)
    (hsecretWords : n.backupInfo.encryptedSecret = some secretWords) :
    Opened p wordlist (o.seed r) (drawnSecret .v3 r) passphrase w.stored n.post n.backupInfo seedWords secretWords := by
  have hi := hp.inverts
  obtain ⟨hversion, -, -, -, hrecovery, -⟩ := Scheme.backupInfo_ok h.backupInfo
  obtain ⟨pw, hpw', hstore, hsecretCt, he, hseedWords, hsecretWords⟩ := pages_v3 h hpw hseedWords hsecretWords
  have hseedCt := he.encryptedPrimarySeed
  -- What the ciphertexts give, and that they fit on a sheet.
  have hsecretLength : r.secret.val.length = 32 := r.secret.property
  have hseedFits := hp.gcmEncrypt_format (o.seed r) r.secret.val r.seedSalt r.seedIV (n := subkeyIterations)
    (by decide) (by decide)
  have hsecretFits (pw : Bytes) (salt : Salt) (iv : IV) :=
    hp.gcmEncrypt_format r.secret.val pw salt iv (n := defaultIterations) (by decide) (by decide)
  have hstored : w.stored = ⟨.v3, none,
      some (.buffer (p.gcmEncrypt (o.seed r) r.secret.val r.seedSalt r.seedIV subkeyIterations)),
      some (.buffer (p.gcmEncrypt r.secret.val pw r.secretSalt r.secretIV defaultIterations))⟩ := by
    rw [(createdWallet_madeOf (by simp [schemeV3]) h.wallet).stored]
    simp only [Scheme.createdData, hstore, if_true, hseedCt, hsecretCt]
    rfl
  obtain ⟨hpostVersion, hpostSeed, hpostSecret, hpostRecovery⟩ := Scheme.walletPost_ok h.post
  rw [hstore] at hpostSeed hpostSecret hpostRecovery
  rw [hseedCt] at hpostSeed
  rw [hsecretCt] at hpostSecret
  have hserver : n.post.server.stored = ⟨.v3, none,
      some (.text (Base64.encode (p.gcmEncrypt (o.seed r) r.secret.val r.seedSalt r.seedIV subkeyIterations))),
      some (.text (Base64.encode (p.gcmEncrypt r.secret.val pw r.secretSalt r.secretIV defaultIterations)))⟩ := by
    unfold ServerWallet.stored WalletPost.server
    rw [hpostVersion, ← Except.ok.inj hpostSeed, ← Except.ok.inj hpostSecret]
    rfl
  have hopen (d : StoredData) (hv : d.walletVersion = .v3) (hseed : bufferFromBase64 d.encryptedPrimarySeed =
        .ok (p.gcmEncrypt (o.seed r) r.secret.val r.seedSalt r.seedIV subkeyIterations))
      (hsecret : bufferFromBase64 d.encryptedSecret =
        .ok (p.gcmEncrypt r.secret.val pw r.secretSalt r.secretIV defaultIterations)) :
      recover p d passphrase = some (o.seed r, some (drawnSecret .v3 r)) := by
    unfold recover
    simp only [hv]
    exact recoverEncrypted_eq_some.mpr
      ⟨_, secretUnderV3_gcmEncrypt hi hpw' hsecret, seedUnderV3_gcmEncrypt hi hseed, rfl⟩
  refine ⟨?_, ?_, ?_, fun words key hwords hkey => ?_⟩
  · rw [hstored]
    exact hopen _ rfl rfl rfl
  · rw [hserver]
    exact hopen _ rfl (congrArg Except.ok (Base64.decode_encode _)) (congrArg Except.ok (Base64.decode_encode _))
  · rw [hstored]
    exact .v3 rfl rfl rfl (by omega) (by rw [hsecretFits]; omega) hseedWords hsecretWords
  · rw [hwords] at hrecovery
    obtain ⟨recoveryCt, hrecoveryCt, hwords⟩ := mnemonicOf_eq_some hrecovery
    obtain ⟨b, hb, rfl⟩ := he.recovery recoveryCt hrecoveryCt
    rw [hb] at hpostRecovery
    have hkey' : Hex.encode b = key := by
      unfold WalletPost.server at hkey
      rw [← Except.ok.inj hpostRecovery] at hkey
      exact Option.some.inj hkey
    subst hkey'
    rw [hversion]
    refine toOption_eq_some ?_
    refine (primarySeedV3_toOption hp (by omega) (by rw [hsecretFits]; omega) hseedWords hwords rfl).trans ?_
    simp only [SecretSource.keyBuffer, Hex.decode_encode]
    rw [hi.gcm _ b _ _ _ (by decide) (by decide), Option.bind_some, hi.gcm _ _ _ _ _ (by decide) (by decide)]

end Opened

end JsSdk
