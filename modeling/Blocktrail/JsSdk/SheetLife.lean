import Blocktrail.JsSdk.Sheets

/-! # A backup sheet over the life of its wallet

The web wallet prints a page for the secret after each password change, and nothing after an upgrade. The pages of a
sheet recover the wallet with its password as long as they are of one version.
-/

open Text Throwing Bitcoin Crypt Crypt.Bip39 Runs

namespace JsSdk

variable {Node : Type}

/-! ## Runs -/

/-- A password change that succeeds prints the page of the secret again. -/
def reprinted (p : Platform Node) (x : Carried Node) : LifeOp → Sheet
  | .passwordChange a (.text password) =>
    match (call (passwordChange p a (.text password)) x.tracked.world).1 with
    | .ok words => { x.sheet with secret := ⟨x.tracked.world.wallet.walletVersion, words⟩, password := password }
    | .error _ => x.sheet
  | _ => x.sheet

def sheetStep (p : Platform Node) (x : Carried Node) (op : LifeOp) : Carried Node :=
  ⟨lifeStep p x.tracked op, reprinted p x op⟩

/-- Unlocks are with the current password, and new passwords are texts. -/
def TypesPasswords (x : Carried Node) : LifeOp → Prop
  | .unlock _ o => GivesPassword o x.tracked.password
  | .passwordChange _ newPassword => ∃ password, newPassword = .text password
  | _ => True

/-! ## The invariant -/

/-- How the page of the secret stands to the stored data. -/
inductive Pages (p : Platform Node) (wordlist : Wordlist) (seed : Bytes) (secret : Data) (x : Carried Node) : Prop
  | current (hwallet : x.tracked.world.wallet.walletVersion = x.sheet.seed.version)
      (hsecret : x.sheet.secret.version = x.sheet.seed.version)
      (hprints : Prints p x.tracked.world.wallet.stored x.sheet.seed.words x.sheet.secret.words)
      (hpassword : x.tracked.password = .text x.sheet.password) (hdrawn : x.tracked.secret = some secret)
  | upgraded (hwallet : x.tracked.world.wallet.walletVersion = .v3) (hseed : x.sheet.seed.version = .v2)
      (hsecret : x.sheet.secret.version = .v2)
      (hopens : primarySeedOf p wordlist .v2 x.sheet.seed.words (.password x.sheet.secret.words x.sheet.password) = .ok seed)
  | mixed (hwallet : x.tracked.world.wallet.walletVersion = .v3) (hseed : x.sheet.seed.version = .v2)
      (hsecret : x.sheet.secret.version = .v3)

/-- What the sheet and the wallet are made from. -/
structure Origin (Node : Type) where
  seed : Bytes
  secret : Data
  network : Network
  root : Node
  backupPublicKey : Node
  recoverySecret : Option Str

structure SheetInv (p : Platform Node) (wordlist : Wordlist) (o : Origin Node) (x : Carried Node) : Prop where
  life : LifeInv p o.seed x.tracked
  keeps : Keeps p wordlist o.seed o.network o.backupPublicKey o.recoverySecret x.sheet
  network : x.tracked.world.wallet.network = o.network
  checksum : x.tracked.world.wallet.checksum = p.hd.getAddress o.root
  backupPublicKey : x.tracked.world.wallet.backupPublicKey = o.backupPublicKey
  recoverySecret : x.tracked.world.server.recoverySecret = o.recoverySecret
  keys : KeysOf p o.root x.tracked.world.wallet
  pages : Pages p wordlist o.seed o.secret x

theorem Pages.congr {p : Platform Node} {wordlist : Wordlist} {seed : Bytes} {secret : Data} {x y : Carried Node}
    (h : Pages p wordlist seed secret x) (hsheet : y.sheet = x.sheet)
    (hstored : y.tracked.world.wallet.stored = x.tracked.world.wallet.stored)
    (hpassword : y.tracked.password = x.tracked.password) (hsecret : y.tracked.secret = x.tracked.secret) :
    Pages p wordlist seed secret y := by
  have hversion : y.tracked.world.wallet.walletVersion = x.tracked.world.wallet.walletVersion :=
    congrArg StoredData.walletVersion hstored
  rcases h with ⟨hwallet, hpage, hprints, hword, hdrawn⟩ | ⟨hwallet, hseed, hpage, hopens⟩ | ⟨hwallet, hseed, hpage⟩
  · rw [← hsheet, ← hstored] at hprints
    refine .current ?_ ?_ hprints ?_ (hsecret.trans hdrawn)
    · rw [hversion, hsheet, hwallet]
    · rw [hsheet, hpage]
    · rw [hpassword, hsheet, hword]
  · rw [← hsheet] at hseed hpage hopens
    exact .upgraded (hversion.trans hwallet) hseed hpage hopens
  · rw [← hsheet] at hseed hpage
    exact .mixed (hversion.trans hwallet) hseed hpage

/-- The root is made from the seed, and it is private; the backup key is public. The secret fits on a page. -/
structure Origin.Proper (o : Origin Node) (p : Platform Node) : Prop where
  root : p.hd.fromSeedBuffer o.seed o.network = .ok o.root
  primary_private : p.hd.isNeutered o.root = false
  backup_public : p.hd.isNeutered o.backupPublicKey = true
  text_le : ∀ s, o.secret = .text s → s.length ≤ 240
  buffer_le : ∀ b, o.secret = .buffer b → b.length ≤ 976

section Steps

variable {p : Platform Node} {c : Ciphers} {wordlist : Wordlist} {o : Origin Node} {x : Carried Node}

theorem Pages.opens (hp : p.Standard c wordlist) {seed : Bytes} {secret : Data} (h : Pages p wordlist seed secret x)
    (hlife : LifeInv p seed x.tracked) (hsame : x.sheet.secret.version = x.sheet.seed.version) :
    primarySeedOf p wordlist x.sheet.seed.version x.sheet.seed.words (.password x.sheet.secret.words x.sheet.password) =
      .ok seed := by
  cases h with
  | current hwallet hsecret hprints hpassword hdrawn =>
    have hseed := primarySeedOf_prints hp hprints x.sheet.password
    rw [← hpassword, hlife.held] at hseed
    rw [← hwallet]
    exact toOption_eq_some hseed
  | upgraded hwallet hseed hsecret hopens =>
    rw [hseed]
    exact hopens
  | mixed hwallet hseed hsecret =>
    rw [hseed, hsecret] at hsame
    cases hsame

/-- In a state that meets the invariant, the sheet does what it is for. -/
theorem SheetInv.restorable (hp : p.Standard c wordlist) (hl : p.hd.Lawful) (ho : o.Proper p)
    (h : SheetInv p wordlist o x) : Restorable p wordlist x := by
  have hroot := ho.root
  have hmake (version : WalletVersion) (source : SecretSource)
      (hseed : primarySeedOf p wordlist version x.sheet.seed.words source = .ok o.seed) :
      Restores p wordlist x version source := by
    intro d network testnet hcopy hn
    rw [h.network] at hn
    obtain ⟨keys, key, hkeys, hmade⟩ := h.keeps.newWalletSweeper hcopy hn hseed hroot
    rw [← h.network] at hkeys
    have hsweeps := h.keys.sweepsFor hl ho.primary_private (by rw [h.backupPublicKey]; exact ho.backup_public)
      h.checksum.symm hkeys
    rw [h.backupPublicKey, h.network] at hsweeps
    exact ⟨_, key, hmade, hsweeps⟩
  refine ⟨fun hsame => ?_, fun words key hwords hkey => ?_, fun hmixed d network testnet source hcopy => ?_⟩
  · exact hmake _ _ (h.pages.opens hp h.life hsame)
  · rw [h.recoverySecret] at hkey
    exact hmake _ _ (h.keeps.recovery words key hwords hkey)
  · rcases h.pages with ⟨-, hsecret, -, -, -⟩ | ⟨-, hseed, hsecret, -⟩ | ⟨-, hseed, hsecret⟩
    · exact absurd hsecret hmixed
    · exact absurd (hsecret.trans hseed.symm) hmixed
    · rw [hsecret] at hcopy
      exact newWalletSweeper_refused (h.keeps.refused hseed) hcopy

/-! ## Steps that print nothing -/

theorem KeysOf.unlocked {s t : World Node} {root : Node} {secret : Option Data} {seed : Bytes} {kept : Option Bytes}
    {keyIndex : Nat} (h : KeysOf p root s.wallet)
    (ht : KeyIndexOutcome p (s.tried secret seed kept root false) keyIndex t) : KeysOf p root t.wallet := by
  obtain ⟨⟨k, b, keys, rfl⟩, -, hprimary⟩ := ht
  refine ⟨fun _ => rfl, fun j key hkey => ?_⟩
  rcases hprimary with hsame | ⟨root', child, -, hroot, hchild, hupdated⟩
  · rw [hsame] at hkey
    exact h.primaryPublicKeys j key hkey
  · cases hroot
    rw [hupdated] at hkey
    by_cases hj : j = keyIndex
    · rw [hj, Function.update_self] at hkey
      cases hkey
      rw [hj]
      exact account_of_deriveHardened hchild
    · rw [Function.update_of_ne fun he => hj (dec_injective he)] at hkey
      exact h.primaryPublicKeys j key hkey

theorem sheetInv_unlock (ho : o.Proper p) (h : SheetInv p wordlist o x) (a : Answers) {options : UnlockOptions}
    (hgives : GivesPassword options x.tracked.password) :
    SheetInv p wordlist o (sheetStep p x (.unlock a options)) := by
  have hroot : p.hd.fromSeedBuffer o.seed x.tracked.world.wallet.network = .ok o.root := by
    rw [h.network]
    exact ho.root
  obtain ⟨kept, hcall⟩ := unlockVersion_password h.life.sameNetwork hgives h.life.held hroot h.life.secret_none
  rcases unlock_of_key (a := a) hcall with ⟨hne, -⟩ | ⟨-, keyIndex, hout⟩
  · exact absurd h.checksum.symm hne
  have hkeys := h.keys.unlocked hout
  have hlife := lifeInv_unlock h.life a hgives
  obtain ⟨⟨k, b, keys, ht⟩, -, -⟩ := hout
  refine ⟨hlife, h.keeps, ?_, ?_, ?_, ?_, hkeys, ?_⟩ <;> simp only [sheetStep, lifeStep, reprinted, ht]
  · exact h.network
  · exact h.checksum
  · exact h.backupPublicKey
  · exact h.recoverySecret
  · exact h.pages.congr rfl rfl rfl rfl

theorem sheetInv_lock (h : SheetInv p wordlist o x) : SheetInv p wordlist o (sheetStep p x .lock) := by
  refine ⟨?_, h.keeps, h.network, h.checksum, h.backupPublicKey, h.recoverySecret, ?_, ?_⟩
  · exact ⟨h.life.sameNetwork, h.life.sameVersion, h.life.passes, h.life.held, h.life.onServer,
      fun hlocked => (by cases hlocked), fun _ => rfl⟩
  · exact ⟨fun hlocked => (by cases hlocked), h.keys.primaryPublicKeys⟩
  · exact h.pages.congr rfl rfl rfl rfl

/-! ## An upgrade -/

theorem Prints.version {d : StoredData} {seedWords secretWords : Str} (h : Prints p d seedWords secretWords) :
    d.walletVersion = .v2 ∨ d.walletVersion = .v3 := by
  cases h with
  | v2 hv => exact Or.inl hv
  | v3 hv => exact Or.inr hv

/-- Only a wallet with the data of its sheet is upgraded, and the sheet is then of before the upgrade. -/
theorem Pages.upgrade (hp : p.Standard c wordlist) {seed : Bytes} {secret : Data} {x y : Carried Node}
    (h : Pages p wordlist seed secret x) (hlife : LifeInv p seed x.tracked)
    (hold : x.tracked.world.wallet.walletVersion ≠ .v3) (hnew : y.tracked.world.wallet.walletVersion = .v3)
    (hsheet : y.sheet = x.sheet) : x.tracked.world.wallet.walletVersion = .v2 ∧ Pages p wordlist seed secret y := by
  rcases h with ⟨hwallet, hsecret, hprints, hpassword, hdrawn⟩ | ⟨hwallet, -, -, -⟩ | ⟨hwallet, -, -⟩
  · have hv2 : x.tracked.world.wallet.walletVersion = .v2 := hprints.version.resolve_right hold
    have hopens := Pages.opens hp (.current hwallet hsecret hprints hpassword hdrawn) hlife hsecret
    have hseed : x.sheet.seed.version = .v2 := hwallet.symm.trans hv2
    rw [hseed] at hopens
    refine ⟨hv2, .upgraded hnew ?_ ?_ ?_⟩ <;> rw [hsheet]
    · exact hseed
    · exact hsecret.trans hseed
    · exact hopens
  · exact absurd hwallet hold
  · exact absurd hwallet hold

theorem sheetInv_upgradeToV3 (hp : p.Standard c wordlist) (h : SheetInv p wordlist o x) (a : Answers)
    (passphrase : Option Data) : SheetInv p wordlist o (sheetStep p x (.upgradeToV3 a passphrase)) := by
  have hlife := lifeInv_upgradeToV3 hp.inverts h.life a passphrase
  have hnew := call_upgradeToV3 p a passphrase x.tracked.world
  rcases hnew with (⟨e, recovery, hc⟩ | ⟨d, recovery, fromV1, hlocked, hv, hd, -, hc⟩) | ⟨text, hv, -⟩
  · refine ⟨hlife, h.keeps, ?_, ?_, ?_, ?_, ?_, ?_⟩ <;> simp only [sheetStep, lifeStep, reprinted, hc]
    · exact h.network
    · exact h.checksum
    · exact h.backupPublicKey
    · exact h.recoverySecret
    · exact ⟨h.keys.primaryPrivateKey, h.keys.primaryPublicKeys⟩
    · exact h.pages.congr rfl rfl rfl rfl
  · rw [(h.life.unlocked hlocked).1] at hd
    obtain ⟨htruthy, -⟩ := produceEncryptedDataV3_ok hd
    obtain ⟨newPassword, rfl⟩ : ∃ newPassword, passphrase = some newPassword := by
      rcases passphrase with _ | newPassword
      · cases htruthy
      · exact ⟨newPassword, rfl⟩
    have hold : x.tracked.world.wallet.walletVersion ≠ .v3 := by
      rw [hv]
      cases fromV1 <;> simp
    have hv3 : (sheetStep p x (.upgradeToV3 a (some newPassword))).tracked.world.wallet.walletVersion = .v3 := by
      simp only [sheetStep, lifeStep, hc, World.upgraded]
    obtain ⟨hv2, hpages⟩ := h.pages.upgrade hp h.life hold hv3 rfl
    have hfrom : fromV1 = false := by
      rw [hv2] at hv
      cases fromV1
      · rfl
      · cases hv
    refine ⟨hlife, h.keeps, ?_, ?_, ?_, ?_, ?_, hpages⟩ <;> simp only [sheetStep, lifeStep, hc]
    · exact h.network
    · exact h.checksum
    · exact h.backupPublicKey
    · rw [hfrom]
      exact h.recoverySecret
    · exact ⟨h.keys.primaryPrivateKey, h.keys.primaryPublicKeys⟩
  · exact absurd hv (recover_version h.life.held text)

/-! ## A password change -/

theorem doPasswordChange_words {a : Answers} {newPassword : Data} {s t : World Node} {enc words : Str}
    (h : call (doPasswordChange p a newPassword) s = (.ok (enc, words), t)) :
    (s.wallet.walletVersion = .v2 → mnemonicV2 p enc = .ok words) ∧
      (s.wallet.walletVersion = .v3 → ∃ ct, enc = Base64.encode ct ∧ p.encodeMnemonic ct = .ok words) := by
  unfold doPasswordChange at h
  rw [call_get_bind] at h
  dsimp only at h
  split_ifs at h with h1 h2 h3 h4
  · cases h
  · cases h
  · cases h
  · refine ⟨fun _ => ?_, fun hv3 => absurd (h4.symm.trans hv3) (by decide)⟩
    rcases hc : p.aesEncrypt s.wallet.secret newPassword a.aesSalt with e | ct
    · rw [call_orRaise_bind_error hc] at h
      cases h
    rw [call_orRaise_bind_ok hc] at h
    rcases hm : p.entropyToMnemonic (Hex.encode (Base64.decode ct)) with e | m
    · rw [call_orRaise_bind_error hm] at h
      cases h
    rw [call_orRaise_bind_ok hm] at h
    cases h
    exact hm
  · refine ⟨fun hv2 => absurd hv2 h4, fun _ => ?_⟩
    rcases hpw : bufferFrom (some newPassword) with e | pw
    · rw [call_orRaise_bind_error hpw] at h
      cases h
    rw [call_orRaise_bind_ok hpw] at h
    rcases hc : Encryption.encrypt p s.wallet.secret (some (.buffer pw)) a.secretSalt a.secretIV defaultIterations
      with e | ct
    · rw [call_orRaise_bind_error hc] at h
      cases h
    rw [call_orRaise_bind_ok hc] at h
    rcases hm : p.encodeMnemonic ct with e | m
    · rw [call_orRaise_bind_error hm] at h
      cases h
    rw [call_orRaise_bind_ok hm] at h
    cases h
    exact ⟨ct, rfl, hm⟩

theorem passwordChange_words {a : Answers} {newPassword : Data} {s t : World Node} {words : Str}
    (h : call (passwordChange p a newPassword) s = (.ok words, t)) :
    ∃ enc, t = s.repassworded enc ∧ s.wallet.locked = false ∧ EncryptsSecret p a newPassword s.wallet enc ∧
      (s.wallet.walletVersion = .v2 → mnemonicV2 p enc = .ok words) ∧
      (s.wallet.walletVersion = .v3 → ∃ ct, enc = Base64.encode ct ∧ p.encodeMnemonic ct = .ok words) := by
  unfold passwordChange at h
  rcases doPasswordChange_spec p a newPassword s with ⟨e, he⟩ | ⟨enc, mnemonic, he, hlocked, -, henc⟩
  · rw [call_bind_error he] at h
    cases h
  rw [call_bind_ok he] at h
  rcases ha : a.updateWallet with e | _
  · rw [call_sdkUpdateWallet_bind_error ha] at h
    cases h
  rw [call_sdkUpdateWallet_bind ha rfl, call_modifyWallet_bind rfl] at h
  cases h
  exact ⟨enc, rfl, hlocked, henc, doPasswordChange_words he⟩

theorem Prints.repassworded (hp : p.Standard c wordlist) {a : Answers} {newPassword secret : Data} {w : Wallet Node}
    {enc seedWords secretWords words : Str} (h : Prints p w.stored seedWords secretWords)
    (hsecret : w.secret = some secret) (htext : ∀ s, secret = .text s → s.length ≤ 240)
    (hbuffer : ∀ b, secret = .buffer b → b.length ≤ 976) (hopened : w.walletVersion = .v2 → ∃ s, secret = .text s)
    (henc : EncryptsSecret p a newPassword w enc) (hv2 : w.walletVersion = .v2 → mnemonicV2 p enc = .ok words)
    (hv3 : w.walletVersion = .v3 → ∃ ct, enc = Base64.encode ct ∧ p.encodeMnemonic ct = .ok words) :
    Prints p { w.stored with encryptedSecret := some (.text enc) } seedWords words := by
  rcases henc with ⟨hversion, haes⟩ | ⟨hne1, hne2, pw, ct, hpw, hgcm, rfl⟩
  · obtain ⟨s, rfl⟩ := hopened hversion
    rw [hsecret] at haes
    cases h with
    | v2 hv hseed hs hseedSheet hsecretSheet hm hm' =>
      exact .v2 hv hseed rfl hseedSheet (hp.sheetable (htext s rfl) haes) hm (hv2 hversion)
    | v3 hv => exact absurd (hversion.symm.trans hv) (by decide)
  · cases h with
    | v2 hv => exact absurd hv hne2
    | v3 hv hseed hs hseedFits hsecretFits hm hm' =>
      obtain ⟨ct', hct', hwords⟩ := hv3 hv
      rw [hsecret] at hgcm
      rcases secret with s | b
      · cases hgcm
      cases hgcm
      have hsame := Function.LeftInverse.injective Base64.decode_encode hct'
      have hlength := hp.gcmEncrypt_format b pw a.secretSalt a.secretIV (n := defaultIterations) (by decide) (by decide)
      have hb := hbuffer b rfl
      have hread : bufferFromBase64 (some (.text (Base64.encode ct'))) = .ok ct' :=
        congrArg Except.ok (Base64.decode_encode ct')
      exact .v3 hv hseed (by rw [← hread, ← hct']) hseedFits (by rw [← hsame]; omega) hm hwords

theorem sheetInv_passwordChange (hp : p.Standard c wordlist) (ho : o.Proper p) (h : SheetInv p wordlist o x) (a : Answers)
    (password : Str) : SheetInv p wordlist o (sheetStep p x (.passwordChange a (.text password))) := by
  have hlife := lifeInv_passwordChange hp.inverts h.life a (.text password)
  rcases hc : call (passwordChange p a (.text password)) x.tracked.world with ⟨e | words, t⟩
  · have ht : t = x.tracked.world := by
      rcases call_passwordChange p a (.text password) x.tracked.world with ⟨e', he⟩ | ⟨enc, m, -, -, -, -, hok⟩
      · cases hc.symm.trans he
        rfl
      · cases hc.symm.trans hok
    subst ht
    have hstep : sheetStep p x (.passwordChange a (.text password)) = x := by
      simp only [sheetStep, lifeStep, reprinted, hc]
    rw [hstep]
    exact h
  obtain ⟨enc, rfl, hlocked, henc, hv2, hv3⟩ := passwordChange_words hc
  have hstep : sheetStep p x (.passwordChange a (.text password)) =
      ⟨{ x.tracked with world := x.tracked.world.repassworded enc, password := .text password },
        { x.sheet with secret := ⟨x.tracked.world.wallet.walletVersion, words⟩, password := password }⟩ := by
    simp only [sheetStep, lifeStep, reprinted, hc]
  have hlife' : LifeInv p o.seed (sheetStep p x (.passwordChange a (.text password))).tracked := hlife
  rw [hstep] at hlife' ⊢
  refine ⟨hlife', ⟨h.keeps.backup, h.keeps.blocktrailKeys, h.keeps.recovery, h.keeps.refused⟩, h.network, h.checksum,
    h.backupPublicKey, h.recoverySecret, ⟨h.keys.primaryPrivateKey, h.keys.primaryPublicKeys⟩, ?_⟩
  rcases h.pages with ⟨hwallet, hsecret, hprints, hpassword, hdrawn⟩ | ⟨hwallet, hseed, -, -⟩ | ⟨hwallet, hseed, -⟩
  · have hheld : x.tracked.world.wallet.secret = some o.secret := (h.life.unlocked hlocked).2.trans hdrawn
    refine .current hwallet hwallet ?_ rfl hdrawn
    refine hprints.repassworded hp hheld ho.text_le ho.buffer_le (fun hversion => ?_) henc hv2 hv3
    have hrecover := h.life.held
    unfold recover at hrecover
    rw [show x.tracked.world.wallet.stored.walletVersion = .v2 from hversion] at hrecover
    obtain ⟨secret, hs, -, hsame⟩ := recoverEncrypted_eq_some.mp hrecover
    rw [hdrawn] at hsame
    obtain ⟨s, hs, -⟩ := secretUnderV2_text hs
    exact ⟨s, (Option.some.inj hsame).trans hs⟩
  · exact .mixed hwallet hseed hwallet
  · exact .mixed hwallet hseed hwallet

/-- **One step.** -/
theorem sheetInv_step (hp : p.Standard c wordlist) (ho : o.Proper p) (x : Carried Node) (op : LifeOp)
    (h : SheetInv p wordlist o x) (hok : TypesPasswords x op) : SheetInv p wordlist o (sheetStep p x op) := by
  cases op with
  | unlock a options => exact sheetInv_unlock ho h a hok
  | lock => exact sheetInv_lock h
  | passwordChange a newPassword =>
    obtain ⟨password, rfl⟩ := hok
    exact sheetInv_passwordChange hp ho h a password
  | upgradeToV3 a passphrase => exact sheetInv_upgradeToV3 hp h a passphrase

end Steps

/-! ## A new wallet and its sheet -/

/-- The sheet of a new wallet, where no page of it is left out. -/
def NewWallet.sheet (n : NewWallet Node) (password : Str) : Option Sheet := do
  let seedWords ← n.backupInfo.encryptedPrimarySeed
  let secretWords ← n.backupInfo.encryptedSecret
  let backupWords ← n.backupInfo.backupSeed
  pure { seed := ⟨n.backupInfo.walletVersion, seedWords⟩
         secret := ⟨n.backupInfo.walletVersion, secretWords⟩
         password := password
         recovery := n.backupInfo.recoveryEncryptedSecret
         backup := backupWords
         blocktrailPublicKeys := n.backupInfo.blocktrailPublicKeys }

theorem NewWallet.sheet_eq_some {n : NewWallet Node} {password : Str} {sheet : Sheet}
    (h : n.sheet password = some sheet) : n.backupInfo.encryptedPrimarySeed = some sheet.seed.words ∧
      n.backupInfo.encryptedSecret = some sheet.secret.words ∧ n.backupInfo.backupSeed = some sheet.backup ∧
      sheet.seed.version = n.backupInfo.walletVersion ∧ sheet.secret.version = n.backupInfo.walletVersion ∧
      sheet.password = password ∧ sheet.recovery = n.backupInfo.recoveryEncryptedSecret ∧
      sheet.blocktrailPublicKeys = n.backupInfo.blocktrailPublicKeys := by
  unfold NewWallet.sheet at h
  obtain ⟨seedWords, hseed, h⟩ := Option.bind_eq_some_iff.mp h
  obtain ⟨secretWords, hsecret, h⟩ := Option.bind_eq_some_iff.mp h
  obtain ⟨backupWords, hbackup, h⟩ := Option.bind_eq_some_iff.mp h
  cases h
  exact ⟨hseed, hsecret, hbackup, rfl, rfl, rfl, rfl, rfl⟩

section Start

variable {p : Platform Node} {c : Ciphers} {wordlist : Wordlist} {sdk : Sdk} {a : Answers} {r : Draws}
  {o : NewWalletOptions Node} {n : NewWallet Node} {k : RemainingData Node} {result : StoreResult} {w : Wallet Node}

theorem readBlocktrailKeys_of_readKeys {network : Network} {entries : List (Str × Str)} {keys : Str → Option Node}
    (h : readKeys p network entries = .ok keys) : ∃ keys, readBlocktrailKeys p network entries = .ok keys := by
  have hfold : ∀ acc : Assoc.Object Str Node, ∃ keys, entries.foldlM (fun acc key => do
      let node ← p.hd.fromBase58 key.2 network
      pure (acc.set key.1 node)) acc = .ok keys := by
    induction entries generalizing keys with
    | nil => exact fun acc => ⟨acc, rfl⟩
    | cons entry entries ih =>
      intro acc
      obtain ⟨key, hkey, h⟩ := exists_of_bind_ok h
      obtain ⟨rest, hrest, -⟩ := exists_of_bind_ok h
      obtain ⟨keys, hkeys⟩ := ih hrest (acc.set entry.1 key)
      refine ⟨keys, ?_⟩
      rw [List.foldlM_cons, hkey, ok_bind]
      exact hkeys
  exact hfold .empty

theorem doRemainingWalletData_ok {network : Network} {seed : Bytes} (hno : o.backupPublicKey = none)
    (h : doRemainingWalletData p network r o seed = .ok k) :
    ∃ key, k.backupSeed = some (o.backupSeed.getD r.backupSeed.val) ∧
      p.hd.fromSeedBuffer (o.backupSeed.getD r.backupSeed.val) network = .ok key ∧ k.backupPublicKey = p.hd.neutered key := by
  unfold doRemainingWalletData at h
  obtain ⟨root, -, h⟩ := exists_of_bind_ok h
  simp only [hno] at h
  obtain ⟨key, hkey, h⟩ := exists_of_bind_ok h
  rw [pure_bind] at h
  obtain ⟨child, -, h⟩ := exists_of_bind_ok h
  cases h
  exact ⟨key, rfl, hkey, rfl⟩

theorem length_of_fromSeedBuffer {lib : HDLib Node} {seed : Bytes} {network : Network} {key : Node}
    (h : lib.fromSeedBuffer seed network = .ok key) : 16 ≤ seed.length ∧ seed.length ≤ 64 := by
  unfold HDLib.fromSeedBuffer at h
  split_ifs at h with h1 h2
  exact ⟨by omega, by omega⟩

theorem private_of_deriveHardened {lib : HDLib Node} {root child : Node} {i : Nat}
    (h : lib.deriveHardened root i = .ok child) : lib.isNeutered root = false := by
  unfold HDLib.deriveHardened at h
  split_ifs at h
  by_contra hneutered
  obtain ⟨e, he⟩ := lib.derive_public_ge (n := root) (by simpa using hneutered) (i := i + HIGHEST_BIT) (by omega)
  cases he.symm.trans h

section Created

variable {Ct : Type} {scheme : Scheme Node Ct} {e : ProducedData Ct} {root : Node} {secret : Data} {password : Str}
  {sheet : Sheet}

theorem createdSecret_of_steps (hv : scheme.version ≠ .v1) (hdrawn : e.secret = some secret)
    (htruthy : truthy (some secret) = true) :
    createdSecret scheme.version (scheme.createdData o (o.seed r) e k result) = some secret := by
  unfold createdSecret
  rw [if_neg hv, show (scheme.createdData o (o.seed r) e k result).secret = some secret from hdrawn, if_pos htruthy]

theorem Scheme.Steps.unlocked (h : scheme.Steps p sdk a r o n e k result w)
    (hversion : scheme.version = .v2 ∨ scheme.version = .v3) (hdrawn : e.secret = some secret)
    (htruthy : truthy (some secret) = true) (hroot : p.hd.fromSeedBuffer (o.seed r) sdk.network = .ok root) :
    ∃ kept keyIndex, KeyIndexOutcome p
      ((⟨w, sdk, n.post.server⟩ : World Node).tried (some secret) (o.seed r) kept root false) keyIndex n.world := by
  have hv : scheme.version ≠ .v1 := by rcases hversion with hv | hv <;> simp [hv]
  have hother : ∀ text, scheme.version ≠ .other text := by rcases hversion with hv | hv <;> simp [hv]
  have hmade := createdWallet_madeOf hv h.wallet
  have hwv : w.walletVersion = scheme.version := congrArg StoredData.walletVersion hmade.stored
  obtain ⟨args, hfresh, -, hchecksum, -⟩ := createdWallet_fresh h.wallet hroot
  obtain ⟨kept, hcall⟩ := @unlockVersion_created Node p scheme.version (scheme.createdData o (o.seed r) e k result)
    ⟨w, sdk, n.post.server⟩ root hother hwv hmade.network.symm hfresh.secret (by rw [hmade.network]; exact hroot)
  rw [createdSecret_of_steps hv hdrawn htruthy] at hcall
  rcases unlock_of_key (a := a) hcall with ⟨hne, -⟩ | ⟨-, keyIndex, hout⟩
  · exact absurd (hfresh.checksum.trans hchecksum).symm hne
  · rw [← h.world] at hout
    exact ⟨kept, keyIndex, hout⟩

theorem Scheme.Steps.backupPage (h : scheme.Steps p sdk a r o n e k result w)
    (hgiven : ∀ b, o.backupSeed = some b → 4 ∣ b.length) (hsheet : n.sheet password = some sheet)
    (hbackupSeed : k.backupSeed = some (o.backupSeed.getD r.backupSeed.val)) {network : Network} {backupKey : Node}
    (hbackupKey : p.hd.fromSeedBuffer (o.backupSeed.getD r.backupSeed.val) network = .ok backupKey) :
    IsEntropy (o.backupSeed.getD r.backupSeed.val) ∧
      p.entropyToMnemonic (Hex.encode (o.backupSeed.getD r.backupSeed.val)) = .ok sheet.backup := by
  have hlength := length_of_fromSeedBuffer hbackupKey
  refine ⟨⟨by omega, ?_, by omega⟩, ?_⟩
  · rcases hb : o.backupSeed with _ | b
    · have hdrawn : r.backupSeed.val.length = 32 := r.backupSeed.property
      rw [Option.getD_none, hdrawn]
      decide
    · exact hgiven b hb
  · obtain ⟨-, -, hbackupWords, -⟩ := NewWallet.sheet_eq_some hsheet
    obtain ⟨-, -, -, hbackup, -, -⟩ := Scheme.backupInfo_ok h.backupInfo
    rw [hbackupWords, hbackupSeed] at hbackup
    obtain ⟨_, hy, hwords⟩ := mnemonicOf_eq_some hbackup
    cases hy
    exact hwords

theorem backupSeedOfWords_of_entropy (hp : p.Standard c wordlist) {entropy : Bytes} {words : Str} (he : IsEntropy entropy)
    (hwords : p.entropyToMnemonic (Hex.encode entropy) = .ok words) :
    backupSeedOfWords p wordlist (some words) = .ok (some entropy) := by
  rw [hp.entropyToMnemonic] at hwords
  show (some ∘ Hex.decode) <$> EncryptionMnemonic.mnemonicToEntropy p.hashes.sha256 wordlist words = _
  rw [mnemonicToEntropy_of_entropyToMnemonic he hwords]
  exact congrArg (Except.ok ∘ some) (Hex.decode_encode _)

theorem keeps_of_opened (hp : p.Standard c wordlist) (h : scheme.Steps p sdk a r o n e k result w)
    (hv : scheme.version ≠ .v1) (hgiven : ∀ b, o.backupSeed = some b → 4 ∣ b.length)
    (hsheet : n.sheet password = some sheet) {seed : Bytes} {passphrase : Data}
    (hopened : Opened p wordlist seed secret passphrase w.stored n.post n.backupInfo sheet.seed.words sheet.secret.words)
    {backupKey : Node} (hbackupSeed : k.backupSeed = some (o.backupSeed.getD r.backupSeed.val))
    (hbackupKey : p.hd.fromSeedBuffer (o.backupSeed.getD r.backupSeed.val) sdk.network = .ok backupKey) :
    Keeps p wordlist seed sdk.network (p.hd.neutered backupKey) n.post.server.recoverySecret sheet := by
  obtain ⟨-, -, -, hpage, -, -, hrecovery, hkeys⟩ := NewWallet.sheet_eq_some hsheet
  obtain ⟨hinfo, hprintedKeys, -⟩ := Scheme.backupInfo_ok h.backupInfo
  have hmade := createdWallet_madeOf hv h.wallet
  obtain ⟨hentropy, hwords⟩ := h.backupPage hgiven hsheet hbackupSeed hbackupKey
  refine ⟨⟨_, backupKey, backupSeedOfWords_of_entropy hp hentropy hwords, hbackupKey, rfl⟩, ?_,
    fun words key hwords hkey => ?_, fun hv2 data => ?_⟩
  · obtain ⟨keys, hread⟩ := hmade.blocktrailPublicKeys
    rw [hkeys, hprintedKeys]
    exact readBlocktrailKeys_of_readKeys hread
  · rw [hpage]
    exact hopened.recovery words key (hrecovery.symm.trans hwords) hkey
  · rcases hopened.prints with ⟨-, -, -, hs, -, hm, -⟩ | ⟨hstored, -, -, -, -, -, -⟩
    · exact decode_mnemonicV2 hp hs hm data
    · have hversion : w.stored.walletVersion = scheme.version := by rw [hmade.stored]
      rw [hpage, hinfo, ← hversion, hstored] at hv2
      cases hv2

theorem sheetInv_created (hp : p.Standard c wordlist) (hl : p.hd.Lawful) (h : scheme.Steps p sdk a r o n e k result w)
    (hversion : scheme.version = .v2 ∨ scheme.version = .v3) (hno : o.backupPublicKey = none)
    (hgiven : ∀ b, o.backupSeed = some b → 4 ∣ b.length) (hsheet : n.sheet password = some sheet)
    (hdrawn : e.secret = some secret) (htruthy : truthy (some secret) = true)
    (htext : ∀ s, secret = .text s → s.length ≤ 240) (hbuffer : ∀ b, secret = .buffer b → b.length ≤ 976)
    (hopened : (o.seed r).length ≤ 64 → Opened p wordlist (o.seed r) secret (.text password) w.stored n.post n.backupInfo
      sheet.seed.words sheet.secret.words) :
    ∃ origin : Origin Node, origin.Proper p ∧
      SheetInv p wordlist origin ⟨⟨n.world, .text password, n.world.wallet.secret⟩, sheet⟩ := by
  obtain ⟨-, -, -, hseedPage, hsecretPage, hpassword, -, -⟩ := NewWallet.sheet_eq_some hsheet
  have hv : scheme.version ≠ .v1 := by rcases hversion with hv | hv <;> simp [hv]
  have hmade := createdWallet_madeOf hv h.wallet
  obtain ⟨root, child, hroot, hchild, hchecksum, hpublic⟩ := hmade.root
  have hroot : p.hd.fromSeedBuffer (o.seed r) sdk.network = .ok root := hroot
  obtain ⟨backupKey, hbackupSeed, hbackupKey, hbackupPublic⟩ := doRemainingWalletData_ok hno h.remaining
  have hopened := hopened (length_of_fromSeedBuffer hroot).2
  have hwv : w.walletVersion = scheme.version := congrArg StoredData.walletVersion hmade.stored
  have hpost : n.post.server.walletVersion = w.walletVersion := by
    rw [hwv]
    exact (Scheme.walletPost_ok h.post).1
  have hbegins : Begins p (o.seed r) ⟨n.world, .text password, some secret⟩ := by
    rw [h.world]
    exact .created a h.wallet hpost rfl (createdSecret_of_steps hv hdrawn htruthy) hopened.held hopened.onServer
  obtain ⟨kept, keyIndex, hout⟩ := h.unlocked hversion hdrawn htruthy hroot
  have hkeys : KeysOf p root n.world.wallet := by
    refine KeysOf.unlocked ⟨fun hlocked => ?_, fun j key hkey => ?_⟩ hout
    · obtain ⟨args, hfresh, -⟩ := createdWallet_fresh h.wallet hroot
      exact absurd (hfresh.locked.symm.trans hlocked) (by decide)
    · have hnone := createdPublicKeys_dec (p.hd.neutered child) j
      rw [← hpublic] at hnone
      cases hnone.symm.trans hkey
  obtain ⟨⟨keyIndex', blocktrail, primary, hworld⟩, -, -⟩ := hout
  have hstored : n.world.wallet.stored = w.stored := by rw [hworld]; rfl
  refine ⟨⟨o.seed r, secret, sdk.network, root, p.hd.neutered backupKey, n.post.server.recoverySecret⟩,
    ⟨hroot, private_of_deriveHardened hchild, hl.isNeutered_neutered backupKey, htext, hbuffer⟩, ?_⟩
  rw [show n.world.wallet.secret = some secret by rw [hworld]; rfl]
  refine ⟨hbegins.lifeInv, keeps_of_opened hp h hv hgiven hsheet hopened hbackupSeed hbackupKey, ?_, ?_, ?_, ?_, hkeys,
    .current ?_ (hsecretPage.trans hseedPage.symm) ?_ (congrArg Data.text hpassword.symm) rfl⟩
  · rw [hworld]
    exact hmade.network
  · rw [hworld]
    exact hchecksum
  · rw [hworld]
    exact hmade.backupPublicKey.trans hbackupPublic
  · rw [hworld]
    rfl
  · rw [hseedPage, (Scheme.backupInfo_ok h.backupInfo).1, ← hwv]
    exact congrArg StoredData.walletVersion hstored
  · show Prints p n.world.wallet.stored _ _
    rw [hstored]
    exact hopened.prints

end Created

end Start

/-- **The sheet over the life of its wallet.** Along every run, whatever the server refuses: while its pages are of one
version, every copy of the sheet makes a sweeper of the wallet, with the password of its last page, and with the recovery
secret also after that. With a page for the secret of another version than the page for the seed, no copy that is read
as that version makes a sweeper. -/
theorem sheet_restores (p : Platform Node) (c : Ciphers) (wordlist : Wordlist) (hp : p.Standard c wordlist)
    (hl : p.hd.Lawful) (sdk : Sdk) (a : Answers) (r : Draws) (o : NewWalletOptions Node)
    (store : WalletPost → Except JsError StoreResult) (n : NewWallet Node) (password : Str) (sheet : Sheet)
    (hcreated : createNewWalletV2 p sdk a r o store = .ok n ∨ createNewWalletV3 p sdk a r o store = .ok n)
    (hpassword : o.anyPassphrase = some (.text password)) (hno : o.backupPublicKey = none)
    (hgiven : ∀ b, o.backupSeed = some b → 4 ∣ b.length) (hsheet : n.sheet password = some sheet) (ops : List LifeOp)
    (hops : Along (sheetStep p) TypesPasswords ⟨⟨n.world, .text password, n.world.wallet.secret⟩, sheet⟩ ops) :
    Always (sheetStep p) (Restorable p wordlist) ⟨⟨n.world, .text password, n.world.wallet.secret⟩, sheet⟩ ops := by
  obtain ⟨hseedWords, hsecretWords, -⟩ := NewWallet.sheet_eq_some hsheet
  have hstart : ∃ origin : Origin Node, origin.Proper p ∧
      SheetInv p wordlist origin ⟨⟨n.world, .text password, n.world.wallet.secret⟩, sheet⟩ := by
    rcases hcreated with hcreated | hcreated
    · obtain ⟨e, k, result, w, hsteps⟩ := Scheme.createNewWallet_ok hcreated
      have hlength := length_hex_drawn r.secret
      obtain ⟨ct, hct, -⟩ := mnemonicOf_eq_some
        ((Scheme.backupInfo_ok hsteps.backupInfo).2.2.2.2.2.trans (congrArg Except.ok hsecretWords))
      have hdrawn := (encryptDataV2_ok (Scheme.encryptData_of_produce hsteps.produce hct).2 hct).secret
      refine sheetInv_created hp hl hsteps (Or.inl rfl) hno hgiven hsheet hdrawn ?_ ?_ ?_
        fun hsize => opened_v2 hp hsteps hsize hpassword hseedWords hsecretWords
      · exact decide_eq_true (List.ne_nil_of_length_pos (by omega))
      · intro s hs
        cases hs
        omega
      · intro b hb
        cases hb
    · obtain ⟨e, k, result, w, hsteps⟩ := Scheme.createNewWallet_ok hcreated
      have hlength : r.secret.val.length = 32 := r.secret.property
      obtain ⟨ct, hct, -⟩ := mnemonicOf_eq_some
        ((Scheme.backupInfo_ok hsteps.backupInfo).2.2.2.2.2.trans (congrArg Except.ok hsecretWords))
      have hdrawn := (encryptDataV3_ok (Scheme.encryptData_of_produce hsteps.produce hct).2 hct).secret
      refine sheetInv_created hp hl hsteps (Or.inr rfl) hno hgiven hsheet hdrawn rfl ?_ ?_
        fun hsize => opened_v3 hp hsteps hsize hpassword hseedWords hsecretWords
      · intro s hs
        cases hs
      · intro b hb
        cases hb
        omega
  obtain ⟨origin, hproper, hinv⟩ := hstart
  exact (always_of_along (sheetInv_step hp hproper) hinv hops).mono fun x hx => hx.restorable hp hl hproper

/-! ## A wallet to evaluate with -/

def drawn (n : Nat) (x : Byte) : {b : Bytes // b.length = n} := ⟨List.replicate n x, List.length_replicate⟩

def sampleDraws : Draws where
  primarySeed := drawn 32 11
  backupSeed := drawn 32 12
  secret := drawn 32 13
  recoverySecret := drawn 32 14
  aesSecretSalt := []
  aesSeedSalt := []
  aesRecoverySalt := []
  secretSalt := drawn 10 1
  secretIV := drawn 16 2
  seedSalt := drawn 10 3
  seedIV := drawn 16 4
  recoverySalt := drawn 10 5
  recoveryIV := drawn 16 6

def sampleNewOptions : NewWalletOptions SampleNode where
  identifier := "wallet"
  passphrase := some (.text "right")
  password := none
  keyIndex := 0
  storePrimaryMnemonic := false
  storeDataOnServer := none
  primarySeed := none
  primaryPrivateKey := false
  secret := none
  recoverySecret := .undefined
  backupSeed := none
  backupPublicKey := none
  supportSecret := none
  segwit := false
  useCashAddress := false

/-- A wallet of version 2 with its sheet: a password change, an upgrade, and one that mixes the pages. -/
theorem sheet_restores_mixed : ∃ n sheet,
    createNewWalletV2 sheetPlatform sampleSdk sampleAnswers sampleDraws sampleNewOptions
      (fun _ => .ok ⟨[(dec 0, [Char.ofNat 3])], false, none⟩) = .ok n ∧ n.sheet "right" = some sheet ∧
    Always (sheetStep sheetPlatform) (Restorable sheetPlatform TwoSdks.numeralWords)
      ⟨⟨n.world, .text "right", n.world.wallet.secret⟩, sheet⟩
      [.passwordChange sampleAnswers (.text "new"), .upgradeToV3 sampleAnswers (some (.text "v3")),
        .passwordChange sampleAnswers (.text "last")] := by
  have hmade : ((createNewWalletV2 sheetPlatform sampleSdk sampleAnswers sampleDraws sampleNewOptions
      (fun _ => .ok ⟨[(dec 0, [Char.ofNat 3])], false, none⟩)).toOption.bind fun n => n.sheet "right").isSome = true := by
    decide +kernel
  obtain ⟨sheet, hsheet⟩ := Option.isSome_iff_exists.mp hmade
  obtain ⟨n, hn, hsheet⟩ := Option.bind_eq_some_iff.mp hsheet
  have hn := toOption_eq_some hn
  refine ⟨n, sheet, hn, hsheet, ?_⟩
  exact sheet_restores sheetPlatform sampleCiphers TwoSdks.numeralWords sheetPlatform_standard sampleHD_lawful sampleSdk
    sampleAnswers sampleDraws sampleNewOptions _ n "right" sheet (Or.inl hn) rfl rfl (fun b hb => by cases hb) hsheet _
    ⟨⟨_, rfl⟩, trivial, ⟨_, rfl⟩, trivial⟩

end JsSdk
