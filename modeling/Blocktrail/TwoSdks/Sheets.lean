import Blocktrail.JsSdk.SheetLife
import Blocktrail.PhpSdk.Recovery
import Blocktrail.TwoSdks.BackupMnemonic
import Blocktrail.TwoSdks.CiphertextFormat

/-! # Copies of one sheet, in both SDKs

JavaScript reads the words of a sheet however they are spaced, PHP only where no gap is wider than two characters.
-/

open Text Throwing Bitcoin Crypt
open PhpSdk (Copy)
open JsSdk (TypedFrom Platform Draws NewWalletOptions)

namespace TwoSdks

variable {Node PhpNode : Type}

/-- What is typed into the sweeper of JavaScript. -/
structure TypedIn (d : JsSdk.BackupData) (sheet : JsSdk.Sheet) (x y z : Copy) : Prop where
  version : d.version = 3
  seed : d.encryptedPrimaryMnemonic = some x.text
  secret : d.passwordEncryptedSecretMnemonic = some y.text
  password : d.password = some sheet.password
  backup : d.backupMnemonic = some (some z.text)
  blocktrailKeys : d.blocktrailKeys = some sheet.blocktrailPublicKeys

theorem typedFrom_of_copy {x : Copy} {m : Str} (h : x.Of m) : TypedFrom m x.text := by
  have hwords := Blanks.words_spread h.plain_isSpace h.front h.gaps h.back
  have hsplit : m.splitOn ' ' = x.words := by
    rw [← h.words]
    refine List.splitOn_intercalate ' ' (fun w hw hmem => ?_) (by simp [Copy.words])
    exact absurd ((h.plain w hw).2 ' ' hmem).1 (by decide)
  exact hwords.trans hsplit.symm

theorem TypedIn.copyOf {d : JsSdk.BackupData} {sheet : JsSdk.Sheet} {x y z : Copy} (h : TypedIn d sheet x y z)
    (hx : x.Of sheet.seed.words) (hy : y.Of sheet.secret.words) (hz : z.Of sheet.backup) :
    JsSdk.CopyOf sheet .v3 (.password sheet.secret.words sheet.password) d := by
  refine ⟨⟨h.version, Or.inr rfl, ⟨_, h.seed, typedFrom_of_copy hx⟩, ?_, Or.inr ?_⟩, h.blocktrailKeys⟩
  · exact .password h.secret (typedFrom_of_copy hy) h.password
  · exact ⟨_, _, rfl, h.backup, typedFrom_of_copy hz⟩

section Pages

variable {p : Platform Node} {c : Ciphers} {wordlist : Bip39.Wordlist}

theorem php_decrypt_gcmEncrypt (hp : p.Standard c wordlist) (lib : PhpSdk.V3Crypt.Libraries) (pt pw : Bytes)
    (salt : JsSdk.Salt) (iv : JsSdk.IV) {n : Nat} (h0 : 0 < n) (hn : n < 2 ^ 32) :
    PhpSdk.V3Crypt.decrypt c lib (p.gcmEncrypt pt pw salt iv n) pw = .ok pt := by
  have hsalt : salt.val.length = 10 := salt.property
  have hround : (UInt32.ofNat n).toNat = n := by
    rw [UInt32.toNat_ofNat']
    exact Nat.mod_eq_of_lt hn
  have hne : UInt32.ofNat n ≠ 0 := by
    intro he
    rw [← hround, he] at h0
    exact absurd h0 (by decide)
  have htrips : RoundTrips c lib (UInt32.ofNat n) := roundTrips hne
  obtain ⟨ct, hjs, -, -, hphp⟩ := htrips pt pw salt iv (by omega) (by omega) iv.property
  rw [hround] at hjs
  cases (hp.gcmEncrypt pt pw salt iv n h0 hn).symm.trans hjs
  exact hphp

theorem php_decode_page (hp : p.Standard c wordlist) (hw : ∀ w ∈ wordlist.words, Copy.PlainWord w) {x : Copy} {ct : Bytes}
    {words : Str} (hx : x.Of words) (hlen : ct.length ≤ 1023) (hwords : p.encodeMnemonic ct = .ok words) {data : Bytes} :
    PhpSdk.EncryptionMnemonic.decode p.hashes.sha256 wordlist (PhpSdk.cleanUp x.text) = .ok data ↔ x.Neat ∧ data = ct := by
  rw [hp.encodeMnemonic] at hwords
  rw [hx.decode_cleanUp hw, php_decode_iff_js, JsSdk.decode_of_encode hlen hwords, Except.ok.injEq, eq_comm (a := ct)]

theorem php_backup_page (hp : p.Standard c wordlist) (hw : ∀ w ∈ wordlist.words, Copy.PlainWord w) {z : Copy}
    {entropy : Bytes} {words : Str} (hz : z.Of words) (he : Bip39.IsEntropy entropy)
    (hwords : p.entropyToMnemonic (Hex.encode entropy) = .ok words) {data : Bytes} :
    PhpSdk.EncryptionMnemonic.mnemonicToEntropy p.hashes.sha256 wordlist (PhpSdk.cleanUp z.text) = .ok data ↔
      z.Neat ∧ data = entropy := by
  rw [hp.entropyToMnemonic, JsSdk.EncryptionMnemonic.entropyToMnemonic_encode (List.length_pos_iff.mp he.1),
    Except.ok.injEq] at hwords
  rw [hz.mnemonicToEntropy_cleanUp hw, PhpSdk.EncryptionMnemonic.mnemonicToEntropy_ok_iff,
    Bip39.entropyOf?_eq_some.mpr ⟨he, hwords⟩, Option.some.injEq, eq_comm (a := entropy)]

theorem plain_of_page (hp : p.Standard c wordlist) (hw : ∀ w ∈ wordlist.words, Copy.PlainWord w) {ct : Bytes} {words : Str}
    (hlen : ct.length ≤ 1023) (hwords : p.encodeMnemonic ct = .ok words) : ∀ w ∈ words.splitOn ' ', Copy.PlainWord w := by
  rw [hp.encodeMnemonic] at hwords
  obtain ⟨-, hfits, rfl⟩ := JsSdk.EncryptionMnemonic.decode_ok_iff.mp (JsSdk.decode_of_encode hlen hwords)
  exact Copy.Of.plain_of_mnemonic hw (isEntropy_padded hfits)

theorem plain_of_backup (hp : p.Standard c wordlist) (hw : ∀ w ∈ wordlist.words, Copy.PlainWord w) {entropy : Bytes}
    {words : Str} (he : Bip39.IsEntropy entropy) (hwords : p.entropyToMnemonic (Hex.encode entropy) = .ok words) :
    ∀ w ∈ words.splitOn ' ', Copy.PlainWord w := by
  rw [hp.entropyToMnemonic, JsSdk.EncryptionMnemonic.entropyToMnemonic_encode (List.length_pos_iff.mp he.1),
    Except.ok.injEq] at hwords
  rw [← hwords]
  exact Copy.Of.plain_of_mnemonic hw he

end Pages

theorem plain_of_sheet {p : Platform Node} {c : Ciphers} {wordlist : Bip39.Wordlist} (hp : p.Standard c wordlist)
    (hw : ∀ w ∈ wordlist.words, Copy.PlainWord w) {sdk : JsSdk.Sdk} {a : JsSdk.Answers} {r : Draws}
    {o : NewWalletOptions Node} {store : JsSdk.WalletPost → Except JsError JsSdk.StoreResult} {n : JsSdk.NewWallet Node}
    {password : Str} {sheet : JsSdk.Sheet} (hcreated : JsSdk.createNewWalletV3 p sdk a r o store = .ok n)
    (hpassword : o.anyPassphrase = some (.text password)) (hno : o.backupPublicKey = none)
    (hgiven : ∀ b, o.backupSeed = some b → 4 ∣ b.length) (hsheet : n.sheet password = some sheet) :
    (∀ w ∈ sheet.seed.words.splitOn ' ', Copy.PlainWord w) ∧ (∀ w ∈ sheet.secret.words.splitOn ' ', Copy.PlainWord w) ∧
      ∀ w ∈ sheet.backup.splitOn ' ', Copy.PlainWord w := by
  obtain ⟨e, k, result, w, hsteps⟩ := JsSdk.Scheme.createNewWallet_ok hcreated
  obtain ⟨hseedWords, hsecretWords, -⟩ := JsSdk.NewWallet.sheet_eq_some hsheet
  obtain ⟨root, child, hroot, -⟩ := (JsSdk.createdWallet_madeOf (by simp [JsSdk.schemeV3]) hsteps.wallet).root
  have hroot : p.hd.fromSeedBuffer (o.seed r) sdk.network = .ok root := hroot
  have hsize := (JsSdk.length_of_fromSeedBuffer hroot).2
  obtain ⟨backupKey, hbackupSeed, hbackupKey, -⟩ := JsSdk.doRemainingWalletData_ok hno hsteps.remaining
  obtain ⟨hentropy, hbackupWords⟩ := hsteps.backupPage hgiven hsheet hbackupSeed hbackupKey
  obtain ⟨pw, -, -, -, -, hseedPage, hsecretPage⟩ := JsSdk.pages_v3 hsteps hpassword hseedWords hsecretWords
  have hsecretLength : r.secret.val.length = 32 := r.secret.property
  have hseedFits := hp.gcmEncrypt_format (o.seed r) r.secret.val r.seedSalt r.seedIV (n := JsSdk.subkeyIterations)
    (by decide) (by decide)
  have hsecretFits := hp.gcmEncrypt_format r.secret.val pw r.secretSalt r.secretIV (n := JsSdk.defaultIterations)
    (by decide) (by decide)
  exact ⟨plain_of_page hp hw (by omega) hseedPage, plain_of_page hp hw (by omega) hsecretPage,
    plain_of_backup hp hw hentropy hbackupWords⟩

/-- **Copies of a sheet.** Of a wallet that JavaScript made in version 3, every copy of the three pages makes the roots of
its seeds in JavaScript. PHP makes the same ones where all three copies are neat, and refuses every other copy. -/
theorem copies_of_sheet (p : Platform Node) (c : Ciphers) (wordlist : Bip39.Wordlist) (hp : p.Standard c wordlist)
    (hw : ∀ w ∈ wordlist.words, Copy.PlainWord w) (q : PhpSdk.UnlockPlatform PhpNode) (hq : q.ciphers = c)
    (sdk : JsSdk.Sdk) (a : JsSdk.Answers) (r : Draws) (o : NewWalletOptions Node)
    (store : JsSdk.WalletPost → Except JsError JsSdk.StoreResult) (n : JsSdk.NewWallet Node) (password : Str)
    (sheet : JsSdk.Sheet) (hcreated : JsSdk.createNewWalletV3 p sdk a r o store = .ok n)
    (hpassword : o.anyPassphrase = some (.text password)) (hno : o.backupPublicKey = none)
    (hgiven : ∀ b, o.backupSeed = some b → 4 ∣ b.length) (hsheet : n.sheet password = some sheet) (x y z : Copy)
    (hx : x.Of sheet.seed.words) (hy : y.Of sheet.secret.words) (hz : z.Of sheet.backup) :
    (∀ d network testnet, TypedIn d sheet x y z → JsSdk.sweeperNetwork network testnet = .ok sdk.network →
      ∃ sw key, JsSdk.newWalletSweeper p wordlist d network testnet = .ok (sw, some key) ∧
        p.hd.fromSeedBuffer (o.seed r) sdk.network = .ok sw.primaryPrivateKey ∧
        p.hd.fromSeedBuffer (o.backupSeed.getD r.backupSeed.val) sdk.network = .ok key) ∧
      ∀ options sw, PhpSdk.newWalletV3Sweeper q p.hashes.sha256 wordlist x.text y.text z.text (utf8 password) options =
          .ok sw ↔
        (x.Neat ∧ y.Neat ∧ z.Neat) ∧
          PhpSdk.newSweeper q.php (options.args (o.seed r) (o.backupSeed.getD r.backupSeed.val)) = .ok sw := by
  subst hq
  obtain ⟨e, k, result, w, hsteps⟩ := JsSdk.Scheme.createNewWallet_ok hcreated
  obtain ⟨hseedWords, hsecretWords, -, -, -, hsheetPassword, -, hsheetKeys⟩ := JsSdk.NewWallet.sheet_eq_some hsheet
  obtain ⟨root, child, hroot, -⟩ := (JsSdk.createdWallet_madeOf (by simp [JsSdk.schemeV3]) hsteps.wallet).root
  have hroot : p.hd.fromSeedBuffer (o.seed r) sdk.network = .ok root := hroot
  have hsize := (JsSdk.length_of_fromSeedBuffer hroot).2
  obtain ⟨backupKey, hbackupSeed, hbackupKey, -⟩ := JsSdk.doRemainingWalletData_ok hno hsteps.remaining
  obtain ⟨hentropy, hbackupWords⟩ := hsteps.backupPage hgiven hsheet hbackupSeed hbackupKey
  have hopened := JsSdk.opened_v3 hp hsteps hsize hpassword hseedWords hsecretWords
  constructor
  · intro d network testnet htyped hn
    have hcopy := htyped.copyOf hx hy hz
    have hkeeps := JsSdk.keeps_of_opened hp hsteps (by simp [JsSdk.schemeV3]) hgiven hsheet hopened hbackupSeed hbackupKey
    obtain ⟨keys, hkeys⟩ := hkeeps.blocktrailKeys
    have hseed := JsSdk.primarySeedOf_prints hp hopened.prints sheet.password
    rw [hsheetPassword, hopened.held, (JsSdk.createdWallet_madeOf (by simp [JsSdk.schemeV3]) hsteps.wallet).stored,
      ← hsheetPassword] at hseed
    have hseed : JsSdk.primarySeedOf p wordlist .v3 sheet.seed.words (.password sheet.secret.words sheet.password) =
        .ok (o.seed r) := toOption_eq_some hseed
    refine ⟨⟨root, p.hd.neutered backupKey, keys, sdk.network⟩, backupKey, ?_, hroot, hbackupKey⟩
    rw [JsSdk.newWalletSweeper_typed hcopy.typed hcopy.blocktrailKeys, hn, ok_bind, hkeys, ok_bind, hseed, ok_bind,
      JsSdk.backupSeedOfWords_of_entropy hp hentropy hbackupWords, ok_bind, hroot, ok_bind, JsSdk.backupKeys, hbackupKey]
    rfl
  · intro options sw
    obtain ⟨pw, hpw, -, -, -, hseedPage, hsecretPage⟩ := JsSdk.pages_v3 hsteps hpassword hseedWords hsecretWords
    cases hpw
    have hsecretLength : r.secret.val.length = 32 := r.secret.property
    have hseedFits := hp.gcmEncrypt_format (o.seed r) r.secret.val r.seedSalt r.seedIV (n := JsSdk.subkeyIterations)
      (by decide) (by decide)
    have hsecretFits := hp.gcmEncrypt_format r.secret.val (utf8 password) r.secretSalt r.secretIV
      (n := JsSdk.defaultIterations) (by decide) (by decide)
    have hsecretOpens := php_decrypt_gcmEncrypt hp q.buffers r.secret.val (utf8 password) r.secretSalt r.secretIV
      (n := JsSdk.defaultIterations) (by decide) (by decide)
    have hseedOpens := php_decrypt_gcmEncrypt hp q.buffers (o.seed r) r.secret.val r.seedSalt r.seedIV
      (n := JsSdk.subkeyIterations) (by decide) (by decide)
    constructor
    · intro hmade
      obtain ⟨secretCt, hsecretRead, hmade⟩ := exists_of_bind_ok hmade
      obtain ⟨secret, hsecret, hmade⟩ := exists_of_bind_ok hmade
      obtain ⟨seedCt, hseedRead, hmade⟩ := exists_of_bind_ok hmade
      obtain ⟨seed, hseed, hmade⟩ := exists_of_bind_ok hmade
      obtain ⟨backupSeed, hbackupRead, hmade⟩ := exists_of_bind_ok hmade
      obtain ⟨hyNeat, rfl⟩ := (php_decode_page hp hw hy (by omega) hsecretPage).mp hsecretRead
      obtain ⟨hxNeat, rfl⟩ := (php_decode_page hp hw hx (by omega) hseedPage).mp hseedRead
      obtain ⟨hzNeat, rfl⟩ := (php_backup_page hp hw hz hentropy hbackupWords).mp hbackupRead
      cases hsecretOpens.symm.trans hsecret
      cases hseedOpens.symm.trans hseed
      exact ⟨⟨hxNeat, hyNeat, hzNeat⟩, hmade⟩
    · rintro ⟨⟨hxNeat, hyNeat, hzNeat⟩, hmade⟩
      unfold PhpSdk.newWalletV3Sweeper
      rw [(php_decode_page hp hw hy (by omega) hsecretPage).mpr ⟨hyNeat, rfl⟩, ok_bind, hsecretOpens, ok_bind,
        (php_decode_page hp hw hx (by omega) hseedPage).mpr ⟨hxNeat, rfl⟩, ok_bind, hseedOpens, ok_bind,
        (php_backup_page hp hw hz hentropy hbackupWords).mpr ⟨hzNeat, rfl⟩, ok_bind]
      exact hmade

/-! ## A sheet to evaluate with -/

/-- What is typed in, with the words of each page on lines of their own. -/
def sampleTyped (sheet : JsSdk.Sheet) : JsSdk.BackupData where
  walletVersion := some 3
  primaryMnemonic := none
  backupMnemonic := some (some (Copy.spaced ['\n'] sheet.backup).text)
  primaryPassphrase := none
  encryptedPrimaryMnemonic := some (Copy.spaced ['\n'] sheet.seed.words).text
  passwordEncryptedSecretMnemonic := some (Copy.spaced ['\n'] sheet.secret.words).text
  password := some sheet.password
  encryptedRecoverySecretMnemonic := none
  recoverySecretDecryptionKey := none
  blocktrailKeys := some sheet.blocktrailPublicKeys
  backupPublicKey := []

/-- A wallet, its sheet, and a copy with a word on each line: JavaScript has the sweeper, and PHP has one of the same
seeds if the lines are neat. -/
theorem copies_of_sheet_lines : ∃ n sheet,
    JsSdk.createNewWalletV3 JsSdk.sheetPlatform JsSdk.sampleSdk JsSdk.sampleAnswers JsSdk.sampleDraws
      JsSdk.sampleNewOptions (fun _ => .ok ⟨[(dec 0, [Char.ofNat 3])], false, none⟩) = .ok n ∧
    n.sheet "right" = some sheet ∧
    (∃ sw key, JsSdk.newWalletSweeper JsSdk.sheetPlatform numeralWords (sampleTyped sheet) .undefined false =
        .ok (sw, some key) ∧
      JsSdk.sheetPlatform.hd.fromSeedBuffer (List.replicate 32 11) .bitcoin = .ok sw.primaryPrivateKey ∧
      JsSdk.sheetPlatform.hd.fromSeedBuffer (List.replicate 32 12) .bitcoin = .ok key) ∧
    ∀ options sw, PhpSdk.newWalletV3Sweeper PhpSdk.LockableWallet.samplePlatform JsSdk.sheetPlatform.hashes.sha256
        numeralWords (Copy.spaced ['\n'] sheet.seed.words).text (Copy.spaced ['\n'] sheet.secret.words).text
        (Copy.spaced ['\n'] sheet.backup).text (utf8 "right") options = .ok sw ↔
      ((Copy.spaced ['\n'] sheet.seed.words).Neat ∧ (Copy.spaced ['\n'] sheet.secret.words).Neat ∧
          (Copy.spaced ['\n'] sheet.backup).Neat) ∧
        PhpSdk.newSweeper PhpSdk.sampleBitWasp (options.args (List.replicate 32 11) (List.replicate 32 12)) =
          .ok sw := by
  have hmade : ((JsSdk.createNewWalletV3 JsSdk.sheetPlatform JsSdk.sampleSdk JsSdk.sampleAnswers JsSdk.sampleDraws
      JsSdk.sampleNewOptions (fun _ => .ok ⟨[(dec 0, [Char.ofNat 3])], false, none⟩)).toOption.bind fun n =>
      n.sheet "right").isSome = true := by
    decide +kernel
  obtain ⟨sheet, hsheet⟩ := Option.isSome_iff_exists.mp hmade
  obtain ⟨n, hn, hsheet⟩ := Option.bind_eq_some_iff.mp hsheet
  have hn := toOption_eq_some hn
  obtain ⟨hseed, hsecret, hbackup⟩ := plain_of_sheet JsSdk.sheetPlatform_standard PhpSdk.numeralWords_plain hn rfl rfl
    (fun b hb => by cases hb) hsheet
  have hcopies := copies_of_sheet JsSdk.sheetPlatform sampleCiphers numeralWords JsSdk.sheetPlatform_standard
    PhpSdk.numeralWords_plain PhpSdk.LockableWallet.samplePlatform rfl JsSdk.sampleSdk JsSdk.sampleAnswers
    JsSdk.sampleDraws JsSdk.sampleNewOptions _ n "right" sheet hn rfl rfl (fun b hb => by cases hb) hsheet _ _ _
    (Copy.spaced_of PhpSdk.newline_gap hseed) (Copy.spaced_of PhpSdk.newline_gap hsecret)
    (Copy.spaced_of PhpSdk.newline_gap hbackup)
  exact ⟨n, sheet, hn, hsheet, hcopies.1 (sampleTyped sheet) .undefined false ⟨rfl, rfl, rfl, rfl, rfl, rfl⟩ rfl,
    hcopies.2⟩

end TwoSdks
