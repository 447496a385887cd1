import Blocktrail.Lib.Blanks
import Blocktrail.PhpSdk.LockDiscipline
import Blocktrail.PhpSdk.SweeperSpec
import Blocktrail.TwoSdks.BackupMnemonic

/-! # The recovery sweepers of PHP: from a backup sheet to the keys

One class for each version. Each cleans up the mnemonics that are typed in, decrypts, and makes the roots.
-/

open Text Throwing Bitcoin Crypt

namespace PhpSdk

variable {Node : Type}

/-! ## Cleaning up -/

/-- What `trim` strips: blank, tab, newline, carriage return, NUL and vertical tab. -/
def isTrimmed (c : Char) : Bool := c ∈ [' ', '\t', '\n', '\r', Char.ofNat 0, Char.ofNat 11]

/-- `str_replace("  ", " ", str_replace("\r\n", " ", str_replace("\n", " ", trim($mnemonic))))`. -/
def cleanUp (mnemonic : Str) : Str :=
  Blanks.replacePair ' ' ' ' ' ' (Blanks.replacePair '\r' '\n' ' '
    (Blanks.replaceOne '\n' ' ' (Blanks.strip isTrimmed mnemonic)))

/-! ## Constructors -/

/-- What is passed to the constructors besides the mnemonics and the passphrase. -/
structure SweeperOptions (Node : Type) where
  blocktrailPublicKeys : List (Nat × BIP32Key Node)
  network : Str
  testnet : Bool

def SweeperOptions.args (o : SweeperOptions Node) (primarySeed backupSeed : Bytes) : SweeperArgs Node :=
  ⟨primarySeed, backupSeed, o.blocktrailPublicKeys, o.network, o.testnet⟩

variable (p : UnlockPlatform Node) (sha256 : Bytes → Hash256) (wordList : Bip39.Wordlist)

def sdkException (message : Str) : PhpError := ⟨"BlocktrailSDKException", message⟩

/-- `new WalletV1Sweeper(..)`. -/
def newWalletV1Sweeper (primaryMnemonic : Str) (primaryPassphrase : Value) (backupMnemonic : Str)
    (o : SweeperOptions Node) : Except PhpError (Sweeper Node) := do
  let primarySeed ← p.getSeed (.text (utf8 (cleanUp primaryMnemonic))) primaryPassphrase
  let backupSeed ← p.getSeed (.text (utf8 (cleanUp backupMnemonic))) (.text [])
  newSweeper p.php (o.args primarySeed backupSeed)

/-- `base64_encode($bip39->mnemonicToEntropy($mnemonic)->getBinary())`. -/
def mnemonicToBase64 (mnemonic : Str) : Except PhpError Bytes := do
  let entropy ← EncryptionMnemonic.mnemonicToEntropy sha256 wordList mnemonic
  pure (utf8 (Base64.encode entropy))

/-- `if (!($text = CryptoJSAES::decrypt($base64, $passphrase))) throw ..`. -/
def decryptText (base64 : Bytes) (passphrase : Value) (message : Str) : Except PhpError Bytes := do
  let text ← WalletV2.decrypt p (.text base64) passphrase
  if text.truthy then WalletV2.toText p text else throw (sdkException message)

/-- `new WalletV2Sweeper(..)`. The decrypted text is the primary seed. -/
def newWalletV2Sweeper (encryptedPrimaryMnemonic encryptedSecretMnemonic backupMnemonic : Str) (passphrase : Value)
    (o : SweeperOptions Node) : Except PhpError (Sweeper Node) := do
  let encryptedSecret ← mnemonicToBase64 sha256 wordList (cleanUp encryptedSecretMnemonic)
  let secret ← decryptText p encryptedSecret passphrase "Failed to decret password encrypted secret"
  let encryptedPrimary ← mnemonicToBase64 sha256 wordList (cleanUp encryptedPrimaryMnemonic)
  let primarySeed ← decryptText p encryptedPrimary (.text secret) "failed to decrypt encrypted primary seed! (weird!)"
  let backupSeed ← EncryptionMnemonic.mnemonicToEntropy sha256 wordList (cleanUp backupMnemonic)
  newSweeper p.php (o.args primarySeed backupSeed)

/-- `new WalletV3Sweeper(..)`. A decrypted buffer is never false. -/
def newWalletV3Sweeper (encryptedPrimaryMnemonic encryptedSecretMnemonic backupMnemonic : Str) (passphrase : Bytes)
    (o : SweeperOptions Node) : Except PhpError (Sweeper Node) := do
  let encryptedSecret ← EncryptionMnemonic.decode sha256 wordList (cleanUp encryptedSecretMnemonic)
  let secret ← V3Crypt.decrypt p.ciphers p.buffers encryptedSecret passphrase
  let encryptedPrimary ← EncryptionMnemonic.decode sha256 wordList (cleanUp encryptedPrimaryMnemonic)
  let primarySeed ← V3Crypt.decrypt p.ciphers p.buffers encryptedPrimary secret
  let backupSeed ← EncryptionMnemonic.mnemonicToEntropy sha256 wordList (cleanUp backupMnemonic)
  newSweeper p.php (o.args primarySeed backupSeed)

/-! ## Copies of a page -/

/-- The words of a mnemonic, each after the first with what stands in front of it, and the margins. -/
structure Copy where
  front : Str
  first : Str
  rest : List (Str × Str)
  back : Str

namespace Copy

def text (x : Copy) : Str := Blanks.spread x.front x.first x.rest x.back

def words (x : Copy) : List Str := x.first :: x.rest.map Prod.snd

/-- A word has a letter, and no character that either SDK strips. -/
def PlainWord (w : Str) : Prop := w ≠ [] ∧ ∀ c ∈ w, isSpace c = false ∧ isTrimmed c = false

/-- The words are those of the mnemonic, with white space around and between them. -/
structure Of (x : Copy) (mnemonic : Str) : Prop where
  words : [' '].intercalate x.words = mnemonic
  plain : ∀ w ∈ x.words, PlainWord w
  front : ∀ c ∈ x.front, isSpace c = true
  gaps : ∀ gap ∈ x.rest, (∀ c ∈ gap.1, isSpace c = true) ∧ gap.1 ≠ []
  back : ∀ c ∈ x.back, isSpace c = true

/-- One or two blanks or newlines. -/
def Narrow (gap : Str) : Prop := (gap.length = 1 ∨ gap.length = 2) ∧ ∀ c ∈ gap, c = ' ' ∨ c = '\n'

/-- What the clean-up of PHP can undo. -/
structure Neat (x : Copy) : Prop where
  front : ∀ c ∈ x.front, isTrimmed c = true
  gaps : ∀ gap ∈ x.rest, Narrow gap.1
  back : ∀ c ∈ x.back, isTrimmed c = true

/-- The same gap everywhere, and no margins. -/
def spaced (gap mnemonic : Str) : Copy :=
  ⟨[], (mnemonic.splitOn ' ').headD [], (mnemonic.splitOn ' ').tail.map fun w => (gap, w), []⟩

theorem spaced_words (gap mnemonic : Str) : (spaced gap mnemonic).words = mnemonic.splitOn ' ' := by
  rcases h : mnemonic.splitOn ' ' with _ | ⟨w, ws⟩
  · exact absurd h (List.splitOn_ne_nil ' ' mnemonic)
  · simp [spaced, words, h, Function.comp_def]

theorem gap_of_mem_spaced {gap mnemonic : Str} {entry : Str × Str} (h : entry ∈ (spaced gap mnemonic).rest) :
    entry.1 = gap := by
  obtain ⟨w, -, rfl⟩ := List.mem_map.mp h
  rfl

theorem spaced_of {gap mnemonic : Str} (hgap : (∀ c ∈ gap, isSpace c = true) ∧ gap ≠ [])
    (h : ∀ w ∈ mnemonic.splitOn ' ', PlainWord w) : (spaced gap mnemonic).Of mnemonic where
  words := by rw [spaced_words, List.intercalate_splitOn]
  plain := by rwa [spaced_words]
  front := by simp [spaced]
  gaps entry hentry := by rwa [gap_of_mem_spaced hentry]
  back := by simp [spaced]

theorem spaced_neat_iff {gap mnemonic : Str} (h : 2 ≤ (mnemonic.splitOn ' ').length) :
    (spaced gap mnemonic).Neat ↔ Narrow gap := by
  constructor
  · intro hneat
    obtain ⟨a, b, rest, hsplit⟩ : ∃ a b rest, mnemonic.splitOn ' ' = a :: b :: rest := by
      rcases hsplit : mnemonic.splitOn ' ' with _ | ⟨a, _ | ⟨b, rest⟩⟩
      · simp [hsplit] at h
      · simp [hsplit] at h
      · exact ⟨a, b, rest, rfl⟩
    exact hneat.gaps (gap, b) (by simp [spaced, hsplit])
  · intro hnarrow
    refine ⟨by simp [spaced], fun entry hentry => ?_, by simp [spaced]⟩
    rwa [gap_of_mem_spaced hentry]

end Copy

/-! ## What the clean-up does -/

/-- A newline for a blank, then one blank for each two. -/
def squeeze (s : Str) : Str := Blanks.replacePair ' ' ' ' ' ' (Blanks.replaceOne '\n' ' ' s)

/-- No newline is left for the pair that starts with a carriage return. -/
theorem cleanUp_eq (s : Str) : cleanUp s = squeeze (Blanks.strip isTrimmed s) := by
  unfold cleanUp squeeze
  rw [Blanks.replacePair_of_not_mem (Blanks.replaceOne_not_mem (by decide) _)]

theorem keepsWords_squeeze : Blanks.KeepsWords isSpace squeeze :=
  (Blanks.keepsWords_replacePair ' ' (by decide) (by decide)).comp (Blanks.keepsWords_replaceOne ' ' (by decide))

theorem blank_of_mem_squeeze {s : Str} (h : ∀ c ∈ s, isSpace c = true) : ∀ c ∈ squeeze s, isSpace c = true := by
  intro c hc
  rcases Blanks.mem_replacePair hc with rfl | hc
  · decide
  rcases Blanks.mem_replaceOne hc with rfl | hc
  · decide
  · exact h c hc

theorem squeeze_eq_nil {s : Str} : squeeze s = [] ↔ s = [] := by
  rw [squeeze, Blanks.replacePair_eq_nil]
  exact List.map_eq_nil_iff

theorem squeeze_eq_blank_iff {gap : Str} : squeeze gap = [' '] ↔ Copy.Narrow gap := by
  have hchar (c : Char) : (if c = '\n' then ' ' else c) = ' ' ↔ c = ' ' ∨ c = '\n' := by
    by_cases h : c = '\n' <;> simp [h]
  rw [squeeze, Blanks.replacePair_same_eq_singleton]
  unfold Blanks.replaceOne Copy.Narrow
  rcases gap with _ | ⟨c, _ | ⟨d, _ | ⟨e, gap⟩⟩⟩
  · simp
  · simpa using hchar c
  · simpa using and_congr (hchar c) (hchar d)
  · simp

/-! ## Reading a copy -/

namespace Copy.Of

variable {x : Copy} {m : Str}

theorem plain_isSpace (h : x.Of m) : ∀ w ∈ x.first :: x.rest.map Prod.snd, (∀ c ∈ w, isSpace c = false) ∧ w ≠ [] :=
  fun w hw => ⟨fun c hc => ((h.plain w hw).2 c hc).1, (h.plain w hw).1⟩

theorem cleanUp_text (h : x.Of m) : cleanUp x.text =
    Blanks.spread (squeeze (x.front.dropWhile isTrimmed)) x.first (x.rest.map fun gap => (squeeze gap.1, gap.2))
      (squeeze (x.back.rdropWhile isTrimmed)) := by
  have htrimmed : ∀ w ∈ x.first :: x.rest.map Prod.snd, (∀ c ∈ w, isTrimmed c = false) ∧ w ≠ [] :=
    fun w hw => ⟨fun c hc => ((h.plain w hw).2 c hc).2, (h.plain w hw).1⟩
  rw [cleanUp_eq, text, Blanks.strip_spread htrimmed, keepsWords_squeeze.spread h.plain_isSpace]

theorem squeezed_words (x : Copy) :
    x.first :: (x.rest.map fun gap => (squeeze gap.1, gap.2)).map Prod.snd = x.words := by
  rw [List.map_map]
  rfl

theorem blank_front (h : x.Of m) : ∀ c ∈ squeeze (x.front.dropWhile isTrimmed), isSpace c = true :=
  blank_of_mem_squeeze fun c hc => h.front c ((List.dropWhile_suffix _).mem hc)

theorem blank_back (h : x.Of m) : ∀ c ∈ squeeze (x.back.rdropWhile isTrimmed), isSpace c = true :=
  blank_of_mem_squeeze fun c hc => h.back c ((List.rdropWhile_prefix _ _).mem hc)

theorem blank_gaps (h : x.Of m) : ∀ gap ∈ x.rest.map fun gap => (squeeze gap.1, gap.2),
    (∀ c ∈ gap.1, isSpace c = true) ∧ gap.1 ≠ [] := by
  intro gap hgap
  obtain ⟨gap, hmem, rfl⟩ := List.mem_map.mp hgap
  obtain ⟨hblank, hne⟩ := h.gaps gap hmem
  exact ⟨blank_of_mem_squeeze hblank, mt squeeze_eq_nil.mp hne⟩

/-- **Neat copies.** They are the ones that the clean-up turns into the mnemonic. -/
theorem cleanUp_eq_iff (h : x.Of m) : cleanUp x.text = m ↔ x.Neat := by
  have hwords : ∀ w ∈ x.first :: (x.rest.map fun gap => (squeeze gap.1, gap.2)).map Prod.snd,
      (∀ c ∈ w, isSpace c = false) ∧ w ≠ [] := by
    rw [squeezed_words]
    exact h.plain_isSpace
  have hblank : isSpace ' ' = true := by decide
  rw [h.cleanUp_text, ← h.words, ← squeezed_words,
    Blanks.spread_eq_intercalate_iff hblank hwords h.blank_front fun gap hgap => (h.blank_gaps gap hgap).1]
  constructor
  · rintro ⟨hfront, hgaps, hback⟩
    refine ⟨?_, fun gap hgap => ?_, ?_⟩
    · simpa using List.dropWhile_eq_nil_iff.mp (squeeze_eq_nil.mp hfront)
    · exact squeeze_eq_blank_iff.mp (hgaps _ (List.mem_map_of_mem (f := fun gap => (squeeze gap.1, gap.2)) hgap))
    · simpa using List.rdropWhile_eq_nil_iff.mp (squeeze_eq_nil.mp hback)
  · rintro ⟨hfront, hgaps, hback⟩
    refine ⟨squeeze_eq_nil.mpr ?_, fun gap hgap => ?_, squeeze_eq_nil.mpr ?_⟩
    · exact List.dropWhile_eq_nil_iff.mpr (by simpa using hfront)
    · obtain ⟨gap, hmem, rfl⟩ := List.mem_map.mp hgap
      exact squeeze_eq_blank_iff.mpr (hgaps gap hmem)
    · exact List.rdropWhile_eq_nil_iff.mpr (by simpa using hback)

theorem words_cleanUp (h : x.Of m) : Blanks.words isSpace (cleanUp x.text) = x.words := by
  have hwords : ∀ w ∈ x.first :: (x.rest.map fun gap => (squeeze gap.1, gap.2)).map Prod.snd,
      (∀ c ∈ w, isSpace c = false) ∧ w ≠ [] := by
    rw [squeezed_words]
    exact h.plain_isSpace
  rw [h.cleanUp_text, Blanks.words_spread hwords h.blank_front h.blank_gaps h.blank_back, squeezed_words]

variable {sha256 : Bytes → Hash256} {wordList : Bip39.Wordlist}

theorem plain_of_mnemonic (hw : ∀ w ∈ wordList.words, PlainWord w) {entropy : Bytes} (he : Bip39.IsEntropy entropy) :
    ∀ w ∈ (Bip39.mnemonic sha256 wordList entropy).splitOn ' ', PlainWord w := by
  intro w hmem
  rw [Bip39.splitOn_mnemonic he] at hmem
  obtain ⟨i, hi, rfl⟩ := List.mem_map.mp hmem
  exact hw _ (wordList.word_mem (Bip39.lt_of_mem_indices he hi))

theorem intercalate_words_of_entropy (hw : ∀ w ∈ wordList.words, PlainWord w) {s : Str} {entropy : Bytes}
    (h : EncryptionMnemonic.mnemonicToEntropy sha256 wordList s = .ok entropy) :
    [' '].intercalate (Blanks.words isSpace s) = s := by
  obtain ⟨he, rfl⟩ := Bip39.entropyOf?_eq_some.mp (EncryptionMnemonic.mnemonicToEntropy_ok_iff.mp h)
  have hplain : ∀ w ∈ (Bip39.mnemonic sha256 wordList entropy).splitOn ' ', (∀ c ∈ w, isSpace c = false) ∧ w ≠ [] := by
    intro w hmem
    obtain ⟨hne, hchars⟩ := plain_of_mnemonic hw he w hmem
    exact ⟨fun c hc => (hchars c hc).1, hne⟩
  have hblank : isSpace ' ' = true := by decide
  have hwords := Blanks.words_intercalate hblank hplain
  rw [List.intercalate_splitOn] at hwords
  rw [hwords, List.intercalate_splitOn]

/-- **Reading.** A copy is read where it is neat, and then as the mnemonic is. -/
theorem mnemonicToEntropy_cleanUp (h : x.Of m) (hw : ∀ w ∈ wordList.words, PlainWord w) {entropy : Bytes} :
    EncryptionMnemonic.mnemonicToEntropy sha256 wordList (cleanUp x.text) = .ok entropy ↔
      x.Neat ∧ EncryptionMnemonic.mnemonicToEntropy sha256 wordList m = .ok entropy := by
  constructor
  · intro hread
    have hm : cleanUp x.text = m := by
      rw [← intercalate_words_of_entropy hw hread, h.words_cleanUp, h.words]
    exact ⟨h.cleanUp_eq_iff.mp hm, by rw [← hm, hread]⟩
  · rintro ⟨hneat, hread⟩
    rw [h.cleanUp_eq_iff.mpr hneat, hread]

theorem decode_cleanUp (h : x.Of m) (hw : ∀ w ∈ wordList.words, PlainWord w) {data : Bytes} :
    EncryptionMnemonic.decode sha256 wordList (cleanUp x.text) = .ok data ↔
      x.Neat ∧ EncryptionMnemonic.decode sha256 wordList m = .ok data := by
  constructor
  · intro hread
    obtain ⟨entropy, hentropy, -⟩ := exists_of_bind_ok hread
    have hneat := ((h.mnemonicToEntropy_cleanUp hw).mp hentropy).1
    rw [h.cleanUp_eq_iff.mpr hneat] at hread
    exact ⟨hneat, hread⟩
  · rintro ⟨hneat, hread⟩
    rw [h.cleanUp_eq_iff.mpr hneat, hread]

end Copy.Of

/-! ## Wallets of version 2

A wallet decodes the decrypted text from base64, and the sweeper does not.
-/

theorem length_base64Decode_lt {t : Bytes} (h : t ≠ []) : (WalletV2.base64Decode t).length < t.length := by
  have hbytes : ∀ vs : List Nat, (Base64.bytes vs).length ≤ 3 * vs.length / 4 := by
    intro vs
    fun_induction Base64.bytes vs with
    | case1 v0 v1 v2 v3 rest ih =>
      simp only [List.length_cons]
      omega
    | case2 v0 v1 v2 => simp
    | case3 v0 v1 => simp
    | case4 vs h4 h3 h2 => simp
  have hsextets := List.length_filterMap_le Base64.value? (t.map fun b => Char.ofNat b.toNat)
  have hpos := List.length_pos_iff.mpr h
  have hdecoded := hbytes ((t.map fun b => Char.ofNat b.toNat).filterMap Base64.value?)
  rw [List.length_map] at hsextets
  show (Base64.bytes _).length < _
  omega

section VersionTwo

variable {p : UnlockPlatform Node} {sha256 : Bytes → Hash256} {wordList : Bip39.Wordlist}

/-- A ciphertext decrypts to a text, or to `false`. -/
theorem decrypt_truthy {base64 passphrase v : Value} (h : WalletV2.decrypt p base64 passphrase = .ok v)
    (ht : v.truthy = true) : ∃ t, v = .text t ∧ t ≠ [] := by
  unfold WalletV2.decrypt at h
  obtain ⟨s, -, h⟩ := exists_of_bind_ok h
  dsimp only at h
  split_ifs at h with hmagic
  · cases h
  obtain ⟨pw, -, h⟩ := exists_of_bind_ok h
  split at h
  · next t _ =>
    cases h
    refine ⟨t, rfl, ?_⟩
    rintro rfl
    cases ht
  · cases h
    cases ht

theorem decryptText_ok {base64 t : Bytes} {passphrase : Value} {message : Str}
    (h : decryptText p base64 passphrase message = .ok t) :
    WalletV2.decrypt p (.text base64) passphrase = .ok (.text t) ∧ t ≠ [] := by
  unfold decryptText at h
  obtain ⟨v, hv, h⟩ := exists_of_bind_ok h
  split_ifs at h with htruthy
  obtain ⟨t', rfl, hne⟩ := decrypt_truthy hv htruthy
  cases h
  exact ⟨hv, hne⟩

/-- The wallet keeps the text that it decrypts, and makes the root from what it decodes of it. -/
theorem decryptKey_ok {encryptedPrimarySeed encryptedSecret password : Value} {s t : Held Node} {key : BIP32Key Node}
    (h : call (WalletV2.decryptKey p encryptedPrimarySeed encryptedSecret password) s = (.ok key, t)) :
    ∃ secret seed : Bytes, WalletV2.decrypt p encryptedSecret password = .ok (.text secret) ∧
      WalletV2.decrypt p encryptedPrimarySeed (.text secret) = .ok (.text seed) ∧ t.primarySeed = .text seed ∧
      p.php.fromEntropy (WalletV2.base64Decode seed) = some key.key := by
  unfold WalletV2.decryptKey at h
  rcases hsecret : WalletV2.decrypt p encryptedSecret password with e | secret
  · rw [call_orRaise_bind_error hsecret] at h
    cases h
  rw [call_orRaise_bind_ok hsecret, call_bind_ok (call_modify _ _)] at h
  rcases hs : WalletV2.checkDecrypted secret "Failed to decrypt secret with password" with e | _
  · rw [call_orRaise_bind_error hs] at h
    cases h
  rw [call_orRaise_bind_ok hs] at h
  rcases hseed : WalletV2.decrypt p encryptedPrimarySeed secret with e | seed
  · rw [call_orRaise_bind_error hseed] at h
    cases h
  rw [call_orRaise_bind_ok hseed, call_bind_ok (call_modify _ _)] at h
  rcases hd : WalletV2.checkDecrypted seed "Failed to decrypt primary seed with secret" with e | _
  · rw [call_orRaise_bind_error hd] at h
    cases h
  rw [call_orRaise_bind_ok hd, call_orRaise] at h
  have htruthy {v : Value} {message : Str} (hv : WalletV2.checkDecrypted v message = .ok ()) : v.truthy = true := by
    unfold WalletV2.checkDecrypted at hv
    split_ifs at hv with ht
    exact ht
  obtain ⟨secret, rfl, -⟩ := decrypt_truthy hsecret (htruthy hs)
  obtain ⟨seed, rfl, -⟩ := decrypt_truthy hseed (htruthy hd)
  have hkey : createFromEntropy p (WalletV2.base64Decode seed) = .ok key := congrArg Prod.fst h
  refine ⟨secret, seed, rfl, hseed, ?_, ?_⟩
  · exact (congrArg (fun r => r.2.primarySeed) h).symm
  · unfold createFromEntropy at hkey
    split at hkey
    · cases hkey
      assumption
    · cases hkey

/-- What the sweeper reads from a copy of a page is the ciphertext of the page. -/
theorem mnemonicToBase64_cleanUp (hw : ∀ w ∈ wordList.words, Copy.PlainWord w) {x : Copy} {ct words : Str} {base64 : Bytes}
    (hx : x.Of words) (hct : Base64.encode (Base64.decode ct) = ct) (hentropy : Bip39.IsEntropy (Base64.decode ct))
    (hwords : EncryptionMnemonic.entropyToMnemonic sha256 wordList (Base64.decode ct) = .ok words)
    (h : mnemonicToBase64 sha256 wordList (cleanUp x.text) = .ok base64) : base64 = utf8 ct := by
  obtain ⟨entropy, hread, h⟩ := exists_of_bind_ok h
  obtain ⟨-, hread⟩ := (hx.mnemonicToEntropy_cleanUp hw).mp hread
  rw [EncryptionMnemonic.entropyToMnemonic_eq hentropy, Except.ok.injEq] at hwords
  have hsame := Bip39.entropyOf?_eq_some.mpr ⟨hentropy, hwords⟩
  rw [EncryptionMnemonic.mnemonicToEntropy_ok_iff] at hread
  cases hsame.symm.trans hread
  cases h
  rw [hct]

end VersionTwo

/-- **Another seed.** Where the wallet unlocks and the sweeper is made of a copy of its sheet, the wallet makes its root
from the seed, and the sweeper from the base64 text of it. -/
theorem v2Sweeper_seed (p : UnlockPlatform Node) (sha256 : Bytes → Hash256) (wordList : Bip39.Wordlist)
    (hw : ∀ w ∈ wordList.words, Copy.PlainWord w) (seedCt secretCt seedWords secretWords : Str)
    (hseed : Base64.encode (Base64.decode seedCt) = seedCt) (hsecret : Base64.encode (Base64.decode secretCt) = secretCt)
    (hseedFits : Bip39.IsEntropy (Base64.decode seedCt)) (hsecretFits : Bip39.IsEntropy (Base64.decode secretCt))
    (hseedWords : EncryptionMnemonic.entropyToMnemonic sha256 wordList (Base64.decode seedCt) = .ok seedWords)
    (hsecretWords : EncryptionMnemonic.entropyToMnemonic sha256 wordList (Base64.decode secretCt) = .ok secretWords)
    (x y : Copy) (hx : x.Of seedWords) (hy : y.Of secretWords) (backupMnemonic : Str) (passphrase : Value)
    (o : SweeperOptions Node) (s t : Held Node) (key : BIP32Key Node) (sw : Sweeper Node)
    (hunlocked : call (WalletV2.decryptKey p (.text (utf8 seedCt)) (.text (utf8 secretCt)) passphrase) s = (.ok key, t))
    (hmade : newWalletV2Sweeper p sha256 wordList x.text y.text backupMnemonic passphrase o = .ok sw) :
    ∃ text : Bytes, t.primarySeed = .text text ∧ p.php.fromEntropy (WalletV2.base64Decode text) = some key.key ∧
      p.php.fromEntropy text = some sw.primaryPrivateKey.key ∧ WalletV2.base64Decode text ≠ text := by
  obtain ⟨secret, seed, hopened, hdecrypted, hheld, hkey⟩ := decryptKey_ok hunlocked
  unfold newWalletV2Sweeper at hmade
  obtain ⟨secretBase64, hreadSecret, hmade⟩ := exists_of_bind_ok hmade
  obtain ⟨secret', hsecretText, hmade⟩ := exists_of_bind_ok hmade
  obtain ⟨seedBase64, hreadSeed, hmade⟩ := exists_of_bind_ok hmade
  obtain ⟨seed', hseedText, hmade⟩ := exists_of_bind_ok hmade
  obtain ⟨backupSeed, -, hmade⟩ := exists_of_bind_ok hmade
  obtain rfl := mnemonicToBase64_cleanUp hw hy hsecret hsecretFits hsecretWords hreadSecret
  obtain rfl := mnemonicToBase64_cleanUp hw hx hseed hseedFits hseedWords hreadSeed
  obtain ⟨hsame, -⟩ := decryptText_ok hsecretText
  cases hopened.symm.trans hsame
  obtain ⟨hsame, hne⟩ := decryptText_ok hseedText
  cases hdecrypted.symm.trans hsame
  obtain ⟨-, root, backup, hroot, -, hprimary, -⟩ := newSweeper_spec hmade
  refine ⟨seed, hheld, hkey, ?_, fun he => ?_⟩
  · rw [hprimary]
    exact hroot
  · have hlt := length_base64Decode_lt hne
    rw [he] at hlt
    exact Nat.lt_irrefl _ hlt

/-! ### A sheet to evaluate with -/

theorem isTrimmed_of_isDigit {c : Char} (h : c.isDigit = true) : isTrimmed c = false := by
  have hlow : ([' ', '\t', '\n', '\r', Char.ofNat 0, Char.ofNat 11].all fun d => decide (d.toNat < 48)) = true := rfl
  refine decide_eq_false fun hmem => ?_
  have hlt : c.toNat < 48 := of_decide_eq_true (List.all_eq_true.mp hlow c hmem)
  exact absurd (digit_bounds h).1 (Nat.not_le.mpr hlt)

theorem numeralWords_plain : ∀ w ∈ TwoSdks.numeralWords.words, Copy.PlainWord w := by
  intro w hw
  simp only [TwoSdks.numeralWords, List.mem_map] at hw
  obtain ⟨n, -, rfl⟩ := hw
  refine ⟨dec_ne_nil n, fun c hc => ?_⟩
  have hdigit := isDigit_of_mem_dec hc
  exact ⟨isSpace_of_isDigit hdigit, isTrimmed_of_isDigit hdigit⟩

/-- A ciphertext of the sample platform, which takes the key off in front. -/
def sampleSealed (text passphrase : Bytes) : Bytes :=
  WalletV2.saltedMagic ++ List.replicate 8 0 ++
    (WalletV2.evpkdf LockableWallet.samplePlatform passphrase (List.replicate 8 0)).1 ++ text

/-- The secret `abcd` under the password `[1]`. -/
def sampleSecretSealed : Bytes := sampleSealed [97, 98, 99, 100] [1]

/-- The base64 text of a seed of three bytes, under the secret. -/
def sampleSeedSealed : Bytes := sampleSealed [65, 81, 73, 68] [97, 98, 99, 100]

def sampleSheetHash : Bytes → Hash256 := fun _ => ⟨List.replicate 32 0, rfl⟩

theorem newline_gap : (∀ c ∈ ['\n'], isSpace c = true) ∧ ['\n'] ≠ [] := by
  refine ⟨fun c hc => ?_, by simp⟩
  rw [List.mem_singleton.mp hc]
  rfl

/-- The sheet, with the words on lines of their own. -/
def sampleLines (entropy : Bytes) : Copy :=
  Copy.spaced ['\n'] (Bip39.mnemonic sampleSheetHash TwoSdks.numeralWords entropy)

theorem sampleLines_of {entropy : Bytes} (he : Bip39.IsEntropy entropy) :
    (sampleLines entropy).Of (Bip39.mnemonic sampleSheetHash TwoSdks.numeralWords entropy) :=
  Copy.spaced_of newline_gap (Copy.Of.plain_of_mnemonic numeralWords_plain he)

theorem sampleLines_read {entropy : Bytes} (he : Bip39.IsEntropy entropy) :
    EncryptionMnemonic.mnemonicToEntropy sampleSheetHash TwoSdks.numeralWords (cleanUp (sampleLines entropy).text) =
      .ok entropy := by
  have hwords : 2 ≤ ((Bip39.mnemonic sampleSheetHash TwoSdks.numeralWords entropy).splitOn ' ').length := by
    rw [Bip39.length_words he]
    obtain ⟨hpos, hfour, -⟩ := he
    omega
  refine ((sampleLines_of he).mnemonicToEntropy_cleanUp numeralWords_plain).mpr ⟨?_, ?_⟩
  · exact (Copy.spaced_neat_iff hwords).mpr ⟨Or.inl rfl, fun c hc => Or.inr (List.mem_singleton.mp hc)⟩
  · exact EncryptionMnemonic.mnemonicToEntropy_ok_iff.mpr (Bip39.entropyOf?_eq_some.mpr ⟨he, rfl⟩)

theorem v2Sweeper_seed_of_lines : ∃ (t : Held SampleNode) (key : BIP32Key SampleNode) (sw : Sweeper SampleNode)
    (text : Bytes), t.primarySeed = .text text ∧ sampleBitWasp.fromEntropy (WalletV2.base64Decode text) = some key.key ∧
      sampleBitWasp.fromEntropy text = some sw.primaryPrivateKey.key ∧ WalletV2.base64Decode text ≠ text := by
  have hseed : Base64.encode (Base64.decode (Base64.encode sampleSeedSealed)) = Base64.encode sampleSeedSealed := by
    rw [Base64.decode_encode]
  have hsecret : Base64.encode (Base64.decode (Base64.encode sampleSecretSealed)) = Base64.encode sampleSecretSealed := by
    rw [Base64.decode_encode]
  have hseedFits : Bip39.IsEntropy (Base64.decode (Base64.encode sampleSeedSealed)) := by
    rw [Base64.decode_encode]
    exact ⟨by decide, by decide, by decide⟩
  have hsecretFits : Bip39.IsEntropy (Base64.decode (Base64.encode sampleSecretSealed)) := by
    rw [Base64.decode_encode]
    exact ⟨by decide, by decide, by decide⟩
  have hunlocked : (call (WalletV2.decryptKey LockableWallet.samplePlatform (.text (utf8 (Base64.encode sampleSeedSealed)))
      (.text (utf8 (Base64.encode sampleSecretSealed))) (.text [1])) .initial).1.toOption.isSome = true := by
    decide +kernel
  have hmade : (newWalletV2Sweeper LockableWallet.samplePlatform sampleSheetHash TwoSdks.numeralWords
      (sampleLines (Base64.decode (Base64.encode sampleSeedSealed))).text
      (sampleLines (Base64.decode (Base64.encode sampleSecretSealed))).text
      (sampleLines (Base64.decode (Base64.encode sampleSecretSealed))).text (.text [1])
      ⟨[], "btc".toList, false⟩).toOption.isSome = true := by
    unfold newWalletV2Sweeper mnemonicToBase64
    rw [sampleLines_read hsecretFits, sampleLines_read hseedFits]
    decide +kernel
  obtain ⟨key, hkey⟩ := Option.isSome_iff_exists.mp hunlocked
  obtain ⟨sw, hsw⟩ := Option.isSome_iff_exists.mp hmade
  obtain ⟨text, hseeds⟩ := v2Sweeper_seed LockableWallet.samplePlatform sampleSheetHash TwoSdks.numeralWords
    numeralWords_plain _ _ _ _ hseed hsecret hseedFits hsecretFits (EncryptionMnemonic.entropyToMnemonic_eq hseedFits)
    (EncryptionMnemonic.entropyToMnemonic_eq hsecretFits) _ _ (sampleLines_of hseedFits) (sampleLines_of hsecretFits)
    _ _ _ .initial _ key sw (Prod.ext (toOption_eq_some hkey) rfl) (toOption_eq_some hsw)
  exact ⟨_, key, sw, text, hseeds⟩

end PhpSdk
