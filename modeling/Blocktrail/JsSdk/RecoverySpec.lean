import Blocktrail.JsSdk.NewWallet
import Blocktrail.JsSdk.PasswordUnlock
import Blocktrail.JsSdk.Recovery
import Blocktrail.JsSdk.V3Crypt

/-! # What a backup sheet recovers

The sweeper reads from the mnemonics of stored data the seed that an unlock reads from the data, however the words are
spaced.
-/

open Text Throwing Bitcoin Crypt Crypt.Bip39

namespace JsSdk

variable {Node : Type}

/-! ## Words that are typed in -/

/-- The text has the words of the mnemonic, in order, whatever white space is around them. -/
def TypedFrom (mnemonic typed : Str) : Prop := Blanks.words isSpace typed = mnemonic.splitOn ' '

/-- **Cleaning up.** What is left are the words, with one blank between them. -/
theorem cleanUp_eq (s : Str) : cleanUp s = [' '].intercalate (Blanks.words isSpace s) := by
  unfold cleanUp
  rw [Blanks.collapse_replaceOne ' ' (by decide) (by decide), Blanks.collapse_replacePair ' ' (by decide) (by decide) (by decide)]
  exact Blanks.collapse_strip ' ' s

theorem cleanUp_of_typedFrom {mnemonic typed : Str} (h : TypedFrom mnemonic typed) : cleanUp typed = mnemonic := by
  rw [cleanUp_eq, h, List.intercalate_splitOn]

theorem required_of_typedFrom {mnemonic typed : Str} (h : TypedFrom mnemonic typed) (what : Str) :
    required (some typed) what = .ok typed := by
  rcases typed with _ | ⟨c, typed⟩
  · exact absurd (h.symm.trans Blanks.words_nil) (List.splitOn_ne_nil ' ' mnemonic)
  · rfl

/-! ## The libraries -/

/-- `Salted__`. -/
def saltedMagic : Bytes := [83, 97, 108, 116, 101, 100, 95, 95]

/-- The platform computes with the wordlist and the ciphers, and `CryptoJS` keeps the format of OpenSSL. -/
structure Platform.Standard (p : Platform Node) (c : Ciphers) (wordlist : Wordlist) : Prop where
  entropyToMnemonic : ∀ entropy,
    p.entropyToMnemonic entropy = EncryptionMnemonic.entropyToMnemonic p.hashes.sha256 wordlist entropy
  encodeMnemonic : ∀ b, p.encodeMnemonic b = EncryptionMnemonic.encode p.hashes.sha256 wordlist b
  gcmEncrypt : ∀ pt pw (salt : Salt) (iv : IV) (n : Nat), 0 < n → n < 2 ^ 32 →
    V3Crypt.encryptWithSaltAndIV c pt pw salt iv (.integer n) = .ok (p.gcmEncrypt pt pw salt iv n)
  gcmDecrypt : ∀ ct pw, p.gcmDecrypt ct pw = (V3Crypt.decrypt c ct pw).toOption
  gcmLength : ∀ key iv pt header, (c.gcmSeal key iv pt header).1.length = pt.length
  aesDecrypt : ∀ s key salt ct, p.aesEncrypt (some (.text s)) key salt = .ok ct →
    p.aesDecrypt (some (.text ct)) (some key) = some s
  /-- The magic, eight bytes of salt, and the text filled up to blocks of 16 bytes. -/
  aesFormat : ∀ s key salt ct, p.aesEncrypt (some (.text s)) key salt = .ok ct →
    ∃ rest, ct = Base64.encode (saltedMagic ++ rest) ∧
      rest.length = 8 + 16 * ((utf8 s).length / 16 + 1)

theorem V3Crypt.decrypt_encrypt {c : Ciphers} {pt pw salt iv ct : Bytes} {n : Nat} (hsalt : 0 < salt.length)
    (hsalt' : salt.length ≤ 0x80) (hiv : iv.length = 16) (hn : n < 2 ^ 32)
    (h : V3Crypt.encryptWithSaltAndIV c pt pw salt iv (.integer n) = .ok ct) : V3Crypt.decrypt c ct pw = .ok pt := by
  have hround : (UInt32.ofNat n).toNat = n := by
    rw [UInt32.toNat_ofNat']
    exact Nat.mod_eq_of_lt hn
  rw [V3Crypt.encryptWithSaltAndIV_eq hsalt hsalt' hiv hn, Except.ok.injEq] at h
  generalize hkey : c.pbkdf2 pw salt (V3Crypt.countUsed n) = key at h
  refine V3Crypt.decrypt_ok_iff.mpr ⟨{
    salt := salt, iterations := UInt32.ofNat n, iv := iv
    ciphertext := (c.gcmSeal key iv pt (headerOf salt n)).1, tag := (c.gcmSeal key iv pt (headerOf salt n)).2
    salt_pos := hsalt, salt_le := hsalt', iv_length := hiv
    tag_length := (c.gcmSeal key iv pt (headerOf salt n)).2.property }, ?_, ?_⟩
  · rw [← h, V3Crypt.gcmEncrypt, Envelope.toBytes, Envelope.header, hround, List.append_assoc]
  · simp only [Envelope.SealedBy, Envelope.header, hround, hkey, and_self]

namespace Platform.Standard

variable {p : Platform Node} {c : Ciphers} {wordlist : Wordlist} (hp : p.Standard c wordlist)
include hp

theorem inverts : Inverts p where
  gcm pt pw salt iv n h0 hn := by
    have hsalt : salt.val.length = 10 := salt.property
    rw [hp.gcmDecrypt, V3Crypt.decrypt_encrypt (by omega) (by omega) iv.property hn (hp.gcmEncrypt pt pw salt iv n h0 hn)]
    rfl
  aes := hp.aesDecrypt

/-- A ciphertext of version 3 starts with the length of its salt, and is longer than its text by a fixed length. -/
theorem gcmEncrypt_format (pt pw : Bytes) (salt : Salt) (iv : IV) {n : Nat} (h0 : 0 < n) (hn : n < 2 ^ 32) :
    (p.gcmEncrypt pt pw salt iv n).length = pt.length + 47 := by
  have hsalt : salt.val.length = 10 := salt.property
  have hiv : iv.val.length = 16 := iv.property
  have h := hp.gcmEncrypt pt pw salt iv n h0 hn
  rw [V3Crypt.encryptWithSaltAndIV_eq (by omega) (by omega) hiv hn, Except.ok.injEq] at h
  rw [← h, V3Crypt.gcmEncrypt]
  have htag := (c.gcmSeal (c.pbkdf2 pw salt (V3Crypt.countUsed n)) iv pt (headerOf salt n)).2.property
  simp only [List.length_append, Envelope.length_headerOf, hp.gcmLength, htag, hsalt, hiv]
  omega

end Platform.Standard

/-! ## Mnemonics that are read back -/

section Mnemonics

variable {sha256 : Bytes → Hash256} {wordlist : Wordlist}

theorem mnemonicToEntropy_of_entropyToMnemonic {entropy : Bytes} {m : Str} (he : IsEntropy entropy)
    (h : EncryptionMnemonic.entropyToMnemonic sha256 wordlist (Hex.encode entropy) = .ok m) :
    EncryptionMnemonic.mnemonicToEntropy sha256 wordlist m = .ok (Hex.encode entropy) := by
  rw [EncryptionMnemonic.entropyToMnemonic_encode (List.length_pos_iff.mp he.1), Except.ok.injEq] at h
  exact EncryptionMnemonic.mnemonicToEntropy_ok_iff.mpr ⟨entropy, entropyOf?_eq_some.mpr ⟨he, h⟩, rfl⟩

theorem decode_of_encode {data : Bytes} {m : Str} (hlen : data.length ≤ 1023)
    (h : EncryptionMnemonic.encode sha256 wordlist data = .ok m) :
    EncryptionMnemonic.decode sha256 wordlist m = .ok data := by
  obtain ⟨padding, hpad, -⟩ := exists_of_bind_ok h
  have hlow := (EncryptionMnemonic.derivePadding_ok_iff.mp hpad).1
  rw [EncryptionMnemonic.encode_eq hlow hlen, Except.ok.injEq] at h
  exact EncryptionMnemonic.decode_ok_iff.mpr ⟨hlow, hlen, h⟩

end Mnemonics

/-! ## The sheet of stored data -/

/-- A text that mnemonics carry: base64 of a number of bytes that is a multiple of four. Nothing pads them. -/
structure Sheetable (ct : Str) : Prop where
  base64 : Base64.encode (Base64.decode ct) = ct
  entropy : IsEntropy (Base64.decode ct)
  unpadded : (Base64.decode ct)[0]? ≠ some EncryptionMnemonic.paddingDummy

/-- The mnemonics of the encrypted seed and of the encrypted secret, as they are printed for stored data. -/
inductive Prints (p : Platform Node) (d : StoredData) (seedWords secretWords : Str) : Prop
  | v2 {seedCt secretCt : Str} (hv : d.walletVersion = .v2) (hseed : d.encryptedPrimarySeed = some (.text seedCt))
      (hsecret : d.encryptedSecret = some (.text secretCt)) (hs : Sheetable seedCt) (hs' : Sheetable secretCt)
      (hm : mnemonicV2 p seedCt = .ok seedWords) (hm' : mnemonicV2 p secretCt = .ok secretWords)
  | v3 {seedCt secretCt : Bytes} (hv : d.walletVersion = .v3) (hseed : bufferFromBase64 d.encryptedPrimarySeed = .ok seedCt)
      (hsecret : bufferFromBase64 d.encryptedSecret = .ok secretCt) (hs : seedCt.length ≤ 1023)
      (hs' : secretCt.length ≤ 1023) (hm : p.encodeMnemonic seedCt = .ok seedWords)
      (hm' : p.encodeMnemonic secretCt = .ok secretWords)

section Seeds

variable {p : Platform Node} {c : Ciphers} {wordlist : Wordlist}

theorem mnemonicToBase64_mnemonicV2 (hp : p.Standard c wordlist) {ct m : Str} (hs : Sheetable ct)
    (h : mnemonicV2 p ct = .ok m) : mnemonicToBase64 p wordlist m = .ok ct := by
  rw [mnemonicV2, hp.entropyToMnemonic] at h
  unfold mnemonicToBase64 mnemonicToEntropy
  rw [mnemonicToEntropy_of_entropyToMnemonic hs.entropy h, ok_bind, Hex.decode_encode, hs.base64]
  rfl

theorem primarySeedV2_toOption (hp : p.Standard c wordlist) {seedCt secretCt seedWords secretWords : Str}
    (hs : Sheetable seedCt) (hs' : Sheetable secretCt) (hm : mnemonicV2 p seedCt = .ok seedWords)
    (hm' : mnemonicV2 p secretCt = .ok secretWords) {source : SecretSource} (hw : source.mnemonic = secretWords) :
    (primarySeedV2 p wordlist seedWords source).toOption =
      (secretUnderV2 p (some (.text secretCt)) (some (.text source.keyText))).bind fun secret =>
        seedUnderV2 p (some (.text seedCt)) (some secret) := by
  subst hw
  unfold primarySeedV2
  rw [mnemonicToBase64_mnemonicV2 hp hs hm, mnemonicToBase64_mnemonicV2 hp hs' hm', ok_bind, ok_bind]
  unfold decryptText secretUnderV2 seedUnderV2
  rcases p.aesDecrypt (some (.text secretCt)) (some (.text source.keyText)) with _ | secret
  · rfl
  · by_cases hne : secret = []
    · simp only [ok_bind, hne, if_true]
      rfl
    · simp only [ok_bind, if_neg hne, Option.bind_some]
      rcases p.aesDecrypt (some (.text seedCt)) (some (.text secret)) with _ | t
      · rfl
      · rfl

theorem primarySeedV3_toOption (hp : p.Standard c wordlist) {seedCt secretCt : Bytes} {seedWords secretWords : Str}
    (hs : seedCt.length ≤ 1023) (hs' : secretCt.length ≤ 1023) (hm : p.encodeMnemonic seedCt = .ok seedWords)
    (hm' : p.encodeMnemonic secretCt = .ok secretWords) {source : SecretSource} (hw : source.mnemonic = secretWords) :
    (primarySeedV3 p wordlist seedWords source).toOption =
      (p.gcmDecrypt secretCt source.keyBuffer).bind fun secret => p.gcmDecrypt seedCt secret := by
  subst hw
  rw [hp.encodeMnemonic] at hm hm'
  unfold primarySeedV3
  rw [decode_of_encode hs hm, decode_of_encode hs' hm', ok_bind, ok_bind]
  unfold decryptBuffer
  rcases p.gcmDecrypt secretCt source.keyBuffer with _ | secret
  · rfl
  · simp only [ok_bind, Option.bind_some]
    rcases p.gcmDecrypt seedCt secret with _ | seed
    · rfl
    · rfl

/-- The seed that a sheet of a version gives. -/
def primarySeedOf (p : Platform Node) (wordlist : Wordlist) (version : WalletVersion) (seedWords : Str)
    (source : SecretSource) : Except JsError Bytes :=
  match version with
  | .v2 => primarySeedV2 p wordlist seedWords source
  | _ => primarySeedV3 p wordlist seedWords source

omit p c wordlist in
theorem recoverEncrypted_seed (d : StoredData) (pw : Data) (secretUnder : Option Data → Option Data → Option Data)
    (seedUnder : Option Data → Option Data → Option Bytes) :
    (recoverEncrypted d pw secretUnder seedUnder).map Prod.fst =
      (secretUnder d.encryptedSecret (some pw)).bind fun secret => seedUnder d.encryptedPrimarySeed (some secret) := by
  unfold recoverEncrypted
  rcases secretUnder d.encryptedSecret (some pw) with _ | secret
  · rfl
  · simp only [Option.bind_eq_bind, Option.bind_some]
    rcases seedUnder d.encryptedPrimarySeed (some secret) with _ | seed <;> rfl

/-- **One seed.** With the password of the stored data, their sheet gives the seed that an unlock gets. -/
theorem primarySeedOf_prints (hp : p.Standard c wordlist) {d : StoredData} {seedWords secretWords : Str}
    (h : Prints p d seedWords secretWords) (password : Str) :
    (primarySeedOf p wordlist d.walletVersion seedWords (.password secretWords password)).toOption =
      (recover p d (.text password)).map Prod.fst := by
  cases h with
  | @v2 seedCt secretCt hv hseed hsecret hs hs' hm hm' =>
    unfold recover primarySeedOf
    simp only [hv]
    rw [primarySeedV2_toOption hp hs hs' hm hm' rfl, recoverEncrypted_seed, hseed, hsecret]
    rfl
  | @v3 seedCt secretCt hv hseed hsecret hs hs' hm hm' =>
    unfold recover primarySeedOf
    simp only [hv]
    rw [primarySeedV3_toOption hp hs hs' hm hm' rfl, recoverEncrypted_seed]
    simp only [secretUnderV3, seedUnderV3, hseed, hsecret, bufferFrom, Encryption.decrypt, Option.bind_map]
    rfl

end Seeds

/-! ## A copy of a sheet -/

/-- The page of the secret, and what it is read with. -/
inductive TypedSecret (d : BackupData) : SecretSource → Prop
  | password {words typed pw : Str} (hs : d.passwordEncryptedSecretMnemonic = some typed) (hw : TypedFrom words typed)
      (hpw : d.password = some pw) : TypedSecret d (.password words pw)
  | recovery {words typed key typedKey : Str} (hno : d.password = none)
      (hs : d.encryptedRecoverySecretMnemonic = some typed) (hw : TypedFrom words typed)
      (hk : d.recoverySecretDecryptionKey = some typedKey) (hkey : TypedFrom key typedKey) :
      TypedSecret d (.recovery words key)

def WalletVersion.number : WalletVersion → Nat
  | v1 => 1
  | v2 => 2
  | _ => 3

/-- The words of a sheet are typed in, with any white space. A sheet may come without a backup seed. -/
structure TypedSheet (d : BackupData) (version : WalletVersion) (seedWords : Str) (source : SecretSource)
    (backupWords : Option Str) : Prop where
  number : d.version = version.number
  encrypted : version = .v2 ∨ version = .v3
  seed : ∃ s, d.encryptedPrimaryMnemonic = some s ∧ TypedFrom seedWords s
  source : TypedSecret d source
  backup : (backupWords = none ∧ d.backupMnemonic = some none) ∨
    ∃ words s, backupWords = some words ∧ d.backupMnemonic = some (some s) ∧ TypedFrom words s

theorem typedFrom_ne_nil {mnemonic typed : Str} (h : TypedFrom mnemonic typed) : mnemonic ≠ [] := by
  rintro rfl
  have hmem : [] ∈ Blanks.words isSpace typed := by
    rw [show Blanks.words isSpace typed = ([] : Str).splitOn ' ' from h]
    simp
  exact (Blanks.plain_of_mem_words hmem).2 rfl

theorem checkSource_of_typed {d : BackupData} {source : SecretSource} (h : TypedSecret d source) :
    checkSource d = .ok source := by
  cases h with
  | password hs hw hpw =>
    unfold checkSource
    simp only [hpw, hs, required_of_typedFrom hw, ok_bind, cleanUp_of_typedFrom hw]
    rfl
  | recovery hno hs hw hk hkey =>
    unfold checkSource
    simp only [hno, hs, hk, required_of_typedFrom hw, required_of_typedFrom hkey, ok_bind, cleanUp_of_typedFrom hw,
      cleanUp_of_typedFrom hkey]
    rfl

variable {p : Platform Node} {wordlist : Wordlist}

/-- The backup seed of the words, where there are any. -/
def backupSeedOfWords (p : Platform Node) (wordlist : Wordlist) : Option Str → Except JsError (Option Bytes)
  | none => .ok none
  | some words => (some ∘ Hex.decode) <$> mnemonicToEntropy p wordlist words

theorem checkBackupMnemonic_of_typed {d : BackupData} {version : WalletVersion} {seedWords : Str} {source : SecretSource}
    {backupWords : Option Str} (h : TypedSheet d version seedWords source backupWords) :
    ∃ words, checkBackupMnemonic d.backupMnemonic = .ok words ∧
      backupSeedOf p wordlist words = backupSeedOfWords p wordlist backupWords := by
  rcases h.backup with ⟨rfl, hb⟩ | ⟨words, s, rfl, hb, hw⟩
  · exact ⟨[], by rw [hb]; decide, rfl⟩
  · refine ⟨words, ?_, ?_⟩
    · rw [hb]
      show cleanUp <$> required (some s) _ = _
      rw [required_of_typedFrom hw]
      exact congrArg Except.ok (cleanUp_of_typedFrom hw)
    · rw [backupSeedOf, if_neg (typedFrom_ne_nil hw)]
      rfl

/-- **The constructor on a copy of a sheet.** It reads the keys, then the seeds, and makes the roots. -/
theorem newWalletSweeper_typed {d : BackupData} {version : WalletVersion} {seedWords : Str} {source : SecretSource}
    {backupWords : Option Str} {keys : List (Str × Str)} (h : TypedSheet d version seedWords source backupWords)
    (hk : d.blocktrailKeys = some keys) (network : NetworkOption) (testnet : Bool) :
    newWalletSweeper p wordlist d network testnet = (do
      let network ← sweeperNetwork network testnet
      let blocktrailPublicKeys ← readBlocktrailKeys p network keys
      let primarySeed ← primarySeedOf p wordlist version seedWords source
      let backupSeed ← backupSeedOfWords p wordlist backupWords
      let primaryPrivateKey ← p.hd.fromSeedBuffer primarySeed network
      let (backupPublicKey, backupPrivateKey) ← backupKeys p network d.backupPublicKey backupSeed
      pure (⟨primaryPrivateKey, backupPublicKey, blocktrailPublicKeys, network⟩, backupPrivateKey)) := by
  obtain ⟨s, hs, hw⟩ := h.seed
  obtain ⟨words, hb, hseed⟩ : ∃ words, checkBackupMnemonic d.backupMnemonic = .ok words ∧
      backupSeedOf p wordlist words = backupSeedOfWords p wordlist backupWords := checkBackupMnemonic_of_typed h
  have hchecked (make : Str → Str → SecretSource → CheckedData) :
      checkEncrypted make d = .ok (make seedWords words source) := by
    unfold checkEncrypted
    rw [hs, required_of_typedFrom hw, hb, checkSource_of_typed h.source, ok_bind, ok_bind, ok_bind, cleanUp_of_typedFrom hw]
    rfl
  have hversion := h.number
  have hseeds : ∃ checked, checkBackupData d = .ok (keys, checked) ∧ seedsOf p wordlist checked = (do
      let primarySeed ← primarySeedOf p wordlist version seedWords source
      let backupSeed ← backupSeedOfWords p wordlist backupWords
      pure (primarySeed, backupSeed)) := by
    unfold checkBackupData
    simp only [hk]
    rcases h.encrypted with rfl | rfl
    · refine ⟨.v2 seedWords words source, ?_, ?_⟩
      · rw [show d.version = 2 from hversion]
        simp only [hchecked]
        rfl
      · rw [← hseed]
        rfl
    · refine ⟨.v3 seedWords words source, ?_, ?_⟩
      · rw [show d.version = 3 from hversion]
        simp only [hchecked]
        rfl
      · rw [← hseed]
        rfl
  obtain ⟨checked, hc, hs⟩ := hseeds
  unfold newWalletSweeper
  simp only [hc, hs, ok_bind, bind_assoc, pure_bind]

end JsSdk
