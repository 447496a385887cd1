import Blocktrail.JsSdk.AddressHistory
import Blocktrail.JsSdk.NewWalletSpec
import Blocktrail.TwoSdks.BackupMnemonic

/-! # Backup sheets

A wallet with the pages of its sheet, and what each copy of the pages has to make.
-/

open Text Throwing Bitcoin Crypt Crypt.Bip39

namespace JsSdk

variable {Node : Type}

/-! ## Sheets -/

/-- A mnemonic, with the version of the wallet that it was printed for. -/
structure Page where
  version : WalletVersion
  words : Str

structure Sheet where
  seed : Page
  secret : Page
  /-- The password that was set when the page of the secret was printed. -/
  password : Str
  recovery : Option Str
  backup : Str
  blocktrailPublicKeys : List (Str × Str)

/-- A wallet and its sheet. -/
structure Carried (Node : Type) where
  tracked : Tracked Node
  sheet : Sheet

/-! ## The property -/

/-- The sheet is typed in, to be read as a version, with one of its pages for the secret. -/
structure CopyOf (sheet : Sheet) (version : WalletVersion) (source : SecretSource) (d : BackupData) : Prop where
  typed : TypedSheet d version sheet.seed.words source (some sheet.backup)
  blocktrailKeys : d.blocktrailKeys = some sheet.blocktrailPublicKeys

/-- The sweeper has the keys of the wallet and the Blocktrail keys of the sheet. Where the unlocked wallet has the same
Blocktrail key, it has the scripts of each path. -/
structure SweepsFor (p : Platform Node) (s : World Node) (sheet : Sheet) (sw : Sweeper Node) : Prop where
  checksum : p.hd.getAddress sw.primaryPrivateKey = s.wallet.checksum
  backupPublicKey : sw.backupPublicKey = s.wallet.backupPublicKey
  network : sw.network = s.wallet.network
  blocktrailPublicKeys : readBlocktrailKeys p s.wallet.network sheet.blocktrailPublicKeys = .ok sw.blocktrailPublicKeys
  primaryPrivateKey : s.wallet.locked = false → s.wallet.primaryPrivateKey = some sw.primaryPrivateKey
  scripts : s.wallet.locked = false → ∀ k blocktrail, s.wallet.blocktrailPublicKeys (dec k) = some blocktrail →
    sw.blocktrailPublicKeys.get? (dec k) = some blocktrail → ∀ c i, issuedScripts p s k c i = sweptScripts p sw k c i

/-- Every copy, however it is spaced, makes a sweeper of the wallet. -/
def Restores (p : Platform Node) (wordlist : Wordlist) (x : Carried Node) (version : WalletVersion)
    (source : SecretSource) : Prop :=
  ∀ d network testnet, CopyOf x.sheet version source d →
    sweeperNetwork network testnet = .ok x.tracked.world.wallet.network →
    ∃ sw key, newWalletSweeper p wordlist d network testnet = .ok (sw, some key) ∧
      SweepsFor p x.tracked.world x.sheet sw

structure Restorable (p : Platform Node) (wordlist : Wordlist) (x : Carried Node) : Prop where
  withPassword : x.sheet.secret.version = x.sheet.seed.version →
    Restores p wordlist x x.sheet.seed.version (.password x.sheet.secret.words x.sheet.password)
  withRecovery : ∀ words key, x.sheet.recovery = some words → x.tracked.world.server.recoverySecret = some key →
    Restores p wordlist x x.sheet.seed.version (.recovery words key)
  /-- The new page for the secret comes with a page for the seed that its version refuses, also with the recovery
  secret. Read as the version of the page for the seed, the sheet still has `withRecovery`. -/
  mixed : x.sheet.secret.version ≠ x.sheet.seed.version → ∀ d network testnet source,
    CopyOf x.sheet x.sheet.secret.version source d → ∀ made, newWalletSweeper p wordlist d network testnet ≠ .ok made

/-! ## Reading a copy -/

/-- What the pages that are never printed again give. -/
structure Keeps (p : Platform Node) (wordlist : Wordlist) (seed : Bytes) (network : Network) (backupPublicKey : Node)
    (recoverySecret : Option Str) (sheet : Sheet) : Prop where
  backup : ∃ backupSeed key, backupSeedOfWords p wordlist (some sheet.backup) = .ok (some backupSeed) ∧
    p.hd.fromSeedBuffer backupSeed network = .ok key ∧ p.hd.neutered key = backupPublicKey
  blocktrailKeys : ∃ keys, readBlocktrailKeys p network sheet.blocktrailPublicKeys = .ok keys
  recovery : ∀ words key, sheet.recovery = some words → recoverySecret = some key →
    primarySeedOf p wordlist sheet.seed.version sheet.seed.words (.recovery words key) = .ok seed
  refused : sheet.seed.version = .v2 → ∀ data,
    EncryptionMnemonic.decode p.hashes.sha256 wordlist sheet.seed.words ≠ .ok data

/-- The keys of an unlocked wallet are those of its root. -/
structure KeysOf (p : Platform Node) (root : Node) (w : Wallet Node) : Prop where
  primaryPrivateKey : w.locked = false → w.primaryPrivateKey = some root
  primaryPublicKeys : ∀ k key, w.primaryPublicKeys (dec k) = some key →
    deriveByPath p.hd root (accountPath k) "m" = .ok key

/-- A page of version 2 is not padded, as version 3 wants it. -/
theorem decode_mnemonicV2 {p : Platform Node} {c : Ciphers} {wordlist : Wordlist} (hp : p.Standard c wordlist)
    {ct words : Str} (hs : Sheetable ct) (h : mnemonicV2 p ct = .ok words) (data : Bytes) :
    EncryptionMnemonic.decode p.hashes.sha256 wordlist words ≠ .ok data := by
  intro hdata
  obtain ⟨-, hlen, hwords⟩ := EncryptionMnemonic.decode_ok_iff.mp hdata
  rw [mnemonicV2, hp.entropyToMnemonic, EncryptionMnemonic.entropyToMnemonic_encode (List.length_pos_iff.mp hs.entropy.1),
    Except.ok.injEq] at h
  have hentropy := entropyOf?_eq_some.mpr ⟨hs.entropy, h⟩
  have hpadded := entropyOf?_eq_some.mpr ⟨isEntropy_padded hlen, hwords⟩
  have hsame : Base64.decode ct = padded data := Option.some.inj (hentropy.symm.trans hpadded)
  refine hs.unpadded ?_
  rw [hsame, padded, paddingOf, List.getElem?_append_left (by rw [List.length_replicate]; omega),
    List.getElem?_replicate_of_lt (by omega)]
  rfl

section Copies

variable {p : Platform Node} {wordlist : Wordlist} {seed : Bytes} {network : Network} {root backupPublicKey : Node}
  {recoverySecret : Option Str} {sheet : Sheet} {d : BackupData} {version : WalletVersion} {source : SecretSource}
  {option : NetworkOption} {testnet : Bool}

theorem Keeps.newWalletSweeper (h : Keeps p wordlist seed network backupPublicKey recoverySecret sheet)
    (hcopy : CopyOf sheet version source d) (hn : sweeperNetwork option testnet = .ok network)
    (hseed : primarySeedOf p wordlist version sheet.seed.words source = .ok seed)
    (hroot : p.hd.fromSeedBuffer seed network = .ok root) :
    ∃ keys key, readBlocktrailKeys p network sheet.blocktrailPublicKeys = .ok keys ∧
      newWalletSweeper p wordlist d option testnet = .ok (⟨root, backupPublicKey, keys, network⟩, some key) := by
  obtain ⟨backupSeed, key, hwords, hkey, hpublic⟩ := h.backup
  obtain ⟨keys, hkeys⟩ := h.blocktrailKeys
  refine ⟨keys, key, hkeys, ?_⟩
  rw [newWalletSweeper_typed hcopy.typed hcopy.blocktrailKeys, hn, ok_bind, hkeys, ok_bind, hseed, ok_bind, hwords, ok_bind,
    hroot, ok_bind, backupKeys, hkey, ← hpublic]
  rfl

theorem newWalletSweeper_refused (hrefused : ∀ data,
      EncryptionMnemonic.decode p.hashes.sha256 wordlist sheet.seed.words ≠ .ok data)
    (hcopy : CopyOf sheet .v3 source d) (made : Sweeper Node × Option Node) :
    newWalletSweeper p wordlist d option testnet ≠ .ok made := by
  intro h
  rw [newWalletSweeper_typed hcopy.typed hcopy.blocktrailKeys] at h
  obtain ⟨network, -, h⟩ := exists_of_bind_ok h
  obtain ⟨keys, -, h⟩ := exists_of_bind_ok h
  obtain ⟨seed, hseed, -⟩ := exists_of_bind_ok h
  obtain ⟨data, hdata, -⟩ := exists_of_bind_ok (hseed : primarySeedV3 p wordlist sheet.seed.words source = .ok seed)
  exact hrefused data hdata

theorem KeysOf.sweepsFor (hl : p.hd.Lawful) {s : World Node} (h : KeysOf p root s.wallet)
    (hroot : p.hd.isNeutered root = false) (hbackup : p.hd.isNeutered s.wallet.backupPublicKey = true)
    (hchecksum : p.hd.getAddress root = s.wallet.checksum) {keys : Assoc.Object Str Node}
    (hkeys : readBlocktrailKeys p s.wallet.network sheet.blocktrailPublicKeys = .ok keys) :
    SweepsFor p s sheet ⟨root, s.wallet.backupPublicKey, keys, s.wallet.network⟩ := by
  refine ⟨hchecksum, rfl, rfl, hkeys, h.primaryPrivateKey, fun hlocked k blocktrail hk hswept c i => ?_⟩
  have haccount : accountKey p s.wallet k = deriveByPath p.hd root (accountPath k) "m" := by
    unfold accountKey
    rcases hkept : s.wallet.primaryPublicKeys (dec k) with _ | key
    · rw [h.primaryPrivateKey hlocked]
    · exact (h.primaryPublicKeys k key hkept).symm
  rw [issuedScripts, getWalletScriptByPath_spec haccount hk, scriptsFromRoots_scripts hl hroot hbackup]
  symm
  exact createAddress_scripts hl hroot hbackup hswept c i

end Copies

/-! ## A platform to evaluate with

Its AES keeps to ASCII, and shows the start of the key where the salt is.
-/

/-- The platform with its mnemonics and the encryption of version 3 computed. A mnemonic that is known to be valid is not
checked again. -/
def Platform.computing (p : Platform Node) (c : Ciphers) (wordlist : Wordlist) : Platform Node :=
  { p with
    entropyToMnemonic := EncryptionMnemonic.entropyToMnemonic p.hashes.sha256 wordlist
    encodeMnemonic := fun data =>
      if data.headD 0 ≤ 0x80 ∧ data.length ≤ 1023 then .ok (mnemonic p.hashes.sha256 wordlist (padded data))
      else EncryptionMnemonic.encode p.hashes.sha256 wordlist data
    gcmEncrypt := fun pt pw salt iv n =>
      (V3Crypt.encryptWithSaltAndIV c pt pw salt iv (.integer n)).toOption.getD []
    gcmDecrypt := fun ct pw => (V3Crypt.decrypt c ct pw).toOption }

def isAscii (s : Str) : Bool := s.all fun c => c.toNat < 128

/-- Blocks of 16 bytes, the last one filled up with the number of bytes that it lacks. -/
def blocks (s : Str) : Bytes :=
  asciiBytes s ++ List.replicate (16 - s.length % 16) (UInt8.ofNat (16 - s.length % 16))

def unblocked (b : Bytes) : Str :=
  (b.take (b.length - (b.getLastD 0).toNat)).map fun x => Char.ofNat x.toNat

def sheetPlatform : Platform SampleNode :=
  Platform.computing
    { samplePlatform with
      aesEncrypt := fun pt key _ =>
        match pt, key with
        | some (.text s), .text key =>
          if isAscii s then .ok (Base64.encode (saltedMagic ++ (padTo 8 (asciiBytes key) ++ blocks s)))
          else .error ⟨"Error", "Malformed UTF-8 data"⟩
        | _, _ => .error ⟨"Error", "Malformed UTF-8 data"⟩
      aesDecrypt := fun ct key =>
        match ct, key with
        | some (.text ct), some (.text key) =>
          let salted := (Base64.decode ct).drop 8
          if salted.take 8 = padTo 8 (asciiBytes key) then some (unblocked (salted.drop 8)) else none
        | _, _ => none }
    sampleCiphers TwoSdks.numeralWords

theorem length_blocks (s : Str) : (blocks s).length = 16 * (s.length / 16 + 1) := by
  rw [blocks, List.length_append, List.length_replicate, asciiBytes, List.length_map]
  omega

theorem charsOfBytes_asciiBytes {s : Str} (h : isAscii s = true) :
    (asciiBytes s).map (fun x => Char.ofNat x.toNat) = s := by
  rw [asciiBytes, List.map_map]
  conv_rhs => rw [← List.map_id s]
  refine List.map_congr_left fun c hc => ?_
  have hlt : c.toNat < 128 := by simpa using List.all_eq_true.mp h c hc
  have hround : (UInt8.ofNat c.toNat).toNat = c.toNat := by
    rw [UInt8.toNat_ofNat']
    omega
  show Char.ofNat (UInt8.ofNat c.toNat).toNat = c
  rw [hround, Char.ofNat_toNat]

theorem unblocked_blocks {s : Str} (h : isAscii s = true) : unblocked (blocks s) = s := by
  have hlt : 16 - s.length % 16 < 256 := by omega
  have hlast : (blocks s).getLastD 0 = UInt8.ofNat (16 - s.length % 16) := by
    rw [blocks, show 16 - s.length % 16 = 15 - s.length % 16 + 1 by omega, List.replicate_succ', ← List.append_assoc,
      List.getLastD_concat]
  have hfill : (UInt8.ofNat (16 - s.length % 16)).toNat = 16 - s.length % 16 := by
    rw [UInt8.toNat_ofNat']
    exact Nat.mod_eq_of_lt hlt
  have hlength : (blocks s).length - (16 - s.length % 16) = (asciiBytes s).length := by
    rw [blocks, List.length_append, List.length_replicate, Nat.add_sub_cancel]
  rw [unblocked, hlast, hfill, hlength, blocks, List.take_left, charsOfBytes_asciiBytes h]

theorem length_utf8_of_isAscii {s : Str} (h : isAscii s = true) : (utf8 s).length = s.length := by
  induction s with
  | nil => rfl
  | cons c s ih =>
    obtain ⟨hc, hs⟩ : c.toNat < 128 ∧ isAscii s = true := by simpa [isAscii] using h
    have hsize : c.utf8Size = 1 := by
      rw [Char.utf8Size_eq_one_iff, UInt32.le_iff_toNat_le]
      have hval : c.val.toNat < 128 := hc
      have h127 : (127 : UInt32).toNat = 127 := rfl
      omega
    have hlen : (String.utf8EncodeChar c).length = c.utf8Size := String.length_utf8EncodeChar c
    have ih' : (s.flatMap String.utf8EncodeChar).length = s.length := ih hs
    rw [utf8, List.flatMap_cons, List.length_append, hlen, hsize, ih', List.length_cons, Nat.add_comm]

theorem sheetPlatform_aesEncrypt {s : Str} {key : Data} {salt : Bytes} {ct : Str}
    (h : sheetPlatform.aesEncrypt (some (.text s)) key salt = .ok ct) : ∃ k, key = .text k ∧ isAscii s = true ∧
      ct = Base64.encode (saltedMagic ++ (padTo 8 (asciiBytes k) ++ blocks s)) := by
  rcases key with k | b
  · change (if isAscii s = true then Except.ok _ else _) = Except.ok ct at h
    split_ifs at h with hascii
    exact ⟨k, rfl, hascii, (Except.ok.inj h).symm⟩
  · cases h

theorem lowFirst_of_headD {data : Bytes} (h : data.headD 0 ≤ 0x80) : LowFirst data := by
  rcases data with _ | ⟨x, data⟩
  · simp [LowFirst]
  · simpa [LowFirst] using h

theorem sheetPlatform_standard : sheetPlatform.Standard sampleCiphers TwoSdks.numeralWords where
  entropyToMnemonic _ := rfl
  encodeMnemonic data := by
    show (if data.headD 0 ≤ 0x80 ∧ data.length ≤ 1023 then _ else _) = _
    split_ifs with h
    · exact (EncryptionMnemonic.encode_eq (lowFirst_of_headD h.1) h.2).symm
    · rfl
  gcmEncrypt pt pw salt iv n _ hn := by
    have hsalt : salt.val.length = 10 := salt.property
    have hiv : iv.val.length = 16 := iv.property
    show _ = Except.ok ((V3Crypt.encryptWithSaltAndIV sampleCiphers pt pw salt iv (.integer n)).toOption.getD [])
    rw [V3Crypt.encryptWithSaltAndIV_eq (by omega) (by omega) hiv hn]
    rfl
  gcmDecrypt _ _ := rfl
  gcmLength _ _ _ _ := rfl
  aesDecrypt s key salt ct h := by
    obtain ⟨k, rfl, hascii, rfl⟩ := sheetPlatform_aesEncrypt h
    have hkey : (padTo 8 (asciiBytes k)).length = 8 := padTo_length ..
    have hmagic (b : Bytes) : (saltedMagic ++ b).drop 8 = b := rfl
    show (if (((Base64.decode (Base64.encode (saltedMagic ++ (padTo 8 (asciiBytes k) ++ blocks s)))).drop 8).take 8 =
        padTo 8 (asciiBytes k)) then _ else none) = some s
    rw [Base64.decode_encode, hmagic, List.take_left' hkey, if_pos rfl, List.drop_left' hkey,
      unblocked_blocks hascii]
  aesFormat s key salt ct h := by
    obtain ⟨k, rfl, hascii, rfl⟩ := sheetPlatform_aesEncrypt h
    refine ⟨_, rfl, ?_⟩
    rw [List.length_append, padTo_length, length_blocks, length_utf8_of_isAscii hascii]

end JsSdk
