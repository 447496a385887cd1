import Blocktrail.Bitcoin.Paths
import Blocktrail.Lib.Lines

/-! # The backup sheet

The texts and the images of its pages, in the order in which they are written.
-/

open Text Bitcoin

namespace BackupSheet

inductive WalletVersion
  | v1
  | v2
  | v3
deriving DecidableEq

def WalletVersion.toText : WalletVersion → Str
  | v1 => "v1"
  | v2 => "v2"
  | v3 => "v3"

/-- Words of the titles of a sheet. None of the words that mnemonics are made of contains one. -/
def titleWords : List Str := ["backup", "encrypted", "instructions", "mnemonic", "blocktrail", "keyindex:", "identifier"]

structure Mnemonic where
  words : List Str
  ne_nil : words ≠ []
  ne_blank : ∀ w ∈ words, squeeze w ≠ []
  plain : ∀ w ∈ words, ∀ t ∈ titleWords, has t w = false

def Mnemonic.text (m : Mnemonic) : Str := [' '].intercalate m.words

/-- `none` is what an `if` does not take: undefined, null or empty. -/
structure BackupInfo where
  walletVersion : WalletVersion
  primaryMnemonic : Option Mnemonic
  backupMnemonic : Option Mnemonic
  encryptedPrimarySeed : Option Mnemonic
  backupSeed : Option Mnemonic
  recoveryEncryptedSecret : Option Mnemonic
  encryptedSecret : Option Mnemonic

structure PublicKey where
  /-- Less than `2^53`, as numbers are that print as themselves. -/
  keyIndex : Nat
  pubKey : Str

structure ExtraInfo where
  title : Str
  subtitle : Option Str
  value : Str

structure BackupGenerator where
  identifier : Str
  backupInfo : BackupInfo
  extraInfo : List ExtraInfo
  network : Str
  blocktrailPublicKeys : List PublicKey

inductive Image
  | logo
  | qr (text : Str)
deriving DecidableEq

structure Page where
  texts : List Str
  images : List Image

/-! ## Texts -/

def intro : Str :=
  "This document holds the information and instructions required for you to recover your BTC Wallet ".toList ++
    "should anything happen. \nPrint it out and keep it in a safe location; if you lose these details you ".toList ++
    "will never be able to recover your wallet.".toList

def instructions : Str :=
  "You can recover the bitcoins in your wallet on https://recovery.blocktrail.com using this backup sheet.\n".toList ++
    "For a more technical aproach on how to recover your wallet yourself, ".toList ++
    "see the 'wallet_recovery_example.php' script in the examples folder of the Blocktrail SDK.".toList

/-- A title with a mnemonic under it, where there is one. -/
def infoSection (title : Str) : Option Mnemonic → List Str
  | none => []
  | some m => [title, m.text]

/-- `"KeyIndex: " + pubKey.keyIndex + " Path: " + pubKey.path`. -/
def PublicKey.caption (k : PublicKey) : Str :=
  "KeyIndex: ".toList ++ (dec k.keyIndex ++ (" Path: ".toList ++ accountPath k.keyIndex))

def ExtraInfo.texts (e : ExtraInfo) : List Str := e.title :: (e.subtitle.toList ++ [e.value])

def recoveryInstructions : List Str := ["Wallet Recovery Instructions", instructions]

namespace BackupGenerator

variable (self : BackupGenerator)

def title : Str := "Wallet Identifier (".toList ++ (self.backupInfo.walletVersion.toText ++ ")".toList)

def page1 : Page where
  texts := [self.network ++ " Wallet Recovery Data Sheet".toList, intro, self.title, self.identifier, "Backup Info"] ++
    infoSection "Primary Mnemonic" self.backupInfo.primaryMnemonic ++
    infoSection "Backup Mnemonic" self.backupInfo.backupMnemonic ++
    infoSection "Encrypted Primary Seed" self.backupInfo.encryptedPrimarySeed ++
    infoSection "Backup Seed" self.backupInfo.backupSeed ++
    infoSection "Encrypted Recovery Secret" self.backupInfo.recoveryEncryptedSecret
  images := [.logo]

/-- The keys, each with its image, and what was asked for besides. -/
def page2Texts : List Str :=
  ["BTC Wallet Public Keys".toList, dec self.blocktrailPublicKeys.length ++ " in total".toList] ++
    self.blocktrailPublicKeys.map PublicKey.caption ++ self.extraInfo.flatMap ExtraInfo.texts

def page2Images : List Image := .logo :: self.blocktrailPublicKeys.map fun k => .qr k.pubKey

/-- `generatePDF`, with all its pages. The instructions are on the last page, whichever that is. -/
def generatePDF : List Page :=
  match self.backupInfo.encryptedSecret with
  | none => [self.page1, ⟨self.page2Texts ++ recoveryInstructions, self.page2Images⟩]
  | some encryptedSecret => [self.page1, ⟨self.page2Texts, self.page2Images⟩,
      ⟨["Backup Info - part 2".toList, "This page needs to be replaced / updated when wallet password is changed!".toList,
        "Password Encrypted Secret".toList, encryptedSecret.text] ++ recoveryInstructions, [.logo]⟩]

end BackupGenerator

end BackupSheet
