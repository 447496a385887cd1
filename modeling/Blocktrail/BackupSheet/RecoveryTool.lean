import Blocktrail.Lib.Lines

/-! # The recovery tool: importing a backup sheet

A page is read line by line. Both data objects get what is read, so it is kept once here, and told apart by the version
at the end.
-/

open Text

namespace BackupSheet

inductive DataKey
  | walletIdentifier
  | primaryMnemonic
  | backupMnemonic
  | encryptedPrimaryMnemonic
  | encryptedRecoverySecretMnemonic
  | passwordEncryptedSecretMnemonic
deriving DecidableEq

/-- `keyIndex` is `none` for NaN, `pubkey` for null. -/
structure BlocktrailKey where
  keyIndex : Option Int
  pubkey : Option Str
deriving DecidableEq

/-- `$scope.walletVersion`, the version of the last title that had one, and what `dataV1` and `dataV2` hold. -/
@[ext]
structure Scope where
  walletVersion : Option Nat
  titleVersion : Option (Option Int)
  texts : DataKey → Str
  blocktrailKeys : List BlocktrailKey

/-- The scope before a file is read. -/
def Scope.start : Scope := ⟨none, none, fun _ => [], []⟩

def Scope.append (s : Scope) (k : DataKey) (t : Str) : Scope :=
  { s with texts := fun j => if j = k then s.texts k ++ t else s.texts j }

/-- The key of the line to come, and the scope. -/
structure Reading where
  dataKey : Option DataKey
  scope : Scope

/-! ## One line -/

def ends (line : Str) : Bool :=
  has "Backup Seed" line || has "Encrypted Recovery Secret" line || has "Wallet Recovery Instructions" line ||
    has "Backup Mnemonic" line || has "BlockTrail Public Keys" line

/-- `/KeyIndex: ([0-9]*)/i`, at the front of a text. -/
def keyIndexAt (t : Str) : Option (Option Int) :=
  if startsWith "KeyIndex: " t then some (parseInt ((t.drop 10).takeWhile Char.isDigit)) else none

/-- `/Wallet Identifier \((v(\d+)|undefined)\)/i`, at the front of a text. Only a lower-case `undefined` is version 3. -/
def titleVersionAt (t : Str) : Option (Option Int) :=
  if startsWith "Wallet Identifier (" t then
    let group := t.drop 19
    if startsWith "undefined)" group then some (if "undefined".toList.isPrefixOf group then some 3 else none)
    else if startsWith "v" group ∧ ((group.drop 1).takeWhile Char.isDigit) ≠ [] ∧
        ((group.drop 1).dropWhile Char.isDigit).head? = some ')' then
      some (parseInt10 ((group.drop 1).takeWhile Char.isDigit))
    else none
  else none

/-- What the current line itself asks for. -/
def handle (line : Str) (r : Reading) : Reading :=
  if ends line then { r with dataKey := none }
  else if has "KeyIndex:" line then
    match firstMatch keyIndexAt line with
    | some keyIndex =>
      { r with scope := { r.scope with blocktrailKeys := r.scope.blocktrailKeys ++ [⟨keyIndex, none⟩] } }
    | none => r
  else r

/-- The line goes to what the line before asked for. -/
def store (line : Str) (r : Reading) : Reading :=
  match r.dataKey with
  | none => r
  | some .walletIdentifier => ⟨none, r.scope.append .walletIdentifier line⟩
  | some k => { r with scope := r.scope.append k (line ++ [' ']) }

def readTitle (line : Str) (r : Reading) : Reading :=
  match firstMatch titleVersionAt line with
  | some v => { r with scope := { r.scope with titleVersion := some v } }
  | none => r

/-- What the next line will be. -/
def expect (line : Str) (r : Reading) : Reading :=
  if has "Wallet Identifier" line then { r with dataKey := some .walletIdentifier }
  else if has "Encrypted Primary Seed" line then
    ⟨some .encryptedPrimaryMnemonic, { r.scope with walletVersion := some 2 }⟩
  else if has "Backup Seed" line then { r with dataKey := some .backupMnemonic }
  else if has "Encrypted Recovery Secret" line then { r with dataKey := some .encryptedRecoverySecretMnemonic }
  else if has "Password Encrypted Secret" line then { r with dataKey := some .passwordEncryptedSecretMnemonic }
  else if has "Primary Mnemonic" line then ⟨some .primaryMnemonic, { r.scope with walletVersion := some 1 }⟩
  else if has "Backup Mnemonic" line then { r with dataKey := some .backupMnemonic }
  else r

def readLine (r : Reading) (line : Str) : Reading := expect line (readTitle line (store line (handle line r)))

/-- `parsePageText`, for the text items of a page. -/
def parsePageText (s : Scope) (items : List Str) : Scope := (items.foldl readLine ⟨none, s⟩).scope

/-! ## A file -/

/-- The decoded images are assigned by position; one more than there are keys is a TypeError. -/
def setPubkeys : List BlocktrailKey → List (Option Str) → Option (List BlocktrailKey)
  | keys, [] => some keys
  | [], _ :: _ => none
  | key :: keys, decodedData :: rest => (setPubkeys keys rest).map ({ key with pubkey := decodedData } :: ·)

/-- The data of a wallet of version 1. -/
structure DataV1 where
  walletIdentifier : Str
  primaryMnemonic : Str
  backupMnemonic : Str
  blocktrailKeys : List BlocktrailKey

structure DataV2 where
  walletVersion : Option Int
  walletIdentifier : Str
  backupMnemonic : Str
  encryptedPrimaryMnemonic : Str
  encryptedRecoverySecretMnemonic : Str
  passwordEncryptedSecretMnemonic : Str
  blocktrailKeys : List BlocktrailKey

/-- `Backup data found`, `No backup data found.` or `Could not process file.` -/
inductive Result
  | foundV1 (data : DataV1)
  | foundV2 (data : DataV2)
  | noBackupData
  | couldNotProcess

def Scope.dataV1 (s : Scope) (keys : List BlocktrailKey) : DataV1 where
  walletIdentifier := s.texts .walletIdentifier
  primaryMnemonic := s.texts .primaryMnemonic
  backupMnemonic := s.texts .backupMnemonic
  blocktrailKeys := keys

def Scope.dataV2 (s : Scope) (keys : List BlocktrailKey) : DataV2 where
  walletVersion := s.titleVersion.getD (some 2)
  walletIdentifier := s.texts .walletIdentifier
  backupMnemonic := s.texts .backupMnemonic
  encryptedPrimaryMnemonic := s.texts .encryptedPrimaryMnemonic
  encryptedRecoverySecretMnemonic := s.texts .encryptedRecoverySecretMnemonic
  passwordEncryptedSecretMnemonic := s.texts .passwordEncryptedSecretMnemonic
  blocktrailKeys := keys

/-- `uploadFile`, for the texts of the pages in the order in which they are read, and the decoded images of the pages in
their order. The first image of a page is the logo. -/
def uploadFile (pageTexts : List (List Str)) (allPageImages : List (List (Option Str))) : Result :=
  let s := pageTexts.foldl parsePageText .start
  match setPubkeys s.blocktrailKeys (allPageImages.flatMap List.tail) with
  | none => .couldNotProcess
  | some keys =>
    match s.walletVersion with
    | none => .noBackupData
    | some v => if v = 2 then .foundV2 (s.dataV2 keys) else .foundV1 (s.dataV1 keys)

end BackupSheet
