import Blocktrail.PhpSdk.V3Crypt

/-! # Unlocking and locking a PHP wallet -/

open Text Throwing Bitcoin Crypt

namespace PhpSdk

variable {Node : Type}

/-! ## Values -/

/-- A string, a `Buffer`, `false` or `null`. -/
inductive Value
  | null
  | no
  | text (s : Bytes)
  | buffer (b : Bytes)
deriving DecidableEq

namespace Value

def isset (v : Value) : Bool := v ≠ .null

/-- The strings `""` and `"0"` are false. -/
def truthy : Value → Bool
  | .null | .no => false
  | .text s => s ≠ [] ∧ s ≠ [48]
  | .buffer _ => true

end Value

/-- What is passed for a private key. -/
inductive KeyOption (Node : Type)
  | node (key : Node)
  | bip32 (key : BIP32Key Node)
  | value (v : Value)

def KeyOption.truthy : KeyOption Node → Bool
  | .node _ | .bip32 _ => true
  | .value v => v.truthy

structure UnlockOptions (Node : Type) where
  passphrase : Value
  password : Value
  primaryPrivateKey : KeyOption Node
  secret : Value
  primarySeed : Value

/-- `isset($options['passphrase']) ? $options['passphrase'] : (isset($options['password']) ? .. : null)`. -/
def UnlockOptions.givenPassword (o : UnlockOptions Node) : Value :=
  if o.passphrase.isset then o.passphrase else if o.password.isset then o.password else .null

/-! ## What is called -/

/-- The libraries, and what PHP has built in. -/
structure UnlockPlatform (Node : Type) where
  php : BitWasp Node
  ciphers : Ciphers
  buffers : V3Crypt.Libraries
  /-- `HierarchicalKeyFactory::fromExtended`. -/
  fromExtended : KeyOption Node → Except PhpError Node
  /-- What `HierarchicalKeyFactory::fromEntropy` throws. -/
  keyError : PhpError
  /-- `Bip39SeedGenerator::getSeed`. -/
  getSeed : Value → Value → Except PhpError Bytes
  /-- `$publicKey->getAddress()->getAddress()`. -/
  getAddress : PubKey → Str
  /-- `(string)$buffer`. -/
  castBuffer : Bytes → Except PhpError Bytes
  md5 : Bytes → Bytes
  /-- `openssl_decrypt` with AES-256-CBC, of a text, a key and an IV; `none` is `false`. -/
  opensslDecrypt : Bytes → Bytes → Bytes → Option Bytes

/-- What a wallet keeps for its version. -/
inductive WalletData
  | v1 (primaryMnemonic : Value)
  | v2 (encryptedPrimarySeed encryptedSecret : Value)
  | v3 (encryptedPrimarySeed encryptedSecret : Option Bytes)

structure LockableWallet where
  data : WalletData
  checksum : Str

/-- The fields that locking and unlocking change. -/
structure Held (Node : Type) where
  locked : Bool
  primaryPrivateKey : Option (BIP32Key Node)
  secret : Value
  primarySeed : Value

/-- A new wallet. -/
def Held.initial : Held Node := ⟨true, none, .null, .null⟩

abbrev Method (Node α : Type) := Prog PhpError (Held Node) α

variable (p : UnlockPlatform Node)

def invalidArgument (message : Str) : PhpError := ⟨"InvalidArgumentException", message⟩

def decryptException (message : Str) : PhpError := ⟨"WalletDecryptException", message⟩

/-- `BIP32Key::create(HierarchicalKeyFactory::fromEntropy($seed), "m")`. -/
def createFromEntropy (seed : Bytes) : Except PhpError (BIP32Key Node) :=
  match p.php.fromEntropy seed with
  | some key => .ok ⟨key, ⟨false, []⟩⟩
  | none => .error p.keyError

/-- The address that the checksum of a wallet is. -/
def addressOf (key : BIP32Key Node) : Str := p.getAddress (key.publicKey p.php)

/-! ## The end of `unlock`

The three versions set the key, check it and call back in the same way. `$data` is not set in them, so that no key
index is upgraded.
-/

def checksumMismatch (checksum expected : Str) : PhpError :=
  ⟨"Exception", "Checksum [" ++ checksum ++ "] does not match [" ++ expected ++
    "], most likely due to incorrect password"⟩

def holdKey (checksum : Str) (key : BIP32Key Node) : Method Node Unit := do
  modify fun s => { s with primaryPrivateKey := some key }
  if Php.looselyEqual p.php.floats (addressOf p key) checksum then
    modify fun s => { s with locked := false }
  else throw (checksumMismatch (addressOf p key) checksum)

def callBack (lock : Method Node Unit) (fn : Option (Method Node Unit)) : Method Node Unit :=
  match fn with
  | some fn => do
    fn
    lock
  | none => pure ()

/-- `unlock`, from how the version takes its key from the options. -/
def unlockBy (takeKey : Method Node (BIP32Key Node)) (lock : Method Node Unit) (checksum : Str)
    (fn : Option (Method Node Unit)) : Method Node Unit := do
  let key ← takeKey
  holdKey p checksum key
  callBack lock fn

/-! ## Version 1 -/

namespace WalletV1

def lock : Method Node Unit := modify fun s => { s with primaryPrivateKey := none, locked := true }

/-- The key of the options. -/
def keyOf (primaryMnemonic : Value) (o : UnlockOptions Node) : Except PhpError (BIP32Key Node) :=
  if primaryMnemonic.truthy && o.primaryPrivateKey.truthy then
    .error (invalidArgument "Can't specify Primary Mnemonic and Primary PrivateKey")
  else if !primaryMnemonic.truthy && !o.primaryPrivateKey.truthy then
    .error (invalidArgument "Can't init wallet without Primary Mnemonic or Primary PrivateKey")
  else if primaryMnemonic.truthy && !o.givenPassword.truthy then
    .error (invalidArgument "Can't init wallet with Primary Mnemonic without a passphrase")
  else if o.primaryPrivateKey.truthy then
    match o.primaryPrivateKey with
    | .node key => .ok ⟨key, ⟨false, []⟩⟩
    | other => p.fromExtended other >>= fun key => .ok ⟨key, ⟨false, []⟩⟩
  else p.getSeed primaryMnemonic o.givenPassword >>= createFromEntropy p

def unlock (primaryMnemonic : Value) (checksum : Str) (o : UnlockOptions Node) (fn : Option (Method Node Unit)) :
    Method Node Unit :=
  unlockBy p (orRaise (keyOf p primaryMnemonic o)) lock checksum fn

end WalletV1

/-! ## Version 2 -/

namespace WalletV2

def lock : Method Node Unit :=
  modify fun s => { s with primaryPrivateKey := none, secret := .null, primarySeed := .null, locked := true }

def toText : Value → Except PhpError Bytes
  | .null | .no => .ok []
  | .text s => .ok s
  | .buffer b => p.castBuffer b

/-- `base64_decode`. -/
def base64Decode (s : Bytes) : Bytes := Base64.decode (s.map fun b => Char.ofNat b.toNat)

/-- `CryptoJSAES::evpkdf`: three times 16 bytes, of which 32 are the key. -/
def evpkdf (passphrase salt : Bytes) : Bytes × Bytes :=
  let d1 := p.md5 (passphrase ++ salt)
  let d2 := p.md5 (d1 ++ passphrase ++ salt)
  let d3 := p.md5 (d2 ++ passphrase ++ salt)
  let salted := d1 ++ d2 ++ d3
  (salted.take 32, (salted.drop 32).take 16)

/-- `"Salted__"`. -/
def saltedMagic : Bytes := [83, 97, 108, 116, 101, 100, 95, 95]

/-- `CryptoJSAES::decrypt`. -/
def decrypt (base64 passphrase : Value) : Except PhpError Value := do
  let data := base64Decode (← toText p base64)
  if data.take 8 ≠ saltedMagic then throw (invalidArgument [])
  let (key, iv) := evpkdf p (← toText p passphrase) ((data.drop 8).take 8)
  match p.opensslDecrypt (data.drop 16) key iv with
  | some data => return .text data
  | none => return .no

/-- The key that is passed. -/
def keyOf : KeyOption Node → Except PhpError (BIP32Key Node)
  | .node key => .ok ⟨key, ⟨false, []⟩⟩
  | .bip32 key => .ok key
  | other => p.fromExtended other >>= fun key => .ok ⟨key, ⟨false, []⟩⟩

/-- What has to be there to decrypt. -/
def guards (encryptedSecret password : Value) : Except PhpError Unit :=
  if !password.truthy then
    .error (invalidArgument "Can't init wallet with Primary Seed without a passphrase")
  else if !encryptedSecret.truthy then
    .error (invalidArgument "Can't init wallet with Primary Seed without a encrypted secret")
  else .ok ()

/-- `CryptoJSAES::decrypt` has not answered `false`. -/
def checkDecrypted (v : Value) (message : Str) : Except PhpError Unit :=
  if v.truthy then .ok () else .error (decryptException message)

/-- The key that is decrypted with the password. -/
def decryptKey (encryptedPrimarySeed encryptedSecret password : Value) : Method Node (BIP32Key Node) := do
  let secret ← orRaise (decrypt p encryptedSecret password)
  modify fun s => { s with secret := secret }
  orRaise (checkDecrypted secret "Failed to decrypt secret with password")
  let primarySeed ← orRaise (decrypt p encryptedPrimarySeed secret)
  modify fun s => { s with primarySeed := primarySeed }
  orRaise (checkDecrypted primarySeed "Failed to decrypt primary seed with secret")
  orRaise (toText p primarySeed >>= fun s => createFromEntropy p (base64Decode s))

/-- What the options hold is taken at once. -/
def takeOptions (o : UnlockOptions Node) (s : Held Node) : Held Node :=
  { s with
    secret := if o.secret.isset then o.secret else s.secret
    primarySeed := if o.primarySeed.isset then o.primarySeed else s.primarySeed }

def takeKey (encryptedPrimarySeed encryptedSecret : Value) (o : UnlockOptions Node) : Method Node (BIP32Key Node) := do
  modify (takeOptions o)
  if o.primaryPrivateKey.truthy then orRaise (keyOf p o.primaryPrivateKey)
  else do
    orRaise (guards encryptedSecret o.givenPassword)
    decryptKey p encryptedPrimarySeed encryptedSecret o.givenPassword

def unlock (encryptedPrimarySeed encryptedSecret : Value) (checksum : Str) (o : UnlockOptions Node)
    (fn : Option (Method Node Unit)) : Method Node Unit :=
  unlockBy p (takeKey p encryptedPrimarySeed encryptedSecret o) lock checksum fn

end WalletV2

/-! ## Version 3 -/

namespace WalletV3

def lock : Method Node Unit :=
  modify fun s => { s with primaryPrivateKey := none, secret := .null, primarySeed := .null, locked := true }

/-- What has to be there to decrypt: the encrypted seed, the encrypted secret and the password as a buffer. -/
def guards (encryptedPrimarySeed encryptedSecret : Option Bytes) (password : Value) :
    Except PhpError (Bytes × Bytes × Bytes) :=
  if !password.truthy then
    .error (invalidArgument "Can't init wallet with Primary Seed without a passphrase")
  else
    match encryptedSecret, encryptedPrimarySeed, password with
    | none, _, _ => .error (invalidArgument "Can't init wallet with Primary Seed without a encrypted secret")
    | some _, none, _ => .error (invalidArgument "Can't init wallet without an Encrypted Primary Seed")
    | some secret, some seed, .text password => .ok (seed, secret, password)
    | some secret, some seed, .buffer password => .ok (seed, secret, password)
    | some secret, some seed, _ => .ok (seed, secret, [])

/-- The seed of the options, or the one that is decrypted with the password. -/
def takeSeed (encryptedPrimarySeed encryptedSecret : Option Bytes) (o : UnlockOptions Node) : Method Node Bytes :=
  if o.primarySeed.isset then
    match o.primarySeed with
    | .buffer seed => do
      modify fun s => { s with primarySeed := .buffer seed }
      return seed
    | _ => throw ⟨"RuntimeException", "Primary Seed must be a BufferInterface"⟩
  else do
    let (encryptedPrimarySeed, encryptedSecret, password) ←
      orRaise (guards encryptedPrimarySeed encryptedSecret o.givenPassword)
    let secret ← orRaise (V3Crypt.decrypt p.ciphers p.buffers encryptedSecret password)
    modify fun s => { s with secret := .buffer secret }
    let primarySeed ← orRaise (V3Crypt.decrypt p.ciphers p.buffers encryptedPrimarySeed secret)
    modify fun s => { s with primarySeed := .buffer primarySeed }
    return primarySeed

def takeKey (encryptedPrimarySeed encryptedSecret : Option Bytes) (o : UnlockOptions Node) :
    Method Node (BIP32Key Node) := do
  let seed ← takeSeed p encryptedPrimarySeed encryptedSecret o
  orRaise (createFromEntropy p seed)

def unlock (encryptedPrimarySeed encryptedSecret : Option Bytes) (checksum : Str) (o : UnlockOptions Node)
    (fn : Option (Method Node Unit)) : Method Node Unit :=
  unlockBy p (takeKey p encryptedPrimarySeed encryptedSecret o) lock checksum fn

end WalletV3

/-! ## A wallet of any version -/

namespace LockableWallet

def lock (w : LockableWallet) : Method Node Unit :=
  match w.data with
  | .v1 _ => WalletV1.lock
  | .v2 _ _ => WalletV2.lock
  | .v3 _ _ => WalletV3.lock

def unlock (w : LockableWallet) (o : UnlockOptions Node) (fn : Option (Method Node Unit)) : Method Node Unit :=
  match w.data with
  | .v1 primaryMnemonic => WalletV1.unlock p primaryMnemonic w.checksum o fn
  | .v2 encryptedPrimarySeed encryptedSecret =>
    WalletV2.unlock p encryptedPrimarySeed encryptedSecret w.checksum o fn
  | .v3 encryptedPrimarySeed encryptedSecret =>
    WalletV3.unlock p encryptedPrimarySeed encryptedSecret w.checksum o fn

end LockableWallet

end PhpSdk
