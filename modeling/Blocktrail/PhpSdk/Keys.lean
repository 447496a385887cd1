import Blocktrail.Lib.Encoding
import Blocktrail.Lib.Php
import Blocktrail.Bitcoin.Paths

/-! # Paths and keys of the PHP SDK -/

open Text Bitcoin

namespace PhpSdk

variable {Node : Type}

/-- An exception: its class and its message. -/
structure PhpError where
  cls : Str
  message : Str
deriving DecidableEq

/-! ## `BIP32Path` -/

/-- A path is absolute: it starts with `m` or `M`. -/
structure BIP32Path where
  isPublicPath : Bool
  levels : List Str
deriving DecidableEq

namespace BIP32Path

def head (p : BIP32Path) : Str := if p.isPublicPath then "M" else "m"

def toText (p : BIP32Path) : Str := Php.implode '/' (p.head :: p.levels)

/-- `BIP32Path::path($text)`. -/
def ofText (text : Str) : Except PhpError BIP32Path :=
  match text.splitOn '/' with
  | head :: levels =>
    if head = "M".toList then .ok ⟨true, levels⟩
    else if head = "m".toList then .ok ⟨false, levels⟩
    else .error ⟨"InvalidArgumentException", "BIP32Path can only be used for absolute paths"⟩
  | [] => .error ⟨"InvalidArgumentException", "BIP32Path can only be used for absolute paths"⟩

def count (p : BIP32Path) : Nat := p.levels.length + 1

/-- `$path[$offset]`, `null` past the end. -/
def offsetGet (p : BIP32Path) (offset : Nat) : Option Str := (p.head :: p.levels)[offset]?

def parent (p : BIP32Path) : Except PhpError BIP32Path :=
  if p.levels = [] then .error ⟨"RuntimeException", "Can't get parent of root path"⟩
  else .ok { p with levels := p.levels.dropLast }

def publicPath (p : BIP32Path) : BIP32Path := { p with isPublicPath := true }

def privatePath (p : BIP32Path) : BIP32Path := { p with isPublicPath := false }

def unhardenedPath (p : BIP32Path) : BIP32Path := { p with levels := p.levels.map (Php.remove apostrophe) }

def isHardened (p : BIP32Path) : Bool := apostrophe ∈ ((p.head :: p.levels).getLast?).getD []

/-- `str_replace("'", "", $this->path[1])`. -/
def getKeyIndex (p : BIP32Path) : Str := Php.remove apostrophe ((p.offsetGet 1).getD [])

end BIP32Path

/-! ## `bitwasp/bitcoin` -/

/-- What the SDK uses of the library. -/
structure BitWasp (Node : Type) where
  /-- `HierarchicalKeyFactory::fromEntropy`; `none` throws. -/
  fromEntropy : Bytes → Option Node
  /-- `HierarchicalKey::derivePath`; `none` throws. -/
  derivePath : Node → Str → Option Node
  /-- What `HierarchicalKey::toPublic` makes of a key. The library changes the object. -/
  toPublic : Node → Node
  getPublicKey : Node → PubKey
  /-- `ScriptFactory::scriptPubKey()->multisig($m, $keys, false)`. -/
  multisig : Byte → List PubKey → Bytes
  /-- `new P2shScript($script)`, of a script and of a `WitnessScript`, then `getOutputScript`. -/
  p2shScript : Bytes → Bytes
  p2shWitness : Bytes → Bytes
  p2shOutput : Bytes → Bytes
  /-- `$redeemScript->getAddress()->getAddress()`, on the network that is set. -/
  p2shAddress : Network → Bytes → Str
  /-- `AddressFactory::fromOutputScript($script)->getAddress()`, on the network that is set. -/
  outputAddress : Network → Bytes → Str
  /-- `$witnessScript->getWitnessScriptHash()`. -/
  witnessScriptHash : Bytes → Bytes
  /-- How doubles with an exponent compare. -/
  floats : Str → Str → Ordering

/-- What `Bitcoin::setNetwork` is called with. -/
def bitcoinNetwork (testnet : Bool) : Network := if testnet then .testnet else .bitcoin

/-- A level of a path: an index, hardened or not. -/
def levelText (level : Nat × Bool) : Str := if level.2 then dec level.1 ++ [apostrophe] else dec level.1

def deriveLevel (hd : HDLib Node) (n : Node) (level : Nat × Bool) : Except JsError Node :=
  if level.2 then hd.deriveHardened n level.1 else hd.derive n (some (level.1 : Nat))

/-- The library does what the standards say: BIP32, the multisig template, P2SH and P2SH-P2WSH. -/
structure BitWasp.Standard (php : BitWasp Node) (hd : HDLib Node) (hashes : Hashes) : Prop where
  fromEntropy : ∀ seed n, php.fromEntropy seed = some n → hd.isNeutered n = false
  derivePath : ∀ n levels, levels ≠ [] → (hd.isNeutered n = true ∨ ∀ l ∈ levels, l.1 < HIGHEST_BIT) →
    php.derivePath n (Php.implode '/' (levels.map levelText)) = (levels.foldlM (deriveLevel hd) n).toOption
  toPublic : ∀ n, php.toPublic n = hd.neutered n
  getPublicKey : ∀ n, php.getPublicKey n = hd.getPublicKeyBuffer n
  multisig : ∀ m keys, php.multisig m keys = multisigOutput m keys
  p2shScript : ∀ script, php.p2shScript script = script
  p2shWitness : ∀ script, php.p2shWitness script = witnessScriptHashOutput (hashes.sha256 script)
  p2shOutput : ∀ script, php.p2shOutput script = scriptHashOutput (hashes.hash160 script)
  outputAddress : ∀ network script, php.outputAddress network (php.p2shOutput script) = php.p2shAddress network script
  witnessScriptHash : ∀ script, php.witnessScriptHash script = (hashes.sha256 script).val

/-! ## `BIP32Key` -/

structure BIP32Key (Node : Type) where
  key : Node
  path : BIP32Path

namespace BIP32Key

/-- `buildKey($path)`. The `assert` that the path is below the key's own is not run in production. -/
def buildKey (php : BitWasp Node) (k : BIP32Key Node) (path : BIP32Path) : Except PhpError (BIP32Key Node) := do
  let toPublic := path.isPublicPath && !k.path.isPublicPath
  let target := if toPublic then path.privatePath else path
  let rest := target.toText.drop k.path.toText.length
  let rest := if rest.head? = some '/' then rest.tail else rest
  let key ←
    if rest = [] then .ok k.key
    else
      match php.derivePath k.key rest with
      | some key => .ok key
      | none => .error ⟨"Exception", "Cannot derive key"⟩
  pure ⟨if toPublic then php.toPublic key else key, path⟩

def publicKey (php : BitWasp Node) (k : BIP32Key Node) : PubKey := php.getPublicKey k.key

end BIP32Key

/-! ## `BlocktrailSDK::sortMultisigKeys` -/

/-- `$av == $bv ? 0 : $av > $bv ? 1 : -1`. The ternary is left-associative: the test of the second `?` is
`$av == $bv ? 0 : $av > $bv`. -/
def compareKeys (php : BitWasp Node) (a b : PubKey) : Int :=
  let order := Php.compareTexts php.floats (Hex.encode a.bytes) (Hex.encode b.bytes)
  let test : Bool := if order = .eq then false else order == .gt
  if test then 1 else -1

def sortMultisigKeys (php : BitWasp Node) (pubKeys : List PubKey) : List PubKey :=
  Php.usort (compareKeys php) pubKeys

end PhpSdk
