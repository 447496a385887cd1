import Blocktrail.PhpSdk.Keys

/-! # The wallet of the PHP SDK -/

open Text Bitcoin

namespace PhpSdk

variable {Node : Type}

def CHAIN_BTC_DEFAULT : Nat := 0
def CHAIN_BCC_DEFAULT : Nat := 1
def CHAIN_BTC_SEGWIT : Nat := 2

structure Wallet (Node : Type) where
  network : Str
  testnet : Bool
  isSegwit : Bool
  keyIndex : Nat
  chainIndex : Nat
  changeIndex : Nat
  primaryPublicKeys : Str → Option (BIP32Key Node)
  backupPublicKey : BIP32Key Node
  blocktrailPublicKeys : Str → Option (BIP32Key Node)

structure WalletArgs (Node : Type) where
  primaryPublicKeys : Str → Option (BIP32Key Node)
  backupPublicKey : BIP32Key Node
  blocktrailPublicKeys : Str → Option (BIP32Key Node)
  keyIndex : Nat
  network : Str
  testnet : Bool
  segwit : Bool

/-- `Wallet::__construct`. -/
def newWallet (args : WalletArgs Node) : Except PhpError (Wallet Node) :=
  let wallet (chainIndex changeIndex : Nat) : Wallet Node :=
    { network := args.network
      testnet := args.testnet
      isSegwit := args.segwit
      keyIndex := args.keyIndex
      chainIndex := chainIndex
      changeIndex := changeIndex
      primaryPublicKeys := args.primaryPublicKeys
      backupPublicKey := args.backupPublicKey
      blocktrailPublicKeys := args.blocktrailPublicKeys }
  if args.network = "bitcoin".toList then
    if args.segwit then .ok (wallet CHAIN_BTC_DEFAULT CHAIN_BTC_SEGWIT)
    else .ok (wallet CHAIN_BTC_DEFAULT CHAIN_BTC_DEFAULT)
  else if args.segwit ∧ args.network = "bitcoincash".toList then
    .error ⟨"BlocktrailSDKException", "Received segwit flag for bitcoincash - abort"⟩
  else .ok (wallet CHAIN_BCC_DEFAULT CHAIN_BCC_DEFAULT)

/-! ## `WalletPath` -/

/-- `WalletPath::create($keyIndex, $chain, $address)->path()`. -/
def walletBIP32Path (keyIndex chain address : Nat) : BIP32Path :=
  ⟨false, [dec keyIndex ++ [apostrophe], dec chain, dec address]⟩

/-! ## Scripts -/

/-- What `getWalletScriptByPath` returns. -/
structure WalletScript where
  path : BIP32Path
  spk : Bytes
  redeemScript : Bytes
  witnessScript : Option Bytes
deriving DecidableEq

/-- The script of a multisig, by the `$type` that the chain makes it. -/
def scriptOfType (php : BitWasp Node) (isSegwit : Bool) (type : Nat) (path : BIP32Path) (multisig : Bytes) :
    Except PhpError WalletScript :=
  if isSegwit ∧ type = CHAIN_BTC_SEGWIT then
    let redeemScript := php.p2shWitness multisig
    .ok ⟨path, php.p2shOutput redeemScript, redeemScript, some multisig⟩
  else if type = CHAIN_BTC_DEFAULT ∨ type = CHAIN_BCC_DEFAULT then
    let redeemScript := php.p2shScript multisig
    .ok ⟨path, php.p2shOutput redeemScript, redeemScript, none⟩
  else .error ⟨"BlocktrailSDKException", "Unsupported chain in path"⟩

/-- A method call on an entry of an array that may be missing. -/
def entry {α : Type} : Option α → Except PhpError α
  | some a => .ok a
  | none => .error ⟨"Error", "Call to a member function buildKey() on null"⟩

def noBlocktrailKey (keyIndex : Str) : PhpError :=
  ⟨"Exception", "No blocktrail publickey for key index [" ++ keyIndex ++ "]"⟩

/-- `getBlocktrailPublicKey($path)`, of the wallet and of the sweeper. -/
def getBlocktrailPublicKey (blocktrailPublicKeys : Str → Option (BIP32Key Node)) (path : BIP32Path) :
    Except PhpError (BIP32Key Node) :=
  let keyIndex := Php.remove apostrophe ((path.offsetGet 1).getD [])
  match blocktrailPublicKeys keyIndex with
  | some key => .ok key
  | none => .error (noBlocktrailKey keyIndex)

namespace Wallet

/-- `getParentPublicKey($path)`; `none` is `false`. -/
def getParentPublicKey (php : BitWasp Node) (w : Wallet Node) (path : BIP32Path) :
    Except PhpError (Option (BIP32Key Node)) := do
  let path := (← path.parent).publicPath
  if path.count ≤ 2 then pure none
  else if path.isHardened then pure none
  else some <$> (entry (w.primaryPublicKeys path.getKeyIndex) >>= fun key => key.buildKey php path)

def getWalletScriptFromKey (php : BitWasp Node) (w : Wallet Node) (key : BIP32Key Node) (path : BIP32Path) :
    Except PhpError WalletScript := do
  let path := path.publicPath
  let blocktrailPublicKey ← getBlocktrailPublicKey w.blocktrailPublicKeys path
  let k ← key.buildKey php path
  let b ← w.backupPublicKey.buildKey php path.unhardenedPath
  let c ← blocktrailPublicKey.buildKey php path
  let multisig := php.multisig 2 (sortMultisigKeys php [k.publicKey php, b.publicKey php, c.publicKey php])
  scriptOfType php w.isSegwit (Php.intOf ((key.path.offsetGet 2).getD [])) path multisig

def getWalletScriptByPath (php : BitWasp Node) (w : Wallet Node) (path : Str) : Except PhpError WalletScript := do
  let path ← BIP32Path.ofText path
  match ← w.getParentPublicKey php path with
  | some pubKey => do
    let key ← pubKey.buildKey php path.publicPath
    w.getWalletScriptFromKey php key path
  | none => do
    let key ← entry (w.primaryPublicKeys path.getKeyIndex) >>= fun key => key.buildKey php path
    w.getWalletScriptFromKey php key path

/-- The address of a script, on the network of the wallet. -/
def addressOf (php : BitWasp Node) (w : Wallet Node) (ws : WalletScript) : Str :=
  php.outputAddress (bitcoinNetwork w.testnet) ws.spk

end Wallet

end PhpSdk
