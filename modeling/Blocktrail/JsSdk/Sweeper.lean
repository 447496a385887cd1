import Blocktrail.Lib.Assoc
import Blocktrail.JsSdk.Scripts

/-! # The recovery sweeper: addresses

`WalletSweeper` derives every key from the roots of a backup sheet.
-/

open Text Bitcoin

namespace JsSdk

variable {Node : Type}

structure Sweeper (Node : Type) where
  primaryPrivateKey : Node
  backupPublicKey : Node
  blocktrailPublicKeys : Assoc.Object Str Node
  network : Network

namespace Sweeper

/-- `WalletSweeper.prototype.getBlocktrailPublicKey`. -/
def getBlocktrailPublicKey (sw : Sweeper Node) (path : Str) : Except JsError Node := do
  let path := replaceFirst 'm' "M" path
  let keyIndex ← keyIndexOf path
  match sw.blocktrailPublicKeys.get? keyIndex with
  | none => .error ⟨"Error", "Wallet.getBlocktrailPublicKey keyIndex (" ++ keyIndex ++ ") is unknown to us"⟩
  | some blocktrailPublicKey => pure blocktrailPublicKey

/-- What `createAddress` computes: `address`, `redeem`, `witness`, and the local `scriptPubKey`. -/
structure Address where
  address : Str
  redeem : Bytes
  witness : Option Bytes
  scriptPubKey : Bytes
deriving DecidableEq

def createAddress (p : Platform Node) (sw : Sweeper Node) (path : Str) : Except JsError Address := do
  let path := replaceFirst 'm' "M" path
  let keyIndex ← keyIndexOf path
  let primaryPubKey ← deriveByPath p.hd sw.primaryPrivateKey path "m"
  let backupPubKey ← deriveByPath p.hd sw.backupPublicKey (replaceFirst apostrophe [] path) "M"
  let blocktrailPublicKey ← sw.getBlocktrailPublicKey path
  let blocktrailPubKey ← deriveByPath p.hd blocktrailPublicKey path (keyPathOf keyIndex)
  let scripts ← scriptsOfKeys p sw.network false (isWitnessPath sw.network path)
    [p.hd.getPublicKeyBuffer primaryPubKey, p.hd.getPublicKeyBuffer backupPubKey,
      p.hd.getPublicKeyBuffer blocktrailPubKey]
  pure ⟨scripts.address, scripts.redeemScript, scripts.witnessScript, scripts.scriptPubKey⟩

end Sweeper

end JsSdk
