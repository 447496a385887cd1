import Blocktrail.JsSdk.Construct
import Blocktrail.JsSdk.Sample
import Blocktrail.JsSdk.ScriptsSpec
import Blocktrail.PhpSdk.Sample
import Blocktrail.PhpSdk.WalletSpec

/-! # The scripts of both SDKs

The JS wallet has scripts for every chain. The PHP wallet has the same ones, for the chains it supports.
-/

open Text Throwing Bitcoin

namespace TwoSdks

variable {Node : Type}

/-- The arguments of both constructors: the same network, segwit flag and public keys. -/
structure SameArgs (hd : HDLib Node) (sdk : JsSdk.Sdk) (js : JsSdk.WalletArgs Node) (php : PhpSdk.WalletArgs Node) :
    Prop where
  network : php.network = if sdk.bitcoinCash then "bitcoincash".toList else "bitcoin".toList
  segwit : php.segwit = js.segwit
  primary : ∀ k, php.primaryPublicKeys (dec k) =
    (js.primaryPublicKeys (dec k)).map fun key => ⟨key, PhpSdk.accountBIP32Path k⟩
  backup : php.backupPublicKey = ⟨js.backupPublicKey, ⟨true, []⟩⟩
  blocktrail : ∀ k, php.blocktrailPublicKeys (dec k) =
    (js.blocktrailPublicKeys (dec k)).map fun key => ⟨key, PhpSdk.accountBIP32Path k⟩
  primary_public : ∀ k key, js.primaryPublicKeys (dec k) = some key → hd.isNeutered key = true
  backup_public : hd.isNeutered js.backupPublicKey = true
  blocktrail_public : ∀ k key, js.blocktrailPublicKeys (dec k) = some key → hd.isNeutered key = true

/-- The scripts of a path: redeem script, witness script and scriptPubKey, or none where it is rejected. -/
def jsScripts (p : JsSdk.Platform Node) (s : JsSdk.World Node) (k c i : Nat) : Option (Bytes × Option Bytes × Bytes) :=
  (call (JsSdk.getWalletScriptByPath p (walletPath k c i)) s).1.toOption.map JsSdk.WalletScripts.scripts

def phpScripts (php : PhpSdk.BitWasp Node) (w : PhpSdk.Wallet Node) (k c i : Nat) :
    Option (Bytes × Option Bytes × Bytes) :=
  (w.getWalletScriptByPath php (walletPath k c i)).toOption.map PhpSdk.WalletScript.scripts

/-- PHP reads none of the keys of the path as a number with an exponent. -/
def NoExponents (hd : HDLib Node) (js : JsSdk.WalletArgs Node) (k c i : Nat) : Prop :=
  ∀ account blocktrail, js.primaryPublicKeys (dec k) = some account →
    js.blocktrailPublicKeys (dec k) = some blocktrail →
      ∀ key ∈ pathKeys hd account js.backupPublicKey blocktrail k c i,
        Php.hasExponent (Hex.encode key.bytes) = false

/-- The host has the keys of the path in the order of their hex texts. -/
def CollatedAsTexts (p : JsSdk.Platform Node) (js : JsSdk.WalletArgs Node) (k c i : Nat) : Prop :=
  ∀ account blocktrail, js.primaryPublicKeys (dec k) = some account →
    js.blocktrailPublicKeys (dec k) = some blocktrail →
      ∀ a ∈ pathKeys p.hd account js.backupPublicKey blocktrail k c i,
        ∀ b ∈ pathKeys p.hd account js.backupPublicKey blocktrail k c i,
          p.collation.localeCompare (Hex.encode a.bytes) (Hex.encode b.bytes) ≠ .gt ↔
            Hex.encode a.bytes ≤ Hex.encode b.bytes

/-! ## One order -/

theorem compareKeys_le {php : PhpSdk.BitWasp Node} {a b : PubKey} (ha : Php.hasExponent (Hex.encode a.bytes) = false)
    (hb : Php.hasExponent (Hex.encode b.bytes) = false) :
    PhpSdk.compareKeys php a b ≤ 0 ↔ Hex.encode a.bytes ≤ Hex.encode b.bytes := by
  have hl : (Hex.encode a.bytes).length = (Hex.encode b.bytes).length := by
    rw [Hex.length_encode, Hex.length_encode, a.length_eq, b.length_eq]
  unfold PhpSdk.compareKeys
  simp only [Php.compareTexts_eq hl ha hb]
  unfold Php.compareBytes
  by_cases he : Hex.encode a.bytes = Hex.encode b.bytes
  · rw [if_pos he, he]
    simp
  by_cases hlt : Hex.encode a.bytes < Hex.encode b.bytes
  · rw [if_neg he, if_pos hlt]
    simp [hlt.le]
  · rw [if_neg he, if_neg hlt]
    have hle : ¬Hex.encode a.bytes ≤ Hex.encode b.bytes := fun h =>
      he (h.antisymm (not_lt.mp hlt))
    simp [hle]

theorem sortMultisigKeys_eq {php : PhpSdk.BitWasp Node} {collation : Collation} {keys : List PubKey}
    (h : ∀ key ∈ keys, Php.hasExponent (Hex.encode key.bytes) = false)
    (hc : ∀ a ∈ keys, ∀ b ∈ keys, collation.localeCompare (Hex.encode a.bytes) (Hex.encode b.bytes) ≠ .gt ↔
      Hex.encode a.bytes ≤ Hex.encode b.bytes) :
    PhpSdk.sortMultisigKeys php keys = JsSdk.sortMultiSigKeys collation keys :=
  Php.usort_eq _ _ keys fun a ha b hb => (compareKeys_le (h a ha) (h b hb)).trans (hc a ha b hb).symm

theorem keyScripts_eq {p : JsSdk.Platform Node} {php : PhpSdk.BitWasp Node} (hs : php.Standard p.hd p.hashes)
    {keys : List PubKey} (h : ∀ key ∈ keys, Php.hasExponent (Hex.encode key.bytes) = false)
    (hc : ∀ a ∈ keys, ∀ b ∈ keys, p.collation.localeCompare (Hex.encode a.bytes) (Hex.encode b.bytes) ≠ .gt ↔
      Hex.encode a.bytes ≤ Hex.encode b.bytes) (witness : Bool) :
    PhpSdk.keyScripts php witness keys = JsSdk.keyScripts p witness keys := by
  unfold PhpSdk.keyScripts JsSdk.keyScripts
  rw [sortMultisigKeys_eq h hc]
  cases witness <;> simp [hs.multisig, hs.p2shWitness, hs.p2shScript, hs.p2shOutput]

/-! ## The scripts -/

theorem newWallet_php {args : PhpSdk.WalletArgs Node} {v : PhpSdk.Wallet Node} (h : PhpSdk.newWallet args = .ok v) :
    v.isSegwit = args.segwit ∧ v.primaryPublicKeys = args.primaryPublicKeys ∧
      v.backupPublicKey = args.backupPublicKey ∧ v.blocktrailPublicKeys = args.blocktrailPublicKeys := by
  unfold PhpSdk.newWallet at h
  split at h
  · split at h <;> cases h <;> exact ⟨rfl, rfl, rfl, rfl⟩
  · split at h <;> cases h
    exact ⟨rfl, rfl, rfl, rfl⟩

/-- **Both SDKs.** On a chain that the PHP wallet supports the two agree; on any other it rejects the path. -/
theorem php_scripts_eq_js (p : JsSdk.Platform Node) (php : PhpSdk.BitWasp Node) (hl : p.hd.Lawful)
    (hs : php.Standard p.hd p.hashes) (sdk : JsSdk.Sdk) (server : JsSdk.ServerWallet) (js : JsSdk.WalletArgs Node)
    (args : PhpSdk.WalletArgs Node) (hargs : SameArgs p.hd sdk js args) (w : JsSdk.Wallet Node)
    (v : PhpSdk.Wallet Node) (hw : JsSdk.newWallet sdk js = .ok w) (hv : PhpSdk.newWallet args = .ok v)
    (k c i : Nat) (hexp : NoExponents p.hd js k c i) (hcol : CollatedAsTexts p js k c i) :
    phpScripts php v k c i = if PhpSdk.SupportsChain js.segwit c then jsScripts p ⟨w, sdk, server⟩ k c i else none := by
  have hf := JsSdk.newWallet_fresh hw
  obtain ⟨hseg, hvp, hvb, hvt⟩ := newWallet_php hv
  have hseg' : v.isSegwit = js.segwit := hseg.trans hargs.segwit
  rcases hp : js.primaryPublicKeys (dec k) with _ | account
  · -- Neither has the account key, and the JS wallet has no private key to make it.
    have hacc : JsSdk.accountKey p w k = .error (JsSdk.unknownKeyIndex "getPrimaryPublicKey" (dec k)) := by
      unfold JsSdk.accountKey
      rw [hf.primaryPublicKeys, hp, hf.primaryPrivateKey]
    have hphp : v.primaryPublicKeys (dec k) = none := by rw [hvp, hargs.primary, hp]; rfl
    rw [phpScripts, PhpSdk.getWalletScriptByPath_missing (Or.inl hphp), jsScripts,
      JsSdk.getWalletScriptByPath_no_account (s := ⟨w, sdk, server⟩) hacc]
    simp [Except.toOption]
  rcases hb : js.blocktrailPublicKeys (dec k) with _ | blocktrail
  · have hphp : v.blocktrailPublicKeys (dec k) = none := by rw [hvt, hargs.blocktrail, hb]; rfl
    have hjs : w.blocktrailPublicKeys (dec k) = none := by rw [hf.blocktrailPublicKeys, hb]
    rw [phpScripts, PhpSdk.getWalletScriptByPath_missing (Or.inr hphp), jsScripts,
      JsSdk.getWalletScriptByPath_no_blocktrail (s := ⟨w, sdk, server⟩) hjs]
    simp
  have hkeys : PhpSdk.HasKeys p.hd v k account js.backupPublicKey blocktrail :=
    { primaryPublicKey := by rw [hvp, hargs.primary, hp]; rfl
      backupPublicKey := by rw [hvb, hargs.backup]
      blocktrailPublicKey := by rw [hvt, hargs.blocktrail, hb]; rfl
      account_public := hargs.primary_public k account hp
      backup_public := hargs.backup_public
      blocktrail_public := hargs.blocktrail_public k blocktrail hb }
  have hacc : JsSdk.accountKey p w k = .ok account := by
    unfold JsSdk.accountKey
    rw [hf.primaryPublicKeys, hp]
  have hjs : jsScripts p ⟨w, sdk, server⟩ k c i = if k < HIGHEST_BIT ∧ c < HIGHEST_BIT ∧ i < HIGHEST_BIT then
      some (JsSdk.keyScripts p (c == JsSdk.CHAIN_BTC_SEGWIT) (pathKeys p.hd account js.backupPublicKey blocktrail k c i))
      else none := by
    rw [jsScripts, JsSdk.getWalletScriptByPath_account (s := ⟨w, sdk, server⟩) hacc
      (by rw [hf.blocktrailPublicKeys, hb]), hf.backupPublicKey]
    exact JsSdk.scriptsFromAccount_scripts hl hargs.backup_public _ _ _ _ k c i
  rw [phpScripts, PhpSdk.getWalletScriptByPath_spec hs hl hkeys, hjs, hseg', 
    keyScripts_eq hs (hexp account blocktrail hp hb) (hcol account blocktrail hp hb)]
  by_cases hsup : PhpSdk.SupportsChain js.segwit c
  · -- On a supported chain the flag adds nothing to the test of the chain.
    have hwit : (js.segwit && c == PhpSdk.CHAIN_BTC_SEGWIT) = (c == JsSdk.CHAIN_BTC_SEGWIT) := by
      rcases hsup with rfl | rfl | ⟨h, rfl⟩
      · simp [PhpSdk.CHAIN_BTC_DEFAULT, PhpSdk.CHAIN_BTC_SEGWIT, JsSdk.CHAIN_BTC_SEGWIT]
      · simp [PhpSdk.CHAIN_BCC_DEFAULT, PhpSdk.CHAIN_BTC_SEGWIT, JsSdk.CHAIN_BTC_SEGWIT]
      · simp [h, PhpSdk.CHAIN_BTC_SEGWIT, JsSdk.CHAIN_BTC_SEGWIT]
    simp only [hsup, and_true, if_true, hwit]
  · simp only [hsup, and_false, if_false]

/-- The arguments of a PHP wallet with the keys of the sample wallet. -/
def samplePhpArgs (segwit : Bool) : PhpSdk.WalletArgs SampleNode where
  primaryPublicKeys key :=
    if key = dec 0 then some ⟨⟨[1], [], false⟩, PhpSdk.accountBIP32Path 0⟩ else none
  backupPublicKey := ⟨⟨[2], [], false⟩, ⟨true, []⟩⟩
  blocktrailPublicKeys key :=
    if key = dec 0 then some ⟨⟨[3], [], false⟩, PhpSdk.accountBIP32Path 0⟩ else none
  keyIndex := 0
  network := "bitcoin"
  testnet := false
  segwit := segwit

def sampleJsArgs (segwit : Bool) : JsSdk.WalletArgs SampleNode :=
  { JsSdk.sampleArgs with
    primaryPublicKeys := fun key => if key = dec 0 then some ⟨[1], [], false⟩ else none
    segwit := segwit }

theorem sameArgs_sample (segwit : Bool) :
    SameArgs sampleHD JsSdk.sampleSdk (sampleJsArgs segwit) (samplePhpArgs segwit) where
  network := rfl
  segwit := rfl
  primary k := by
    show (if dec k = dec 0 then _ else _) = Option.map _ (if dec k = dec 0 then _ else _)
    by_cases h : dec k = dec 0
    · rw [if_pos h, if_pos h, dec_injective h]
      rfl
    · rw [if_neg h, if_neg h]
      rfl
  backup := rfl
  blocktrail k := by
    show (if dec k = dec 0 then _ else _) = Option.map _ (if dec k = dec 0 then _ else _)
    by_cases h : dec k = dec 0
    · rw [if_pos h, if_pos h, dec_injective h]
      rfl
    · rw [if_neg h, if_neg h]
      rfl
  primary_public k key h := by
    simp only [sampleJsArgs] at h
    split at h <;> cases h
    rfl
  backup_public := rfl
  blocktrail_public k key h := by
    simp only [sampleJsArgs, JsSdk.sampleArgs] at h
    split at h <;> cases h
    rfl

def sampleJs (segwit : Bool) : JsSdk.World SampleNode :=
  ⟨((JsSdk.newWallet JsSdk.sampleSdk (sampleJsArgs segwit)).toOption.get (by cases segwit <;> rfl)),
    JsSdk.sampleSdk, JsSdk.sampleServer⟩

def samplePhp (segwit : Bool) : PhpSdk.Wallet SampleNode :=
  (PhpSdk.newWallet (samplePhpArgs segwit)).toOption.get (by cases segwit <;> rfl)

/-- A change address of a segwit wallet. -/
theorem php_scripts_eq_js_sample :
    phpScripts PhpSdk.sampleBitWasp (samplePhp true) 0 2 5 =
      if PhpSdk.SupportsChain true 2 then jsScripts JsSdk.samplePlatform (sampleJs true) 0 2 5 else none := by
  refine php_scripts_eq_js JsSdk.samplePlatform PhpSdk.sampleBitWasp sampleHD_lawful PhpSdk.sampleBitWasp_standard
    JsSdk.sampleSdk JsSdk.sampleServer (sampleJsArgs true) (samplePhpArgs true) (sameArgs_sample true) _ _ rfl rfl
    0 2 5 ?_ ?_
  · intro account blocktrail ha hb
    cases ha
    cases hb
    decide +kernel
  · intro account blocktrail ha hb
    cases ha
    cases hb
    decide +kernel

/-- On chain 2 of a wallet that is not segwit, the JS wallet has scripts and the PHP wallet has none. -/
theorem php_rejects_segwit_chain :
    phpScripts PhpSdk.sampleBitWasp (samplePhp false) 0 2 5 ≠ jsScripts JsSdk.samplePlatform (sampleJs false) 0 2 5 := by
  intro h
  have hsome := congrArg Option.isSome h
  revert hsome
  decide +kernel

end TwoSdks
