import Blocktrail.Bitcoin.SampleAddresses
import Blocktrail.Lib.Encoding
import Blocktrail.Lib.Throwing

/-! # Cash addresses and legacy addresses -/

open Text Throwing Bitcoin

namespace JsSdk

namespace CashAddress

section Client

variable (codec : AddressCodec) (d : AddressDecoder)

def onlyBitcoinCash : JsError := ⟨"Error", "Cash addresses only work on bitcoin cash"⟩

def unsupportedAddressType : JsError := ⟨"Error", "Unsupported address type"⟩

/-- The base58 version of a type of script. -/
def versionOf (network : Network) (type : Str) : Except JsError Byte :=
  if type = P2PKH then .ok network.pubKeyHash
  else if type = P2SH then .ok network.scriptHash
  else .error unsupportedAddressType

/-- The type of script of a base58 version. -/
def scriptTypeOf (network : Network) (version : Byte) : Except JsError Str :=
  if version = network.pubKeyHash then .ok P2PKH
  else if version = network.scriptHash then .ok P2SH
  else .error unsupportedAddressType

/-- `getLegacyBitcoinCashAddress`, of a client of the network. -/
def getLegacyBitcoinCashAddress (network : Network) (input : Str) : Except JsError Str :=
  if network.isBitcoinCash then
    match d.fromBase58Check input with
    | .ok _ => .ok input
    | .error _ => do
      let (_, version, hash) ← d.fromCashAddress input
      return codec.toBase58Check hash (← versionOf network version)
  else .error onlyBitcoinCash

/-- `getCashAddressFromLegacyAddress`, of a client of the network. -/
def getCashAddressFromLegacyAddress (network : Network) (input : Str) : Except JsError Str :=
  if network.isBitcoinCash then
    match d.fromCashAddress input with
    | .ok _ => .ok input
    | .error _ => do
      let (version, hash) ← d.fromBase58Check input
      return codec.toCashAddress hash (← scriptTypeOf network version) (network.cashAddrPrefix.getD [])
  else .error onlyBitcoinCash

end Client

/-! ## What the library reads and writes -/

/-- What is written is read again, and a base58 text is written in one way. -/
structure ReadBack (codec : AddressCodec) (d : AddressDecoder) : Prop where
  base58 : ∀ (hash : Hash160) version, d.fromBase58Check (codec.toBase58Check hash.val version) = .ok (version, hash.val)
  base58_unique : ∀ s version hash, d.fromBase58Check s = .ok (version, hash) → codec.toBase58Check hash version = s
  cash : ∀ (hash : Hash160) type, type = P2PKH ∨ type = P2SH →
    ∀ (network : Network) prefix', network.cashAddrPrefix = some prefix' →
      d.fromCashAddress (codec.toCashAddress hash.val type prefix') = .ok (prefix', type, hash.val)

/-- A base58 address of a network. -/
def IsLegacy (d : AddressDecoder) (network : Network) (s type : Str) (hash : Bytes) : Prop :=
  (type = P2PKH ∧ d.fromBase58Check s = .ok (network.pubKeyHash, hash)) ∨
    (type = P2SH ∧ d.fromBase58Check s = .ok (network.scriptHash, hash))

/-- A cash address of a network. -/
def IsCash (d : AddressDecoder) (network : Network) (s type : Str) (hash : Bytes) : Prop :=
  ∃ prefix', network.cashAddrPrefix = some prefix' ∧ d.fromCashAddress s = .ok (prefix', type, hash)

/-- The type and the hash of a text, in either format and of any network. -/
def Denotes (d : AddressDecoder) (s type : Str) (hash : Bytes) : Prop :=
  (∃ network, IsLegacy d network s type hash) ∨ ∃ prefix', d.fromCashAddress s = .ok (prefix', type, hash)

/-- The conversions of a text: each returns an address of the network in its format, of the same type and hash, keeps
what it returns, and undoes the other on it. -/
structure Converts (codec : AddressCodec) (d : AddressDecoder) (network : Network) (s : Str) : Prop where
  legacy : ∀ r, getLegacyBitcoinCashAddress codec d network s = .ok r →
    ∃ type hash, IsLegacy d network r type hash ∧ Denotes d s type hash
  cash : ∀ r, getCashAddressFromLegacyAddress codec d network s = .ok r →
    ∃ type hash, IsCash d network r type hash ∧ Denotes d s type hash
  legacy_idem : ∀ r, getLegacyBitcoinCashAddress codec d network s = .ok r →
    getLegacyBitcoinCashAddress codec d network r = .ok r
  cash_idem : ∀ r, getCashAddressFromLegacyAddress codec d network s = .ok r →
    getCashAddressFromLegacyAddress codec d network r = .ok r
  legacy_inverse : ∀ r, getLegacyBitcoinCashAddress codec d network s = .ok r →
    (getCashAddressFromLegacyAddress codec d network r >>= getLegacyBitcoinCashAddress codec d network) = .ok r
  cash_inverse : ∀ r, getCashAddressFromLegacyAddress codec d network s = .ok r →
    (getLegacyBitcoinCashAddress codec d network r >>= getCashAddressFromLegacyAddress codec d network) = .ok r

/-! ## Conversions -/

section Conversions

variable {codec : AddressCodec} {d : AddressDecoder} {network : Network}

theorem legacy_of_base58 (hn : network.isBitcoinCash = true) {s : Str} {decoded : Byte × Bytes}
    (h : d.fromBase58Check s = .ok decoded) : getLegacyBitcoinCashAddress codec d network s = .ok s := by
  rw [getLegacyBitcoinCashAddress, if_pos hn, h]

theorem cash_of_cash (hn : network.isBitcoinCash = true) {s : Str} {decoded : Str × Str × Bytes}
    (h : d.fromCashAddress s = .ok decoded) : getCashAddressFromLegacyAddress codec d network s = .ok s := by
  rw [getCashAddressFromLegacyAddress, if_pos hn, h]

theorem exists_prefix (hn : network.isBitcoinCash = true) : ∃ prefix', network.cashAddrPrefix = some prefix' := by
  cases network with
  | bitcoin => cases hn
  | testnet => cases hn
  | bitcoincash => exact ⟨_, rfl⟩
  | bitcoincashtestnet => exact ⟨_, rfl⟩

theorem pubKeyHash_ne_scriptHash (network : Network) : network.scriptHash ≠ network.pubKeyHash := by
  cases network <;> decide

theorem exists_version (network : Network) {type : Str} (h : type = P2PKH ∨ type = P2SH) :
    ∃ version, versionOf network type = .ok version ∧ scriptTypeOf network version = .ok type ∧
      (version = network.pubKeyHash ∨ version = network.scriptHash) := by
  have hne := pubKeyHash_ne_scriptHash network
  rcases h with rfl | rfl
  · exact ⟨network.pubKeyHash, by simp [versionOf], by simp [scriptTypeOf], Or.inl rfl⟩
  · exact ⟨network.scriptHash, by simp [versionOf, P2SH_ne_P2PKH], by simp [scriptTypeOf, hne], Or.inr rfl⟩

theorem exists_type {network : Network} {version : Byte}
    (h : version = network.pubKeyHash ∨ version = network.scriptHash) :
    ∃ type, (type = P2PKH ∨ type = P2SH) ∧ scriptTypeOf network version = .ok type ∧
      versionOf network type = .ok version := by
  have hne := pubKeyHash_ne_scriptHash network
  rcases h with rfl | rfl
  · exact ⟨P2PKH, Or.inl rfl, by simp [scriptTypeOf], by simp [versionOf]⟩
  · exact ⟨P2SH, Or.inr rfl, by simp [scriptTypeOf, hne], by simp [versionOf, P2SH_ne_P2PKH]⟩

theorem isLegacy_of_version {s type : Str} {version : Byte} {hash : Bytes} (ht : type = P2PKH ∨ type = P2SH)
    (hv : versionOf network type = .ok version) (h : d.fromBase58Check s = .ok (version, hash)) :
    IsLegacy d network s type hash := by
  rcases ht with rfl | rfl
  · simp only [versionOf, if_true, Except.ok.injEq] at hv
    exact Or.inl ⟨rfl, hv ▸ h⟩
  · simp only [versionOf, if_neg P2SH_ne_P2PKH, if_true, Except.ok.injEq] at hv
    exact Or.inr ⟨rfl, hv ▸ h⟩

theorem version_of_isLegacy {s type : Str} {version : Byte} {hash hash' : Bytes}
    (h : d.fromBase58Check s = .ok (version, hash)) (hl : IsLegacy d network s type hash') :
    version = network.pubKeyHash ∨ version = network.scriptHash := by
  rcases hl with ⟨-, hl⟩ | ⟨-, hl⟩
  · rw [h] at hl
    cases hl
    exact Or.inl rfl
  · rw [h] at hl
    cases hl
    exact Or.inr rfl

theorem not_cash_of_base58 (hd : d.Lawful) {s : Str} {decoded : Byte × Bytes} (h : d.fromBase58Check s = .ok decoded) :
    ∃ e, d.fromCashAddress s = .error e := by
  rcases hcash : d.fromCashAddress s with e | r
  · exact ⟨e, rfl⟩
  · obtain ⟨e, he⟩ := hd.cash_not_base58 s r hcash
    rw [h] at he
    cases he

theorem legacy_of_cash (hn : network.isBitcoinCash = true) (hd : d.Lawful) {s prefix' type : Str} {hash : Bytes}
    {version : Byte} (h : d.fromCashAddress s = .ok (prefix', type, hash)) (hv : versionOf network type = .ok version) :
    getLegacyBitcoinCashAddress codec d network s = .ok (codec.toBase58Check hash version) := by
  obtain ⟨e, he⟩ := hd.cash_not_base58 s _ h
  rw [getLegacyBitcoinCashAddress, if_pos hn, he]
  dsimp only
  rw [h, ok_bind, hv, ok_bind]
  rfl

theorem cash_of_base58 (hn : network.isBitcoinCash = true) (hd : d.Lawful) {s type prefix' : Str} {version : Byte}
    {hash : Bytes} (h : d.fromBase58Check s = .ok (version, hash)) (ht : scriptTypeOf network version = .ok type)
    (hp : network.cashAddrPrefix = some prefix') :
    getCashAddressFromLegacyAddress codec d network s = .ok (codec.toCashAddress hash type prefix') := by
  obtain ⟨e, he⟩ := not_cash_of_base58 hd h
  rw [getCashAddressFromLegacyAddress, if_pos hn, he]
  dsimp only
  rw [h, ok_bind, ht, ok_bind, hp]
  rfl

/-- A base58 text is of the network, and a cash address is too and is the text that the library writes. -/
def OfNetwork (codec : AddressCodec) (d : AddressDecoder) (network : Network) (s : Str) : Prop :=
  (∀ version hash, d.fromBase58Check s = .ok (version, hash) →
    version = network.pubKeyHash ∨ version = network.scriptHash) ∧
  ∀ prefix' type hash, d.fromCashAddress s = .ok (prefix', type, hash) →
    network.cashAddrPrefix = some prefix' ∧ codec.toCashAddress hash type prefix' = s

theorem ofNetwork_of_converts (hn : network.isBitcoinCash = true) (hd : d.Lawful) (hc : ReadBack codec d) {s : Str}
    (h : Converts codec d network s) : OfNetwork codec d network s := by
  refine ⟨fun version hash hs => ?_, fun prefix' type hash hs => ?_⟩
  · obtain ⟨type, hash', hl, -⟩ := h.legacy s (legacy_of_base58 hn hs)
    exact version_of_isLegacy hs hl
  · obtain ⟨hlength, htype⟩ := hd.cash s prefix' type hash hs
    obtain ⟨type', hash', ⟨own, hown, hcash⟩, -⟩ := h.cash s (cash_of_cash hn hs)
    rw [hs] at hcash
    cases hcash
    obtain ⟨version, hv, ht, -⟩ := exists_version network htype
    have hread := hc.base58 ⟨hash, hlength⟩ version
    have hinverse := h.cash_inverse s (cash_of_cash hn hs)
    rw [legacy_of_cash hn hd hs hv, ok_bind, cash_of_base58 hn hd hread ht hown] at hinverse
    exact ⟨hown, Except.ok.inj hinverse⟩

theorem converts_of_base58 (hn : network.isBitcoinCash = true) (hd : d.Lawful) (hc : ReadBack codec d) {s : Str}
    {version : Byte} {hash : Bytes} (hs : d.fromBase58Check s = .ok (version, hash))
    (hv : version = network.pubKeyHash ∨ version = network.scriptHash) : Converts codec d network s := by
  obtain ⟨own, hown⟩ := exists_prefix hn
  obtain ⟨type, htype, ht, hversion⟩ := exists_type hv
  have hlength := hd.length_base58 s version hash hs
  have hl : getLegacyBitcoinCashAddress codec d network s = .ok s := legacy_of_base58 hn hs
  have hcash : getCashAddressFromLegacyAddress codec d network s = .ok (codec.toCashAddress hash type own) :=
    cash_of_base58 hn hd hs ht hown
  have hread := hc.cash ⟨hash, hlength⟩ type htype network own hown
  have hback : getLegacyBitcoinCashAddress codec d network (codec.toCashAddress hash type own) = .ok s := by
    rw [legacy_of_cash hn hd hread hversion, hc.base58_unique s version hash hs]
  have hlegacy : IsLegacy d network s type hash := isLegacy_of_version htype hversion hs
  refine ⟨fun r hr => ?_, fun r hr => ?_, fun r hr => ?_, fun r hr => ?_, fun r hr => ?_, fun r hr => ?_⟩
  · cases hl.symm.trans hr
    exact ⟨type, hash, hlegacy, Or.inl ⟨network, hlegacy⟩⟩
  · cases hcash.symm.trans hr
    exact ⟨type, hash, ⟨own, hown, hread⟩, Or.inl ⟨network, hlegacy⟩⟩
  · cases hl.symm.trans hr
    exact hl
  · cases hcash.symm.trans hr
    exact cash_of_cash hn hread
  · cases hl.symm.trans hr
    rw [hcash, ok_bind, hback]
  · cases hcash.symm.trans hr
    rw [hback, ok_bind, hcash]

theorem converts_of_cash (hn : network.isBitcoinCash = true) (hd : d.Lawful) (hc : ReadBack codec d)
    {s prefix' type : Str} {hash : Bytes} (hs : d.fromCashAddress s = .ok (prefix', type, hash))
    (hown : network.cashAddrPrefix = some prefix') (hs' : codec.toCashAddress hash type prefix' = s) :
    Converts codec d network s := by
  obtain ⟨hlength, htype⟩ := hd.cash s prefix' type hash hs
  obtain ⟨version, hv, ht, -⟩ := exists_version network htype
  have hread := hc.base58 ⟨hash, hlength⟩ version
  have hl : getLegacyBitcoinCashAddress codec d network s = .ok (codec.toBase58Check hash version) :=
    legacy_of_cash hn hd hs hv
  have hcash : getCashAddressFromLegacyAddress codec d network s = .ok s := cash_of_cash hn hs
  have hback : getCashAddressFromLegacyAddress codec d network (codec.toBase58Check hash version) = .ok s := by
    rw [cash_of_base58 hn hd hread ht hown, hs']
  refine ⟨fun r hr => ?_, fun r hr => ?_, fun r hr => ?_, fun r hr => ?_, fun r hr => ?_, fun r hr => ?_⟩
  · cases hl.symm.trans hr
    exact ⟨type, hash, isLegacy_of_version htype hv hread, Or.inr ⟨prefix', hs⟩⟩
  · cases hcash.symm.trans hr
    exact ⟨type, hash, ⟨prefix', hown, hs⟩, Or.inr ⟨prefix', hs⟩⟩
  · cases hl.symm.trans hr
    exact legacy_of_base58 hn hread
  · cases hcash.symm.trans hr
    exact hcash
  · cases hl.symm.trans hr
    rw [hback, ok_bind, hl]
  · cases hcash.symm.trans hr
    rw [hl, ok_bind, hback]

theorem converts_of_error {s : Str} {e e' : JsError} (hb : d.fromBase58Check s = .error e)
    (hs : d.fromCashAddress s = .error e') : Converts codec d network s := by
  have hl : ∀ r, getLegacyBitcoinCashAddress codec d network s ≠ .ok r := by
    intro r hr
    unfold getLegacyBitcoinCashAddress at hr
    rw [hb, hs] at hr
    split_ifs at hr
    all_goals cases hr
  have hcash : ∀ r, getCashAddressFromLegacyAddress codec d network s ≠ .ok r := by
    intro r hr
    unfold getCashAddressFromLegacyAddress at hr
    rw [hb, hs] at hr
    split_ifs at hr
    all_goals cases hr
  exact ⟨fun r hr => absurd hr (hl r), fun r hr => absurd hr (hcash r), fun r hr => absurd hr (hl r),
    fun r hr => absurd hr (hcash r), fun r hr => absurd hr (hl r), fun r hr => absurd hr (hcash r)⟩

/-- **Conversions.** Both conversions of a text do as they should exactly if it is no address of another network, and
no cash address in capitals. -/
theorem converts_iff (codec : AddressCodec) (d : AddressDecoder) (hd : d.Lawful) (hc : ReadBack codec d)
    (network : Network) (hn : network.isBitcoinCash = true) (s : Str) :
    Converts codec d network s ↔ OfNetwork codec d network s := by
  constructor
  · exact ofNetwork_of_converts hn hd hc
  · rintro ⟨hbase58, hcash⟩
    rcases hs : d.fromCashAddress s with e | ⟨prefix', type, hash⟩
    · rcases hb : d.fromBase58Check s with e' | ⟨version, hash⟩
      · exact converts_of_error hb hs
      · exact converts_of_base58 hn hd hc hb (hbase58 version hash hb)
    · obtain ⟨hown, hs'⟩ := hcash prefix' type hash hs
      exact converts_of_cash hn hd hc hs hown hs'

end Conversions

/-! ## Addresses of both networks -/

theorem renamed_readBack : ReadBack renamedCodec renamedDecoder where
  base58 hash version := by
    unfold renamedCodec renamedDecoder
    dsimp only
    rw [Equiv.symm_apply_apply, readPlainBase58_plainBase58 hash.property]
  base58_unique s version hash h := by
    unfold renamedDecoder at h
    dsimp only at h
    split at h <;> cases h
    next hr =>
      unfold renamedCodec
      dsimp only
      rw [← (readPlainBase58_eq_some hr).1, Equiv.apply_symm_apply]
  cash hash type ht network prefix' _ := by
    unfold renamedCodec renamedDecoder
    dsimp only
    rw [Equiv.symm_apply_apply, readPlainCash_plainCash hash.property ht]

theorem own_cash_address_converts :
    Converts renamedCodec renamedDecoder .bitcoincash "bitcoincash:qpm2qsznhks23z7629mms6s4cwef74vcwvy22gdx6a" :=
  (converts_iff renamedCodec renamedDecoder renamedDecoder_lawful renamed_readBack .bitcoincash rfl _).mpr <| by
    have hb : renamedDecoder.fromBase58Check "bitcoincash:qpm2qsznhks23z7629mms6s4cwef74vcwvy22gdx6a".toList =
        .error ⟨"Error", "Non-base58 character"⟩ := by decide +kernel
    have hs : renamedDecoder.fromCashAddress "bitcoincash:qpm2qsznhks23z7629mms6s4cwef74vcwvy22gdx6a".toList =
        .ok ("bitcoincash".toList, P2PKH, knownHash) := by decide +kernel
    refine ⟨fun version hash h => ?_, fun prefix' type hash h => ?_⟩
    · cases hb.symm.trans h
    · cases hs.symm.trans h
      exact ⟨rfl, by decide +kernel⟩

/-- A script address of the other network is taken for a legacy address of this one. -/
theorem testnet_address_kept :
    ¬∀ (codec : AddressCodec) (d : AddressDecoder), d.Lawful → ReadBack codec d →
      ∀ network : Network, network.isBitcoinCash = true → ∀ s, Converts codec d network s := by
  intro h
  have hs : renamedDecoder.fromBase58Check "2N44ThNe8NXHyv4bsX8AoVCXquBRW94Ls7W".toList = .ok (0xc4, knownHash) := by
    decide +kernel
  have hc := h renamedCodec renamedDecoder renamedDecoder_lawful renamed_readBack .bitcoincash rfl
    "2N44ThNe8NXHyv4bsX8AoVCXquBRW94Ls7W".toList
  obtain ⟨type, hash, hl, -⟩ := hc.legacy _ (legacy_of_base58 rfl hs)
  have hv := version_of_isLegacy hs hl
  exact absurd hv (by decide)

end CashAddress

end JsSdk
