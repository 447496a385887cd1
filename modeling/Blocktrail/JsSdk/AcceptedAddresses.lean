import Blocktrail.Bitcoin.SampleAddresses
import Blocktrail.JsSdk.PayTo
import Blocktrail.Lib.Throwing

/-! # Accepted addresses and payments -/

open Text Throwing Bitcoin

namespace JsSdk

namespace AcceptedAddresses

/-- What a reader made of the text, of the network. -/
def Reads (d : AddressDecoder) (s : Str) (network : Network) (allowCashAddress : Bool) : Decoded → Prop
  | .bech32 prefix' version data => network.bech32 = some prefix' ∧ d.fromBech32 s = .ok (prefix', version, data)
  | .cashaddr prefix' version hash =>
    allowCashAddress = true ∧ network.cashAddrPrefix = some prefix' ∧ d.fromCashAddress s = .ok (prefix', version, hash)
  | .base58 version hash =>
    (version = network.pubKeyHash ∨ version = network.scriptHash) ∧ d.fromBase58Check s = .ok (version, hash)

/-- `pay` is one payment of the value to the text, in any of its forms. -/
def IsPayment (pay : Pay) (s : Str) (value : PayValue) : Prop := readAll pay = .ok [.ok ⟨.string s, .undefined, value⟩]

def IsPayable (value : PayValue) (z : Int) : Prop :=
  DUST < z ∧ ∃ text, value.toString = .ok text ∧ isInteger text = true ∧ parseIntOf text = .int z

/-- What is accepted and what can be paid to are the same, of every network. -/
structure Agree (d : AddressDecoder) (s : Str) : Prop where
  accepted_iff : ∀ network allowCashAddress pay value z, IsPayment pay s value → IsPayable value z →
    ((∃ decoded, getAddressAndType d s network allowCashAddress = .ok decoded) ↔
      ∃ outputs, convertPayToOutputs d pay network allowCashAddress = .ok outputs)
  pays : ∀ network allowCashAddress pay value z decoded outputs, IsPayment pay s value → IsPayable value z →
    getAddressAndType d s network allowCashAddress = .ok decoded →
    convertPayToOutputs d pay network allowCashAddress = .ok outputs →
    ∃ script, scriptOf network decoded = some script ∧ outputs = [⟨.string (Hex.encode script), .int z⟩]
  carries : ∀ network allowCashAddress decoded, getAddressAndType d s network allowCashAddress = .ok decoded →
    Reads d s network allowCashAddress decoded
  one_destination : ∀ network allowCashAddress decoded network' allowCashAddress' decoded',
    getAddressAndType d s network allowCashAddress = .ok decoded →
    getAddressAndType d s network' allowCashAddress' = .ok decoded' →
    scriptOf network decoded = scriptOf network' decoded'

/-- A text that is read as bech32 of a network is one that has a script. -/
def HasWitnessScript (d : AddressDecoder) (s : Str) : Prop :=
  ∀ (network : Network) prefix' version data, network.bech32 = some prefix' →
    d.fromBech32 s = .ok (prefix', version, data) →
      version = 0 ∧ (data.length = 20 ∨ data.length = 32) ∧ ∃ e, d.fromBase58Check s = .error e

/-! ## Readers -/

section Readers

variable {d : AddressDecoder} {s : Str} {network : Network} {allowCashAddress : Bool} {decoded : Decoded}

theorem found_of_readAddress {P : Decoded → Prop} {enabled : Bool} {reader : Except JsError (Except JsError Decoded)}
    {found found' : Option Decoded × Option JsError} (h : readAddress enabled reader found = .ok found')
    (hf : ∀ addr, found.1 = some addr → P addr) (hr : enabled = true → ∀ addr, reader = .ok (.ok addr) → P addr) :
    ∀ addr, found'.1 = some addr → P addr := by
  unfold readAddress at h
  split at h
  next he =>
    simp only [Bool.and_eq_true] at he
    split at h
    next addr =>
      cases h
      intro addr' ha
      cases ha
      exact hr he.2 addr rfl
    next =>
      cases h
      intro addr' ha
      cases ha
    next => cases h
  next =>
    cases h
    exact hf

theorem reads_bech32 (h : readBech32Address d s network = .ok (.ok decoded)) :
    Reads d s network allowCashAddress decoded := by
  unfold readBech32Address at h
  split at h
  next hr =>
    split_ifs at h with hp
    cases h
    exact ⟨by simpa using hp, hr⟩
  next => cases h

theorem reads_cash (ha : allowCashAddress = true) (h : readCashAddress d s network = .ok (.ok decoded)) :
    Reads d s network allowCashAddress decoded := by
  unfold readCashAddress at h
  split at h
  next hr =>
    split_ifs at h with hp
    cases h
    exact ⟨ha, by simpa using hp, hr⟩
  next => cases h

theorem reads_base58 (h : readBase58Address d s network = .ok (.ok decoded)) :
    Reads d s network allowCashAddress decoded := by
  unfold readBase58Address at h
  split at h
  next hr =>
    split_ifs at h with hv
    cases h
    exact ⟨by simpa [or_iff_not_imp_left] using hv, hr⟩
  next => cases h

theorem reads_of_accepted (h : getAddressAndType d s network allowCashAddress = .ok decoded) :
    Reads d s network allowCashAddress decoded := by
  unfold getAddressAndType at h
  obtain ⟨found, h1, h⟩ := exists_of_bind_ok h
  obtain ⟨found', h2, h⟩ := exists_of_bind_ok h
  obtain ⟨found'', h3, h⟩ := exists_of_bind_ok h
  have hf := found_of_readAddress (P := Reads d s network allowCashAddress) h1 (by simp) fun _ _ => reads_bech32
  have hf' := found_of_readAddress h2 hf fun he _ => reads_cash (by simp at he; exact he.2)
  have hf'' := found_of_readAddress h3 hf' fun _ _ => reads_base58
  split at h
  next =>
    cases h
    exact hf'' _ rfl
  next => cases h
  next => cases h

theorem accepted_of_bech32 {prefix' : Str} {version : Nat} {data : Bytes} (hn : network.bech32 = some prefix')
    (h : d.fromBech32 s = .ok (prefix', version, data)) :
    getAddressAndType d s network allowCashAddress = .ok (.bech32 prefix' version data) := by
  have hread : readBech32Address d s network = .ok (.ok (.bech32 prefix' version data)) := by
    rw [readBech32Address, h]
    dsimp only
    rw [if_neg (by rw [hn]; simp)]
  have hsegwit : network = .bitcoin ∨ network = .testnet := by
    cases network with
    | bitcoin => exact Or.inl rfl
    | testnet => exact Or.inr rfl
    | bitcoincash => cases hn
    | bitcoincashtestnet => cases hn
  simp [getAddressAndType, readAddress, hread, hsegwit, Throwing.ok_bind]

end Readers

/-! ## Scripts -/

section Scripts

variable {d : AddressDecoder} {s : Str} {network : Network} {allowCashAddress : Bool} {decoded : Decoded}
  {script : Bytes}

theorem head_of_base58Script {version : Byte} {hash : Bytes} (h : base58Script network version hash = some script) :
    script.head? = some OP_DUP ∨ script.head? = some OP_HASH160 := by
  unfold base58Script hashOutput at h
  split_ifs at h
  · cases h
    exact Or.inl rfl
  · cases h
    exact Or.inr rfl

theorem head_of_witnessScript {version : Nat} {data : Bytes} (h : witnessScript version data = some script) :
    script.head? = some OP_0 := by
  unfold witnessScript hashOutput at h
  split_ifs at h
  · cases h
    rfl
  · cases h
    rfl

theorem witnessScript_isSome_iff {version : Nat} {data : Bytes} :
    (∃ script, witnessScript version data = some script) ↔ version = 0 ∧ (data.length = 20 ∨ data.length = 32) := by
  unfold witnessScript hashOutput
  split_ifs with hv h20 h32
  · simp [hv, h20]
  · simp [hv, h32]
  · simp [hv, h20, h32]
  · simp [hv]

theorem exists_cashScript {version : Str} {hash : Bytes} (hl : hash.length = 20)
    (hv : version = P2PKH ∨ version = P2SH) : ∃ script, cashScript version hash = some script := by
  rcases hv with rfl | rfl
  · exact ⟨_, by rw [cashScript, if_pos rfl, hashOutput, dif_pos hl]⟩
  · exact ⟨_, by rw [cashScript, if_neg P2SH_ne_P2PKH, if_pos rfl, hashOutput, dif_pos hl]⟩

theorem exists_base58Script {version : Byte} {hash : Bytes} (hl : hash.length = 20)
    (hv : version = network.pubKeyHash ∨ version = network.scriptHash) :
    ∃ script, base58Script network version hash = some script := by
  unfold base58Script hashOutput
  rw [dif_pos hl, dif_pos hl]
  split_ifs with h h'
  · exact ⟨_, rfl⟩
  · exact ⟨_, rfl⟩
  · exact absurd hv (by simp [h, h'])

theorem no_cashAddrPrefix {prefix' : Str} (h : network.bech32 = some prefix') : network.cashAddrPrefix = none := by
  cases network with
  | bitcoin => rfl
  | testnet => rfl
  | bitcoincash => cases h
  | bitcoincashtestnet => cases h

/-- The readers of `toOutputScript` find what `getAddressAndType` found. -/
theorem toOutputScript_of_reads (hd : d.Lawful) (hw : HasWitnessScript d s)
    (h : Reads d s network allowCashAddress decoded) :
    ∃ script, toOutputScript d s network allowCashAddress = .ok script ∧ scriptOf network decoded = some script := by
  cases decoded with
  | bech32 prefix' version data =>
    obtain ⟨hn, hr⟩ := h
    obtain ⟨hv, hl, e, hb⟩ := hw network prefix' version data hn hr
    obtain ⟨script, hs⟩ := witnessScript_isSome_iff.mpr ⟨hv, hl⟩
    refine ⟨script, ?_, hs⟩
    simp [toOutputScript, bech32OutputScript, no_cashAddrPrefix hn, hb, hn, hr, hs, Except.toOption]
  | cashaddr prefix' version hash =>
    obtain ⟨ha, hn, hr⟩ := h
    obtain ⟨hl, hv⟩ := hd.cash s prefix' version hash hr
    obtain ⟨script, hs⟩ := exists_cashScript hl hv
    refine ⟨script, ?_, hs⟩
    simp [toOutputScript, ha, hn, hr, hs, Except.toOption]
  | base58 version hash =>
    obtain ⟨hv, hr⟩ := h
    obtain ⟨script, hs⟩ := exists_base58Script (hd.length_base58 s version hash hr) hv
    have hc : (d.fromCashAddress s).toOption = none := by
      cases hc : d.fromCashAddress s with
      | error e => rfl
      | ok r =>
        obtain ⟨e, he⟩ := hd.cash_not_base58 s r hc
        cases he.symm.trans hr
    have hb : (d.fromBase58Check s).toOption = some (version, hash) := by rw [hr]; rfl
    refine ⟨script, ?_, hs⟩
    simp [toOutputScript, hc, hb, hs]

/-- A text is paid to by the script of its witness program only where it is no base58 text. -/
theorem not_base58_of_witnessScript {prefix' : Str} {version : Nat} {data : Bytes}
    (hn : network.bech32 = some prefix') (h : toOutputScript d s network allowCashAddress = .ok script)
    (hs : witnessScript version data = some script) : ∃ e, d.fromBase58Check s = .error e := by
  rcases hb : d.fromBase58Check s with e | ⟨version', hash⟩
  · exact ⟨e, rfl⟩
  · rcases hs' : base58Script network version' hash with _ | script'
    · simp [toOutputScript, no_cashAddrPrefix hn, hb, hs', Except.toOption] at h
    · have he : script' = script := by
        simpa [toOutputScript, no_cashAddrPrefix hn, hb, hs', Except.toOption] using h
      have hhead := head_of_witnessScript hs
      rw [← he] at hhead
      rcases head_of_base58Script hs' with h' | h' <;> exact absurd (hhead.symm.trans h') (by decide)

theorem base58Script_congr {network' : Network} {version : Byte} {hash : Bytes}
    (hv : version = network.pubKeyHash ∨ version = network.scriptHash)
    (hv' : version = network'.pubKeyHash ∨ version = network'.scriptHash) :
    base58Script network version hash = base58Script network' version hash := by
  have hkinds : ∀ n n' : Network, n.pubKeyHash ≠ n'.scriptHash := by
    intro n n'
    cases n <;> cases n' <;> decide
  unfold base58Script
  rcases hv with rfl | rfl
  · rcases hv' with h | h
    · rw [if_pos rfl, if_pos h]
    · exact absurd h (hkinds _ _)
  · rcases hv' with h | h
    · exact absurd h.symm (hkinds _ _)
    · rw [if_neg (Ne.symm (hkinds _ _)), if_pos rfl, if_neg (Ne.symm (h ▸ hkinds _ _)), if_pos h]

theorem scriptOf_unique (hd : d.Lawful) (hw : HasWitnessScript d s) {network' : Network} {allowCashAddress' : Bool}
    {decoded' : Decoded} (h : Reads d s network allowCashAddress decoded)
    (h' : Reads d s network' allowCashAddress' decoded') : scriptOf network decoded = scriptOf network' decoded' := by
  cases decoded with
  | bech32 prefix' version data =>
    obtain ⟨hn, hr⟩ := h
    cases decoded' with
    | bech32 =>
      cases hr.symm.trans h'.2
      rfl
    | cashaddr => exact absurd hn (hd.cash_not_bech32 s _ _ h'.2.2 ⟨network', h'.2.1⟩ _ _ hr network)
    | base58 =>
      obtain ⟨-, -, e, he⟩ := hw network prefix' version data hn hr
      cases he.symm.trans h'.2
  | cashaddr prefix' version hash =>
    obtain ⟨-, hn, hr⟩ := h
    cases decoded' with
    | bech32 => exact absurd h'.1 (hd.cash_not_bech32 s _ _ hr ⟨network, hn⟩ _ _ h'.2 network')
    | cashaddr =>
      cases hr.symm.trans h'.2.2
      rfl
    | base58 =>
      obtain ⟨e, he⟩ := hd.cash_not_base58 s _ hr
      cases he.symm.trans h'.2
  | base58 version hash =>
    obtain ⟨hv, hr⟩ := h
    cases decoded' with
    | bech32 prefix' version' data' =>
      obtain ⟨-, -, e, he⟩ := hw network' prefix' version' data' h'.1 h'.2
      cases he.symm.trans hr
    | cashaddr =>
      obtain ⟨e, he⟩ := hd.cash_not_base58 s _ h'.2.2
      cases he.symm.trans hr
    | base58 =>
      obtain ⟨hv', hr'⟩ := h'
      cases hr.symm.trans hr'
      exact base58Script_congr hv hv'

end Scripts

/-! ## Payments -/

section Payments

variable {d : AddressDecoder} {s : Str} {network : Network} {allowCashAddress : Bool} {pay : Pay} {value : PayValue}
  {z : Int}

theorem convert_of_payment (hp : IsPayment pay s value) :
    convertPayToOutputs d pay network allowCashAddress = do
      let output ← toOutput d network allowCashAddress ⟨.string s, .undefined, value⟩
      return [output] := by
  rw [convertPayToOutputs, hp, ok_bind, List.mapM_cons, List.mapM_nil, ok_bind]
  rfl

theorem checkOutput_of_dust_lt (scriptPubKey : Str) (hz : DUST < z) :
    checkOutput (.string scriptPubKey) (.int z) = .ok () := by
  have h0 : z ≠ 0 := by
    unfold DUST at hz
    omega
  unfold checkOutput isNoReturn
  rw [ok_bind]
  split
  · rw [checkValue, if_neg h0, if_neg (by omega)]
  · rfl

theorem convert_of_script (hp : IsPayment pay s value) (hv : IsPayable value z) {decoded : Decoded} {script : Bytes}
    (hg : getAddressAndType d s network allowCashAddress = .ok decoded)
    (hs : toOutputScript d s network allowCashAddress = .ok script) :
    convertPayToOutputs d pay network allowCashAddress = .ok [⟨.string (Hex.encode script), .int z⟩] := by
  obtain ⟨hz, text, htext, hinteger, hint⟩ := hv
  have hcheck : checkInteger text = .ok () := by rw [checkInteger, if_pos hinteger]
  rw [convert_of_payment hp, toOutput, htext, ok_bind, hcheck, ok_bind, hint, resolveScript]
  dsimp only
  rw [hg, ok_bind, hs]
  dsimp only
  rw [ok_bind, checkOutput_of_dust_lt _ hz]
  rfl

theorem script_of_convert (hp : IsPayment pay s value) {outputs : List PayOutput}
    (h : convertPayToOutputs d pay network allowCashAddress = .ok outputs) :
    ∃ decoded script, getAddressAndType d s network allowCashAddress = .ok decoded ∧
      toOutputScript d s network allowCashAddress = .ok script := by
  rw [convert_of_payment hp] at h
  obtain ⟨output, ho, -⟩ := exists_of_bind_ok h
  unfold toOutput at ho
  obtain ⟨text, -, ho⟩ := exists_of_bind_ok ho
  obtain ⟨-, -, ho⟩ := exists_of_bind_ok ho
  obtain ⟨scriptPubKey, hr, -⟩ := exists_of_bind_ok ho
  unfold resolveScript at hr
  dsimp only at hr
  split at hr
  next script hscript =>
    obtain ⟨decoded, hg, hs⟩ := exists_of_bind_ok hscript
    exact ⟨decoded, script, hg, hs⟩
  next => cases hr

theorem isPayment_list (s : Str) (value : PayValue) : IsPayment (.list [.array [.string s, value]]) s value := rfl

theorem isPayable_leastValue : IsPayable (.printed "2731".toList) 2731 :=
  ⟨by decide, _, rfl, by decide, by decide⟩

end Payments

/-! ## Agreement -/

theorem hasWitnessScript_of_agree {d : AddressDecoder} {s : Str} (h : Agree d s) : HasWitnessScript d s := by
  intro network prefix' version data hn hr
  have hg : getAddressAndType d s network false = .ok (.bech32 prefix' version data) := accepted_of_bech32 hn hr
  have hp := isPayment_list s (.printed "2731".toList)
  obtain ⟨outputs, ho⟩ := (h.accepted_iff network false _ _ _ hp isPayable_leastValue).mp ⟨_, hg⟩
  obtain ⟨script, hs, heq⟩ := h.pays network false _ _ _ _ _ hp isPayable_leastValue hg ho
  obtain ⟨decoded, script', -, hs'⟩ := script_of_convert hp ho
  have hscript : script = script' := by
    have ho' := convert_of_script hp isPayable_leastValue hg hs'
    rw [ho, heq] at ho'
    simp only [Except.ok.injEq, List.cons.injEq, PayOutput.mk.injEq, PayValue.string.injEq, and_true] at ho'
    exact Hex.encode_injective ho'
  obtain ⟨hv, hl⟩ := witnessScript_isSome_iff.mp ⟨script, hs⟩
  exact ⟨hv, hl, not_base58_of_witnessScript hn hs' (hscript ▸ hs)⟩

/-- **Accepted addresses.** What is accepted and what is paid to agree exactly on the texts that, read as bech32 of
Bitcoin or its test network, have a script. -/
theorem agree_iff (d : AddressDecoder) (hd : d.Lawful) (s : Str) : Agree d s ↔ HasWitnessScript d s := by
  constructor
  · exact hasWitnessScript_of_agree
  · intro hw
    have hscript : ∀ network allowCashAddress decoded, getAddressAndType d s network allowCashAddress = .ok decoded →
        ∃ script, toOutputScript d s network allowCashAddress = .ok script ∧ scriptOf network decoded = some script :=
      fun network allowCashAddress decoded hg => toOutputScript_of_reads hd hw (reads_of_accepted hg)
    refine ⟨fun network allowCashAddress pay value z hp hv => ⟨?_, ?_⟩, ?_, fun _ _ _ hg => reads_of_accepted hg, ?_⟩
    · rintro ⟨decoded, hg⟩
      obtain ⟨script, hs, -⟩ := hscript network allowCashAddress decoded hg
      exact ⟨_, convert_of_script hp hv hg hs⟩
    · rintro ⟨outputs, ho⟩
      obtain ⟨decoded, script, hg, -⟩ := script_of_convert hp ho
      exact ⟨decoded, hg⟩
    · intro network allowCashAddress pay value z decoded outputs hp hv hg ho
      obtain ⟨script, hs, hd'⟩ := hscript network allowCashAddress decoded hg
      rw [convert_of_script hp hv hg hs] at ho
      cases ho
      exact ⟨script, hd', rfl⟩
    · intro network allowCashAddress decoded network' allowCashAddress' decoded' hg hg'
      exact scriptOf_unique hd hw (reads_of_accepted hg) (reads_of_accepted hg')

/-- A text in base58, and one in bech32 of version 0. -/
theorem legacy_address_agrees :
    Agree renamedDecoder "1BpEi6DfDAUFd7GtittLSdBeYJvcoaVggu" ∧ Agree renamedDecoder witnessV0 := by
  constructor
  · refine (agree_iff renamedDecoder renamedDecoder_lawful _).mpr ?_
    have hr : renamedDecoder.fromBech32 "1BpEi6DfDAUFd7GtittLSdBeYJvcoaVggu".toList =
        .error ⟨"Error", "1BpEi6DfDAUFd7GtittLSdBeYJvcoaVggu too short"⟩ := by decide +kernel
    intro network prefix' version data _ h
    cases hr.symm.trans h
  · refine (agree_iff renamedDecoder renamedDecoder_lawful _).mpr ?_
    have hr : renamedDecoder.fromBech32 witnessV0 = .ok ("bc".toList, 0, program40.take 20) := by decide +kernel
    have hb : renamedDecoder.fromBase58Check witnessV0 = .error ⟨"Error", "Non-base58 character"⟩ := by decide +kernel
    intro network prefix' version data _ h
    cases hr.symm.trans h
    exact ⟨rfl, Or.inl (by decide), _, hb⟩

/-- A witness address of version 1 is accepted, and cannot be paid to. -/
theorem version_one_accepted : ¬∀ d : AddressDecoder, d.Lawful → ∀ s, Agree d s := by
  intro h
  have hr : renamedDecoder.fromBech32 witnessV1 = .ok ("bc".toList, 1, program40) := by decide +kernel
  have hw := (hasWitnessScript_of_agree (h renamedDecoder renamedDecoder_lawful witnessV1)) .bitcoin _ _ _ rfl hr
  exact absurd hw.1 (by decide)

end AcceptedAddresses

end JsSdk
