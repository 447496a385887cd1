import Blocktrail.JsSdk.NewAddress
import Blocktrail.JsSdk.Sample

/-! # What a checked address is worth

A checked address is the one of the path that the server answered. That the path lies under the request is not
checked.
-/

open Text Throwing Bitcoin

namespace JsSdk

namespace NewAddress

variable {Node : Type} {p : Platform Node} {d : AddressDecoder}

/-! ## What a call leaves alone -/

/-- The worlds differ in the cached account keys alone. -/
def SameButKeys (s t : World Node) : Prop :=
  ∃ keys, t = { s with wallet := { s.wallet with primaryPublicKeys := keys } }

theorem SameButKeys.refl (s : World Node) : SameButKeys s s := ⟨s.wallet.primaryPublicKeys, rfl⟩

theorem getPrimaryPublicKey_frame (p : Platform Node) (path : Str) (s : World Node) :
    SameButKeys s (call (getPrimaryPublicKey p path) s).2 := by
  unfold getPrimaryPublicKey
  rcases hk : keyIndexOf (replaceFirst 'm' "M" path) with e | keyIndex
  · rw [call_orRaise_bind_error hk]
    exact .refl s
  rw [call_orRaise_bind_ok hk, call_get_bind]
  dsimp only
  rcases s.wallet.primaryPublicKeys keyIndex with _ | primaryPublicKey
  · rcases s.wallet.primaryPrivateKey with _ | primaryPrivateKey
    · exact .refl s
    · rcases hd : deriveByPath p.hd primaryPrivateKey (keyPathOf keyIndex) "m" with e | key
      · rw [call_orRaise_bind_error hd]
        exact .refl s
      · rw [call_orRaise_bind_ok hd, call_modifyWallet_bind rfl, call_orRaise]
        exact ⟨_, rfl⟩
  · dsimp only
    rw [call_orRaise]
    exact .refl s

theorem getWalletScriptByPath_frame (p : Platform Node) (path : Str) (s : World Node) :
    SameButKeys s (call (getWalletScriptByPath p path) s).2 := by
  have hframe := getPrimaryPublicKey_frame p path s
  unfold getWalletScriptByPath
  rcases hc : call (getPrimaryPublicKey p path) s with ⟨e | key, t⟩
  · rw [call_bind_error hc]
    rw [hc] at hframe
    exact hframe
  · rw [call_bind_ok hc, call_get_bind]
    rw [hc] at hframe
    dsimp only
    simp only [orRaise_bind, call_orRaise]
    exact hframe

theorem scriptsOfKeys_address {network : Network} {cash witness : Bool} {keys : List PubKey} {scripts : WalletScripts}
    (h : scriptsOfKeys p network cash witness keys = .ok scripts) :
    fromOutputScript p.codec scripts.scriptPubKey network cash = .ok scripts.address := by
  obtain ⟨address, haddr, h⟩ := exists_of_bind_ok h
  obtain rfl := Except.ok.inj h
  exact haddr

theorem address_of_scripts {path : Str} {s : World Node} {scripts : WalletScripts}
    (h : (call (getWalletScriptByPath p path) s).1 = .ok scripts) :
    fromOutputScript p.codec scripts.scriptPubKey s.wallet.network s.wallet.useNewCashAddr = .ok scripts.address := by
  have hframe := getPrimaryPublicKey_frame p path s
  unfold getWalletScriptByPath at h
  rcases hc : call (getPrimaryPublicKey p path) s with ⟨e | key, t⟩
  · rw [call_bind_error hc] at h
    cases h
  · rw [hc] at hframe
    obtain ⟨keys, rfl⟩ := hframe
    rw [call_bind_ok hc, call_get_bind] at h
    dsimp only at h
    simp only [orRaise_bind, call_orRaise] at h
    obtain ⟨_, -, h⟩ := exists_of_bind_ok h
    obtain ⟨_, -, h⟩ := exists_of_bind_ok h
    exact scriptsOfKeys_address h

/-! ## One call -/

theorem checkedAddress_ok {w : Wallet Node} {verifyAddress fromServer address : Str} {decoded : Decoded}
    (h : checkedAddress d w verifyAddress fromServer decoded = .ok address) : address = verifyAddress := by
  obtain ⟨addressFromServer, -, h⟩ := exists_of_bind_ok h
  split at h
  · cases h
  · next hsame =>
    rw [not_not] at hsame
    obtain rfl := Except.ok.inj h
    exact hsame.symm

/-- The call is answered with a legacy address, on a wallet with cash addresses. -/
def legacyAnswer (d : AddressDecoder) (w : Wallet Node) (c : Call) : Bool :=
  match answerTo d w c with
  | .ok (_, decoded) => isLegacy w decoded
  | .error _ => false

/-- The address was checked: it is the one of the output script of the path that the server answered. -/
structure Verified (p : Platform Node) (s : State Node) (c : Call) (address path : Str) : Prop where
  answered : ∃ chain fromServer, chainOf s.world.wallet c.chainIdx = .ok chain ∧
    c.getNewDerivation (requestPath s.world.wallet.keyIndex chain) = .ok ⟨path, fromServer⟩
  encodes : ∃ scripts, (call (getWalletScriptByPath p path) s.world).1 = .ok scripts ∧
    fromOutputScript p.codec scripts.scriptPubKey s.world.wallet.network s.world.wallet.useNewCashAddr = .ok address

/-- What one call does: the check is on where it was on or where the answer is a legacy address. -/
structure CallSpec (p : Platform Node) (d : AddressDecoder) (s : State Node) (c : Call) : Prop where
  frame : SameButKeys s.world (step p d s c).world
  bypass : (step p d s c).bypassNewAddressCheck =
    (s.bypassNewAddressCheck && !legacyAnswer d s.world.wallet c)
  verified : ∀ address path, (call (getNewAddress p d c) s).1 = .ok (address, path) →
    s.bypassNewAddressCheck = false ∨ legacyAnswer d s.world.wallet c = true → Verified p s c address path

theorem answerTo_ok {w : Wallet Node} {c : Call} {newDerivation : NewDerivation} {decoded : Decoded}
    (h : answerTo d w c = .ok (newDerivation, decoded)) :
    ∃ chain, chainOf w c.chainIdx = .ok chain ∧
      c.getNewDerivation (requestPath w.keyIndex chain) = .ok newDerivation := by
  obtain ⟨chain, hchain, h⟩ := exists_of_bind_ok h
  obtain ⟨answer, hanswer, h⟩ := exists_of_bind_ok h
  split at h
  · obtain ⟨rfl, -⟩ := Prod.mk.inj (Except.ok.inj h)
    exact ⟨chain, hchain, hanswer⟩
  · cases h

theorem call_liftBypass (legacy : Bool) (s : State Node) :
    call (liftBypass legacy) s = (.ok (), { s with bypassNewAddressCheck := s.bypassNewAddressCheck && !legacy }) := by
  cases legacy
  · simp [liftBypass]
  · simp [liftBypass]

theorem call_onWorld {α : Type} (m : Method Node α) (s : State Node) :
    call (onWorld m) s = ((call m s.world).1, { s with world := (call m s.world).2 }) := rfl

theorem call_getNewAddress {s : State Node} {c : Call} {newDerivation : NewDerivation} {decoded : Decoded}
    (h : answerTo d s.world.wallet c = .ok (newDerivation, decoded)) :
    call (getNewAddress p d c) s =
      let t : State Node :=
        { s with bypassNewAddressCheck := s.bypassNewAddressCheck && !isLegacy s.world.wallet decoded }
      if t.bypassNewAddressCheck then (.ok (newDerivation.address, newDerivation.path), t)
      else
        ((call (getWalletScriptByPath p newDerivation.path) s.world).1 >>= fun scripts =>
          checkedAddress d s.world.wallet scripts.address newDerivation.address decoded >>= fun address =>
            .ok (address, newDerivation.path),
          { t with world := (call (getWalletScriptByPath p newDerivation.path) s.world).2 }) := by
  unfold getNewAddress
  rw [call_get_bind]
  dsimp only
  rw [call_orRaise_bind_ok h]
  dsimp only
  rw [call_bind_ok (call_liftBypass _ s), call_get_bind]
  split
  · rfl
  · rw [call_bind, call_onWorld]
    rcases (call (getWalletScriptByPath p newDerivation.path) s.world).1 with e | scripts
    · rfl
    · dsimp only
      rw [ok_bind]
      rcases checkedAddress d s.world.wallet scripts.address newDerivation.address decoded with e | address
      · rw [call_orRaise_bind_error rfl]
        rfl
      · rw [call_orRaise_bind_ok rfl]
        rfl

theorem getNewAddress_spec (p : Platform Node) (d : AddressDecoder) (s : State Node) (c : Call) : CallSpec p d s c := by
  rcases h : answerTo d s.world.wallet c with e | ⟨newDerivation, decoded⟩
  · have hcall : call (getNewAddress p d c) s = (.error e, s) := by
      unfold getNewAddress
      rw [call_get_bind]
      exact call_orRaise_bind_error h
    have hstep : step p d s c = s := congrArg Prod.snd hcall
    refine ⟨⟨s.world.wallet.primaryPublicKeys, by rw [hstep]⟩, ?_, ?_⟩
    · rw [hstep, legacyAnswer, h]
      simp
    · intro address path hok
      rw [hcall] at hok
      cases hok
  · have hlegacy : legacyAnswer d s.world.wallet c = isLegacy s.world.wallet decoded := by
      rw [legacyAnswer, h]
    have hcall := call_getNewAddress (p := p) h
    rw [← hlegacy] at hcall
    dsimp only at hcall
    by_cases hbypass : (s.bypassNewAddressCheck && !legacyAnswer d s.world.wallet c) = true
    · rw [if_pos hbypass] at hcall
      have hstep : step p d s c =
          { s with bypassNewAddressCheck := s.bypassNewAddressCheck && !legacyAnswer d s.world.wallet c } :=
        congrArg Prod.snd hcall
      refine ⟨⟨s.world.wallet.primaryPublicKeys, by rw [hstep]⟩, by rw [hstep], ?_⟩
      · intro address path _ hcheck
        rcases hcheck with hcheck | hcheck
        · rw [hcheck] at hbypass
          cases hbypass
        · rw [hcheck, Bool.not_true, Bool.and_false] at hbypass
          cases hbypass
    · rw [if_neg hbypass] at hcall
      have hstep : step p d s c =
          { world := (call (getWalletScriptByPath p newDerivation.path) s.world).2
            bypassNewAddressCheck := s.bypassNewAddressCheck && !legacyAnswer d s.world.wallet c } :=
        congrArg Prod.snd hcall
      refine ⟨?_, by rw [hstep], ?_⟩
      · rw [hstep]
        exact getWalletScriptByPath_frame ..
      · intro address path hok _
        rw [hcall] at hok
        obtain ⟨scripts, hscripts, hok⟩ := exists_of_bind_ok hok
        obtain ⟨verified, hverified, hok⟩ := exists_of_bind_ok hok
        obtain ⟨rfl, rfl⟩ := Prod.mk.inj (Except.ok.inj hok)
        obtain ⟨chain, hchain, hanswer⟩ := answerTo_ok h
        refine ⟨⟨chain, newDerivation.address, hchain, hanswer⟩, scripts, hscripts, ?_⟩
        rw [checkedAddress_ok hverified]
        exact address_of_scripts hscripts

/-! ## Runs of calls -/

theorem SameButKeys.trans {s t u : World Node} (h : SameButKeys s t) (k : SameButKeys t u) : SameButKeys s u := by
  obtain ⟨keys, rfl⟩ := h
  obtain ⟨keys', rfl⟩ := k
  exact ⟨keys', rfl⟩

theorem answerTo_frame {s t : World Node} (h : SameButKeys s t) (d : AddressDecoder) (c : Call) :
    answerTo d t.wallet c = answerTo d s.wallet c := by
  obtain ⟨keys, rfl⟩ := h
  rcases c with ⟨_ | _ | _, _⟩
  · rfl
  · rfl
  · rfl

theorem legacyAnswer_frame {s t : World Node} (h : SameButKeys s t) (d : AddressDecoder) (c : Call) :
    legacyAnswer d t.wallet c = legacyAnswer d s.wallet c := by
  rw [legacyAnswer, answerTo_frame h, legacyAnswer]
  obtain ⟨keys, rfl⟩ := h
  rcases answerTo d s.wallet c with e | ⟨_, _ | _ | _⟩
  · rfl
  · rfl
  · rfl
  · rfl

/-- A run of calls lifts the bypass by its legacy answers and by nothing else. -/
theorem bypass_after_run (p : Platform Node) (d : AddressDecoder) (s : State Node) (calls : List Call) :
    SameButKeys s.world (calls.foldl (step p d) s).world ∧
      (calls.foldl (step p d) s).bypassNewAddressCheck =
        (s.bypassNewAddressCheck && !calls.any (legacyAnswer d s.world.wallet)) := by
  induction calls generalizing s with
  | nil => exact ⟨.refl _, by simp⟩
  | cons c calls ih =>
    obtain ⟨hframe, hbypass⟩ := ih (step p d s c)
    have hspec := getNewAddress_spec p d s c
    have hsame : ∀ c', legacyAnswer d (step p d s c).world.wallet c' = legacyAnswer d s.world.wallet c' :=
      legacyAnswer_frame hspec.frame d
    refine ⟨hspec.frame.trans hframe, ?_⟩
    rw [List.foldl_cons, hbypass, hspec.bypass, funext hsame, List.any_cons, Bool.not_or, Bool.and_assoc]

/-- **Checked addresses.** After every run of calls, a call that is checked returns the address of the path that the
server answered, and the check is on where it was on from the start or a legacy address has been answered. -/
theorem addresses_checked (p : Platform Node) (d : AddressDecoder) (s : State Node) (calls : List Call) (c : Call) :
    let t := calls.foldl (step p d) s
    (t.bypassNewAddressCheck = false ↔
      s.bypassNewAddressCheck = false ∨ ∃ c' ∈ calls, legacyAnswer d s.world.wallet c' = true) ∧
    ∀ address path, (call (getNewAddress p d c) t).1 = .ok (address, path) →
      t.bypassNewAddressCheck = false ∨ legacyAnswer d t.world.wallet c = true → Verified p t c address path := by
  intro t
  have hspec := getNewAddress_spec p d t c
  refine ⟨?_, hspec.verified⟩
  rw [(bypass_after_run p d s calls).2, Bool.and_eq_false_iff, Bool.not_eq_false', List.any_eq_true]

/-! ## What is not promised -/

/-- The server answers the path `M/0'/1/0` to every request. -/
def otherChainCall (address : Str) : Call where
  chainIdx := .integer 0
  getNewDerivation _ := .ok ⟨"M/0'/1/0", address⟩

/-- The sample wallet, and its twin with cash addresses. -/
def sampleState : State SampleNode := ⟨sampleCreatedWorld, false⟩

def sampleCashState : State SampleNode where
  world := { sampleCreatedWorld with
    wallet := { sampleCreatedWorld.wallet with network := .bitcoincash, useNewCashAddr := true } }
  bypassNewAddressCheck := true

/-- The address of `M/0'/1/0` for the sample wallet. -/
def sampleAddress : Str :=
  match (call (getWalletScriptByPath samplePlatform "M/0'/1/0") sampleState.world).1 with
  | .ok scripts => scripts.address
  | .error _ => []

/-- A checked call for the chain 0 returns the address of another chain, and the bypass that the caller chose is gone
after a legacy answer. -/
theorem other_chain_returned :
    (call (getNewAddress samplePlatform sampleDecoder (otherChainCall sampleAddress)) sampleState).1 =
        .ok (sampleAddress, "M/0'/1/0") ∧
      requestPath 0 0 = "M/0'/0" ∧ ¬ ("M/0'/0/".toList <+: "M/0'/1/0".toList) ∧
      sampleCashState.bypassNewAddressCheck = true ∧
      (step samplePlatform sampleDecoder sampleCashState (otherChainCall sampleAddress)).bypassNewAddressCheck = false := by
  decide +kernel

end NewAddress

end JsSdk
