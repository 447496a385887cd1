import Blocktrail.Lib.Callbacks
import Blocktrail.PhpSdk.Sample
import Blocktrail.PhpSdk.Unlock

/-! # When locking a PHP wallet can be relied on

An unlock assigns the fields of the wallet while it goes, and calls back without a `finally`.
-/

open Text Throwing Bitcoin Crypt Callbacks

namespace PhpSdk

namespace LockableWallet

variable {Node : Type} (p : UnlockPlatform Node) (w : LockableWallet)

/-! ## Credentials

What the options of an unlock lead to, without the wallet.
-/

/-- The key of the options. -/
def rootKey (o : UnlockOptions Node) : Except PhpError (BIP32Key Node) :=
  match w.data with
  | .v1 primaryMnemonic => WalletV1.keyOf p primaryMnemonic o
  | .v2 encryptedPrimarySeed encryptedSecret =>
    if o.primaryPrivateKey.truthy then WalletV2.keyOf p o.primaryPrivateKey
    else do
      WalletV2.guards encryptedSecret o.givenPassword
      let secret ← WalletV2.decrypt p encryptedSecret o.givenPassword
      WalletV2.checkDecrypted secret "Failed to decrypt secret with password"
      let primarySeed ← WalletV2.decrypt p encryptedPrimarySeed secret
      WalletV2.checkDecrypted primarySeed "Failed to decrypt primary seed with secret"
      let s ← WalletV2.toText p primarySeed
      createFromEntropy p (WalletV2.base64Decode s)
  | .v3 encryptedPrimarySeed encryptedSecret =>
    if o.primarySeed.isset then
      match o.primarySeed with
      | .buffer seed => createFromEntropy p seed
      | _ => .error ⟨"RuntimeException", "Primary Seed must be a BufferInterface"⟩
    else do
      let (encryptedPrimarySeed, encryptedSecret, password) ←
        WalletV3.guards encryptedPrimarySeed encryptedSecret o.givenPassword
      let secret ← V3Crypt.decrypt p.ciphers p.buffers encryptedSecret password
      let primarySeed ← V3Crypt.decrypt p.ciphers p.buffers encryptedPrimarySeed secret
      createFromEntropy p primarySeed

/-- What an unlock does before its first assignment. -/
def beforeWriting (o : UnlockOptions Node) : Except PhpError Unit :=
  match w.data with
  | .v1 primaryMnemonic => do
    let _ ← WalletV1.keyOf p primaryMnemonic o
    return ()
  | .v2 _ encryptedSecret =>
    if o.secret.isset || o.primarySeed.isset then .ok ()
    else if o.primaryPrivateKey.truthy then do
      let _ ← WalletV2.keyOf p o.primaryPrivateKey
      return ()
    else do
      WalletV2.guards encryptedSecret o.givenPassword
      let _ ← WalletV2.decrypt p encryptedSecret o.givenPassword
      return ()
  | .v3 encryptedPrimarySeed encryptedSecret =>
    if o.primarySeed.isset then
      match o.primarySeed with
      | .buffer _ => .ok ()
      | _ => .error ⟨"RuntimeException", "Primary Seed must be a BufferInterface"⟩
    else do
      let (_, encryptedSecret, password) ← WalletV3.guards encryptedPrimarySeed encryptedSecret o.givenPassword
      let _ ← V3Crypt.decrypt p.ciphers p.buffers encryptedSecret password
      return ()

/-- The credentials are right: their key has the checksum of the wallet. -/
def Right (o : UnlockOptions Node) : Prop := ∃ key, rootKey p w o = .ok key ∧ addressOf p key = w.checksum

/-- The call is refused while nothing is assigned yet. -/
def Refused (o : UnlockOptions Node) : Prop := ∃ e, beforeWriting p w o = .error e

/-! ## How a version takes its key -/

def takeKey (o : UnlockOptions Node) : Method Node (BIP32Key Node) :=
  match w.data with
  | .v1 primaryMnemonic => orRaise (WalletV1.keyOf p primaryMnemonic o)
  | .v2 encryptedPrimarySeed encryptedSecret => WalletV2.takeKey p encryptedPrimarySeed encryptedSecret o
  | .v3 encryptedPrimarySeed encryptedSecret => WalletV3.takeKey p encryptedPrimarySeed encryptedSecret o

variable {p w}

theorem unlock_eq (o : UnlockOptions Node) (fn : Option (Method Node Unit)) :
    w.unlock p o fn = unlockBy p (w.takeKey p o) w.lock w.checksum fn := by
  unfold unlock takeKey lock
  cases w.data with
  | v1 _ => rfl
  | v2 _ _ => rfl
  | v3 _ _ => rfl

theorem takeKey_ok {o : UnlockOptions Node} {key : BIP32Key Node} (h : rootKey p w o = .ok key) (s : Held Node) :
    (call (w.takeKey p o) s).1 = .ok key := by
  unfold rootKey at h
  unfold takeKey
  cases hd : w.data with
  | v1 primaryMnemonic =>
    rw [hd] at h
    rw [call_orRaise]
    exact h
  | v2 encryptedPrimarySeed encryptedSecret =>
    rw [hd] at h
    dsimp only at h ⊢
    rw [WalletV2.takeKey, call_bind_ok (call_modify ..)]
    by_cases hkey : o.primaryPrivateKey.truthy = true
    · rw [if_pos hkey] at h ⊢
      rw [call_orRaise]
      exact h
    · rw [if_neg hkey] at h ⊢
      obtain ⟨⟨⟩, hguards, h⟩ := exists_of_bind_ok h
      obtain ⟨secret, hsecret, h⟩ := exists_of_bind_ok h
      obtain ⟨⟨⟩, hsecretOk, h⟩ := exists_of_bind_ok h
      obtain ⟨primarySeed, hseed, h⟩ := exists_of_bind_ok h
      obtain ⟨⟨⟩, hseedOk, h⟩ := exists_of_bind_ok h
      rw [call_orRaise_bind_ok hguards, WalletV2.decryptKey, call_orRaise_bind_ok hsecret,
        call_bind_ok (call_modify ..), call_orRaise_bind_ok hsecretOk, call_orRaise_bind_ok hseed,
        call_bind_ok (call_modify ..), call_orRaise_bind_ok hseedOk, call_orRaise]
      exact h
  | v3 encryptedPrimarySeed encryptedSecret =>
    rw [hd] at h
    dsimp only at h ⊢
    unfold WalletV3.takeKey WalletV3.takeSeed
    by_cases hseed : o.primarySeed.isset = true
    · rw [if_pos hseed] at h ⊢
      cases hv : o.primarySeed with
      | buffer seed =>
        rw [hv] at h
        dsimp only at h ⊢
        rw [bind_assoc, call_bind_ok (call_modify ..), pure_bind, call_orRaise]
        exact h
      | null =>
        rw [hv] at h
        cases h
      | no =>
        rw [hv] at h
        cases h
      | text _ =>
        rw [hv] at h
        cases h
    · rw [if_neg hseed] at h ⊢
      obtain ⟨⟨encryptedPrimarySeed, encryptedSecret, password⟩, hguards, h⟩ := exists_of_bind_ok h
      obtain ⟨secret, hsecret, h⟩ := exists_of_bind_ok h
      obtain ⟨primarySeed, hprimary, h⟩ := exists_of_bind_ok h
      rw [bind_assoc, call_orRaise_bind_ok hguards]
      dsimp only
      rw [bind_assoc, call_orRaise_bind_ok hsecret, bind_assoc, call_bind_ok (call_modify ..), bind_assoc,
        call_orRaise_bind_ok hprimary, bind_assoc, call_bind_ok (call_modify ..), pure_bind, call_orRaise]
      exact h

theorem takeKey_refused {o : UnlockOptions Node} {e : PhpError} (h : beforeWriting p w o = .error e) (s : Held Node) :
    call (w.takeKey p o) s = (.error e, s) := by
  unfold beforeWriting at h
  unfold takeKey
  cases hd : w.data with
  | v1 primaryMnemonic =>
    rw [hd] at h
    rcases error_of_bind h with h | ⟨_, -, h⟩
    · rw [call_orRaise, h]
    · cases h
  | v2 encryptedPrimarySeed encryptedSecret =>
    rw [hd] at h
    dsimp only at h ⊢
    by_cases hgiven : (o.secret.isset || o.primarySeed.isset) = true
    · rw [if_pos hgiven] at h
      cases h
    · rw [if_neg hgiven] at h
      rw [Bool.or_eq_true, not_or] at hgiven
      have hsame : WalletV2.takeOptions o s = s := by
        rw [WalletV2.takeOptions, if_neg hgiven.1, if_neg hgiven.2]
      rw [WalletV2.takeKey, call_bind_ok (call_modify ..), hsame]
      by_cases hkey : o.primaryPrivateKey.truthy = true
      · rw [if_pos hkey] at h ⊢
        rcases error_of_bind h with h | ⟨_, -, h⟩
        · rw [call_orRaise, h]
        · cases h
      · rw [if_neg hkey] at h ⊢
        rcases error_of_bind h with h | ⟨⟨⟩, hguards, h⟩
        · rw [call_orRaise_bind_error h]
        · rw [call_orRaise_bind_ok hguards]
          rcases error_of_bind h with h | ⟨_, -, h⟩
          · rw [WalletV2.decryptKey, call_orRaise_bind_error h]
          · cases h
  | v3 encryptedPrimarySeed encryptedSecret =>
    rw [hd] at h
    dsimp only at h ⊢
    unfold WalletV3.takeKey WalletV3.takeSeed
    by_cases hseed : o.primarySeed.isset = true
    · rw [if_pos hseed] at h ⊢
      cases hv : o.primarySeed with
      | buffer seed =>
        rw [hv] at h
        cases h
      | null =>
        rw [hv] at h
        cases h
        rfl
      | no =>
        rw [hv] at h
        cases h
        rfl
      | text _ =>
        rw [hv] at h
        cases h
        rfl
    · rw [if_neg hseed] at h ⊢
      rw [bind_assoc]
      rcases error_of_bind h with h | ⟨⟨encryptedPrimarySeed, encryptedSecret, password⟩, hguards, h⟩
      · rw [call_orRaise_bind_error h]
      · rw [call_orRaise_bind_ok hguards]
        dsimp only at h ⊢
        rw [bind_assoc]
        rcases error_of_bind h with h | ⟨_, -, h⟩
        · rw [call_orRaise_bind_error h]
        · cases h

/-! ## What an unlock does -/

theorem unlock_refused {o : UnlockOptions Node} (h : Refused p w o) (fn : Option (Method Node Unit)) (s : Held Node) :
    ∃ e, call (w.unlock p o fn) s = (.error e, s) := by
  obtain ⟨e, he⟩ := h
  rw [unlock_eq, unlockBy]
  exact ⟨e, call_bind_error (takeKey_refused he s)⟩

theorem unlock_right {o : UnlockOptions Node} (h : Right p w o) (s : Held Node) :
    ∃ t key, call (w.unlock p o none) s = (.ok (), t) ∧ t.locked = false ∧ t.primaryPrivateKey = some key ∧
      addressOf p key = w.checksum := by
  obtain ⟨key, hkey, haddress⟩ := h
  refine ⟨{ after (w.takeKey p o) s with primaryPrivateKey := some key, locked := false }, key, ?_, rfl, rfl, haddress⟩
  have htake : call (w.takeKey p o) s = (.ok key, after (w.takeKey p o) s) := Prod.ext (takeKey_ok hkey s) rfl
  have hhold : ∀ t : Held Node, call (holdKey p w.checksum key) t =
      (.ok (), { t with primaryPrivateKey := some key, locked := false }) := by
    intro t
    rw [holdKey, call_bind_ok (call_modify ..), haddress, Php.looselyEqual_self, if_pos rfl, call_modify]
  rw [unlock_eq, unlockBy, call_bind_ok htake, call_bind_ok (hhold _), callBack, call_pure]

theorem lock_locked (s : Held Node) : call (w.lock : Method Node Unit) s = (.ok (), after w.lock s) ∧
    (after (w.lock : Method Node Unit) s).locked = true := by
  unfold lock
  cases w.data with
  | v1 _ => exact ⟨rfl, rfl⟩
  | v2 _ _ => exact ⟨rfl, rfl⟩
  | v3 _ _ => exact ⟨rfl, rfl⟩

/-! ## Clients of a wallet -/

/-- The calls without a callback. -/
inductive Action (Node : Type)
  | lock
  | unlock (options : UnlockOptions Node)

variable (p w)

def system : System PhpError (Held Node) (Action Node) (UnlockOptions Node) where
  act
    | .lock => w.lock
    | .unlock options => w.unlock p options none
  enter options := w.unlock p options none
  leave := w.lock

/-- A client of a wallet, with any callbacks. -/
abbrev WalletClient (Node : Type) := Client PhpError (Action Node) (UnlockOptions Node)

theorem unlock_callBack (o : UnlockOptions Node) (fn : Method Node Unit) :
    w.unlock p o (some fn) = (system p w).around o fn := by
  unfold System.around system
  dsimp only
  rw [unlock_eq, unlock_eq, unlockBy, unlockBy, bind_assoc]
  simp only [callBack, bind_assoc, pure_bind]

/-- An unlocked wallet holds the key of its checksum. -/
def Matching (s : Held Node) : Prop :=
  s.locked = false → ∃ key, s.primaryPrivateKey = some key ∧ addressOf p key = w.checksum

/-- What a client may do: unlock with the right credentials and a callback that returns, or be refused at once. -/
def Proper (c : WalletClient Node) (s : Held Node) : Prop :=
  match c with
  | .act (.unlock o) _ => Right p w o ∨ Refused p w o
  | .within o fn _ =>
    (Right p w o ∧ (call ((system p w).run fn) (after (w.unlock p o none) s)).1 = .ok ()) ∨
      (Refused p w o ∧ s.locked = true)
  | _ => True

/-- A call of `unlock` that throws leaves the wallet as it was. -/
def KeepsOnThrow (o : UnlockOptions Node) (fn : Option (Method Node Unit)) (s : Held Node) : Prop :=
  ∀ e, (call (w.unlock p o fn) s).1 = .error e → after (w.unlock p o fn) s = s

/-- What is relied on at every call. -/
def Disciplined (c : WalletClient Node) (s : Held Node) : Prop :=
  Matching p w s ∧
    match c with
    | .act (.unlock o) _ => KeepsOnThrow p w o none s
    | .within o fn _ =>
      (after (w.unlock p o (some ((system p w).run fn))) s).locked = true ∧
        KeepsOnThrow p w o (some ((system p w).run fn)) s
    | _ => True

variable {p w}

theorem Matching.of_locked {s : Held Node} (h : s.locked = true) : Matching p w s := by
  intro hl
  rw [h] at hl
  cases hl

theorem matching_unlock {o : UnlockOptions Node} (h : Right p w o ∨ Refused p w o) {s : Held Node}
    (hs : Matching p w s) : Matching p w (after (w.unlock p o none) s) := by
  rcases h with h | h
  · obtain ⟨t, key, hcall, -, hkey, haddress⟩ := unlock_right h s
    rw [after, hcall]
    exact fun _ => ⟨key, hkey, haddress⟩
  · obtain ⟨e, hcall⟩ := unlock_refused h none s
    rw [after, hcall]
    exact hs

theorem after_unlock_callBack (o : UnlockOptions Node) (fn : Method Node Unit) (s : Held Node)
    (h : Right p w o ∧ (call fn (after (w.unlock p o none) s)).1 = .ok () ∨ Refused p w o ∧ s.locked = true) :
    (after (w.unlock p o (some fn)) s).locked = true ∧ KeepsOnThrow p w o (some fn) s := by
  rcases h with ⟨hright, hfn⟩ | ⟨hrefused, hlocked⟩
  · obtain ⟨t, -, hcall, -⟩ := unlock_right hright s
    rw [after, hcall] at hfn
    have hall : call (w.unlock p o (some fn)) s = (.ok (), after w.lock (after fn t)) := by
      rw [unlock_callBack, System.around]
      dsimp only [system]
      rw [call_bind_ok hcall, call_bind_ok (Prod.ext hfn rfl)]
      exact (lock_locked _).1
    refine ⟨?_, ?_⟩
    · rw [after, hall]
      exact (lock_locked _).2
    · intro e he
      rw [hall] at he
      cases he
  · obtain ⟨e, hcall⟩ := unlock_refused hrefused (some fn) s
    refine ⟨?_, ?_⟩
    · rw [after, hcall]
      exact hlocked
    · intro _ _
      rw [after, hcall]

theorem disciplined_of_proper (c : WalletClient Node) (s : Held Node) (hs : Matching p w s) (h : Proper p w c s) :
    Disciplined p w c s := by
  refine ⟨hs, ?_⟩
  cases c with
  | returns => trivial
  | throws e => trivial
  | act a next =>
    cases a with
    | lock => trivial
    | unlock o =>
      intro e he
      rcases h with h | h
      · obtain ⟨t, -, hcall, -⟩ := unlock_right h s
        rw [hcall] at he
        cases he
      · obtain ⟨_, hcall⟩ := unlock_refused h none s
        rw [after, hcall]
  | within o fn next => exact after_unlock_callBack o _ s h

/-- **Lock discipline.** For every client of a wallet, with any callbacks, whose unlocks have the right credentials and
callbacks that return or are refused at once: an unlocked wallet holds the key of its checksum at every call and at the
end, a wallet is locked after a callback, and an unlock that throws leaves it as it was. -/
theorem lock_discipline (p : UnlockPlatform Node) (w : LockableWallet) (client : WalletClient Node)
    (h : (system p w).Everywhere (Proper p w) client .initial) :
    (system p w).Everywhere (Disciplined p w) client .initial ∧
      Matching p w (after ((system p w).run client) .initial) := by
  refine System.everywhere_of_step (I := Matching p w) disciplined_of_proper ?act ?enter ?around client _
    (.of_locked rfl) h
  case act =>
    intro a next s hs hproper
    cases a with
    | lock => exact .of_locked (lock_locked s).2
    | unlock o => exact matching_unlock hproper hs
  case enter =>
    intro o fn next s hs hproper _
    exact matching_unlock (hproper.imp And.left And.left) hs
  case around =>
    intro o fn next s _ hproper _
    rw [← unlock_callBack]
    exact .of_locked (after_unlock_callBack o _ s hproper).1

/-! ## Where the discipline fails -/

/-- The seed is the password, and the mnemonic after it. -/
def samplePlatform : UnlockPlatform SampleNode where
  php := sampleBitWasp
  ciphers := sampleCiphers
  buffers := V3Crypt.sampleLibraries
  fromExtended _ := .error ⟨"InvalidArgumentException", "Invalid extended key"⟩
  keyError := ⟨"Exception", "Invalid private key"⟩
  getSeed mnemonic password :=
    match mnemonic, password with
    | .text mnemonic, .text password => .ok (pad32 (password ++ mnemonic))
    | _, _ => .error ⟨"Exception", "Failed to normalize"⟩
  getAddress key := Hex.encode key.bytes
  castBuffer b := .ok b
  md5 b := b.take 16
  opensslDecrypt ct key _ := if key.isPrefixOf ct then some (ct.drop key.length) else none

def optionsOf (password : Value) : UnlockOptions SampleNode where
  passphrase := password
  password := .null
  primaryPrivateKey := .value .null
  secret := .null
  primarySeed := .null

/-- A version 1 wallet, with the password `[1]`. -/
def sampleWallet : LockableWallet where
  data := .v1 (.text [97])
  checksum := addressOf samplePlatform ⟨⟨pad32 [1, 97], [], true⟩, ⟨false, []⟩⟩

theorem sampleWallet_right : Right samplePlatform sampleWallet (optionsOf (.text [1])) :=
  ⟨⟨⟨pad32 [1, 97], [], true⟩, ⟨false, []⟩⟩, rfl, rfl⟩

/-- Unlock with the right password and a callback that locks, then without a password. -/
def sampleClient : WalletClient SampleNode :=
  .within (optionsOf (.text [1])) (.act .lock fun _ => .returns) fun _ =>
    .act (.unlock (optionsOf .null)) fun _ => .returns

theorem sampleClient_disciplined :
    (system samplePlatform sampleWallet).Everywhere (Disciplined samplePlatform sampleWallet) sampleClient .initial ∧
      Matching samplePlatform sampleWallet (after ((system samplePlatform sampleWallet).run sampleClient) .initial) := by
  refine lock_discipline samplePlatform sampleWallet sampleClient ⟨?_, fun _ => ⟨trivial, trivial⟩, ?_, trivial⟩
  · exact Or.inl ⟨sampleWallet_right, by rfl⟩
  · exact Or.inr ⟨_, rfl⟩

/-- After the right password a wrong one: the wallet is unlocked with the key of the wrong one. And a callback that
throws leaves the wallet unlocked. -/
theorem unlocked_with_another_key :
    let s := after (do
      sampleWallet.unlock samplePlatform (optionsOf (.text [1])) none
      sampleWallet.unlock samplePlatform (optionsOf (.text [2])) none) .initial
    s.locked = false ∧ s.primaryPrivateKey.map (addressOf samplePlatform) ≠ some sampleWallet.checksum ∧
      (after (sampleWallet.unlock samplePlatform (optionsOf (.text [1]))
        (some (throw ⟨"Exception", "insufficient funds"⟩))) .initial).locked = false := by
  decide +kernel

end LockableWallet

end PhpSdk
