import Blocktrail.BackupSheet.Sheet

/-! # Importing a backup sheet that was written -/

open Text Bitcoin

namespace BackupSheet

/-! ## What is to be found -/

/-- Equal up to spacing. -/
def SameText (s t : Str) : Prop := squeeze s = squeeze t

/-- The key, as it is read. -/
def PublicKey.toKey (k : PublicKey) : BlocktrailKey := ⟨some k.keyIndex, some k.pubKey⟩

def Recovers (g : BackupGenerator) : Result → Prop
  | .foundV1 data => g.backupInfo.walletVersion = .v1 ∧ SameText data.walletIdentifier g.identifier ∧
      SameText data.primaryMnemonic (textOf g.backupInfo.primaryMnemonic) ∧
      SameText data.backupMnemonic (textOf g.backupInfo.backupMnemonic) ∧
      data.blocktrailKeys = g.blocktrailPublicKeys.map PublicKey.toKey
  | .foundV2 data => g.backupInfo.walletVersion ≠ .v1 ∧ data.walletVersion = some g.backupInfo.walletVersion.number ∧
      SameText data.walletIdentifier g.identifier ∧
      SameText data.encryptedPrimaryMnemonic (textOf g.backupInfo.encryptedPrimarySeed) ∧
      SameText data.backupMnemonic (textOf g.backupInfo.backupSeed) ∧
      SameText data.encryptedRecoverySecretMnemonic (textOf g.backupInfo.recoveryEncryptedSecret) ∧
      SameText data.passwordEncryptedSecretMnemonic (textOf g.backupInfo.encryptedSecret) ∧
      data.blocktrailKeys = g.blocktrailPublicKeys.map PublicKey.toKey
  | .noBackupData => False
  | .couldNotProcess => False

/-- The sheet is read as it was written, in whichever order its pages are. -/
def RoundTrip (b : LineBreaking) (logo : Option Str) (g : BackupGenerator) : Prop :=
  ∀ pageTexts, pageTexts.Perm (g.generatePDF.map b.items) →
    Recovers g (uploadFile pageTexts (g.generatePDF.map fun page => page.images.map (decoded logo)))

/-! ## Pages in any order -/

/-- Where at most one of some lists has elements, their order does not matter. -/
theorem flatten_perm {α : Type} {l l' : List (List α)} (h : l.Perm l')
    (hone : l.Pairwise fun a b => a = [] ∨ b = []) : l.flatten = l'.flatten := by
  induction h with
  | nil => rfl
  | cons a _ ih => rw [List.flatten_cons, List.flatten_cons, ih (List.pairwise_cons.mp hone).2]
  | swap a b l =>
    have hab := (List.pairwise_cons.mp hone).1 a List.mem_cons_self
    simp only [List.flatten_cons]
    rcases hab with rfl | rfl
    · simp
    · simp
  | trans hfirst _ ih ih' =>
    rw [ih hone, ih' ((hfirst.pairwise_iff Or.symm).mp hone)]

/-- What pages do, one after another. -/
structure Total (s : Scope) (es : List Effect) : Prop where
  walletVersion : s.walletVersion = (es.map fun e => e.walletVersion.toList).flatten.getLast?
  titleVersion : s.titleVersion = (es.map fun e => e.titleVersion.toList).flatten.getLast?
  blocktrailKeys : s.blocktrailKeys = (es.map Effect.blocktrailKeys).flatten
  content : ∀ j, s.content j = (es.map fun e => e.content j).flatten

theorem getLast?_append_toList {α : Type} (l : List α) (o : Option α) :
    (l ++ o.toList).getLast? = o.or l.getLast? := by
  cases o <;> simp

theorem flatten_map_concat {α β : Type} (f : α → List β) (l : List α) (a : α) :
    ((l ++ [a]).map f).flatten = (l.map f).flatten ++ f a := by
  simp

theorem total_foldl (pageTexts : List (List Str)) :
    Total (pageTexts.foldl parsePageText .start) (pageTexts.map (effects none)) := by
  induction pageTexts using List.reverseRecOn with
  | nil => exact ⟨rfl, rfl, rfl, fun _ => rfl⟩
  | append_singleton pageTexts items ih =>
    have hpage := effect_foldl ⟨none, pageTexts.foldl parsePageText .start⟩ items
    rw [List.foldl_append, List.map_append, List.map_singleton]
    refine ⟨?_, ?_, ?_, fun j => ?_⟩
    · rw [flatten_map_concat, getLast?_append_toList, ← ih.walletVersion]
      exact congrArg Effect.walletVersion hpage
    · rw [flatten_map_concat, getLast?_append_toList, ← ih.titleVersion]
      exact congrArg Effect.titleVersion hpage
    · rw [flatten_map_concat, ← ih.blocktrailKeys]
      exact congrArg Effect.blocktrailKeys hpage
    · rw [flatten_map_concat, ← ih.content]
      exact congrFun (congrArg Effect.content hpage) j

/-! ## What is found -/

/-- What a scope is to hold, for the data to be that of the sheet. -/
structure Found (g : BackupGenerator) (s : Scope) : Prop where
  keys : setPubkeys s.blocktrailKeys (g.blocktrailPublicKeys.map fun k => some k.pubKey) =
    some (g.blocktrailPublicKeys.map PublicKey.toKey)
  walletVersion : ∃ w, s.walletVersion = some w ∧ (w = 2 ↔ g.backupInfo.walletVersion ≠ .v1)
  titleVersion : g.backupInfo.walletVersion = .v1 ∨
    s.titleVersion.getD (some 2) = some g.backupInfo.walletVersion.number
  identifier : s.content .walletIdentifier = squeeze g.identifier
  texts : ∀ j ∈ g.backupInfo.walletVersion.fields, j ≠ .walletIdentifier →
    s.content j = squeeze (textOf (g.backupInfo.mnemonicFor j))

theorem flatMap_images (g : BackupGenerator) (logo : Option Str) :
    (g.generatePDF.map fun page => page.images.map (decoded logo)).flatMap List.tail =
      g.blocktrailPublicKeys.map fun k => some k.pubKey := by
  unfold BackupGenerator.generatePDF
  cases g.backupInfo.encryptedSecret <;>
    simp [BackupGenerator.page1, BackupGenerator.page2Images, decoded, Function.comp_def]

theorem texts_v1 {i : BackupInfo} (h : i.OfVersion) (hv : i.walletVersion = .v1) (content : DataKey → Str) :
    (∀ j ∈ i.walletVersion.fields, j ≠ .walletIdentifier → content j = squeeze (textOf (i.mnemonicFor j))) ↔
      content .primaryMnemonic = squeeze (textOf i.primaryMnemonic) ∧
        content .backupMnemonic = squeeze (textOf i.backupMnemonic) := by
  unfold BackupInfo.OfVersion at h
  rw [hv] at h ⊢
  simp [WalletVersion.fields, BackupInfo.mnemonicFor, h.2.1]

theorem texts_v2 {i : BackupInfo} (h : i.OfVersion) (hv : i.walletVersion ≠ .v1) (content : DataKey → Str) :
    (∀ j ∈ i.walletVersion.fields, j ≠ .walletIdentifier → content j = squeeze (textOf (i.mnemonicFor j))) ↔
      content .backupMnemonic = squeeze (textOf i.backupSeed) ∧
        content .encryptedPrimaryMnemonic = squeeze (textOf i.encryptedPrimarySeed) ∧
        content .encryptedRecoverySecretMnemonic = squeeze (textOf i.recoveryEncryptedSecret) ∧
        content .passwordEncryptedSecretMnemonic = squeeze (textOf i.encryptedSecret) := by
  unfold BackupInfo.OfVersion at h
  cases hversion : i.walletVersion with
  | v1 => exact absurd hversion hv
  | v2 | v3 =>
    rw [hversion] at h
    simp [WalletVersion.fields, BackupInfo.mnemonicFor, h.2]

theorem recovers_iff {g : BackupGenerator} (hinfo : g.backupInfo.OfVersion) (logo : Option Str)
    (pageTexts : List (List Str)) :
    Recovers g (uploadFile pageTexts (g.generatePDF.map fun page => page.images.map (decoded logo))) ↔
      Found g (pageTexts.foldl parsePageText .start) := by
  unfold uploadFile
  rw [flatMap_images]
  generalize pageTexts.foldl parsePageText .start = s
  dsimp only
  constructor
  · intro h
    cases hkeys : setPubkeys s.blocktrailKeys (g.blocktrailPublicKeys.map fun k => some k.pubKey) with
    | none => rw [hkeys] at h; exact h.elim
    | some keys =>
      cases hw : s.walletVersion with
      | none => rw [hkeys, hw] at h; exact h.elim
      | some w =>
        rw [hkeys, hw] at h
        dsimp only at h
        split at h
        · next h2 =>
          obtain ⟨hv, htitle, hidentifier, hprimary, hbackup, hrecovery, hpassword, rfl⟩ := h
          exact ⟨hkeys, ⟨w, hw, iff_of_true h2 hv⟩, Or.inr htitle, hidentifier,
            (texts_v2 hinfo hv _).mpr ⟨hbackup, hprimary, hrecovery, hpassword⟩⟩
        · next h2 =>
          obtain ⟨hv, hidentifier, hprimary, hbackup, rfl⟩ := h
          exact ⟨hkeys, ⟨w, hw, iff_of_false h2 (fun hne => hne hv)⟩, Or.inl hv, hidentifier,
            (texts_v1 hinfo hv _).mpr ⟨hprimary, hbackup⟩⟩
  · rintro ⟨hkeys, ⟨w, hw, hwallet⟩, htitle, hidentifier, htexts⟩
    rw [hkeys, hw]
    dsimp only
    split
    · next h2 =>
      have hv := hwallet.mp h2
      obtain ⟨hbackup, hprimary, hrecovery, hpassword⟩ := (texts_v2 hinfo hv _).mp htexts
      exact ⟨hv, htitle.resolve_left hv, hidentifier, hprimary, hbackup, hrecovery, hpassword, rfl⟩
    · next h2 =>
      have hv : g.backupInfo.walletVersion = .v1 := not_not.mp fun hne => h2 (hwallet.mpr hne)
      obtain ⟨hprimary, hbackup⟩ := (texts_v1 hinfo hv _).mp htexts
      exact ⟨hv, hidentifier, hprimary, hbackup, rfl⟩

/-! ## The images -/

theorem length_setPubkeys {keys keys' : List BlocktrailKey} {images : List (Option Str)}
    (h : setPubkeys keys images = some keys') : keys'.length = keys.length := by
  induction keys generalizing keys' images with
  | nil =>
    cases images with
    | nil => cases h; rfl
    | cons image images => cases h
  | cons key keys ih =>
    cases images with
    | nil => cases h; rfl
    | cons image images =>
      obtain ⟨rest, hrest, rfl⟩ := Option.map_eq_some_iff.mp h
      rw [List.length_cons, List.length_cons, ih hrest]

theorem setPubkeys_captions (ks : List PublicKey) :
    setPubkeys (ks.map fun k => ⟨some k.keyIndex, none⟩) (ks.map fun k => some k.pubKey) =
      some (ks.map PublicKey.toKey) := by
  induction ks with
  | nil => rfl
  | cons k ks ih =>
    rw [List.map_cons, List.map_cons, setPubkeys, ih]
    rfl

/-! ## All pages -/

variable {b : LineBreaking} {g : BackupGenerator}

/-- What the pages do, page 1 by `e`. -/
def pageEffects (g : BackupGenerator) (e : Effect) : List Effect :=
  e :: keysEffect g :: g.backupInfo.encryptedSecret.toList.map passwordEffect

theorem effects_pages (hquiet : g.Quiet) :
    (g.generatePDF.map b.items).map (effects none) = pageEffects g (effects none (b.items g.page1)) := by
  unfold BackupGenerator.generatePDF pageEffects
  cases g.backupInfo.encryptedSecret with
  | none =>
    have hpage2 : effects none (b.items ⟨g.page2Texts ++ recoveryInstructions, g.page2Images⟩) = keysEffect g := by
      unfold LineBreaking.items
      rw [List.flatMap_append, effects_append, effects_page2Texts b hquiet, effects_recoveryInstructions]
      exact Effect.append_none _
    simp only [List.map_cons, List.map_nil, Option.toList_none, hpage2]
  | some m =>
    have hpage2 : effects none (b.items ⟨g.page2Texts, g.page2Images⟩) = keysEffect g := effects_page2Texts b hquiet
    have hpage3 : effects none (b.items ⟨page3Texts m, [.logo]⟩) = passwordEffect m := effects_page3 b m
    simp only [List.map_cons, List.map_nil, Option.toList_some, hpage2]
    rw [← hpage3]
    rfl

theorem password_content (m : Option Mnemonic) (j : DataKey) :
    ((m.toList.map passwordEffect).map fun e => e.content j).flatten =
      if j = .passwordEncryptedSecretMnemonic then squeeze (textOf m) else [] := by
  cases m with
  | none => exact (ite_self _).symm
  | some m => exact List.append_nil _

theorem pageEffects_content (e : Effect) (j : DataKey) :
    ((pageEffects g e).map fun e => e.content j).flatten = e.content j ++
      if j = .passwordEncryptedSecretMnemonic then squeeze (textOf g.backupInfo.encryptedSecret) else [] := by
  rw [← password_content]
  rfl

theorem pageEffects_keys (e : Effect) :
    ((pageEffects g e).map Effect.blocktrailKeys).flatten = e.blocktrailKeys ++ (keysEffect g).blocktrailKeys := by
  have hpassword : ((g.backupInfo.encryptedSecret.toList.map passwordEffect).map Effect.blocktrailKeys).flatten = [] := by
    cases g.backupInfo.encryptedSecret <;> rfl
  unfold pageEffects
  rw [List.map_cons, List.map_cons, List.flatten_cons, List.flatten_cons, hpassword, List.append_nil]

theorem pageEffects_pairwise {α : Type} {f : Effect → List α} {e : Effect}
    (hkeys : f e = [] ∨ f (keysEffect g) = [])
    (hpassword : ∀ m, g.backupInfo.encryptedSecret = some m → f e = [] ∨ f (passwordEffect m) = [])
    (hboth : ∀ m, f (keysEffect g) = [] ∨ f (passwordEffect m) = []) :
    ((pageEffects g e).map f).Pairwise fun a b => a = [] ∨ b = [] := by
  unfold pageEffects
  cases hsecret : g.backupInfo.encryptedSecret with
  | none => simp [hkeys]
  | some m => simp [hkeys, hpassword m hsecret, hboth]

/-- The order of the pages does not matter, where page 1 has no key, and no password secret where page 3 has it. -/
theorem Total.of_perm {s : Scope} {es : List Effect} {e : Effect} (h : Total s es) (hperm : es.Perm (pageEffects g e))
    (hkeys : e.blocktrailKeys = [])
    (hpassword : g.backupInfo.encryptedSecret ≠ none → e.content .passwordEncryptedSecretMnemonic = []) :
    Total s (pageEffects g e) where
  walletVersion := h.walletVersion.trans (congrArg List.getLast? (flatten_perm (hperm.map _).symm
    (pageEffects_pairwise (Or.inr rfl) (fun _ _ => Or.inr rfl) fun _ => Or.inr rfl)).symm)
  titleVersion := h.titleVersion.trans (congrArg List.getLast? (flatten_perm (hperm.map _).symm
    (pageEffects_pairwise (Or.inr rfl) (fun _ _ => Or.inr rfl) fun _ => Or.inr rfl)).symm)
  blocktrailKeys := h.blocktrailKeys.trans (flatten_perm (hperm.map _).symm
    (pageEffects_pairwise (Or.inl hkeys) (fun _ _ => Or.inr rfl) fun _ => Or.inr rfl)).symm
  content j := by
    refine (h.content j).trans (flatten_perm (hperm.map _).symm
      (pageEffects_pairwise (Or.inr rfl) (fun m hm => ?_) fun _ => Or.inl rfl)).symm
    by_cases hj : j = .passwordEncryptedSecretMnemonic
    · subst hj
      exact Or.inl (hpassword (hm ▸ Option.some_ne_none m))
    · exact Or.inr (if_neg hj)

/-- A scope with what was written, where the lines of the identifier do `r` and leave `extra` behind. -/
structure Written (g : BackupGenerator) (r : Effect) (extra : Str) (s : Scope) : Prop where
  walletVersion : s.walletVersion =
    (if g.backupInfo.primary.isSome then some g.backupInfo.walletVersion.scopeVersion else none).or r.walletVersion
  titleVersion : s.titleVersion = r.titleVersion.or (some (some g.backupInfo.walletVersion.number))
  blocktrailKeys : s.blocktrailKeys = r.blocktrailKeys ++ (keysEffect g).blocktrailKeys
  content : ∀ j, s.content j = r.content j ++ ((if r.dataKey = some j then extra else []) ++
    squeeze (textOf (g.backupInfo.mnemonicFor j)))

theorem written_of_total {r : Effect} {extra : Str} {k : Option DataKey} {s : Scope}
    (h : Total s (pageEffects g ⟨k,
      (if g.backupInfo.primary.isSome then some g.backupInfo.walletVersion.scopeVersion else none).or r.walletVersion,
      r.titleVersion.or (some (some g.backupInfo.walletVersion.number)), r.blocktrailKeys,
      fun j => r.content j ++ ((if r.dataKey = some j then extra else []) ++
        if j = .passwordEncryptedSecretMnemonic then [] else squeeze (textOf (g.backupInfo.mnemonicFor j)))⟩)) :
    Written g r extra s := by
  have hlast : ∀ {α : Type} (o : Option α) (f : Effect → Option α), f (keysEffect g) = none →
      (∀ m, f (passwordEffect m) = none) → ∀ e, f e = o →
        ((pageEffects g e).map fun e => (f e).toList).flatten.getLast? = o := by
    intro α o f hkeys hpassword e he
    unfold pageEffects
    cases g.backupInfo.encryptedSecret <;> cases o <;> simp [hkeys, hpassword, he]
  refine ⟨?_, ?_, ?_, fun j => ?_⟩
  · exact h.walletVersion.trans (hlast _ Effect.walletVersion rfl (fun _ => rfl) _ rfl)
  · exact h.titleVersion.trans (hlast _ Effect.titleVersion rfl (fun _ => rfl) _ rfl)
  · exact h.blocktrailKeys.trans (pageEffects_keys _)
  · rw [h.content j, pageEffects_content, List.append_assoc, List.append_assoc]
    by_cases hj : j = .passwordEncryptedSecretMnemonic
    · subst hj
      rfl
    · rw [if_neg hj, if_neg hj, List.append_nil]

/-! ## Exactly when the sheet is read as it was written -/

/-- No text of the data is asked for when page 1 goes on behind the identifier. -/
theorem dataKey_of_found {t : Str} (ht : squeeze (b.lines t).flatten = squeeze g.identifier) {extra : Str} {s : Scope}
    (hne : extra ≠ [])
    (hasked : (effects (some .walletIdentifier) (b.lines t)).dataKey = some .walletIdentifier →
      extra = squeeze "Backup Info")
    (hwritten : Written g (effects (some .walletIdentifier) (b.lines t)) extra s) (h : Found g s) :
    ∀ j ∈ g.backupInfo.walletVersion.fields, (effects (some .walletIdentifier) (b.lines t)).dataKey ≠ some j := by
  intro j hj hdataKey
  have hcontent := hwritten.content j
  rw [if_pos hdataKey] at hcontent
  by_cases hid : j = .walletIdentifier
  · subst hid
    rw [h.identifier] at hcontent
    have hlength := congrArg List.length hcontent
    have hmnemonic : squeeze (textOf (g.backupInfo.mnemonicFor .walletIdentifier)) = [] := rfl
    have hten : (squeeze "Backup Info").length = 10 := by decide +kernel
    rw [hmnemonic, List.append_nil, List.length_append, hasked hdataKey, hten] at hlength
    have hlost := lost_of_asked hdataKey
    unfold identifierLength at hlost
    rw [ht] at hlost
    rcases hlost with ⟨-, hall⟩ | hlost
    · omega
    · omega
  · rw [h.texts j hj hid] at hcontent
    have hlength := congrArg List.length hcontent
    have hpos := List.length_pos_of_ne_nil hne
    rw [List.length_append, List.length_append] at hlength
    omega

theorem kept_of_found (hinfo : g.backupInfo.OfVersion) (hquiet : g.Quiet)
    (h : Found g ((g.generatePDF.map b.items).foldl parsePageText .start)) :
    g.backupInfo.primary.isSome ∧
      Kept g.backupInfo.walletVersion (some g.backupInfo.walletVersion.number) (b.lines g.identifier) := by
  have htotal := total_foldl (g.generatePDF.map b.items)
  obtain ⟨extra, k, hextra, hasked, hpage1⟩ := effects_page1 b hinfo hquiet
  rw [effects_pages hquiet, hpage1] at htotal
  have hwritten := written_of_total htotal
  have hdataKey := dataKey_of_found (b.broken g.identifier).squeeze_flatten hextra hasked hwritten h
  have hkeys : (effects (some .walletIdentifier) (b.lines g.identifier)).blocktrailKeys = [] := by
    have hlength := length_setPubkeys h.keys
    rw [hwritten.blocktrailKeys, List.length_append] at hlength
    unfold keysEffect at hlength
    dsimp only at hlength
    rw [List.length_map, List.length_map] at hlength
    exact List.eq_nil_of_length_eq_zero (by omega)
  have hidentifier : (effects (some .walletIdentifier) (b.lines g.identifier)).content .walletIdentifier =
      squeeze (b.lines g.identifier).flatten := by
    have hcontent := hwritten.content .walletIdentifier
    rw [h.identifier, if_neg (hdataKey _ (mem_fields_identifier _))] at hcontent
    rw [(b.broken g.identifier).squeeze_flatten, hcontent]
    exact (List.append_nil _).symm
  have htitle : g.backupInfo.walletVersion = .v1 ∨
      (effects (some .walletIdentifier) (b.lines g.identifier)).titleVersion.getD
        (some g.backupInfo.walletVersion.number) = some g.backupInfo.walletVersion.number := by
    refine h.titleVersion.imp id fun htitle => ?_
    rw [hwritten.titleVersion, getD_or] at htitle
    exact htitle
  have hlines : b.lines g.identifier ≠ [] := by
    intro hnil
    rw [hnil] at hdataKey
    exact hdataKey _ (mem_fields_identifier _) rfl
  have hkept := kept_of_readWhole hlines ⟨hidentifier, hkeys, hdataKey, htitle⟩
  refine ⟨?_, hkept⟩
  -- without its primary mnemonic, the version would come from a text that the last line asks for
  by_contra hprimary
  obtain ⟨w, hw, hwallet⟩ := h.walletVersion
  rw [hwritten.walletVersion, if_neg hprimary, Option.none_or, (readWhole_of_kept hkept).2.2] at hw
  generalize (effects (some .walletIdentifier) (b.lines g.identifier)).dataKey = d at hw hdataKey
  rcases d with _ | j
  · cases hw
  · have hversion : (j = .encryptedPrimaryMnemonic ∧ w = 2) ∨ (j = .primaryMnemonic ∧ w = 1) := by
      cases j <;> cases hw <;> simp
    rcases hversion with ⟨rfl, rfl⟩ | ⟨rfl, rfl⟩
    · have hv := hwallet.mp rfl
      refine hdataKey .encryptedPrimaryMnemonic ?_ rfl
      generalize g.backupInfo.walletVersion = v at hv
      cases v <;> first | exact absurd rfl hv | decide +kernel
    · have hv : g.backupInfo.walletVersion = .v1 := not_not.mp fun hne => absurd (hwallet.mpr hne) (by decide +kernel)
      refine hdataKey .primaryMnemonic ?_ rfl
      rw [hv]
      decide +kernel

theorem found_of_kept (hinfo : g.backupInfo.OfVersion) (hquiet : g.Quiet) (hprimary : g.backupInfo.primary.isSome)
    (hkept : Kept g.backupInfo.walletVersion (some g.backupInfo.walletVersion.number) (b.lines g.identifier))
    {pageTexts : List (List Str)} (hperm : pageTexts.Perm (g.generatePDF.map b.items)) :
    Found g (pageTexts.foldl parsePageText .start) := by
  obtain ⟨⟨hidentifier, hkeys, hdataKey, htitle⟩, hothers, -⟩ := readWhole_of_kept hkept
  obtain ⟨extra, k, -, -, hpage1⟩ := effects_page1 b hinfo hquiet
  have hpages := hperm.map (effects none)
  rw [effects_pages hquiet, hpage1] at hpages
  have hpassword : g.backupInfo.encryptedSecret ≠ none → g.backupInfo.walletVersion ≠ .v1 := by
    intro hsecret hv
    unfold BackupInfo.OfVersion at hinfo
    rw [hv] at hinfo
    exact hsecret hinfo.2.2.2
  have hfield : ∀ v : WalletVersion, v ≠ .v1 → .passwordEncryptedSecretMnemonic ∈ v.fields := by
    intro v hv
    cases v <;> first | exact absurd rfl hv | decide +kernel
  have hwritten := written_of_total ((total_foldl pageTexts).of_perm hpages hkeys fun hsecret => by
    dsimp only
    rw [hothers _ (by decide +kernel), if_neg (hdataKey _ (hfield _ (hpassword hsecret)))]
    rfl)
  have hcontent : ∀ j ∈ g.backupInfo.walletVersion.fields, (pageTexts.foldl parsePageText .start).content j =
      (effects (some .walletIdentifier) (b.lines g.identifier)).content j ++
        squeeze (textOf (g.backupInfo.mnemonicFor j)) := by
    intro j hj
    rw [hwritten.content, if_neg (hdataKey j hj), List.nil_append]
  refine ⟨?_, ⟨g.backupInfo.walletVersion.scopeVersion, ?_, ?_⟩, ?_, ?_, fun j hj hid => ?_⟩
  · rw [hwritten.blocktrailKeys, hkeys]
    exact setPubkeys_captions g.blocktrailPublicKeys
  · rw [hwritten.walletVersion, if_pos hprimary, Option.some_or]
  · cases g.backupInfo.walletVersion <;> decide +kernel
  · rw [hwritten.titleVersion, getD_or]
    exact htitle
  · rw [hcontent _ (mem_fields_identifier _), hidentifier, (b.broken g.identifier).squeeze_flatten]
    exact List.append_nil _
  · rw [hcontent j hj, hothers j hid, List.nil_append]

theorem roundTrip_iff (b : LineBreaking) (logo : Option Str) (g : BackupGenerator) (hinfo : g.backupInfo.OfVersion)
    (hquiet : g.Quiet) : RoundTrip b logo g ↔ g.backupInfo.primary.isSome ∧
      Kept g.backupInfo.walletVersion (some g.backupInfo.walletVersion.number) (b.lines g.identifier) := by
  constructor
  · intro h
    exact kept_of_found hinfo hquiet ((recovers_iff hinfo logo _).mp (h _ (List.Perm.refl _)))
  · rintro ⟨hprimary, hkept⟩ pageTexts hperm
    exact (recovers_iff hinfo logo pageTexts).mpr (found_of_kept hinfo hquiet hprimary hkept hperm)

/-- Every text fits on a line. -/
def wholeLines : LineBreaking where
  lines t := [t]
  broken := broken_singleton
  title _ _ := rfl
  caption _ := rfl

def abandonAbility : Mnemonic where
  words := ["abandon", "ability"]
  ne_nil := by decide +kernel
  ne_blank := by decide +kernel
  plain := by decide +kernel

/-- The sheet of a wallet of version 1. -/
def sampleSheet (identifier : Str) : BackupGenerator where
  identifier := identifier
  backupInfo := ⟨.v1, some abandonAbility, some abandonAbility, none, none, none, none⟩
  extraInfo := []
  network := "Bitcoin"
  blocktrailPublicKeys := [⟨0, "xpub0"⟩, ⟨9999, "xpub9999"⟩]

theorem sampleSheet_quiet (identifier : Str) : (sampleSheet identifier).Quiet where
  network := by
    have h : BackupSheet.Quiet ("Bitcoin".toList ++ " Wallet Recovery Data Sheet".toList) := by decide +kernel
    exact h
  extraInfo := by simp [sampleSheet]

/-- A wallet is read back by its name, unless it is called as a title is. -/
theorem roundTrip_names : RoundTrip wholeLines none (sampleSheet "wallet") ∧
    ¬RoundTrip wholeLines none (sampleSheet "Backup Seed") := by
  constructor
  · refine (roundTrip_iff wholeLines none (sampleSheet "wallet") ⟨rfl, rfl, rfl, rfl⟩ (sampleSheet_quiet _)).mpr
      ⟨rfl, by decide +kernel, by decide +kernel, ?_⟩
    rw [if_neg (by decide +kernel)]
    exact ⟨by decide +kernel, by decide +kernel, Or.inl rfl⟩
  · intro h
    obtain ⟨-, hends, -⟩ := (roundTrip_iff wholeLines none (sampleSheet "Backup Seed") ⟨rfl, rfl, rfl, rfl⟩
      (sampleSheet_quiet _)).mp h
    revert hends
    decide +kernel

end BackupSheet
