import Blocktrail.BackupSheet.Identifier

/-! # What the reader makes of a sheet

Its pages, as they are written: every text is broken into lines, and every line is an item of its page.
-/

open Text Bitcoin

namespace BackupSheet

/-! ## Lines of a page -/

/-- The titles that the reader switches on, and the one that ends the identifier. -/
def titles : List Str :=
  ["Wallet Identifier (v1)", "Wallet Identifier (v2)", "Wallet Identifier (v3)", "Backup Info", "Primary Mnemonic",
    "Backup Mnemonic", "Encrypted Primary Seed", "Backup Seed", "Encrypted Recovery Secret", "Password Encrypted Secret",
    "Wallet Recovery Instructions"]

/-- `splitTextToSize`. It leaves out blanks, and breaks no title and no caption: they are shorter than a line. -/
structure LineBreaking where
  lines : Str → List Str
  broken : ∀ t, Broken t (lines t)
  title : ∀ t ∈ titles, lines t = [t]
  caption : ∀ k : PublicKey, lines k.caption = [k.caption]

def LineBreaking.items (b : LineBreaking) (page : Page) : List Str := page.texts.flatMap b.lines

/-- What an image decodes to, with what the logo decodes to. -/
def decoded (logo : Option Str) : Image → Option Str
  | .logo => logo
  | .qr text => some text

/-! ## Mnemonics -/

theorem Mnemonic.quiet (m : Mnemonic) : Quiet m.text := by
  have hword : ∀ t ∈ titleWords, has t m.text = false := by
    intro t ht
    rw [Bool.eq_false_iff]
    intro hhas
    have hinfix := has_iff.mp hhas
    have hfold : fold m.text = [' '].intercalate (m.words.map fold) := fold_intercalate m.words
    rw [hfold] at hinfix
    have hplain : ∀ t ∈ titleWords, ' ' ∉ fold t ∧ fold t ≠ [] := by decide +kernel
    obtain ⟨folded, hfolded, hinfix⟩ := exists_word (hplain t ht).1 (hplain t ht).2 hinfix
    obtain ⟨w, hw, rfl⟩ := List.mem_map.mp hfolded
    have hfalse := m.plain w hw t ht
    rw [has_iff.mpr hinfix] at hfalse
    cases hfalse
  intro phrase hphrase
  have hpart : ∀ p ∈ phrases, ∃ t ∈ titleWords, fold t <:+: fold p := by decide +kernel
  obtain ⟨t, ht, hpart⟩ := hpart phrase hphrase
  rw [Bool.eq_false_iff]
  intro hhas
  have hfalse := hword t ht
  rw [has_of_phrase hpart hhas] at hfalse
  cases hfalse

def textOf (m : Option Mnemonic) : Str := m.elim [] Mnemonic.text

/-! ## Captions -/

/-- The letters of a caption, but for the digits. -/
def captionLetters : Str := "keyindx: path:m/".toList ++ [apostrophe]

theorem toLower_of_isDigit {c : Char} (h : c.isDigit = true) : c.toLower = c := by
  have hupper : ¬(65 ≤ c.val ∧ c.val ≤ 90) := by
    rintro ⟨hlow, -⟩
    simp only [Char.isDigit, ge_iff_le, Bool.and_eq_true, decide_eq_true_eq] at h
    have hlow := UInt32.le_iff_toNat_le.mp hlow
    have hhigh := UInt32.le_iff_toNat_le.mp h.2
    simp at hlow hhigh
    omega
  unfold Char.toLower
  exact dif_neg hupper

theorem fold_dec (n : Nat) : fold (dec n) = dec n :=
  (List.map_congr_left fun _ hc => toLower_of_isDigit (isDigit_of_mem_dec hc)).trans (List.map_id' _)

theorem fold_append (s t : Str) : fold (s ++ t) = fold s ++ fold t := List.map_append ..

theorem mem_fold_caption {k : PublicKey} {c : Char} (h : c ∈ fold k.caption) :
    c ∈ captionLetters ∨ c.isDigit = true := by
  have hpart : ∀ {s : Str}, ((fold s).all fun c => decide (c ∈ captionLetters)) = true → ∀ c ∈ fold s, c ∈ captionLetters :=
    fun hs c hc => of_decide_eq_true (List.all_eq_true.mp hs c hc)
  unfold PublicKey.caption accountPath at h
  simp only [fold_append, fold_dec, List.mem_append] at h
  rcases h with h | h | h | h | h | h
  · exact Or.inl (hpart rfl c h)
  · exact Or.inr (isDigit_of_mem_dec h)
  · exact Or.inl (hpart rfl c h)
  · exact Or.inl (hpart rfl c h)
  · exact Or.inr (isDigit_of_mem_dec h)
  · exact Or.inl (hpart rfl c h)

theorem plain_caption (k : PublicKey) : Plain k.caption := by
  have hother : ∀ p ∈ phrases, p ≠ "KeyIndex:".toList →
      ((fold p).any fun c => !decide (c ∈ captionLetters) && !c.isDigit) = true := by decide +kernel
  intro phrase hphrase hne
  obtain ⟨c, hc, hother⟩ := List.any_eq_true.mp (hother phrase hphrase hne)
  rw [Bool.and_eq_true, Bool.not_eq_true', Bool.not_eq_true', decide_eq_false_iff_not] at hother
  refine not_has_of_not_mem hc fun hmem => ?_
  rcases mem_fold_caption hmem with hmem | hmem
  · exact hother.1 hmem
  · rw [hother.2] at hmem
    cases hmem

theorem keyIndexAt_caption (k : PublicKey) : keyIndexAt k.caption = some (some (k.keyIndex : Int)) := by
  have hstart : startsWith "KeyIndex: " k.caption = true := by
    unfold startsWith PublicKey.caption
    rw [fold_append, List.isPrefixOf_iff_prefix]
    exact List.prefix_append _ _
  have hdrop : k.caption.drop 10 = dec k.keyIndex ++ (" Path: ".toList ++ accountPath k.keyIndex) := rfl
  unfold keyIndexAt
  rw [if_pos hstart, hdrop, List.takeWhile_append_of_pos fun _ => isDigit_of_mem_dec]
  have hblank : (" Path: ".toList ++ accountPath k.keyIndex).takeWhile Char.isDigit = [] := rfl
  rw [hblank, List.append_nil, parseInt_dec]

theorem none_stores (s : Str) : (fun j : DataKey => if none = some j then s else []) = fun _ => [] :=
  funext fun j => if_neg (Option.some_ne_none j).symm

theorem effectOf_caption (k : PublicKey) :
    effectOf none k.caption = ⟨none, none, none, [⟨some k.keyIndex, none⟩], fun _ => []⟩ := by
  have hmatch := firstMatch_of_front (keyIndexAt_caption k)
  rw [(plain_caption k).effectOf, hmatch, none_stores]
  rfl

theorem effects_captions (ks : List PublicKey) :
    effects none (ks.map PublicKey.caption) = ⟨none, none, none, ks.map fun k => ⟨some k.keyIndex, none⟩, fun _ => []⟩ := by
  induction ks with
  | nil => rfl
  | cons k ks ih =>
    have hnext : next none k.caption = none := congrArg Effect.dataKey (effectOf_caption k)
    rw [List.map_cons, effects, effectOf_caption, hnext, ih]
    rfl

/-! ## Texts -/

section Texts

variable (b : LineBreaking)

theorem quiet_lines {t : Str} (h : Quiet t) : ∀ l ∈ b.lines t, Quiet l :=
  fun _ hl => h.of_piece ((b.broken t).piece hl)

theorem effects_texts {ts : List Str} (h : ∀ t ∈ ts, Quiet t) : effects none (ts.flatMap b.lines) = .none none := by
  have hquiet : ∀ l ∈ ts.flatMap b.lines, Quiet l := by
    intro l hl
    obtain ⟨t, ht, hl⟩ := List.mem_flatMap.mp hl
    exact quiet_lines b (h t ht) l hl
  rw [effects_quiet (by decide +kernel) hquiet, none_stores]
  rfl

theorem effects_text {j : DataKey} (hj : j ≠ .walletIdentifier) {t : Str} (h : Quiet t) :
    effects (some j) (b.lines t) = ⟨some j, none, none, [], fun i => if j = i then squeeze t else []⟩ := by
  rw [effects_quiet (fun hsome => hj (Option.some.inj hsome)) (quiet_lines b h), (b.broken t).squeeze_flatten]
  refine Effect.ext rfl rfl rfl rfl (funext fun i => ?_)
  simp only [Option.some.injEq]

end Texts

/-! ## Sections -/

/-- A title of a mnemonic, and what it asks for. It ends what is asked for before, unless nothing is. -/
structure Heads (title : Str) (j : DataKey) (k : Option DataKey) : Prop where
  mem : title ∈ titles
  asks : asks title = some j
  ne : j ≠ .walletIdentifier
  under : under k title = none
  keys : keysOf title = []
  version : firstMatch titleVersionAt title = none

/-- **A section.** -/
theorem effects_section (b : LineBreaking) {title : Str} {j : DataKey} {k : Option DataKey} (h : Heads title j k)
    (m : Option Mnemonic) :
    effects k ((infoSection title m).flatMap b.lines) =
      ⟨if m.isSome then some j else k, if m.isSome then versionFor (some j) else none, none, [],
        fun i => if j = i then squeeze (textOf m) else []⟩ := by
  cases m with
  | none =>
    refine Effect.ext rfl rfl rfl rfl (funext fun i => ?_)
    exact (ite_self _).symm
  | some m =>
    have htitle : effects k [title] = ⟨some j, versionFor (some j), none, [], fun _ => []⟩ := by
      have heffect : effectOf k title = ⟨some j, versionFor (some j), none, [], fun _ => []⟩ := by
        unfold effectOf next
        rw [h.asks, h.under, h.keys, h.version, none_stores]
        rfl
      rw [effects, heffect, next, h.asks]
      exact Effect.append_none _
    have hlines : (infoSection title (some m)).flatMap b.lines = [title] ++ b.lines m.text := by
      unfold infoSection
      rw [List.flatMap_cons, List.flatMap_singleton, b.title title h.mem]
    rw [hlines, effects_append, htitle, effects_text b h.ne m.quiet]
    refine Effect.ext rfl ?_ rfl rfl (funext fun i => rfl)
    exact Option.none_or

/-! ## What is asked for before -/

theorem under_none (l : Str) : under none l = none := ite_self _

/-- Lines that are read under a key do the same as without it, and store a text in front. -/
theorem effects_some (j : DataKey) (ls : List Str) :
    ∃ extra k, effects (some j) ls = ⟨k, (effects none ls).walletVersion, (effects none ls).titleVersion,
      (effects none ls).blocktrailKeys, fun i => (if j = i then extra else []) ++ (effects none ls).content i⟩ := by
  induction ls with
  | nil =>
    refine ⟨[], some j, Effect.ext rfl rfl rfl rfl (funext fun i => ?_)⟩
    show [] = (if j = i then [] else []) ++ []
    rw [ite_self]
    rfl
  | cons l ls ih =>
    have hown : ∀ i, (if under (some j) l = some i then squeeze l else []) =
        if j = i then (if ends l then [] else squeeze l) else [] := by
      intro i
      unfold under
      cases ends l <;> simp
    have hnone : ∀ i : DataKey, (if under none l = some i then squeeze l else []) = [] := by
      intro i
      rw [under_none]
      exact if_neg (Option.some_ne_none i).symm
    have hnext : next (some j) l = next none l ∨ next (some j) l = some j ∧ next none l = none := by
      unfold next
      rw [under_none]
      cases asks l with
      | some a => exact Or.inl rfl
      | none =>
        unfold under
        cases ends l with
        | true => exact Or.inl rfl
        | false => cases j <;> first | exact Or.inl rfl | exact Or.inr ⟨rfl, rfl⟩
    rcases hnext with hsame | ⟨hsome, hnil⟩
    · refine ⟨if ends l then [] else squeeze l, (effects (some j) (l :: ls)).dataKey, ?_⟩
      rw [effects, effects, hsame]
      refine Effect.ext rfl rfl rfl rfl (funext fun i => ?_)
      show (if under (some j) l = some i then squeeze l else []) ++ _ =
        _ ++ ((if under none l = some i then squeeze l else []) ++ _)
      rw [hown, hnone, List.nil_append]
    · obtain ⟨extra, k, hrest⟩ := ih
      refine ⟨(if ends l then [] else squeeze l) ++ extra, k, ?_⟩
      rw [effects, effects, hsome, hnil, hrest]
      refine Effect.ext rfl rfl rfl rfl (funext fun i => ?_)
      show (if under (some j) l = some i then squeeze l else []) ++ (_ ++ _) =
        _ ++ ((if under none l = some i then squeeze l else []) ++ _)
      rw [hown, hnone, List.nil_append, ← List.append_assoc]
      congr 1
      split
      · rfl
      · rfl

/-- The title behind the identifier goes to what the identifier asks for. -/
theorem effects_info (k : Option DataKey) (ls : List Str) :
    ∃ extra k', extra ≠ [] ∧ (k = some .walletIdentifier → extra = squeeze "Backup Info") ∧
      effects k ("Backup Info".toList :: ls) = ⟨k', (effects none ls).walletVersion, (effects none ls).titleVersion,
        (effects none ls).blocktrailKeys, fun i => (if k = some i then extra else []) ++ (effects none ls).content i⟩ := by
  have hquiet : Quiet "Backup Info" := by decide +kernel
  have hne : squeeze "Backup Info" ≠ [] := by decide +kernel
  have hnext : next k "Backup Info".toList = left k := congrArg Effect.dataKey (hquiet.effectOf k)
  rw [effects, hquiet.effectOf, hnext]
  by_cases hleft : left k = none
  · refine ⟨squeeze "Backup Info", (effects none ls).dataKey, hne, fun _ => rfl, ?_⟩
    rw [hleft]
    exact Effect.ext rfl Option.or_none Option.or_none rfl rfl
  · obtain ⟨j, hj⟩ := Option.ne_none_iff_exists'.mp hleft
    have hk : k ≠ some .walletIdentifier := by
      rintro rfl
      exact hleft rfl
    rw [left_of_ne hk] at hj ⊢
    subst hj
    obtain ⟨extra, k', hrest⟩ := effects_some j ls
    refine ⟨squeeze "Backup Info" ++ extra, k', List.append_ne_nil_of_left_ne_nil hne _, fun h => absurd h hk, ?_⟩
    rw [hrest]
    refine Effect.ext rfl Option.or_none Option.or_none rfl (funext fun i => ?_)
    show (if some j = some i then _ else []) ++ ((if j = i then _ else []) ++ _) = (if some j = some i then _ else []) ++ _
    rw [← List.append_assoc]
    congr 1
    simp only [Option.some.injEq]
    split
    · rfl
    · rfl

/-! ## Pages -/

def WalletVersion.scopeVersion : WalletVersion → Nat
  | v1 => 1
  | _ => 2

/-- A wallet has the mnemonics of its version, each of them or not. -/
def BackupInfo.OfVersion (i : BackupInfo) : Prop :=
  match i.walletVersion with
  | .v1 => i.encryptedPrimarySeed = none ∧ i.backupSeed = none ∧ i.recoveryEncryptedSecret = none ∧
      i.encryptedSecret = none
  | _ => i.primaryMnemonic = none ∧ i.backupMnemonic = none

def BackupInfo.primary (i : BackupInfo) : Option Mnemonic :=
  match i.walletVersion with
  | .v1 => i.primaryMnemonic
  | _ => i.encryptedPrimarySeed

/-- What is written for a text of the data. -/
def BackupInfo.mnemonicFor (i : BackupInfo) : DataKey → Option Mnemonic
  | .walletIdentifier => none
  | .primaryMnemonic => i.primaryMnemonic
  | .backupMnemonic => i.backupMnemonic.or i.backupSeed
  | .encryptedPrimaryMnemonic => i.encryptedPrimarySeed
  | .encryptedRecoverySecretMnemonic => i.recoveryEncryptedSecret
  | .passwordEncryptedSecretMnemonic => i.encryptedSecret

def sections (i : BackupInfo) : List Str :=
  infoSection "Primary Mnemonic" i.primaryMnemonic ++ infoSection "Backup Mnemonic" i.backupMnemonic ++
    infoSection "Encrypted Primary Seed" i.encryptedPrimarySeed ++ infoSection "Backup Seed" i.backupSeed ++
    infoSection "Encrypted Recovery Secret" i.recoveryEncryptedSecret

theorem heads_primary : Heads "Primary Mnemonic" .primaryMnemonic none :=
  ⟨by decide +kernel, by decide +kernel, by decide +kernel, by decide +kernel, by decide +kernel, by decide +kernel⟩

theorem heads_encryptedPrimary : Heads "Encrypted Primary Seed" .encryptedPrimaryMnemonic none :=
  ⟨by decide +kernel, by decide +kernel, by decide +kernel, by decide +kernel, by decide +kernel, by decide +kernel⟩

theorem heads_password : Heads "Password Encrypted Secret" .passwordEncryptedSecretMnemonic none :=
  ⟨by decide +kernel, by decide +kernel, by decide +kernel, by decide +kernel, by decide +kernel, by decide +kernel⟩

theorem heads_backup (k : Option DataKey) : Heads "Backup Mnemonic" .backupMnemonic k :=
  ⟨by decide +kernel, by decide +kernel, by decide +kernel, if_pos (by decide +kernel), by decide +kernel, by decide +kernel⟩

theorem heads_backupSeed (k : Option DataKey) : Heads "Backup Seed" .backupMnemonic k :=
  ⟨by decide +kernel, by decide +kernel, by decide +kernel, if_pos (by decide +kernel), by decide +kernel, by decide +kernel⟩

theorem heads_recovery (k : Option DataKey) :
    Heads "Encrypted Recovery Secret" .encryptedRecoverySecretMnemonic k :=
  ⟨by decide +kernel, by decide +kernel, by decide +kernel, if_pos (by decide +kernel), by decide +kernel, by decide +kernel⟩

theorem infoSection_none (title : Str) : infoSection title none = [] := rfl

theorem effects_sections_v1 (b : LineBreaking) (primary backup : Option Mnemonic) :
    ∃ k, effects none ((infoSection "Primary Mnemonic" primary ++ infoSection "Backup Mnemonic" backup).flatMap b.lines) =
      ⟨k, if primary.isSome then some 1 else none, none, [], fun j =>
        match j with
        | .primaryMnemonic => squeeze (textOf primary)
        | .backupMnemonic => squeeze (textOf backup)
        | _ => []⟩ := by
  rw [List.flatMap_append, effects_append, effects_section b heads_primary, effects_section b (heads_backup _)]
  refine ⟨_, Effect.ext rfl ?_ rfl rfl (funext fun j => ?_)⟩
  · cases primary <;> cases backup <;> rfl
  · cases j <;> simp [Effect.append]

theorem effects_sections_v2 (b : LineBreaking) (seed backupSeed recovery : Option Mnemonic) :
    ∃ k, effects none ((infoSection "Encrypted Primary Seed" seed ++ infoSection "Backup Seed" backupSeed ++
        infoSection "Encrypted Recovery Secret" recovery).flatMap b.lines) =
      ⟨k, if seed.isSome then some 2 else none, none, [], fun j =>
        match j with
        | .encryptedPrimaryMnemonic => squeeze (textOf seed)
        | .backupMnemonic => squeeze (textOf backupSeed)
        | .encryptedRecoverySecretMnemonic => squeeze (textOf recovery)
        | _ => []⟩ := by
  rw [List.flatMap_append, List.flatMap_append, effects_append, effects_append, effects_section b heads_encryptedPrimary,
    effects_section b (heads_backupSeed _), effects_section b (heads_recovery _)]
  refine ⟨_, Effect.ext rfl ?_ rfl rfl (funext fun j => ?_)⟩
  · cases seed <;> cases backupSeed <;> cases recovery <;> rfl
  · cases j <;> simp [Effect.append]

theorem effects_sections (b : LineBreaking) {i : BackupInfo} (h : i.OfVersion) :
    ∃ k, effects none ((sections i).flatMap b.lines) =
      ⟨k, if i.primary.isSome then some i.walletVersion.scopeVersion else none, none, [],
        fun j => if j = .passwordEncryptedSecretMnemonic then [] else squeeze (textOf (i.mnemonicFor j))⟩ := by
  obtain ⟨version, primary, backup, seed, backupSeed, recovery, secret⟩ := i
  cases version with
  | v1 =>
    obtain ⟨rfl, rfl, rfl, rfl⟩ := h
    obtain ⟨k, heffects⟩ := effects_sections_v1 b primary backup
    refine ⟨k, ?_⟩
    unfold sections
    simp only [infoSection_none, List.append_nil]
    rw [heffects]
    refine Effect.ext rfl rfl rfl rfl (funext fun j => ?_)
    cases j <;> simp [BackupInfo.mnemonicFor, textOf]
  | _ =>
    obtain ⟨rfl, rfl⟩ := h
    obtain ⟨k, heffects⟩ := effects_sections_v2 b seed backupSeed recovery
    refine ⟨k, ?_⟩
    unfold sections
    simp only [infoSection_none, List.nil_append]
    rw [heffects]
    refine Effect.ext rfl rfl rfl rfl (funext fun j => ?_)
    cases j <;> simp [BackupInfo.mnemonicFor, textOf]

section Pages

variable (b : LineBreaking) {g : BackupGenerator}

/-- The texts besides those of a wallet have none of the phrases. -/
structure BackupGenerator.Quiet (g : BackupGenerator) : Prop where
  network : BackupSheet.Quiet (g.network ++ " Wallet Recovery Data Sheet".toList)
  extraInfo : ∀ t ∈ g.extraInfo.flatMap ExtraInfo.texts, BackupSheet.Quiet t

theorem mem_titles (g : BackupGenerator) : g.title ∈ titles := by
  unfold BackupGenerator.title
  cases g.backupInfo.walletVersion <;> decide +kernel

theorem effects_title (g : BackupGenerator) : effects none [g.title] =
    ⟨some .walletIdentifier, none, some (some g.backupInfo.walletVersion.number), [], fun _ => []⟩ := by
  have hline : asks g.title = some .walletIdentifier ∧ keysOf g.title = [] ∧
      firstMatch titleVersionAt g.title = some (some g.backupInfo.walletVersion.number) := by
    unfold BackupGenerator.title
    cases g.backupInfo.walletVersion <;> decide +kernel
  obtain ⟨hasks, hkeys, hversion⟩ := hline
  rw [effects, effectOf, next, under_none, hasks, hkeys, hversion, none_stores]
  rfl

/-- **Page 1.** What the identifier does, and what is written behind it. -/
theorem effects_page1 (hinfo : g.backupInfo.OfVersion) (hquiet : g.Quiet) :
    ∃ extra k, extra ≠ [] ∧
      ((effects (some .walletIdentifier) (b.lines g.identifier)).dataKey = some .walletIdentifier →
        extra = squeeze "Backup Info") ∧
      effects none (b.items g.page1) =
        ⟨k, (if g.backupInfo.primary.isSome then some g.backupInfo.walletVersion.scopeVersion else none).or
            (effects (some .walletIdentifier) (b.lines g.identifier)).walletVersion,
          (effects (some .walletIdentifier) (b.lines g.identifier)).titleVersion.or
            (some (some g.backupInfo.walletVersion.number)),
          (effects (some .walletIdentifier) (b.lines g.identifier)).blocktrailKeys,
          fun j => (effects (some .walletIdentifier) (b.lines g.identifier)).content j ++
            ((if (effects (some .walletIdentifier) (b.lines g.identifier)).dataKey = some j then extra else []) ++
              if j = .passwordEncryptedSecretMnemonic then []
              else squeeze (textOf (g.backupInfo.mnemonicFor j)))⟩ := by
  have hintro : BackupSheet.Quiet intro := by decide +kernel
  have htexts : g.page1.texts = [g.network ++ " Wallet Recovery Data Sheet".toList, intro] ++
      (g.title :: g.identifier :: "Backup Info".toList :: sections g.backupInfo) := by
    unfold BackupGenerator.page1 sections
    simp only [List.append_assoc, List.cons_append, List.nil_append]
  have hitems : b.items g.page1 = [g.network ++ " Wallet Recovery Data Sheet".toList, intro].flatMap b.lines ++
      ([g.title] ++ (b.lines g.identifier ++ ("Backup Info".toList :: (sections g.backupInfo).flatMap b.lines))) := by
    unfold LineBreaking.items
    rw [htexts, List.flatMap_append]
    congr 1
    rw [List.flatMap_cons, List.flatMap_cons, List.flatMap_cons, b.title g.title (mem_titles g),
      b.title "Backup Info".toList (by decide +kernel), List.singleton_append]
    rfl
  have hhead : ∀ t ∈ [g.network ++ " Wallet Recovery Data Sheet".toList, intro], BackupSheet.Quiet t := by
    simpa using ⟨hquiet.network, hintro⟩
  obtain ⟨k, hsections⟩ := effects_sections b hinfo
  obtain ⟨extra, k', hne, hextra, hinfo⟩ := effects_info
    (effects (some .walletIdentifier) (b.lines g.identifier)).dataKey ((sections g.backupInfo).flatMap b.lines)
  refine ⟨extra, k', hne, hextra, ?_⟩
  rw [hitems, effects_append, effects_texts b hhead, Effect.none_append, Effect.none_dataKey, effects_append,
    effects_title, effects_append, hinfo, hsections]
  exact Effect.ext rfl Option.or_none rfl (List.append_nil _) rfl

theorem quiet_inTotal (n : Nat) : BackupSheet.Quiet (dec n ++ " in total".toList) := by
  have hletter : ∀ p ∈ phrases, 'e' ∈ fold p := by decide +kernel
  have hrest : 'e' ∉ fold " in total" := by decide +kernel
  have hdigit : 'e' ∉ dec n := not_mem_dec (by decide +kernel) n
  intro phrase hphrase
  refine not_has_of_not_mem (hletter phrase hphrase) ?_
  rw [fold_append, fold_dec, List.mem_append, not_or]
  exact ⟨hdigit, hrest⟩

theorem effects_recoveryInstructions (k : Option DataKey) :
    effects k (recoveryInstructions.flatMap b.lines) = .none none := by
  have hquiet : BackupSheet.Quiet instructions := by decide +kernel
  have htitle : effectOf k "Wallet Recovery Instructions".toList = .none none := by
    have hunder : under k "Wallet Recovery Instructions".toList = none := if_pos (by decide +kernel)
    have hasks : asks "Wallet Recovery Instructions".toList = none := by decide +kernel
    have hkeys : keysOf "Wallet Recovery Instructions".toList = [] := by decide +kernel
    have hversion : firstMatch titleVersionAt "Wallet Recovery Instructions".toList = none := by decide +kernel
    rw [effectOf, next, hunder, hasks, hkeys, hversion, none_stores]
    rfl
  have hnext : next k "Wallet Recovery Instructions".toList = none := congrArg Effect.dataKey htitle
  unfold recoveryInstructions
  rw [List.flatMap_cons, b.title "Wallet Recovery Instructions".toList (by decide +kernel), List.singleton_append, effects, htitle,
    hnext, effects_texts b (by simpa using hquiet)]
  rfl

/-- What page 2 does. -/
def keysEffect (g : BackupGenerator) : Effect :=
  ⟨none, none, none, g.blocktrailPublicKeys.map fun k => ⟨some k.keyIndex, none⟩, fun _ => []⟩

theorem flatMap_captions (ks : List PublicKey) :
    (ks.map PublicKey.caption).flatMap b.lines = ks.map PublicKey.caption := by
  rw [List.flatMap_map, ← List.flatMap_singleton' (ks.map PublicKey.caption), List.flatMap_map]
  exact List.flatMap_congr fun k _ => b.caption k

/-- **Page 2.** -/
theorem effects_page2Texts (hquiet : g.Quiet) : effects none (g.page2Texts.flatMap b.lines) = keysEffect g := by
  have hhead : ∀ t ∈ ["BTC Wallet Public Keys".toList, dec g.blocktrailPublicKeys.length ++ " in total".toList],
      BackupSheet.Quiet t := by
    have htitle : BackupSheet.Quiet "BTC Wallet Public Keys" := by decide +kernel
    simpa using ⟨htitle, quiet_inTotal _⟩
  unfold BackupGenerator.page2Texts
  rw [List.flatMap_append, List.flatMap_append, effects_append, effects_append, effects_texts b hhead,
    Effect.none_append, Effect.none_dataKey, flatMap_captions, effects_captions, effects_texts b hquiet.extraInfo]
  exact Effect.append_none _

/-- What page 3 does. -/
def passwordEffect (encryptedSecret : Mnemonic) : Effect :=
  ⟨none, none, none, [], fun j => if j = .passwordEncryptedSecretMnemonic then squeeze encryptedSecret.text else []⟩

/-- The texts of page 3. -/
def page3Texts (encryptedSecret : Mnemonic) : List Str :=
  ["Backup Info - part 2".toList, "This page needs to be replaced / updated when wallet password is changed!".toList,
    "Password Encrypted Secret".toList, encryptedSecret.text] ++ recoveryInstructions

/-- **Page 3.** -/
theorem effects_page3 (m : Mnemonic) : effects none ((page3Texts m).flatMap b.lines) = passwordEffect m := by
  have hhead : ∀ t ∈ ["Backup Info - part 2".toList,
      "This page needs to be replaced / updated when wallet password is changed!".toList], BackupSheet.Quiet t := by
    decide +kernel
  have htexts : page3Texts m = ["Backup Info - part 2".toList,
      "This page needs to be replaced / updated when wallet password is changed!".toList] ++
        (infoSection "Password Encrypted Secret" (some m) ++ recoveryInstructions) := rfl
  rw [htexts, List.flatMap_append, List.flatMap_append, effects_append, effects_texts b hhead, Effect.none_append,
    Effect.none_dataKey, effects_append, effects_section b heads_password, effects_recoveryInstructions]
  refine Effect.ext rfl rfl rfl rfl (funext fun j => (List.append_nil _).trans ?_)
  cases j <;> rfl

end Pages

end BackupSheet
