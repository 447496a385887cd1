import Blocktrail.PhpSdk.KeyLabels

/-! # Parent keys

The wallet derives the key of a path from the public key of the parent path, where it can. Derived from the account
key itself it is the same key, unless one of the last two levels is empty.
-/

open Text Throwing Bitcoin

namespace PhpSdk

variable {Node : Type}

/-- The scripts of a path from the account key itself. -/
def Wallet.directScript (php : BitWasp Node) (w : Wallet Node) (path : Str) : Except PhpError WalletScript := do
  let path ← BIP32Path.ofText path
  let key ← entry (w.primaryPublicKeys path.getKeyIndex) >>= fun key => key.buildKey php path
  w.getWalletScriptFromKey php key path

/-- The account keys are public and have the paths of their indexes. -/
def AccountKeys (hk : HierarchicalKeys Node) (w : Wallet Node) : Prop :=
  ∀ idx key, w.primaryPublicKeys idx = some key →
    idx ≠ [] ∧ key.path = ⟨true, [idx ++ [apostrophe]]⟩ ∧ hk.isPrivate key.key = false

/-- Neither of the last two levels is empty. -/
def BIP32Path.EndsWell (p : BIP32Path) : Prop :=
  p.levels.getLast? ≠ some [] ∧ p.levels.dropLast.getLast? ≠ some []

/-! ## Texts -/

def strip (s : Str) : Str := if s.head? = some '/' then s.tail else s

theorem cut_eq (keyPath path : BIP32Path) : cut keyPath path = strip (path.toText.drop keyPath.toText.length) := rfl

theorem toText_drop (b : Bool) (ls : List Str) (n : Nat) :
    (⟨b, ls⟩ : BIP32Path).toText.drop (n + 1) = (ls.flatMap ('/' :: ·)).drop n := by
  cases b <;> rfl

theorem getLast?_flatMap {ls : List Str} {z : Str} (hz : z ≠ []) (h : ls.getLast? = some z) :
    (ls.flatMap ('/' :: ·)).getLast? = z.getLast? := by
  obtain ⟨ls', rfl⟩ : ∃ ls', ls = ls' ++ [z] := ⟨ls.dropLast, (List.dropLast_append_getLast? z h).symm⟩
  rw [List.flatMap_append, List.flatMap_singleton, List.getLast?_append, List.getLast?_cons]
  rcases hl : z.getLast? with _ | c
  · exact absurd (List.getLast?_eq_none_iff.mp hl) hz
  · rfl

theorem drop_ne_slash {ls : List Str} (hslash : ∀ l ∈ ls, '/' ∉ l) (hlast : ls.getLast? ≠ some []) (n : Nat) :
    (ls.flatMap ('/' :: ·)).drop n ≠ ['/'] := by
  intro h
  rcases hl : ls.getLast? with _ | z
  · rw [List.getLast?_eq_none_iff.mp hl] at h
    simp at h
  · have hz : z ≠ [] := fun hz => hlast (hl.trans (congrArg some hz))
    have hend : (ls.flatMap ('/' :: ·)).getLast? = some '/' := by
      rw [← List.take_append_drop n (ls.flatMap ('/' :: ·)), h]
      simp
    rw [getLast?_flatMap hz hl] at hend
    exact hslash z (List.mem_of_getLast? hl) (List.mem_of_getLast? hend)

section Derive

variable {hk : HierarchicalKeys Node} {php : BitWasp Node} (hl : hk.Lawful php)

/-- The key of a text: nothing, or components. -/
def deriveText (hk : HierarchicalKeys Node) (n : Node) (text : Str) : Option Node :=
  if text = [] then some n else (text.splitOn '/').foldlM hk.derive n

theorem deriveText_strip {d x : Str} (hd : d ≠ ['/']) (hx : x ≠ []) (n : Node) :
    (deriveText hk n (strip d)).bind (fun p => deriveText hk p x) = deriveText hk n (strip (d ++ '/' :: x)) := by
  have happend : ∀ y : Str, y ≠ [] → (deriveText hk n y).bind (fun p => deriveText hk p x) =
      deriveText hk n (y ++ '/' :: x) := by
    intro y hy
    simp only [deriveText, if_neg hx, if_neg hy]
    rw [if_neg (by simp), List.splitOn_append_cons_self, List.foldlM_append]
    rfl
  cases d with
  | nil => simp [strip, deriveText]
  | cons c y =>
    by_cases hc : c = '/'
    · subst hc
      have hy : y ≠ [] := fun hy => hd (by rw [hy])
      simpa [strip] using happend y hy
    · simpa [strip, hc] using happend (c :: y) (List.cons_ne_nil c y)

theorem buildKey_own (hpub : ∀ n, hk.isPrivate n = false → php.toPublic n = n) {n : Node} (hn : hk.isPrivate n = false)
    (c : Bool) (ls : List Str) :
    (⟨n, ⟨c, ls⟩⟩ : BIP32Key Node).buildKey php ⟨true, ls⟩ = .ok ⟨n, ⟨true, ls⟩⟩ := by
  cases c with
  | true => exact buildKey_self php n ⟨true, ls⟩
  | false =>
    have h := buildKey_below php n (b := false) (c := true) (fun _ => rfl) ls []
    rw [List.append_nil] at h
    rw [h]
    simp [Php.implode, hpub n hn, bind, Except.bind, pure, Except.pure]

/-- The scripts of a public key do not depend on the letter its path starts with. -/
theorem getWalletScriptFromKey_label (hpub : ∀ n, hk.isPrivate n = false → php.toPublic n = n) (w : Wallet Node)
    {n : Node} (hn : hk.isPrivate n = false) (c : Bool) (ls : List Str) (b : Bool) :
    w.getWalletScriptFromKey php ⟨n, ⟨true, ls⟩⟩ ⟨b, ls⟩ = w.getWalletScriptFromKey php ⟨n, ⟨c, ls⟩⟩ ⟨b, ls⟩ := by
  have hbuild : ∀ c', (⟨n, ⟨c', ls⟩⟩ : BIP32Key Node).buildKey php (⟨b, ls⟩ : BIP32Path).publicPath =
      .ok ⟨n, ⟨true, ls⟩⟩ := fun c' => buildKey_own hpub hn c' ls
  unfold Wallet.getWalletScriptFromKey
  simp only [hbuild]
  rfl

theorem getKeyIndex_append {b c : Bool} {ls : List Str} (h : ls ≠ []) (x : Str) :
    (⟨b, ls⟩ : BIP32Path).getKeyIndex = (⟨c, ls ++ [x]⟩ : BIP32Path).getKeyIndex := by
  cases ls with
  | nil => contradiction
  | cons l ls => rfl

theorem length_getKeyIndex {b : Bool} {ls : List Str} (h : 2 ≤ ls.length) :
    (⟨b, ls⟩ : BIP32Path).getKeyIndex.length + 2 ≤ (ls.flatMap ('/' :: ·)).length := by
  match ls, h with
  | l :: l' :: ls, _ =>
    have hfilter : (⟨b, l :: l' :: ls⟩ : BIP32Path).getKeyIndex.length ≤ l.length := List.length_filter_le _ l
    simp only [List.flatMap_cons, List.length_append, List.length_cons]
    omega

include hl

theorem isPrivate_deriveText {n m : Node} {text : Str} (h : deriveText hk n text = some m) :
    hk.isPrivate m = hk.isPrivate n := by
  unfold deriveText at h
  split at h
  · cases h
    rfl
  · exact isPrivate_foldlM hl h

theorem buildKey_toOption (k : BIP32Key Node) (hpub : k.path.isPublicPath = true) (path : BIP32Path) :
    (k.buildKey php path).toOption = (deriveText hk k.key (cut k.path path)).map fun n => ⟨n, path⟩ := by
  unfold BIP32Key.buildKey
  simp only [hpub, Bool.not_true, Bool.and_false, Bool.false_eq_true, if_false]
  rw [cut_eq, deriveText]
  unfold strip
  by_cases hnil : (if (path.toText.drop k.path.toText.length).head? = some '/' then
      (path.toText.drop k.path.toText.length).tail else path.toText.drop k.path.toText.length) = []
  · simp only [if_pos hnil]
    rfl
  · simp only [if_neg hnil, hl.derivePath _ _ hnil]
    cases List.foldlM hk.derive k.key _ <;> rfl

/-- The key of a path by way of its parent, and at once. -/
theorem buildKey_parent (n : Node) (idx : Str) {x : Str} {ls : List Str} (c : Bool) (hslash : ∀ l ∈ ls, '/' ∉ l)
    (hidx : idx.length + 2 ≤ (ls.flatMap ('/' :: ·)).length) (hlast : ls.getLast? ≠ some []) (hx : x ≠ []) :
    ((⟨n, ⟨true, [idx ++ [apostrophe]]⟩⟩ : BIP32Key Node).buildKey php ⟨true, ls⟩).toOption.bind
        (fun parent => (parent.buildKey php ⟨true, ls ++ [x]⟩).toOption) =
      ((⟨n, ⟨true, [idx ++ [apostrophe]]⟩⟩ : BIP32Key Node).buildKey php ⟨c, ls ++ [x]⟩).toOption.map
        fun key => ⟨key.key, ⟨true, ls ++ [x]⟩⟩ := by
  have hlabel : (⟨true, [idx ++ [apostrophe]]⟩ : BIP32Path).toText.length = idx.length + 2 + 1 := by
    simp [BIP32Path.toText_eq, BIP32Path.head]
  have hcut : ∀ c', cut ⟨true, [idx ++ [apostrophe]]⟩ ⟨c', ls ++ [x]⟩ =
      strip ((ls.flatMap ('/' :: ·)).drop (idx.length + 2) ++ '/' :: x) := by
    intro c'
    rw [cut_eq, hlabel, toText_drop, List.flatMap_append, List.drop_append_of_le_length hidx]
    simp
  have hchild : cut ⟨true, ls⟩ ⟨true, ls ++ [x]⟩ = x := by
    rw [cut_eq, toText_append, List.drop_left]
    simp [strip]
  rw [buildKey_toOption hl _ rfl, buildKey_toOption hl _ rfl, hcut c, cut_eq, hlabel, toText_drop,
    ← deriveText_strip (drop_ne_slash hslash hlast _) hx]
  rcases deriveText hk n (strip ((ls.flatMap ('/' :: ·)).drop (idx.length + 2))) with _ | p
  · rfl
  · simp only [Option.map_some, Option.bind_some]
    rw [buildKey_toOption hl _ rfl, hchild]
    simp only [Option.map_map, Function.comp_def]

/-- **Parent keys.** By way of the parent key or not, a path has the same scripts. -/
theorem getWalletScriptByPath_eq_direct (hpub : ∀ n, hk.isPrivate n = false → php.toPublic n = n) {w : Wallet Node}
    (hacc : AccountKeys hk w) {text : Str} {path : BIP32Path} (hpath : BIP32Path.ofText text = .ok path)
    (hends : path.EndsWell) : (w.getWalletScriptByPath php text).toOption = (w.directScript php text).toOption := by
  have hexp := BIP32Path.exploded_of_ofText hpath
  unfold Wallet.getWalletScriptByPath Wallet.directScript
  rw [hpath]
  obtain ⟨c, levels⟩ := path
  rcases List.eq_nil_or_concat levels with rfl | ⟨ls, x, rfl⟩
  · -- The root has no parent, and no account key.
    have hnone : w.primaryPublicKeys [] = none := by
      rcases h : w.primaryPublicKeys [] with _ | key
      · rfl
      · exact absurd rfl (hacc [] key h).1
    have hidx : (⟨c, []⟩ : BIP32Path).getKeyIndex = [] := rfl
    simp only [ok_bind, hidx, hnone]
    rfl
  rw [List.concat_eq_append] at hexp hends ⊢
  obtain ⟨hx, hlast⟩ := hends
  simp only [List.getLast?_append, List.getLast?_singleton, Option.some_or, ne_eq, Option.some_inj,
    List.dropLast_concat] at hx hlast
  have hparent : (⟨c, ls ++ [x]⟩ : BIP32Path).parent = .ok ⟨c, ls⟩ := by
    unfold BIP32Path.parent
    rw [if_neg (by simp), List.dropLast_concat]
  simp only [ok_bind, Wallet.getParentPublicKey, hparent]
  by_cases hcount : (⟨c, ls⟩ : BIP32Path).publicPath.count ≤ 2
  · rw [if_pos hcount]
    rfl
  rw [if_neg hcount]
  by_cases hhard : (⟨c, ls⟩ : BIP32Path).publicPath.isHardened = true
  · rw [if_pos hhard]
    rfl
  rw [if_neg hhard]
  have hlen : 2 ≤ ls.length := by
    simp only [BIP32Path.count, BIP32Path.publicPath] at hcount
    omega
  have hne : ls ≠ [] := by
    rintro rfl
    simp at hlen
  have hkey : (⟨c, ls⟩ : BIP32Path).publicPath.getKeyIndex = (⟨c, ls ++ [x]⟩ : BIP32Path).getKeyIndex :=
    getKeyIndex_append hne x
  rw [hkey]
  rcases hw : w.primaryPublicKeys (⟨c, ls ++ [x]⟩ : BIP32Path).getKeyIndex with _ | account
  · rfl
  obtain ⟨-, hlabel, hprivate⟩ := hacc _ account hw
  obtain ⟨n, label⟩ := account
  simp only at hlabel hprivate
  subst hlabel
  have hparentKey := buildKey_parent hl n (⟨c, ls ++ [x]⟩ : BIP32Path).getKeyIndex c
    (fun l hmem => hexp l (List.mem_append_left [x] hmem)) (hkey ▸ length_getKeyIndex hlen) hlast hx
  have hdirect := buildKey_toOption hl ⟨n, ⟨true, [(⟨c, ls ++ [x]⟩ : BIP32Path).getKeyIndex ++ [apostrophe]]⟩⟩ rfl
    ⟨c, ls ++ [x]⟩
  simp only [entry, ok_bind, toOption_bind]
  rw [hdirect] at hparentKey ⊢
  generalize hA : BIP32Key.buildKey php ⟨n, ⟨true, [(⟨c, ls ++ [x]⟩ : BIP32Path).getKeyIndex ++ [apostrophe]]⟩⟩
    (⟨c, ls⟩ : BIP32Path).publicPath = A
  have hA' : BIP32Key.buildKey php ⟨n, ⟨true, [(⟨c, ls ++ [x]⟩ : BIP32Path).getKeyIndex ++ [apostrophe]]⟩⟩
    ⟨true, ls⟩ = A := hA
  rw [hA'] at hparentKey
  have hpublic : (⟨c, ls ++ [x]⟩ : BIP32Path).publicPath = ⟨true, ls ++ [x]⟩ := rfl
  rw [hpublic]
  have hprivate' : ∀ m, deriveText hk n (cut ⟨true, [(⟨c, ls ++ [x]⟩ : BIP32Path).getKeyIndex ++ [apostrophe]]⟩
      ⟨c, ls ++ [x]⟩) = some m → hk.isPrivate m = false :=
    fun m hm => (isPrivate_deriveText hl hm).trans hprivate
  generalize deriveText hk n (cut ⟨true, [(⟨c, ls ++ [x]⟩ : BIP32Path).getKeyIndex ++ [apostrophe]]⟩
    ⟨c, ls ++ [x]⟩) = R at hparentKey hprivate' ⊢
  cases A with
  | error e =>
    cases R with
    | none => rfl
    | some m => cases hparentKey
  | ok parent =>
    have hmap : (some <$> (Except.ok parent : Except PhpError (BIP32Key Node))).toOption = some (some parent) := rfl
    have hparentKey : (parent.buildKey php ⟨true, ls ++ [x]⟩).toOption =
        (R.map fun m => (⟨m, ⟨c, ls ++ [x]⟩⟩ : BIP32Key Node)).map fun key => ⟨key.key, ⟨true, ls ++ [x]⟩⟩ := hparentKey
    rw [hmap, Option.bind_some, toOption_bind, hparentKey]
    cases R with
    | none => rfl
    | some m =>
      simp only [Option.map_some, Option.bind_some]
      rw [getWalletScriptFromKey_label hpub w (hprivate' m rfl) c]

end Derive

end PhpSdk
