import Blocktrail.Bitcoin.Components
import Blocktrail.Lib.Runs
import Blocktrail.PhpSdk.KeyHeap
import Blocktrail.PhpSdk.Sample
import Blocktrail.PhpSdk.WalletSpec

/-! # The keys that `buildKey` answers with, and their paths -/

open Text Throwing Runs Bitcoin

namespace PhpSdk

variable {Node : Type}

/-! ## `BIP32Path::isParentOf` -/

/-- `strlen($path) > strlen($this) && strpos($path, $this) === 0`. -/
def BIP32Path.isParentOf (p q : BIP32Path) : Bool :=
  p.toText.length < q.toText.length && p.toText.isPrefixOf q.toText

/-- The components of `p` are the first of `q`, which has more. -/
def BIP32Path.ProperPrefix (p q : BIP32Path) : Prop :=
  (p.head :: p.levels) <+: (q.head :: q.levels) ∧ p.levels.length < q.levels.length

/-- The text of a path below another goes on with a slash. -/
theorem BIP32Path.properPrefix_iff {p q : BIP32Path} (hp : p.Exploded) (hq : q.Exploded) :
    p.ProperPrefix q ↔ ∃ more, q.toText = p.toText ++ '/' :: more := by
  constructor
  · rintro ⟨⟨ms, hms⟩, hlen⟩
    obtain ⟨hhead, hlevels⟩ := List.cons.inj hms
    cases ms with
    | nil => simp [← hlevels] at hlen
    | cons m ms =>
      refine ⟨m ++ ms.flatMap ('/' :: ·), ?_⟩
      rw [toText_eq, toText_eq, ← hhead, ← hlevels]
      simp
  · rintro ⟨more, hmore⟩
    have hsplit := congrArg (List.splitOn '/') hmore
    rw [List.splitOn_append_cons_self, splitOn_toText hp, splitOn_toText hq] at hsplit
    refine ⟨⟨more.splitOn '/', hsplit.symm⟩, ?_⟩
    have hlen := congrArg List.length hsplit
    have hpos := List.length_pos_of_ne_nil (List.splitOn_ne_nil '/' more)
    simp only [List.length_append, List.length_cons] at hlen
    omega

theorem BIP32Path.isParentOf_iff {p q : BIP32Path} :
    p.isParentOf q = true ↔ ∃ c more, q.toText = p.toText ++ c :: more := by
  unfold isParentOf
  rw [Bool.and_eq_true, decide_eq_true_eq, List.isPrefixOf_iff_prefix]
  constructor
  · rintro ⟨hlen, more, hmore⟩
    cases more with
    | nil => simp [← hmore] at hlen
    | cons c more => exact ⟨c, more, hmore.symm⟩
  · rintro ⟨c, more, hmore⟩
    rw [hmore]
    exact ⟨by simp, List.prefix_append _ _⟩

/-- **Parents.** `isParentOf` is right unless the text goes on inside a level. -/
theorem BIP32Path.isParentOf_right_iff {p q : BIP32Path} (hp : p.Exploded) (hq : q.Exploded) :
    (p.isParentOf q = true ↔ p.ProperPrefix q) ↔ ∀ c more, q.toText = p.toText ++ c :: more → c = '/' := by
  rw [isParentOf_iff, properPrefix_iff hp hq]
  constructor
  · intro h c more hmore
    obtain ⟨more', hmore'⟩ := h.mp ⟨c, more, hmore⟩
    rw [hmore] at hmore'
    exact (List.cons.inj (List.append_cancel_left hmore')).1
  · intro h
    constructor
    · rintro ⟨c, more, hmore⟩
      obtain rfl := h c more hmore
      exact ⟨more, hmore⟩
    · rintro ⟨more, hmore⟩
      exact ⟨'/', more, hmore⟩

/-! ## Keys by the components of their paths -/

/-- `HierarchicalKey`, by the component. -/
structure HierarchicalKeys (Node : Type) where
  /-- The child that one component of a path names; `none` throws. -/
  derive : Node → Str → Option Node
  isPrivate : Node → Bool

/-- What the SDK relies on: `derivePath` takes the components one after the other, and the public key of a child is the
child of the public key, where that has it. -/
structure HierarchicalKeys.Lawful (hk : HierarchicalKeys Node) (php : BitWasp Node) : Prop where
  derivePath : ∀ n path, path ≠ [] → php.derivePath n path = (path.splitOn '/').foldlM hk.derive n
  isPrivate_derive : ∀ n c m, hk.derive n c = some m → hk.isPrivate m = hk.isPrivate n
  isPrivate_toPublic : ∀ n, hk.isPrivate (php.toPublic n) = false
  derive_toPublic : ∀ n c m, hk.derive (php.toPublic n) c = some m → ∃ m', hk.derive n c = some m' ∧ m = php.toPublic m'

/-- The key of a path below a root: one component after another, then made public where the path is. -/
def keyBelow (hk : HierarchicalKeys Node) (php : BitWasp Node) (root : BIP32Key Node) (path : BIP32Path) :
    Option Node :=
  if root.path.levels <+: path.levels then
    ((path.levels.drop root.path.levels.length).foldlM hk.derive root.key).map fun n =>
      if path.isPublicPath && !root.path.isPublicPath then php.toPublic n else n
  else none

/-! ## Requests -/

/-- An answer: the path of the key that was asked, the path asked for, and the object. -/
structure Answer where
  keyPath : BIP32Path
  path : BIP32Path
  ref : Nat

structure Session (Node : Type) where
  store : KeyHeap Node
  answers : List Answer

/-- A root key that has built nothing. -/
def Session.start (root : BIP32Key Node) : Session Node := ⟨⟨[root.key], [⟨0, root.path, []⟩]⟩, []⟩

/-- `$keys[$ref]->buildKey($text)`. -/
def Session.request (php : BitWasp Node) (s : Session Node) (r : Nat × Str) : Session Node :=
  match BIP32Path.ofText r.2 with
  | .error _ => s
  | .ok path =>
    match s.store.buildKey php r.1 path with
    | (.error _, store) => { s with store := store }
    | (.ok d, store) =>
      match s.store.keyAt r.1 with
      | some k => ⟨store, s.answers ++ [⟨k.path, path, d⟩]⟩
      | none => { s with store := store }

/-- What the object of an answer should be. -/
structure Answer.Good (hk : HierarchicalKeys Node) (php : BitWasp Node) (root : BIP32Key Node) (a : Answer)
    (key : BIP32Key Node) : Prop where
  label : key.path = a.path
  components : keyBelow hk php root a.path = some key.key
  isPrivate : hk.isPrivate key.key = !a.path.isPublicPath
  below : a.keyPath.levels <+: a.path.levels

/-- Every object that was answered with is what it should be, now. -/
def Session.Good (hk : HierarchicalKeys Node) (php : BitWasp Node) (root : BIP32Key Node) (s : Session Node) : Prop :=
  ∀ a ∈ s.answers, ∃ key, s.store.keyAt a.ref = some key ∧ a.Good hk php root key

/-- A path below the key's own, by its components, that is not private below a public key. -/
structure Proper (keyPath path : BIP32Path) : Prop where
  below : keyPath.levels <+: path.levels
  isPrivate : path.isPublicPath = false → keyPath.isPublicPath = false
  /-- It is not the key's own path and a slash. -/
  noSlash : path.levels ≠ keyPath.levels ++ [[]]
  /-- It is not the public path of a private key itself: `toPublic` would change the key that is asked. -/
  notOwn : path.isPublicPath = true → keyPath.isPublicPath = false → path.levels ≠ keyPath.levels

/-- The request is for a proper path, or for one that cannot be derived. -/
def Meets (php : BitWasp Node) (s : Session Node) (r : Nat × Str) : Prop :=
  ∀ k path, s.store.keyAt r.1 = some k → BIP32Path.ofText r.2 = .ok path →
    (cut k.path path = [] ∨ (php.derivePath k.key (cut k.path path)).isSome) → Proper k.path path

/-! ## One key -/

theorem cut_of_buildKey {php : BitWasp Node} {k key : BIP32Key Node} {path : BIP32Path}
    (h : k.buildKey php path = .ok key) :
    cut k.path path = [] ∨ (php.derivePath k.key (cut k.path path)).isSome := by
  have hcut : cut k.path (if (path.isPublicPath && !k.path.isPublicPath) = true then path.privatePath else path) =
      cut k.path path := by
    split
    · exact cut_privatePath k.path path
    · rfl
  rw [BIP32Key.buildKey_eq] at h
  dsimp only at h
  rw [hcut] at h
  by_cases hnil : cut k.path path = []
  · exact Or.inl hnil
  · right
    rw [if_neg hnil] at h
    revert h
    cases php.derivePath k.key (cut k.path path) with
    | none => exact fun h => by cases h
    | some m => exact fun _ => rfl

theorem cut_of_buildKey_error {php : BitWasp Node} {k : BIP32Key Node} {path : BIP32Path} {e : PhpError}
    (h : k.buildKey php path = .error e) : cut k.path path ≠ [] := by
  intro hnil
  have hcut : cut k.path (if (path.isPublicPath && !k.path.isPublicPath) = true then path.privatePath else path) = [] := by
    split
    · exact (cut_privatePath k.path path).trans hnil
    · exact hnil
  rw [BIP32Key.buildKey_eq] at h
  dsimp only at h
  rw [if_pos hcut] at h
  cases h

theorem cut_below (b c : Bool) (ls ms : List Str) : cut ⟨b, ls⟩ ⟨c, ls ++ ms⟩ = Php.implode '/' ms := by
  have hlength : (⟨b, ls⟩ : BIP32Path).toText.length = (⟨c, ls⟩ : BIP32Path).toText.length := by
    cases b <;> cases c <;> rfl
  unfold cut
  rw [toText_append, hlength, List.drop_left]
  rcases ms with _ | ⟨m, ms⟩
  · rfl
  · rw [Php.flatMap_sep]
    rfl

theorem implode_eq_nil {ms : List Str} (h : Php.implode '/' ms = []) : ms = [] ∨ ms = [[]] := by
  cases ms with
  | nil => exact Or.inl rfl
  | cons m ms =>
    cases ms with
    | nil => simpa [Php.implode] using h
    | cons m' ms => simp [Php.implode] at h

theorem Proper.cut_ne_nil {keyPath path : BIP32Path} (h : Proper keyPath path) (hpublic : path.isPublicPath = true)
    (hprivate : keyPath.isPublicPath = false) : cut keyPath path ≠ [] := by
  obtain ⟨b, ls⟩ := keyPath
  obtain ⟨c, cs⟩ := path
  obtain ⟨⟨ms, hms⟩, -, hslash, hown⟩ := h
  dsimp only at hms hslash hown
  subst hms
  rw [cut_below]
  intro hcut
  rcases implode_eq_nil hcut with rfl | rfl
  · exact hown hpublic hprivate (List.append_nil ls)
  · exact hslash rfl

theorem buildKey_components {hk : HierarchicalKeys Node} {php : BitWasp Node} (hl : hk.Lawful php) {n : Node}
    {b c : Bool} (hbc : b = true → c = true) {ls ms : List Str} (hms : ∀ level ∈ ms, '/' ∉ level) (hne : ms ≠ [[]])
    {key : BIP32Key Node} (h : (⟨n, ⟨b, ls⟩⟩ : BIP32Key Node).buildKey php ⟨c, ls ++ ms⟩ = .ok key) :
    ∃ m, ms.foldlM hk.derive n = some m ∧ key = ⟨if c && !b then php.toPublic m else m, ⟨c, ls ++ ms⟩⟩ := by
  rw [buildKey_below php n hbc] at h
  obtain ⟨m, hm, hkey⟩ := exists_of_bind_ok h
  refine ⟨m, ?_, (Except.ok.inj hkey).symm⟩
  by_cases hnil : Php.implode '/' ms = []
  · rw [if_pos hnil] at hm
    rcases implode_eq_nil hnil with rfl | rfl
    · cases hm
      rfl
    · contradiction
  · rw [if_neg hnil] at hm
    have hsplit : (Php.implode '/' ms).splitOn '/' = ms := by
      cases ms with
      | nil => exact absurd rfl hnil
      | cons m ms => exact Php.splitOn_implode hms
    have hd := hl.derivePath n (Php.implode '/' ms) hnil
    rw [hsplit] at hd
    rw [hd] at hm
    rcases hf : ms.foldlM hk.derive n with _ | m'
    · rw [hf] at hm
      cases hm
    · rw [hf] at hm
      exact congrArg some (Except.ok.inj hm)

section Labels

variable {hk : HierarchicalKeys Node} {php : BitWasp Node} (hl : hk.Lawful php)

include hl

theorem isPrivate_foldlM {n m : Node} {cs : List Str} (h : cs.foldlM hk.derive n = some m) :
    hk.isPrivate m = hk.isPrivate n := by
  induction cs generalizing n with
  | nil =>
    cases h
    rfl
  | cons c cs ih =>
    rw [List.foldlM_cons] at h
    obtain ⟨child, hchild, h⟩ := Option.bind_eq_some_iff.mp h
    rw [ih h, hl.isPrivate_derive n c child hchild]

theorem foldlM_toPublic {n m : Node} {cs : List Str} (h : cs.foldlM hk.derive (php.toPublic n) = some m) :
    ∃ m', cs.foldlM hk.derive n = some m' ∧ m = php.toPublic m' := by
  induction cs generalizing n with
  | nil =>
    cases h
    exact ⟨n, rfl, rfl⟩
  | cons c cs ih =>
    rw [List.foldlM_cons] at h
    obtain ⟨child, hchild, h⟩ := Option.bind_eq_some_iff.mp h
    obtain ⟨child', hchild', rfl⟩ := hl.derive_toPublic n c child hchild
    obtain ⟨m', hm', rfl⟩ := ih h
    refine ⟨m', ?_, rfl⟩
    rw [List.foldlM_cons, hchild']
    exact hm'

/-- The key is the one its path names below the root, and is private as its path is. -/
structure WellLabelled (hk : HierarchicalKeys Node) (php : BitWasp Node) (root k : BIP32Key Node) : Prop where
  components : keyBelow hk php root k.path = some k.key
  isPrivate : hk.isPrivate k.key = !k.path.isPublicPath
  isPrivate_root : k.path.isPublicPath = false → root.path.isPublicPath = false

omit hl in
theorem keyBelow_append (hk : HierarchicalKeys Node) (php : BitWasp Node) (root : BIP32Key Node) (c : Bool) (is : List Str) :
    keyBelow hk php root ⟨c, root.path.levels ++ is⟩ = (is.foldlM hk.derive root.key).map fun n =>
      if c && !root.path.isPublicPath then php.toPublic n else n := by
  unfold keyBelow
  rw [if_pos (List.prefix_append _ _), List.drop_left]

theorem wellLabelled_buildKey {root k key : BIP32Key Node} (h : WellLabelled hk php root k) {path : BIP32Path}
    (hp : path.Exploded) (hprop : Proper k.path path) (hb : k.buildKey php path = .ok key) :
    key.path = path ∧ WellLabelled hk php root key := by
  obtain ⟨r, ⟨a, rs⟩⟩ := root
  obtain ⟨n, ⟨b, ls⟩⟩ := k
  obtain ⟨c, cs⟩ := path
  obtain ⟨hcomp, hpriv, hroot⟩ := h
  obtain ⟨⟨ms, hms⟩, hbc, hslash, -⟩ := hprop
  simp only at hcomp hpriv hroot hms hbc hslash
  subst hms
  have hbc' : b = true → c = true := by
    rintro rfl
    cases c
    · exact (hbc rfl).symm
    · rfl
  obtain ⟨m, hm, rfl⟩ := buildKey_components hl hbc' (fun level hmem => hp level (List.mem_append_right ls hmem))
    (fun h => hslash (by rw [h])) hb
  refine ⟨rfl, ?_, ?_, ?_⟩
  · have hpre : rs <+: ls := by
      unfold keyBelow at hcomp
      split at hcomp
      · assumption
      · cases hcomp
    obtain ⟨is, rfl⟩ := hpre
    rw [keyBelow_append hk php ⟨r, ⟨a, rs⟩⟩ b is] at hcomp
    obtain ⟨n₀, hn₀, hn⟩ := Option.map_eq_some_iff.mp hcomp
    have hgoal := keyBelow_append hk php ⟨r, ⟨a, rs⟩⟩ c (is ++ ms)
    rw [← List.append_assoc] at hgoal
    simp only at hn hgoal hn₀ ⊢
    rw [hgoal, List.foldlM_append, hn₀]
    cases a with
    | true =>
      -- The root is public, and so is every key below it.
      cases b with
      | true =>
        simp only [Bool.not_true, Bool.and_false, Bool.false_eq_true, if_false] at hn ⊢
        subst hn
        simp [hm]
      | false => simp at hroot
    | false =>
      cases b with
      | false =>
        simp only [Bool.false_and, Bool.false_eq_true, if_false] at hn
        subst hn
        simp [hm]
      | true =>
        -- The key was made public before; now its private one is derived, and made public.
        obtain rfl := hbc' rfl
        simp only [Bool.not_false, Bool.and_self, if_true] at hn
        subst hn
        obtain ⟨m', hm', rfl⟩ := foldlM_toPublic hl hm
        simp [hm']
  · have hmp := isPrivate_foldlM hl hm
    cases b with
    | true =>
      obtain rfl := hbc' rfl
      simpa [hmp] using hpriv
    | false =>
      cases c with
      | true => simpa using hl.isPrivate_toPublic m
      | false => simpa [hmp] using hpriv
  · intro hc
    exact hroot (hbc hc)

end Labels

/-! ## Runs -/

/-- What every request keeps. -/
structure Session.Inv (hk : HierarchicalKeys Node) (php : BitWasp Node) (root : BIP32Key Node) (s : Session Node) :
    Prop where
  values : ∃ v, s.store.Shows v ∧ v.Transparent php
  labels : ∀ ref k, s.store.keyAt ref = some k → WellLabelled hk php root k
  answers : s.Good hk php root

theorem Session.inv_start {hk : HierarchicalKeys Node} (php : BitWasp Node) {root : BIP32Key Node}
    (hroot : hk.isPrivate root.key = !root.path.isPublicPath) : (start root).Inv hk php root := by
  have hself : WellLabelled hk php root root := by
    refine ⟨?_, hroot, id⟩
    have h := keyBelow_append hk php root root.path.isPublicPath []
    rw [List.append_nil] at h
    simpa using h
  have hshows : (start root).store.Shows [⟨root, []⟩] := List.Forall₂.cons ⟨rfl, rfl, rfl⟩ List.Forall₂.nil
  refine ⟨⟨_, hshows, ?_⟩, ?_, by simp [Good, start]⟩
  · intro ref object ho text d hd
    rw [List.getElem?_singleton] at ho
    split at ho
    · cases ho
      cases hd
    · cases ho
  · intro ref k hk'
    rw [hshows.keyAt_eq] at hk'
    obtain ⟨derivations, ho⟩ := KeyStore.keyAt_eq_some hk'
    rw [List.getElem?_singleton] at ho
    split at ho
    · cases ho
      exact hself
    · cases ho

theorem Session.inv_request {hk : HierarchicalKeys Node} {php : BitWasp Node} (hl : hk.Lawful php)
    {root : BIP32Key Node} {s : Session Node} (h : s.Inv hk php root) {r : Nat × Str} (hmeets : Meets php s r) :
    (s.request php r).Inv hk php root := by
  unfold request
  rcases hpath : BIP32Path.ofText r.2 with e | path
  · exact h
  dsimp only
  have hp := BIP32Path.exploded_of_ofText hpath
  obtain ⟨v, hshows, htransparent⟩ := h.values
  rcases hk' : s.store.keyAt r.1 with _ | k
  · obtain ⟨e, hbuild⟩ := hshows.buildKey_none php hk' path
    simp only [hbuild]
    exact h
  have hkv := (hshows.keyAt_eq r.1).symm.trans hk'
  rcases hb : k.buildKey php path with e | key
  · obtain ⟨hresult, hshows'⟩ := hshows.buildKey php
      (KeyHeap.not_madePublic hk' fun _ _ => cut_of_buildKey_error hb)
    rw [KeyStore.buildKey_error htransparent hkv hp hb] at hresult hshows'
    have hkeyAt : ∀ ref, (s.store.buildKey php r.1 path).2.keyAt ref = s.store.keyAt ref := fun ref =>
      (hshows'.keyAt_eq ref).trans (hshows.keyAt_eq ref).symm
    generalize s.store.buildKey php r.1 path = built at hresult hshows' hkeyAt ⊢
    obtain ⟨result, store⟩ := built
    obtain rfl : _ = result := hresult
    dsimp only at hshows' hkeyAt ⊢
    refine ⟨⟨v, hshows', htransparent⟩, fun ref x hx => h.labels ref x (hkeyAt ref ▸ hx), fun a ha => ?_⟩
    obtain ⟨key, hkey, hgood⟩ := h.answers a ha
    exact ⟨key, (hkeyAt a.ref).trans hkey, hgood⟩
  · have hprop := hmeets k path hk' hpath (cut_of_buildKey hb)
    obtain ⟨hlabel, hwell⟩ := wellLabelled_buildKey hl (h.labels r.1 k hk') hp hprop hb
    obtain ⟨d, t, hbuild, ht, hkeeps, hd, hnew⟩ := KeyStore.buildKey_ok htransparent hkv hp hb
    obtain ⟨hresult, hshows'⟩ := hshows.buildKey php (KeyHeap.not_madePublic hk' hprop.cut_ne_nil)
    rw [hbuild] at hresult hshows'
    have hkeyAt : ∀ ref, (s.store.buildKey php r.1 path).2.keyAt ref = t.keyAt ref := hshows'.keyAt_eq
    generalize s.store.buildKey php r.1 path = built at hresult hshows' hkeyAt ⊢
    obtain ⟨result, store⟩ := built
    obtain rfl : _ = result := hresult
    dsimp only at hshows' hkeyAt ⊢
    refine ⟨⟨t, hshows', ht⟩, fun ref x hx => ?_, fun a ha => ?_⟩
    · rw [hkeyAt] at hx
      rcases hnew ref x hx with hold | rfl
      · exact h.labels ref x ((hshows.keyAt_eq ref).trans hold)
      · exact hwell
    · rcases List.mem_append.mp ha with ha | ha
      · obtain ⟨key', hkey', hgood⟩ := h.answers a ha
        refine ⟨key', ?_, hgood⟩
        rw [hkeyAt]
        exact hkeeps a.ref key' ((hshows.keyAt_eq a.ref).symm.trans hkey')
      · obtain rfl := List.mem_singleton.mp ha
        exact ⟨key, (hkeyAt d).trans hd, hlabel, hlabel ▸ hwell.components, hlabel ▸ hwell.isPrivate, hprop.below⟩

/-- **Labels and parents.** Where every request is for a proper path or for one that cannot be derived, every answer is
the key that its path names, and stays it. `isParentOf` is right unless the text of the path goes on inside a level. -/
theorem buildKey_labels {hk : HierarchicalKeys Node} {php : BitWasp Node} (hl : hk.Lawful php) (root : BIP32Key Node)
    (hroot : hk.isPrivate root.key = !root.path.isPublicPath) :
    (∀ requests : List (Nat × Str),
      Along (Session.request php) (Meets php) (Session.start root) requests →
        Always (Session.request php) (Session.Good hk php root) (Session.start root) requests) ∧
      ∀ p q : BIP32Path, p.Exploded → q.Exploded →
        ((p.isParentOf q = true ↔ p.ProperPrefix q) ↔ ∀ c more, q.toText = p.toText ++ c :: more → c = '/') := by
  refine ⟨fun requests h => ?_, fun p q hp hq => BIP32Path.isParentOf_right_iff hp hq⟩
  have hinv := always_of_along (I := fun s : Session Node => s.Inv hk php root)
    (fun s r hs hmeets => Session.inv_request hl hs hmeets) (Session.inv_start php hroot) h
  exact hinv.mono fun s hs => hs.answers

/-! ## On the sample library -/

def sampleKeys : HierarchicalKeys SampleNode where
  derive n c := (deriveLevel sampleHD n (sampleLevel c)).toOption
  isPrivate n := n.isPrivate

theorem deriveLevel_ok {hd : HDLib Node} {n m : Node} {l : Nat × Bool} (h : deriveLevel hd n l = .ok m) :
    ∃ i : Nat, hd.derive n (some (i : Int)) = .ok m ∧ ∀ n', hd.derive n' (some (i : Int)) = deriveLevel hd n' l := by
  unfold deriveLevel at h ⊢
  cases hl : l.2 with
  | false =>
    simp only [hl, Bool.false_eq_true, if_false] at h ⊢
    exact ⟨l.1, h, fun _ => rfl⟩
  | true =>
    simp only [hl, if_true, HDLib.deriveHardened] at h ⊢
    by_cases hlt : l.1 < HIGHEST_BIT
    · simp only [if_pos hlt] at h ⊢
      exact ⟨l.1 + HIGHEST_BIT, h, fun _ => rfl⟩
    · simp only [if_neg hlt] at h
      cases h

theorem sampleKeys_lawful : sampleKeys.Lawful sampleBitWasp where
  derivePath n path _ := by
    show (((path.splitOn '/').map sampleLevel).foldlM (deriveLevel sampleHD) n).toOption = _
    rw [toOption_foldlM, List.foldlM_map]
    rfl
  isPrivate_derive n c m h := by
    obtain ⟨i, hi, -⟩ := deriveLevel_ok (toOption_eq_some h)
    obtain ⟨-, -, -, -, rfl⟩ := derive_eq_ok.mp hi
    rfl
  isPrivate_toPublic _ := rfl
  derive_toPublic n c m h := by
    obtain ⟨i, hi, hlevel⟩ := deriveLevel_ok (toOption_eq_some h)
    obtain ⟨i', hii, hlt, hpub, rfl⟩ := derive_eq_ok.mp hi
    refine ⟨sampleHD.child n i', ?_, rfl⟩
    have hd : sampleHD.derive n (some (i : Int)) = .ok (sampleHD.child n i') := by
      refine derive_eq_ok.mpr ⟨i', hii, hlt, fun hge => ?_, rfl⟩
      exact absurd (hpub hge) (by simp [sampleBitWasp, sampleHD])
    show (deriveLevel sampleHD n (sampleLevel c)).toOption = _
    rw [← hlevel n, hd]
    rfl

/-- A root key, and an account key. -/
def sampleMaster : BIP32Key SampleNode := ⟨⟨[], [], true⟩, ⟨false, []⟩⟩

def sampleAccount : BIP32Key SampleNode := ⟨⟨[], [1], false⟩, ⟨true, ["1".toList]⟩⟩

/-- An account key, private and public, a key below each, and the first one again. -/
theorem sampleMaster_labels :
    Always (Session.request sampleBitWasp) (Session.Good sampleKeys sampleBitWasp sampleMaster)
      (Session.start sampleMaster)
      [(0, "m/1'".toList), (0, "M/1'".toList), (1, "M/1'/0".toList), (2, "M/1'/0".toList), (0, "m/1'".toList)] := by
  refine (buildKey_labels sampleKeys_lawful sampleMaster rfl).1 _ ⟨?_, ?_, ?_, ?_, ?_, trivial⟩ <;>
  · rintro k path hk hpath -
    cases hk
    cases hpath
    exact ⟨by decide, by decide, by decide, by decide⟩

/-- `M/10` is answered by the key `M/1`, with its child `0`. A root that was asked for `M` is public, and so is the key
`m/0` that it builds then. -/
theorem textual_child_answered :
    ¬Always (Session.request sampleBitWasp) (Session.Good sampleKeys sampleBitWasp sampleAccount)
        (Session.start sampleAccount) [(0, "M/10".toList)] ∧
      ¬Always (Session.request sampleBitWasp) (Session.Good sampleKeys sampleBitWasp sampleMaster)
        (Session.start sampleMaster) [(0, "M".toList), (0, "m/0".toList)] ∧
      BIP32Path.isParentOf ⟨true, ["1".toList]⟩ ⟨true, ["10".toList]⟩ = true := by
  refine ⟨fun h => ?_, fun h => ?_, by decide⟩
  · obtain ⟨key, -, hgood⟩ := h.last ⟨⟨true, ["1".toList]⟩, ⟨true, ["10".toList]⟩, 1⟩ (List.mem_singleton.mpr rfl)
    exact absurd hgood.below (by decide)
  · obtain ⟨key, hkey, hgood⟩ := h.last ⟨⟨false, []⟩, ⟨false, ["0".toList]⟩, 2⟩
      (List.mem_cons_of_mem _ (List.mem_singleton.mpr rfl))
    obtain rfl : (⟨⟨[], [0], false⟩, ⟨false, ["0".toList]⟩⟩ : BIP32Key SampleNode) = key :=
      Option.some.inj hkey
    exact absurd hgood.isPrivate (by decide)

end PhpSdk
