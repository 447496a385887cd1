import Blocktrail.Lib.Separated
import Blocktrail.PhpSdk.Keys

/-! # Key objects and their derivations

A `BIP32Key` keeps the keys that it built, by the text of their path. They are objects that keep their own.
-/

open Text Bitcoin

namespace PhpSdk

variable {Node : Type}

/-! ## Paths and texts -/

/-- No level of the path has a slash: a path that was exploded from a text. -/
def BIP32Path.Exploded (p : BIP32Path) : Prop := ∀ level ∈ p.levels, '/' ∉ level

theorem BIP32Path.slash_not_mem_head (p : BIP32Path) : '/' ∉ p.head := by
  unfold head
  cases p.isPublicPath <;> decide

theorem BIP32Path.splitOn_toText {p : BIP32Path} (h : p.Exploded) : p.toText.splitOn '/' = p.head :: p.levels := by
  apply Separated.splitOn_flatMap
  intro level hmem
  rcases List.mem_cons.mp hmem with rfl | hmem
  · exact p.slash_not_mem_head
  · exact h level hmem

theorem BIP32Path.toText_injective {p q : BIP32Path} (hp : p.Exploded) (hq : q.Exploded)
    (h : p.toText = q.toText) : p = q := by
  have hsplit := congrArg (List.splitOn '/') h
  rw [splitOn_toText hp, splitOn_toText hq] at hsplit
  obtain ⟨hhead, hlevels⟩ := List.cons.inj hsplit
  obtain ⟨b, ls⟩ := p
  obtain ⟨c, ms⟩ := q
  cases b <;> cases c <;> simp_all [head]

theorem BIP32Path.exploded_of_ofText {text : Str} {p : BIP32Path} (h : ofText text = .ok p) : p.Exploded := by
  unfold ofText at h
  split at h
  · next hd levels hsplit =>
    have hlevels : p.levels = levels := by
      split at h
      · cases h
        rfl
      · split at h
        · cases h
          rfl
        · cases h
    intro level hmem
    rw [hlevels] at hmem
    exact Separated.not_mem_of_mem_splitOn (hsplit ▸ List.mem_cons_of_mem hd hmem)
  · cases h

/-! ## Objects -/

structure KeyObject (Node : Type) where
  key : BIP32Key Node
  /-- The texts of the paths, and references to the objects. -/
  derivations : List (Str × Nat)

/-- A reference is a position. -/
abbrev KeyStore (Node : Type) := List (KeyObject Node)

namespace KeyStore

def keyAt (s : KeyStore Node) (ref : Nat) : Option (BIP32Key Node) := s[ref]?.map KeyObject.key

/-- The store after a new derivation. -/
def derived (s : KeyStore Node) (ref : Nat) (object : KeyObject Node) (path : BIP32Path) (key : BIP32Key Node) :
    KeyStore Node :=
  s.set ref { object with derivations := (path.toText, s.length) :: object.derivations } ++ [⟨key, []⟩]

/-- `buildKey($path)`, of the object. -/
def buildKey (php : BitWasp Node) (s : KeyStore Node) (ref : Nat) (path : BIP32Path) :
    Except PhpError Nat × KeyStore Node :=
  match s[ref]? with
  | none => (.error ⟨"Error", "Call to a member function buildKey() on null"⟩, s)
  | some object =>
    match object.derivations.lookup path.toText with
    | some derived => (.ok derived, s)
    | none =>
      match object.key.buildKey php path with
      | .error e => (.error e, s)
      | .ok key => (.ok s.length, s.derived ref object path key)

/-! ## The derivations are what would be built -/

/-- Every derivation is the key that the object builds for the path. -/
def Transparent (php : BitWasp Node) (s : KeyStore Node) : Prop :=
  ∀ (ref : Nat) (object : KeyObject Node), s[ref]? = some object →
    ∀ (text : Str) (derived : Nat), object.derivations.lookup text = some derived →
      ∃ (path : BIP32Path) (key : BIP32Key Node), path.Exploded ∧ path.toText = text ∧ object.key.buildKey php path = .ok key ∧
        s.keyAt derived = some key

/-- No key is lost or replaced. -/
def Keeps (s t : KeyStore Node) : Prop := ∀ ref key, s.keyAt ref = some key → t.keyAt ref = some key

theorem Keeps.refl (s : KeyStore Node) : Keeps s s := fun _ _ h => h

theorem Keeps.trans {s t u : KeyStore Node} (h : Keeps s t) (h' : Keeps t u) : Keeps s u :=
  fun ref key hk => h' ref key (h ref key hk)

theorem keyAt_eq_some {s : KeyStore Node} {ref : Nat} {key : BIP32Key Node} (h : s.keyAt ref = some key) :
    ∃ derivations, s[ref]? = some ⟨key, derivations⟩ := by
  obtain ⟨⟨key', derivations⟩, ho, rfl⟩ := Option.map_eq_some_iff.mp h
  exact ⟨derivations, ho⟩

theorem keyAt_derived {s : KeyStore Node} {ref : Nat} {object : KeyObject Node} (ho : s[ref]? = some object)
    (path : BIP32Path) (key : BIP32Key Node) (r : Nat) :
    (s.derived ref object path key).keyAt r = if r = s.length then some key else s.keyAt r := by
  obtain ⟨hlt, hget⟩ := List.getElem?_eq_some_iff.mp ho
  unfold derived keyAt
  by_cases hr : r < s.length
  · rw [List.getElem?_append_left (by simpa using hr), if_neg (by omega), List.getElem?_set]
    by_cases hrr : ref = r
    · subst hrr
      simp [hlt, hget]
    · rw [if_neg hrr]
  · by_cases hl : r = s.length
    · subst hl
      simp
    · rw [if_neg hl, List.getElem?_eq_none (by simp; omega), List.getElem?_eq_none (by omega)]

theorem keeps_derived {s : KeyStore Node} {ref : Nat} {object : KeyObject Node} (ho : s[ref]? = some object)
    (path : BIP32Path) (key : BIP32Key Node) : Keeps s (s.derived ref object path key) := by
  intro r k hk
  rw [keyAt_derived ho, if_neg]
  · exact hk
  · rintro rfl
    simp [keyAt] at hk

theorem transparent_derived {php : BitWasp Node} {s : KeyStore Node} (hs : Transparent php s) {ref : Nat}
    {object : KeyObject Node} (ho : s[ref]? = some object) {path : BIP32Path} (hp : path.Exploded)
    {key : BIP32Key Node} (hb : object.key.buildKey php path = .ok key) :
    Transparent php (s.derived ref object path key) := by
  have hkeeps := keeps_derived ho path key
  have hnew : (s.derived ref object path key).keyAt s.length = some key := by
    rw [keyAt_derived ho, if_pos rfl]
  -- What an object that was there remembers is still there.
  have hold : ∀ (o : KeyObject Node) (r : Nat), s[r]? = some o → ∀ (text : Str) (d : Nat),
      o.derivations.lookup text = some d → ∃ (path' : BIP32Path) (key' : BIP32Key Node), path'.Exploded ∧
        path'.toText = text ∧ o.key.buildKey php path' = .ok key' ∧
          (s.derived ref object path key).keyAt d = some key' := by
    intro o r hr text d hd
    obtain ⟨path', key', hp', htext, hb', hk'⟩ := hs r o hr text d hd
    exact ⟨path', key', hp', htext, hb', hkeeps d key' hk'⟩
  intro r o hr text d hd
  unfold derived at hr
  by_cases hlt : r < s.length
  · rw [List.getElem?_append_left (by simpa using hlt), List.getElem?_set] at hr
    by_cases hrr : ref = r
    · subst hrr
      rw [if_pos rfl, if_pos hlt] at hr
      cases hr
      rw [List.lookup_cons] at hd
      by_cases ht : text = path.toText
      · subst ht
        simp only [beq_self_eq_true] at hd
        cases hd
        exact ⟨path, key, hp, rfl, hb, hnew⟩
      · simp only [beq_eq_false_iff_ne.mpr ht] at hd
        exact hold object ref ho text d hd
    · rw [if_neg hrr] at hr
      exact hold o r hr text d hd
  · rw [List.getElem?_append_right (by simpa using hlt), List.getElem?_singleton] at hr
    split at hr
    · cases hr
      cases hd
    · cases hr

theorem buildKey_none (php : BitWasp Node) {s : KeyStore Node} {ref : Nat} (h : s.keyAt ref = none) (path : BIP32Path) :
    ∃ e, s.buildKey php ref path = (.error e, s) := by
  have ho : s[ref]? = none := Option.map_eq_none_iff.mp h
  unfold buildKey
  rw [ho]
  exact ⟨_, rfl⟩

theorem lookup_eq {php : BitWasp Node} {s : KeyStore Node} (hs : Transparent php s) {ref d : Nat}
    {object : KeyObject Node} (ho : s[ref]? = some object) {path : BIP32Path} (hp : path.Exploded)
    (hd : object.derivations.lookup path.toText = some d) :
    ∃ key, object.key.buildKey php path = .ok key ∧ s.keyAt d = some key := by
  obtain ⟨path', key, hp', htext, hb, hk⟩ := hs ref object ho path.toText d hd
  rw [BIP32Path.toText_injective hp' hp htext] at hb
  exact ⟨key, hb, hk⟩

/-- **Transparency.** A key object fails where building the key anew fails. -/
theorem buildKey_error {php : BitWasp Node} {s : KeyStore Node} (hs : Transparent php s) {ref : Nat}
    {k : BIP32Key Node} (hk : s.keyAt ref = some k) {path : BIP32Path} (hp : path.Exploded) {e : PhpError}
    (hb : k.buildKey php path = .error e) : s.buildKey php ref path = (.error e, s) := by
  obtain ⟨derivations, ho⟩ := keyAt_eq_some hk
  unfold buildKey
  simp only [ho]
  rcases hd : derivations.lookup path.toText with _ | d
  · simp only [hb]
  · obtain ⟨key, hb', -⟩ := lookup_eq hs ho hp hd
    rw [hb] at hb'
    cases hb'

/-- **Transparency.** A key object answers with the key that would be built. -/
theorem buildKey_ok {php : BitWasp Node} {s : KeyStore Node} (hs : Transparent php s) {ref : Nat}
    {k key : BIP32Key Node} (hk : s.keyAt ref = some k) {path : BIP32Path} (hp : path.Exploded)
    (hb : k.buildKey php path = .ok key) :
    ∃ d t, s.buildKey php ref path = (.ok d, t) ∧ Transparent php t ∧ Keeps s t ∧ t.keyAt d = some key ∧
      ∀ r x, t.keyAt r = some x → s.keyAt r = some x ∨ x = key := by
  obtain ⟨derivations, ho⟩ := keyAt_eq_some hk
  unfold buildKey
  simp only [ho]
  rcases hd : derivations.lookup path.toText with _ | d
  · simp only [hb]
    refine ⟨s.length, s.derived ref ⟨k, derivations⟩ path key, rfl, transparent_derived hs ho hp hb,
      keeps_derived ho path key, ?_, ?_⟩
    · rw [keyAt_derived ho, if_pos rfl]
    · intro r x hx
      rw [keyAt_derived ho] at hx
      split at hx
      · exact Or.inr (Option.some.inj hx).symm
      · exact Or.inl hx
  · obtain ⟨key', hb', hk'⟩ := lookup_eq hs ho hp hd
    rw [hb] at hb'
    cases hb'
    exact ⟨d, s, rfl, hs, Keeps.refl s, hk', fun r x hx => Or.inl hx⟩

/-! ## A new object -/

theorem keyAt_push (s : KeyStore Node) (key : BIP32Key Node) : keyAt (s ++ [⟨key, []⟩]) s.length = some key := by
  simp [keyAt]

theorem keeps_push (s : KeyStore Node) (key : BIP32Key Node) : Keeps s (s ++ [⟨key, []⟩]) := by
  intro ref k hk
  obtain ⟨derivations, ho⟩ := keyAt_eq_some hk
  obtain ⟨hlt, -⟩ := List.getElem?_eq_some_iff.mp ho
  rw [keyAt, List.getElem?_append_left hlt]
  exact hk

theorem transparent_push {php : BitWasp Node} {s : KeyStore Node} (hs : Transparent php s) (key : BIP32Key Node) :
    Transparent php (s ++ [⟨key, []⟩]) := by
  intro ref object ho text d hd
  by_cases hlt : ref < s.length
  · rw [List.getElem?_append_left hlt] at ho
    obtain ⟨path, key', hp, htext, hb, hk⟩ := hs ref object ho text d hd
    exact ⟨path, key', hp, htext, hb, keeps_push s key d key' hk⟩
  · rw [List.getElem?_append_right (by omega), List.getElem?_singleton] at ho
    split at ho
    · cases ho
      cases hd
    · cases ho

end KeyStore

end PhpSdk
