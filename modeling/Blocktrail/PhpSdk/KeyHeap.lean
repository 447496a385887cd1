import Blocktrail.PhpSdk.KeyStore

/-! # Key objects that share their keys

`HierarchicalKey::toPublic` changes the object that it is called on. A `BIP32Key` builds the key of its own path
without a derivation, with the same `HierarchicalKey`: if the path is public, the key that was asked is public from
then on.
-/

open Text Bitcoin

namespace PhpSdk

variable {Node : Type}

/-- What `buildKey` cuts from the path to derive it. -/
def cut (keyPath path : BIP32Path) : Str :=
  let rest := path.toText.drop keyPath.toText.length
  if rest.head? = some '/' then rest.tail else rest

theorem toText_privatePath_drop (p : BIP32Path) {n : Nat} (h : 0 < n) : p.privatePath.toText.drop n = p.toText.drop n := by
  obtain ⟨b, levels⟩ := p
  cases n with
  | zero => contradiction
  | succ n => cases b <;> rfl

theorem BIP32Path.toText_eq (p : BIP32Path) : p.toText = p.head ++ p.levels.flatMap ('/' :: ·) := rfl

theorem length_toText_pos (p : BIP32Path) : 0 < p.toText.length := by
  rw [BIP32Path.toText_eq, BIP32Path.head]
  cases p.isPublicPath <;> simp

theorem cut_privatePath (keyPath path : BIP32Path) : cut keyPath path.privatePath = cut keyPath path := by
  unfold cut
  rw [toText_privatePath_drop path (length_toText_pos keyPath)]

theorem BIP32Key.buildKey_eq (php : BitWasp Node) (k : BIP32Key Node) (path : BIP32Path) :
    k.buildKey php path =
      let toPublic := path.isPublicPath && !k.path.isPublicPath
      let rest := cut k.path (if toPublic then path.privatePath else path)
      match if rest = [] then some k.key else php.derivePath k.key rest with
      | none => .error ⟨"Exception", "Cannot derive key"⟩
      | some key => .ok ⟨if toPublic then php.toPublic key else key, path⟩ := by
  unfold BIP32Key.buildKey cut
  dsimp only
  generalize (if (path.isPublicPath && !k.path.isPublicPath) = true then path.privatePath else path).toText.drop
    k.path.toText.length = rest
  generalize (if rest.head? = some '/' then rest.tail else rest) = rest
  by_cases hrest : rest = []
  · rw [if_pos hrest, if_pos hrest]
    rfl
  · rw [if_neg hrest, if_neg hrest]
    cases php.derivePath k.key rest <;> rfl

/-! ## Objects -/

/-- A `BIP32Key`. Its key is a reference, and so are its derivations. -/
structure HeapKey where
  key : Nat
  path : BIP32Path
  derivations : List (Str × Nat)

structure KeyHeap (Node : Type) where
  /-- The `HierarchicalKey`s. -/
  keys : List Node
  objects : List HeapKey

namespace KeyHeap

def keyAt (s : KeyHeap Node) (ref : Nat) : Option (BIP32Key Node) :=
  s.objects[ref]?.bind fun object => s.keys[object.key]?.map fun key => ⟨key, object.path⟩

/-- `HierarchicalKey::toPublic` -/
def toPublic (php : BitWasp Node) (s : KeyHeap Node) (key : Nat) : KeyHeap Node :=
  { s with keys := s.keys.modify key php.toPublic }

/-- `HierarchicalKey::derivePath`: a new object. -/
def derivePath (php : BitWasp Node) (s : KeyHeap Node) (key : Nat) (path : Str) : Option (Nat × KeyHeap Node) :=
  (s.keys[key]?.bind (php.derivePath · path)).map fun child =>
    (s.keys.length, { s with keys := s.keys ++ [child] })

/-- `BIP32Key::create`, and the new derivation. -/
def create (s : KeyHeap Node) (ref : Nat) (object : HeapKey) (path : BIP32Path) (key : Nat) : KeyHeap Node :=
  { s with
    objects :=
      s.objects.set ref { object with derivations := (path.toText, s.objects.length) :: object.derivations } ++
        [⟨key, path, []⟩] }

/-- `buildKey($path)`, of the object. -/
def buildKey (php : BitWasp Node) (s : KeyHeap Node) (ref : Nat) (path : BIP32Path) :
    Except PhpError Nat × KeyHeap Node :=
  match s.objects[ref]? with
  | none => (.error ⟨"Error", "Call to a member function buildKey() on null"⟩, s)
  | some object =>
    match object.derivations.lookup path.toText with
    | some derived => (.ok derived, s)
    | none =>
      let toPublic := path.isPublicPath && !object.path.isPublicPath
      let rest := cut object.path (if toPublic then path.privatePath else path)
      match if rest = [] then some (object.key, s) else s.derivePath php object.key rest with
      | none => (.error ⟨"Exception", "Cannot derive key"⟩, s)
      | some (key, t) =>
        let t := if toPublic then t.toPublic php key else t
        (.ok t.objects.length, t.create ref object path key)

/-- The request makes a private key public where it is. -/
def MadePublic (s : KeyHeap Node) (ref : Nat) (path : BIP32Path) : Prop :=
  ∃ object, s.objects[ref]? = some object ∧ path.isPublicPath = true ∧ object.path.isPublicPath = false ∧
    cut object.path path = []

/-! ## Keys as values -/

section Forall

variable {α β : Type} {R S : α → β → Prop} {l : List α} {m : List β}

theorem forall₂_getElem? (h : List.Forall₂ R l m) (i : Nat) :
    (l[i]? = none ∧ m[i]? = none) ∨ ∃ a b, l[i]? = some a ∧ m[i]? = some b ∧ R a b := by
  induction h generalizing i with
  | nil => exact Or.inl ⟨rfl, rfl⟩
  | cons hab _ ih =>
    cases i with
    | zero => exact Or.inr ⟨_, _, rfl, rfl, hab⟩
    | succ i => exact ih i

theorem forall₂_set (h : List.Forall₂ R l m) {a : α} {b : β} (hab : R a b) (i : Nat) :
    List.Forall₂ R (l.set i a) (m.set i b) := by
  induction h generalizing i with
  | nil => exact List.Forall₂.nil
  | cons hhead htail ih =>
    cases i with
    | zero => exact List.Forall₂.cons hab htail
    | succ i => exact List.Forall₂.cons hhead (ih i)

end Forall

/-- The object has the key, the path and the derivations of the value. -/
def Has (keys : List Node) (object : HeapKey) (value : KeyObject Node) : Prop :=
  keys[object.key]? = some value.key.key ∧ value.key.path = object.path ∧ value.derivations = object.derivations

/-- The store has the keys of the heap as values. -/
def Shows (s : KeyHeap Node) (v : KeyStore Node) : Prop := List.Forall₂ (Has s.keys) s.objects v

theorem Shows.keyAt_eq {s : KeyHeap Node} {v : KeyStore Node} (h : s.Shows v) (ref : Nat) :
    s.keyAt ref = v.keyAt ref := by
  unfold keyAt KeyStore.keyAt
  rcases forall₂_getElem? h ref with ⟨ho, hv⟩ | ⟨object, value, ho, hv, hkey, hpath, -⟩
  · rw [ho, hv]
    rfl
  · rw [ho, hv, Option.bind_some, hkey, Option.map_some, Option.map_some, ← hpath]

theorem Has.append {keys : List Node} {object : HeapKey} {value : KeyObject Node} (h : Has keys object value)
    (more : List Node) : Has (keys ++ more) object value := by
  obtain ⟨hkey, hrest⟩ := h
  obtain ⟨hlt, -⟩ := List.getElem?_eq_some_iff.mp hkey
  exact ⟨(List.getElem?_append_left hlt).trans hkey, hrest⟩

theorem Shows.create {s : KeyHeap Node} {v : KeyStore Node} (h : s.Shows v) {ref : Nat} {object : HeapKey}
    {value : KeyObject Node} (hhas : Has s.keys object value) {key : Nat} {path : BIP32Path} {k : Node}
    (hkey : s.keys[key]? = some k) : (s.create ref object path key).Shows (v.derived ref value path ⟨k, path⟩) := by
  obtain ⟨hk, hpath, hderivations⟩ := hhas
  refine List.rel_append (forall₂_set h ?_ ref) (List.Forall₂.cons ⟨hkey, rfl, rfl⟩ List.Forall₂.nil)
  exact ⟨hk, hpath, by rw [hderivations, List.Forall₂.length_eq h]⟩

theorem Shows.buildKey_none (php : BitWasp Node) {s : KeyHeap Node} {v : KeyStore Node} (h : s.Shows v) {ref : Nat}
    (hk : s.keyAt ref = none) (path : BIP32Path) : ∃ e, s.buildKey php ref path = (.error e, s) := by
  rcases forall₂_getElem? h ref with ⟨ho, -⟩ | ⟨object, value, ho, -, hkey, -⟩
  · unfold KeyHeap.buildKey
    rw [ho]
    exact ⟨_, rfl⟩
  · unfold keyAt at hk
    rw [ho, Option.bind_some, hkey] at hk
    cases hk

theorem not_madePublic {s : KeyHeap Node} {ref : Nat} {k : BIP32Key Node} (hk : s.keyAt ref = some k) {path : BIP32Path}
    (h : path.isPublicPath = true → k.path.isPublicPath = false → cut k.path path ≠ []) :
    ¬s.MadePublic ref path := by
  rintro ⟨object, ho, hpublic, hprivate, hcut⟩
  unfold keyAt at hk
  rw [ho, Option.bind_some] at hk
  obtain ⟨n, -, rfl⟩ := Option.map_eq_some_iff.mp hk
  exact h hpublic hprivate hcut

/-- **Values.** A key object answers as the store of values does, unless it makes a key public where it is. -/
theorem Shows.buildKey (php : BitWasp Node) {s : KeyHeap Node} {v : KeyStore Node} (h : s.Shows v) {ref : Nat}
    {path : BIP32Path} (hplace : ¬s.MadePublic ref path) :
    (v.buildKey php ref path).1 = (s.buildKey php ref path).1 ∧
      (s.buildKey php ref path).2.Shows (v.buildKey php ref path).2 := by
  unfold KeyHeap.buildKey KeyStore.buildKey
  rcases forall₂_getElem? h ref with ⟨ho, hv⟩ | ⟨object, value, ho, hv, hhas⟩
  · rw [ho, hv]
    exact ⟨rfl, h⟩
  · rw [ho, hv]
    dsimp only
    rw [hhas.2.2]
    rcases object.derivations.lookup path.toText with _ | derived
    · dsimp only
      obtain ⟨hkey, hpath, -⟩ := id hhas
      rw [BIP32Key.buildKey_eq, hpath]
      dsimp only
      generalize hpublic : (path.isPublicPath && !object.path.isPublicPath) = toPublic
      generalize hrest : cut object.path (if toPublic = true then path.privatePath else path) = rest
      by_cases hnil : rest = []
      · -- The new object has the key of the old one, as it is.
        have hstays : toPublic = false := by
          cases toPublic with
          | false => rfl
          | true =>
            obtain ⟨hp, ho'⟩ := Bool.and_eq_true_iff.mp hpublic
            rw [if_pos rfl, cut_privatePath] at hrest
            exact absurd ⟨object, ho, hp, (Bool.not_eq_true' _).mp ho', hrest.trans hnil⟩ hplace
        rw [if_pos hnil, if_pos hnil, hstays]
        exact ⟨congrArg Except.ok (List.Forall₂.length_eq h).symm, h.create hhas hkey⟩
      · rw [if_neg hnil, if_neg hnil]
        unfold derivePath
        rw [hkey, Option.bind_some]
        rcases php.derivePath value.key.key rest with _ | child
        · exact ⟨rfl, h⟩
        · have hmore : ∀ node, (⟨s.keys ++ [node], s.objects⟩ : KeyHeap Node).Shows v := fun node =>
            h.imp fun object value hhas => hhas.append [node]
          have hnew : ∀ node : Node, (s.keys ++ [node])[s.keys.length]? = some node := fun node => by simp
          have hlength : (.ok v.length : Except PhpError Nat) = .ok s.objects.length :=
            congrArg Except.ok (List.Forall₂.length_eq h).symm
          cases toPublic with
          | false => exact ⟨hlength, (hmore child).create (hhas.append [child]) (hnew child)⟩
          | true =>
            have hmodify : (s.keys ++ [child]).modify s.keys.length php.toPublic = s.keys ++ [php.toPublic child] := by
              rw [List.modify_eq_take_cons_drop (by simp)]
              simp
            refine ⟨hlength, ?_⟩
            dsimp only [Option.map_some, if_true, toPublic]
            rw [hmodify]
            exact (hmore (php.toPublic child)).create (hhas.append [php.toPublic child]) (hnew (php.toPublic child))
    · exact ⟨rfl, h⟩

end KeyHeap

end PhpSdk
