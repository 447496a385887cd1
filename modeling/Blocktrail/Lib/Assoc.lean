import Mathlib.Data.List.Basic
import Blocktrail.Lib.Throwing

/-! # Ordered maps

A list of keys and values, in the order in which the keys came. Reading is `List.lookup`.
-/

open Throwing

namespace Assoc

variable {κ ν : Type}

def keys (l : List (κ × ν)) : List κ := l.map Prod.fst

/-- A key that is there keeps its place; a new one goes to the end. -/
def assign [DecidableEq κ] : List (κ × ν) → κ → ν → List (κ × ν)
  | [], k, v => [(k, v)]
  | e :: l, k, v => if e.1 = k then (k, v) :: l else e :: assign l k v

theorem keys_filterMap {ν' : Type} (f : κ × ν → Option ν') (l : List (κ × ν)) :
    (keys (l.filterMap fun e => (f e).map fun v => (e.1, v))).Sublist (keys l) := by
  induction l with
  | nil => exact List.Sublist.refl []
  | cons e l ih =>
    rw [List.filterMap_cons]
    rcases f e with _ | v
    · exact ih.cons e.1
    · exact ih.cons_cons e.1

section Lookup

variable [BEq κ] [LawfulBEq κ]

theorem lookup_isSome (l : List (κ × ν)) (k : κ) : (l.lookup k).isSome = true ↔ k ∈ keys l := by
  rw [List.lookup_isSome_iff, keys, List.mem_map]
  refine exists_congr fun e => and_congr_right fun _ => ?_
  rw [beq_iff_eq, eq_comm]

theorem mem_keys_of_lookup {l : List (κ × ν)} {k : κ} {v : ν} (h : l.lookup k = some v) : k ∈ keys l := by
  rw [← lookup_isSome, h]
  rfl

theorem exists_lookup {l : List (κ × ν)} {k : κ} (h : k ∈ keys l) : ∃ v, l.lookup k = some v :=
  Option.isSome_iff_exists.mp ((lookup_isSome l k).mpr h)

end Lookup

section Assign

variable [DecidableEq κ]

theorem assign_of_not_mem (l : List (κ × ν)) {k : κ} (h : k ∉ keys l) (v : ν) : assign l k v = l ++ [(k, v)] := by
  induction l with
  | nil => rfl
  | cons e l ih =>
    simp only [keys, List.map_cons, List.mem_cons, not_or] at h
    rw [assign, if_neg (Ne.symm h.1), ih h.2]
    rfl

theorem keys_assign_of_mem (l : List (κ × ν)) {k : κ} (h : k ∈ keys l) (v : ν) : keys (assign l k v) = keys l := by
  induction l with
  | nil => cases h
  | cons e l ih =>
    unfold assign
    by_cases he : e.1 = k
    · rw [if_pos he, ← he]
      rfl
    · rw [if_neg he]
      have hl : k ∈ keys l := (List.mem_cons.mp h).resolve_left (Ne.symm he)
      exact congrArg (e.1 :: ·) (ih hl)

theorem nodup_assign {l : List (κ × ν)} (h : (keys l).Nodup) (k : κ) (v : ν) : (keys (assign l k v)).Nodup := by
  by_cases hk : k ∈ keys l
  · rw [keys_assign_of_mem l hk]
    exact h
  · rw [assign_of_not_mem l hk]
    simp only [keys, List.map_append, List.map_cons, List.map_nil]
    exact List.nodup_append.mpr ⟨h, by simp, fun a ha b hb => by
      rw [List.mem_singleton.mp hb]
      rintro rfl
      exact hk ha⟩

variable [BEq κ] [LawfulBEq κ]

theorem lookup_cons (e : κ × ν) (l : List (κ × ν)) (k : κ) :
    (e :: l).lookup k = if k = e.1 then some e.2 else l.lookup k := by
  obtain ⟨a, b⟩ := e
  rw [List.lookup_cons]
  by_cases h : k = a
  · simp [h]
  · simp [beq_eq_false_iff_ne.mpr h, h]

theorem lookup_assign (l : List (κ × ν)) (k k' : κ) (v : ν) :
    (assign l k v).lookup k' = if k' = k then some v else l.lookup k' := by
  induction l with
  | nil => rw [assign, lookup_cons]
  | cons e l ih =>
    unfold assign
    by_cases he : e.1 = k
    · rw [if_pos he, lookup_cons, lookup_cons, he]
      split <;> rfl
    · rw [if_neg he, lookup_cons, lookup_cons, ih]
      by_cases hk : k' = e.1
      · rw [if_pos hk, if_neg fun h => he (hk.symm.trans h), if_pos hk]
      · rw [if_neg hk, if_neg hk]

@[simp] theorem lookup_assign_self (l : List (κ × ν)) (k : κ) (v : ν) : (assign l k v).lookup k = some v := by
  simp [lookup_assign]

theorem mem_keys_assign (l : List (κ × ν)) (k k' : κ) (v : ν) :
    k' ∈ keys (assign l k v) ↔ k' = k ∨ k' ∈ keys l := by
  rw [← lookup_isSome, ← lookup_isSome, lookup_assign]
  by_cases h : k' = k
  · simp [h]
  · simp [h]

theorem lookup_eq_some_iff {l : List (κ × ν)} (h : (keys l).Nodup) {k : κ} {v : ν} :
    l.lookup k = some v ↔ (k, v) ∈ l := by
  induction l with
  | nil => simp
  | cons e l ih =>
    have hn := List.nodup_cons.mp (show (e.1 :: keys l).Nodup from h)
    rw [lookup_cons, List.mem_cons]
    by_cases hk : k = e.1
    · subst hk
      rw [if_pos rfl, Option.some_inj]
      constructor
      · rintro rfl
        exact Or.inl rfl
      · rintro (he | hmem)
        · exact (congrArg Prod.snd he).symm
        · exact absurd (List.mem_map_of_mem hmem) hn.1
    · rw [if_neg hk, ih hn.2]
      constructor
      · exact Or.inr
      · rintro (he | hmem)
        · exact absurd (congrArg Prod.fst he) hk
        · exact hmem

end Assign

/-! ## Maps with one entry a key -/

structure Object (κ ν : Type) where
  entries : List (κ × ν)
  nodup : (keys entries).Nodup

namespace Object

variable [DecidableEq κ]

def empty : Object κ ν := ⟨[], List.nodup_nil⟩

def keys (o : Object κ ν) : List κ := Assoc.keys o.entries

def get? (o : Object κ ν) (k : κ) : Option ν := o.entries.lookup k

def set (o : Object κ ν) (k : κ) (v : ν) : Object κ ν := ⟨assign o.entries k v, nodup_assign o.nodup k v⟩

/-- The entries whose keys meet `p`. -/
def filter (o : Object κ ν) (p : κ → Bool) : Object κ ν :=
  ⟨o.entries.filter fun e => p e.1, o.nodup.sublist (List.filter_sublist.map Prod.fst)⟩

theorem get?_empty (k : κ) : (empty : Object κ ν).get? k = none := rfl

theorem get?_cons {e : κ × ν} {l : List (κ × ν)} (h : (Assoc.keys (e :: l)).Nodup) (k : κ) :
    (⟨e :: l, h⟩ : Object κ ν).get? k = if k = e.1 then some e.2 else
      (⟨l, (List.nodup_cons.mp h).2⟩ : Object κ ν).get? k := lookup_cons e l k

theorem get?_eq_none (o : Object κ ν) {k : κ} (h : k ∉ o.keys) : o.get? k = none := by
  rw [← Option.not_isSome_iff_eq_none]
  exact fun hs => h ((lookup_isSome o.entries k).mp hs)

theorem get?_set (o : Object κ ν) (k k' : κ) (v : ν) : (o.set k v).get? k' = if k' = k then some v else o.get? k' :=
  lookup_assign o.entries k k' v

theorem mem_keys_set (o : Object κ ν) (k k' : κ) (v : ν) : k' ∈ (o.set k v).keys ↔ k' = k ∨ k' ∈ o.keys :=
  mem_keys_assign o.entries k k' v

theorem entries_set_of_not_mem (o : Object κ ν) {k : κ} (h : k ∉ o.keys) (v : ν) :
    (o.set k v).entries = o.entries ++ [(k, v)] := assign_of_not_mem o.entries h v

theorem get?_eq_some (o : Object κ ν) {k : κ} {v : ν} : o.get? k = some v ↔ (k, v) ∈ o.entries :=
  lookup_eq_some_iff o.nodup

theorem get?_filter (o : Object κ ν) (p : κ → Bool) (k : κ) :
    (o.filter p).get? k = if p k then o.get? k else none := by
  apply Option.ext
  intro v
  rw [get?_eq_some]
  cases hp : p k with
  | true => rw [if_pos rfl, get?_eq_some]; simp [filter, hp]
  | false => simp [filter, hp]

/-- `Object.assign`: the entries of `p` over those of `o`. -/
def assign (o p : Object κ ν) : Object κ ν := p.entries.foldl (fun o e => o.set e.1 e.2) o

theorem get?_foldl_set {l : List (κ × ν)} (h : (Assoc.keys l).Nodup) (o : Object κ ν) (k : κ) :
    (l.foldl (fun o e => o.set e.1 e.2) o).get? k = (l.lookup k).or (o.get? k) := by
  induction l generalizing o with
  | nil => rfl
  | cons e l ih =>
    obtain ⟨hnew, hn⟩ := List.nodup_cons.mp (show (e.1 :: Assoc.keys l).Nodup from h)
    rw [List.foldl_cons, ih hn, lookup_cons, get?_set]
    by_cases hk : k = e.1
    · have hnone : l.lookup k = none := by
        rw [← Option.not_isSome_iff_eq_none, lookup_isSome, hk]
        exact hnew
      rw [if_pos hk, if_pos hk, hnone]
      rfl
    · rw [if_neg hk, if_neg hk]

theorem get?_assign (o p : Object κ ν) (k : κ) : (o.assign p).get? k = (p.get? k).or (o.get? k) :=
  get?_foldl_set p.nodup o k

theorem exists_get? (o : Object κ ν) {k : κ} (h : k ∈ o.keys) : ∃ v, o.get? k = some v := exists_lookup h

theorem mem_keys (o : Object κ ν) {k : κ} {v : ν} (h : o.get? k = some v) : k ∈ o.keys := mem_keys_of_lookup h

/-! ## Collecting -/

variable {ε α : Type}

/-- The entries that `f` makes of the elements of a list, later ones over earlier ones. -/
def collect (f : α → Except ε (κ × ν)) (l : List α) : Except ε (Object κ ν) :=
  l.foldlM (fun o a => do
    let e ← f a
    pure (o.set e.1 e.2)) empty

theorem exists_collect {f : α → Except ε (κ × ν)} {l : List α} (h : ∀ a ∈ l, ∃ e, f a = .ok e) :
    ∃ o, collect f l = .ok o := by
  have haux : ∀ o : Object κ ν, ∃ o', l.foldlM (fun o a => do
      let e ← f a
      pure (o.set e.1 e.2)) o = .ok o' := by
    induction l with
    | nil => exact fun o => ⟨o, rfl⟩
    | cons a l ih =>
      intro o
      obtain ⟨e, he⟩ := h a List.mem_cons_self
      rw [List.foldlM_cons, he]
      exact ih (fun b hb => h b (List.mem_cons_of_mem a hb)) (o.set e.1 e.2)
  exact haux empty

theorem mem_keys_collect {f : α → Except ε (κ × ν)} {l : List α} {o : Object κ ν} (h : collect f l = .ok o) {a : α}
    (ha : a ∈ l) : ∃ e, f a = .ok e ∧ e.1 ∈ o.keys := by
  refine foldlM_mem (Q := fun o : Object κ ν => ∃ e, f a = .ok e ∧ e.1 ∈ o.keys) ha ?_ ?_ h
  · intro o o' hstep
    obtain ⟨e, he, hstep⟩ := exists_of_bind_ok hstep
    cases hstep
    exact ⟨e, he, (mem_keys_set o _ _ _).mpr (Or.inl rfl)⟩
  · rintro o b o' - hstep ⟨e, he, hmem⟩
    obtain ⟨e', -, hstep⟩ := exists_of_bind_ok hstep
    cases hstep
    exact ⟨e, he, (mem_keys_set o _ _ _).mpr (Or.inr hmem)⟩

theorem get?_collect {f : α → Except ε (κ × ν)} {l : List α} {o : Object κ ν} (h : collect f l = .ok o) {k : κ} {v : ν}
    (hv : o.get? k = some v) : ∃ a ∈ l, f a = .ok (k, v) := by
  refine foldlM_invariant (I := fun o : Object κ ν => ∀ k v, o.get? k = some v → ∃ a ∈ l, f a = .ok (k, v)) ?_ h
    (fun k v hv => by cases hv) k v hv
  intro o a o' ha hstep ho k v hv
  obtain ⟨e, he, hstep⟩ := exists_of_bind_ok hstep
  cases hstep
  rw [get?_set] at hv
  split at hv
  · next hk =>
    cases hv
    rw [hk]
    exact ⟨a, ha, he⟩
  · exact ho k v hv

end Object

end Assoc
