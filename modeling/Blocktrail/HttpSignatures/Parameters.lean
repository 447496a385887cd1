import Blocktrail.Lib.Labelled
import Blocktrail.HttpSignatures.Php

/-! # The parameters of a signature

What the parser accepts: segments of a name and a quoted value behind commas, with every name there. A value may have
quotes, but no comma and no newline. The last value of a name counts.
-/

open Text Php Throwing

namespace HttpSignatures

/-- A name and a value, as a segment. -/
def segment (p : Str × Str) : Str := p.1 ++ '=' :: '"' :: (p.2 ++ ['"'])

theorem not_mem_names : ∀ name ∈ parameterNames, '=' ∉ name ∧ ',' ∉ name := by decide +kernel

theorem segment_injective {p q : Str × Str} (hp : p.1 ∈ parameterNames) (hq : q.1 ∈ parameterNames)
    (h : segment p = segment q) : p = q := by
  obtain ⟨hname, hrest⟩ := Labelled.append_cons_injective (not_mem_names _ hp).1 (not_mem_names _ hq).1 h
  exact Prod.ext hname (List.append_cancel_right (List.cons.inj hrest).2)

theorem quoted?_eq_some {s v : Str} : quoted? s = some v ↔ s = '"' :: (v ++ ['"']) ∧ '\n' ∉ v := by
  cases s with
  | nil => simp [quoted?]
  | cons c rest =>
    simp only [quoted?, Option.ite_none_right_eq_some, Option.some.injEq, List.cons.injEq]
    constructor
    · rintro ⟨⟨rfl, hlast, hbreak⟩, rfl⟩
      obtain ⟨ys, rfl⟩ := List.getLast?_eq_some_iff.mp hlast
      simpa using hbreak
    · rintro ⟨⟨rfl, rfl⟩, hbreak⟩
      simp [hbreak]

theorem matchPair_eq_some {s : Str} {p : Str × Str} :
    matchPair s = some p ↔ s = segment p ∧ p.1 ∈ parameterNames ∧ '\n' ∉ p.2 := by
  have hone : ∀ {name : Str} {p : Str × Str},
      ((name ++ ['=']).isPrefixOf? s).bind (fun rest => (quoted? rest).map fun value => (name, value)) = some p ↔
        p.1 = name ∧ s = segment p ∧ '\n' ∉ p.2 := by
    rintro name ⟨n, v⟩
    simp only [Option.bind_eq_some_iff, Option.map_eq_some_iff, List.isPrefixOf?_eq_some_iff_append_eq,
      quoted?_eq_some, Prod.mk.injEq, segment]
    constructor
    · rintro ⟨rest, rfl, value, ⟨rfl, hbreak⟩, rfl, rfl⟩
      exact ⟨rfl, by simp, hbreak⟩
    · rintro ⟨rfl, rfl, hbreak⟩
      exact ⟨_, by simp, v, ⟨rfl, hbreak⟩, rfl, rfl⟩
  have hsound : ∀ {p : Str × Str}, matchPair s = some p → s = segment p ∧ p.1 ∈ parameterNames ∧ '\n' ∉ p.2 := by
    intro p h
    obtain ⟨name, hname, hp⟩ := List.exists_of_findSome?_eq_some h
    obtain ⟨rfl, hs, hbreak⟩ := hone.mp hp
    exact ⟨hs, hname, hbreak⟩
  refine ⟨hsound, fun ⟨hs, hname, hbreak⟩ => ?_⟩
  have hsome : (matchPair s).isSome = true := by
    rw [matchPair, List.findSome?_isSome_iff]
    exact ⟨p.1, hname, Option.isSome_iff_exists.mpr ⟨p, hone.mpr ⟨rfl, hs, hbreak⟩⟩⟩
  obtain ⟨q, hq⟩ := Option.isSome_iff_exists.mp hsome
  obtain ⟨hs', hname', -⟩ := hsound hq
  rw [hq, segment_injective hname' hname (hs'.symm.trans hs)]

theorem pair_ok {s : Str} {p : Str × Str} : pair s = .ok p ↔ s = segment p ∧ p.1 ∈ parameterNames ∧ '\n' ∉ p.2 := by
  rw [← matchPair_eq_some]
  unfold pair
  cases matchPair s <;> simp

theorem mapM_pair_ok {ss : List Str} {ps : List (Str × Str)} :
    ss.mapM pair = .ok ps ↔ ss = ps.map segment ∧ ∀ p ∈ ps, p.1 ∈ parameterNames ∧ '\n' ∉ p.2 := by
  induction ss generalizing ps with
  | nil =>
    constructor
    · intro h
      obtain rfl := Except.ok.inj h
      simp
    · rintro ⟨hs, -⟩
      rw [List.map_eq_nil_iff.mp hs.symm]
      rfl
  | cons s ss ih =>
    rw [List.mapM_cons]
    constructor
    · intro h
      obtain ⟨p, hp, h⟩ := exists_of_bind_ok h
      obtain ⟨qs, hqs, h⟩ := exists_of_bind_ok h
      obtain rfl := Except.ok.inj h
      obtain ⟨rfl, hname⟩ := pair_ok.mp hp
      obtain ⟨rfl, hnames⟩ := ih.mp hqs
      exact ⟨rfl, List.forall_mem_cons.mpr ⟨hname, hnames⟩⟩
    · rintro ⟨hs, hnames⟩
      obtain ⟨p, qs, rfl, rfl, rfl⟩ := List.map_eq_cons_iff.mp hs.symm
      rw [List.forall_mem_cons] at hnames
      rw [pair_ok.mpr ⟨rfl, hnames.1⟩, ok_bind, ih.mpr ⟨rfl, hnames.2⟩]
      rfl

/-! ## The associative array -/

theorem mem_keys_pairs {ps : List (Str × Str)} {k : Str} : k ∈ (pairsToAssociative ps).keys ↔ k ∈ ps.map Prod.fst := by
  have haux : ∀ o : Assoc.Object Str Str,
      k ∈ (ps.foldl (fun o p => o.set p.1 p.2) o).keys ↔ k ∈ ps.map Prod.fst ∨ k ∈ o.keys := by
    induction ps with
    | nil => simp
    | cons p ps ih =>
      intro o
      rw [List.foldl_cons, ih, Assoc.Object.mem_keys_set, List.map_cons, List.mem_cons]
      tauto
  rw [pairsToAssociative, haux]
  simp [Assoc.Object.empty, Assoc.Object.keys, Assoc.keys]

theorem mem_of_get?_pairs {ps : List (Str × Str)} {k v : Str} (h : (pairsToAssociative ps).get? k = some v) :
    (k, v) ∈ ps := by
  have haux : ∀ o : Assoc.Object Str Str,
      (ps.foldl (fun o p => o.set p.1 p.2) o).get? k = some v → (k, v) ∈ ps ∨ o.get? k = some v := by
    clear h
    induction ps with
    | nil => exact fun o ho => Or.inr ho
    | cons p ps ih =>
      intro o ho
      rw [List.foldl_cons] at ho
      rcases ih _ ho with hmem | hset
      · exact Or.inl (List.mem_cons_of_mem p hmem)
      · rw [Assoc.Object.get?_set] at hset
        split_ifs at hset with hk
        · obtain rfl := Option.some.inj hset
          rw [hk]
          exact Or.inl List.mem_cons_self
        · exact Or.inr hset
  rcases haux .empty h with hmem | hempty
  · exact hmem
  · cases hempty

theorem get?_pairs_of_mem {ps : List (Str × Str)} (h : (Assoc.keys ps).Nodup) {k v : Str} (hmem : (k, v) ∈ ps) :
    (pairsToAssociative ps).get? k = some v := by
  have hobject : (⟨ps, h⟩ : Assoc.Object Str Str).get? k = some v := (Assoc.Object.get?_eq_some _).mpr hmem
  rw [pairsToAssociative, Assoc.Object.get?_foldl_set h]
  change ((⟨ps, h⟩ : Assoc.Object Str Str).get? k).or _ = some v
  rw [hobject, Option.some_or]

theorem validate_ok {o : Assoc.Object Str Str} :
    validateAllKeysArePresent o = .ok () ↔ ∀ name ∈ parameterNames, name ∈ o.keys := by
  unfold validateAllKeysArePresent
  rcases hm : parameterNames.filter (· ∉ o.keys) with _ | ⟨name, names⟩
  · simpa [List.filter_eq_nil_iff] using hm
  · have hmem : name ∈ parameterNames.filter (· ∉ o.keys) := hm ▸ List.mem_cons_self
    simp only [List.mem_filter, decide_eq_true_eq] at hmem
    simp only [reduceCtorEq, false_iff]
    exact fun h => hmem.2 (h name hmem.1)

theorem implode_eq (sep : Char) (xs : List Str) : implode sep xs = [sep].intercalate xs := by
  cases xs with
  | nil => simp [implode]
  | cons x xs => rw [implode, Separated.intercalate_cons_eq]

theorem comma_mem_segment {p : Str × Str} (hp : p.1 ∈ parameterNames) : ',' ∈ segment p ↔ ',' ∈ p.2 := by
  simp [segment, (not_mem_names p.1 hp).2]

/-- **What the parser accepts.** -/
theorem parse_ok_iff {input : Str} {o : Assoc.Object Str Str} :
    parse input = .ok o ↔ ∃ ps : List (Str × Str), input = implode ',' (ps.map segment) ∧
      (∀ p ∈ ps, p.1 ∈ parameterNames ∧ '\n' ∉ p.2 ∧ ',' ∉ p.2) ∧
      (∀ name ∈ parameterNames, name ∈ ps.map Prod.fst) ∧ o = pairsToAssociative ps := by
  constructor
  · intro h
    obtain ⟨ps, hps, h⟩ := exists_of_bind_ok h
    obtain ⟨⟨⟩, hvalid, h⟩ := exists_of_bind_ok h
    obtain rfl := Except.ok.inj h
    obtain ⟨hsplit, hnames⟩ := mapM_pair_ok.mp hps
    refine ⟨ps, ?_, fun p hp => ⟨(hnames p hp).1, (hnames p hp).2, ?_⟩, fun name hname => ?_, rfl⟩
    · rw [implode_eq, ← hsplit, List.intercalate_splitOn]
    · rw [← comma_mem_segment (hnames p hp).1]
      exact Separated.not_mem_of_mem_splitOn (hsplit ▸ List.mem_map_of_mem hp)
    · exact mem_keys_pairs.mp (validate_ok.mp hvalid name hname)
  · rintro ⟨ps, rfl, hps, hnames, rfl⟩
    have hne : ps.map segment ≠ [] := by
      intro hnil
      have hmem := hnames "keyId".toList List.mem_cons_self
      rw [List.map_eq_nil_iff.mp hnil] at hmem
      exact List.not_mem_nil hmem
    have hcomma : ∀ s ∈ ps.map segment, ',' ∉ s := by
      intro s hs
      obtain ⟨p, hp, rfl⟩ := List.mem_map.mp hs
      rw [comma_mem_segment (hps p hp).1]
      exact (hps p hp).2.2
    have hsplit : (implode ',' (ps.map segment)).splitOn ',' = ps.map segment := by
      rw [implode_eq]
      exact List.splitOn_intercalate ',' hcomma hne
    have hpairs : (ps.map segment).mapM pair = .ok ps :=
      mapM_pair_ok.mpr ⟨rfl, fun p hp => ⟨(hps p hp).1, (hps p hp).2.1⟩⟩
    have hvalid := validate_ok.mpr fun name hname => mem_keys_pairs.mpr (hnames name hname)
    rw [parse, hsplit, hpairs, ok_bind]
    dsimp only
    rw [hvalid]
    rfl

end HttpSignatures
