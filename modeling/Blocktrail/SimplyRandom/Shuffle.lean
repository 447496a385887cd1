import Blocktrail.SimplyRandom.Random

/-! # Shuffling -/

namespace SimplyRandom

/-- The elements that are left, and those that have been drawn. -/
structure Shuffling (α : Type) where
  buffer : List α
  result : List α

namespace Shuffling

variable {α β : Type} (isset : α → Bool)

/-- `$bits`; the count of an array is shifted to zero in fewer turns than it has elements. -/
def bits (s : Shuffling α) : Nat := (countBits (s.buffer.length + 1) s.buffer.length).getD 0

def bytesNeeded (s : Shuffling α) : Nat := bytesFor s.bits

/-- `$stub`. -/
def stub (s : Shuffling α) (seed : Bytes) : Nat := masked (2 ^ s.bits - 1) (seed.take s.bytesNeeded)

/-- One turn of the inner loop: the element at `$stub` is drawn where it is set. -/
def draw (s : Shuffling α) (seed : Bytes) : Shuffling α :=
  match s.buffer[s.stub seed]? with
  | some x => if isset x then ⟨s.buffer.eraseIdx (s.stub seed), s.result ++ [x]⟩ else s
  | none => s

/-- The inner loop, which uses up a byte of the seed at least in each turn. -/
def drain : Nat → Shuffling α → Bytes → Shuffling α
  | 0, s, _ => s
  | fuel + 1, s, seed =>
    let rest := seed.drop s.bytesNeeded
    if s.bytesNeeded < rest.length then drain fuel (s.draw isset seed) rest else s.draw isset seed

/-- The outer loop, of what the generator returns; `none` where it does not reach. -/
def run : List Bytes → Shuffling α → Option (List α)
  | [], s => if s.buffer.isEmpty then some s.result else none
  | seed :: seeds, s => if s.buffer.isEmpty then some s.result else run seeds (s.drain isset seed.length seed)

end Shuffling

/-- The generator is asked for `max(32, $length)` bytes each time. -/
def Seeds (length : Nat) (seeds : List Bytes) : Prop := ∀ seed ∈ seeds, seed.length = max 32 length

/-- `shuffle($value)` of the values of an array or object, of which some may be `null`. -/
def shuffle {α : Type} (values : List (Option α)) (seeds : List Bytes) : Option (List (Option α)) :=
  Shuffling.run Option.isSome seeds ⟨values, []⟩

/-- `str_split($value, 1)`: an empty string is one element. -/
def strSplit (value : Bytes) : List Bytes := if value = [] then [[]] else value.map fun b => [b]

/-- `shuffle($value)` of a string. -/
def shuffleString (value : Bytes) (seeds : List Bytes) : Option Bytes :=
  (shuffle ((strSplit value).map some) seeds).map fun result => (result.filterMap id).flatten

/-! ## Turns -/

namespace Shuffling

variable {α β : Type} {isset : α → Bool}

theorem bits_eq (s : Shuffling α) : s.bits = Nat.log2 s.buffer.length := by
  have hlt : s.buffer.length < 2 ^ (s.buffer.length + 1) :=
    Nat.lt_trans Nat.lt_two_pow_self (Nat.pow_lt_pow_right (by decide) (Nat.lt_succ_self _))
  rw [bits, countBits_eq hlt (Nat.succ_pos _)]
  rfl

theorem stub_lt (s : Shuffling α) (seed : Bytes) : s.stub seed < 2 ^ Nat.log2 s.buffer.length := by
  unfold stub masked
  rw [s.bits_eq]
  have hle := @Nat.and_le_right (hexdec (ByteStrings.value (seed.take s.bytesNeeded)))
    (2 ^ Nat.log2 s.buffer.length - 1)
  have hpos := Nat.two_pow_pos (Nat.log2 s.buffer.length)
  omega

/-- Nothing is drawn, or the element of an index that the mask lets through. -/
theorem draw_cases (isset : α → Bool) (s : Shuffling α) (seed : Bytes) : s.draw isset seed = s ∨
    ∃ i x, i < 2 ^ Nat.log2 s.buffer.length ∧ s.buffer[i]? = some x ∧ isset x = true ∧
      s.draw isset seed = ⟨s.buffer.eraseIdx i, s.result ++ [x]⟩ := by
  unfold draw
  split
  · next x hx =>
    split_ifs with hset
    · exact Or.inr ⟨_, x, s.stub_lt seed, hx, hset, rfl⟩
    · exact Or.inl rfl
  · exact Or.inl rfl

theorem drain_invariant {I : Shuffling α → Prop} (hdraw : ∀ s seed, I s → I (s.draw isset seed)) (fuel : Nat)
    {s : Shuffling α} {seed : Bytes} (h : I s) : I (s.drain isset fuel seed) := by
  induction fuel generalizing s seed with
  | zero => exact h
  | succ fuel ih =>
    unfold drain
    dsimp only
    split_ifs
    · exact ih (hdraw s seed h)
    · exact hdraw s seed h

theorem run_invariant {I : Shuffling α → Prop} (hdraw : ∀ s seed, I s → I (s.draw isset seed)) {seeds : List Bytes}
    {s : Shuffling α} (h : I s) {r : List α} (hr : s.run isset seeds = some r) : I ⟨[], r⟩ := by
  induction seeds generalizing s with
  | nil =>
    unfold run at hr
    split_ifs at hr with hempty
    obtain rfl := Option.some.inj hr
    obtain ⟨buffer, result⟩ := s
    obtain rfl := List.isEmpty_iff.mp hempty
    exact h
  | cons seed seeds ih =>
    unfold run at hr
    split_ifs at hr with hempty
    · obtain rfl := Option.some.inj hr
      obtain ⟨buffer, result⟩ := s
      obtain rfl := List.isEmpty_iff.mp hempty
      exact h
    · exact ih (drain_invariant hdraw _ h) hr

/-- **No loss.** What is drawn and what is left are the elements. -/
theorem perm_of_run {seeds : List Bytes} {buffer r : List α} (h : run isset seeds ⟨buffer, []⟩ = some r) :
    r.Perm buffer := by
  have hkeep : ∀ (s : Shuffling α) seed, (s.result ++ s.buffer).Perm buffer →
      ((s.draw isset seed).result ++ (s.draw isset seed).buffer).Perm buffer := by
    intro s seed hs
    rcases draw_cases isset s seed with heq | ⟨i, x, -, hx, -, heq⟩
    · rw [heq]
      exact hs
    · obtain ⟨hi, rfl⟩ := List.getElem?_eq_some_iff.mp hx
      rw [heq, List.append_assoc]
      refine List.Perm.trans (List.Perm.append_left _ ?_) hs
      exact List.getElem_cons_eraseIdx_perm hi
  have hend := run_invariant (I := fun s => (s.result ++ s.buffer).Perm buffer) hkeep (List.Perm.refl _) h
  simpa using hend

theorem length_draw_le (s : Shuffling α) (seed : Bytes) : (s.draw isset seed).buffer.length ≤ s.buffer.length := by
  rcases draw_cases isset s seed with heq | ⟨i, x, -, -, -, heq⟩
  · rw [heq]
  · rw [heq]
    exact (List.eraseIdx_sublist s.buffer i).length_le

/-- The mask lets no other index through than one of the buffer. -/
theorem length_draw_lt {s : Shuffling α} (h : ∀ x ∈ s.buffer, isset x = true) (hne : s.buffer ≠ []) (seed : Bytes) :
    (s.draw isset seed).buffer.length < s.buffer.length := by
  have hpos : s.buffer.length ≠ 0 := fun hnil => hne (List.length_eq_zero_iff.mp hnil)
  have hstub : s.stub seed < s.buffer.length := Nat.lt_of_lt_of_le (s.stub_lt seed) (Nat.log2_self_le hpos)
  have hset := h _ (List.getElem_mem hstub)
  unfold draw
  rw [List.getElem?_eq_getElem hstub]
  dsimp only
  rw [if_pos hset]
  dsimp only
  rw [List.length_eraseIdx_of_lt hstub]
  omega

theorem isset_draw {s : Shuffling α} (h : ∀ x ∈ s.buffer, isset x = true) (seed : Bytes) :
    ∀ x ∈ (s.draw isset seed).buffer, isset x = true := by
  rcases draw_cases isset s seed with heq | ⟨i, x, -, -, -, heq⟩
  · rw [heq]
    exact h
  · rw [heq]
    exact fun y hy => h y (List.mem_of_mem_eraseIdx hy)

theorem length_drain_lt {s : Shuffling α} (h : ∀ x ∈ s.buffer, isset x = true) (hne : s.buffer ≠ []) {seed : Bytes}
    (hseed : 0 < seed.length) : (s.drain isset seed.length seed).buffer.length < s.buffer.length := by
  obtain ⟨fuel, hfuel⟩ := Nat.exists_eq_add_one_of_ne_zero (Nat.ne_of_gt hseed)
  have hlt := length_draw_lt h hne seed
  rw [hfuel]
  unfold drain
  dsimp only
  split_ifs
  · exact drain_invariant (I := fun t => t.buffer.length < s.buffer.length)
      (fun t seed ht => Nat.lt_of_le_of_lt (length_draw_le t seed) ht) fuel hlt
  · exact hlt

theorem run_of_isset {s : Shuffling α} (h : ∀ x ∈ s.buffer, isset x = true) {seeds : List Bytes}
    (hseeds : ∀ seed ∈ seeds, 0 < seed.length) (hlength : s.buffer.length ≤ seeds.length) :
    ∃ r, s.run isset seeds = some r := by
  induction seeds generalizing s with
  | nil =>
    have hnil : s.buffer = [] := List.length_eq_zero_iff.mp (Nat.le_zero.mp hlength)
    unfold run
    rw [if_pos (List.isEmpty_iff.mpr hnil)]
    exact ⟨_, rfl⟩
  | cons seed seeds ih =>
    unfold run
    split_ifs with hempty
    · exact ⟨_, rfl⟩
    · have hne : s.buffer ≠ [] := fun hnil => hempty (List.isEmpty_iff.mpr hnil)
      have hlt := length_drain_lt h hne (hseeds seed List.mem_cons_self)
      have hset : ∀ x ∈ (s.drain isset seed.length seed).buffer, isset x = true :=
        drain_invariant (I := fun t => ∀ x ∈ t.buffer, isset x = true) (fun _ seed' ht => isset_draw ht seed') seed.length h
      rw [List.length_cons] at hlength
      exact ih hset (fun seed' h' => hseeds seed' (List.mem_cons_of_mem seed h')) (by omega)

theorem not_run_of_unset {x : α} (hx : isset x = false) {s : Shuffling α} (h : x ∈ s.buffer) (seeds : List Bytes) :
    s.run isset seeds = none := by
  have hkeep : ∀ (s : Shuffling α) seed, x ∈ s.buffer → x ∈ (s.draw isset seed).buffer := by
    intro s seed hs
    rcases draw_cases isset s seed with heq | ⟨i, y, -, hy, hset, heq⟩
    · rw [heq]
      exact hs
    · rw [heq]
      obtain ⟨j, hj⟩ := List.mem_iff_getElem?.mp hs
      refine List.mem_eraseIdx_iff_getElem?.mpr ⟨j, ?_, hj⟩
      rintro rfl
      rw [hj] at hy
      obtain rfl := Option.some.inj hy
      rw [hx] at hset
      exact absurd hset (by decide)
  rcases hrun : s.run isset seeds with _ | r
  · rfl
  · exact absurd (run_invariant (I := fun s => x ∈ s.buffer) hkeep h hrun) List.not_mem_nil

/-! ## Positions -/

def map (f : α → β) (s : Shuffling α) : Shuffling β := ⟨s.buffer.map f, s.result.map f⟩

theorem bits_map (f : α → β) (s : Shuffling α) : (s.map f).bits = s.bits := by simp [bits_eq, map]

theorem draw_map {isset' : β → Bool} {f : α → β} (h : ∀ x, isset' (f x) = isset x) (s : Shuffling α) (seed : Bytes) :
    (s.map f).draw isset' seed = (s.draw isset seed).map f := by
  have hstub : (s.map f).stub seed = s.stub seed := by simp only [stub, bytesNeeded, bits_map]
  unfold draw
  rw [hstub, map]
  dsimp only
  rw [List.getElem?_map]
  rcases s.buffer[s.stub seed]? with _ | x
  · rfl
  · simp only [Option.map_some, h]
    split_ifs
    · simp [map, List.eraseIdx_map]
    · rfl

theorem drain_map {isset' : β → Bool} {f : α → β} (h : ∀ x, isset' (f x) = isset x) (fuel : Nat) (s : Shuffling α)
    (seed : Bytes) : (s.map f).drain isset' fuel seed = (s.drain isset fuel seed).map f := by
  induction fuel generalizing s seed with
  | zero => rfl
  | succ fuel ih =>
    have hbytes : (s.map f).bytesNeeded = s.bytesNeeded := by simp only [bytesNeeded, bits_map]
    unfold drain
    dsimp only
    rw [hbytes, draw_map h]
    split_ifs
    · exact ih _ _
    · rfl

/-- The elements are moved by their positions only. -/
theorem run_map (isset : α → Bool) (isset' : β → Bool) {f : α → β} (h : ∀ x, isset' (f x) = isset x)
    (seeds : List Bytes) (s : Shuffling α) : (s.map f).run isset' seeds = (s.run isset seeds).map (List.map f) := by
  induction seeds generalizing s with
  | nil =>
    unfold run
    simp only [map, List.isEmpty_map]
    split_ifs <;> rfl
  | cons seed seeds ih =>
    unfold run
    rw [drain_map h, ih]
    simp only [map, List.isEmpty_map]
    split_ifs <;> rfl

/-! ## Orders that are not reached -/

/-- The result so far goes from the last position down, with three positions left at least, or has left that order. -/
def Descending (length : Nat) (s : Shuffling (α × Nat)) : Prop :=
  (∃ k, s.buffer.map Prod.snd = List.range (k + 3) ∧
    s.result.map Prod.snd ++ (List.range (k + 3)).reverse = (List.range length).reverse) ∨
  ¬s.result.map Prod.snd <+: (List.range length).reverse

theorem descending_draw {isset : α × Nat → Bool} {length : Nat} {s : Shuffling (α × Nat)} (seed : Bytes)
    (h : Descending length s) : Descending length (s.draw isset seed) := by
  rcases draw_cases isset s seed with heq | ⟨i, x, hi, hx, -, heq⟩
  · rw [heq]
    exact h
  · rw [heq]
    rcases h with ⟨k, hbuffer, hresult⟩ | hleft
    · have hlength : s.buffer.length = k + 3 := by simpa using congrArg List.length hbuffer
      have hsnd : x.2 = i ∧ i < k + 3 := by
        have hget : (s.buffer.map Prod.snd)[i]? = some x.2 := by rw [List.getElem?_map, hx, Option.map_some]
        rw [hbuffer] at hget
        obtain ⟨hlt, hval⟩ := List.getElem?_eq_some_iff.mp hget
        rw [List.getElem_range] at hval
        rw [List.length_range] at hlt
        exact ⟨hval.symm, hlt⟩
      rw [List.range_succ, List.reverse_append, List.reverse_singleton] at hresult
      by_cases hlast : i = k + 2
      · -- the last position is drawn, so the mask has let it through
        left
        have hk : k ≠ 0 := by
          rintro rfl
          rw [hlength, show Nat.log2 (0 + 3) = 1 from rfl] at hi
          omega
        obtain ⟨k, rfl⟩ := Nat.exists_eq_succ_of_ne_zero hk
        refine ⟨k, ?_, ?_⟩
        · rw [← List.eraseIdx_map, hbuffer, hlast, List.range_succ (n := k + 1 + 2)]
          simp [List.eraseIdx_append_of_length_le]
        · rw [List.map_append, List.append_assoc, List.map_singleton, hsnd.1, hlast]
          exact hresult
      · right
        rintro ⟨rest, hprefix⟩
        rw [List.map_append, List.append_assoc, ← hresult, List.map_singleton, hsnd.1] at hprefix
        have hhead := List.append_cancel_left hprefix
        injection hhead with hhead
        exact hlast hhead
    · right
      rintro ⟨rest, hprefix⟩
      rw [List.map_append, List.append_assoc] at hprefix
      exact hleft ⟨_, hprefix⟩

theorem not_reverse {isset : α × Nat → Bool} {values : List α} (h : 3 ≤ values.length) {seeds : List Bytes}
    {r : List (α × Nat)} (hr : run isset seeds ⟨values.zipIdx, []⟩ = some r) :
    r.map Prod.snd ≠ (List.range values.length).reverse := by
  obtain ⟨k, hk⟩ : ∃ k, values.length = k + 3 := ⟨values.length - 3, by omega⟩
  have hstart : Descending values.length (⟨values.zipIdx, []⟩ : Shuffling (α × Nat)) := by
    refine Or.inl ⟨k, ?_, by simp [hk]⟩
    simp [List.zipIdx_map_snd, hk, List.range_eq_range']
  intro hreverse
  rcases run_invariant (I := Descending values.length) (fun s seed => descending_draw seed) hstart hr with
    ⟨j, hbuffer, -⟩ | hleft
  · simpa using congrArg List.length hbuffer
  · rw [hreverse] at hleft
    exact hleft List.prefix_rfl

end Shuffling

/-! ## Permutations -/

/-- `shuffle` of elements with their positions. -/
def drawnPairs {α : Type} (values : List (Option α)) (seeds : List Bytes) : Option (List (Option α × Nat)) :=
  Shuffling.run (fun item => item.1.isSome) seeds ⟨values.zipIdx, []⟩

theorem shuffle_eq {α : Type} (values : List (Option α)) (seeds : List Bytes) :
    shuffle values seeds = (drawnPairs values seeds).map (List.map Prod.fst) := by
  have hmap := Shuffling.run_map (fun item : Option α × Nat => item.1.isSome) Option.isSome (f := Prod.fst)
    (fun _ => rfl) seeds ⟨values.zipIdx, []⟩
  rw [drawnPairs, ← hmap]
  simp [Shuffling.map, shuffle]

/-- Every permutation of the positions is the result for what some generator returns. -/
def ReachesAll {α : Type} (values : List (Option α)) : Prop :=
  ∀ positions : List Nat, positions.Perm (List.range values.length) →
    ∃ seeds r, Seeds values.length seeds ∧ drawnPairs values seeds = some r ∧ r.map Prod.snd = positions

/-- The result has the elements of the sequence, and every order of them is a result. -/
structure Shuffles {α : Type} (values : List (Option α)) : Prop where
  perm : ∀ seeds r, Seeds values.length seeds → shuffle values seeds = some r → r.Perm values
  reached : ReachesAll values

structure ShufflesString (value : Bytes) : Prop where
  perm : ∀ seeds r, Seeds (strSplit value).length seeds → shuffleString value seeds = some r → r.Perm value
  reached : ReachesAll ((strSplit value).map some)

/-- Then every order of the elements is a result of `shuffle`. -/
theorem ReachesAll.exists_shuffle {α : Type} {values r : List (Option α)} (h : ReachesAll values) (hr : r.Perm values) :
    ∃ seeds, Seeds values.length seeds ∧ shuffle values seeds = some r := by
  have hfst : values.zipIdx.map Prod.fst = values := List.zipIdx_map_fst 0 values
  have hcomp : Relation.Comp (· = List.map Prod.fst ·) List.Perm r values.zipIdx := by
    rw [List.eq_map_comp_perm]
    exact hr.trans (List.Perm.of_eq hfst.symm)
  obtain ⟨pairs, rfl, hpairs⟩ := hcomp
  have hpositions : (pairs.map Prod.snd).Perm (List.range values.length) := by
    have hmap := hpairs.map Prod.snd
    rwa [List.zipIdx_map_snd, ← List.range_eq_range'] at hmap
  obtain ⟨seeds, drawn, hseeds, hdrawn, hsnd⟩ := h _ hpositions
  -- a pair is known by its position
  have hself : ∀ l : List (Option α × Nat), l.Perm values.zipIdx →
      (l.map Prod.snd).map (fun i => (values[i]?.getD none, i)) = l := by
    intro l hl
    rw [List.map_map]
    refine (List.map_congr_left fun item hitem => ?_).trans (List.map_id l)
    have hget := List.mem_zipIdx_iff_getElem?.mp (hl.subset hitem)
    simp [hget]
  have heq : drawn = pairs := by rw [← hself drawn (Shuffling.perm_of_run hdrawn), hsnd, hself pairs hpairs]
  refine ⟨seeds, hseeds, ?_⟩
  rw [shuffle_eq, hdrawn, heq, Option.map_some]

/-- A seed that draws the element at `first`, then the first ones. -/
def seedFrom (first : UInt8) : Bytes := first :: List.replicate 31 0

theorem seeds_seedFrom {length : Nat} (h : length ≤ 2) (first : UInt8) : Seeds length [seedFrom first] := by
  intro seed hseed
  obtain rfl := List.mem_singleton.mp hseed
  simp only [seedFrom, List.length_cons, List.length_replicate]
  omega

theorem drawnPairs_pair {α : Type} (x y : α) {first : UInt8} (order : List Nat)
    (h : Shuffling.run (fun _ => true) [seedFrom first] ⟨[0, 1], []⟩ = some order) :
    drawnPairs [some x, some y] [seedFrom first] =
      some (order.map fun i => if i = 0 then (some x, 0) else (some y, 1)) := by
  have hmap := Shuffling.run_map (fun _ : Nat => true) (fun item : Option α × Nat => item.1.isSome)
    (f := fun i => if i = 0 then (some x, 0) else (some y, 1)) (fun i => by split_ifs <;> rfl) [seedFrom first]
    ⟨[0, 1], []⟩
  rw [h, Option.map_some] at hmap
  exact hmap

theorem drawnPairs_singleton {α : Type} (x : α) : drawnPairs [some x] [seedFrom 0] = some [(some x, 0)] := by
  have hmap := Shuffling.run_map (fun _ : Nat => true) (fun item : Option α × Nat => item.1.isSome)
    (f := fun _ => (some x, 0)) (fun _ => rfl) [seedFrom 0] ⟨[0], []⟩
  have hrun : Shuffling.run (fun _ => true) [seedFrom 0] ⟨[0], []⟩ = some [0] := by decide +kernel
  rw [hrun, Option.map_some] at hmap
  exact hmap

theorem perm_range_two {positions : List Nat} (h : positions.Perm (List.range 2)) :
    positions = [0, 1] ∨ positions = [1, 0] := by
  obtain ⟨a, b, rfl⟩ := List.length_eq_two.mp h.length_eq
  have ha : a ∈ List.range 2 := h.subset (by simp)
  have hb : b ∈ List.range 2 := h.subset (by simp)
  have hne : a ≠ b := by simpa using h.nodup_iff.mpr List.nodup_range
  simp only [List.mem_range] at ha hb
  simp only [List.cons.injEq, and_true]
  omega

theorem reachesAll {α : Type} {values : List (Option α)} (h : values.length ≤ 2) (hset : none ∉ values) :
    ReachesAll values := by
  intro positions hperm
  match values, h, hset with
  | [], _, _ =>
    obtain rfl := List.perm_nil.mp hperm
    exact ⟨[], [], by simp [Seeds], rfl, rfl⟩
  | [some x], h, _ =>
    obtain rfl := List.perm_singleton.mp hperm
    exact ⟨[seedFrom 0], [(some x, 0)], seeds_seedFrom h 0, drawnPairs_singleton x, rfl⟩
  | [some x, some y], h, _ =>
    rcases perm_range_two hperm with rfl | rfl
    · exact ⟨[seedFrom 0], _, seeds_seedFrom h 0, drawnPairs_pair x y [0, 1] (by decide +kernel), rfl⟩
    · exact ⟨[seedFrom 1], _, seeds_seedFrom h 1, drawnPairs_pair x y [1, 0] (by decide +kernel), rfl⟩
  | [none], _, hset => exact absurd List.mem_cons_self hset
  | [some _, none], _, hset => exact absurd (by simp) hset
  | [none, _], _, hset => exact absurd List.mem_cons_self hset

theorem not_reachesAll_of_length {α : Type} {values : List (Option α)} (h : 3 ≤ values.length) :
    ¬ReachesAll values := by
  intro hall
  obtain ⟨seeds, r, -, hr, hpositions⟩ := hall _ (List.reverse_perm _)
  exact Shuffling.not_reverse h hr hpositions

theorem not_reachesAll_of_null {α : Type} {values : List (Option α)} (h : none ∈ values) : ¬ReachesAll values := by
  intro hall
  obtain ⟨seeds, r, -, hr, -⟩ := hall _ (List.Perm.refl _)
  obtain ⟨i, hi⟩ := List.mem_iff_getElem?.mp h
  have hmem : (none, i) ∈ values.zipIdx := List.mem_zipIdx_iff_getElem?.mpr hi
  rw [drawnPairs, Shuffling.not_run_of_unset (x := (none, i)) rfl hmem] at hr
  cases hr

theorem reachesAll_iff {α : Type} (values : List (Option α)) :
    ReachesAll values ↔ values.length ≤ 2 ∧ none ∉ values := by
  constructor
  · intro h
    refine ⟨?_, fun hnull => not_reachesAll_of_null hnull h⟩
    by_contra hlength
    exact not_reachesAll_of_length (by omega) h
  · rintro ⟨hlength, hset⟩
    exact reachesAll hlength hset

theorem flatten_strSplit (value : Bytes) : (strSplit value).flatten = value := by
  unfold strSplit
  split_ifs with h
  · rw [h]
    rfl
  · induction value with
    | nil => rfl
    | cons b value ih =>
      rcases value with _ | ⟨c, value⟩
      · rfl
      · simpa using ih (by simp)

theorem perm_shuffleString {value r : Bytes} {seeds : List Bytes} (h : shuffleString value seeds = some r) :
    r.Perm value := by
  obtain ⟨items, hitems, rfl⟩ := Option.map_eq_some_iff.mp h
  have hperm := (Shuffling.perm_of_run hitems).filterMap id
  have hself : ((strSplit value).map some).filterMap id = strSplit value := by simp [List.filterMap_map]
  rw [hself] at hperm
  exact hperm.flatten.trans (List.Perm.of_eq (flatten_strSplit value))

/-- **Shuffling.** The result has the elements of the sequence, and every order is a result, exactly for the sequences
of two elements at most without `null`. -/
theorem shuffle_iff {α : Type} (values : List (Option α)) (value : Bytes) :
    (Shuffles values ↔ values.length ≤ 2 ∧ none ∉ values) ∧ (ShufflesString value ↔ value.length ≤ 2) := by
  constructor
  · rw [← reachesAll_iff]
    exact ⟨Shuffles.reached, fun h => ⟨fun seeds r _ hr => Shuffling.perm_of_run hr, h⟩⟩
  · have hlength : ((strSplit value).map some).length ≤ 2 ↔ value.length ≤ 2 := by
      unfold strSplit
      split_ifs with h
      · simp [h]
      · simp
    have hreach : ReachesAll ((strSplit value).map some) ↔ value.length ≤ 2 := by
      rw [reachesAll_iff, hlength]
      simp
    rw [← hreach]
    exact ⟨ShufflesString.reached, fun h => ⟨fun seeds r _ hr => perm_shuffleString hr, h⟩⟩

/-- Three characters are never reversed. -/
theorem abc_not_reversed : ¬ShufflesString [0x61, 0x62, 0x63] := by
  intro h
  exact not_reachesAll_of_length (by decide) h.reached

end SimplyRandom
