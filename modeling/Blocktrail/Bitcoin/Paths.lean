import Blocktrail.Bitcoin.HDNode
import Blocktrail.Lib.Throwing

/-! # Derivation paths -/

open Text Throwing

namespace Bitcoin

def apostrophe : Char := Char.ofNat 39

/-- `M/k'/c/i`. -/
def walletPath (k c i : Nat) : Str :=
  "M/".toList ++ (dec k ++ apostrophe :: '/' :: (dec c ++ '/' :: dec i))

/-- `M/k'`. -/
def accountPath (k : Nat) : Str := "M/".toList ++ (dec k ++ [apostrophe])

/-- The index asked for by a chunk of a path; `none` is NaN. -/
def chunkIndex (chunk : Str) : Option Int :=
  if apostrophe ∈ chunk then do
    let n ← parseInt10 (replaceFirst apostrophe [] chunk)
    let n ← double n
    let h ← double (n + HIGHEST_BIT)
    -- The sum is a number, and goes through `parseInt` once more.
    pure (parseIntNumber h)
  else parseInt10 chunk

variable {Node : Type}

def deriveChunk (lib : HDLib Node) (key : Node) (chunk : Str) : Except JsError Node :=
  if chunk = [] then .ok key else lib.derive key (chunkIndex chunk)

/-- `keyPath || (!!hdKey.keyPair.d ? "m" : "M")`. -/
def ownPath (lib : HDLib Node) (hdKey : Node) (keyPath : Str) : Str :=
  if keyPath = [] then (if lib.isNeutered hdKey then "M" else "m") else keyPath

/-- `Wallet.deriveByPath(hdKey, path, keyPath)`. No letter but these two has the lower case `m`. -/
def deriveByPath (lib : HDLib Node) (hdKey : Node) (path keyPath : Str) : Except JsError Node :=
  let keyPath := ownPath lib hdKey keyPath
  match path.head?, keyPath.head? with
  | some p, some k =>
    if p.toLower ≠ 'm' ∨ k.toLower ≠ 'm' then
      .error ⟨"KeyPathError",
        "Wallet.deriveByPath only works with absolute paths. (" ++ path ++ ", " ++ keyPath ++ ")"⟩
    else if p = 'm' ∧ k = 'M' then
      .error ⟨"KeyPathError",
        "Wallet.deriveByPath can't derive private path from public parent. (" ++ path ++ ", " ++ keyPath ++ ")"⟩
    else if ¬(lib.lowerCase.toLowerCase keyPath).isPrefixOf (lib.lowerCase.toLowerCase path) then
      .error ⟨"KeyPathError",
        "Wallet.derivePath requires path (" ++ path ++ ") to be a child of keyPath (" ++ keyPath ++ ")"⟩
    else do
      -- `path[0] = "m"` has no effect on a string.
      let toPublic := p = 'M' ∧ k = 'm'
      let rest := substr16 (length16 keyPath) path
      let rest := if rest.head? = some '/' then rest.tail else rest
      let newKey ← (rest.splitOn '/').foldlM (deriveChunk lib) hdKey
      pure (if toPublic then lib.neutered newKey else newKey)
  | _, _ => .error ⟨"TypeError", "Cannot read property 'toLowerCase' of undefined"⟩

/-! ## Wallet paths -/

theorem not_mem_walletPath {c : Char} (hd : c.isDigit = false) (hM : c ≠ 'M') (hs : c ≠ '/')
    (ha : c ≠ apostrophe) (k ch i : Nat) : c ∉ walletPath k ch i := by
  have h1 := not_mem_dec hd k
  have h2 := not_mem_dec hd ch
  have h3 := not_mem_dec hd i
  simp [walletPath, h1, h2, h3, hM, hs, ha]

theorem slash_not_mem_dec (n : Nat) : '/' ∉ dec n := not_mem_dec (by decide) n

theorem apostrophe_not_mem_dec (n : Nat) : apostrophe ∉ dec n := not_mem_dec (by decide) n

@[simp] theorem replaceFirst_m_walletPath (k c i : Nat) :
    replaceFirst 'm' "M".toList (walletPath k c i) = walletPath k c i :=
  replaceFirst_of_not_mem (not_mem_walletPath (by decide) (by decide) (by decide) (by decide) k c i)

theorem splitOn_walletPath (k c i : Nat) :
    (walletPath k c i).splitOn '/' = ["M".toList, dec k ++ [apostrophe], dec c, dec i] := by
  have hk : '/' ∉ dec k ++ [apostrophe] := by
    simp only [List.mem_append, List.mem_singleton, not_or]
    exact ⟨slash_not_mem_dec k, by decide⟩
  have he : walletPath k c i =
      "M".toList ++ '/' :: ((dec k ++ [apostrophe]) ++ '/' :: (dec c ++ '/' :: dec i)) := by
    simp [walletPath]
  rw [he, List.splitOn_append_cons_self_of_not_mem (by decide), List.splitOn_append_cons_self_of_not_mem hk,
    List.splitOn_append_cons_self_of_not_mem (slash_not_mem_dec c),
    List.splitOn_eq_singleton (slash_not_mem_dec i)]

/-- `path.split("/")[1].replace("'", "")`, the key index as text. -/
theorem replaceFirst_apostrophe_dec (k : Nat) : replaceFirst apostrophe [] (dec k ++ [apostrophe]) = dec k := by
  rw [replaceFirst_append (apostrophe_not_mem_dec k)]
  simp

/-- `path.replace("'", "")`. -/
theorem replaceFirst_apostrophe_walletPath (k c i : Nat) :
    replaceFirst apostrophe [] (walletPath k c i) =
      "M/".toList ++ (dec k ++ '/' :: (dec c ++ '/' :: dec i)) := by
  have he : walletPath k c i =
      ("M/".toList ++ dec k) ++ apostrophe :: ('/' :: (dec c ++ '/' :: dec i)) := by
    simp [walletPath]
  rw [he, replaceFirst_append]
  · simp
  · simp only [List.mem_append, not_or]
    exact ⟨by decide, apostrophe_not_mem_dec k⟩

theorem toList_m : "m".toList = ['m'] := rfl
theorem toList_M : "M".toList = ['M'] := rfl
theorem toList_M_slash : "M/".toList = ['M', '/'] := rfl

/-! ## Deriving -/

theorem toLower_eq_m {c : Char} (h : c.toLower = 'm') : c = 'm' ∨ c = 'M' := by
  unfold Char.toLower at h
  split at h
  · next hc =>
    have hval : c.val + 32 = 109 := congrArg Char.val h
    have hval : c.val = 77 := by
      rw [← UInt32.add_sub_cancel c.val 32, hval]
      rfl
    exact Or.inr (Char.ext hval)
  · exact Or.inl h

theorem toLowerCase_root (lowerCase : LowerCase) {p k : Char} (hp : p.toLower = 'm') (hk : k.toLower = 'm') (t : Str) :
    lowerCase.toLowerCase (p :: t) = lowerCase.toLowerCase (k :: t) := by
  rcases toLower_eq_m hp with rfl | rfl <;> rcases toLower_eq_m hk with rfl | rfl <;> simp [lowerCase.root]

theorem substr16_root {p k : Char} (hp : p.toLower = 'm') (hk : k.toLower = 'm') (t u : Str) :
    substr16 (length16 (k :: t)) (p :: (t ++ u)) = u := by
  have hlength : length16 (k :: t) = length16 t + 1 := by
    rcases toLower_eq_m hk with rfl | rfl <;> exact Nat.add_comm 1 (length16 t)
  rw [hlength]
  rcases toLower_eq_m hp with rfl | rfl <;> exact substr16_append t u

theorem deriveByPath_eq (lib : HDLib Node) (key : Node) {p k : Char} (hp : p.toLower = 'm')
    (hk : k.toLower = 'm') (h : ¬(p = 'm' ∧ k = 'M')) (t rest : Str) :
    deriveByPath lib key (p :: (t ++ '/' :: rest)) (k :: t) =
      (rest.splitOn '/').foldlM (deriveChunk lib) key >>= fun n =>
        pure (if p = 'M' ∧ k = 'm' then lib.neutered n else n) := by
  have hpre : (lib.lowerCase.toLowerCase (k :: t)).isPrefixOf
      (lib.lowerCase.toLowerCase (p :: (t ++ '/' :: rest))) = true := by
    rw [List.isPrefixOf_iff_prefix, ← List.cons_append, lib.lowerCase.slash, toLowerCase_root lib.lowerCase hp hk]
    exact List.prefix_append _ _
  have hown : ownPath lib key (k :: t) = k :: t := if_neg (List.cons_ne_nil k t)
  simp only [deriveByPath, hown, List.head?_cons]
  rw [if_neg (by simp [hp, hk]), if_neg h, if_neg (by simp [hpre]), substr16_root hp hk]
  simp

@[simp] theorem deriveChunk_dec (lib : HDLib Node) (key : Node) (n : Nat) :
    deriveChunk lib key (dec n) = lib.derive key (some n) := by
  rw [deriveChunk, if_neg (dec_ne_nil n), chunkIndex, if_neg (apostrophe_not_mem_dec n), parseInt10_dec]

/-- The chain and the index below an account key. -/
def deriveChain (lib : HDLib Node) (key : Node) (c i : Nat) : Except JsError Node :=
  lib.derive key (some c) >>= fun m => lib.derive m (some i)

theorem splitOn_chain (c i : Nat) : (dec c ++ '/' :: dec i).splitOn '/' = [dec c, dec i] := by
  rw [List.splitOn_append_cons_self_of_not_mem (slash_not_mem_dec c),
    List.splitOn_eq_singleton (slash_not_mem_dec i)]

theorem deriveByPath_walletPath (lib : HDLib Node) (key : Node) (k c i : Nat) :
    deriveByPath lib key (walletPath k c i) (accountPath k) = deriveChain lib key c i := by
  have h := deriveByPath_eq lib key (p := 'M') (k := 'M') (by decide) (by decide) (by decide)
    ('/' :: (dec k ++ [apostrophe])) (dec c ++ '/' :: dec i)
  have hpath : 'M' :: ('/' :: (dec k ++ [apostrophe]) ++ '/' :: (dec c ++ '/' :: dec i)) =
      walletPath k c i := by simp [walletPath]
  rw [hpath] at h
  rw [accountPath, toList_M_slash, splitOn_chain] at *
  exact h.trans (by simp [deriveChain])

theorem deriveByPath_accountPath (lib : HDLib Node) (root : Node) (k : Nat) :
    deriveByPath lib root (accountPath k) "m" =
      lib.neutered <$> deriveChunk lib root (dec k ++ [apostrophe]) := by
  have h := deriveByPath_eq lib root (p := 'M') (k := 'm') (by decide) (by decide) (by decide)
    [] (dec k ++ [apostrophe])
  have hk : '/' ∉ dec k ++ [apostrophe] := by
    simp only [List.mem_append, List.mem_singleton, not_or]
    exact ⟨slash_not_mem_dec k, by decide⟩
  rw [List.splitOn_eq_singleton hk] at h
  rw [accountPath, toList_m, toList_M_slash]
  exact h.trans (by simp)

theorem deriveByPath_root (lib : HDLib Node) (root : Node) (k c i : Nat) :
    deriveByPath lib root (walletPath k c i) "m" =
      lib.neutered <$> (deriveChunk lib root (dec k ++ [apostrophe]) >>= fun a => deriveChain lib a c i) := by
  have h := deriveByPath_eq lib root (p := 'M') (k := 'm') (by decide) (by decide) (by decide)
    [] ((dec k ++ [apostrophe]) ++ '/' :: (dec c ++ '/' :: dec i))
  have hk : '/' ∉ dec k ++ [apostrophe] := by
    simp only [List.mem_append, List.mem_singleton, not_or]
    exact ⟨slash_not_mem_dec k, by decide⟩
  rw [List.splitOn_append_cons_self_of_not_mem hk, splitOn_chain] at h
  have hpath : 'M' :: ([] ++ '/' :: ((dec k ++ [apostrophe]) ++ '/' :: (dec c ++ '/' :: dec i))) =
      walletPath k c i := by simp [walletPath]
  rw [hpath] at h
  rw [toList_m]
  exact h.trans (by simp [deriveChain])

theorem deriveByPath_backup (lib : HDLib Node) (key : Node) (k c i : Nat) :
    deriveByPath lib key (replaceFirst apostrophe [] (walletPath k c i)) "M" =
      lib.derive key (some k) >>= fun a => deriveChain lib a c i := by
  have h := deriveByPath_eq lib key (p := 'M') (k := 'M') (by decide) (by decide) (by decide)
    [] (dec k ++ '/' :: (dec c ++ '/' :: dec i))
  rw [List.splitOn_append_cons_self_of_not_mem (slash_not_mem_dec k), splitOn_chain] at h
  rw [replaceFirst_apostrophe_walletPath]
  rw [toList_M, toList_M_slash]
  exact h.trans (by simp [deriveChain])

/-! ## Which paths a key has -/

theorem deriveChain_public (lib : HDLib Node) (h : lib.Lawful) (n : Node) (hn : lib.isNeutered n) (c i : Nat) :
    (deriveChain lib n c i).toOption =
      if c < HIGHEST_BIT ∧ i < HIGHEST_BIT then some (lib.child (lib.child n c) i) else none := by
  have hc : lib.isNeutered (lib.child n c) := by rw [h.isNeutered_child]; exact hn
  rw [deriveChain, toOption_bind, lib.derive_public n hn]
  by_cases h1 : c < HIGHEST_BIT
  · rw [if_pos h1, Option.bind_some, lib.derive_public _ hc]
    simp [h1]
  · simp [h1]

theorem deriveChain_lt (lib : HDLib Node) (n : Node) {c i : Nat} (hc : c < HIGHEST_BIT) (hi : i < HIGHEST_BIT) :
    deriveChain lib n c i = .ok (lib.child (lib.child n c) i) := by
  rw [deriveChain, lib.derive_lt n hc]
  exact lib.derive_lt _ hi

theorem child_child_neutered {lib : HDLib Node} (h : lib.Lawful) (n : Node) {c i : Nat} (hc : c < HIGHEST_BIT)
    (hi : i < HIGHEST_BIT) :
    lib.child (lib.child (lib.neutered n) c) i = lib.neutered (lib.child (lib.child n c) i) := by
  rw [h.child_neutered _ _ hc, h.child_neutered _ _ hi]

theorem chunkIndex_hardened_of {s : Str} {k : Nat} (hs : apostrophe ∉ s) (hp : parseInt10 s = some (k : Int))
    (h : k < HIGHEST_BIT) : chunkIndex (s ++ [apostrophe]) = some ((k + HIGHEST_BIT : Nat) : Int) := by
  have hk : k < 2 ^ 53 := Nat.lt_trans h (by decide)
  have hsum : k + HIGHEST_BIT < 2 ^ 53 :=
    Nat.lt_of_lt_of_le (Nat.add_lt_add_right h _) (by decide : HIGHEST_BIT + HIGHEST_BIT ≤ 2 ^ 53)
  have hcast : ((k : Int) + (HIGHEST_BIT : Int)) = ((k + HIGHEST_BIT : Nat) : Int) := by simp
  have hreplace : replaceFirst apostrophe [] (s ++ [apostrophe]) = s := by
    rw [replaceFirst_append hs]
    simp
  rw [chunkIndex, if_pos (by simp), hreplace, hp]
  show (double (k : Int)).bind _ = _
  rw [double_of_lt hk, Option.bind_some]
  show (double ((k : Int) + (HIGHEST_BIT : Int))).bind _ = _
  rw [hcast, double_of_lt hsum, Option.bind_some]
  have h21 : (((k + HIGHEST_BIT : Nat) : Int)).natAbs < 10 ^ 21 := by
    rw [Int.natAbs_natCast]
    exact Nat.lt_trans hsum (by decide)
  show some (parseIntNumber ((k + HIGHEST_BIT : Nat) : Int)) = _
  rw [parseIntNumber, if_pos h21]

theorem chunkIndex_hardened {k : Nat} (h : k < HIGHEST_BIT) :
    chunkIndex (dec k ++ [apostrophe]) = some ((k + HIGHEST_BIT : Nat) : Int) :=
  chunkIndex_hardened_of (apostrophe_not_mem_dec k) (parseInt10_dec k) h

theorem deriveChunk_hardened (lib : HDLib Node) {root : Node} (hr : lib.isNeutered root = false) {k : Nat}
    (h : k < HIGHEST_BIT) :
    deriveChunk lib root (dec k ++ [apostrophe]) = .ok (lib.child root (k + HIGHEST_BIT)) := by
  have h32 : k + HIGHEST_BIT < 2 ^ 32 :=
    Nat.lt_of_lt_of_le (Nat.add_lt_add_right h _) (by decide : HIGHEST_BIT + HIGHEST_BIT ≤ 2 ^ 32)
  rw [deriveChunk, if_neg (by simp), chunkIndex_hardened h, lib.derive_private hr h32]

theorem backup_toOption (lib : HDLib Node) (hl : lib.Lawful) {backup : Node} (hb : lib.isNeutered backup = true)
    (k c i : Nat) :
    (lib.derive backup (some k) >>= fun b => deriveChain lib b c i).toOption =
      if k < HIGHEST_BIT ∧ c < HIGHEST_BIT ∧ i < HIGHEST_BIT then
        some (lib.child (lib.child (lib.child backup k) c) i) else none := by
  have hn : lib.isNeutered (lib.child backup k) = true := by rw [hl.isNeutered_child]; exact hb
  rw [toOption_bind, lib.derive_public backup hb]
  by_cases hk : k < HIGHEST_BIT
  · rw [if_pos hk, Option.bind_some, deriveChain_public lib hl _ hn]
    simp [hk]
  · simp [hk]

/-! ## `HDNode.prototype.derivePath` -/

/-- The child that one part of a path names. -/
def derivePart (lib : HDLib Node) (prevHd : Node) (indexStr : Str) : Except JsError Node :=
  if indexStr.getLast? = some apostrophe then
    match parseInt10 indexStr.dropLast with
    | some (Int.ofNat i) => lib.deriveHardened prevHd i
    | _ => .error ⟨"TfTypeError", "Expected UInt31"⟩
  else lib.derive prevHd (parseInt10 indexStr)

/-- For a master key, which has no parent. -/
def derivePath (lib : HDLib Node) (root : Node) (path : Str) : Except JsError Node :=
  let splitPath := path.splitOn '/'
  (if splitPath.head? = some "m".toList then splitPath.tail else splitPath).foldlM (derivePart lib) root

theorem derivePart_hardened (lib : HDLib Node) {key : Node} (hk : lib.isNeutered key = false) (k : Nat) :
    derivePart lib key (dec k ++ [apostrophe]) =
      if k < HIGHEST_BIT then .ok (lib.child key (k + HIGHEST_BIT)) else .error ⟨"TfTypeError", "Expected UInt31"⟩ := by
  rw [derivePart, if_pos List.getLast?_concat, List.dropLast_concat, parseInt10_dec]
  show lib.deriveHardened key k = _
  unfold HDLib.deriveHardened
  by_cases h : k < HIGHEST_BIT
  · have h32 : k + HIGHEST_BIT < 2 ^ 32 :=
      Nat.lt_of_lt_of_le (Nat.add_lt_add_right h _) (by decide : HIGHEST_BIT + HIGHEST_BIT ≤ 2 ^ 32)
    rw [if_pos h, if_pos h, lib.derive_private hk h32]
  · rw [if_neg h, if_neg h]

theorem derivePart_dec (lib : HDLib Node) (key : Node) {i : Nat} (h : i < HIGHEST_BIT) :
    derivePart lib key (dec i) = .ok (lib.child key i) := by
  have hlast : (dec i).getLast? ≠ some apostrophe :=
    fun hmem => apostrophe_not_mem_dec i (List.mem_of_getLast? hmem)
  rw [derivePart, if_neg hlast, parseInt10_dec]
  exact lib.derive_lt key h

/-! ## The keys of a path -/

/-- The three keys of a path whose indexes are below `2^31`: of the account, the backup key and the Blocktrail
key. -/
def pathKeys (hd : HDLib Node) (account backup blocktrail : Node) (k c i : Nat) : List PubKey :=
  [hd.getPublicKeyBuffer (hd.child (hd.child account c) i),
    hd.getPublicKeyBuffer (hd.child (hd.child (hd.child backup k) c) i),
    hd.getPublicKeyBuffer (hd.child (hd.child blocktrail c) i)]

theorem pathKeys_neutered {hd : HDLib Node} (hl : hd.Lawful) (account backup blocktrail : Node) (k : Nat) {c i : Nat}
    (hc : c < HIGHEST_BIT) (hi : i < HIGHEST_BIT) :
    pathKeys hd (hd.neutered account) backup blocktrail k c i = pathKeys hd account backup blocktrail k c i := by
  rw [pathKeys, pathKeys, child_child_neutered hl _ hc hi, hl.getPublicKeyBuffer_neutered]

end Bitcoin
