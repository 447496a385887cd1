import Blocktrail.HttpSignatures.Verification

/-! # A context verifies what it signs

It does where the id of its key has no comma and no newline. Nothing that the parser reads has either, so that any other
id is not found again.
-/

open Text Php Throwing

namespace HttpSignatures

/-! ## Letters of the parameters -/

theorem toLower_toLower (c : Char) : c.toLower.toLower = c.toLower := by
  generalize hd : c.toLower = d
  unfold Char.toLower
  split
  · next h =>
    exfalso
    have hlow : 65 ≤ d.val.toNat := UInt32.le_iff_toNat_le.mp h.1
    have hhigh : d.val.toNat ≤ 90 := UInt32.le_iff_toNat_le.mp h.2
    have hlt : d.toNat < 97 := Nat.lt_of_le_of_lt hhigh (by decide)
    obtain rfl := eq_of_toLower hlt hd
    have hval : c.val + 32 = c.val := by
      conv_rhs => rw [← hd]
      unfold Char.toLower
      rw [dif_pos h]
      rfl
    have hnat : (c.val.toNat + 32) % 2 ^ 32 = c.val.toNat := congrArg UInt32.toNat hval
    omega
  · rfl

theorem strtolower_strtolower (s : Str) : strtolower (strtolower s) = strtolower s := by
  unfold strtolower
  rw [List.map_map]
  exact List.map_congr_left fun c _ => toLower_toLower c

theorem map_strtolower_ofNames (names : List Str) :
    (HeaderList.ofNames names).names.map strtolower = (HeaderList.ofNames names).names := by
  simp [HeaderList.ofNames, strtolower_strtolower]

theorem digit_plain : ∀ v < 64, Base64.digit v ≠ ',' ∧ Base64.digit v ≠ '\n' := by decide

theorem base64_plain (b : List UInt8) : '\n' ∉ Base64.encode b ∧ ',' ∉ Base64.encode b := by
  have hmem : ∀ c ∈ Base64.encode b, c ≠ ',' ∧ c ≠ '\n' := by
    intro c hc
    rcases List.mem_append.mp hc with hc | hc
    · obtain ⟨v, hv, rfl⟩ := List.mem_map.mp hc
      exact digit_plain v (Base64.sextets_lt b v hv)
    · rw [List.eq_of_mem_replicate hc]
      decide
  exact ⟨fun h => (hmem _ h).2 rfl, fun h => (hmem _ h).1 rfl⟩

theorem fromString_string {names : List Str} (hne : names ≠ []) (hblank : ∀ name ∈ names, ' ' ∉ name) :
    HeaderList.fromString (HeaderList.ofNames names).string = HeaderList.ofNames names := by
  have hsplit : ((HeaderList.ofNames names).string).splitOn ' ' = (HeaderList.ofNames names).names := by
    rw [HeaderList.string, implode_eq]
    refine List.splitOn_intercalate ' ' (fun l hl => ?_) (by simpa [HeaderList.ofNames] using hne)
    obtain ⟨name, hname, rfl⟩ := List.mem_map.mp hl
    exact not_mem_strtolower (by decide) (hblank name hname)
  rw [HeaderList.fromString, hsplit, HeaderList.ofNames, map_strtolower_ofNames]

theorem not_mem_implode {c sep : Char} (hsep : c ≠ sep) {xs : List Str} (h : ∀ x ∈ xs, c ∉ x) : c ∉ implode sep xs := by
  cases xs with
  | nil => exact List.not_mem_nil
  | cons x xs =>
    rw [List.forall_mem_cons] at h
    simp only [implode, List.mem_append, List.mem_flatMap, List.mem_cons, not_or, not_exists, not_and]
    exact ⟨h.1, fun y hy => ⟨hsep, h.2 y hy⟩⟩

theorem not_mem_string {names : List Str} {c : Char} (hc : c.toNat < 97) (hne : c ≠ ' ')
    (h : ∀ name ∈ names, c ∉ name) : c ∉ (HeaderList.ofNames names).string := by
  refine not_mem_implode hne fun x hx => ?_
  obtain ⟨name, hname, rfl⟩ := List.mem_map.mp hx
  exact not_mem_strtolower hc (h name hname)

/-! ## What a context signs with -/

/-- The arguments of a context that has one key and signs with it. -/
structure ContextArgs.OneKey (args : ContextArgs) (id secret : Str) : Prop where
  keys : ∃ keys, args.keys = some keys ∧ keys.entries = [(id, secret)]
  keyStore : args.keyStore = none
  signingKeyId : args.signingKeyId = none

theorem fetch_one {keys : Assoc.Object Str Str} {id secret : Str} (h : keys.entries = [(id, secret)]) (x : Str) :
    (KeyStore.ofKeys keys).fetch x =
      if x = id then .ok ⟨id, secret⟩ else .error (.keyStore ("Key '".toList ++ x ++ "' not found".toList)) := by
  unfold KeyStore.fetch KeyStore.ofKeys
  rw [h, List.foldl_cons, List.foldl_nil]
  dsimp only
  rw [Assoc.Object.get?_set]
  by_cases hx : x = id
  · rw [if_pos hx, if_pos hx]
  · rw [if_neg hx, if_neg hx, Assoc.Object.get?_empty]

theorem signer_ok {args : ContextArgs} {c : Context} {s : Signer} {id secret : Str} (hone : args.OneKey id secret)
    (hc : Context.ofArgs args = .ok c) (hs : c.signer = .ok s) :
    (∃ keys, keys.entries = [(id, secret)] ∧ c.keyStore = (KeyStore.ofKeys keys).fetch) ∧ s.key = ⟨id, secret⟩ ∧
      createAlgorithm s.algorithm.name = .ok s.algorithm ∧ s.headerList = .ofNames args.headers := by
  obtain ⟨keys, hkeys, hentries⟩ := hone.keys
  unfold Context.ofArgs at hc
  rw [hkeys, hone.keyStore] at hc
  obtain rfl := Except.ok.inj hc
  obtain ⟨key, hkey, hs⟩ := exists_of_bind_ok hs
  obtain ⟨algorithm, halgorithm, hs⟩ := exists_of_bind_ok hs
  obtain rfl := Except.ok.inj hs
  refine ⟨⟨keys, hentries, rfl⟩, ?_, ?_, rfl⟩
  · obtain ⟨entries, hnodup⟩ := keys
    obtain rfl : entries = [(id, secret)] := hentries
    rw [Context.signingKey, hone.signingKeyId] at hkey
    change (KeyStore.ofKeys _).fetch id = .ok key at hkey
    rw [fetch_one rfl, if_pos rfl] at hkey
    exact (Except.ok.inj hkey).symm
  · unfold createAlgorithm at halgorithm
    split_ifs at halgorithm
    · obtain rfl := Except.ok.inj halgorithm
      rfl
    · obtain rfl := Except.ok.inj halgorithm
      rfl

/-! ## The signed message -/

def signedPairs (s : Signer) (signature : List UInt8) : List (Str × Str) :=
  [("keyId".toList, s.key.id), ("algorithm".toList, s.algorithm.name), ("headers".toList, s.headerList.string),
    ("signature".toList, Base64.encode signature)]

theorem parameterComponents_eq (s : Signer) (signature : List UInt8) :
    parameterComponents s signature = (signedPairs s signature).map segment := by
  have hkey : "keyId=\"".toList = "keyId".toList ++ ['=', '"'] := by decide +kernel
  have halgorithm : "algorithm=\"".toList = "algorithm".toList ++ ['=', '"'] := by decide +kernel
  have hheaders : "headers=\"".toList = "headers".toList ++ ['=', '"'] := by decide +kernel
  have hsignature : "signature=\"".toList = "signature".toList ++ ['=', '"'] := by decide +kernel
  unfold parameterComponents signedPairs
  rw [hkey, halgorithm, hheaders, hsignature]
  simp only [List.map_cons, List.map_nil, segment, List.append_assoc, List.cons_append, List.nil_append]

theorem sign_ok {hash : HashHmac} {s : Signer} {m m' : Message} (h : s.sign hash m = .ok m') :
    ∃ text authorization, signingString s.headerList m = .ok text ∧
      m' = (m.setHeader "Signature".toList (implode ',' ((signedPairs s
        (s.algorithm.sign hash s.key.secret text)).map segment))).setHeader "Authorization".toList authorization := by
  obtain ⟨p, hp, h⟩ := exists_of_bind_ok h
  obtain ⟨p', -, h⟩ := exists_of_bind_ok h
  obtain ⟨signed, hsigned, hp⟩ := exists_of_bind_ok hp
  obtain ⟨text, htext, hsigned⟩ := exists_of_bind_ok hsigned
  obtain rfl := Except.ok.inj h
  obtain rfl := Except.ok.inj hp
  obtain rfl := Except.ok.inj hsigned
  exact ⟨text, _, htext, by rw [parameterComponents_eq]⟩

theorem strtolower_signature : strtolower "Signature".toList = "signature".toList := by decide +kernel

theorem strtolower_authorization : strtolower "Authorization".toList = "authorization".toList := by decide +kernel

theorem header_setHeader (m : Message) (name value x : Str) :
    (m.setHeader name value).header x = if strtolower x = strtolower name then some value else m.header x :=
  Assoc.Object.get?_set m.headers (strtolower name) (strtolower x) value

theorem covered_signed {names : List Str}
    (hfree : ∀ name ∈ names, strtolower name ≠ "signature".toList ∧ strtolower name ≠ "authorization".toList)
    (m : Message) (p a : Str) {name : Str} (h : name ∈ (HeaderList.ofNames names).names) :
    covered ((m.setHeader "Signature".toList p).setHeader "Authorization".toList a) name = covered m name := by
  obtain ⟨x, hx, rfl⟩ := List.mem_map.mp h
  unfold covered
  split_ifs
  · rfl
  · rw [header_setHeader, header_setHeader, strtolower_signature, strtolower_authorization, strtolower_strtolower,
      if_neg (hfree x hx).2, if_neg (hfree x hx).1]

/-- The verifier takes the parameters from the first of them. -/
theorem signatureHeader_signed (m : Message) (s : Signer) (signed : List UInt8) (a : Str) :
    signatureHeader ((m.setHeader "Signature".toList (implode ',' ((signedPairs s signed).map segment))).setHeader
      "Authorization".toList a) = .ok (implode ',' ((signedPairs s signed).map segment)) := by
  have hne : "signature".toList ≠ "authorization".toList := by decide +kernel
  unfold signatureHeader truthyHeader
  rw [header_setHeader, header_setHeader, strtolower_signature, strtolower_authorization, if_neg hne, if_pos rfl,
    Option.filter_some]
  rfl

/-! ## What is read of it -/

theorem mapM_pair_error {ss : List Str} {e : Error} (h : ss.mapM pair = .error e) : ∃ message, e = .signatureParse message := by
  induction ss with
  | nil => cases h
  | cons s ss ih =>
    rw [List.mapM_cons] at h
    rcases error_of_bind h with h | ⟨p, -, h⟩
    · unfold pair at h
      split at h
      · cases h
      · exact ⟨_, (Except.error.inj h).symm⟩
    · rcases error_of_bind h with h | ⟨ps, -, h⟩
      · exact ih h
      · cases h

theorem parse_error {input : Str} {e : Error} (h : parse input = .error e) : ∃ message, e = .signatureParse message := by
  rcases error_of_bind h with h | ⟨ps, -, h⟩
  · exact mapM_pair_error h
  · rcases error_of_bind h with h | ⟨u, -, h⟩
    · unfold validateAllKeysArePresent at h
      split at h
      · cases h
      · exact ⟨_, (Except.error.inj h).symm⟩
    · cases h

theorem parameter_eq {m : Message} {header : Str} (h : signatureHeader m = .ok header) {o : Assoc.Object Str Str}
    (ho : parse header = .ok o) {name value : Str} (hv : o.get? name = some value) : parameter m name = .ok value := by
  rw [parameter, h, ok_bind, ho, ok_bind, hv]
  rfl

theorem exists_value {header : Str} {o : Assoc.Object Str Str} (ho : parse header = .ok o) {name : Str}
    (hname : name ∈ parameterNames) : ∃ value, o.get? name = some value := by
  obtain ⟨ps, -, -, hnames, rfl⟩ := parse_ok_iff.mp ho
  exact Assoc.Object.exists_get? _ (mem_keys_pairs.mpr (hnames name hname))

theorem isValid_false {hash : HashHmac} {fetch : KeyStoreInterface} {m : Message} {header : Str}
    (h : signatureHeader m = .ok header)
    (hfetch : ∀ id, parameter m "keyId".toList = .ok id → ∃ message, fetch id = .error (.keyStore message)) :
    isValid hash fetch m = .ok false := by
  have hmatches : signatureMatches hash fetch m = .ok false := by
    rcases ho : parse header with e | o
    · obtain ⟨message, rfl⟩ := parse_error ho
      have hkey : parameter m "keyId".toList = .error (.signatureParse message) := by
        rw [parameter, h, ok_bind, ho]
        rfl
      rw [signatureMatches, expectedSignature, hkey]
      rfl
    · obtain ⟨id, hid⟩ := exists_value ho (List.mem_cons_self : "keyId".toList ∈ parameterNames)
      have hkey := parameter_eq h ho hid
      obtain ⟨message, herr⟩ := hfetch id hkey
      rw [signatureMatches, expectedSignature, hkey, ok_bind, herr]
      rfl
  unfold isValid
  split_ifs
  · exact hmatches
  · rfl

theorem signedPairs_nodup (s : Signer) (signed : List UInt8) : (Assoc.keys (signedPairs s signed)).Nodup := by
  change ["keyId".toList, "algorithm".toList, "headers".toList, "signature".toList].Nodup
  decide +kernel

theorem algorithm_plain {a : HmacAlgorithm} (h : createAlgorithm a.name = .ok a) : '\n' ∉ a.name ∧ ',' ∉ a.name := by
  have hsha1 : '\n' ∉ "hmac-sha1".toList ∧ ',' ∉ "hmac-sha1".toList := by decide +kernel
  have hsha256 : '\n' ∉ "hmac-sha256".toList ∧ ',' ∉ "hmac-sha256".toList := by decide +kernel
  unfold createAlgorithm at h
  split_ifs at h with h1 h256
  · exact h1 ▸ hsha1
  · exact h256 ▸ hsha256

theorem parse_signedPairs {s : Signer} (signed : List UInt8) (hid : '\n' ∉ s.key.id ∧ ',' ∉ s.key.id)
    (halgorithm : '\n' ∉ s.algorithm.name ∧ ',' ∉ s.algorithm.name)
    (hlist : '\n' ∉ s.headerList.string ∧ ',' ∉ s.headerList.string) :
    parse (implode ',' ((signedPairs s signed).map segment)) = .ok (pairsToAssociative (signedPairs s signed)) := by
  refine parse_ok_iff.mpr ⟨signedPairs s signed, rfl, ?_, fun name hname => hname, rfl⟩
  intro p hp
  refine ⟨List.mem_map_of_mem (f := Prod.fst) hp, ?_⟩
  simp only [signedPairs, List.mem_cons, List.not_mem_nil, or_false] at hp
  rcases hp with rfl | rfl | rfl | rfl
  · exact hid
  · exact halgorithm
  · exact hlist
  · exact base64_plain signed

/-- **A context verifies what it signs** exactly where the id of its key has no comma and no newline. -/
theorem isValid_sign (hash : HashHmac) {args : ContextArgs} {c : Context} {s : Signer} {m m' : Message} {id secret : Str}
    (hone : args.OneKey id secret) (hc : Context.ofArgs args = .ok c) (hs : c.signer = .ok s) (hne : args.headers ≠ [])
    (hnames : ∀ name ∈ args.headers, ' ' ∉ name ∧ '\n' ∉ name ∧ ',' ∉ name)
    (hfree : ∀ name ∈ args.headers, strtolower name ≠ "signature".toList ∧ strtolower name ≠ "authorization".toList)
    (hsign : s.sign hash m = .ok m') : c.isValid hash m' = .ok (decide ('\n' ∉ id ∧ ',' ∉ id)) := by
  obtain ⟨⟨keys, hentries, hstore⟩, hkey, halgorithm, hlist⟩ := signer_ok hone hc hs
  obtain ⟨text, a, htext, rfl⟩ := sign_ok hsign
  have hheader := signatureHeader_signed m s (s.algorithm.sign hash s.key.secret text) a
  have hid : s.key.id = id := by rw [hkey]
  rw [Context.isValid, hstore]
  by_cases hplain : '\n' ∉ id ∧ ',' ∉ id
  · rw [decide_eq_true hplain]
    have hparse := parse_signedPairs (s.algorithm.sign hash s.key.secret text) (hid ▸ hplain)
      (algorithm_plain halgorithm) (by
        rw [hlist]
        exact ⟨not_mem_string (by decide) (by decide) fun name hname => (hnames name hname).2.1,
          not_mem_string (by decide) (by decide) fun name hname => (hnames name hname).2.2⟩)
    have hread : ∀ {k v : Str}, (k, v) ∈ signedPairs s (s.algorithm.sign hash s.key.secret text) → _ :=
      fun hmem => parameter_eq hheader hparse (get?_pairs_of_mem (signedPairs_nodup s _) hmem)
    refine isValid_iff.mpr ⟨s.key, s.algorithm, s.headerList, text, ⟨id, ?_, ?_⟩, ⟨s.algorithm.name, ?_, halgorithm⟩,
      ⟨s.headerList.string, ?_, ?_⟩, ?_, ?_⟩
    · exact hread (by simp [signedPairs, hid])
    · rw [fetch_one hentries, if_pos rfl, hkey]
    · exact hread (by simp [signedPairs])
    · exact hread (by simp [signedPairs])
    · rw [hlist, fromString_string hne fun name hname => (hnames name hname).1]
    · rw [← htext, hlist]
      exact signingString_congr fun name hname => covered_signed hfree m _ a hname
    · exact hread (by simp [signedPairs])
  · rw [decide_eq_false hplain]
    refine isValid_false hheader fun x hx => ?_
    have hother : x ≠ id := by
      rintro rfl
      exact hplain (parameter_plain hx)
    rw [fetch_one hentries, if_neg hother]
    exact ⟨_, rfl⟩

def clientRequest : Message := (sampleRequest.setHeader "Date".toList "today".toList).setHeader "Content-MD5".toList "b64".toList

def clientSigner (id : Str) : Signer := ⟨⟨id, "secret".toList⟩, ⟨"sha256".toList⟩, .ofNames (clientArgs [] []).headers⟩

theorem clientSigner_eq {id : Str} {c : Context} (hc : Context.ofArgs (clientArgs id "secret".toList) = .ok c) :
    c.signer = .ok (clientSigner id) := by
  obtain rfl := Except.ok.inj hc
  rw [Context.signer, Context.signingKey]
  change ((KeyStore.ofKeys _).fetch id >>= _) = _
  rw [fetch_one rfl, if_pos rfl]
  rfl

/-- The requests of a client are verified, but for those of a key with a comma. -/
theorem isValid_sign_client :
    (∃ c s m', Context.ofArgs (clientArgs "pda".toList "secret".toList) = .ok c ∧ c.signer = .ok s ∧
      s.sign spelledHash clientRequest = .ok m' ∧ c.isValid spelledHash m' = .ok true) ∧
    ∃ c s m', Context.ofArgs (clientArgs "p,a".toList "secret".toList) = .ok c ∧ c.signer = .ok s ∧
      s.sign spelledHash clientRequest = .ok m' ∧ c.isValid spelledHash m' = .ok false := by
  have hnames : ∀ name ∈ (clientArgs [] []).headers, ' ' ∉ name ∧ '\n' ∉ name ∧ ',' ∉ name := by decide +kernel
  have hfree : ∀ name ∈ (clientArgs [] []).headers,
      strtolower name ≠ "signature".toList ∧ strtolower name ≠ "authorization".toList := by decide +kernel
  have hsigns : ∀ id : Str, ∃ c s m', Context.ofArgs (clientArgs id "secret".toList) = .ok c ∧ c.signer = .ok s ∧
      s.sign spelledHash clientRequest = .ok m' ∧ c.isValid spelledHash m' = .ok (decide ('\n' ∉ id ∧ ',' ∉ id)) := by
    intro id
    have hone : (clientArgs id "secret".toList).OneKey id "secret".toList := ⟨⟨_, rfl, rfl⟩, rfl, rfl⟩
    have hne : (clientArgs id "secret".toList).headers ≠ [] := List.cons_ne_nil _ _
    exact ⟨_, clientSigner id, _, rfl, clientSigner_eq rfl, rfl,
      isValid_sign spelledHash hone rfl (clientSigner_eq rfl) hne hnames hfree (rfl : (clientSigner id).sign _ clientRequest = _)⟩
  refine ⟨?_, ?_⟩
  · exact hsigns "pda".toList
  · exact hsigns "p,a".toList

end HttpSignatures
