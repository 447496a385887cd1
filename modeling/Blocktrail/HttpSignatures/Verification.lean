import Blocktrail.HttpSignatures.Parameters

/-! # What a verified message is bound to

The signing string is the lines of a header list, each the name of a header and its value. The lines give back the list
and the values.
-/

open Text Php Throwing

namespace HttpSignatures

/-! ## Signing strings -/

/-- What a line of the signing string says of a name. -/
def covered (m : Message) (name : Str) : Option Str :=
  if name = requestTarget then some (strtolower m.method ++ ' ' :: m.getPathWithQueryString)
  else m.header name

/-- The text of lines. -/
abbrev linesText (es : List (Str × Str)) : Str := Labelled.lines ':' ' ' '\n' es

theorem requestTarget_colon : "(request-target): ".toList = requestTarget ++ [':', ' '] := by decide +kernel

theorem requestTargetLine_eq (m : Message) :
    requestTargetLine m =
      Labelled.line ':' ' ' (requestTarget, strtolower m.method ++ ' ' :: m.getPathWithQueryString) := by
  unfold requestTargetLine Labelled.line
  rw [requestTarget_colon, List.append_assoc, List.append_assoc, List.cons_append, List.cons_append, List.nil_append]

theorem line_some {m : Message} {name value : Str} (h : covered m name = some value) :
    line m name = .ok (Labelled.line ':' ' ' (name, value)) := by
  unfold line
  unfold covered at h
  by_cases hname : name = requestTarget
  · rw [if_pos hname] at h
    obtain rfl := Option.some.inj h
    rw [if_pos hname, hname, requestTargetLine_eq]
  · rw [if_neg hname] at h
    rw [if_neg hname, headerValue, h, ok_bind]
    have htext : ": ".toList = [':', ' '] := rfl
    simp only [htext, Labelled.line, List.append_assoc, List.cons_append, List.nil_append]
    rfl

theorem line_none {m : Message} {name : Str} (h : covered m name = none) :
    ∃ message, line m name = .error (.signedHeaderNotPresent message) := by
  unfold line
  unfold covered at h
  by_cases hname : name = requestTarget
  · rw [if_pos hname] at h
    cases h
  · rw [if_neg hname] at h
    rw [if_neg hname, headerValue, h]
    exact ⟨_, rfl⟩

theorem mapM_line_ok {m : Message} {names ls : List Str} (h : names.mapM (line m) = .ok ls) :
    ∃ es : List (Str × Str), es.map Prod.fst = names ∧ (∀ e ∈ es, covered m e.1 = some e.2) ∧
      ls = es.map (Labelled.line ':' ' ') := by
  induction names generalizing ls with
  | nil =>
    cases h
    exact ⟨[], rfl, by simp, rfl⟩
  | cons name names ih =>
    rw [List.mapM_cons] at h
    obtain ⟨l, hl, h⟩ := exists_of_bind_ok h
    obtain ⟨ls', hls, h⟩ := exists_of_bind_ok h
    obtain ⟨es, hnames, hes, hmap⟩ := ih hls
    cases h
    rcases hv : covered m name with _ | value
    · obtain ⟨message, herr⟩ := line_none hv
      rw [herr] at hl
      cases hl
    · rw [line_some hv] at hl
      obtain rfl := Except.ok.inj hl
      refine ⟨(name, value) :: es, by rw [List.map_cons, hnames], ?_, by rw [List.map_cons, hmap]⟩
      rw [List.forall_mem_cons]
      exact ⟨hv, hes⟩

theorem signingString_ok {l : HeaderList} {m : Message} {text : Str} (h : signingString l m = .ok text) :
    ∃ es : List (Str × Str), es.map Prod.fst = l.names ∧ (∀ e ∈ es, covered m e.1 = some e.2) ∧
      text = linesText es := by
  obtain ⟨ls, hls, h⟩ := exists_of_bind_ok h
  obtain ⟨es, hnames, hes, rfl⟩ := mapM_line_ok hls
  obtain rfl := Except.ok.inj h
  exact ⟨es, hnames, hes, implode_eq '\n' _⟩

theorem line_congr {m m' : Message} {name : Str} (h : covered m name = covered m' name) : line m name = line m' name := by
  unfold line
  unfold covered at h
  by_cases hname : name = requestTarget
  · rw [if_pos hname, if_pos hname] at h
    rw [if_pos hname, if_pos hname, requestTargetLine_eq, requestTargetLine_eq, Option.some.inj h]
  · rw [if_neg hname, if_neg hname] at h
    rw [if_neg hname, if_neg hname, headerValue, headerValue, h]

theorem signingString_congr {l : HeaderList} {m m' : Message} (h : ∀ name ∈ l.names, covered m name = covered m' name) :
    signingString l m = signingString l m' := by
  obtain ⟨names⟩ := l
  have hlines : names.mapM (line m) = names.mapM (line m') := by
    induction names with
    | nil => rfl
    | cons name names ih =>
      rw [List.forall_mem_cons] at h
      rw [List.mapM_cons, List.mapM_cons, line_congr h.1, ih h.2]
  exact congrArg (fun r => r >>= fun ls => pure (implode '\n' ls)) hlines

/-! ## Messages as they are sent -/

/-- A message that a connection can carry: no line of it is broken, and its method is one word. -/
structure Message.Sendable (m : Message) : Prop where
  method : ' ' ∉ m.method ∧ '\n' ∉ m.method
  target : '\n' ∉ m.getPathWithQueryString
  header : ∀ name value, m.header name = some value → '\n' ∉ value

theorem eq_of_toLower {c d : Char} (hd : d.toNat < 97) (h : c.toLower = d) : c = d := by
  unfold Char.toLower at h
  split at h
  · next hc =>
    exfalso
    have hlow : 65 ≤ c.val.toNat := UInt32.le_iff_toNat_le.mp hc.1
    have hhigh : c.val.toNat ≤ 90 := UInt32.le_iff_toNat_le.mp hc.2
    have hval : d.val = c.val + 32 := by rw [← h]; rfl
    have hnat : d.val.toNat = (c.val.toNat + 32) % 2 ^ 32 := by rw [hval, UInt32.toNat_add]; rfl
    have : d.toNat = d.val.toNat := rfl
    omega
  · exact h

theorem not_mem_strtolower {d : Char} {s : Str} (hd : d.toNat < 97) (h : d ∉ s) : d ∉ strtolower s := by
  intro hmem
  obtain ⟨c, hc, he⟩ := List.mem_map.mp hmem
  exact h (eq_of_toLower hd he ▸ hc)

theorem Message.Sendable.not_mem_covered {m : Message} (hm : m.Sendable) {name value : Str}
    (h : covered m name = some value) : '\n' ∉ value := by
  unfold covered at h
  split_ifs at h with hname
  · obtain rfl := Option.some.inj h
    have hmethod := not_mem_strtolower (by decide) hm.method.2
    simp [hmethod, hm.target]
  · exact hm.header name value h

/-- The two messages read the same under every name of a list. -/
structure Agree (names : List Str) (m m' : Message) : Prop where
  target : requestTarget ∈ names →
    strtolower m.method = strtolower m'.method ∧ m.getPathWithQueryString = m'.getPathWithQueryString
  header : ∀ name ∈ names, name ≠ requestTarget → m.header name = m'.header name

theorem agree_iff_covered {names : List Str} {m m' : Message} (hm : m.Sendable) (hm' : m'.Sendable) :
    Agree names m m' ↔ ∀ name ∈ names, covered m name = covered m' name := by
  constructor
  · intro h name hname
    unfold covered
    by_cases ht : name = requestTarget
    · obtain ⟨hmethod, htarget⟩ := h.target (ht ▸ hname)
      rw [if_pos ht, if_pos ht, hmethod, htarget]
    · rw [if_neg ht, if_neg ht, h.header name hname ht]
  · intro h
    refine ⟨fun ht => ?_, fun name hname ht => ?_⟩
    · have heq := h _ ht
      rw [covered, covered, if_pos rfl, if_pos rfl, Option.some_inj] at heq
      exact Labelled.append_cons_injective (not_mem_strtolower (by decide) hm.method.1)
        (not_mem_strtolower (by decide) hm'.method.1) heq
    · have heq := h name hname
      rwa [covered, covered, if_neg ht, if_neg ht] at heq

/-- The names of a header list as a parameter can hold them. -/
def HeaderList.OneLine (l : HeaderList) : Prop := l.names ≠ [] ∧ ∀ name ∈ l.names, ' ' ∉ name ∧ '\n' ∉ name

/-- **A signing string says what is signed.** -/
theorem signingString_injective {l l' : HeaderList} {m m' : Message} (hl : l.OneLine) (hl' : l'.OneLine)
    (hm : m.Sendable) (hm' : m'.Sendable) {text : Str} (h : signingString l m = .ok text)
    (h' : signingString l' m' = .ok text) : l.names = l'.names ∧ Agree l.names m m' := by
  obtain ⟨es, hnames, hes, rfl⟩ := signingString_ok h
  obtain ⟨fs, hnames', hfs, htext⟩ := signingString_ok h'
  have hlines : ∀ {l : HeaderList} {m : Message} {es : List (Str × Str)}, l.OneLine → m.Sendable →
      es.map Prod.fst = l.names → (∀ e ∈ es, covered m e.1 = some e.2) →
      es ≠ [] ∧ (∀ e ∈ es, ' ' ∉ e.1) ∧ ∀ e ∈ es, '\n' ∉ Labelled.line ':' ' ' e := by
    intro l m es hl hm hnames hes
    have hname : ∀ e ∈ es, ' ' ∉ e.1 ∧ '\n' ∉ e.1 := fun e he => hl.2 e.1 (hnames ▸ List.mem_map_of_mem he)
    refine ⟨?_, fun e he => (hname e he).1, fun e he => ?_⟩
    · rintro rfl
      exact hl.1 hnames.symm
    · exact Labelled.not_mem_line (by decide) (by decide) (hname e he).2 (hm.not_mem_covered (hes e he))
  obtain ⟨hne, hblank, hbreak⟩ := hlines hl hm hnames hes
  obtain ⟨hne', hblank', hbreak'⟩ := hlines hl' hm' hnames' hfs
  obtain rfl := Labelled.lines_injective (by decide) hne hne' hblank hblank' hbreak hbreak' htext
  refine ⟨hnames.symm.trans hnames', (agree_iff_covered hm hm').mpr fun name hname => ?_⟩
  rw [← hnames] at hname
  obtain ⟨e, he, rfl⟩ := List.mem_map.mp hname
  rw [hes e he, hfs e he]

/-! ## Accepted messages -/

/-- What the verifier has read and computed of a message it accepts. -/
structure Verified (hash : HashHmac) (fetch : KeyStoreInterface) (m : Message) (key : Key) (algorithm : HmacAlgorithm)
    (l : HeaderList) (text : Str) : Prop where
  fetched : ∃ id, parameter m "keyId".toList = .ok id ∧ fetch id = .ok key
  created : ∃ name, parameter m "algorithm".toList = .ok name ∧ createAlgorithm name = .ok algorithm
  listed : ∃ headers, parameter m "headers".toList = .ok headers ∧ l = .fromString headers
  signed : signingString l m = .ok text
  provided : parameter m "signature".toList = .ok (Base64.encode (algorithm.sign hash key.secret text))

theorem hasSignatureHeader_of_parameter {m : Message} {name value : Str} (h : parameter m name = .ok value) :
    hasSignatureHeader m = true := by
  obtain ⟨header, hheader, -⟩ := exists_of_bind_ok h
  unfold signatureHeader truthyHeader at hheader
  unfold hasSignatureHeader
  cases hs : m.header "Signature".toList with
  | some s => rfl
  | none =>
    cases ha : m.header "Authorization".toList with
    | some a => rfl
    | none =>
      rw [hs, ha] at hheader
      cases hheader

theorem isValid_iff {hash : HashHmac} {fetch : KeyStoreInterface} {m : Message} :
    isValid hash fetch m = .ok true ↔ ∃ key algorithm l text, Verified hash fetch m key algorithm l text := by
  constructor
  · intro h
    have hhas : hasSignatureHeader m = true := by
      by_contra hnone
      rw [isValid, if_neg hnone] at h
      cases h
    rw [isValid, if_pos hhas] at h
    unfold signatureMatches at h
    dsimp only at h
    split at h
    · next b hb =>
      obtain rfl := Except.ok.inj h
      obtain ⟨expected, hexpected, h⟩ := exists_of_bind_ok hb
      obtain ⟨provided, hprovided, h⟩ := exists_of_bind_ok h
      have heq : Base64.encode expected = provided := of_decide_eq_true (Except.ok.inj h)
      obtain ⟨id, hid, h⟩ := exists_of_bind_ok hexpected
      obtain ⟨key, hkey, h⟩ := exists_of_bind_ok h
      obtain ⟨name, hname, h⟩ := exists_of_bind_ok h
      obtain ⟨algorithm, halgorithm, h⟩ := exists_of_bind_ok h
      obtain ⟨headers, hheaders, h⟩ := exists_of_bind_ok h
      obtain ⟨text, htext, h⟩ := exists_of_bind_ok h
      obtain rfl := Except.ok.inj h
      exact ⟨key, algorithm, .fromString headers, text, ⟨id, hid, hkey⟩, ⟨name, hname, halgorithm⟩, ⟨headers, hheaders, rfl⟩,
        htext, heq ▸ hprovided⟩
    · cases h
    · cases h
  · rintro ⟨key, algorithm, l, text, ⟨⟨id, hid, hkey⟩, ⟨name, hname, halgorithm⟩, ⟨headers, hheaders, rfl⟩, htext, hsignature⟩⟩
    have hexpected : expectedSignature hash fetch m = .ok (algorithm.sign hash key.secret text) := by
      rw [expectedSignature, hid, ok_bind, hkey, ok_bind, hname, ok_bind, halgorithm, ok_bind, hheaders, ok_bind, signature,
        htext]
      rfl
    rw [isValid, if_pos (hasSignatureHeader_of_parameter hid), signatureMatches, hexpected, ok_bind, hsignature, ok_bind]
    simp [pure, Except.pure]

theorem parameter_plain {m : Message} {name value : Str} (h : parameter m name = .ok value) :
    '\n' ∉ value ∧ ',' ∉ value := by
  obtain ⟨header, -, h⟩ := exists_of_bind_ok h
  obtain ⟨o, ho, h⟩ := exists_of_bind_ok h
  obtain ⟨ps, -, hps, -, rfl⟩ := parse_ok_iff.mp ho
  cases hv : (pairsToAssociative ps).get? name with
  | none =>
    rw [hv] at h
    cases h
  | some v =>
    rw [hv] at h
    obtain rfl := Except.ok.inj h
    exact (hps _ (mem_of_get?_pairs hv)).2

theorem mem_of_mem_splitOn {sep c : Char} {s piece : Str} (hp : piece ∈ s.splitOn sep) (hc : c ∈ piece) : c ∈ s := by
  rcases hs : s.splitOn sep with _ | ⟨x, xs⟩
  · exact absurd hs (List.splitOn_ne_nil sep s)
  · rw [hs] at hp
    rw [Separated.eq_of_splitOn hs, List.mem_append, List.mem_flatMap]
    rcases List.mem_cons.mp hp with rfl | hp
    · exact Or.inl hc
    · exact Or.inr ⟨piece, hp, List.mem_cons_of_mem sep hc⟩

theorem fromString_oneLine {s : Str} (h : '\n' ∉ s) : (HeaderList.fromString s).OneLine := by
  constructor
  · simp [HeaderList.fromString, HeaderList.ofNames]
  · intro name hname
    obtain ⟨piece, hpiece, rfl⟩ := List.mem_map.mp hname
    refine ⟨not_mem_strtolower (by decide) (Separated.not_mem_of_mem_splitOn hpiece), not_mem_strtolower (by decide) ?_⟩
    exact fun hmem => h (mem_of_mem_splitOn hpiece hmem)

theorem Verified.oneLine {hash : HashHmac} {fetch : KeyStoreInterface} {m : Message} {key : Key}
    {algorithm : HmacAlgorithm} {l : HeaderList} {text : Str} (h : Verified hash fetch m key algorithm l text) :
    l.OneLine := by
  obtain ⟨headers, hheaders, rfl⟩ := h.listed
  exact fromString_oneLine (parameter_plain hheaders).1

/-- **A signature that is accepted twice.** Two messages are accepted with one key, one algorithm and one signature.
They have the same signed headers with the same values, or their signing strings are two texts with the same hash. -/
theorem verified_agree {hash : HashHmac} {fetch : KeyStoreInterface} {m m' : Message} (hm : m.Sendable)
    (hm' : m'.Sendable) (h : isValid hash fetch m = .ok true) (h' : isValid hash fetch m' = .ok true)
    (hkey : parameter m "keyId".toList = parameter m' "keyId".toList)
    (halgorithm : parameter m "algorithm".toList = parameter m' "algorithm".toList)
    (hsignature : parameter m "signature".toList = parameter m' "signature".toList) :
    ∃ key algorithm l l' text text', Verified hash fetch m key algorithm l text ∧
      Verified hash fetch m' key algorithm l' text' ∧
      hash algorithm.digestName text key.secret = hash algorithm.digestName text' key.secret ∧
      (text = text' ↔ l.names = l'.names ∧ Agree l.names m m') := by
  obtain ⟨key, algorithm, l, text, hv⟩ := isValid_iff.mp h
  obtain ⟨key', algorithm', l', text', hv'⟩ := isValid_iff.mp h'
  have hsame : key' = key := by
    obtain ⟨id, hid, hfetch⟩ := hv.fetched
    obtain ⟨id', hid', hfetch'⟩ := hv'.fetched
    obtain rfl := Except.ok.inj (hid.symm.trans (hkey.trans hid'))
    exact Except.ok.inj (hfetch'.symm.trans hfetch)
  have hsame' : algorithm' = algorithm := by
    obtain ⟨name, hname, hcreate⟩ := hv.created
    obtain ⟨name', hname', hcreate'⟩ := hv'.created
    obtain rfl := Except.ok.inj (hname.symm.trans (halgorithm.trans hname'))
    exact Except.ok.inj (hcreate'.symm.trans hcreate)
  subst hsame hsame'
  refine ⟨key', algorithm', l, l', text, text', hv, hv', ?_, ?_, ?_⟩
  · have hencoded := Except.ok.inj (hv.provided.symm.trans (hsignature.trans hv'.provided))
    exact Function.LeftInverse.injective Base64.decode_encode hencoded
  · rintro rfl
    exact signingString_injective hv.oneLine hv'.oneLine hm hm' hv.signed hv'.signed
  · rintro ⟨hnames, hagree⟩
    obtain ⟨names⟩ := l
    obtain ⟨names'⟩ := l'
    obtain rfl : names = names' := hnames
    have htext := signingString_congr (l := ⟨names⟩) ((agree_iff_covered hm hm').mp hagree)
    exact Except.ok.inj (hv.signed.symm.trans (htext.trans hv'.signed))

/-! ### A sample -/

/-- A hash that keeps what it is given. -/
def spelledHash : HashHmac := fun algo data key => (algo ++ data ++ key).map fun c => UInt8.ofNat c.toNat

theorem Message.Sendable.setHeader {m : Message} (hm : m.Sendable) (name : Str) {value : Str} (h : '\n' ∉ value) :
    (m.setHeader name value).Sendable := by
  refine ⟨hm.method, hm.target, fun x v hv => ?_⟩
  rw [Message.header, Message.setHeader, Assoc.Object.get?_set] at hv
  split_ifs at hv
  · obtain rfl := Option.some.inj hv
    exact h
  · exact hm.header x v hv

def sampleKey : Key := ⟨"pda".toList, "secret".toList⟩

def sampleRequest : Message := ⟨"GET".toList, "/path".toList, some "query=123".toList, .empty⟩

theorem sampleRequest_sendable : sampleRequest.Sendable := by
  refine ⟨⟨by decide +kernel, by decide +kernel⟩, by decide +kernel, ?_⟩
  intro name value h
  cases h

/-- The signature of the date. -/
def sampleParameters : Str :=
  "keyId=\"pda\",algorithm=\"hmac-sha1\",headers=\"date\",signature=\"".toList ++
    Base64.encode (spelledHash "sha1".toList "date: today".toList "secret".toList) ++ ['"']

/-- A signed request, and another header that is not signed. -/
def sampleSigned (accept : Str) : Message :=
  ((sampleRequest.setHeader "Date".toList "today".toList).setHeader "Accept".toList accept).setHeader "Signature".toList
    sampleParameters

theorem sampleSigned_sendable {accept : Str} (h : '\n' ∉ accept) : (sampleSigned accept).Sendable :=
  ((sampleRequest_sendable.setHeader _ (by decide +kernel)).setHeader _ h).setHeader _ (by decide +kernel)

theorem verified_agree_accept : ∃ key algorithm l l' text text',
    Verified spelledHash (fun _ => .ok sampleKey) (sampleSigned "dogs".toList) key algorithm l text ∧
      Verified spelledHash (fun _ => .ok sampleKey) (sampleSigned "llamas".toList) key algorithm l' text' ∧
      spelledHash algorithm.digestName text key.secret = spelledHash algorithm.digestName text' key.secret ∧
      (text = text' ↔ l.names = l'.names ∧ Agree l.names (sampleSigned "dogs".toList) (sampleSigned "llamas".toList)) :=
  verified_agree (sampleSigned_sendable (by decide +kernel)) (sampleSigned_sendable (by decide +kernel)) (by rfl) (by rfl)
    (by rfl) (by rfl) (by rfl)

end HttpSignatures
