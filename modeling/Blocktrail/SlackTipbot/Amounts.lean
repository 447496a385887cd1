import Mathlib.Algebra.Order.Floor.Ring
import Mathlib.Data.List.DropRight
import Mathlib.Data.Rat.Floor
import Blocktrail.Lib.Patterns
import Blocktrail.SlackTipbot.TipBot

/-! # Amounts

What `AMOUNT_REGEX` takes of a message, and what `normalizeValue` makes of it. Numbers are exact.
-/

open Text Pattern

namespace SlackTipbot

namespace TipBot

/-! ## `AMOUNT_REGEX` -/

/-- `(\.\d{1,8})?` -/
def decimalsPattern : Pattern Str :=
  Pattern.orElse (Pattern.map (fun d => d.1 ++ d.2) (Pattern.seq (between (· = '.') 1 1) (between Char.isDigit 1 8)))
    (nothing [])

/-- One of several texts, in any case. -/
def unitPattern (units : List Str) : Pattern Str := fun s =>
  (units.filter fun unit => startsWith unit s).map fun unit => (s.take unit.length, s.drop unit.length)

/-- `(\d*(\.\d{1,8})?) *(…)`: the amount and its unit. -/
def amountPattern (units : List Str) : Pattern (Str × Str) :=
  Pattern.map (fun r => (r.1.1 ++ r.1.2, r.2.2))
    (Pattern.seq (Pattern.seq (many Char.isDigit) decimalsPattern)
      (Pattern.seq (many (· = ' ')) (unitPattern units)))

/-- `Satoshis?`, the ticker and the currencies. Without a currency the last alternative is empty. -/
def units (o : Config) (self : TipBot) : List Str :=
  "Satoshis".toList :: "Satoshi".toList :: o.TICKER :: (if self.CURRENCIES = [] then [[]] else self.CURRENCIES)

/-- `message.match(AMOUNT_REGEX)`: what stands before, `amount[1]` and `amount[3]`. -/
structure Amount where
  before : Str
  value : Str
  unit : Str

def amountOf (o : Config) (self : TipBot) (message : Str) : Option Amount :=
  (leftmost (amountPattern (units o self)) message).map fun r => ⟨r.1, r.2.1.1, r.2.1.2⟩

/-! ## `normalizeValue` -/

def digitsValue (s : Str) : Nat := Nat.ofDigitChars 10 s 0

/-- The digits after the point. -/
def decimalsOf (s : Str) : Str :=
  match s.dropWhile Char.isDigit with
  | '.' :: t => t.takeWhile Char.isDigit
  | _ => []

def fraction (s : Str) : ℚ := digitsValue (decimalsOf s) / 10 ^ (decimalsOf s).length

def numeralValue (s : Str) : ℚ := digitsValue (s.takeWhile Char.isDigit) + fraction s

/-- `parseFloat`, of digits and decimals. -/
def parseFloat (s : Str) : Option ℚ :=
  if s.takeWhile Char.isDigit ++ decimalsOf s = [] then none else some (numeralValue s)

/-- `blocktrail.toSatoshi`: `toFixed(0)` rounds to the nearest integer. Nothing is a double here: half satoshis go up,
and no value is printed with an exponent. -/
def toSatoshi (btc : ℚ) : Int := ⌊btc * 100000000 + 1 / 2⌋

/-- The rates, `none` where there is none or it is zero. -/
abbrev Rates := Str → Option ℚ

def toUpperCase (s : Str) : Str := s.map Char.toUpper

def normalizeValue (o : Config) (self : TipBot) (rates : Rates) (inputValue unit : Str) : Normalized :=
  let inputValue := if inputValue.take 1 = ['.'] then '0' :: inputValue else inputValue
  if has "satoshi".toList unit then
    match parseInt10 inputValue with
    | none => .invalid
    | some value => if value = 0 then .invalid else .value value
  else if has o.TICKER unit then
    let value := toSatoshi ((parseFloat inputValue).getD 0)
    if value = 0 then .invalid else .value value
  else
    let currency := toUpperCase (trim unit)
    if currency ∈ self.CURRENCIES then
      match parseFloat inputValue with
      | none => .invalid
      | some value =>
        if value = 0 then .invalid
        else
          match rates currency with
          | none => .unsupported
          | some rate =>
            let newValue := ⌈value / rate * 100000000⌉
            if newValue = 0 then .invalid else .value newValue
    else .invalid

/-! ## What is acted on -/

/-- Withdrawals have no minimum. -/
def acts : Conversion → Int → Bool
  | .withdraw _ _, _ => true
  | .demand _ _, value => MIN_TIP ≤ value
  | .send _ _, value => MIN_TIP ≤ value

/-- The amount that a message makes the bot ask for or pay. -/
def actedOn (o : Config) (self : TipBot) (rates : Rates) (channel : Channel) (user message : Str) : Option Int :=
  match command o self channel user message, amountOf o self message with
  | .convert conversion, some amount =>
    match normalizeValue o self rates amount.value amount.unit with
    | .value value => if acts conversion value then some value else none
    | _ => none
  | _, _ => none

/-! ## Numerals -/

/-- A comma or an apostrophe. -/
def isSeparator (c : Char) : Bool := c = ',' || c.toNat = 39

def isNumeralChar (c : Char) : Bool := c.isDigit || c = '.' || isSeparator c || c = '+' || c = '-'

/-- The numeral at the end of a text, with signs, points and separators. -/
def numeralAtEnd (s : Str) : Str := (s.rtakeWhile isNumeralChar).dropWhile isSeparator

/-- A numeral that the bot can represent: a plus sign at most, digits, and at most eight decimals. -/
def Represents (s : Str) (q : ℚ) : Prop :=
  ∃ sign digits decimals : Str, (sign = [] ∨ sign = ['+']) ∧ s = sign ++ (digits ++ decimals) ∧
    (∀ c ∈ digits, c.isDigit = true) ∧
    (decimals = [] ∨ ∃ ds : Str, decimals = '.' :: ds ∧ (∀ c ∈ ds, c.isDigit = true) ∧ 1 ≤ ds.length ∧ ds.length ≤ 8) ∧
    digits ++ decimals ≠ [] ∧ q = numeralValue (digits ++ decimals)

/-- `v` satoshis are `q` of a unit. Another currency is rounded up to whole satoshis. -/
def InSatoshi (o : Config) (rates : Rates) (unit : Str) (q : ℚ) (v : Int) : Prop :=
  if has "satoshi".toList unit then (v : ℚ) = q
  else if has o.TICKER unit then (v : ℚ) = q * 100000000
  else ∃ rate, rates (toUpperCase (trim unit)) = some rate ∧ v = ⌈q / rate * 100000000⌉

/-- What is acted on is the whole numeral before the unit. -/
def Whole (o : Config) (self : TipBot) (rates : Rates) (channel : Channel) (user message : Str) : Prop :=
  ∀ v, actedOn o self rates channel user message = some v →
    ∃ amount q, amountOf o self message = some amount ∧ Represents (numeralAtEnd (amount.before ++ amount.value)) q ∧
      InSatoshi o rates amount.unit q v

/-- No part of a numeral but a plus sign stands before what is taken, and satoshis have no decimals but zeros. -/
def Amount.Uncut (amount : Amount) : Prop :=
  (numeralAtEnd amount.before = [] ∨ numeralAtEnd amount.before = ['+']) ∧
    (has "satoshi".toList amount.unit = true → fraction amount.value = 0)

/-! ## Matches -/

def IsDecimals (d : Str) : Prop :=
  d = [] ∨ ∃ ds : Str, d = '.' :: ds ∧ (∀ c ∈ ds, c.isDigit = true) ∧ 1 ≤ ds.length ∧ ds.length ≤ 8

theorem mem_decimalsPattern {s d t : Str} : (d, t) ∈ decimalsPattern s ↔ s = d ++ t ∧ IsDecimals d := by
  unfold decimalsPattern IsDecimals
  rw [mem_orElse, mem_nothing, Prod.mk.injEq, Pattern.mem_map]
  constructor
  · rintro (⟨⟨dot, ds⟩, hseq, rfl⟩ | ⟨rfl, rfl⟩)
    · obtain ⟨t', hdot, hds⟩ := mem_seq.mp hseq
      obtain ⟨rfl, hpoint, hlo, hhi⟩ := mem_between.mp hdot
      obtain ⟨rfl, hdigits, hlo', hhi'⟩ := mem_between.mp hds
      obtain ⟨c, rfl⟩ := List.length_eq_one_iff.mp (show dot.length = 1 by omega)
      obtain rfl : c = '.' := by simpa using hpoint
      exact ⟨by simp, Or.inr ⟨ds, rfl, hdigits, hlo', hhi'⟩⟩
    · exact ⟨rfl, Or.inl rfl⟩
  · rintro ⟨rfl, rfl | ⟨ds, rfl, hdigits, hlo, hhi⟩⟩
    · exact Or.inr ⟨rfl, rfl⟩
    · refine Or.inl ⟨(['.'], ds), mem_seq.mpr ⟨ds ++ t, mem_between.mpr ?_, mem_between.mpr ?_⟩, rfl⟩
      · exact ⟨rfl, by simp, by simp, by simp⟩
      · exact ⟨rfl, hdigits, hlo, hhi⟩

theorem mem_amountPattern {units : List Str} {s a u t : Str} : ((a, u), t) ∈ amountPattern units s ↔
    ∃ digits decimals spaces rest : Str, a = digits ++ decimals ∧ s = digits ++ (decimals ++ (spaces ++ rest)) ∧
      (∀ c ∈ digits, c.isDigit = true) ∧ IsDecimals decimals ∧ (∀ c ∈ spaces, c = ' ') ∧
      (u, t) ∈ unitPattern units rest := by
  unfold amountPattern
  rw [Pattern.mem_map]
  constructor
  · rintro ⟨⟨⟨digits, decimals⟩, spaces, unit⟩, hseq, he⟩
    cases he
    obtain ⟨t1, hnumber, hrest⟩ := mem_seq.mp hseq
    obtain ⟨t2, hmany, hpattern⟩ := mem_seq.mp hnumber
    obtain ⟨rest, hblanks, hunit⟩ := mem_seq.mp hrest
    obtain ⟨rfl, hdigits⟩ := mem_many.mp hmany
    obtain ⟨rfl, hdecimals⟩ := mem_decimalsPattern.mp hpattern
    obtain ⟨rfl, hspaces⟩ := mem_many.mp hblanks
    exact ⟨digits, decimals, spaces, rest, rfl, rfl, hdigits, hdecimals, by simpa using hspaces, hunit⟩
  · rintro ⟨digits, decimals, spaces, rest, rfl, rfl, hdigits, hdecimals, hspaces, hunit⟩
    refine ⟨((digits, decimals), spaces, u), mem_seq.mpr ⟨spaces ++ rest, mem_seq.mpr
      ⟨decimals ++ (spaces ++ rest), ?_, ?_⟩, ?_⟩, rfl⟩
    · exact mem_many.mpr ⟨rfl, hdigits⟩
    · exact mem_decimalsPattern.mpr ⟨rfl, hdecimals⟩
    · exact mem_seq.mpr ⟨rest, mem_many.mpr ⟨rfl, by simpa using hspaces⟩, hunit⟩

theorem amountPattern_ne_nil {units : List Str} {digits decimals spaces rest : Str}
    (hdigits : ∀ c ∈ digits, c.isDigit = true) (hdecimals : IsDecimals decimals) (hspaces : ∀ c ∈ spaces, c = ' ')
    (hunit : unitPattern units rest ≠ []) :
    amountPattern units (digits ++ (decimals ++ (spaces ++ rest))) ≠ [] := by
  obtain ⟨⟨u, t⟩, hu⟩ := List.exists_mem_of_ne_nil _ hunit
  exact List.ne_nil_of_mem (mem_amountPattern.mpr
    ⟨digits, decimals, spaces, rest, rfl, rfl, hdigits, hdecimals, hspaces, hu⟩)

/-- `hasAmount` tells whether there is an amount: digits, decimals and blanks may be missing. -/
theorem hasAmount_eq (o : Config) (self : TipBot) (message : Str) :
    hasAmount o self message = (amountOf o self message).isSome := by
  have hunits : hasAmount o self message = (units o self).any fun unit => has unit message := by
    have hplural : has "Satoshis".toList message = true → has "Satoshi".toList message = true := by
      rw [has_iff, has_iff]
      exact fun h => (List.prefix_append (fold "Satoshi".toList) ['s']).isInfix.trans h
    unfold hasAmount units
    rw [List.any_cons (a := "Satoshis".toList), Bool.eq_iff_iff, Bool.or_eq_true, List.any_cons, Bool.or_eq_true]
    exact ⟨Or.inr, fun h => h.elim (fun h => Or.inl (hplural h)) id⟩
  unfold amountOf
  rw [hunits, Option.isSome_map, Bool.eq_iff_iff, List.any_eq_true]
  constructor
  · rintro ⟨unit, hunit, hhas⟩
    obtain ⟨u, v, hmessage, hv⟩ := has_iff_exists.mp hhas
    refine leftmost_isSome hmessage (@amountPattern_ne_nil _ [] [] [] _ (by simp) (Or.inl rfl) (by simp) (List.ne_nil_of_mem (a := (v.take unit.length, v.drop unit.length)) ?_))
    exact List.mem_map.mpr ⟨unit, List.mem_filter.mpr ⟨hunit, hv⟩, rfl⟩
  · intro h
    obtain ⟨⟨before, ⟨a, u⟩, t⟩, hleft⟩ := Option.isSome_iff_exists.mp h
    obtain ⟨s, rfl, hhead, -⟩ := leftmost_eq_some hleft
    obtain ⟨digits, decimals, spaces, rest, -, rfl, -, -, -, hunit⟩ :=
      mem_amountPattern.mp (List.mem_of_mem_head? hhead)
    obtain ⟨unit, hmem, -⟩ := List.mem_map.mp hunit
    rw [List.mem_filter] at hmem
    exact ⟨unit, hmem.1, has_iff_exists.mpr
      ⟨before ++ (digits ++ (decimals ++ spaces)), rest, by simp, hmem.2⟩⟩

/-- What the expression takes of a message: the first number with a unit. -/
structure Taken (o : Config) (bot : TipBot) (message : Str) (amount : Amount) (digits decimals spaces rest : Str) :
    Prop where
  value_eq : amount.value = digits ++ decimals
  message_eq : message = amount.before ++ (digits ++ (decimals ++ (spaces ++ rest)))
  isDigits : ∀ c ∈ digits, c.isDigit = true
  isDecimals : IsDecimals decimals
  isBlank : ∀ c ∈ spaces, c = ' '
  unit_here : unitPattern (units o bot) rest ≠ []
  first : ∀ u v, message = u ++ v → u.length < amount.before.length → amountPattern (units o bot) v = []

theorem taken_of_amountOf {o : Config} {self : TipBot} {message : Str} {amount : Amount}
    (h : amountOf o self message = some amount) :
    ∃ digits decimals spaces rest, Taken o self message amount digits decimals spaces rest := by
  unfold amountOf at h
  rw [Option.map_eq_some_iff] at h
  obtain ⟨⟨before, ⟨a, u⟩, t⟩, hleft, rfl⟩ := h
  obtain ⟨s, rfl, hhead, hfirst⟩ := leftmost_eq_some hleft
  obtain ⟨digits, decimals, spaces, rest, rfl, rfl, hdigits, hdecimals, hspaces, hunit⟩ :=
    mem_amountPattern.mp (List.mem_of_mem_head? hhead)
  exact ⟨digits, decimals, spaces, rest, rfl, rfl, hdigits, hdecimals, hspaces, List.ne_nil_of_mem hunit, hfirst⟩

/-! ## Characters -/

theorem digit_ne {c d : Char} (hc : c.isDigit = true) (hd : d.isDigit = false) : c ≠ d := by
  rintro rfl
  rw [hc] at hd
  cases hd

theorem digit_not_separator {c : Char} (hc : c.isDigit = true) : isSeparator c = false := by
  have h39 : c.toNat ≠ 39 := by
    intro h
    have hlt : 48 ≤ c.toNat := by
      simp only [Char.isDigit, Bool.and_eq_true, decide_eq_true_eq] at hc
      exact hc.1
    omega
  simp [isSeparator, digit_ne hc (d := ',') (by decide), h39]

theorem char_of_number {digits decimals : Str} (hdigits : ∀ c ∈ digits, c.isDigit = true)
    (hdecimals : IsDecimals decimals) : ∀ c ∈ digits ++ decimals, c.isDigit = true ∨ c = '.' := by
  intro c hc
  rcases List.mem_append.mp hc with hc | hc
  · exact Or.inl (hdigits c hc)
  · rcases hdecimals with rfl | ⟨ds, rfl, hds, -, -⟩
    · cases hc
    · rcases List.mem_cons.mp hc with rfl | hc
      · exact Or.inr rfl
      · exact Or.inl (hds c hc)

theorem numeralAtEnd_append {s value : Str} (hv : ∀ c ∈ value, c.isDigit = true ∨ c = '.') :
    numeralAtEnd (s ++ value) = numeralAtEnd s ++ value := by
  have hnumeral : ∀ c ∈ value, isNumeralChar c = true := by
    intro c hc
    rcases hv c hc with h | rfl
    · simp [isNumeralChar, h]
    · decide
  have hseparator : value.dropWhile isSeparator = value := by
    cases value with
    | nil => rfl
    | cons c value =>
      rw [List.dropWhile_cons_of_neg]
      rcases hv c List.mem_cons_self with h | rfl
      · rw [digit_not_separator h]
        decide
      · decide
  have htake : (s ++ value).rtakeWhile isNumeralChar = s.rtakeWhile isNumeralChar ++ value := by
    unfold List.rtakeWhile
    rw [List.reverse_append, List.takeWhile_append_of_pos (by simpa using hnumeral), List.reverse_append,
      List.reverse_reverse]
  unfold numeralAtEnd
  rw [htake, List.dropWhile_append]
  split
  next h =>
    rw [hseparator, List.isEmpty_iff.mp h]
    rfl
  next => rfl

theorem exists_before (s : Str) : ∃ pre, s = pre ++ numeralAtEnd s := by
  obtain ⟨pre, hpre⟩ := (List.dropWhile_suffix isSeparator (l := s.rtakeWhile isNumeralChar)).trans
    (List.rtakeWhile_suffix isNumeralChar s)
  exact ⟨pre, hpre.symm⟩

/-! ## Values -/

theorem decimals_dropWhile {decimals : Str} (h : IsDecimals decimals) :
    decimals.dropWhile Char.isDigit = decimals ∧ decimals.takeWhile Char.isDigit = [] := by
  rcases h with rfl | ⟨ds, rfl, -⟩
  · exact ⟨rfl, rfl⟩
  · exact ⟨rfl, rfl⟩

theorem split_number {digits decimals : Str} (hdigits : ∀ c ∈ digits, c.isDigit = true)
    (hdecimals : IsDecimals decimals) :
    (digits ++ decimals).takeWhile Char.isDigit = digits ∧ decimalsOf (digits ++ decimals) = decimals.drop 1 := by
  obtain ⟨hdrop, htake⟩ := decimals_dropWhile hdecimals
  constructor
  · rw [List.takeWhile_append_of_pos hdigits, htake, List.append_nil]
  · unfold decimalsOf
    rw [List.dropWhile_append_of_pos hdigits, hdrop]
    rcases hdecimals with rfl | ⟨ds, rfl, hds, -, -⟩
    · rfl
    · exact List.takeWhile_eq_self_iff.mpr hds

/-- With at most eight decimals a number of bitcoin is a number of satoshis. -/
theorem exists_satoshi {digits decimals : Str} (hdigits : ∀ c ∈ digits, c.isDigit = true)
    (hdecimals : IsDecimals decimals) :
    ∃ z : Int, numeralValue (digits ++ decimals) * 100000000 = z := by
  obtain ⟨htake, hdecimalsOf⟩ := split_number hdigits hdecimals
  have hlength : (decimals.drop 1).length ≤ 8 := by
    rcases hdecimals with rfl | ⟨ds, rfl, -, -, h8⟩
    · exact Nat.zero_le _
    · exact h8
  unfold numeralValue fraction
  rw [htake, hdecimalsOf]
  generalize decimals.drop 1 = ds at hlength
  obtain ⟨k, hk⟩ := Nat.exists_eq_add_of_le hlength
  refine ⟨digitsValue digits * 100000000 + digitsValue ds * 10 ^ k, ?_⟩
  have hpow : (10 : ℚ) ^ ds.length * 10 ^ k = 100000000 := by
    rw [← pow_add, ← hk]
    norm_num
  have hne : (10 : ℚ) ^ ds.length ≠ 0 := pow_ne_zero _ (by norm_num)
  push_cast
  rw [add_mul, ← hpow]
  field_simp

theorem toSatoshi_eq {btc : ℚ} {z : Int} (h : btc * 100000000 = z) : toSatoshi btc = z := by
  unfold toSatoshi
  rw [h, Int.floor_intCast_add]
  norm_num

theorem parseInt10_of_digit {c : Char} {s : Str} (hc : c.isDigit = true) :
    parseInt10 (c :: s) = some (digitsValue ((c :: s).takeWhile Char.isDigit) : Int) := by
  have hspace : isSpace c = false := by
    have hlt : 48 ≤ c.toNat ∧ c.toNat ≤ 57 := by
      simp only [Char.isDigit, Bool.and_eq_true, decide_eq_true_eq] at hc
      exact hc
    unfold isSpace
    simp only [List.mem_cons, List.not_mem_nil, or_false, decide_eq_false_iff_not]
    omega
  have htake : (c :: s).takeWhile Char.isDigit = c :: s.takeWhile Char.isDigit := List.takeWhile_cons_of_pos hc
  unfold parseInt10
  rw [List.dropWhile_cons_of_neg (by simp [hspace])]
  split
  next h => exact absurd (List.cons.inj h).1 (digit_ne hc (by decide))
  next h => exact absurd (List.cons.inj h).1 (digit_ne hc (by decide))
  next => rw [parseDigits, htake, digitsValue]

/-- `inputValue`, with a zero before the point. -/
def padded (value : Str) : Str := if value.take 1 = ['.'] then '0' :: value else value

theorem padded_spec {digits decimals : Str} (hdigits : ∀ c ∈ digits, c.isDigit = true)
    (hdecimals : IsDecimals decimals) (hne : digits ++ decimals ≠ []) :
    parseInt10 (padded (digits ++ decimals)) = some (digitsValue digits : Int) ∧
      parseFloat (padded (digits ++ decimals)) = some (numeralValue (digits ++ decimals)) := by
  have hsplit := split_number hdigits hdecimals
  cases digits with
  | nil =>
    rcases hdecimals with rfl | ⟨ds, rfl, hds, h1, h8⟩
    · exact absurd rfl hne
    · have hzero := @split_number ['0'] ('.' :: ds) (by simp) (Or.inr ⟨ds, rfl, hds, h1, h8⟩)
      have hpadded : padded ([] ++ '.' :: ds) = ['0'] ++ '.' :: ds := rfl
      have hint := parseInt10_of_digit (c := '0') (s := '.' :: ds) (by decide)
      rw [hpadded]
      constructor
      · rw [show '0' :: '.' :: ds = ['0'] ++ '.' :: ds from rfl, hzero.1] at hint
        exact hint
      · unfold parseFloat numeralValue fraction
        rw [hzero.1, hzero.2, hsplit.1, hsplit.2, if_neg (by simp)]
        rfl
  | cons c digits =>
    have hc := hdigits c List.mem_cons_self
    have hint := parseInt10_of_digit (s := digits ++ decimals) hc
    have hpadded : padded (c :: digits ++ decimals) = c :: digits ++ decimals := by
      unfold padded
      rw [if_neg]
      intro h
      exact digit_ne hc (d := '.') (by decide) (List.cons.inj h).1
    rw [hpadded]
    constructor
    · rw [← List.cons_append, hsplit.1] at hint
      exact hint
    · unfold parseFloat
      rw [hsplit.1, if_neg (by simp)]

theorem plus_not_mem {value : Str} (hv : ∀ c ∈ value, c.isDigit = true ∨ c = '.') : '+' ∉ value := by
  intro h
  rcases hv _ h with h | h
  · exact absurd h (by decide)
  · exact absurd h (by decide)

theorem normalizeValue_nil (o : Config) (self : TipBot) (rates : Rates) (unit : Str) :
    normalizeValue o self rates [] unit = .invalid := by
  have hzero : toSatoshi 0 = 0 := toSatoshi_eq (z := 0) (by simp)
  unfold normalizeValue
  rw [if_neg (show ([] : Str).take 1 ≠ ['.'] by simp)]
  dsimp only
  split
  · rfl
  split
  · rw [show parseFloat [] = none from rfl, Option.getD_none, hzero]
    rfl
  split
  · rfl
  · rfl

theorem normalizeValue_spec {o : Config} {self : TipBot} {rates : Rates} {digits decimals unit : Str} {v : Int}
    (hdigits : ∀ c ∈ digits, c.isDigit = true) (hdecimals : IsDecimals decimals)
    (h : normalizeValue o self rates (digits ++ decimals) unit = .value v) :
    digits ++ decimals ≠ [] ∧
      if has "satoshi".toList unit then v = digitsValue digits
      else InSatoshi o rates unit (numeralValue (digits ++ decimals)) v := by
  have hne : digits ++ decimals ≠ [] := by
    intro hnil
    rw [hnil, normalizeValue_nil] at h
    cases h
  obtain ⟨hint, hfloat⟩ := padded_spec hdigits hdecimals hne
  refine ⟨hne, ?_⟩
  unfold normalizeValue at h
  unfold padded at hint hfloat
  dsimp only at h
  rw [hint, hfloat] at h
  dsimp only [Option.getD_some] at h
  unfold InSatoshi
  split at h
  next hsatoshi =>
    rw [if_pos hsatoshi]
    split at h
    · cases h
    · cases h
      rfl
  next hsatoshi =>
    rw [if_neg hsatoshi, if_neg hsatoshi]
    split at h
    next hticker =>
      rw [if_pos hticker]
      obtain ⟨z, hz⟩ := exists_satoshi hdigits hdecimals
      have hvalue := toSatoshi_eq hz
      by_cases hzero : toSatoshi (numeralValue (digits ++ decimals)) = 0
      · rw [if_pos hzero] at h
        cases h
      · rw [if_neg hzero] at h
        rw [← Normalized.value.inj h, hvalue, hz]
    next hticker =>
      rw [if_neg hticker]
      split at h
      · split at h
        · cases h
        · split at h
          · cases h
          next rate hrate =>
            split at h
            · cases h
            · exact ⟨rate, hrate, (Normalized.value.inj h).symm⟩
      · cases h

/-! ## The whole numeral -/

theorem actedOn_eq_some {o : Config} {self : TipBot} {rates : Rates} {channel : Channel} {user message : Str} {v : Int}
    (h : actedOn o self rates channel user message = some v) :
    ∃ amount, amountOf o self message = some amount ∧
      normalizeValue o self rates amount.value amount.unit = .value v := by
  unfold actedOn at h
  split at h
  next conversion amount _ hamount =>
    split at h
    next value hvalue =>
      split at h
      · cases h
        exact ⟨amount, hamount, hvalue⟩
      · cases h
    · cases h
  · cases h

/-- The expression starts at the first character of a numeral that can be represented. -/
theorem before_of_represents {o : Config} {self : TipBot} {message : Str} {amount : Amount}
    {digits decimals spaces rest : Str} {q : ℚ} (ht : Taken o self message amount digits decimals spaces rest)
    (hr : Represents (numeralAtEnd (amount.before ++ amount.value)) q) :
    (numeralAtEnd amount.before = [] ∨ numeralAtEnd amount.before = ['+']) ∧ q = numeralValue amount.value := by
  obtain ⟨sign, ds, fs, hsign, he, hds, hfs, hne, rfl⟩ := hr
  obtain ⟨pre, hpre⟩ := exists_before amount.before
  have hchars := char_of_number ht.isDigits ht.isDecimals
  rw [← ht.value_eq] at hchars
  rw [numeralAtEnd_append hchars] at he
  have hmessage : message = (pre ++ sign) ++ (ds ++ (fs ++ (spaces ++ rest))) := by
    calc message = (pre ++ numeralAtEnd amount.before) ++ (amount.value ++ (spaces ++ rest)) := by
          rw [← hpre, ht.value_eq, List.append_assoc]
          exact ht.message_eq
      _ = pre ++ ((numeralAtEnd amount.before ++ amount.value) ++ (spaces ++ rest)) := by simp
      _ = (pre ++ sign) ++ (ds ++ (fs ++ (spaces ++ rest))) := by rw [he]; simp
  have hlength : amount.before.length ≤ (pre ++ sign).length := by
    by_contra hlt
    exact amountPattern_ne_nil hds hfs ht.isBlank ht.unit_here (ht.first _ _ hmessage (by omega))
  have hstem : numeralAtEnd amount.before <+: sign := by
    apply List.prefix_of_prefix_length_le (List.prefix_append _ amount.value) (he ▸ List.prefix_append sign _)
    have := congrArg List.length hpre
    simp only [List.length_append] at hlength this
    omega
  generalize numeralAtEnd amount.before = stem at he hstem
  rcases hsign with rfl | rfl
  · obtain rfl : stem = [] := List.prefix_nil.mp hstem
    exact ⟨Or.inl rfl, congrArg numeralValue he.symm⟩
  · rcases List.prefix_cons_iff.mp hstem with rfl | ⟨t, rfl, hnil⟩
    · refine absurd ?_ (plus_not_mem hchars)
      rw [show amount.value = '+' :: (ds ++ fs) from he]
      exact List.mem_cons_self
    · obtain rfl : t = [] := List.prefix_nil.mp hnil
      exact ⟨Or.inr rfl, congrArg numeralValue (List.cons.inj he).2.symm⟩

theorem numeralValue_eq {digits decimals : Str} (hdigits : ∀ c ∈ digits, c.isDigit = true)
    (hdecimals : IsDecimals decimals) :
    numeralValue (digits ++ decimals) = digitsValue digits + fraction (digits ++ decimals) := by
  unfold numeralValue
  rw [(split_number hdigits hdecimals).1]

def tips : Config where
  selfId := "BOT".toList
  getDMByUserId := fun _ => none
  TESTNET := false
  TICKER := "BTC".toList
  DEMAND := false
  fromBase58Check := fun _ => none

def twoUsers : TipBot := { start with users := ["U1".toList, "U2".toList], userRegex := ["U1".toList, "U2".toList] }

end TipBot

end SlackTipbot
