import Blocktrail.Bitcoin.Sample
import Blocktrail.JsSdk.PayTo
import Blocktrail.Lib.Throwing

/-! # Payments, in whatever form they are given -/

open Text Throwing Bitcoin

namespace JsSdk

/-! ## The payments of a form -/

/-- A script and the value that is paid to it, as it is printed. -/
structure Payment where
  scriptPubKey : PayValue
  value : Str

def PayValue.IsScript : PayValue → Prop
  | string _ => True
  | buffer _ _ => True
  | array _ _ => True
  | _ => False

section Forms

variable (d : AddressDecoder) (network : Network) (allowCashAddr : Bool)

def PaysTo (address : Str) (script : Bytes) : Prop :=
  (∃ decoded, getAddressAndType d address network allowCashAddr = .ok decoded) ∧
    toOutputScript d address network allowCashAddr = .ok script

/-- What an element of a list pays: `[address, value]`, `{scriptPubKey, value}` or `{address, value}`. -/
inductive ItemPays : PayItem → Payment → Prop
  | pair {address text : Str} {script : Bytes} {value : PayValue} (h : PaysTo d network allowCashAddr address script)
      (hv : value.toString = .ok text) :
      ItemPays (.array [.string address, value]) ⟨.string (Hex.encode script), text⟩
  | script {fields : List (Str × PayValue)} {scriptPubKey value : PayValue} {text : Str}
      (hs : fields.lookup ("scriptPubKey" : Str) = some scriptPubKey) (hscript : scriptPubKey.IsScript)
      (hvalue : fields.lookup ("value" : Str) = some value) (hv : value.toString = .ok text) :
      ItemPays (.object fields) ⟨scriptPubKey, text⟩
  | address {fields : List (Str × PayValue)} {address text : Str} {script : Bytes} {value : PayValue}
      (hs : fields.lookup ("scriptPubKey" : Str) = none)
      (ha : fields.lookup ("address" : Str) = some (.string address)) (h : PaysTo d network allowCashAddr address script)
      (hvalue : fields.lookup ("value" : Str) = some value) (hv : value.toString = .ok text) :
      ItemPays (.object fields) ⟨.string (Hex.encode script), text⟩

/-- What an entry of a map pays: a value to an address, or nothing to the data under `OP_RETURN`. -/
inductive EntryPays : Str × PayValue → Payment → Prop
  | address {key text : Str} {script : Bytes} {value : PayValue} (hk : trim key ≠ Wallet.OP_RETURN)
      (h : PaysTo d network allowCashAddr (trim key) script) (hv : value.toString = .ok text) :
      EntryPays (key, value) ⟨.string (Hex.encode script), text⟩
  | opReturn {key : Str} {value : PayValue} {data : Bytes} (hk : trim key = Wallet.OP_RETURN)
      (hd : newBuffer value = .ok data) :
      EntryPays (key, value) ⟨.string (Hex.encode (nullDataOutput data)), "0"⟩

/-- `pay` gives these payments, in order and as often as they are listed. -/
inductive Describes : Pay → List Payment → Prop
  | list {items : List PayItem} {payments : List Payment}
      (h : List.Forall₂ (ItemPays d network allowCashAddr) items payments) : Describes (.list items) payments
  | map {entries : List (Str × PayValue)} {payments : List Payment}
      (h : List.Forall₂ (EntryPays d network allowCashAddr) entries payments) : Describes (.map entries) payments

end Forms

/-! ## Outputs -/

/-- `obj` as `convertPayToOutputs` returns it. What other fields it has is not asked for. -/
def IsOutputObject (item : PayItem) (output : PayOutput) : Prop :=
  ∃ fields, item = .object fields ∧ fields.lookup ("scriptPubKey" : Str) = some output.scriptPubKey ∧
    fields.lookup ("value" : Str) = some (.printed output.value.toString)

/-- The script starts with the opcode `OP_RETURN`. -/
def PayValue.carriesReturn : PayValue → Bool
  | string ('6' :: c :: _) => c = 'a' ∨ c = 'A'
  | buffer bytes _ => bytes.head? = some 0x6a
  | array bytes _ => bytes.head? = some 0x6a
  | _ => false

/-- An integer: not negative where the script is `OP_RETURN`, above `DUST` elsewhere. -/
def PayOutput.Valid (output : PayOutput) : Prop :=
  ∃ z : Int, output.value = .int z ∧ if output.scriptPubKey.carriesReturn then 0 ≤ z else DUST < z

/-- The payments decide what is returned, an own result is returned again, and all else is rejected. -/
structure Converts (d : AddressDecoder) (network : Network) (allowCashAddr : Bool) (pay : Pay) : Prop where
  same : ∀ payments pay', Describes d network allowCashAddr pay payments →
    Describes d network allowCashAddr pay' payments →
    convertPayToOutputs d pay network allowCashAddr = convertPayToOutputs d pay' network allowCashAddr
  complete : ∀ payments outputs, Describes d network allowCashAddr pay payments →
    convertPayToOutputs d pay network allowCashAddr = .ok outputs →
    outputs.map (fun output => (output.scriptPubKey, output.value.toString)) =
      payments.map fun payment => (payment.scriptPubKey, payment.value)
  idempotent : ∀ outputs, convertPayToOutputs d pay network allowCashAddr = .ok outputs →
    ∀ items, List.Forall₂ IsOutputObject items outputs →
      convertPayToOutputs d (.list items) network allowCashAddr = .ok outputs
  valid : ∀ outputs, convertPayToOutputs d pay network allowCashAddr = .ok outputs → ∀ output ∈ outputs, output.Valid
  rejected : (∀ payments, ¬Describes d network allowCashAddr pay payments) →
    ∃ e, convertPayToOutputs d pay network allowCashAddr = .error e

/-! ## One element -/

/-- What the loop makes of a payment. -/
def Payment.output (payment : Payment) : Except JsError PayOutput := do
  checkInteger payment.value
  checkOutput payment.scriptPubKey (parseIntOf payment.value)
  return ⟨payment.scriptPubKey, parseIntOf payment.value⟩

section Elements

variable {d : AddressDecoder} {network : Network} {allowCashAddr : Bool}

theorem PaysTo.resolve {address : Str} {script : Bytes} (h : PaysTo d network allowCashAddr address script)
    (value : PayValue) :
    resolveScript d ⟨.string address, .undefined, value⟩ network allowCashAddr = .ok (.string (Hex.encode script)) := by
  obtain ⟨⟨decoded, hdecoded⟩, hscript⟩ := h
  unfold resolveScript
  dsimp only
  rw [hdecoded, ok_bind, hscript]

theorem paysTo_of_resolve {address : Str} {value script : PayValue}
    (h : resolveScript d ⟨.string address, .undefined, value⟩ network allowCashAddr = .ok script) :
    ∃ bytes, PaysTo d network allowCashAddr address bytes ∧ script = .string (Hex.encode bytes) := by
  unfold resolveScript at h
  dsimp only at h
  split at h
  next bytes hbytes =>
    obtain ⟨decoded, hdecoded, hscript⟩ := exists_of_bind_ok hbytes
    cases h
    exact ⟨bytes, ⟨⟨decoded, hdecoded⟩, hscript⟩, rfl⟩
  next => cases h

theorem toOutput_eq {obj : PayObject} {text : Str} {script : PayValue} (hv : obj.value.toString = .ok text)
    (hs : resolveScript d obj network allowCashAddr = .ok script) :
    toOutput d network allowCashAddr obj = Payment.output ⟨script, text⟩ := by
  unfold toOutput Payment.output
  rw [hv, ok_bind, hs]
  rfl

theorem isScript_of_checkOutput {script : PayValue} {value : JsNumber} (h : checkOutput script value = .ok ()) :
    script.IsScript := by
  unfold checkOutput isNoReturn at h
  cases script with
  | string s => trivial
  | buffer bytes text => trivial
  | array bytes text => trivial
  | printed text => cases h
  | undefined => cases h

theorem parts_of_toOutput {obj : PayObject} {output : PayOutput}
    (h : toOutput d network allowCashAddr obj = .ok output) :
    ∃ text script, obj.value.toString = .ok text ∧ resolveScript d obj network allowCashAddr = .ok script ∧
      script.IsScript := by
  unfold toOutput at h
  obtain ⟨text, hv, h⟩ := exists_of_bind_ok h
  obtain ⟨_, -, h⟩ := exists_of_bind_ok h
  obtain ⟨script, hs, h⟩ := exists_of_bind_ok h
  obtain ⟨_, hc, -⟩ := exists_of_bind_ok h
  exact ⟨text, script, hv, hs, isScript_of_checkOutput hc⟩

theorem ItemPays.output_eq {item : PayItem} {payment : Payment} (h : ItemPays d network allowCashAddr item payment) :
    (do toOutput d network allowCashAddr (← readItem item)) = payment.output := by
  cases h with
  | pair h hv =>
    unfold readItem
    rw [ok_bind]
    exact toOutput_eq hv (h.resolve _)
  | script hs hscript hvalue hv =>
    unfold readItem
    simp only [hs, hvalue]
    rw [ok_bind]
    exact toOutput_eq hv rfl
  | address hs ha h hvalue hv =>
    unfold readItem
    simp only [hs, ha, hvalue]
    rw [ok_bind]
    exact toOutput_eq hv (h.resolve _)

theorem exists_itemPays {item : PayItem} {output : PayOutput}
    (h : (do toOutput d network allowCashAddr (← readItem item)) = .ok output) :
    ∃ payment, ItemPays d network allowCashAddr item payment := by
  obtain ⟨obj, hread, hout⟩ := exists_of_bind_ok h
  obtain ⟨text, script, hv, hs, hscript⟩ := parts_of_toOutput hout
  unfold readItem at hread
  split at hread
  next => cases hread
  next => cases hread
  next address value =>
    cases hread
    cases address with
    | string address =>
      obtain ⟨bytes, hpays, rfl⟩ := paysTo_of_resolve hs
      exact ⟨_, .pair hpays hv⟩
    | printed text => cases hs; cases hscript
    | buffer bytes text => cases hs; cases hscript
    | array bytes text => cases hs; cases hscript
    | undefined => cases hs; cases hscript
  next => cases hread
  next fields =>
    split at hread
    next scriptPubKey _ value hfield hvalue =>
      cases hread
      cases hs
      exact ⟨_, .script hfield hscript hvalue hv⟩
    next address value hnone hfield hvalue =>
      cases hread
      cases address with
      | string address =>
        obtain ⟨bytes, hpays, rfl⟩ := paysTo_of_resolve hs
        exact ⟨_, .address hnone hfield hpays hvalue hv⟩
      | printed text => cases hs; cases hscript
      | buffer bytes text => cases hs; cases hscript
      | array bytes text => cases hs; cases hscript
      | undefined => cases hs; cases hscript
    next => cases hread

theorem EntryPays.output_eq {entry : Str × PayValue} {payment : Payment}
    (h : EntryPays d network allowCashAddr entry payment) :
    (do toOutput d network allowCashAddr (← readEntry entry)) = payment.output := by
  cases h with
  | address hk h hv =>
    unfold readEntry
    dsimp only
    rw [if_neg hk]
    exact toOutput_eq hv (h.resolve _)
  | @opReturn key value data hk hd =>
    unfold readEntry
    dsimp only
    rw [if_pos hk, hd]
    show toOutput d network allowCashAddr ⟨.undefined, .string (Hex.encode (nullDataOutput data)), .printed "0"⟩ = _
    exact toOutput_eq rfl rfl

theorem exists_entryPays {entry : Str × PayValue} {output : PayOutput}
    (h : (do toOutput d network allowCashAddr (← readEntry entry)) = .ok output) :
    ∃ payment, EntryPays d network allowCashAddr entry payment := by
  obtain ⟨obj, hread, hout⟩ := exists_of_bind_ok h
  obtain ⟨text, script, hv, hs, hscript⟩ := parts_of_toOutput hout
  obtain ⟨key, value⟩ := entry
  unfold readEntry at hread
  dsimp only at hread
  split at hread
  next hk =>
    obtain ⟨data, hd, -⟩ := exists_of_bind_ok hread
    exact ⟨_, .opReturn hk hd⟩
  next hk =>
    cases hread
    obtain ⟨bytes, hpays, rfl⟩ := paysTo_of_resolve hs
    exact ⟨_, .address hk hpays hv⟩

end Elements

/-! ## The whole specification -/

theorem mapM_eq_of_forall₂ {α β γ ε : Type} {f : α → Except ε γ} {g : β → Except ε γ} {l : List α} {m : List β}
    (h : List.Forall₂ (fun a b => f a = g b) l m) : l.mapM f = m.mapM g := by
  induction h with
  | nil => rfl
  | cons hab _ ih => rw [List.mapM_cons, List.mapM_cons, hab, ih]

theorem mapM_ok_iff_forall₂ {α β ε : Type} {f : α → Except ε β} {l : List α} {m : List β} :
    l.mapM f = .ok m ↔ List.Forall₂ (fun a b => f a = .ok b) l m := by
  constructor
  · intro h
    induction l generalizing m with
    | nil =>
      cases h
      exact .nil
    | cons a l ih =>
      rw [List.mapM_cons] at h
      obtain ⟨b, hb, h⟩ := exists_of_bind_ok h
      obtain ⟨bs, hbs, h⟩ := exists_of_bind_ok h
      cases h
      exact .cons hb (ih hbs)
  · intro h
    induction h with
    | nil => rfl
    | cons hab _ ih =>
      rw [List.mapM_cons, hab, ok_bind, ih]
      rfl

theorem exists_forall₂ {α β γ : Type} {R : α → γ → Prop} {S : α → β → Prop} {l : List α} {m : List γ}
    (h : List.Forall₂ R l m) (hS : ∀ a c, R a c → ∃ b, S a b) : ∃ bs, List.Forall₂ S l bs := by
  induction h with
  | nil => exact ⟨[], .nil⟩
  | cons hac _ ih =>
    obtain ⟨bs, hbs⟩ := ih
    obtain ⟨b, hb⟩ := hS _ _ hac
    exact ⟨b :: bs, .cons hb hbs⟩

section Specification

variable {d : AddressDecoder} {network : Network} {allowCashAddr : Bool} {pay : Pay}

/-- The payments are all that the outputs depend on. -/
theorem Describes.convert {payments : List Payment} (h : Describes d network allowCashAddr pay payments) :
    convertPayToOutputs d pay network allowCashAddr = payments.mapM Payment.output := by
  unfold convertPayToOutputs
  cases h with
  | list h =>
    apply mapM_eq_of_forall₂
    rw [List.forall₂_map_left_iff]
    exact h.imp fun _ _ hp => hp.output_eq
  | map h =>
    apply mapM_eq_of_forall₂
    rw [List.forall₂_map_left_iff]
    exact h.imp fun _ _ hp => hp.output_eq

theorem exists_describes {outputs : List PayOutput}
    (h : convertPayToOutputs d pay network allowCashAddr = .ok outputs) :
    ∃ payments, Describes d network allowCashAddr pay payments := by
  unfold convertPayToOutputs at h
  cases pay with
  | list items =>
    have hall := mapM_ok_iff_forall₂.mp h
    rw [List.forall₂_map_left_iff] at hall
    obtain ⟨payments, hpayments⟩ := exists_forall₂ hall fun _ _ => exists_itemPays
    exact ⟨payments, .list hpayments⟩
  | map entries =>
    have hall := mapM_ok_iff_forall₂.mp h
    rw [List.forall₂_map_left_iff] at hall
    obtain ⟨payments, hpayments⟩ := exists_forall₂ hall fun _ _ => exists_entryPays
    exact ⟨payments, .map hpayments⟩
  | null => cases h
  | other => cases h

end Specification

/-! ## When all that is returned is valid -/

/-- What the code asks of a payment. -/
def Payment.Checked (payment : Payment) : Prop :=
  isInteger payment.value = true ∧
    (isNoReturn payment.scriptPubKey = .ok false ∨ ∃ z : Int, parseIntOf payment.value = .int z ∧ DUST < z)

theorem isInteger_infinity {text : Str} {negative : Bool} (h : parseIntOf text = .infinity negative) :
    isInteger text = false := by
  by_contra htrue
  have htext : (parseIntOf text).toString = text := of_decide_eq_true (Bool.eq_true_of_not_eq_false htrue)
  rw [h] at htext
  cases negative with
  | true =>
    rw [← htext] at h
    exact absurd h (by decide +kernel)
  | false =>
    rw [← htext] at h
    exact absurd h (by decide +kernel)

theorem checkValue_ok_iff {text : Str} (hi : isInteger text = true) :
    checkValue (parseIntOf text) = .ok () ↔ ∃ z : Int, parseIntOf text = .int z ∧ DUST < z := by
  cases hp : parseIntOf text with
  | nan => simp [checkValue]
  | infinity negative =>
    rw [isInteger_infinity hp] at hi
    cases hi
  | int z =>
    unfold checkValue
    dsimp only
    split_ifs with hzero hdust
    · simp [hzero, DUST]
    · simp; omega
    · simp; omega

theorem checkInteger_ok_iff {text : Str} : checkInteger text = .ok () ↔ isInteger text = true := by
  unfold checkInteger
  split
  next h => simp [h]
  next h => simp [h]

theorem checkOutput_ok_iff {script : PayValue} {text : Str} (hi : isInteger text = true) :
    checkOutput script (parseIntOf text) = .ok () ↔
      script.IsScript ∧ (isNoReturn script = .ok false ∨ ∃ z : Int, parseIntOf text = .int z ∧ DUST < z) := by
  constructor
  · intro h
    refine ⟨isScript_of_checkOutput h, ?_⟩
    unfold checkOutput at h
    obtain ⟨noReturn, hn, h⟩ := exists_of_bind_ok h
    cases noReturn with
    | false => exact Or.inl hn
    | true => exact Or.inr ((checkValue_ok_iff hi).mp h)
  · rintro ⟨hscript, hreturn | hvalue⟩
    · unfold checkOutput
      rw [hreturn]
      rfl
    · obtain ⟨noReturn, hn⟩ : ∃ noReturn, isNoReturn script = .ok noReturn := by
        cases script with
        | string s => exact ⟨_, rfl⟩
        | buffer bytes text => exact ⟨_, rfl⟩
        | array bytes text => exact ⟨_, rfl⟩
        | printed text => cases hscript
        | undefined => cases hscript
      unfold checkOutput
      rw [hn, ok_bind, (checkValue_ok_iff hi).mpr hvalue, ite_self]

theorem Payment.output_ok_iff {payment : Payment} {output : PayOutput} :
    payment.output = .ok output ↔
      payment.Checked ∧ payment.scriptPubKey.IsScript ∧ output = ⟨payment.scriptPubKey, parseIntOf payment.value⟩ := by
  constructor
  · intro h
    unfold Payment.output at h
    obtain ⟨_, hi, h⟩ := exists_of_bind_ok h
    obtain ⟨_, hc, h⟩ := exists_of_bind_ok h
    cases h
    have hinteger := checkInteger_ok_iff.mp hi
    obtain ⟨hscript, hvalue⟩ := (checkOutput_ok_iff hinteger).mp hc
    exact ⟨⟨hinteger, hvalue⟩, hscript, rfl⟩
  · rintro ⟨⟨hinteger, hvalue⟩, hscript, rfl⟩
    unfold Payment.output
    rw [checkInteger_ok_iff.mpr hinteger, ok_bind, (checkOutput_ok_iff hinteger).mpr ⟨hscript, hvalue⟩]
    rfl

theorem carriesReturn_of_isNoReturn {script : PayValue} (h : isNoReturn script = .ok false) :
    script.carriesReturn = true := by
  cases script with
  | string s =>
    have htake : s.take 2 = "6a".toList := by simpa [isNoReturn] using h
    obtain ⟨rest, rfl⟩ : ∃ rest, s = '6' :: 'a' :: rest := ⟨s.drop 2, by rw [← List.take_append_drop 2 s, htake]; rfl⟩
    rfl
  | buffer bytes text => cases h
  | array bytes text => cases h
  | printed text => cases h
  | undefined => cases h

/-- An output is valid, unless its value was not checked because of its script. -/
theorem Payment.Checked.valid_iff {payment : Payment} (h : payment.Checked) :
    PayOutput.Valid ⟨payment.scriptPubKey, parseIntOf payment.value⟩ ↔
      (isNoReturn payment.scriptPubKey = .ok false → ∃ z : Int, 0 ≤ z ∧ parseIntOf payment.value = .int z) := by
  unfold PayOutput.Valid
  by_cases hreturn : isNoReturn payment.scriptPubKey = .ok false
  · simp only [carriesReturn_of_isNoReturn hreturn, hreturn, if_true, true_imp_iff]
    simp only [and_comm]
  · obtain ⟨z, hz, hdust⟩ := h.2.resolve_left hreturn
    refine iff_of_true ⟨z, hz, ?_⟩ fun h => absurd h hreturn
    unfold DUST at hdust ⊢
    split <;> omega

section Specification

variable {d : AddressDecoder} {network : Network} {allowCashAddr : Bool} {pay : Pay} {outputs : List PayOutput}

/-- An output, as it was returned, is read as the payment it came from. -/
theorem IsOutputObject.itemPays {item : PayItem} {payment : Payment} {output : PayOutput}
    (ho : payment.output = .ok output) (h : IsOutputObject item output) :
    ItemPays d network allowCashAddr item payment := by
  obtain ⟨hchecked, hscript, rfl⟩ := Payment.output_ok_iff.mp ho
  obtain ⟨fields, rfl, hfield, hvalue⟩ := h
  have htext : (parseIntOf payment.value).toString = payment.value := of_decide_eq_true hchecked.1
  exact .script hfield hscript hvalue (congrArg Except.ok htext)

theorem Describes.valid_iff {payments : List Payment} (h : Describes d network allowCashAddr pay payments)
    (hok : convertPayToOutputs d pay network allowCashAddr = .ok outputs) :
    (∀ output ∈ outputs, output.Valid) ↔
      ∀ payment ∈ payments, isNoReturn payment.scriptPubKey = .ok false →
        ∃ z : Int, 0 ≤ z ∧ parseIntOf payment.value = .int z := by
  rw [h.convert, mapM_ok_iff_forall₂] at hok
  clear h
  induction hok with
  | nil => simp
  | cons hp _ ih =>
    obtain ⟨hchecked, -, rfl⟩ := Payment.output_ok_iff.mp hp
    rw [List.forall_mem_cons, List.forall_mem_cons, ih, hchecked.valid_iff]

theorem Describes.checked {payments : List Payment} (h : Describes d network allowCashAddr pay payments)
    (hok : convertPayToOutputs d pay network allowCashAddr = .ok outputs) :
    ∀ payment ∈ payments, payment.Checked := by
  rw [h.convert, mapM_ok_iff_forall₂] at hok
  clear h
  induction hok with
  | nil => simp
  | cons hp _ ih =>
    rw [List.forall_mem_cons]
    exact ⟨(Payment.output_ok_iff.mp hp).1, ih⟩

theorem Describes.isScript {payments : List Payment} (h : Describes d network allowCashAddr pay payments) :
    ∀ payment ∈ payments, payment.scriptPubKey.IsScript := by
  cases h with
  | list h =>
    induction h with
    | nil => simp
    | cons hp _ ih =>
      rw [List.forall_mem_cons]
      refine ⟨?_, ih⟩
      cases hp with
      | pair => trivial
      | script _ hscript => exact hscript
      | address => trivial
  | map h =>
    induction h with
    | nil => simp
    | cons hp _ ih =>
      rw [List.forall_mem_cons]
      refine ⟨?_, ih⟩
      cases hp with
      | address => trivial
      | opReturn => trivial

theorem Describes.exists_ok {payments : List Payment} (h : Describes d network allowCashAddr pay payments)
    (hchecked : ∀ payment ∈ payments, payment.Checked) :
    ∃ outputs, convertPayToOutputs d pay network allowCashAddr = .ok outputs := by
  refine ⟨payments.map fun payment => ⟨payment.scriptPubKey, parseIntOf payment.value⟩, ?_⟩
  rw [h.convert]
  apply mapM_ok
  intro payment hpayment
  exact Payment.output_ok_iff.mpr ⟨hchecked payment hpayment, h.isScript payment hpayment, rfl⟩

theorem Describes.complete {payments : List Payment} (h : Describes d network allowCashAddr pay payments)
    (hok : convertPayToOutputs d pay network allowCashAddr = .ok outputs) :
    outputs.map (fun output => (output.scriptPubKey, output.value.toString)) =
      payments.map fun payment => (payment.scriptPubKey, payment.value) := by
  rw [h.convert, mapM_ok_iff_forall₂] at hok
  clear h
  induction hok with
  | nil => rfl
  | cons hp _ ih =>
    obtain ⟨hchecked, -, rfl⟩ := Payment.output_ok_iff.mp hp
    have htext : (parseIntOf _).toString = _ := of_decide_eq_true hchecked.1
    rw [List.map_cons, List.map_cons, ih, htext]

/-- What was returned describes the payments again. -/
theorem Describes.again {payments : List Payment} (h : Describes d network allowCashAddr pay payments)
    (hok : convertPayToOutputs d pay network allowCashAddr = .ok outputs) {items : List PayItem}
    (hitems : List.Forall₂ IsOutputObject items outputs) :
    Describes d network allowCashAddr (.list items) payments := by
  rw [h.convert, mapM_ok_iff_forall₂] at hok
  clear h
  apply Describes.list
  induction hok generalizing items with
  | nil =>
    cases hitems
    exact .nil
  | cons hp _ ih =>
    cases hitems with
    | cons hitem hrest => exact .cons (hitem.itemPays hp) (ih hrest)

theorem convertPayToOutputs_iff (d : AddressDecoder) (network : Network) (allowCashAddr : Bool) (pay : Pay) :
    Converts d network allowCashAddr pay ↔
      ∀ payments, Describes d network allowCashAddr pay payments → (∀ payment ∈ payments, payment.Checked) →
        ∀ payment ∈ payments, isNoReturn payment.scriptPubKey = .ok false →
          ∃ z : Int, 0 ≤ z ∧ parseIntOf payment.value = .int z := by
  constructor
  · intro h payments hpayments hchecked
    obtain ⟨outputs, hok⟩ := hpayments.exists_ok hchecked
    exact (hpayments.valid_iff hok).mp (h.valid outputs hok)
  · intro h
    refine ⟨?_, ?_, ?_, ?_, ?_⟩
    · intro payments pay' hpay hpay'
      rw [hpay.convert, hpay'.convert]
    · exact fun payments outputs hpay hok => hpay.complete hok
    · intro outputs hok items hitems
      obtain ⟨payments, hpay⟩ := exists_describes hok
      rw [← hok, hpay.convert, (hpay.again hok hitems).convert]
    · intro outputs hok
      obtain ⟨payments, hpay⟩ := exists_describes hok
      exact (hpay.valid_iff hok).mpr (h payments hpay (hpay.checked hok))
    · intro hnone
      cases hresult : convertPayToOutputs d pay network allowCashAddr with
      | ok outputs =>
        obtain ⟨payments, hpay⟩ := exists_describes hresult
        exact absurd hpay (hnone payments)
      | error e => exact ⟨e, rfl⟩

end Specification

/-- A negative value is paid to an `OP_RETURN` script. -/
theorem negative_value_accepted : ¬∀ pay, Converts sampleDecoder .bitcoin false pay := by
  intro h
  have hvalid := (h (.list [.object [("scriptPubKey", .string "6a0101"), ("value", .printed "-5")]])).valid
    [⟨.string "6a0101", .int (-5)⟩] (by rfl) _ (List.mem_singleton_self _)
  obtain ⟨z, hz, hle⟩ := hvalid
  cases hz
  exact absurd hle (by decide)

end JsSdk
