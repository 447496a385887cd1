import Blocktrail.Bitcoin.OutputScript
import Blocktrail.Lib.Encoding

/-! # What is paid to -/

open Text Bitcoin

namespace JsSdk

/-! ## Values -/

/-- A value that a payment is given with. What is no text, buffer or array is known by what it prints as, and an array
also by the bytes that a buffer of it has. -/
inductive PayValue
  | string (s : Str)
  | printed (text : Str)
  | buffer (bytes : Bytes) (text : Str)
  | array (bytes : Bytes) (text : Str)
  | undefined

/-- What `parseInt(x, 10)` returns. -/
inductive JsNumber
  | nan
  | infinity (negative : Bool)
  | int (z : Int)
deriving DecidableEq

def PayValue.toString : PayValue → Except JsError Str
  | string s => .ok s
  | printed text => .ok text
  | buffer _ text => .ok text
  | array _ text => .ok text
  | undefined => .error ⟨"TypeError", "Cannot read property 'toString' of undefined"⟩

def parseIntOf (text : Str) : JsNumber :=
  match parseInt10 text with
  | none => .nan
  | some z =>
    match double z with
    | none => .infinity (z < 0)
    | some z => .int z

/-- Of the multiples of `p` next to the double `m`, the nearest one that is read as `m`. -/
def nearestMultiple (p m : Nat) : Option Nat :=
  let low := m / p * p
  let high := low + p
  let lowIsNear := m - low < high - m ∨ m - low = high - m ∧ m / p % 2 = 0
  if doubleNat low = some m ∧ (lowIsNear ∨ doubleNat high ≠ some m) then some low
  else if doubleNat high = some m then some high
  else none

/-- The numeral with the fewest digits, followed by zeros, that is read as the double `m`. -/
def shortestNumeral (m : Nat) : Nat → Nat
  | 0 => m
  | e + 1 => (nearestMultiple (10 ^ (e + 1)) m).getD (shortestNumeral m e)

/-- An integer as it is printed, with an exponent from `10^21` on. -/
def integerText (z : Int) : Str :=
  let m := z.natAbs
  let digits := dec (shortestNumeral m ((dec m).length - 1))
  let text :=
    if m < 10 ^ 21 then digits
    else
      let significant := (digits.reverse.dropWhile (· = '0')).reverse
      significant.take 1 ++ (if significant.length = 1 then [] else '.' :: significant.drop 1) ++ "e+".toList ++
        dec (digits.length - 1)
  if z < 0 then '-' :: text else text

def JsNumber.toString : JsNumber → Str
  | nan => "NaN"
  | infinity negative => if negative then "-Infinity" else "Infinity"
  | int z => integerText z

/-- `parseInt(text, 10).toString() === text`. -/
def isInteger (text : Str) : Bool := (parseIntOf text).toString = text

example : isInteger "123456789012345680000" = true := by decide +kernel
example : isInteger "1e+21" = false := by decide +kernel

/-! ## Forms -/

/-- An element of the list form. -/
inductive PayItem
  | primitive
  | null
  | array (values : List PayValue)
  | object (fields : List (Str × PayValue))

/-- The forms of `pay`: a list, a map of addresses in the order of its keys, `null`, or no object. -/
inductive Pay
  | list (items : List PayItem)
  | map (entries : List (Str × PayValue))
  | null
  | other

/-- `obj`, as `readFunc` leaves it. -/
structure PayObject where
  address : PayValue
  scriptPubKey : PayValue
  value : PayValue

def Wallet.OP_RETURN : Str := "opreturn"

/-- `new Buffer(value, 'utf-8')`, of what is no buffer. -/
def newBuffer : PayValue → Except JsError Bytes
  | .string s => .ok (utf8 s)
  | .buffer bytes _ => .ok bytes
  | .array bytes _ => .ok bytes
  | .printed _ => .error ⟨"TypeError", "If encoding is specified then the first argument must be a string"⟩
  | .undefined => .error ⟨"TypeError", "The first argument must be a string or a buffer"⟩

def nullDataOutput (data : Bytes) : Bytes := compile [.op OP_RETURN, .data data]

/-- `readFunc` of a list. -/
def readItem : PayItem → Except JsError PayObject
  | .primitive => .error ⟨"Error", "Invalid transaction output for numerically indexed list [1]"⟩
  | .null => .error ⟨"TypeError", "Cannot convert undefined or null to object"⟩
  | .array [address, value] => .ok ⟨address, .undefined, value⟩
  | .array _ => .error ⟨"Error", "Invalid transaction output for numerically indexed list [2]"⟩
  | .object fields =>
    match fields.lookup ("scriptPubKey" : Str), fields.lookup ("address" : Str), fields.lookup ("value" : Str) with
    | some scriptPubKey, _, some value => .ok ⟨.undefined, scriptPubKey, value⟩
    | none, some address, some value => .ok ⟨address, .undefined, value⟩
    | _, _, _ => .error ⟨"Error", "Invalid transaction output for numerically indexed list [2]"⟩

/-- `readFunc` of a map. -/
def readEntry (entry : Str × PayValue) : Except JsError PayObject := do
  let address := trim entry.1
  if address = Wallet.OP_RETURN then
    let datachunk ← newBuffer entry.2
    return ⟨.undefined, .string (Hex.encode (nullDataOutput datachunk)), .printed "0"⟩
  else return ⟨.string address, .undefined, entry.2⟩

/-- What the keys of `pay` are read as. -/
def readAll : Pay → Except JsError (List (Except JsError PayObject))
  | .list items => .ok (items.map readItem)
  | .map entries => .ok (entries.map readEntry)
  | .null => .error ⟨"TypeError", "Cannot convert undefined or null to object"⟩
  | .other => .error ⟨"Error", "Invalid input"⟩

/-! ## Outputs -/

structure PayOutput where
  scriptPubKey : PayValue
  value : JsNumber

variable (d : AddressDecoder)

/-- The script in place of an address. -/
def resolveScript (obj : PayObject) (network : Network) (allowCashAddr : Bool) : Except JsError PayValue :=
  match obj.address with
  | .string address =>
    match (do
      let _ ← getAddressAndType d address network allowCashAddr
      toOutputScript d address network allowCashAddr) with
    | .ok script => .ok (.string (Hex.encode script))
    | .error e => .error (invalidAddressError ("Invalid address [" ++ address ++ "] (" ++ e.message ++ ")"))
  | _ => .ok obj.scriptPubKey

/-- `obj.scriptPubKey.slice(0, 2) !== "6a"`: a part of a buffer or an array is no text. -/
def isNoReturn : PayValue → Except JsError Bool
  | .string s => .ok (s.take 2 != "6a".toList)
  | .buffer _ _ => .ok true
  | .array _ _ => .ok true
  | .printed _ => .error ⟨"TypeError", "obj.scriptPubKey.slice is not a function"⟩
  | .undefined => .error ⟨"TypeError", "Cannot read property 'slice' of undefined"⟩

def walletSendError (message : Str) : JsError := ⟨"WalletSendError", message⟩

def DUST : Int := 2730

/-- The checks of a value that is sent. -/
def checkValue : JsNumber → Except JsError Unit
  | .nan => .error (walletSendError "Values should be non zero")
  | .infinity false => .ok ()
  | .infinity true => .error (walletSendError "Values should be more than dust (2730)")
  | .int z =>
    if z = 0 then .error (walletSendError "Values should be non zero")
    else if z ≤ DUST then .error (walletSendError "Values should be more than dust (2730)")
    else .ok ()

def checkInteger (text : Str) : Except JsError Unit :=
  if isInteger text then .ok () else .error (walletSendError "Values should be in Satoshis")

/-- The checks of an output that is no `OP_RETURN`. -/
def checkOutput (scriptPubKey : PayValue) (value : JsNumber) : Except JsError Unit := do
  let noReturn ← isNoReturn scriptPubKey
  if noReturn then checkValue value else .ok ()

/-- What the loop makes of an object. -/
def toOutput (network : Network) (allowCashAddr : Bool) (obj : PayObject) : Except JsError PayOutput := do
  let text ← obj.value.toString
  checkInteger text
  let scriptPubKey ← resolveScript d obj network allowCashAddr
  checkOutput scriptPubKey (parseIntOf text)
  return ⟨scriptPubKey, parseIntOf text⟩

/-- `Wallet.convertPayToOutputs`. -/
def convertPayToOutputs (pay : Pay) (network : Network) (allowCashAddr : Bool) : Except JsError (List PayOutput) := do
  let objects ← readAll pay
  objects.mapM fun obj => do toOutput d network allowCashAddr (← obj)

end JsSdk
