import Mathlib.Data.Int.Log
import Mathlib.Data.Rat.Floor

/-! # Doubles

A double is its value, and what is no finite number is `none`.
-/

namespace Doubles

/-- The nearest integer, of two the even one. -/
def roundEven (q : Rat) : Int :=
  let k := ⌊q⌋
  if q - k < 1 / 2 then k else if 1 / 2 < q - k then k + 1 else k + k % 2

/-- The nearest double: 53 bits, of which the last is never below `2 ^ (-1074)`. -/
def nearest (q : Rat) : Option Rat :=
  let unit : Rat := 2 ^ max (Int.log 2 |q| - 52) (-1074)
  let r := roundEven (q / unit) * unit
  if |r| < 2 ^ 1024 then some r else none

example : nearest (1 / 10) = some (3602879701896397 / 2 ^ 55) ∧ nearest (2 ^ 53 + 1) = some (2 ^ 53) := by decide +kernel

/-- The first digit of the shortest text that is read back as the double. -/
def leadingDigit (q : Rat) : Int :=
  let unit : Rat := 10 ^ Int.log 10 q
  let digit := ⌊q / unit⌋
  if nearest ((digit + 1) * unit) = some q then (if digit = 9 then 1 else digit + 1) else digit

/-- Whether the text of a positive double has an exponent. -/
def hasExponent (q : Rat) : Bool :=
  10 ^ 21 ≤ q || 0 < q && q < 1 / 10 ^ 6 && nearest (1 / 10 ^ 6) ≠ some q

/-- JavaScript's `parseInt(x, 10)`: the digits of the text up to a point or an exponent. -/
def parseInt (x : Rat) : Int :=
  let digits (q : Rat) : Int := if hasExponent q then leadingDigit q else ⌊q⌋
  if x < 0 then -digits (-x) else digits x

example : parseInt (-7 / 2) = -3 ∧ parseInt (10 ^ 21) = 1 := by decide +kernel

end Doubles
