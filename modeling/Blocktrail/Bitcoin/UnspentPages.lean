import Mathlib.Data.List.Basic
import Blocktrail.Lib.Text

/-! # Pages of unspent outputs

The data API answers `address/unspent-outputs` page by page, and the page after the last output is empty.
-/

open Text

namespace Bitcoin

/-- An output as the API lists it. -/
structure ApiUtxo where
  hash : Str
  index : Nat
  value : Int
  address : Str
  script_hex : Str
deriving DecidableEq

/-- The answer of the API to all pages of a query: an empty page follows those with outputs, or one that fails. -/
structure PagedAnswer (ε : Type) where
  pages : List (List ApiUtxo)
  nonempty : ∀ page ∈ pages, page ≠ []
  last : Except ε Unit

variable {ε : Type}

/-- Pages count from 1. -/
def PagedAnswer.page (a : PagedAnswer ε) (n : Nat) : Except ε (List ApiUtxo) :=
  match a.pages[n - 1]? with
  | some outputs => .ok outputs
  | none => a.last.map fun _ => []

def PagedAnswer.outputs (a : PagedAnswer ε) : List ApiUtxo := a.pages.flatten

end Bitcoin
