import Blocktrail.Crypt.Bip39

/-! # Padding in front of the data

Data whose first byte is at most `0x80` is filled up from the front to the next multiple of four bytes, by one byte
at least.
-/

open Bitcoin

namespace Crypt

/-- The first byte, where there is one, is at most `0x80`. -/
def LowFirst (data : Bytes) : Prop := ∀ x, data[0]? = some x → x ≤ 0x80

def paddingOf (data : Bytes) : Bytes := List.replicate (4 - data.length % 4) 0x81

def padded (data : Bytes) : Bytes := paddingOf data ++ data

theorem length_padded (data : Bytes) : (padded data).length = 4 * (data.length / 4 + 1) := by
  rw [padded, paddingOf, List.length_append, List.length_replicate]
  omega

theorem isEntropy_padded {data : Bytes} (h : data.length ≤ 1023) : Bip39.IsEntropy (padded data) := by
  have hlen := length_padded data
  exact ⟨by omega, ⟨_, hlen⟩, by omega⟩

theorem length_le_of_isEntropy {data : Bytes} (h : Bip39.IsEntropy (padded data)) : data.length ≤ 1023 := by
  have hlen := length_padded data
  have := h.2.2
  omega

theorem takeWhile_padded {data : Bytes} (h : LowFirst data) : (padded data).takeWhile (· = 0x81) = paddingOf data := by
  have hpad : ∀ x ∈ paddingOf data, decide (x = 0x81) = true := by
    intro x hx
    exact decide_eq_true (List.eq_of_mem_replicate hx)
  have hdata : data.takeWhile (· = 0x81) = [] := by
    rcases data with _ | ⟨x, data⟩
    · rfl
    · have hx : x ≠ 0x81 := by
        rintro rfl
        exact absurd (h 0x81 rfl) (by decide)
      rw [List.takeWhile_cons_of_neg (by simpa using hx)]
  rw [padded, List.takeWhile_append_of_pos hpad, hdata, List.append_nil]

theorem drop_padded {data : Bytes} (h : LowFirst data) :
    (padded data).drop ((padded data).takeWhile (· = 0x81)).length = data := by
  rw [takeWhile_padded h, padded, List.drop_left]

end Crypt
