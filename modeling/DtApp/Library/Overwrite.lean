import Mathlib.Data.List.Basic

/-!
# Writing into a row of cells

Data written over the cells of a list from an offset on, as `memcpy` does into an array.
-/
namespace Overwrite

variable {α : Type}

def overwrite (cells : List α) (offset : Nat) (data : List α) : List α :=
  cells.take offset ++ data ++ cells.drop (offset + data.length)

variable {cells data : List α} {offset : Nat}

theorem length_overwrite (fits : offset + data.length ≤ cells.length) :
    (overwrite cells offset data).length = cells.length := by
  simp only [overwrite, List.length_append, List.length_take, List.length_drop]
  omega

/-- The cells up to the end of the data. -/
theorem take_overwrite (fits : offset + data.length ≤ cells.length) :
    (overwrite cells offset data).take (offset + data.length) = cells.take offset ++ data := by
  have written : (cells.take offset ++ data).length = offset + data.length := by
    rw [List.length_append, List.length_take]
    omega
  rw [overwrite, ← written, List.take_left]

/-- The cells behind the data keep what they had. -/
theorem drop_overwrite (fits : offset + data.length ≤ cells.length) {n : Nat}
    (behind : offset + data.length ≤ n) : (overwrite cells offset data).drop n = cells.drop n := by
  have written : (cells.take offset ++ data).length = offset + data.length := by
    rw [List.length_append, List.length_take]
    omega
  rw [overwrite, List.drop_append, written, List.drop_drop, List.drop_eq_nil_of_le (by omega),
    List.nil_append]
  congr 1
  omega

end Overwrite
