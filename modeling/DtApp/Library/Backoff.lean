import Mathlib.Data.Int.ModEq
import Mathlib.Tactic.Ring
import Mathlib.Tactic.Linarith

/-!
# Exponential back-off

A timer that doubles its timeout every time it expires, with deadlines that are kept
modulo a power of two. The deadlines are the sums of the timeouts so far, and a deadline
that is close enough to the clock can be told from its remainder.
-/
namespace Backoff

/-- The timeout after `k` expirations. -/
def timeoutAt (first : Int) (k : Nat) : Int := first * 2 ^ k

/-- The deadline after `k` expirations of a timer that was started at `start`. -/
def deadlineAt (start first : Int) (k : Nat) : Int := start + first * (2 ^ (k + 1) - 1)

theorem timeoutAt_zero (first : Int) : timeoutAt first 0 = first := by simp [timeoutAt]

theorem timeoutAt_succ (first : Int) (k : Nat) : timeoutAt first (k + 1) = timeoutAt first k * 2 := by
  simp only [timeoutAt, pow_succ, mul_assoc]

theorem deadlineAt_zero (start first : Int) : deadlineAt start first 0 = start + first := by
  simp [deadlineAt]

/-- Each deadline is the one before plus the timeout that is set with it. -/
theorem deadlineAt_succ (start first : Int) (k : Nat) :
    deadlineAt start first (k + 1) = deadlineAt start first k + timeoutAt first (k + 1) := by
  simp only [deadlineAt, timeoutAt, pow_succ]
  ring

theorem timeoutAt_mono (first : Int) (nonneg : 0 ≤ first) {j k : Nat} (le : j ≤ k) :
    timeoutAt first j ≤ timeoutAt first k := by
  apply mul_le_mul_of_nonneg_left _ nonneg
  exact pow_le_pow_right₀ (by norm_num) le

/-- The representative of a remainder in the range of a signed word of `w + 1` bits. -/
def wrap (w : Nat) (x : Int) : Int := (x + 2 ^ w) % 2 ^ (w + 1) - 2 ^ w

theorem wrap_modEq (w : Nat) (x : Int) : wrap w x ≡ x [ZMOD 2 ^ (w + 1)] := by
  have mod : (x + 2 ^ w) % 2 ^ (w + 1) ≡ x + 2 ^ w [ZMOD 2 ^ (w + 1)] := Int.mod_modEq _ _
  simpa [wrap] using mod.sub_right (2 ^ w)

theorem wrap_congr (w : Nat) {x y : Int} (same : x ≡ y [ZMOD 2 ^ (w + 1)]) : wrap w x = wrap w y := by
  have shifted : (x + 2 ^ w) % 2 ^ (w + 1) = (y + 2 ^ w) % 2 ^ (w + 1) := same.add_right (2 ^ w)
  rw [wrap, wrap, shifted]

theorem wrap_of_range (w : Nat) (x : Int) (low : -2 ^ w ≤ x) (high : x < 2 ^ w) : wrap w x = x := by
  have small : (x + 2 ^ w) % 2 ^ (w + 1) = x + 2 ^ w := by
    apply Int.emod_eq_of_lt
    · omega
    · rw [pow_succ]
      omega
  rw [wrap, small]
  omega

/-- A clock that is read modulo `2 ^ (w + 1)` gives the time to a deadline that is less than
half a turn away, when the deadline too is kept modulo `2 ^ (w + 1)`. -/
theorem wrap_remaining (w : Nat) {stored deadline now : Int}
    (kept : stored ≡ deadline [ZMOD 2 ^ (w + 1)]) (near : |now - deadline| < 2 ^ w) :
    wrap w (stored - now % 2 ^ (w + 1)) = deadline - now := by
  have same : stored - now % 2 ^ (w + 1) ≡ deadline - now [ZMOD 2 ^ (w + 1)] :=
    kept.sub (Int.mod_modEq _ _)
  rw [wrap_congr w same]
  rw [abs_lt] at near
  apply wrap_of_range <;> omega

theorem wrap_range (w : Nat) (x : Int) : -2 ^ w ≤ wrap w x ∧ wrap w x < 2 ^ w := by
  have positive : (0 : Int) < 2 ^ (w + 1) := by positivity
  have low := Int.emod_nonneg (x + 2 ^ w) positive.ne'
  have high := Int.emod_lt_of_pos (x + 2 ^ w) positive
  rw [pow_succ] at low high
  rw [wrap, pow_succ]
  omega

/-- The differences from `now` as a signed word, in the order of the words: they start half a turn
away from `now`, at the word where a difference changes its sign by overflow. -/
theorem wrap_sub (w : Nat) (now x : Int) (low : -2 ^ w ≤ x) (high : x < 2 ^ w) :
    wrap w (x - now) =
      if wrap w (now + 2 ^ w) ≤ x then x - wrap w (now + 2 ^ w) - 2 ^ w
      else x - wrap w (now + 2 ^ w) + 2 ^ w := by
  obtain ⟨least, most⟩ := wrap_range w (now + 2 ^ w)
  have cut := wrap_modEq w (now + 2 ^ w)
  have turn : (2 : Int) ^ (w + 1) = 2 ^ w + 2 ^ w := by rw [pow_succ]; ring
  split
  · have same : x - now ≡ x - wrap w (now + 2 ^ w) - 2 ^ w [ZMOD 2 ^ (w + 1)] := by
      have shifted := ((Int.ModEq.refl x).sub cut).sub_right (2 ^ w)
      refine Int.ModEq.trans ?_ shifted.symm
      have full : x - now = x - (now + 2 ^ w) - 2 ^ w + 2 ^ (w + 1) := by rw [turn]; ring
      rw [full]
      exact Int.add_modEq_right
    rw [wrap_congr w same]
    apply wrap_of_range <;> omega
  · have same : x - now ≡ x - wrap w (now + 2 ^ w) + 2 ^ w [ZMOD 2 ^ (w + 1)] := by
      have shifted := ((Int.ModEq.refl x).sub cut).add_right (2 ^ w)
      refine Int.ModEq.trans ?_ shifted.symm
      have full : x - now = x - (now + 2 ^ w) + 2 ^ w := by ring
      rw [full]
    rw [wrap_congr w same]
    apply wrap_of_range <;> omega

end Backoff
