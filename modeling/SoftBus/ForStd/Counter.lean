import Mathlib

/-!
# Counters that wrap

A counter of 64 bits follows an integer only up to multiples of its size.  `Reads` says so, and is kept by
additions and subtractions whether or not they wrap; that a counter is the number it should be is then read off at the end,
from a bound on that number.
-/

namespace Counter
variable {u : UInt64} {n m : ℤ}

/-- The counter reads `n`, up to multiples of its size. -/
def Reads (u : UInt64) (n : ℤ) : Prop := (u.toNat : ℤ) = n % 2 ^ 64

theorem Reads.zero : Reads 0 0 := rfl

theorem Reads.add (h : Reads u n) (x : UInt64) : Reads (u + x) (n + x.toNat) := by
  unfold Reads at h ⊢
  rw [UInt64.toNat_add]
  omega

theorem Reads.sub (h : Reads u n) (x : UInt64) : Reads (u - x) (n - x.toNat) := by
  unfold Reads at h ⊢
  have hx := x.toNat_lt
  rw [UInt64.toNat_sub]
  omega

/-- A counter that reads a number below its size is that number. -/
theorem Reads.toNat_eq {k : ℕ} (h : Reads u k) (hk : k < 2 ^ 64) : u.toNat = k := by
  unfold Reads at h
  omega

end Counter
