import Mathlib

/-!
# Rings with 32-bit counters

A ring has a power of two of slots, and a counter that is never reduced finds its slot by a
mask.  The counters wrap around at `2 ^ 32`, which the power of two divides, so that the slots
of `mask + 1` successive counters are different ones.
-/

namespace Ring
open Function List
variable {α : Type*} {nodes : UInt32 → α} {mask lo : UInt32} {n k : ℕ}

/-- What is in the slots of the `n` counters from `lo` on. -/
def window (nodes : UInt32 → α) (mask lo : UInt32) (n : ℕ) : List α :=
  (List.range n).map fun i => nodes ((lo + UInt32.ofNat i) &&& mask)

@[simp] theorem length_window : (window nodes mask lo n).length = n := by
  simp [window]

/-- The window grows at its end. -/
theorem window_succ : window nodes mask lo (n + 1) =
    window nodes mask lo n ++ [nodes ((lo + UInt32.ofNat n) &&& mask)] := by
  simp [window, range_succ]

/-- The window shrinks at its begin. -/
theorem window_cons : window nodes mask lo (n + 1) =
    nodes (lo &&& mask) :: window nodes mask (lo + 1) n := by
  unfold window
  rw [range_succ_eq_map, map_cons, map_map]
  congr 1
  · simp
  · refine map_congr_left fun i _ => ?_
    rw [comp_apply, Nat.succ_eq_add_one, Nat.add_comm, UInt32.ofNat_add, ← UInt32.add_assoc]
    rfl

/-- The slot of a counter, as a number. -/
theorem toNat_slot (hmask : mask.toNat + 1 = 2 ^ k) (i : ℕ) :
    ((lo + UInt32.ofNat i) &&& mask).toNat = (lo.toNat + i) % 2 ^ k := by
  have hk : k ≤ 32 := by
    have : 2 ^ k ≤ 2 ^ 32 := by
      rw [← hmask]
      exact mask.toNat_lt
    exact (Nat.pow_le_pow_iff_right (by decide)).1 this
  have hm : mask.toNat = 2 ^ k - 1 := by omega
  rw [UInt32.toNat_and, hm, Nat.and_two_pow_sub_one_eq_mod, UInt32.toNat_add, UInt32.toNat_ofNat',
    Nat.add_mod_mod, Nat.mod_mod_of_dvd _ (Nat.pow_dvd_pow 2 hk)]

section
variable (hmask : mask.toNat + 1 = 2 ^ k) (hn : n ≤ mask.toNat)
include hmask hn

/-- The slot after the window is not one of its slots. -/
theorem slot_ne {i : ℕ} (hi : i < n) :
    (lo + UInt32.ofNat i) &&& mask ≠ (lo + UInt32.ofNat n) &&& mask := by
  intro heq
  have hmod : (lo.toNat + n) % 2 ^ k = (lo.toNat + i) % 2 ^ k := by
    rw [← toNat_slot hmask, ← toNat_slot hmask, heq]
  have hzero := Nat.sub_mod_eq_zero_of_mod_eq hmod
  rw [Nat.mod_eq_of_lt (by omega)] at hzero
  omega

theorem window_update (a : α) :
    window (update nodes ((lo + UInt32.ofNat n) &&& mask) a) mask lo n = window nodes mask lo n := by
  refine map_congr_left fun i hi => ?_
  exact update_of_ne (slot_ne hmask hn (mem_range.1 hi)) _ _

/-- Writing to the slot after the window appends to it. -/
theorem window_push (a : α) :
    window (update nodes ((lo + UInt32.ofNat n) &&& mask) a) mask lo (n + 1) =
      window nodes mask lo n ++ [a] := by
  rw [window_succ, window_update hmask hn, update_self]

end
end Ring
