import Mathlib

/-!
# Going round a ring of slots

A hand that stands at one of `m` slots goes on slot by slot, from the last one to the first.  If the slots are numbered on
without end and the slot of `z` is `z % m`, then a hand that goes on from `y` passes the slots of the numbers from `y` on.
-/

namespace Cyclic
variable {m y j : ℤ} {count : ℕ}

/-- The slots that a hand passes from the slot `i` on, that one included. -/
def slots (m : ℤ) : ℕ → ℤ → List ℤ
  | 0, _ => []
  | count + 1, i => i :: slots m count (if i + 1 = m then 0 else i + 1)

theorem succ_emod (hm : 0 < m) : (if y % m + 1 = m then 0 else y % m + 1) = (y + 1) % m := by
  have hlt := Int.emod_lt_of_pos y hm
  have hle := Int.emod_nonneg y hm.ne'
  have hsucc : (y + 1) % m = (y % m + 1) % m := (Int.emod_add_emod y m 1).symm
  rw [hsucc]
  split
  next heq => rw [heq, Int.emod_self]
  next hne => exact (Int.emod_eq_of_lt (by omega) (by omega)).symm

theorem mem_slots (hm : 0 < m) : j ∈ slots m count (y % m) ↔ ∃ z, y ≤ z ∧ z < y + count ∧ z % m = j := by
  induction count generalizing y with
  | zero =>
    constructor
    · exact nofun
    · omega
  | succ count ih =>
    rw [slots, succ_emod hm, List.mem_cons, ih]
    constructor
    · rintro (rfl | ⟨z, hy, hlt, rfl⟩)
      · exact ⟨y, le_rfl, by omega, rfl⟩
      · exact ⟨z, by omega, by omega, rfl⟩
    · rintro ⟨z, hy, hlt, rfl⟩
      by_cases hz : z = y
      · exact .inl (congrArg (· % m) hz)
      · exact .inr ⟨z, by omega, by omega, rfl⟩

/-- A hand that goes round at most once passes no slot twice. -/
theorem nodup_slots (hm : 0 < m) (hcount : count ≤ m) : (slots m count (y % m)).Nodup := by
  induction count generalizing y with
  | zero => exact List.nodup_nil
  | succ count ih =>
    rw [slots, succ_emod hm]
    refine List.nodup_cons.2 ⟨fun hmem => ?_, ih (by omega)⟩
    obtain ⟨z, hy, hlt, heq⟩ := (mem_slots hm).1 hmem
    have hdvd : m ∣ z - y := Int.ModEq.dvd heq.symm
    have hle := Int.le_of_dvd (by omega) hdvd
    omega

/-- A hand that goes on by `k` slots, or once round if that is less, passes the slots of the numbers up to `y + k`. -/
theorem mem_slots_min {k : ℤ} (hm : 0 < m) (hk : 0 ≤ k) :
    j ∈ slots m (min k (m - 1) + 1).toNat (y % m) ↔ ∃ z, y ≤ z ∧ z ≤ y + k ∧ z % m = j := by
  rw [mem_slots hm]
  constructor
  · rintro ⟨z, hy, hlt, rfl⟩
    exact ⟨z, hy, by omega, rfl⟩
  · rintro ⟨z, hy, hle, rfl⟩
    -- The first number of the same slot.
    have hlt := Int.emod_lt_of_pos (z - y) hm
    have hnonneg := Int.emod_nonneg (z - y) hm.ne'
    have hdiv := Int.emod_add_mul_ediv (z - y) m
    have hquot := Int.mul_nonneg hm.le (Int.ediv_nonneg (show 0 ≤ z - y by omega) hm.le)
    refine ⟨y + (z - y) % m, by omega, by omega, ?_⟩
    rw [Int.add_emod_emod]
    congr 1
    omega

end Cyclic
