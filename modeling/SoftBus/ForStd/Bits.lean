import Mathlib

/-!
# Single bits of fixed-width words

The bits of the words that C code builds with `1 << k`, `|`, `&` and `<<`, read
with `Nat.testBit`.
-/

namespace UInt64

theorem testBit_one_shiftLeft {k : UInt64} (hk : k.toNat < 64) (i : Nat) :
    ((1 : UInt64) <<< k).toNat.testBit i = decide (i = k.toNat) := by
  rw [UInt64.toNat_shiftLeft, Nat.mod_eq_of_lt hk, UInt64.toNat_one,
    Nat.testBit_mod_two_pow, Nat.shiftLeft_eq, Nat.one_mul]
  by_cases h : k.toNat = i
  · simp [h]; omega
  · simp [h]; omega

theorem testBit_shiftLeft {k : UInt64} (hk : k.toNat < 64) (a : UInt64) {i : Nat} (hi : i < 64) :
    (a <<< k).toNat.testBit i = (decide (k.toNat ≤ i) && a.toNat.testBit (i - k.toNat)) := by
  rw [UInt64.toNat_shiftLeft, Nat.mod_eq_of_lt hk, Nat.testBit_mod_two_pow]
  simp [hi]

theorem testBit_or (a b : UInt64) (i : Nat) :
    (a ||| b).toNat.testBit i = (a.toNat.testBit i || b.toNat.testBit i) := by
  rw [UInt64.toNat_or, Nat.testBit_or]

/-- Truncating `a & (1 << k)` to 32 bits loses the bit when `k` is 32 or more. -/
theorem toInt32_and_bit_eq_zero {k : UInt64} (hk : k.toNat < 64) (a : UInt64) :
    (a &&& ((1 : UInt64) <<< k)).toUInt32.toInt32 = 0 ↔
      ¬ (k.toNat < 32 ∧ a.toNat.testBit k.toNat = true) := by
  have hbit : ∀ i, (a &&& ((1 : UInt64) <<< k)).toUInt32.toNat.testBit i =
      (decide (i < 32) && (a.toNat.testBit i && decide (i = k.toNat))) := by
    intro i
    rw [UInt64.toNat_toUInt32, Nat.testBit_mod_two_pow, UInt64.toNat_and, Nat.testBit_and,
      testBit_one_shiftLeft hk]
  have hinj : ∀ x : UInt32, x.toInt32 = 0 ↔ x.toNat = (0 : UInt32).toNat := by
    intro x
    rw [UInt32.toNat_inj]
    exact ⟨fun h => by rw [← UInt32.toUInt32_toInt32 x, h]; rfl, fun h => by rw [h]; rfl⟩
  rw [hinj]
  constructor
  · rintro hzero ⟨hlt, hset⟩
    have h := hbit k.toNat
    rw [hzero] at h
    simp [hlt, hset] at h
  · intro hclear
    apply Nat.eq_of_testBit_eq
    intro i
    rw [hbit, UInt32.toNat_zero]
    by_cases hi : i = k.toNat
    · subst hi
      simp only [not_and, Bool.not_eq_true] at hclear
      by_cases hlt : k.toNat < 32
      · simp [hclear hlt]
      · simp [hlt]
    · simp [hi]

end UInt64

/-- A small word is not negative as a signed one. -/
theorem UInt32.toInt_toInt32_of_lt {x : UInt32} (h : x.toNat < 2 ^ 31) : x.toInt32.toInt = x.toNat := by
  show x.toBitVec.toInt = x.toBitVec.toNat
  exact BitVec.toInt_eq_toNat_of_lt (show 2 * x.toNat < 2 ^ 32 by omega)

/-- The test of one bit. -/
theorem UInt32.shiftRight_and_one_iff {x : UInt32} {i : ℕ} (hi : i < 32) :
    (x >>> UInt32.ofNat i) &&& 1 = 1 ↔ x.toNat.testBit i = true := by
  have hof : (UInt32.ofNat i).toNat = i := UInt32.toNat_ofNat_of_lt' (show i < 2 ^ 32 by omega)
  rw [← UInt32.toNat_inj, UInt32.toNat_and, UInt32.toNat_shiftRight, hof, Nat.mod_eq_of_lt hi,
    UInt32.toNat_one, Nat.and_one_is_mod, Nat.shiftRight_eq_div_pow,
    Nat.testBit_eq_decide_div_mod_eq, decide_eq_true_eq]
