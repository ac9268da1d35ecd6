import Mathlib

/-!
# Distances between wrapping sequence numbers

`Int32.dist a b` is how far `b` lies ahead of `a` on the circle of the 2^32
sequence numbers.  The lemmas read the signed comparisons and differences of a C
program off these distances.
-/

namespace Int32

/-- How far `b` is ahead of `a`, counting modulo 2^32. -/
def dist (a b : Int32) : Nat := (b - a).toUInt32.toNat

theorem dist_lt (a b : Int32) : dist a b < 2 ^ 32 := (b - a).toUInt32.toNat_lt

/-- The distance as a remainder of the difference of the signed values. -/
theorem dist_eq (a b : Int32) : (dist a b : Int) = (b.toInt - a.toInt) % 2 ^ 32 := by
  have h : ∀ x : Int32, (x.toUInt32.toNat : Int) = x.toInt % 2 ^ 32 := by
    intro x
    have hx : (x.toUInt32.toNat : Int) = (x.toBitVec.toNat : Int) := rfl
    rw [← Int32.toInt_toBitVec, BitVec.toInt_eq_toNat_bmod]
    simp only [Int.bmod_def]
    omega
  rw [dist, h, Int32.toInt_sub, Int.bmod_def]
  omega

/-- Signed values are 2^32 apart from their distance when the subtraction wraps. -/
theorem toInt_eq_add_dist (a b : Int32) :
    b.toInt = a.toInt + dist a b ∨ b.toInt = a.toInt + dist a b - 2 ^ 32 := by
  have h := dist_eq a b
  have ha := a.toInt_lt
  have ha' := a.le_toInt
  have hb := b.toInt_lt
  have hb' := b.le_toInt
  omega

/-- A signed difference is the distance, below half the circle, and negative from there on. -/
theorem toInt_sub_eq (a b : Int32) :
    dist a b < 2 ^ 31 ∧ (b - a).toInt = dist a b ∨
      2 ^ 31 ≤ dist a b ∧ (b - a).toInt = dist a b - 2 ^ 32 := by
  have h := dist_eq a b
  rw [Int32.toInt_sub, Int.bmod_def]
  split <;> omega

/-- Distances through an intermediate number add up on the circle. -/
theorem dist_add_dist (a b c : Int32) :
    dist a b + dist b c = dist a c ∨ dist a b + dist b c = dist a c + 2 ^ 32 := by
  have hb := dist_eq a b
  have hc := dist_eq a c
  have hbc := dist_eq b c
  omega

theorem dist_eq_zero {a b : Int32} : dist a b = 0 ↔ b = a := by
  have h := dist_eq a b
  have ha := a.toInt_lt
  have ha' := a.le_toInt
  have hb := b.toInt_lt
  have hb' := b.le_toInt
  rw [← Int32.toInt_inj]
  omega

@[simp] theorem dist_self (a : Int32) : dist a a = 0 := dist_eq_zero.2 rfl

theorem dist_add_one_right (a b : Int32) (h : dist a b + 1 < 2 ^ 32) :
    dist a (b + 1) = dist a b + 1 := by
  have h1 := dist_eq a b
  have h2 := dist_eq a (b + 1)
  rw [Int32.toInt_add, Int.bmod_def] at h2
  have h1' : (1 : Int32).toInt = 1 := rfl
  split at h2 <;> omega

theorem dist_add_one_left (a b : Int32) (h : dist a b ≠ 0) : dist (a + 1) b = dist a b - 1 := by
  have h1 := dist_eq a b
  have h2 := dist_eq (a + 1) b
  rw [Int32.toInt_add, Int.bmod_def] at h2
  have h1' : (1 : Int32).toInt = 1 := rfl
  split at h2 <;> omega

/-! ## Numbers counted from a start -/

theorem dist_add_ofNat (s : Int32) (k : Nat) : dist s (s + ofNat k) = k % 2 ^ 32 := by
  rw [dist, Int32.add_comm]
  simp

theorem add_ofNat_dist (s r : Int32) : s + ofNat (dist s r) = r := by
  have h : dist (s + ofNat (dist s r)) r = 0 := by
    have hadd := dist_add_dist s (s + ofNat (dist s r)) r
    have hlt' := dist_lt (s + ofNat (dist s r)) r
    rw [dist_add_ofNat] at hadd
    omega
  exact (dist_eq_zero.1 h).symm

/-- The distance between two numbers counted from the same start, the second ahead. -/
theorem dist_ofNat_ofNat (s : Int32) {a b : Nat} (h : a ≤ b) (hlt : b - a < 2 ^ 32) :
    dist (s + ofNat a) (s + ofNat b) = b - a := by
  have hadd := dist_add_dist s (s + ofNat a) (s + ofNat b)
  have h' := dist_lt (s + ofNat a) (s + ofNat b)
  rw [dist_add_ofNat, dist_add_ofNat] at hadd
  omega

/-- The distance between two numbers counted from the same start, the second behind. -/
theorem dist_ofNat_ofNat_of_lt (s : Int32) {a b : Nat} (h : b < a) (hlt : a - b < 2 ^ 32) :
    dist (s + ofNat a) (s + ofNat b) = 2 ^ 32 - (a - b) := by
  have hadd := dist_add_dist s (s + ofNat a) (s + ofNat b)
  have h' := dist_lt (s + ofNat a) (s + ofNat b)
  rw [dist_add_ofNat, dist_add_ofNat] at hadd
  omega

theorem add_ofNat_add_one (s : Int32) (k : Nat) : s + ofNat k + 1 = s + ofNat (k + 1) := by
  rw [Int32.add_assoc]
  simp [ofNat_add]

end Int32

namespace UInt32

/-! ## Unsigned numbers compared by their signed difference -/

theorem toInt_toInt32 (a : UInt32) : a.toInt32.toInt = (a.toNat : Int).bmod (2 ^ 32) := by
  rw [← Int32.toInt_toBitVec, BitVec.toInt_eq_toNat_bmod]
  rfl

/-- The first half of the circle is the positive one. -/
theorem toInt_pos_iff (a : UInt32) : a.toInt32.toInt > 0 ↔ 0 < a.toNat ∧ a.toNat < 2 ^ 31 := by
  have ha := a.toNat_lt
  rw [toInt_toInt32, Int.bmod_def]
  omega

/-- The signed difference of two numbers counted from the same start, less than half the circle apart. -/
theorem toInt_sub_ofNat (s : UInt32) {a b : Nat} (h : a < b + 2 ^ 31) (h' : b < a + 2 ^ 31) :
    (s + ofNat a - (s + ofNat b)).toInt32.toInt = (a : Int) - b := by
  rw [toInt_toInt32, UInt32.toNat_sub, UInt32.toNat_add, UInt32.toNat_add]
  simp only [UInt32.toNat_ofNat', Int.bmod_def]
  omega

/-- Numbers counted from the same start are equal only when they are the same or the whole circle apart. -/
theorem add_ofNat_inj (s : UInt32) {a b : Nat} (h : a < b + 2 ^ 32) (h' : b < a + 2 ^ 32) :
    s + ofNat a = s + ofNat b ↔ a = b := by
  rw [← UInt32.toNat_inj, UInt32.toNat_add, UInt32.toNat_add]
  simp only [UInt32.toNat_ofNat']
  omega

theorem add_ofNat_sub (s a : UInt32) : s + ofNat (a - s).toNat = a := by
  rw [UInt32.ofNat_toNat, UInt32.add_comm, UInt32.sub_add_cancel]

/-- Numbers less than half the circle ahead of `s` are compared by how far ahead they are. -/
theorem toInt_sub_pos_iff (s : UInt32) {a b : UInt32} (ha : (a - s).toNat < 2 ^ 31) (hb : (b - s).toNat < 2 ^ 31) :
    (a - b).toInt32.toInt > 0 ↔ (b - s).toNat < (a - s).toNat := by
  have h := toInt_sub_ofNat s (a := (a - s).toNat) (b := (b - s).toNat) (by omega) (by omega)
  rw [add_ofNat_sub, add_ofNat_sub] at h
  omega

/-- Numbers less than half the circle behind `s` are compared by how far behind they are. -/
theorem toInt_sub_pos_iff_behind (s : UInt32) {a b : UInt32} (ha : (s - a).toNat < 2 ^ 31)
    (hb : (s - b).toNat < 2 ^ 31) : (a - b).toInt32.toInt > 0 ↔ (s - a).toNat < (s - b).toNat := by
  rw [toInt_toInt32]
  simp only [UInt32.toNat_sub, Int.bmod_def] at ha hb ⊢
  have ha' := a.toNat_lt
  omega

/-- A number after `m` and not after `n` is between them. -/
theorem toNat_sub_le_of_between (s : UInt32) {a m n : UInt32} (hm : (m - s).toNat ≤ (n - s).toNat)
    (hn : (n - s).toNat < 2 ^ 31) (hgt : (a - m).toInt32.toInt > 0) (hle : ¬ (a - n).toInt32.toInt > 0) :
    (a - s).toNat ≤ (n - s).toNat := by
  rw [toInt_toInt32] at hgt hle
  simp only [UInt32.toNat_sub, Int.bmod_def] at hm hn hgt hle ⊢
  have hm' := m.toNat_lt
  have hn' := n.toNat_lt
  omega

/-- How far numbers are ahead of a later start. -/
theorem toNat_sub_sub (s : UInt32) {a b : UInt32} (h : (b - s).toNat ≤ (a - s).toNat) :
    (a - b).toNat = (a - s).toNat - (b - s).toNat := by
  simp only [UInt32.toNat_sub] at h ⊢
  have hb := b.toNat_lt
  omega

/-- How far a number is ahead when it has moved on, short of the whole circle. -/
theorem toNat_add_sub (s : UInt32) {a d : UInt32} (h : (a - s).toNat + d.toNat < 2 ^ 32) :
    (a + d - s).toNat = (a - s).toNat + d.toNat := by
  simp only [UInt32.toNat_sub, UInt32.toNat_add] at h ⊢
  omega

theorem toNat_sub_inj (s : UInt32) {a b : UInt32} : (a - s).toNat = (b - s).toNat ↔ a = b := by
  rw [UInt32.toNat_inj]
  exact UInt32.sub_left_inj s

end UInt32
