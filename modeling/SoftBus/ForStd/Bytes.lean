import Mathlib

/-!
# Fixed-width integers in byte buffers

`toLE n v` are the `n` little-endian bytes of `v`, `ofLE` the number that bytes
stand for.  A buffer is read through `load`, which also gives the bytes that lie
behind it, so that a read past the end is a read of unknown bytes and not an error.
-/

namespace Bytes
open List

/-- The `n` low bytes of `v`, lowest first. -/
def toLE : ℕ → ℕ → List UInt8
  | 0, _ => []
  | n + 1, v => UInt8.ofNat v :: toLE n (v / 256)

/-- The number that little-endian bytes stand for. -/
def ofLE : List UInt8 → ℕ
  | [] => 0
  | b :: bs => b.toNat + 256 * ofLE bs

/-- The `n` low bytes of `v`, highest first. -/
def toBE (n v : ℕ) : List UInt8 := (toLE n v).reverse

/-- The number that big-endian bytes stand for. -/
def ofBE (bs : List UInt8) : ℕ := ofLE bs.reverse

@[simp] theorem length_toLE (n v : ℕ) : (toLE n v).length = n := by
  induction n generalizing v with
  | zero => rfl
  | succ n ih => simp [toLE, ih]

@[simp] theorem length_toBE (n v : ℕ) : (toBE n v).length = n := by simp [toBE]

/-- Reading back what was written, reduced to the width. -/
theorem ofLE_toLE (n v : ℕ) : ofLE (toLE n v) = v % 256 ^ n := by
  induction n generalizing v with
  | zero => simp [toLE, ofLE, Nat.mod_one]
  | succ n ih =>
    rw [toLE, ofLE, ih, Nat.pow_succ, Nat.mul_comm (256 ^ n), Nat.mod_mul, UInt8.toNat_ofNat']

theorem ofLE_toLE_of_lt {n v : ℕ} (h : v < 256 ^ n) : ofLE (toLE n v) = v := by
  rw [ofLE_toLE, Nat.mod_eq_of_lt h]

theorem ofBE_toBE_of_lt {n v : ℕ} (h : v < 256 ^ n) : ofBE (toBE n v) = v := by
  rw [ofBE, toBE, reverse_reverse, ofLE_toLE_of_lt h]

/-! ## Reading a buffer -/

/-- The `n` bytes at `off`; `beyond` are the bytes behind the buffer. -/
def load (buf : List UInt8) (beyond : ℕ → UInt8) (off n : ℕ) : List UInt8 :=
  (List.range' off n).map fun i => buf.getD i (beyond (i - buf.length))

@[simp] theorem length_load (buf : List UInt8) (beyond : ℕ → UInt8) (off n : ℕ) :
    (load buf beyond off n).length = n := by
  simp [load]

/-- A read inside the buffer does not depend on what lies behind it. -/
theorem load_eq {buf : List UInt8} {off n : ℕ} (beyond : ℕ → UInt8) (h : off + n ≤ buf.length) :
    load buf beyond off n = (buf.drop off).take n := by
  apply ext_getElem?
  intro i
  by_cases hi : i < n
  · have hb : off + i < buf.length := by omega
    simp [load, hi, getElem?_drop, getD_eq_getElem?_getD, hb]
  · rw [getElem?_eq_none (by simp; omega), getElem?_eq_none (by simp; omega)]

/-- A read that does not depend on what lies behind the buffer is inside it. -/
theorem le_of_load_eq {buf : List UInt8} {n : ℕ}
    (h : load buf (fun _ => 0) 0 n = load buf (fun _ => 1) 0 n) : n ≤ buf.length := by
  by_contra hlt
  have hbyte : ∀ b : UInt8, (load buf (fun _ => b) 0 n)[buf.length]? = some b := by
    intro b
    simp [load, Nat.lt_of_not_le hlt]
  have heq := hbyte 0
  rw [h, hbyte 1] at heq
  exact absurd heq (by decide)

/-- A read of the part of the buffer that starts behind `pre`. -/
theorem load_append {pre mid post : List UInt8} {off n : ℕ} (beyond : ℕ → UInt8)
    (hoff : off = pre.length) (hn : n = mid.length) :
    load (pre ++ (mid ++ post)) beyond off n = mid := by
  subst hoff hn
  rw [load_eq beyond (by simp), drop_left, take_left]

end Bytes
