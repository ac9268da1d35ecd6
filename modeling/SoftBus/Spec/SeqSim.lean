import Mathlib
import SoftBus.Spec.SeqWindow
import SoftBus.ForStd.Bits

/-!
# The window over unbounded packet numbers

Packets are counted from the first one, `s`, without wrapping: packet `k` carries
the sequence number `s + k`.  `Window` is the window over these counts with the
set of the recorded packets in place of the bitmap, and `sim_next` says that the
code simulates it as long as a packet is less than half the circle away.
-/

namespace SoftBus.Native
open SeqVerifyInfo
open Int32 (dist)
variable {W : Window} {k : ℕ} {s : Int32} {info : SeqVerifyInfo}

/-! ## The abstract window -/

/-- A window over packet counts; `seen` are the packets recorded out of order. -/
structure Window where
  lo : ℕ
  hi : ℕ
  seen : Finset ℕ
  lo_le_hi : lo ≤ hi
  hi_le : hi ≤ lo + 60
  seen_lt : ∀ k ∈ seen, k < hi

namespace Window

/-- The window in which nothing has arrived. -/
def empty : Window := ⟨0, 0, ∅, Nat.le_refl _, Nat.zero_le _, by simp⟩

section
variable (W)

/-- The packet at the lower edge arrives. -/
def advance : Window where
  lo := W.lo + 1
  hi := max W.hi (W.lo + 1)
  seen := W.seen
  lo_le_hi := Nat.le_max_right _ _
  hi_le := by have := W.hi_le; omega
  seen_lt k hk := Nat.lt_of_lt_of_le (W.seen_lt k hk) (Nat.le_max_left _ _)

/-- A packet inside the window arrives. -/
def record (k : ℕ) (hk : k < W.hi) : Window where
  lo := W.lo
  hi := W.hi
  seen := insert k W.seen
  lo_le_hi := W.lo_le_hi
  hi_le := W.hi_le
  seen_lt j hj := (Finset.mem_insert.1 hj).elim (· ▸ hk) (W.seen_lt j)

/-- A packet above the window arrives. -/
def extend (k : ℕ) (hk : W.hi ≤ k) (hk' : k < W.lo + 60) : Window where
  lo := W.lo
  hi := k + 1
  seen := insert k W.seen
  lo_le_hi := by have := W.lo_le_hi; omega
  hi_le := hk'
  seen_lt j hj := by
    rcases Finset.mem_insert.1 hj with rfl | hj
    · exact Nat.lt_succ_self _
    · have := W.seen_lt j hj
      omega

/-- The window after packet `k`, or `none` when the packet is rejected. -/
def step (k : ℕ) : Option Window :=
  if k = W.lo then
    some W.advance
  else if h : W.lo < k ∧ k < W.hi then
    if k ∈ W.seen ∧ W.hi - k < 32 then none else some (W.record k h.2)
  else if h : W.hi ≤ k ∧ k < W.lo + 60 then
    some (W.extend k h.1 h.2)
  else
    none

/-- A rejected packet leaves the window as it is. -/
def next (k : ℕ) : Window := (W.step k).getD W

end

/-- What an accepted packet does. -/
theorem step_eq_some {W' : Window} (h : W.step k = some W') :
    k = W.lo ∧ W' = W.advance ∨
    (∃ hk : W.lo < k ∧ k < W.hi, ¬ (k ∈ W.seen ∧ W.hi - k < 32) ∧ W' = W.record k hk.2) ∨
    (∃ hk : W.hi ≤ k ∧ k < W.lo + 60, k ≠ W.lo ∧ W' = W.extend k hk.1 hk.2) := by
  unfold step at h
  split at h
  · next heq => exact .inl ⟨heq, (Option.some.inj h).symm⟩
  · next hne =>
    split at h
    · next hin =>
      split at h
      · exact absurd h (by simp)
      · next hseen => exact .inr (.inl ⟨hin, hseen, (Option.some.inj h).symm⟩)
    · split at h
      · next hover => exact .inr (.inr ⟨hover, hne, (Option.some.inj h).symm⟩)
      · exact absurd h (by simp)

/-- When a packet is rejected. -/
theorem step_eq_none (h : W.step k = none) :
    k < W.lo ∨ (W.lo < k ∧ k < W.hi ∧ k ∈ W.seen ∧ W.hi - k < 32) ∨ W.lo + 60 ≤ k := by
  unfold step at h
  split at h
  · exact absurd h (by simp)
  · split at h
    · next hin =>
      split at h
      · next hseen => exact .inr (.inl ⟨hin.1, hin.2, hseen⟩)
      · exact absurd h (by simp)
    · split at h
      · exact absurd h (by simp)
      · omega

end Window

/-! ## The code simulates the window -/

/-- The code's window `info` stands for the abstract window `W` of a session that
    started at `s`. -/
structure Sim (s : Int32) (info : SeqVerifyInfo) (W : Window) : Prop where
  minSeq : info.minSeq = s + Int32.ofNat W.lo
  maxSeq : info.maxSeq = s + Int32.ofNat W.hi
  bit_zero : info.recvBitmap.toNat.testBit 0 = false
  bits : ∀ k, W.lo ≤ k → k < W.hi → (info.recvBitmap.toNat.testBit (W.hi - k) = true ↔ k ∈ W.seen)

theorem sim_fresh : Sim s (.fresh s) .empty where
  minSeq := by simp [fresh, Window.empty]
  maxSeq := by simp [fresh, Window.empty]
  bit_zero := by simp [fresh]
  bits := by simp [Window.empty]

namespace Sim

section
variable (h : Sim s info W)
include h

theorem width_eq : info.width = W.hi - W.lo := by
  have := W.hi_le
  rw [width, h.minSeq, h.maxSeq, Int32.dist_ofNat_ofNat s W.lo_le_hi (by omega)]

theorem width_le : info.width ≤ 60 := by
  have := W.hi_le
  rw [h.width_eq]; omega

theorem dist_minSeq (hle : W.lo ≤ k) (hlt : k - W.lo < 2 ^ 32) :
    dist info.minSeq (s + Int32.ofNat k) = k - W.lo := by
  rw [h.minSeq, Int32.dist_ofNat_ofNat s hle hlt]

/-- The offset of a packet inside the window, as the code computes it. -/
theorem offset_eq (hle : W.lo ≤ k) (hlt : k < W.hi) :
    (info.maxSeq - (s + Int32.ofNat k)).toUInt32.toUInt64.toNat = W.hi - k := by
  have := W.hi_le
  have hd := Int32.dist_ofNat_ofNat s (Nat.le_of_lt hlt) (by omega)
  rw [← h.maxSeq] at hd
  rw [← hd, UInt32.toNat_toUInt64, Int32.dist]

/-- The packet at the lower edge. -/
theorem atMin : Sim s info.atMin.info W.advance := by
  have hmax : (if info.width = 0 then info.minSeq + 1 else info.maxSeq) =
      s + Int32.ofNat (max W.hi (W.lo + 1)) := by
    rw [h.width_eq]
    split
    · rw [h.minSeq, Int32.add_ofNat_add_one, show max W.hi (W.lo + 1) = W.lo + 1 by omega]
    · rw [h.maxSeq, show max W.hi (W.lo + 1) = W.hi by omega]
  constructor
  · show info.minSeq + 1 = s + Int32.ofNat (W.lo + 1)
    rw [h.minSeq, Int32.add_ofNat_add_one]
  · exact hmax
  · exact h.bit_zero
  · intro k hlo hhi'
    simp only [Window.advance] at hlo hhi' ⊢
    rw [show max W.hi (W.lo + 1) = W.hi by omega]
    exact h.bits k (by omega) (by omega)

/-- A packet inside the window is rejected exactly when it is recorded and its bit
    survives the truncation. -/
theorem duplicate (hlo : W.lo < k) (hhi : k < W.hi) :
    if k ∈ W.seen ∧ W.hi - k < 32 then
      isPassDuplicateCheck info (s + Int32.ofNat k) =
        ⟨false, info, [(info.maxSeq - (s + Int32.ofNat k)).toUInt32]⟩
    else
      (isPassDuplicateCheck info (s + Int32.ofNat k)).pass = true ∧
        Sim s (isPassDuplicateCheck info (s + Int32.ofNat k)).info (W.record k hhi) := by
  have hoff := h.offset_eq (Nat.le_of_lt hlo) hhi
  have hle := W.hi_le
  have hbit := h.bits k (Nat.le_of_lt hlo) hhi
  have hoff' : (info.maxSeq - (s + Int32.ofNat k)).toUInt32.toUInt64.toNat < 64 := by omega
  have hrep := UInt64.toInt32_and_bit_eq_zero hoff' info.recvBitmap
  rw [hoff, hbit] at hrep
  simp only [isPassDuplicateCheck, ne_eq, hrep, not_not]
  by_cases hseen : k ∈ W.seen ∧ W.hi - k < 32
  · rw [if_pos hseen, if_pos hseen.symm]
  · rw [if_neg hseen, if_neg (fun hc => hseen hc.symm)]
    refine ⟨rfl, h.minSeq, h.maxSeq, ?_, ?_⟩
    · rw [UInt64.testBit_or, UInt64.testBit_one_shiftLeft hoff', hoff, h.bit_zero]
      simp; omega
    · intro j hj hj'
      simp only [Window.record] at hj hj' ⊢
      have hj'' : W.hi - j = W.hi - k ↔ j = k := by omega
      rw [UInt64.testBit_or, UInt64.testBit_one_shiftLeft hoff', hoff, Bool.or_eq_true,
        h.bits j hj hj', decide_eq_true_eq, hj'', Finset.mem_insert, or_comm]

/-- A packet above the window. -/
theorem overMax (hhi : W.hi ≤ k) (hlt : k < W.lo + 60) :
    Sim s (info.overMax (s + Int32.ofNat k)).info (W.extend k hhi hlt) := by
  have hle := W.lo_le_hi
  have hshift : (s + Int32.ofNat k - info.maxSeq + 1).toUInt32.toUInt64.toNat = k - W.hi + 1 := by
    have hd := Int32.dist_ofNat_ofNat s (show W.hi ≤ k + 1 by omega) (by omega)
    rw [← h.maxSeq, ← Int32.add_ofNat_add_one] at hd
    rw [show k - W.hi + 1 = k + 1 - W.hi by omega, ← hd, Int32.dist]
    simp only [Int32.toUInt32_add, Int32.toUInt32_sub, UInt32.toNat_toUInt64]
    rw [UInt32.sub_eq_add_neg, UInt32.sub_eq_add_neg, UInt32.add_assoc, UInt32.add_comm (-_),
      ← UInt32.add_assoc]
  have hone : (1 : UInt64).toNat < 64 := by decide
  constructor
  · exact h.minSeq
  · exact Int32.add_ofNat_add_one s k
  · simp only [SeqVerifyInfo.overMax]
    rw [UInt64.testBit_or, UInt64.testBit_shiftLeft (by omega) _ (by omega), hshift]
    simp
  · intro j hj hj'
    simp only [SeqVerifyInfo.overMax, Window.extend] at hj hj' ⊢
    rw [UInt64.testBit_or, UInt64.testBit_shiftLeft (by omega) _ (by omega),
      UInt64.testBit_one_shiftLeft hone, hshift, Finset.mem_insert]
    -- old packets keep their bit, packet `k` is bit 1, the packets skipped have none
    by_cases hold : j < W.hi
    · have hbits := h.bits j hj hold
      rw [show k + 1 - j - (k - W.hi + 1) = W.hi - j by omega]
      have h1 : ¬ k + 1 - j = 1 := by omega
      have h2 : k - W.hi + 1 ≤ k + 1 - j := by omega
      have h3 : j ≠ k := by omega
      simp [h1, h2, h3, hbits]
    · have hnot : j ∉ W.seen := fun hm => hold (W.seen_lt j hm)
      by_cases hjk : j = k
      · subst hjk
        simp [UInt64.toNat_one]
      · have h1 : ¬ k + 1 - j = (1 : UInt64).toNat := by
          rw [UInt64.toNat_one]; omega
        have h4 : k - W.hi + 1 ≤ k + 1 - j → k + 1 - j - (k - W.hi + 1) = 0 := by omega
        simp only [h1, hjk, hnot, decide_false, Bool.or_false, or_self, iff_false,
          Bool.not_eq_true, Bool.and_eq_false_imp, decide_eq_true_eq]
        intro hle'
        rw [h4 hle', h.bit_zero]

end
end Sim

/-- One packet less than half the circle away: the code accepts it exactly when the
    abstract window does, and stays in step with it. -/
theorem sim_step (h : Sim s info W) (hfar : k < W.lo + 2 ^ 31) (hnear : W.hi ≤ k + 2 ^ 31) :
    match W.step k with
    | some W' => (isPassSeqCheck info (s + Int32.ofNat k)).pass = true ∧
        Sim s (seqStep info (s + Int32.ofNat k)) W'
    | none => (isPassSeqCheck info (s + Int32.ofNat k)).pass = false ∧
        seqStep info (s + Int32.ofNat k) = info := by
  have hle := W.lo_le_hi
  have hw := h.width_eq
  rw [seqStep, isPassSeqCheck_eq_check _ h.width_le, Window.step]
  by_cases heq : k = W.lo
  · rw [if_pos heq, heq, ← h.minSeq, check_minSeq]
    exact ⟨rfl, h.atMin⟩
  rw [if_neg heq]
  by_cases hlo : W.lo < k
  · have hdist := h.dist_minSeq (Nat.le_of_lt hlo) (by omega)
    by_cases hin : k < W.hi
    · rw [dif_pos ⟨hlo, hin⟩, check_inside (by omega) (by omega)]
      have hdup := h.duplicate hlo hin
      split at hdup
      · next hseen => rw [if_pos hseen, hdup]; exact ⟨rfl, rfl⟩
      · next hseen => rw [if_neg hseen]; exact hdup
    · rw [dif_neg (by omega)]
      by_cases h60 : k < W.lo + 60
      · rw [dif_pos ⟨by omega, h60⟩, check, if_neg (by omega), if_neg (by omega),
          if_pos (.inl (by omega))]
        exact ⟨rfl, h.overMax (by omega) h60⟩
      · rw [dif_neg (by omega), check_beyond h.width_le (by omega)]
        · exact ⟨rfl, rfl⟩
        · rw [Bool.eq_false_iff]
          intro hb
          have := (biasWraps_iff h.width_le (by omega)).1 hb
          omega
  · -- a packet below the window is far ahead on the circle, but short of the wrapping band
    rw [dif_neg (by omega), dif_neg (by omega)]
    have hdist : dist info.minSeq (s + Int32.ofNat k) = 2 ^ 32 - (W.lo - k) := by
      rw [h.minSeq, Int32.dist_ofNat_ofNat_of_lt s (by omega) (by omega)]
    rw [check_beyond h.width_le (by omega)]
    · exact ⟨rfl, rfl⟩
    · rw [Bool.eq_false_iff]
      intro hb
      have := (biasWraps_iff h.width_le (by omega)).1 hb
      omega

/-- The sequence number of packet `k`. -/
def packet (s : Int32) (k : ℕ) : Int32 := s + Int32.ofNat k

theorem packet_dist (r : Int32) : packet s (dist s r) = r := Int32.add_ofNat_dist s r

/-- One packet, with the outcome as the two windows report it. -/
theorem sim_next (h : Sim s info W) (hfar : k < W.lo + 2 ^ 31) (hnear : W.hi ≤ k + 2 ^ 31) :
    (isPassSeqCheck info (packet s k)).pass = (W.step k).isSome ∧
      Sim s (seqStep info (packet s k)) (W.next k) := by
  have hstep := sim_step h hfar hnear
  unfold packet Window.next
  cases hW : W.step k with
  | none => rw [hW] at hstep; exact ⟨hstep.1, by rw [hstep.2]; exact h⟩
  | some W' => rw [hW] at hstep; exact hstep

end SoftBus.Native
