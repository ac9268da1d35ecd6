import Mathlib
import SoftBus.Spec.SeqSim

/-!
# Bounded reordering

The packets `0, …, n - 1` arrive in some order in which each comes only after all
packets that are 60 or more older.  `minSeq` advances when the packet it names
arrives, and never past a packet that arrived before: once packet `k + 1` has
overtaken packet `k`, it stays at `k + 1` and the packets from `k + 61` on are
rejected.  `accepts_all_iff` shows that nothing else is.
-/

namespace SoftBus.Native
open List
open Run (AllSteps allSteps_cons)

/-- A permutation of the packets `0, …, n - 1` in which each packet arrives only after
    every packet that is 60 or more older. -/
structure BoundedReorder (n : ℕ) (order : List ℕ) : Prop where
  perm : order.Perm (List.range n)
  bounded : ∀ p ∈ order, ∀ j ∈ order, j + 60 ≤ p → order.idxOf j < order.idxOf p

namespace BoundedReorder
variable {n : ℕ} {order pre post : List ℕ} {k : ℕ}

theorem mem_iff (h : BoundedReorder n order) : k ∈ order ↔ k < n := by
  rw [h.perm.mem_iff, mem_range]

theorem nodup (h : BoundedReorder n order) : order.Nodup := h.perm.nodup_iff.2 nodup_range

end BoundedReorder

/-! ## Positions in an order of arrival -/

theorem idxOf_lt_iff_mem {pre post : List ℕ} {k : ℕ} (hk : k ∉ pre) (j : ℕ) :
    (pre ++ k :: post).idxOf j < (pre ++ k :: post).idxOf k ↔ j ∈ pre := by
  have hpos : (pre ++ k :: post).idxOf k = pre.length := by
    rw [idxOf_append_of_notMem hk, idxOf_cons_self, Nat.add_zero]
  rw [hpos]
  by_cases hj : j ∈ pre
  · simpa [idxOf_append_of_mem hj, hj] using idxOf_lt_length_of_mem hj
  · rw [idxOf_append_of_notMem hj]
    simp [hj]

/-! ## The invariant of a run that accepts everything -/

/-- What has arrived, `pre`, when all of it was accepted. -/
structure Arrived (order pre : List ℕ) (W : Window) : Prop where
  mem_of_lt : ∀ i < W.lo, i ∈ pre
  lt_hi : ∀ i ∈ pre, i < W.hi
  seen : ∀ i ∈ W.seen, i ∈ pre
  /-- The lower edge stands at a packet that has arrived only if that packet has
      overtaken the one before it. -/
  stall : W.lo ∈ pre → ∃ i, i + 1 = W.lo ∧ order.idxOf W.lo < order.idxOf i
  inOrder : ∀ i, i + 1 < W.lo → order.idxOf i < order.idxOf (i + 1)

theorem arrived_nil (order : List ℕ) : Arrived order [] .empty where
  mem_of_lt i hi := absurd hi (Nat.not_lt_zero i)
  lt_hi := by simp
  seen := by simp [Window.empty]
  stall := by simp
  inOrder i hi := absurd hi (Nat.not_lt_zero _)

namespace Arrived
variable {pre post : List ℕ} {W W' : Window} {k : ℕ}

theorem advance (h : Arrived (pre ++ W.lo :: post) pre W) (hk : W.lo ∉ pre) :
    Arrived (pre ++ W.lo :: post) (pre ++ [W.lo]) W.advance where
  mem_of_lt i hi := by
    rcases Nat.lt_succ_iff_lt_or_eq.1 hi with hi | rfl
    · exact mem_append_left _ (h.mem_of_lt i hi)
    · simp
  lt_hi i hi := by
    rcases mem_append.1 hi with hi | hi
    · exact Nat.lt_of_lt_of_le (h.lt_hi i hi) (Nat.le_max_left _ _)
    · rw [mem_singleton.1 hi]; exact Nat.le_max_right _ _
  seen i hi := mem_append_left _ (h.seen i hi)
  stall hm := by
    refine ⟨W.lo, rfl, (idxOf_lt_iff_mem hk _).2 ?_⟩
    simpa [Window.advance] using hm
  inOrder i hi := by
    rcases Nat.lt_succ_iff_lt_or_eq.1 hi with hi | hi
    · exact h.inOrder i hi
    · rw [hi]
      exact (idxOf_lt_iff_mem hk i).2 (h.mem_of_lt i (by omega))

section
variable (h : Arrived (pre ++ k :: post) pre W)
include h

/-- A packet that leaves the lower edge where it is. -/
theorem insert (hlo : W'.lo = W.lo) (hhi : W.hi ≤ W'.hi)
    (hk' : k < W'.hi) (hseen : W'.seen = insert k W.seen) (hne : k ≠ W.lo) :
    Arrived (pre ++ k :: post) (pre ++ [k]) W' where
  mem_of_lt i hi := mem_append_left _ (h.mem_of_lt i (hlo ▸ hi))
  lt_hi i hi := by
    rcases mem_append.1 hi with hi | hi
    · exact Nat.lt_of_lt_of_le (h.lt_hi i hi) hhi
    · rw [mem_singleton.1 hi]; exact hk'
  seen i hi := by
    rw [hseen, Finset.mem_insert] at hi
    rcases hi with rfl | hi
    · simp
    · exact mem_append_left _ (h.seen i hi)
  stall hm := by
    rw [hlo] at hm ⊢
    rcases mem_append.1 hm with hm | hm
    · exact h.stall hm
    · exact absurd (mem_singleton.1 hm).symm hne
  inOrder i hi := h.inOrder i (hlo ▸ hi)

theorem step (hk : k ∉ pre) (hstep : W.step k = some W') :
    Arrived (pre ++ k :: post) (pre ++ [k]) W' := by
  obtain ⟨rfl, rfl⟩ | ⟨hin, -, rfl⟩ | ⟨hover, hne, rfl⟩ := Window.step_eq_some hstep
  · exact h.advance hk
  · exact h.insert rfl (Nat.le_refl _) hin.2 rfl (Nat.ne_of_gt hin.1)
  · exact h.insert rfl (Nat.le_succ_of_le hover.1) (Nat.lt_succ_self k) rfl hne

/-- A new packet is rejected only above the window. -/
theorem beyond (hk : k ∉ pre) (hstep : W.step k = none) : W.lo + 60 ≤ k := by
  obtain hlt | ⟨-, -, hseen, -⟩ | hge := Window.step_eq_none hstep
  · exact absurd (h.mem_of_lt k hlt) hk
  · exact absurd (h.seen k hseen) hk
  · exact hge

end
end Arrived

/-! ## Acceptance of a reordered arrival -/

/-- From a state in which `pre` has been accepted, the rest is accepted exactly when no
    packet that overtook its predecessor is 61 or more below the last one. -/
theorem accepts_rest_iff {s : Int32} {n : ℕ} {order : List ℕ} (h : BoundedReorder n order)
    (post : List ℕ) : ∀ {pre : List ℕ} {info : SeqVerifyInfo} {W : Window},
      order = pre ++ post → Sim s info W → Arrived order pre W →
      (AllSteps seqStep (fun info r => (isPassSeqCheck info r).pass = true) info
          (post.map (packet s)) ↔
        ∀ k ∈ order, order.idxOf (k + 1) < order.idxOf k → n ≤ k + 61) := by
  induction post with
  | nil =>
    intro pre info W horder _ hW
    refine ⟨fun _ k hk hover => ?_, fun _ => by simp⟩
    -- everything has arrived, so the lower edge is past a packet that 61 more follow
    by_contra hn
    have hmem : k + 61 ∈ pre := by
      rw [append_nil] at horder
      exact horder ▸ h.mem_iff.2 (by omega)
    have hlt := hW.lt_hi _ hmem
    have hhi := W.hi_le
    have := hW.inOrder k (by omega)
    omega
  | cons k post ih =>
    intro pre info W horder hsim hW
    have hk : k ∉ pre := by
      have hnd := h.nodup
      rw [horder] at hnd
      exact fun hm => (nodup_append.1 hnd).2.2 k hm k mem_cons_self rfl
    have hmem : k ∈ order := by rw [horder]; simp
    have hold : ∀ j, j + 60 ≤ k → j ∈ pre := by
      intro j hj
      have hlt := h.bounded k hmem j (h.mem_iff.2 (by have := h.mem_iff.1 hmem; omega)) hj
      rw [horder] at hlt
      exact (idxOf_lt_iff_mem hk j).1 hlt
    have hlo : W.lo ≤ k := Nat.le_of_not_lt fun hlt => hk (hW.mem_of_lt k hlt)
    have hhi := W.hi_le
    have hfar : k < W.lo + 120 := by
      by_cases h60 : 60 ≤ k
      · have := hW.lt_hi _ (hold (k - 60) (by omega))
        omega
      · omega
    obtain ⟨hpass, hnext⟩ := sim_next hsim (k := k) (by omega) (by omega)
    rw [map_cons, allSteps_cons, hpass]
    cases hstep : W.step k with
    | none =>
      -- the lower edge has stalled, so the packet before it was overtaken
      subst horder
      have hge := hW.beyond hk hstep
      obtain ⟨i, hi, hover⟩ := hW.stall (hold _ hge)
      have hkn := h.mem_iff.1 hmem
      refine ⟨fun hc => by simp at hc, fun hc => ?_⟩
      have := hc i (h.mem_iff.2 (by omega)) (hi ▸ hover)
      omega
    | some W' =>
      rw [Window.next, hstep] at hnext
      subst horder
      have hrest := ih (by simp) hnext (hW.step hk hstep)
      simpa using hrest

/-- Of the packets `s, …, s + n - 1` in a boundedly reordered arrival, the code accepts
    all exactly when every packet that arrives before its predecessor is among the
    last 60. -/
theorem accepts_all_iff (s : Int32) {n : ℕ} {order : List ℕ} (h : BoundedReorder n order) :
    AllSteps seqStep (fun info r => (isPassSeqCheck info r).pass = true) (.fresh s)
        (order.map (packet s)) ↔
      ∀ k ∈ order, order.idxOf (k + 1) < order.idxOf k → n ≤ k + 61 :=
  accepts_rest_iff h order rfl sim_fresh (arrived_nil order)

/-- Seventy packets in order. -/
theorem accepts_all_iff_inOrder : AllSteps seqStep
    (fun info r => (isPassSeqCheck info r).pass = true) (.fresh 7)
    ((List.range 70).map (packet 7)) :=
  (accepts_all_iff 7 ⟨.refl _, by decide +kernel⟩).2 (by decide +kernel)

/-- The order 1, 0, 2, …, 61. -/
def swapped : List ℕ := 1 :: 0 :: (List.range 60).map (· + 2)

/-- With the first two packets swapped, packet 61 is rejected. -/
theorem accepts_all_fails : BoundedReorder 62 swapped ∧
    ¬ AllSteps seqStep (fun info r => (isPassSeqCheck info r).pass = true) (.fresh 0)
      (swapped.map (packet 0)) :=
  ⟨⟨by decide +kernel, by decide +kernel⟩, by decide +kernel⟩

end SoftBus.Native
