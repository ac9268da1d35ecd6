import SoftBus.Spec.SeqSim

/-!
# Replays

A replay that the code accepts is one that it has recorded and does not look up:
either the packet stands at `minSeq`, where the code only advances, or its bit is
32 or more below `maxSeq`, where `int32_t isRepeat` drops it.  `no_replay_iff`
shows that these are the only ones.
-/

namespace SoftBus.Native
open List
open Int32 (dist)
variable {W W' : Window} {A : List ℕ} {k : ℕ} {s : Int32} {ks : List ℕ}
open Run (AllSteps allSteps_cons)

/-! ## Replays over unbounded counts -/

namespace Window

/-- The packets that are accepted, in the order of their arrival. -/
def accepted (W : Window) : List ℕ → List ℕ
  | [] => []
  | k :: ks => if (W.step k).isSome then k :: (W.next k).accepted ks else W.accepted ks

theorem accepted_sublist : ∀ W : Window, (W.accepted ks).Sublist ks := by
  induction ks with
  | nil => intro W; exact .slnil
  | cons k ks ih =>
    intro W
    unfold accepted
    split
    · exact (ih _).cons_cons k
    · exact (ih _).cons k

/-- A recorded packet that is accepted again: at the lower edge, or 32 or more below
    the upper one. -/
def ReplayMissed (W : Window) (k : ℕ) : Prop :=
  W.lo ≤ k ∧ k < W.hi ∧ k ∈ W.seen ∧ (k = W.lo ∨ 32 ≤ W.hi - k)

/-- `A` are the packets accepted so far: none is above the window, and those inside
    it are the recorded ones. -/
structure Accepted (W : Window) (A : List ℕ) : Prop where
  lt_hi : ∀ k ∈ A, k < W.hi
  mem_iff : ∀ k, W.lo ≤ k → k < W.hi → (k ∈ A ↔ k ∈ W.seen)

theorem Accepted.step (hA : W.Accepted A) (h : W.step k = some W') : W'.Accepted (A ++ [k]) := by
  obtain ⟨rfl, rfl⟩ | ⟨hk, -, rfl⟩ | ⟨hk, -, rfl⟩ := step_eq_some h
  · refine ⟨fun j hj => ?_, fun j hj hj' => ?_⟩
    · rcases mem_append.1 hj with hj | hj
      · exact Nat.lt_of_lt_of_le (hA.lt_hi j hj) (Nat.le_max_left _ _)
      · rw [mem_singleton.1 hj]; exact Nat.le_max_right _ _
    · simp only [advance] at hj hj' ⊢
      rw [← hA.mem_iff j (by omega) (by omega)]
      simp only [mem_append, mem_singleton, show j ≠ W.lo by omega, or_false]
  · refine ⟨fun j hj => ?_, fun j hj hj' => ?_⟩
    · rcases mem_append.1 hj with hj | hj
      · exact hA.lt_hi j hj
      · rw [mem_singleton.1 hj]; exact hk.2
    · simp only [record, Finset.mem_insert, mem_append, mem_singleton] at hj hj' ⊢
      rw [hA.mem_iff j hj hj', or_comm]
  · refine ⟨fun j hj => ?_, fun j hj hj' => ?_⟩
    · simp only [extend]
      rcases mem_append.1 hj with hj | hj
      · have := hA.lt_hi j hj
        omega
      · rw [mem_singleton.1 hj]; exact Nat.lt_succ_self _
    · simp only [extend, Finset.mem_insert, mem_append, mem_singleton] at hj hj' ⊢
      by_cases hold : j < W.hi
      · rw [hA.mem_iff j hj hold, or_comm]
      · -- a packet skipped by the jump is neither accepted nor recorded
        have h1 : j ∉ A := fun hm => hold (hA.lt_hi j hm)
        have h2 : j ∉ W.seen := fun hm => hold (W.seen_lt j hm)
        simp only [h1, h2, false_or, or_false]

/-- An accepted packet is a replay exactly when the window misses it. -/
theorem Accepted.mem_iff_replayMissed (hA : W.Accepted A) (h : W.step k = some W') : k ∈ A ↔ W.ReplayMissed k := by
  refine ⟨fun hm => ?_, fun hr => (hA.mem_iff k hr.1 hr.2.1).2 hr.2.2.1⟩
  have hlt := hA.lt_hi k hm
  obtain ⟨rfl, -⟩ | ⟨hk, hseen, -⟩ | ⟨hk, -, -⟩ := step_eq_some h
  · exact ⟨Nat.le_refl _, hlt, (hA.mem_iff _ (Nat.le_refl _) hlt).1 hm, .inl rfl⟩
  · have hs := (hA.mem_iff k (Nat.le_of_lt hk.1) hk.2).1 hm
    exact ⟨Nat.le_of_lt hk.1, hk.2, hs, .inr (Nat.le_of_not_lt fun hc => hseen ⟨hs, hc⟩)⟩
  · omega

/-- A rejected packet is not a replay that the window misses. -/
theorem not_replayMissed_of_step_eq_none (h : W.step k = none) : ¬ W.ReplayMissed k := by
  have hhi := W.hi_le
  have := step_eq_none h
  intro ⟨h1, h2, _, h3⟩
  omega

/-- Nothing is accepted twice exactly when the window misses no replay. -/
theorem nodup_accepted_iff (ks : List ℕ) :
    ∀ {W : Window} {A : List ℕ}, W.Accepted A → A.Nodup →
      ((A ++ W.accepted ks).Nodup ↔ AllSteps next (fun W k => ¬ W.ReplayMissed k) W ks) := by
  induction ks with
  | nil => intro W A _ hA; simpa [accepted] using hA
  | cons k ks ih =>
    intro W A hW hA
    rw [accepted, allSteps_cons, next]
    cases h : W.step k with
    | none =>
      have hnot := not_replayMissed_of_step_eq_none h
      simpa [hnot] using ih hW hA
    | some W' =>
      have hmem := hW.mem_iff_replayMissed h
      rw [← hmem]
      by_cases hk : k ∈ A
      · have hdup : ¬ (A ++ k :: W'.accepted ks).Nodup := fun hn =>
          (nodup_append.1 hn).2.2 k hk k mem_cons_self rfl
        simp [hk, hdup]
      · have hA' : (A ++ [k]).Nodup := by
          rw [nodup_append]
          exact ⟨hA, nodup_singleton k,
            fun a ha b hb => by rw [mem_singleton.1 hb]; exact fun he => hk (he ▸ ha)⟩
        have := ih (hW.step h) hA'
        simpa [hk] using this

end Window

/-! ## Replays of the code -/

namespace SeqVerifyInfo

/-- `r` lies in the window and its bit is set. -/
def recorded (info : SeqVerifyInfo) (r : Int32) : Bool :=
  decide (dist info.minSeq r < info.width) && info.recvBitmap.toNat.testBit (dist r info.maxSeq)

/-- `r` is recorded, and either it equals `minSeq` or it is 32 or more below `maxSeq`. -/
def replayMissed (info : SeqVerifyInfo) (r : Int32) : Bool :=
  info.recorded r && (r == info.minSeq || decide (32 ≤ dist r info.maxSeq))

end SeqVerifyInfo

theorem replayMissed_iff {info : SeqVerifyInfo} (h : Sim s info W) (hk : k < 2 ^ 31) (hlo : W.lo ≤ 2 ^ 31) :
    info.replayMissed (packet s k) = true ↔ W.ReplayMissed k := by
  have hhi := W.hi_le
  have hw := h.width_eq
  unfold packet SeqVerifyInfo.replayMissed SeqVerifyInfo.recorded Window.ReplayMissed
  simp only [Bool.and_eq_true, Bool.or_eq_true, decide_eq_true_eq, beq_iff_eq]
  by_cases hin : W.lo ≤ k ∧ k < W.hi
  · have hmin := h.dist_minSeq hin.1 (by omega)
    have hmax : dist (s + Int32.ofNat k) info.maxSeq = W.hi - k := by
      rw [h.maxSeq, Int32.dist_ofNat_ofNat s (Nat.le_of_lt hin.2) (by omega)]
    have heq : s + Int32.ofNat k = info.minSeq ↔ k = W.lo := by
      rw [← Int32.dist_eq_zero]; omega
    rw [hmin, hmax, hw, heq, h.bits k hin.1 hin.2]
    have h1 : k - W.lo < W.hi - W.lo := by omega
    simp only [h1, hin.1, hin.2, true_and]
  · -- outside the window the distance from `minSeq` is at least the width
    have hfar : ¬ dist info.minSeq (s + Int32.ofNat k) < info.width := by
      by_cases hlo' : W.lo ≤ k
      · rw [h.dist_minSeq hlo' (by omega)]; omega
      · rw [h.minSeq, Int32.dist_ofNat_ofNat_of_lt s (by omega) (by omega)]; omega
    have hnot : ¬ (W.lo ≤ k ∧ k < W.hi ∧ k ∈ W.seen ∧ (k = W.lo ∨ 32 ≤ W.hi - k)) :=
      fun hc => hin ⟨hc.1, hc.2.1⟩
    simp only [hfar, false_and, hnot]

/-- While the counts stay below half the circle, so does the window. -/
theorem Window.hi_next_le (hhi : W.hi ≤ 2 ^ 31) (hk : k < 2 ^ 31) : (W.next k).hi ≤ 2 ^ 31 := by
  unfold Window.next
  cases h : W.step k with
  | none => exact hhi
  | some W' =>
    obtain ⟨rfl, rfl⟩ | ⟨_, -, rfl⟩ | ⟨_, -, rfl⟩ := Window.step_eq_some h
    · exact Nat.max_le.2 ⟨hhi, hk⟩
    · exact hhi
    · exact hk

/-- A run of the code below half the circle accepts what the abstract window accepts,
    and misses the replays that it misses. -/
theorem sim_run (hks : ∀ k ∈ ks, k < 2 ^ 31) :
    ∀ {info : SeqVerifyInfo} {W : Window}, Sim s info W → W.hi ≤ 2 ^ 31 →
      accepted info (ks.map (packet s)) = (W.accepted ks).map (packet s) ∧
      (AllSteps seqStep (fun info r => info.replayMissed r = false) info (ks.map (packet s)) ↔
        AllSteps Window.next (fun W k => ¬ W.ReplayMissed k) W ks) := by
  induction ks with
  | nil => intro info W _ _; simp [accepted, Window.accepted]
  | cons k ks ih =>
    intro info W h hhi
    have hk := hks k mem_cons_self
    have hlo := W.lo_le_hi
    obtain ⟨hpass, hnext⟩ := sim_next h (k := k) (by omega) (by omega)
    obtain ⟨hacc, hall⟩ := ih (fun j hj => hks j (mem_cons_of_mem _ hj)) hnext
      (Window.hi_next_le hhi hk)
    have hmiss := replayMissed_iff h hk (by omega)
    refine ⟨?_, ?_⟩
    · rw [map_cons, accepted, hacc, hpass, Window.accepted]
      cases hW : W.step k with
      | none => simp [Window.next, hW]
      | some W' => simp
    · rw [map_cons, allSteps_cons, allSteps_cons, hall, ← hmiss, Bool.not_eq_true]

theorem nodup_map_packet (hks : ∀ k ∈ ks, k < 2 ^ 31) : (ks.map (packet s)).Nodup ↔ ks.Nodup := by
  refine ⟨List.Nodup.of_map _, fun h => h.map_on fun a ha b hb hab => ?_⟩
  have ha' := Int32.dist_ofNat_ofNat s (Nat.zero_le a) (by have := hks a ha; omega)
  have hb' := Int32.dist_ofNat_ofNat s (Nat.zero_le b) (by have := hks b hb; omega)
  unfold packet at hab
  rw [hab] at ha'
  omega

/-- Of numbers less than half the circle after `s`, a run from the fresh window accepts
    none twice exactly when no call gets a recorded number that equals `minSeq` or is
    32 or more below `maxSeq`. -/
theorem no_replay_iff (s : Int32) (recvs : List Int32) (hspan : ∀ r ∈ recvs, dist s r < 2 ^ 31) :
    (accepted (.fresh s) recvs).Nodup ↔
      AllSteps seqStep (fun info r => info.replayMissed r = false) (.fresh s) recvs := by
  have hmap : recvs = (recvs.map (dist s)).map (packet s) := by
    simp [map_map, Function.comp_def, packet_dist]
  have hks : ∀ k ∈ recvs.map (dist s), k < 2 ^ 31 := by simpa using hspan
  obtain ⟨hacc, hall⟩ := sim_run hks sim_fresh (Nat.zero_le _)
  have hnil : Window.empty.Accepted [] := ⟨by simp, by simp [Window.empty]⟩
  have hnodup := Window.nodup_accepted_iff (recvs.map (dist s)) hnil nodup_nil
  rw [nil_append] at hnodup
  have hsub : ∀ k ∈ Window.empty.accepted (recvs.map (dist s)), k < 2 ^ 31 :=
    fun k hk => hks k ((Window.accepted_sublist _).subset hk)
  rw [hmap, hacc, hall, ← hnodup, nodup_map_packet hsub]

/-- In the order 1, 0, 1 the second 1 stands at `minSeq` and is accepted again. -/
theorem no_replay_fails : ¬ (accepted (.fresh 0) [1, 0, 1]).Nodup := by decide

/-- The packets 3, 5, 4 and then a replay of 5, which is caught. -/
theorem no_replay_iff_caught : (accepted (.fresh 0) [3, 5, 4, 5]).Nodup :=
  (no_replay_iff 0 [3, 5, 4, 5] (forall_mem_iff_getElem.2 (by decide))).2 (by decide)

end SoftBus.Native
