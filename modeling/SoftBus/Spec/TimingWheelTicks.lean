import SoftBus.ForStd.Cyclic
import SoftBus.Spec.TimingWheel

/-!
# Timing wheel: ticks

The hands of the wheel show the number of ticks that it has made, in three digits.  A timer is added for a tick `X`, and its
slots are the digits of `X` that differ, or are above one that differs, from those of the present tick.
-/

namespace SoftBus.Native
open Function FillpTimingWheelTimerNode FillpTimingWheel TimingHand WheelClock
variable {j : ℤ} {h' : TimingHand} {J : List ℤ}
variable {s : FillpTimingWheel} {c : WheelClock} {h : TimingHand} {a K X t expireTime : ℤ} {n : ℕ}

/-- A conversion that loses nothing. -/
theorem fillpInt_eq {x : ℤ} (hlo : -2 ^ 31 ≤ x) (hhi : x < 2 ^ 31) : fillpInt x = x := by
  rw [fillpInt, Int.bmod_eq_of_le] <;> omega

/-- The ticks of one step of a hand. -/
def TimingHand.ticks : TimingHand → ℤ
  | .sec => 1
  | .min => 8
  | .hour => 64

/-- The slots for the tick `X`, seen from the tick `K`. -/
def plan (K X : ℤ) (h : TimingHand) : Option ℤ := if K / h.ticks < X / h.ticks then some (X / h.ticks % 8) else none

theorem plan_of_lt (hlt : K / h.ticks < X / h.ticks) : plan K X h = some (X / h.ticks % 8) := if_pos hlt

theorem plan_of_not (hnot : ¬ K / h.ticks < X / h.ticks) : plan K X h = none := if_neg hnot

namespace WheelClock

/-- The wheel has the accuracy `a` and has made `K` ticks. -/
structure At (c : WheelClock) (a K : ℤ) : Prop where
  pos : 0 < a
  small : a * 512 < 2 ^ 31
  accuracy : c.accuracy = a
  secAccuracy : c.secAccuracy = a
  hourLength : c.hourLength = a * 512
  curTick : ∀ h, c.curTick h = K / h.ticks % 8

section
variable (c)

/-- The clock after the hand `h` has gone on to `k`. -/
def move (h : TimingHand) (k : ℤ) : WheelClock := { c with curTick := update c.curTick h k }

/-- In how many ticks a timer is due. -/
def dist (expireTime : ℤ) : ℤ := max 1 ((expireTime - c.curTime) / c.accuracy)

/-- The number of ticks up to the expiry fits into a `FILLP_INT`. -/
def InRange (expireTime : ℤ) : Prop := (expireTime - c.curTime) / c.accuracy < 2 ^ 31 - 8

end

/-- The expiry of a timer comes nearer. -/
theorem InRange.mono {c' : WheelClock} (he : c.InRange expireTime) (hc : c.At a K) (hacc : c'.accuracy = c.accuracy)
    (htime : c.curTime ≤ c'.curTime) : c'.InRange expireTime := by
  refine lt_of_le_of_lt ?_ he
  rw [hacc]
  exact Int.ediv_le_ediv (hc.accuracy ▸ hc.pos) (by omega)

theorem tickDiff_eq (hc : c.At a K) (he : c.InRange expireTime) : c.tickDiff expireTime = c.dist expireTime := by
  have hpos := hc.pos
  rw [InRange, hc.accuracy] at he
  rw [tickDiff, dist, hc.secAccuracy, hc.accuracy]
  split
  next hlt =>
    have hlt' : (expireTime - c.curTime) / a < 1 := Int.ediv_lt_of_lt_mul hpos (by omega)
    rw [Int.tdiv_self hpos.ne', max_eq_left (by omega)]
    decide
  next hge =>
    have hone : 1 ≤ (expireTime - c.curTime) / a := Int.le_ediv_of_mul_le hpos (by omega)
    rw [Int.tdiv_eq_ediv_of_nonneg (by omega), max_eq_right hone, fillpInt_eq (by omega) (by omega)]

theorem slots_eq (hc : c.At a K) (he : c.InRange expireTime) : c.slots expireTime = plan K (K + c.dist expireTime) := by
  have hdist : 1 ≤ c.dist expireTime ∧ c.dist expireTime < 2 ^ 31 - 8 := by
    rw [InRange] at he
    rw [dist]
    omega
  have hsec := hc.curTick .sec
  have hmin := hc.curTick .min
  have hhour := hc.curTick .hour
  simp only [ticks, Int.ediv_one] at hsec hmin hhour
  have hsecTick : c.secTick expireTime = K % 8 + c.dist expireTime := by
    rw [secTick, tickDiff_eq hc he, hsec, fillpInt_eq (by omega) (by omega)]
  have hminTick : c.minTick expireTime = (K % 8 + c.dist expireTime) / 8 + K / 8 % 8 := by
    rw [minTick, hsecTick, hmin, fillpTimingWheelSlotNum, Int.tdiv_eq_ediv_of_nonneg (by omega), fillpInt_eq (by omega) (by omega)]
  have hhourTick : c.hourTick expireTime = ((K % 8 + c.dist expireTime) / 8 + K / 8 % 8) / 8 + K / 64 % 8 := by
    rw [hourTick, hminTick, hhour, fillpTimingWheelSlotNum, Int.tdiv_eq_ediv_of_nonneg (by omega), fillpInt_eq (by omega) (by omega)]
  generalize c.dist expireTime = d at hdist hsecTick hminTick hhourTick ⊢
  funext h
  cases h with
  | sec =>
    have hlt : K / sec.ticks < (K + d) / sec.ticks := by
      simp only [ticks]
      omega
    rw [slots, plan_of_lt hlt, fillpTimingWheelSlotNum, Int.tmod_eq_emod_of_nonneg (by omega)]
    simp only [ticks, Option.some.injEq]
    omega
  | min =>
    rw [slots, fillpTimingWheelSlotNum, Int.tmod_eq_emod_of_nonneg (by omega)]
    by_cases hcross : K / 8 < (K + d) / 8
    · rw [plan_of_lt hcross, if_pos (by omega)]
      simp only [ticks, Option.some.injEq]
      omega
    · rw [plan_of_not hcross, if_neg (by omega)]
  | hour =>
    rw [slots, fillpTimingWheelSlotNum, Int.tmod_eq_emod_of_nonneg (by omega),
      Int.tdiv_eq_ediv_of_nonneg (by omega)]
    by_cases hcross : K / 64 < (K + d) / 64
    · rw [plan_of_lt hcross, if_pos (by omega)]
      simp only [ticks, Option.some.injEq]
      omega
    · rw [plan_of_not hcross, if_neg (by omega)]

end WheelClock

theorem plan_range (hj : j ∈ plan K X h) : 0 ≤ j ∧ j < fillpTimingWheelSlotNum := by
  rw [plan] at hj
  split at hj
  next =>
    obtain rfl := Option.some.inj hj
    exact ⟨Int.emod_nonneg _ (by decide), Int.emod_lt_of_pos _ (by decide)⟩
  next => cases hj

/-! ## Moving the hands -/

/-- The slots that a hand passes while the wheel goes on from tick `K` to tick `K'`. -/
def passed (K K' : ℤ) (h : TimingHand) : List ℤ :=
  if K / h.ticks < K' / h.ticks then Cyclic.slots 8 (min (K' / h.ticks - K / h.ticks) 7 + 1).toNat (K / h.ticks % 8) else []

variable {K' : ℤ}

theorem passed_of_lt (hlt : K / h.ticks < K' / h.ticks) :
    passed K K' h = Cyclic.slots 8 (min (K' / h.ticks - K / h.ticks) 7 + 1).toNat (K / h.ticks % 8) := if_pos hlt

theorem passed_of_not (hnot : ¬ K / h.ticks < K' / h.ticks) : passed K K' h = [] := if_neg hnot

theorem mem_passed :
    j ∈ passed K K' h ↔ K / h.ticks < K' / h.ticks ∧ ∃ z, K / h.ticks ≤ z ∧ z ≤ K' / h.ticks ∧ z % 8 = j := by
  rw [passed]
  split
  next hlt =>
    rw [and_iff_right hlt]
    refine (Cyclic.mem_slots_min (by decide) (by omega)).trans ?_
    rw [show K / h.ticks + (K' / h.ticks - K / h.ticks) = K' / h.ticks by omega]
  next hnot => simp [hnot]

theorem nodup_passed : (passed K K' h).Nodup := by
  rw [passed]
  split
  next => exact Cyclic.nodup_slots (by decide) (by omega)
  next => exact List.nodup_nil

instance {now hourLength : ℤ} {J : List ℤ} {node : FillpTimingWheelTimerNode} : Decidable (node.Recycles now hourLength J) :=
  inferInstanceAs (Decidable (_ ∧ _ ∧ _))

namespace FillpTimingWheelTimerNode

/-- What the hour hand does to a timer, where the clock then shows `c`. -/
def tickHour (K K' : ℤ) (c : WheelClock) (node : FillpTimingWheelTimerNode) : FillpTimingWheelTimerNode :=
  if node.Recycles c.curTime c.hourLength (passed K K' .hour) then node.reinsert c
  else node.passHour c.curTime (passed K K' .hour)

/-- What becomes of a timer when the wheel goes on from tick `K` to tick `K'`, where the clock then shows `c`. -/
def tick (K K' : ℤ) (c : WheelClock) (node : FillpTimingWheelTimerNode) : FillpTimingWheelTimerNode :=
  ((node.pass .sec (passed K K' .sec)).pass .min (passed K K' .min)).tickHour K K' c

end FillpTimingWheelTimerNode

namespace FillpTimingWheel

theorem sweepLoop_eq (body : ℤ → FillpTimingWheel → FillpTimingWheel) (count : ℕ) (i : ℤ) :
    sweepLoop body count i s = (Cyclic.slots 8 count i).foldl (fun s j => body j s) s := by
  induction count generalizing i s with
  | zero => rfl
  | succ count ih =>
    rw [sweepLoop, ih]
    rfl

theorem clock_setTick (k : ℤ) : (s.setTick h k).clock = s.clock.move h k := by
  have htick : (fun h' => ((s.setTick h k).hand h').curTick) = update s.clock.curTick h k := by
    funext h'
    cases h <;> cases h' <;> rfl
  cases h <;> simp only [clock, htick, move] <;> rfl

theorem Wf.setTick (hs : s.Wf) (h : TimingHand) (k : ℤ) : (s.setTick h k).Wf := by
  have hlist : ∀ h', ((s.setTick h k).hand h').slotList = (s.hand h').slotList := fun h' => by
    cases h <;> cases h' <;> rfl
  refine ⟨⟨fun h' j n => ?_, fun h' j => ?_, hs.memCb, hs.nodupCb⟩, hs.node⟩
  · rw [hlist]
    exact hs.mem h' j n
  · rw [hlist]
    exact hs.nodup h' j

/-- What a hand does to the timers of its slots. -/
theorem Wf.sweepLoop (hs : s.Wf) (hlt : K / h.ticks < K' / h.ticks) :
    Turns s (FillpTimingWheel.sweepLoop (FillpTimingWheel.sweepSlot h) (min (K' / h.ticks - K / h.ticks) 7 + 1).toNat (K / h.ticks % 8) s)
      fun m => (s.node m).pass h (passed K K' h) := by
  rw [sweepLoop_eq, passed, if_pos hlt]
  exact hs.foldl_sweepSlot _

/-- A state with the clock `c` and the timers `nodes`. -/
structure Lands (s : FillpTimingWheel) (c : WheelClock) (nodes : ℕ → FillpTimingWheelTimerNode) : Prop where
  wf : s.Wf
  clock : s.clock = c
  node : s.node = nodes
  cycle : s.hourCycleList = []

theorem badTick_eq (hs : s.clock.curTick h = K / h.ticks % 8) : s.badTick h = false := by
  have htick : (s.hand h).curTick = K / h.ticks % 8 := hs
  rw [badTick, fillpTimingWheelSlotNum, Bool.or_eq_false_iff, decide_eq_false_iff_not, decide_eq_false_iff_not]
  omega

theorem Wf.fillpTimingWheelHandHourTick (hs : s.Wf) (hcycle : s.hourCycleList = [])
    (htick : s.clock.curTick .hour = K / 64 % 8) (hlt : K / 64 < K' / 64)
    (hrange : ∀ m j, (s.node m).slot .hour = some j → ∀ h,
      ∀ j ∈ (s.clock.move .hour (K' / 64 % 8)).slots (s.node m).expireTime h, 0 ≤ j ∧ j < fillpTimingWheelSlotNum) :
    Lands (s.fillpTimingWheelHandHourTick (K' / 64 - K / 64)) (s.clock.move .hour (K' / 64 % 8)) fun m =>
      (s.node m).tickHour K K' (s.clock.move .hour (K' / 64 % 8)) := by
  have htick' : (s.hand .hour).curTick = K / hour.ticks % 8 := htick
  have hloop : fillpInt (min (K' / 64 - K / 64) (fillpTimingWheelSlotNum - 1)) =
      min (K' / hour.ticks - K / hour.ticks) 7 := by
    rw [fillpTimingWheelSlotNum, fillpInt_eq (by omega) (by omega)]
    rfl
  rw [FillpTimingWheel.fillpTimingWheelHandHourTick, badTick_eq htick, if_neg (by decide), hloop, htick', sweepLoop_eq]
  rw [← passed_of_lt (h := .hour) hlt]
  obtain ⟨l, hnodup, hmem, hsweep⟩ := hs.foldl_sweepHourSlot nodup_passed
  generalize (passed K K' .hour).foldl (fun s j => s.sweepHourSlot j) s = s₁ at hsweep ⊢
  have hclock₁ : s₁.clock = s.clock := hsweep.clock
  have htick₁ : (s₁.hand .hour).curTick = K / 64 % 8 := (congrFun (congrArg curTick hclock₁) .hour).trans htick
  have hmod : fillpInt (((s₁.hand .hour).curTick + (K' / 64 - K / 64)).tmod fillpTimingWheelSlotNum) = K' / 64 % 8 := by
    rw [fillpTimingWheelSlotNum, Int.tmod_eq_emod_of_nonneg (by omega), fillpInt_eq (by omega) (by omega)]
    omega
  dsimp only
  rw [hmod]
  have hs₂ := hsweep.wf.setTick .hour (K' / 64 % 8)
  have hclock₂ : (s₁.setTick .hour (K' / 64 % 8)).clock = s.clock.move .hour (K' / 64 % 8) := by
    rw [clock_setTick, hclock₁]
  have hnode₂ : (s₁.setTick .hour (K' / 64 % 8)).node = fun m => (s.node m).passHour s.curTime (passed K K' .hour) := hsweep.node
  have hcycle₂ : (s₁.setTick .hour (K' / 64 % 8)).hourCycleList = l := by
    show s₁.hourCycleList = l
    rw [hsweep.cycle, hcycle]
    rfl
  generalize s₁.setTick .hour (K' / 64 % 8) = s₂ at hs₂ hclock₂ hnode₂ hcycle₂ ⊢
  -- The timers that are added again have not left their slots.
  have hstay : ∀ m ∈ l, s₂.node m = s.node m := fun m hm => by
    rw [hnode₂]
    exact if_neg (by have := ((hmem m).1 hm).2.1; omega)
  have hloop' := hs₂.recycleLoop hcycle₂ hnodup
    (fun m hm => by
      obtain ⟨⟨j, -, hslot⟩, -⟩ := (hmem m).1 hm
      rw [hstay m hm]
      exact (hs.node m).enabled_of_slot hslot)
    (fun m hm => by
      obtain ⟨⟨j, -, hslot⟩, -⟩ := (hmem m).1 hm
      rw [hstay m hm, hclock₂]
      exact hrange m j hslot)
  rw [hcycle₂]
  refine ⟨hloop'.wf, hloop'.clock.trans hclock₂, ?_, hloop'.cycle⟩
  rw [hloop'.node]
  funext m
  by_cases hm : m ∈ l
  · rw [if_pos hm, hstay m hm, hclock₂]
    exact (if_pos ((hmem m).1 hm)).symm
  · rw [if_neg hm, hnode₂]
    exact (if_neg (mt (hmem m).2 hm)).symm

/-- What a hand below the hour hand does, before the next hand goes on. -/
theorem Wf.sweepHand (hs : s.Wf) (hcycle : s.hourCycleList = []) (htick : s.clock.curTick h = K / h.ticks % 8)
    (hlt : K / h.ticks < K' / h.ticks) :
    Lands ((FillpTimingWheel.sweepLoop (FillpTimingWheel.sweepSlot h) (min (K' / h.ticks - K / h.ticks) 7 + 1).toNat
        (s.hand h).curTick s).setTick h (K' / h.ticks % 8)) (s.clock.move h (K' / h.ticks % 8)) fun m =>
      (s.node m).pass h (passed K K' h) := by
  have htick' : (s.hand h).curTick = K / h.ticks % 8 := htick
  rw [htick']
  have hsweep := hs.sweepLoop hlt
  refine ⟨hsweep.wf.setTick h _, ?_, hsweep.node, hsweep.cycle.trans hcycle⟩
  rw [clock_setTick, hsweep.clock]

end FillpTimingWheel

namespace FillpTimingWheelTimerNode
variable {node : FillpTimingWheelTimerNode}

theorem pass_passed_of_not (hnot : ¬ K / h.ticks < K' / h.ticks) : node.pass h (passed K K' h) = node := by
  rw [passed_of_not hnot]
  exact pass_of_not (by simp)

theorem tickHour_of_not (hnot : ¬ K / 64 < K' / 64) : node.tickHour K K' c = node := by
  have hempty : passed K K' .hour = [] := passed_of_not hnot
  rw [tickHour, hempty, if_neg, passHour, pass_of_not, ite_self]
  · simp
  · simp [Recycles]

/-- A timer that is still linked was so before. -/
theorem slot_pass (hslot : (node.pass h J).slot h' = some j) : node.slot h' = some j := by
  obtain heq | ⟨-, -, heq⟩ := node.pass_cases
  · rwa [heq] at hslot
  · rw [heq, slot_leave] at hslot
    by_cases hh : h' = h
    · subst hh
      simp at hslot
    · rwa [update_of_ne hh] at hslot

end FillpTimingWheelTimerNode

namespace FillpTimingWheel

/-- A hand goes on from `a` to `b`: its new tick, and how far the next hand goes. -/
theorem handTick_eq {b c : ℤ} (hc : c = a % 8) (hlt : a < b) (hk : b - a < 2 ^ 31 - 8) :
    (fillpInt (b - a + c)).tmod fillpTimingWheelSlotNum = b % 8 ∧
      (fillpInt (b - a + c)).tdiv fillpTimingWheelSlotNum = b / 8 - a / 8 := by
  rw [fillpInt_eq (by omega) (by omega), fillpTimingWheelSlotNum,
    Int.tmod_eq_emod_of_nonneg (by omega), Int.tdiv_eq_ediv_of_nonneg (by omega)]
  constructor <;> omega

theorem Wf.fillpTimingWheelHandMinTick (hs : s.Wf) (hcycle : s.hourCycleList = [])
    (htick : s.clock.curTick .min = K / 8 % 8) (htick' : s.clock.curTick .hour = K / 64 % 8)
    (hlt : K / 8 < K' / 8) (hk : K' / 8 - K / 8 < 2 ^ 31 - 8)
    (hrange : ∀ m j, (s.node m).slot .hour = some j → ∀ h,
      ∀ j ∈ ((s.clock.move .min (K' / 8 % 8)).move .hour (K' / 64 % 8)).slots (s.node m).expireTime h,
        0 ≤ j ∧ j < fillpTimingWheelSlotNum) :
    Lands (s.fillpTimingWheelHandMinTick (K' / 8 - K / 8)) ((s.clock.move .min (K' / 8 % 8)).move .hour (K' / 64 % 8)) fun m =>
      ((s.node m).pass .min (passed K K' .min)).tickHour K K' ((s.clock.move .min (K' / 8 % 8)).move .hour (K' / 64 % 8)) := by
  have hcur : (s.hand .min).curTick = K / 8 % 8 := htick
  have hloop : fillpInt (min (K' / 8 - K / 8) (fillpTimingWheelSlotNum - 1)) =
      min (K' / min.ticks - K / min.ticks) 7 := by
    rw [fillpTimingWheelSlotNum, fillpInt_eq (by omega) (by omega)]
    rfl
  obtain ⟨hmod, hdiv⟩ := handTick_eq hcur hlt hk
  replace hmod : _ = K' / min.ticks % 8 := hmod
  replace hdiv : _ = K' / 64 - K / 64 := hdiv.trans (by omega)
  rw [FillpTimingWheel.fillpTimingWheelHandMinTick, badTick_eq htick, if_neg (by decide), hloop, hmod, hdiv]
  have hsweep : Lands _ (s.clock.move .min (K' / 8 % 8)) _ := hs.sweepHand hcycle htick hlt
  dsimp only
  generalize (FillpTimingWheel.sweepLoop _ _ _ s).setTick .min (K' / TimingHand.min.ticks % 8) = s₁ at hsweep ⊢
  have htick₁ : s₁.clock.curTick .hour = K / 64 % 8 := by
    rw [hsweep.clock]
    exact htick'
  by_cases hover : K / 64 < K' / 64
  · rw [if_pos (by omega)]
    have hhour := hsweep.wf.fillpTimingWheelHandHourTick hsweep.cycle htick₁ hover fun m j hslot => by
      rw [hsweep.node] at hslot ⊢
      rw [hsweep.clock, expireTime_pass]
      exact hrange m j (slot_pass hslot)
    rw [hsweep.clock, hsweep.node] at hhour
    exact hhour
  · -- The hour hand stays.
    have hsame : (s.clock.move .min (K' / 8 % 8)).move .hour (K' / 64 % 8) = s.clock.move .min (K' / 8 % 8) := by
      have heq : K' / 64 % 8 = (s.clock.move .min (K' / 8 % 8)).curTick .hour := by
        show K' / 64 % 8 = s.clock.curTick .hour
        omega
      rw [move, heq, update_eq_self]
    rw [if_neg (by omega), hsame]
    simp only [tickHour_of_not hover]
    exact hsweep

theorem Wf.fillpTimingWheelHandSecTick (hs : s.Wf) (hcycle : s.hourCycleList = [])
    (htick : ∀ h, s.clock.curTick h = K / h.ticks % 8) (hlt : K < K') (hk : K' - K < 2 ^ 31 - 8)
    (hrange : ∀ m j, (s.node m).slot .hour = some j → ∀ h,
      ∀ j ∈ ({ s.clock with curTick := fun h => K' / h.ticks % 8 } : WheelClock).slots (s.node m).expireTime h,
        0 ≤ j ∧ j < fillpTimingWheelSlotNum) :
    Lands (s.fillpTimingWheelHandSecTick (K' - K)) { s.clock with curTick := fun h => K' / h.ticks % 8 } fun m =>
      (s.node m).tick K K' { s.clock with curTick := fun h => K' / h.ticks % 8 } := by
  have hcur : (s.hand .sec).curTick = K % 8 := (htick .sec).trans (by rw [ticks, Int.ediv_one])
  have hmin : s.clock.curTick .min = K / 8 % 8 := htick .min
  have hhour : s.clock.curTick .hour = K / 64 % 8 := htick .hour
  have hloop : min (K' - K) (fillpTimingWheelSlotNum - 1) = min (K' / sec.ticks - K / sec.ticks) 7 := by
    simp only [fillpTimingWheelSlotNum, ticks]
    omega
  obtain ⟨hmod, hdiv⟩ := handTick_eq hcur hlt hk
  replace hmod : _ = K' / sec.ticks % 8 := hmod.trans (by rw [ticks, Int.ediv_one])
  have hlt' : K / sec.ticks < K' / sec.ticks := by
    simp only [ticks]
    omega
  -- The hands have all gone on.
  have hclock : ((s.clock.move .sec (K' / sec.ticks % 8)).move .min (K' / 8 % 8)).move .hour (K' / 64 % 8) =
      { s.clock with curTick := fun h => K' / h.ticks % 8 } := by
    simp only [move]
    congr 1
    funext h
    cases h <;> rfl
  rw [FillpTimingWheel.fillpTimingWheelHandSecTick, badTick_eq (htick .sec), if_neg (by decide), hloop, hmod, hdiv]
  have hsweep := hs.sweepHand hcycle (htick .sec) hlt'
  rw [← hclock] at hrange ⊢
  by_cases hover : K / 8 < K' / 8
  · rw [if_pos (by omega)]
    have hrest := hsweep.wf.fillpTimingWheelHandMinTick hsweep.cycle (by rw [hsweep.clock]; exact hmin)
      (by rw [hsweep.clock]; exact hhour) hover (by omega) fun m j hslot => by
        rw [hsweep.node] at hslot ⊢
        rw [hsweep.clock, expireTime_pass]
        exact hrange m j (slot_pass hslot)
    rw [hsweep.clock, hsweep.node] at hrest
    exact hrest
  · -- The other hands stay.
    have hsame : ((s.clock.move .sec (K' / sec.ticks % 8)).move .min (K' / 8 % 8)).move .hour (K' / 64 % 8) =
        s.clock.move .sec (K' / sec.ticks % 8) := by
      simp only [move]
      congr 1
      funext h
      cases h with
      | sec => rfl
      | min =>
        show K' / 8 % 8 = s.clock.curTick .min
        omega
      | hour =>
        show K' / 64 % 8 = s.clock.curTick .hour
        omega
    have hnot : ¬ K / 64 < K' / 64 := by omega
    rw [if_neg (by omega), hsame]
    simp only [tick, tickHour_of_not hnot, pass_passed_of_not (h := .min) hover]
    exact hsweep

end FillpTimingWheel

namespace FillpTimingWheelTimerNode
variable {node : FillpTimingWheelTimerNode}

theorem expireTime_passHour (now : ℤ) : (node.passHour now J).expireTime = node.expireTime := by
  rw [passHour]
  split
  next => exact expireTime_pass ..
  next => rfl

theorem notMem_of_slot_pass (hslot : (node.pass h J).slot h = some j) : j ∉ J := by
  intro hj
  rw [pass_of_mem (slot_pass hslot) hj, slot_leave, update_self] at hslot
  cases hslot

theorem slot_pass_of_ne (hne : h' ≠ h) : (node.pass h J).slot h' = node.slot h' :=
  apply_pass (g := (slot · h')) (by rw [slot_leave, update_of_ne hne])

/-- The second and the minute hand do not matter to the hour hand. -/
theorem recycles_pass {now hourLength : ℤ} {J' J'' : List ℤ} :
    ((node.pass .sec J).pass .min J').Recycles now hourLength J'' ↔ node.Recycles now hourLength J'' := by
  have hslot : ((node.pass .sec J).pass .min J').slot .hour = node.slot .hour := by
    rw [slot_pass_of_ne (h := .min) (by decide), slot_pass_of_ne (h := .sec) (by decide)]
  rw [Recycles, Recycles, hslot, expireTime_pass, expireTime_pass]

theorem tick_of_recycles (hrec : node.Recycles c.curTime c.hourLength (passed K K' .hour)) :
    node.tick K K' c = node.reinsert c := by
  rw [tick, tickHour, if_pos (recycles_pass.2 hrec), reinsert, reinsert, deleted, deleted, expireTime_pass, expireTime_pass,
    cb_pass, cb_pass]

theorem tick_of_not_recycles (hrec : ¬ node.Recycles c.curTime c.hourLength (passed K K' .hour)) :
    node.tick K K' c = ((node.pass .sec (passed K K' .sec)).pass .min (passed K K' .min)).passHour c.curTime
      (passed K K' .hour) := by
  rw [tick, tickHour, if_neg (mt recycles_pass.1 hrec)]

/-- A timer stays in a slot that its hand does not pass, unless it is added again. -/
theorem slot_tick_of_not {y : ℤ} (hslot : node.slot h = some y) (hnot : y ∉ passed K K' h)
    (hrec : ¬ node.Recycles c.curTime c.hourLength (passed K K' .hour)) : (node.tick K K' c).slot h = some y := by
  have hpass : ∀ {node : FillpTimingWheelTimerNode} (h' : TimingHand), node.slot h = some y →
      (node.pass h' (passed K K' h')).slot h = some y := fun {node} h' hslot => by
    by_cases hne : h = h'
    · subst hne
      have hstay : node.pass h (passed K K' h) = node := pass_of_not fun j hj heq =>
        hnot (Option.some.inj (hslot.symm.trans heq) ▸ hj)
      rw [hstay, hslot]
    · rw [slot_pass_of_ne hne, hslot]
  rw [tick_of_not_recycles hrec, passHour]
  split
  next => exact hpass .hour (hpass .min (hpass .sec hslot))
  next => exact hpass .min (hpass .sec hslot)

theorem expireTime_tick : (node.tick K K' c).expireTime = node.expireTime := by
  have hpass : ((node.pass .sec (passed K K' .sec)).pass .min (passed K K' .min)).expireTime = node.expireTime := by
    rw [expireTime_pass, expireTime_pass]
  rw [tick, tickHour]
  split
  next => exact hpass
  next => rw [expireTime_passHour, hpass]

/-- A timer that is in no slot stays as it is. -/
theorem tick_of_none (hnone : ∀ h, node.slot h = none) : node.tick K K' c = node := by
  have hpass : ∀ h J, node.pass h J = node := fun h J => pass_of_not fun j _ hslot => by
    rw [hnone h] at hslot
    cases hslot
  rw [tick, hpass, hpass, tickHour, if_neg, passHour, hpass, ite_self]
  rintro ⟨⟨j, -, hslot⟩, -⟩
  rw [hnone .hour] at hslot
  cases hslot

/-- A timer that is linked after a tick was so before. -/
theorem exists_slot_of_tick (hslot : (node.tick K K' c).slot h = some j) :
    ∃ h' j', node.slot h' = some j' := by
  rw [tick, tickHour] at hslot
  split at hslot
  next hrec =>
    obtain ⟨⟨j', -, hslot'⟩, -⟩ := hrec
    exact ⟨.hour, j', slot_pass (slot_pass hslot')⟩
  next =>
    rw [passHour] at hslot
    split at hslot
    next => exact ⟨h, j, slot_pass (slot_pass (slot_pass hslot))⟩
    next => exact ⟨h, j, slot_pass (slot_pass hslot)⟩

end FillpTimingWheelTimerNode

namespace FillpTimingWheel

/-- The state of a wheel with the accuracy `a` that has made `K` ticks. -/
structure Inv (a K : ℤ) (s : FillpTimingWheel) : Prop where
  wf : s.Wf
  clock : s.clock.At a K
  cycle : s.hourCycleList = []
  near : ∀ n h j, (s.node n).slot h = some j → s.clock.InRange (s.node n).expireTime

/-- A call within the accuracy does nothing. -/
theorem Inv.fillpTimingWheelLoopCheck_of_lt (hs : Inv a K s) (hlt : t - s.curTime < a) :
    s.fillpTimingWheelLoopCheck t = s := by
  have hacc : s.accuracy = a := hs.clock.accuracy
  rw [fillpTimingWheelLoopCheck]
  split
  next => rfl
  next hnot =>
    have hzero : fillpInt ((t - s.curTime).tdiv s.accuracy) = 0 := by
      rw [hacc, Int.tdiv_eq_ediv_of_nonneg (by omega), Int.ediv_eq_zero_of_lt (by omega) hlt]
      decide
    exact if_pos hzero

/-- What a call does that makes ticks. -/
theorem Inv.fillpTimingWheelLoopCheck (hs : Inv a K s) (hle : a ≤ t - s.curTime)
    (hk : (t - s.curTime) / a < 2 ^ 31 - 8) :
    Inv a (K + (t - s.curTime) / a) (s.fillpTimingWheelLoopCheck t) ∧ (s.fillpTimingWheelLoopCheck t).curTime = t ∧
      (s.fillpTimingWheelLoopCheck t).node = fun m =>
        (s.node m).tick K (K + (t - s.curTime) / a) (s.fillpTimingWheelLoopCheck t).clock := by
  have hpos := hs.clock.pos
  have hacc : s.accuracy = a := hs.clock.accuracy
  have hone : 1 ≤ (t - s.curTime) / a := Int.le_ediv_of_mul_le hpos (by omega)
  have hint : fillpInt ((t - s.curTime).tdiv s.accuracy) = (t - s.curTime) / a := by
    rw [hacc, Int.tdiv_eq_ediv_of_nonneg (by omega), fillpInt_eq (by omega) (by omega)]
  rw [FillpTimingWheel.fillpTimingWheelLoopCheck, if_neg (by omega), hint, if_neg (by omega)]
  generalize hK' : K + (t - s.curTime) / a = K'
  rw [show (t - s.curTime) / a = K' - K by omega] at hk hone ⊢
  have hwf : ({ s with curTime := t } : FillpTimingWheel).Wf := { hs.wf with }
  have hc : ({ s.clock with curTime := t, curTick := fun h => K' / h.ticks % 8 } : WheelClock).At a K' :=
    ⟨hs.clock.pos, hs.clock.small, hs.clock.accuracy, hs.clock.secAccuracy, hs.clock.hourLength, fun _ => rfl⟩
  -- The expiry of a timer has come nearer.
  have hnear : ∀ n h j, (s.node n).slot h = some j →
      ({ s.clock with curTime := t, curTick := fun h => K' / h.ticks % 8 } : WheelClock).InRange (s.node n).expireTime := by
    intro n h j hslot
    refine (hs.near n h j hslot).mono hs.clock rfl ?_
    show s.curTime ≤ t
    omega
  have hlands := hwf.fillpTimingWheelHandSecTick hs.cycle hs.clock.curTick (by omega) hk
    fun m j hslot h j' hj' => by
      have hslots := slots_eq hc (hnear m .hour j hslot)
      exact plan_range (congrFun hslots h ▸ hj')
  refine ⟨⟨hlands.wf, hlands.clock ▸ hc, hlands.cycle, fun n h j hslot => ?_⟩, congrArg WheelClock.curTime hlands.clock, ?_⟩
  · rw [hlands.node] at hslot ⊢
    rw [hlands.clock, expireTime_tick]
    obtain ⟨h', j', hslot'⟩ := exists_slot_of_tick hslot
    exact hnear n h' j' hslot'
  · rw [hlands.node, hlands.clock]

end FillpTimingWheel
end SoftBus.Native
