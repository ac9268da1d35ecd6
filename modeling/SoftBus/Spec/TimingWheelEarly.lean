import SoftBus.Spec.TimingWheelRuns

/-!
# Timing wheel: timers that fire early

A timer that is due in eight ticks or more loses its bit of the second hand when that hand goes by for the first time.  When
the minute hand comes to its slot, no bit is left, and the callback is run up to seven ticks too early.  So a timer
fires in time if the second hand does not reach its slot before, or if the minute hand does not reach it before
its expiry.

## Main results

- `timers_not_early`: runs in which all timers are added so that they do not fire early
- `timer_fires_early`: a timer that fires too early
-/

namespace SoftBus.Native
open TimingHand
open Run (AllSteps)
variable {s : FillpTimingWheel} {c : WheelClock} {node : FillpTimingWheelTimerNode} {h h' : TimingHand}
  {a K K' t expireTime : ℤ} {n : ℕ}

namespace WheelClock

/-- A timer that is added does not fire early: it is held by the hour hand, or by the second hand until it is due, or by
    the minute hand until shortly before it is due. -/
def SafeInsert (c : WheelClock) (expireTime : ℤ) : Prop :=
  (c.slots expireTime .hour).isSome = true ∨ c.tickDiff expireTime < fillpTimingWheelSlotNum ∨
    expireTime - c.curTime ≤
      (c.tickDiff expireTime - (c.secTick expireTime).tmod fillpTimingWheelSlotNum + 1) * c.accuracy

end WheelClock

namespace FillpTimingWheelTimerNode

/-- The hand `h` holds a timer until it may be fired: the hand will be at the slot of the timer `y` steps after the start, and
    by then the expiry is near. -/
structure Holds (a K : ℤ) (c : WheelClock) (node : FillpTimingWheelTimerNode) (h : TimingHand) (y : ℤ) : Prop where
  slot : node.slot h = some (y % 8)
  lower : K / h.ticks < y
  upper : y < K / h.ticks + 8
  due : node.expireTime - a ≤ c.curTime + (y * h.ticks - K) * a

/-- A timer that is enabled may be fired, or is held by a hand. -/
def Guarded (a K : ℤ) (c : WheelClock) (node : FillpTimingWheelTimerNode) : Prop :=
  node.expireTime - a ≤ c.curTime ∨ (node.slot .hour).isSome = true ∨ ∃ h y, node.Holds a K c h y

theorem Guarded.insert (hc : c.At a K) (he : c.InRange expireTime) (hsafe : c.SafeInsert expireTime) :
    (node.insert c expireTime).Guarded a K c := by
  have hpos := hc.pos
  have hslots := WheelClock.slots_eq hc he
  have htick := WheelClock.tickDiff_eq hc he
  have hdist : 1 ≤ c.dist expireTime ∧ (expireTime - c.curTime) / a ≤ c.dist expireTime := by
    rw [WheelClock.dist, hc.accuracy]
    omega
  have hrange : c.dist expireTime < 2 ^ 31 - 8 := by
    rw [WheelClock.InRange] at he
    rw [WheelClock.dist]
    omega
  -- The timer is due before the tick after its own.
  have hlate : expireTime - a ≤ c.curTime + c.dist expireTime * a := by
    have hlt := Int.lt_ediv_add_one_mul_self (expireTime - c.curTime) hpos
    have hle := Int.mul_le_mul_of_nonneg_right hdist.2 hpos.le
    rw [Int.add_mul] at hlt
    omega
  have hsecTick : (c.secTick expireTime).tmod fillpTimingWheelSlotNum = (K + c.dist expireTime) % 8 := by
    have hsec := hc.curTick .sec
    rw [ticks] at hsec
    rw [WheelClock.secTick, fillpInt_eq (by omega) (by omega), fillpTimingWheelSlotNum,
      Int.tmod_eq_emod_of_nonneg (by omega)]
    omega
  rw [WheelClock.SafeInsert, hslots, htick, hsecTick, hc.accuracy] at hsafe
  have hslot : (node.insert c expireTime).slot = plan K (K + c.dist expireTime) := hslots
  have hexpire : (node.insert c expireTime).expireTime = expireTime := rfl
  generalize c.dist expireTime = d at *
  by_cases hhour : (plan K (K + d) .hour).isSome = true
  · exact .inr (.inl (hslot ▸ hhour))
  · by_cases hshort : d < 8
    · refine .inr (.inr ⟨.sec, K + d, ?_, ?_, ?_, ?_⟩)
      · rw [hslot, plan_of_lt (by simp only [ticks]; omega), ticks, Int.ediv_one]
      · simp only [ticks]
        omega
      · simp only [ticks]
        omega
      · rw [ticks, Int.mul_one, show K + d - K = d by omega]
        exact hlate
    · have hsame : ¬ K / 64 < (K + d) / 64 := fun hlt => hhour (by rw [plan_of_lt (h := .hour) hlt]; rfl)
      have hdue := (hsafe.resolve_left hhour).resolve_left hshort
      refine .inr (.inr ⟨.min, (K + d) / 8, ?_, ?_, ?_, ?_⟩)
      · rw [hslot, plan_of_lt (by simp only [ticks]; omega), ticks]
      · simp only [ticks]
        omega
      · simp only [ticks]
        omega
      · rw [ticks, show (K + d) / 8 * 8 - K = d - (K + d) % 8 by omega]
        rw [Int.add_mul] at hdue
        omega

/-- A hand that has not reached a timer holds it on. -/
theorem Holds.tick {c' : WheelClock} {y : ℤ} (hhold : node.Holds a K c h y) (hle : K ≤ K')
    (htime : c.curTime + (K' - K) * a ≤ c'.curTime) (hafter : K' < y * h.ticks)
    (hrec : ¬ node.Recycles c'.curTime c'.hourLength (passed K K' .hour)) : (node.tick K K' c').Holds a K' c' h y := by
  have hticks : 0 < h.ticks := by cases h <;> decide
  have hy : K' / h.ticks < y := Int.ediv_lt_of_lt_mul hticks hafter
  have hmono : K / h.ticks ≤ K' / h.ticks := Int.ediv_le_ediv hticks hle
  have hupper := hhold.upper
  refine ⟨slot_tick_of_not hhold.slot (fun hmem => ?_) hrec, hy, by omega, ?_⟩
  · -- The slots that the hand passes are less than once round before this one.
    obtain ⟨-, z, hz, hz', hmod⟩ := mem_passed.1 hmem
    omega
  · rw [expireTime_tick]
    have hdue := hhold.due
    rw [Int.sub_mul] at hdue htime ⊢
    omega

theorem Guarded.tick {c' : WheelClock} (hg : node.Guarded a K c) (hc' : c'.At a K') (hle : K ≤ K')
    (htime : c.curTime + (K' - K) * a ≤ c'.curTime) (hrange : ∀ h j, node.slot h = some j → c'.InRange node.expireTime)
    (hsafe : node.Recycles c'.curTime c'.hourLength (passed K K' .hour) → c'.SafeInsert node.expireTime) :
    (node.tick K K' c').Guarded a K' c' := by
  have hpos := hc'.pos
  have hnonneg : 0 ≤ (K' - K) * a := Int.mul_nonneg (by omega) hpos.le
  by_cases hrec : node.Recycles c'.curTime c'.hourLength (passed K K' .hour)
  · -- The timer is added again.
    obtain ⟨j, -, hj⟩ := hrec.1
    rw [tick_of_recycles hrec]
    exact Guarded.insert hc' (hrange .hour j hj) (hsafe hrec)
  · rcases hg with hpast | hhour | ⟨h, y, hhold⟩
    · refine .inl ?_
      rw [expireTime_tick]
      omega
    · -- The hour hand lets a timer go only after its expiry.
      rw [tick_of_not_recycles hrec, passHour]
      split
      next hdue =>
        refine .inl ?_
        rw [expireTime_pass]
        omega
      next =>
        refine .inr (.inl ?_)
        rw [slot_pass_of_ne (h := .min) (by decide), slot_pass_of_ne (h := .sec) (by decide)]
        exact hhour
    · by_cases hafter : K' < y * h.ticks
      · exact .inr (.inr ⟨h, y, hhold.tick hle htime hafter hrec⟩)
      · refine .inl ?_
        rw [expireTime_tick]
        have hdue := hhold.due
        have hmul : (y * h.ticks - K) * a ≤ (K' - K) * a := Int.mul_le_mul_of_nonneg_right (by omega) hpos.le
        omega

end FillpTimingWheelTimerNode

/-! ## Runs -/

namespace FillpTimingWheel

/-- The slots that the hour hand passes in a call. -/
def hourSweep (s : FillpTimingWheel) (curTime : ℤ) : List ℤ :=
  let steps := (((curTime - s.curTime) / s.accuracy + (s.hand .sec).curTick) / 8 + (s.hand .min).curTick) / 8
  if 0 < steps then Cyclic.slots 8 (min steps 7 + 1).toNat (s.hand .hour).curTick else []

theorem Inv.hourSweep_eq (hs : Inv a K s) : s.hourSweep t = passed K (K + (t - s.curTime) / a) .hour := by
  have hsec : (s.hand .sec).curTick = K % 8 := (hs.clock.curTick .sec).trans (by rw [ticks, Int.ediv_one])
  have hmin : (s.hand .min).curTick = K / 8 % 8 := hs.clock.curTick .min
  have hhour : (s.hand .hour).curTick = K / 64 % 8 := hs.clock.curTick .hour
  have hacc : s.accuracy = a := hs.clock.accuracy
  rw [hourSweep, hsec, hmin, hhour, hacc]
  generalize (t - s.curTime) / a = k
  have hsteps : ((k + K % 8) / 8 + K / 8 % 8) / 8 = (K + k) / 64 - K / 64 := by omega
  rw [hsteps]
  by_cases hlt : K / 64 < (K + k) / 64
  · rw [if_pos (by omega)]
    exact (if_pos hlt).symm
  · rw [if_neg (by omega)]
    exact (if_neg hlt).symm

end FillpTimingWheel

namespace TimerRun
variable {r : TimerRun}

/-- The calls that add no timer so that it may fire early: neither the one that is added, nor those that the hour hand adds
    again. -/
def SafeStep (r : TimerRun) : TimerEvent → Prop
  | .addTimer _ expireTime n =>
    r.wheel.clock.InRange expireTime ∧
      ((r.wheel.node n).isNodeEnabled = true ∨ r.wheel.clock.SafeInsert expireTime)
  | .loopCheck curTime =>
    (curTime - r.wheel.curTime) / r.wheel.accuracy < 2 ^ 31 - 8 ∧
      (r.wheel.accuracy ≤ curTime - r.wheel.curTime →
        ∀ j ∈ r.wheel.hourSweep curTime, ∀ n ∈ (r.wheel.hand .hour).slotList j,
          curTime ≤ (r.wheel.node n).expireTime →
            (r.wheel.fillpTimingWheelLoopCheck curTime).clock.SafeInsert (r.wheel.node n).expireTime)
  | _ => True

/-- No timer has been fired early, and none will be. -/
structure OnTime (a : ℤ) (r : TimerRun) : Prop where
  guarded : ∃ K, r.wheel.Inv a K ∧ ∀ n, (r.wheel.node n).isNodeEnabled = true → (r.wheel.node n).Guarded a K r.wheel.clock
  fired : ∀ n expireTime curTime, .fired n expireTime curTime ∈ r.log → expireTime - a ≤ curTime

theorem SafeStep.inRange {e : TimerEvent} (he : r.SafeStep e) : r.InRange e := by
  cases e with
  | addTimer now expireTime n => exact he.1
  | delTimer n => trivial
  | loopCheck t => exact he.1
  | callback => trivial

theorem OnTime.step (h : OnTime a r) (e : TimerEvent) (he : r.SafeStep e) : OnTime a (r.step e) := by
  obtain ⟨K, hinv, hguard⟩ := h.guarded
  -- The timers that have not changed are guarded as before.
  have hkeep : ∀ {wheel : FillpTimingWheel} {m : ℕ}, wheel.clock = r.wheel.clock → wheel.node m = r.wheel.node m →
      (wheel.node m).isNodeEnabled = true → (wheel.node m).Guarded a K wheel.clock := by
    intro wheel m hclock hnode hen
    rw [hnode] at hen ⊢
    rw [hclock]
    exact hguard m hen
  have hlog : ∀ {x : TimerLog}, (∀ n expireTime curTime, x = .fired n expireTime curTime → expireTime - a ≤ curTime) →
      ∀ n expireTime curTime, .fired n expireTime curTime ∈ r.log ++ [x] → expireTime - a ≤ curTime := by
    intro x hx n expireTime curTime hmem
    rcases List.mem_append.1 hmem with hmem | hmem
    · exact h.fired n expireTime curTime hmem
    · exact hx n expireTime curTime (List.mem_singleton.1 hmem).symm
  have hstep := stepOf hinv he.inRange
  generalize hr' : r.step e = r' at hstep ⊢
  cases hstep with
  | stay => exact h
  | added now expireTime n wheel hoff hinv' hclock hself hother =>
    refine ⟨⟨K, hinv', fun m hen => ?_⟩, hlog nofun⟩
    by_cases hm : m = n
    · subst hm
      show (wheel.node m).Guarded a K wheel.clock
      have hsafe := he.2.resolve_left fun hen => Bool.false_ne_true (hoff.symm.trans hen)
      rw [hself, hclock]
      exact .insert hinv.clock he.1 hsafe
    · exact hkeep hclock (hother m hm) hen
  | deleted n wheel hinv' hclock hoff hother =>
    refine ⟨⟨K, hinv', fun m hen => ?_⟩, hlog nofun⟩
    have hm : m ≠ n := fun heq => Bool.false_ne_true (hoff.symm.trans (heq ▸ hen))
    exact hkeep hclock (hother m hm) hen
  | ticked t wheel hle hinv' htime hnode =>
    have hpos := hinv.clock.pos
    have hacc : r.wheel.accuracy = a := hinv.clock.accuracy
    have hwheel : r.wheel.fillpTimingWheelLoopCheck t = wheel := congrArg TimerRun.wheel hr'
    have hone : 0 ≤ (t - r.wheel.curTime) / a := Int.ediv_nonneg (by omega) hpos.le
    have hmul : (t - r.wheel.curTime) / a * a ≤ t - r.wheel.curTime := Int.ediv_mul_le _ hpos.ne'
    have hcurTime : wheel.clock.curTime = t := htime
    refine ⟨⟨_, hinv', fun m hen => ?_⟩, h.fired⟩
    show (wheel.node m).Guarded a _ wheel.clock
    have hen' : ((r.wheel.node m).tick K _ wheel.clock).isNodeEnabled = true := hnode m ▸ hen
    rw [hnode m]
    refine (hguard m ((hinv.wf.node m).enabled_of_tick hen')).tick hinv'.clock (by omega) ?_ (fun h j hslot => ?_) fun hrec => ?_
    · rw [hcurTime, show K + (t - r.wheel.curTime) / a - K = (t - r.wheel.curTime) / a by omega]
      show r.wheel.curTime + _ ≤ t
      omega
    · refine (hinv.near m h j hslot).mono hinv.clock (hinv'.clock.accuracy.trans hinv.clock.accuracy.symm) ?_
      rw [hcurTime]
      show r.wheel.curTime ≤ t
      omega
    · obtain ⟨⟨j, hj, hslot⟩, hlate, -⟩ := hrec
      rw [← hinv.hourSweep_eq] at hj
      rw [← hwheel]
      rw [hcurTime] at hlate
      exact he.2 (by omega) j hj m ((hinv.wf.mem .hour j m).2 hslot) hlate
  | called n wheel hcb hinv' hclock hoff hother =>
    refine ⟨⟨K, hinv', fun m hen => ?_⟩, ?_⟩
    · have hm : m ≠ n := fun heq => Bool.false_ne_true (hoff.symm.trans (heq ▸ hen))
      exact hkeep hclock (hother m hm) hen
    · -- No hand holds a timer whose callback is run.
      have hok := hinv.wf.node n
      have hpast : (r.wheel.node n).expireTime - a ≤ r.wheel.curTime := by
        rcases hguard n (hok.enabled_of_pending hcb) with hpast | hhour | ⟨h, y, hhold⟩
        · exact hpast
        · rw [hok.pending hcb] at hhour
          cases hhour
        · have hslot := hhold.slot
          rw [hok.pending hcb] at hslot
          cases hslot
      split
      next => exact hlog fun m expireTime curTime heq => by cases heq; exact hpast
      next => exact h.fired

theorem OnTime.init (now accuracy : ℤ) (cb : ℕ → Bool) (ha : accuracy * 512 < 2 ^ 31) :
    OnTime (max 1 accuracy) (init now accuracy cb) := by
  refine ⟨⟨0, .init now cb ha, fun n hen => ?_⟩, fun n expireTime curTime hmem => ?_⟩
  · cases hen
  · cases hmem

instance (c : WheelClock) (expireTime : ℤ) : Decidable (c.SafeInsert expireTime) :=
  inferInstanceAs (Decidable (_ ∨ _ ∨ _))

instance (r : TimerRun) : (e : TimerEvent) → Decidable (r.SafeStep e)
  | .addTimer .. => inferInstanceAs (Decidable (_ < _ ∧ _))
  | .delTimer _ => .isTrue trivial
  | .loopCheck _ => inferInstanceAs (Decidable (_ < _ ∧ _))
  | .callback => .isTrue trivial

end TimerRun

/-- In a run in which every timer that is added, by a call or by the hour hand, is held until it is due, no callback is run
    more than the accuracy before the expiry. -/
theorem timers_not_early (now a : ℤ) (cb : ℕ → Bool) (es : List TimerEvent) (hpos : 0 < a) (ha : a * 512 < 2 ^ 31)
    (h : AllSteps TimerRun.step TimerRun.SafeStep (.init now a cb) es) :
    ∀ n expireTime curTime, .fired n expireTime curTime ∈ (es.foldl TimerRun.step (.init now a cb)).log →
      ¬ curTime < expireTime - a := by
  intro n expireTime curTime hmem
  have hinit := TimerRun.OnTime.init now a cb ha
  have hfired := (h.foldl_inv (fun _ e hs he => hs.step e he) hinit).fired n expireTime curTime hmem
  omega

/-- Timers for 3, for 16 and for 200 ticks.  The last one is added again by the hour hand, for a multiple of 8 ticks. -/
theorem timers_not_early_of_three :
    let es : List TimerEvent := [.addTimer 0 300 0, .addTimer 0 1600 1, .addTimer 0 20000 2, .loopCheck 350, .callback,
      .loopCheck 1650, .callback, .loopCheck 19250, .loopCheck 20150, .callback]
    let r := es.foldl TimerRun.step (.init 0 100 fun _ => true)
    r.log = [.added 0 300 0, .added 1 1600 0, .added 2 20000 0, .fired 0 300 350, .fired 1 1600 1650, .fired 2 20000 20150] ∧
      ∀ n expireTime curTime, .fired n expireTime curTime ∈ r.log → ¬ curTime < expireTime - 100 := by
  intro es r
  exact ⟨by decide +kernel, timers_not_early 0 100 _ es (by decide) (by decide) (by decide +kernel)⟩

/-- A timer for 15 ticks.  After 7 ticks it leaves the second hand, and after 8 the minute hand, so that its callback is run
    7 ticks too early. -/
theorem timer_fires_early :
    let es : List TimerEvent := [.addTimer 0 1500 0, .loopCheck 700, .loopCheck 800, .callback]
    let r := es.foldl TimerRun.step (.init 0 100 fun _ => true)
    r.log = [.added 0 1500 0, .fired 0 1500 800] ∧ (800 : ℤ) < 1500 - 100 := by
  decide +kernel

end SoftBus.Native
