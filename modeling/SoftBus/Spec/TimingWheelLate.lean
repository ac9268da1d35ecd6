import SoftBus.Spec.TimingWheelRuns

/-!
# Timing wheel: timers that fire late

A timer is added for a tick, and it fires when the wheel has made that tick.  But `FillpTimingWheelLoopCheck` makes only whole
ticks out of the time since the last call, and forgets the rest.  The ticks lag behind the time by what has
been lost, and so do the timers.

## Main results

- `timers_not_late`: a timer fires in time if no more than the accuracy has been lost since it was added
- `timer_fires_late`: a timer that has not been fired
-/

namespace SoftBus.Native
open List FillpTimingWheelTimerNode WheelClock
open Run (AllSteps)
variable {c c' : WheelClock} {node : FillpTimingWheelTimerNode} {h : TimingHand}
  {a K K' B t expireTime : ℤ} {n : ℕ} {es : List TimerEvent}

namespace FillpTimingWheelTimerNode

theorem cb_tick : (node.tick K K' c).cb = node.cb := by
  by_cases hrec : node.Recycles c.curTime c.hourLength (passed K K' .hour)
  · rw [tick_of_recycles hrec]
    rfl
  · rw [tick_of_not_recycles hrec, passHour]
    split
    next => rw [cb_pass, cb_pass, cb_pass]
    next => rw [cb_pass, cb_pass]

/-! ## A timer is not lost -/

/-- A timer that is in a slot or waits for its callback. -/
def Live (node : FillpTimingWheelTimerNode) : Prop := (∃ h j, node.slot h = some j) ∨ node.cbListNode = true

theorem Ok.live_iff (hok : node.Ok) : node.Live ↔ node.isNodeEnabled = true := by
  constructor
  · rintro (⟨h, j, hslot⟩ | hcb)
    · exact hok.enabled_of_slot hslot
    · exact hok.enabled_of_pending hcb
  · intro hen
    by_contra hdead
    rw [Live, not_or, not_exists] at hdead
    have hclear : node.isClear = true := hok.isClear_iff.2 fun h => by
      cases hslot : node.slot h with
      | none => rfl
      | some j => exact absurd ⟨j, hslot⟩ (hdead.1 h)
    rw [isNodeEnabled, hclear, Bool.eq_false_of_not_eq_true hdead.2, Bool.not_true, Bool.or_false, Bool.and_false] at hen
    cases hen

theorem Ok.live_leave {j : ℤ} (hok : node.Ok) (hslot : node.slot h = some j) : (node.leave h).Live := by
  have hok' := hok.unlink hslot
  rw [FillpTimingWheelTimerNode.leave]
  split
  next => exact .inr rfl
  next hclear =>
    rw [hok'.isClear_iff, not_forall] at hclear
    obtain ⟨h', hslot'⟩ := hclear
    obtain ⟨j', hslot'⟩ := Option.ne_none_iff_exists'.1 hslot'
    exact .inl ⟨h', j', hslot'⟩

theorem Ok.live_pass {J : List ℤ} (hok : node.Ok) (hlive : node.Live) : (node.pass h J).Live := by
  obtain heq | ⟨j, hslot, heq⟩ := node.pass_cases
  · rwa [heq]
  · rw [heq]
    exact hok.live_leave hslot

theorem Ok.live_tick (hok : node.Ok) (hlive : node.Live) : (node.tick K K' c).Live := by
  have hok' : ((node.pass .sec (passed K K' .sec)).pass .min (passed K K' .min)).Ok := hok.pass.pass
  have hlive' : ((node.pass .sec (passed K K' .sec)).pass .min (passed K K' .min)).Live := hok.pass.live_pass (hok.live_pass hlive)
  by_cases hrec : node.Recycles c.curTime c.hourLength (passed K K' .hour)
  · rw [tick_of_recycles hrec]
    exact .inl ⟨.sec, _, rfl⟩
  · rw [tick_of_not_recycles hrec, passHour]
    split
    next => exact hok'.live_pass hlive'
    next => exact hlive'

/-! ## The tick of a timer -/

/-- A timer is in slots for a tick `X`, which comes after `K` and not after the time `B`, and not before the expiry. -/
def Sched (a K : ℤ) (c : WheelClock) (B : ℤ) (node : FillpTimingWheelTimerNode) : Prop :=
  ∃ X, (∀ h j, node.slot h = some j → j = X / h.ticks % 8 ∧ K / h.ticks < X / h.ticks) ∧
    node.expireTime ≤ c.curTime + (X + 1 - K) * a ∧ c.curTime + (X - K) * a ≤ B

theorem Sched.insert (hc : c.At a K) (he : c.InRange expireTime) (hB : max expireTime (c.curTime + a) ≤ B) :
    (node.insert c expireTime).Sched a K c B := by
  have hpos := hc.pos
  have hslot : (node.insert c expireTime).slot = plan K (K + c.dist expireTime) := slots_eq hc he
  refine ⟨K + c.dist expireTime, fun h j hj => ?_, ?_, ?_⟩
  · rw [hslot, plan] at hj
    split at hj
    next hlt => exact ⟨(Option.some.inj hj).symm, hlt⟩
    next => cases hj
  · -- One more tick would be after the expiry.
    show expireTime ≤ _
    have hlt := Int.lt_ediv_add_one_mul_self (expireTime - c.curTime) hpos
    have hle : ((expireTime - c.curTime) / a + 1) * a ≤ (c.dist expireTime + 1) * a := by
      refine Int.mul_le_mul_of_nonneg_right ?_ hpos.le
      rw [WheelClock.dist, hc.accuracy]
      omega
    rw [show K + c.dist expireTime + 1 - K = c.dist expireTime + 1 by omega]
    omega
  · rw [show K + c.dist expireTime - K = c.dist expireTime by omega]
    have hmul := Int.ediv_mul_le (expireTime - c.curTime) hpos.ne'
    rw [WheelClock.dist, hc.accuracy]
    rcases le_total 1 ((expireTime - c.curTime) / a) with hle | hle
    · rw [max_eq_right hle]
      omega
    · rw [max_eq_left hle]
      omega

/-- Where a timer can still be after the hands have moved. -/
theorem slot_of_tick {j : ℤ} (hslot : (node.tick K K' c).slot h = some j)
    (hrec : ¬ node.Recycles c.curTime c.hourLength (passed K K' .hour)) :
    node.slot h = some j ∧ (j ∈ passed K K' h → h = .hour ∧ c.curTime ≤ node.expireTime) := by
  rw [tick_of_not_recycles hrec, passHour] at hslot
  split at hslot
  next =>
    have hmin := slot_pass hslot
    have hsec := slot_pass hmin
    refine ⟨slot_pass hsec, fun hj => ?_⟩
    cases h with
    | sec => exact absurd hj (notMem_of_slot_pass hsec)
    | min => exact absurd hj (notMem_of_slot_pass hmin)
    | hour => exact absurd hj (notMem_of_slot_pass hslot)
  next hdue =>
    rw [expireTime_pass, expireTime_pass] at hdue
    have hsec := slot_pass hslot
    refine ⟨slot_pass hsec, fun hj => ?_⟩
    cases h with
    | sec => exact absurd hj (notMem_of_slot_pass hsec)
    | min => exact absurd hj (notMem_of_slot_pass hslot)
    | hour => exact ⟨rfl, by omega⟩

/-- The hands go on, and `lost` is the time for which no tick is made. -/
theorem Sched.tick {lost : ℤ} (hs : node.Sched a K c B) (hc' : c'.At a K')
    (htime : c.curTime + (K' - K) * a + lost = c'.curTime) (hlost : 0 ≤ lost) (hB : node.expireTime + a ≤ B)
    (hrange : ∀ h j, node.slot h = some j → c'.InRange node.expireTime) :
    (node.tick K K' c').Sched a K' c' (B + lost) := by
  have hpos := hc'.pos
  by_cases hrec : node.Recycles c'.curTime c'.hourLength (passed K K' .hour)
  · -- The timer is added again before it expires.
    rw [tick_of_recycles hrec]
    obtain ⟨⟨j, -, hj⟩, hdue, -⟩ := hrec
    refine Sched.insert hc' (hrange .hour j hj) ?_
    omega
  · obtain ⟨X, hslots, hexpire, hbound⟩ := hs
    have hsub : ∀ k : ℤ, (k - K) * a - (K' - K) * a = (k - K') * a := fun k => by
      rw [← Int.sub_mul]
      congr 1
      omega
    have hexpire' : node.expireTime ≤ c'.curTime + (X + 1 - K') * a := by
      have := hsub (X + 1)
      omega
    refine ⟨X, fun h j hslot => ?_, ?_, ?_⟩
    · obtain ⟨hslot', hpassed⟩ := slot_of_tick hslot hrec
      obtain ⟨hj, hlt⟩ := hslots h j hslot'
      refine ⟨hj, ?_⟩
      by_contra hreached
      -- A hand that has reached the slot has passed it, and the hour hand would not leave the timer there.
      have hmem : j ∈ passed K K' h := mem_passed.2 ⟨by omega, X / h.ticks, by omega, by omega, hj.symm⟩
      obtain ⟨rfl, hdue⟩ := hpassed hmem
      refine hrec ⟨⟨j, hmem, hslot'⟩, hdue, ?_⟩
      simp only [TimingHand.ticks] at hreached
      have hmul : (X + 1 - K') * a ≤ 64 * a := Int.mul_le_mul_of_nonneg_right (by omega) hpos.le
      rw [hc'.hourLength]
      omega
    · rw [expireTime_tick]
      exact hexpire'
    · have := hsub X
      omega

end FillpTimingWheelTimerNode

/-! ## Runs -/

namespace TimerRun
variable {r : TimerRun} {l : List TimerLog}

/-- The time for which a call makes no tick, though it makes ticks for the time before. -/
def lostBy (r : TimerRun) : TimerEvent → ℤ
  | .loopCheck curTime =>
    if r.wheel.accuracy ≤ curTime - r.wheel.curTime then (curTime - r.wheel.curTime) % r.wheel.accuracy else 0
  | _ => 0

def lostTime (r : TimerRun) : List TimerEvent → ℤ
  | [] => 0
  | e :: es => r.lostBy e + lostTime (r.step e) es

/-- The timer `n` has been fired since the log was `l`, or it waits, at the longest until the time `B`. -/
def Waits (a : ℤ) (n : ℕ) (expireTime B : ℤ) (l : List TimerLog) (r : TimerRun) : Prop :=
  ∃ K, r.wheel.Inv a K ∧ ∃ l', r.log = l ++ l' ∧ ((∃ curTime, .fired n expireTime curTime ∈ l') ∨
      ((r.wheel.node n).Live ∧ (r.wheel.node n).cb = true ∧ (r.wheel.node n).expireTime = expireTime ∧
        (r.wheel.node n).Sched a K r.wheel.clock B))

theorem lostBy_nonneg (hpos : 0 < r.wheel.accuracy) (e : TimerEvent) : 0 ≤ r.lostBy e := by
  cases e with
  | loopCheck t =>
    rw [lostBy]
    split
    next => exact Int.emod_nonneg _ hpos.ne'
    next => exact le_rfl
  | _ => exact le_rfl

theorem Waits.step (h : Waits a n expireTime B l r) (hB : expireTime + a ≤ B) {e : TimerEvent} (he : r.InRange e)
    (hdel : e ≠ .delTimer n) : Waits a n expireTime (B + r.lostBy e) l (r.step e) := by
  obtain ⟨K, hinv, l', hlog, hor⟩ := h
  have hpos := hinv.clock.pos
  have hacc : r.wheel.accuracy = a := hinv.clock.accuracy
  have hlost := lostBy_nonneg (hacc ▸ hpos) e
  have hok := hinv.wf.node n
  -- A step that leaves the timer alone.
  have hkeep : ∀ {wheel : FillpTimingWheel} {log : List TimerLog} (l'' : List TimerLog), wheel.Inv a K → wheel.clock = r.wheel.clock →
      (wheel.node n = r.wheel.node n ∨ ∃ curTime, .fired n expireTime curTime ∈ l' ++ l'') → log = r.log ++ l'' →
      Waits a n expireTime (B + r.lostBy e) l ⟨wheel, log⟩ := by
    rintro wheel _ l'' hinv' hclock hnode rfl
    refine ⟨K, hinv', l' ++ l'', by rw [hlog, append_assoc], ?_⟩
    rcases hnode with hnode | hfired
    · rcases hor with ⟨curTime, hmem⟩ | ⟨hlive, hcb, hexpire, X, hslots, hlate, hbound⟩
      · exact .inl ⟨curTime, mem_append_left _ hmem⟩
      · rw [hnode, hclock]
        exact .inr ⟨hlive, hcb, hexpire, X, hslots, hlate, by omega⟩
    · exact .inl hfired
  have hstep := stepOf hinv he
  generalize r.step e = r' at hstep ⊢
  cases hstep with
  | stay => exact hkeep [] hinv rfl (.inl rfl) (append_nil _).symm
  | added now expireTime' m wheel hoff hinv' hclock hself hother =>
    refine hkeep _ hinv' hclock ?_ rfl
    by_cases hm : n = m
    · -- It is not waiting if it can be added.
      subst hm
      rcases hor with ⟨curTime, hmem⟩ | ⟨hlive, -⟩
      · exact .inr ⟨curTime, mem_append_left _ hmem⟩
      · rw [hok.live_iff.1 hlive] at hoff
        cases hoff
    · exact .inl (hother n hm)
  | deleted m wheel hinv' hclock hoff hother =>
    exact hkeep _ hinv' hclock (.inl (hother n fun heq => hdel (by rw [heq]))) rfl
  | ticked t wheel hle hinv' htime hnode =>
    refine ⟨_, hinv', l', hlog, hor.imp_right ?_⟩
    rintro ⟨hlive, hcb, hexpire, hsched⟩
    have hcurTime : wheel.clock.curTime = t := htime
    have hlostBy : r.lostBy (.loopCheck t) = (t - r.wheel.curTime) % a := by
      rw [lostBy, hacc, if_pos hle]
    show (wheel.node n).Live ∧ (wheel.node n).cb = true ∧ (wheel.node n).expireTime = expireTime ∧
      (wheel.node n).Sched a _ wheel.clock _
    rw [hnode n, cb_tick, expireTime_tick]
    refine ⟨hok.live_tick hlive, hcb, hexpire, hsched.tick hinv'.clock ?_ hlost (hexpire ▸ hB) fun h j hslot => ?_⟩
    · have hdiv := Int.ediv_mul_add_emod (t - r.wheel.curTime) a
      rw [hcurTime, show K + (t - r.wheel.curTime) / a - K = (t - r.wheel.curTime) / a by omega]
      show r.wheel.curTime + _ + _ = t
      omega
    · refine (hinv.near n h j hslot).mono hinv.clock (hinv'.clock.accuracy.trans hinv.clock.accuracy.symm) ?_
      rw [hcurTime]
      show r.wheel.curTime ≤ t
      omega
  | called m wheel hcb hinv' hclock hoff hother =>
    by_cases hm : n = m
    · subst hm
      rcases hor with ⟨curTime, hmem⟩ | ⟨hlive, hcb', hexpire, -⟩
      · split
        next => exact hkeep _ hinv' hclock (.inr ⟨curTime, mem_append_left _ hmem⟩) rfl
        next => exact hkeep [] hinv' hclock (.inr ⟨curTime, mem_append_left _ hmem⟩) (append_nil _).symm
      · rw [if_pos hcb']
        refine hkeep _ hinv' hclock (.inr ⟨r.wheel.curTime, ?_⟩) rfl
        rw [hexpire]
        exact mem_append_right _ mem_cons_self
    · split
      next => exact hkeep _ hinv' hclock (.inl (hother n hm)) rfl
      next => exact hkeep [] hinv' hclock (.inl (hother n hm)) (append_nil _).symm

theorem Waits.mono {B' : ℤ} (h : Waits a n expireTime B l r) (hle : B ≤ B') : Waits a n expireTime B' l r := by
  obtain ⟨K, hinv, l', hlog, hor⟩ := h
  refine ⟨K, hinv, l', hlog, hor.imp_right ?_⟩
  rintro ⟨hlive, hcb, hexpire, X, hslots, hlate, hbound⟩
  exact ⟨hlive, hcb, hexpire, X, hslots, hlate, by omega⟩

theorem Waits.run (h : Waits a n expireTime B l r) (hB : expireTime + a ≤ B)
    (hes : AllSteps TimerRun.step InRange r es) (hdel : .delTimer n ∉ es) :
    Waits a n expireTime (B + r.lostTime es) l (es.foldl TimerRun.step r) := by
  induction es generalizing r B with
  | nil =>
    rw [lostTime, Int.add_zero]
    exact h
  | cons e es ih =>
    obtain ⟨K, hinv, -⟩ := id h
    have hlost := lostBy_nonneg (hinv.clock.accuracy ▸ hinv.clock.pos) e
    have hstep := h.step hB hes.1 fun heq => hdel (heq ▸ mem_cons_self)
    rw [lostTime, ← Int.add_assoc]
    exact ih hstep (by omega) hes.2 fun hmem => hdel (mem_cons_of_mem e hmem)

/-- The time of the wheel stays as it is until the next call. -/
theorem curTime_foldl (hinv : r.wheel.Inv a K) (hes : AllSteps TimerRun.step InRange r es)
    (hend : ∀ t, .loopCheck t ∉ es) :
    (es.foldl TimerRun.step r).wheel.curTime = r.wheel.curTime ∧ r.lostTime es = 0 := by
  induction es generalizing r with
  | nil => exact ⟨rfl, rfl⟩
  | cons e es ih =>
    have hlost : r.lostBy e = 0 := by
      cases e with
      | loopCheck t => exact absurd mem_cons_self (hend t)
      | _ => rfl
    have hstep := stepOf hinv hes.1
    have hrest := hes.2
    rw [foldl_cons, lostTime, hlost, Int.zero_add]
    generalize r.step e = r' at hstep hrest ⊢
    have hsame : r'.wheel.Inv a K ∧ r'.wheel.curTime = r.wheel.curTime := by
      cases hstep with
      | stay => exact ⟨hinv, rfl⟩
      | added now expireTime n wheel hoff hinv' hclock => exact ⟨hinv', congrArg curTime hclock⟩
      | deleted n wheel hinv' hclock => exact ⟨hinv', congrArg curTime hclock⟩
      | ticked t => exact absurd mem_cons_self (hend t)
      | called n wheel hcb hinv' hclock => exact ⟨hinv', congrArg curTime hclock⟩
    obtain ⟨htime, hlost'⟩ := ih hsame.1 hrest fun t hmem => hend t (mem_cons_of_mem e hmem)
    exact ⟨htime.trans hsame.2, hlost'⟩

/-- A timer that has been added waits from then on. -/
theorem Waits.addTimer {now : ℤ} (hinv : r.wheel.Inv a K) (he : r.wheel.clock.InRange expireTime)
    (hoff : (r.wheel.node n).isNodeEnabled = false) (hcb : (r.wheel.node n).cb = true) (hnow : r.wheel.curTime ≤ now) :
    Waits a n expireTime (max expireTime now + a) (r.step (.addTimer now expireTime n)).log
      (r.step (.addTimer now expireTime n)) := by
  obtain ⟨hinv', hclock, hnode⟩ := hinv.fillpTimingWheelAddTimer he hoff
  have hself : (r.step (.addTimer now expireTime n)).wheel.node n = (r.wheel.node n).insert r.wheel.clock expireTime :=
    (congrFun hnode n).trans (Function.update_self ..)
  have hclock' : (r.step (.addTimer now expireTime n)).wheel.clock = r.wheel.clock := hclock
  have hpos := hinv.clock.pos
  refine ⟨K, hinv', [], (append_nil _).symm, .inr ?_⟩
  rw [hself, hclock']
  refine ⟨.inl ⟨.sec, _, rfl⟩, hcb, rfl, .insert hinv.clock he ?_⟩
  have htime : r.wheel.clock.curTime ≤ now := hnow
  omega

end TimerRun

/-- A timer that is added in a run, and is not deleted, has been fired by the end of every call of
    `FillpTimingWheelLoopCheck` that makes a tick at least twice the accuracy after its expiry and after it was added, if the
    calls since then have lost at most the accuracy. -/
theorem timers_not_late (now₀ a : ℤ) (cb : ℕ → Bool) (es₁ es₂ es₃ : List TimerEvent) (n : ℕ) (expireTime now t : ℤ)
    (hpos : 0 < a) (ha : a * 512 < 2 ^ 31) :
    let r₁ := es₁.foldl TimerRun.step (.init now₀ a cb)
    let r₂ := r₁.step (.addTimer now expireTime n)
    let r₃ := es₂.foldl TimerRun.step r₂
    let r₄ := es₃.foldl TimerRun.step (r₃.step (.loopCheck t))
    AllSteps TimerRun.step TimerRun.InRange (.init now₀ a cb)
        (es₁ ++ .addTimer now expireTime n :: (es₂ ++ .loopCheck t :: es₃)) →
      (r₁.wheel.node n).isNodeEnabled = false → (r₁.wheel.node n).cb = true → r₁.wheel.curTime ≤ now →
      .delTimer n ∉ es₂ ++ es₃ → a ≤ t - r₃.wheel.curTime → max expireTime now + 2 * a ≤ t →
      (∀ t', .loopCheck t' ∉ es₃) → r₄.wheel.curCbList = [] →
      r₂.lostTime (es₂ ++ [.loopCheck t]) ≤ a →
      ∃ l curTime, r₄.log = r₂.log ++ l ∧ .fired n expireTime curTime ∈ l := by
  intro r₁ r₂ r₃ r₄ h hoff hcb hnow hdel htick hlate hend hempty hlost
  obtain ⟨h₁, hadd, h₂₃⟩ := Run.allSteps_append.1 h
  obtain ⟨h₂, hloop, h₃⟩ := Run.allSteps_append.1 h₂₃
  have hinit := TimerRun.Sound.init now₀ cb ha
  rw [max_eq_right (show 1 ≤ a by omega)] at hinit
  obtain ⟨K, hinv⟩ := (h₁.foldl_inv (fun _ e hs he => hs.step e he) hinit).inv
  rw [mem_append, not_or] at hdel
  have hB : expireTime + a ≤ max expireTime now + a := by omega
  have hwait₂ : TimerRun.Waits a n expireTime _ r₂.log r₂ := .addTimer hinv hadd hoff hcb hnow
  obtain ⟨K₃, hinv₃, -⟩ := hwait₂.run hB h₂ hdel.1
  obtain ⟨hinv₄, htime₄, -⟩ := hinv₃.fillpTimingWheelLoopCheck htick
    (show (t - r₃.wheel.curTime) / a < 2 ^ 31 - 8 by
      have hk : (t - r₃.wheel.curTime) / r₃.wheel.accuracy < 2 ^ 31 - 8 := hloop
      rwa [show r₃.wheel.accuracy = a from hinv₃.clock.accuracy] at hk)
  -- After the call the timer has been fired, or waits at the longest until now.
  have hwait₃ : TimerRun.Waits a n expireTime t r₂.log (r₃.step (.loopCheck t)) := by
    have hsteps : AllSteps TimerRun.step TimerRun.InRange r₂ (es₂ ++ [.loopCheck t]) :=
      Run.allSteps_append.2 ⟨h₂, hloop, trivial⟩
    have hrun := hwait₂.run hB hsteps (by
      rw [mem_append, not_or]
      exact ⟨hdel.1, by simp⟩)
    rw [foldl_append] at hrun
    exact hrun.mono (by omega)
  obtain ⟨htime, hlost₃⟩ := TimerRun.curTime_foldl hinv₄ h₃ hend
  obtain ⟨K₄, hinv', l, hlog, hor⟩ := hwait₃.run (by omega) h₃ hdel.2
  rcases hor with ⟨curTime, hmem⟩ | ⟨hlive, -, -, X, hslots, -, hbound⟩
  · exact ⟨l, curTime, hlog, hmem⟩
  · -- It would be in a slot for a tick that is still to come.
    rcases hlive with ⟨h, j, hslot⟩ | hcb'
    · have hlt := (hslots h j hslot).2
      have hX : K₄ < X := by
        by_contra hge
        have := Int.ediv_le_ediv (show 0 < h.ticks by cases h <;> decide) (show X ≤ K₄ by omega)
        omega
      have hmul : a ≤ (X - K₄) * a := by
        have := Int.mul_le_mul_of_nonneg_right (show 1 ≤ X - K₄ by omega) hpos.le
        rwa [Int.one_mul] at this
      have hcur : r₄.wheel.clock.curTime = t := htime.trans htime₄
      rw [hlost₃, hcur] at hbound
      omega
    · have hmem := (hinv'.wf.memCb n).2 hcb'
      rw [hempty] at hmem
      cases hmem

/-- A timer for 200 ticks, of which the first call makes 100 and loses half a tick. -/
theorem timers_not_late_of_one :
    let r₁ := [TimerEvent.loopCheck 100].foldl TimerRun.step (.init 0 100 fun _ => true)
    let r₂ := r₁.step (.addTimer 150 20100 0)
    let r₃ := [TimerEvent.loopCheck 10150].foldl TimerRun.step r₂
    let r₄ := [TimerEvent.callback].foldl TimerRun.step (r₃.step (.loopCheck 20350))
    r₂.lostTime ([.loopCheck 10150] ++ [.loopCheck 20350]) = 50 ∧
      ∃ l curTime, r₄.log = r₂.log ++ l ∧ .fired 0 20100 curTime ∈ l := by
  intro r₁ r₂ r₃ r₄
  have hlost : r₂.lostTime ([.loopCheck 10150] ++ [.loopCheck 20350]) = 50 := by decide +kernel
  refine ⟨hlost, timers_not_late 0 100 _ [.loopCheck 100] [.loopCheck 10150] [.callback] 0 20100 150 20350 (by decide)
    (by decide) (by decide +kernel) (by decide +kernel) (by decide +kernel) (by decide +kernel) (by decide)
    (by decide +kernel) (by decide) (by simp) (by decide +kernel) ?_⟩
  exact hlost.trans_le (by decide)

/-- A timer for 5 ticks.  Each of four calls makes one tick and loses almost another, so that after 796 the timer for 500 has
    not been fired. -/
theorem timer_fires_late :
    let es : List TimerEvent := [.addTimer 0 500 0, .loopCheck 199, .loopCheck 398, .loopCheck 597, .loopCheck 796]
    let r := es.foldl TimerRun.step (.init 0 100 fun _ => true)
    max 500 0 + 2 * 100 ≤ (796 : ℤ) ∧ r.wheel.curTime = 796 ∧ (r.wheel.hand .sec).curTick = 4 ∧
      (r.wheel.node 0).isNodeEnabled = true ∧ r.wheel.curCbList = [] ∧ r.log = [.added 0 500 0] := by
  decide +kernel

end SoftBus.Native
