import SoftBus.ForStd.Run
import SoftBus.Spec.TimingWheelTicks

/-!
# Timing wheel: runs

Timers are added and deleted, by the callbacks too, and the hands move.  As long as the numbers of ticks fit into a
`FILLP_INT`, the lists and the bits of the timers agree, and a callback is run at most once for each time that
its timer is added.  A timer that expires too late is linked outside of the slots.

## Main results

- `timers_tidy`: what holds in every state of such a run
- `far_timer_without_slot`: a timer that expires too late
-/

namespace SoftBus.Native
open Function List FillpTimingWheelTimerNode FillpTimingWheel
open Run (AllSteps)
variable {s : FillpTimingWheel} {a K t expireTime : ℤ} {n m : ℕ} {accuracy : ℤ}

namespace FillpTimingWheelTimerNode
variable {node : FillpTimingWheelTimerNode}

/-- A timer that is not enabled is in no list. -/
theorem Ok.of_not_enabled (hok : node.Ok) (hnot : node.isNodeEnabled = false) :
    (∀ h, node.slot h = none) ∧ node.cbListNode = false := by
  constructor
  · intro h
    cases hslot : node.slot h with
    | none => rfl
    | some j =>
      rw [hok.enabled_of_slot hslot] at hnot
      cases hnot
  · cases hcb : node.cbListNode with
    | false => rfl
    | true =>
      rw [isNodeEnabled, hok.wheel (.inl hcb), hcb, Bool.or_true] at hnot
      cases hnot

theorem Ok.enabled_of_pending (hok : node.Ok) (hcb : node.cbListNode = true) : node.isNodeEnabled = true := by
  rw [isNodeEnabled, hok.wheel (.inl hcb), hcb, Bool.or_true]
  rfl

/-- The hands enable no timer. -/
theorem Ok.enabled_of_tick {K' : ℤ} {c : WheelClock} (hok : node.Ok) (hen : (node.tick K K' c).isNodeEnabled = true) :
    node.isNodeEnabled = true := by
  by_cases hnone : ∀ h, node.slot h = none
  · rwa [tick_of_none hnone] at hen
  · obtain ⟨h, hslot⟩ := not_forall.1 hnone
    obtain ⟨j, hslot⟩ := Option.ne_none_iff_exists'.1 hslot
    exact hok.enabled_of_slot hslot

end FillpTimingWheelTimerNode

namespace FillpTimingWheel

/-- One timer changes. -/
theorem Inv.rewrites {s' : FillpTimingWheel} {node : FillpTimingWheelTimerNode} (hs : Inv a K s)
    (hr : Rewrites s s' (update s.node n node)) (hok : node.Ok)
    (hnear : ∀ h j, node.slot h = some j → s.clock.InRange node.expireTime) :
    Inv a K s' ∧ s'.clock = s.clock ∧ s'.node = update s.node n node := by
  refine ⟨⟨⟨hr.mirror, fun m => hr.node ▸ ok_update hs.wf hok m⟩, hr.clock ▸ hs.clock, hr.cycle.trans hs.cycle, ?_⟩,
    hr.clock, hr.node⟩
  intro m h j hslot
  rw [hr.node] at hslot ⊢
  rw [hr.clock]
  by_cases hm : m = n
  · subst hm
    rw [update_self] at hslot ⊢
    exact hnear h j hslot
  · rw [update_of_ne hm] at hslot ⊢
    exact hs.near m h j hslot

theorem Inv.fillpTimingWheelAddTimer (hs : Inv a K s) (he : s.clock.InRange expireTime)
    (hen : (s.node n).isNodeEnabled = false) :
    Inv a K (s.fillpTimingWheelAddTimer expireTime n) ∧ (s.fillpTimingWheelAddTimer expireTime n).clock = s.clock ∧
      (s.fillpTimingWheelAddTimer expireTime n).node =
        update s.node n ((s.node n).insert s.clock expireTime) := by
  obtain ⟨hslot, hcb⟩ := (hs.wf.node n).of_not_enabled hen
  rw [FillpTimingWheel.fillpTimingWheelAddTimer, hen]
  have hadd := hs.wf.fillpTimingWheelAddTimerInner hslot expireTime
  have hok : ((s.node n).insert s.clock expireTime).Ok := .insert hcb fun h j hj => by
    rw [WheelClock.slots_eq hs.clock he] at hj
    exact plan_range hj
  exact hs.rewrites hadd hok fun _ _ _ => he

theorem Inv.fillpTimingWheelDelTimer (hs : Inv a K s) (hen : (s.node n).isNodeEnabled = true) :
    Inv a K (s.fillpTimingWheelDelTimer n) ∧ (s.fillpTimingWheelDelTimer n).clock = s.clock ∧
      (s.fillpTimingWheelDelTimer n).node = update s.node n (s.node n).deleted := by
  have hdel := hs.wf.fillpTimingWheelDelTimer hen
  have hok := hdel.ok n
  rw [update_self] at hok
  exact hs.rewrites hdel.toRewrites hok nofun

theorem Inv.cbListDelete (hs : Inv a K s) : Inv a K (s.cbListDelete n) ∧ (s.cbListDelete n).clock = s.clock ∧
      (s.cbListDelete n).node = update s.node n { s.node n with cbListNode := false } := by
  have hdel := hs.wf.cbListDelete n
  have hok := hdel.ok n
  rw [update_self] at hok
  exact hs.rewrites hdel.toRewrites hok (hs.near n)

theorem fillpInitTimingWheelTimeHand_eq (ha : a ≠ 0) :
    fillpInitTimingWheelTimeHand a = ⟨fun _ => [], a, fillpInt (a * fillpTimingWheelSlotNum), 0⟩ := if_neg ha

theorem Inv.init (now : ℤ) (cb : ℕ → Bool) (ha : accuracy * 512 < 2 ^ 31) :
    Inv (max 1 accuracy) 0 (fillpTimingWheelInit now accuracy cb) := by
  have hacc : (if accuracy ≤ 0 then 1 else accuracy) = max 1 accuracy := by
    split <;> omega
  rw [fillpTimingWheelInit, hacc]
  generalize hmax : max 1 accuracy = a
  have hpos : 0 < a := by omega
  have hsmall : a * 512 < 2 ^ 31 := by omega
  have hhand : ∀ x, 0 < x → x * 8 < 2 ^ 31 →
      fillpInitTimingWheelTimeHand (fillpInt x) = ⟨fun _ => [], x, x * 8, 0⟩ := by
    intro x hx hlt
    rw [fillpInt_eq (by omega) (by omega), fillpInitTimingWheelTimeHand_eq hx.ne', fillpTimingWheelSlotNum,
      fillpInt_eq (by omega) (by omega)]
  simp only [fillpTimingWheelSlotNum, hhand a hpos (by omega), hhand (a * 8) (by omega) (by omega),
    hhand (a * 8 * 8) (by omega) (by omega)]
  refine ⟨⟨⟨fun h j n => ?_, fun h j => ?_, fun n => ?_, nodup_nil⟩, fun n => ?_⟩,
    ⟨hpos, hsmall, rfl, rfl, show a * 8 * 8 * 8 = a * 512 by omega, fun h => ?_⟩, rfl, fun n h j hslot => ?_⟩
  · cases h <;> simp
  · cases h <;> exact nodup_nil
  · simp
  · refine ⟨fun _ => rfl, ?_, fun _ _ => rfl, ?_⟩
    · rintro h j ⟨⟩
    · rintro (⟨⟨⟩⟩ | ⟨⟨⟩⟩)
  · cases h <;> rfl
  · cases hslot

/-- The timers in the slots of a hand. -/
def slotNodes (s : FillpTimingWheel) (h : TimingHand) : List ℕ := (List.range 8).flatMap fun i : ℕ => (s.hand h).slotList i

theorem Wf.nodup_slotNodes (hs : s.Wf) (h : TimingHand) : (s.slotNodes h).Nodup := by
  refine nodup_flatMap.2 ⟨fun i _ => hs.nodup h i, nodup_range.imp fun {i i'} hne n hi hi' => hne ?_⟩
  have hslot := (hs.mem h i n).1 hi
  rw [(hs.mem h i' n).1 hi', Option.some.injEq, Int.natCast_inj] at hslot
  exact hslot.symm

theorem Wf.count_slotNodes (hs : s.Wf) (h : TimingHand) :
    (s.slotNodes h).count n = if (s.node n).status h then 1 else 0 := by
  have hok := hs.node n
  rw [(hs.nodup_slotNodes h).count, hok.status]
  have hmem : n ∈ s.slotNodes h ↔ ((s.node n).slot h).isSome = true := by
    rw [slotNodes, mem_flatMap, Option.isSome_iff_exists]
    constructor
    · rintro ⟨i, -, hi⟩
      exact ⟨i, (hs.mem h i n).1 hi⟩
    · rintro ⟨j, hj⟩
      obtain ⟨hlo, hhi⟩ := hok.range h j hj
      rw [fillpTimingWheelSlotNum] at hhi
      refine ⟨j.toNat, mem_range.2 (by omega), (hs.mem h _ n).2 ?_⟩
      rw [hj, Int.toNat_of_nonneg hlo]
  simp only [hmem]

end FillpTimingWheel

/-! ## Runs -/

namespace TimerLog

def timer : TimerLog → ℕ
  | .added n _ _ => n
  | .deleted n => n
  | .fired n _ _ => n

/-- The last entry of the timer `n`. -/
def LastIs (log : List TimerLog) (n : ℕ) (entry : TimerLog) : Prop :=
  ∃ before after, log = before ++ entry :: after ∧ ∀ x ∈ after, x.timer ≠ n

variable {log : List TimerLog} {entry x : TimerLog}

theorem LastIs.concat (h : LastIs log n entry) (hx : x.timer ≠ n) : LastIs (log ++ [x]) n entry := by
  obtain ⟨before, after, rfl, hafter⟩ := h
  refine ⟨before, after ++ [x], by simp, fun y hy => ?_⟩
  rcases mem_append.1 hy with hy | hy
  · exact hafter y hy
  · rw [mem_singleton.1 hy]
    exact hx

theorem LastIs.self : LastIs (log ++ [entry]) n entry :=
  ⟨log, [], rfl, by simp⟩

/-- A callback is run for a timer that has been added, and has not been deleted and has not had its callback run since. -/
def FiredOnce (log : List TimerLog) : Prop :=
  ∀ before after n expireTime curTime, log = before ++ .fired n expireTime curTime :: after →
    ∃ now, LastIs before n (.added n expireTime now)

theorem FiredOnce.concat (h : FiredOnce log)
    (hx : ∀ n expireTime curTime, x = .fired n expireTime curTime → ∃ now, LastIs log n (.added n expireTime now)) :
    FiredOnce (log ++ [x]) := by
  intro before after n expireTime curTime heq
  rcases eq_nil_or_concat after with rfl | ⟨after, y, rfl⟩
  · obtain ⟨rfl, hfired⟩ := append_inj' heq rfl
    exact hx n expireTime curTime (singleton_inj.1 hfired)
  · rw [concat_eq_append, ← cons_append, ← append_assoc] at heq
    obtain ⟨rfl, -⟩ := append_inj' heq rfl
    exact h before after n expireTime curTime rfl

end TimerLog

namespace TimerRun
variable {r : TimerRun}

/-- The calls for which the numbers of ticks fit into a `FILLP_INT`. -/
def InRange (r : TimerRun) : TimerEvent → Prop
  | .addTimer _ expireTime _ => r.wheel.clock.InRange expireTime
  | .loopCheck curTime => (curTime - r.wheel.curTime) / r.wheel.accuracy < 2 ^ 31 - 8
  | _ => True

/-- What a call or a round of the loop over the callbacks does. -/
inductive StepOf (a K : ℤ) (r : TimerRun) : TimerEvent → TimerRun → Prop
  | stay (e : TimerEvent) : StepOf a K r e r
  | added (now expireTime : ℤ) (n : ℕ) (wheel : FillpTimingWheel) (hoff : (r.wheel.node n).isNodeEnabled = false)
      (hinv : wheel.Inv a K) (hclock : wheel.clock = r.wheel.clock)
      (hself : wheel.node n = (r.wheel.node n).insert r.wheel.clock expireTime)
      (hother : ∀ m, m ≠ n → wheel.node m = r.wheel.node m) :
      StepOf a K r (.addTimer now expireTime n) ⟨wheel, r.log ++ [.added n expireTime now]⟩
  | deleted (n : ℕ) (wheel : FillpTimingWheel) (hinv : wheel.Inv a K) (hclock : wheel.clock = r.wheel.clock)
      (hoff : (wheel.node n).isNodeEnabled = false) (hother : ∀ m, m ≠ n → wheel.node m = r.wheel.node m) :
      StepOf a K r (.delTimer n) ⟨wheel, r.log ++ [.deleted n]⟩
  | ticked (t : ℤ) (wheel : FillpTimingWheel) (hle : a ≤ t - r.wheel.curTime)
      (hinv : wheel.Inv a (K + (t - r.wheel.curTime) / a)) (htime : wheel.curTime = t)
      (hnode : ∀ m, wheel.node m = (r.wheel.node m).tick K (K + (t - r.wheel.curTime) / a) wheel.clock) :
      StepOf a K r (.loopCheck t) ⟨wheel, r.log⟩
  | called (n : ℕ) (wheel : FillpTimingWheel) (hcb : (r.wheel.node n).cbListNode = true)
      (hinv : wheel.Inv a K) (hclock : wheel.clock = r.wheel.clock)
      (hoff : (wheel.node n).isNodeEnabled = false) (hother : ∀ m, m ≠ n → wheel.node m = r.wheel.node m) :
      StepOf a K r .callback ⟨wheel, if (r.wheel.node n).cb then
        r.log ++ [.fired n (r.wheel.node n).expireTime r.wheel.curTime] else r.log⟩

theorem stepOf (hs : r.wheel.Inv a K) {e : TimerEvent} (he : r.InRange e) :
    StepOf a K r e (r.step e) := by
  cases e with
  | addTimer now expireTime n =>
    cases hen : (r.wheel.node n).isNodeEnabled with
    | true =>
      rw [step, fillpTimingWheelAddTimer, hen]
      exact .stay _
    | false =>
      obtain ⟨hinv, hclock, hnode⟩ := hs.fillpTimingWheelAddTimer he hen
      rw [step, hen]
      refine .added now expireTime n _ hen hinv hclock ?_ fun m hm => ?_
      · rw [hnode, update_self]
      · rw [hnode, update_of_ne hm]
  | delTimer n =>
    cases hen : (r.wheel.node n).isNodeEnabled with
    | true =>
      obtain ⟨hinv, hclock, hnode⟩ := hs.fillpTimingWheelDelTimer hen
      refine .deleted n _ hinv hclock ?_ fun m hm => ?_
      · rw [hnode, update_self]
        rfl
      · rw [hnode, update_of_ne hm]
    | false =>
      have hsame : r.wheel.fillpTimingWheelDelTimer n = r.wheel := by
        rw [fillpTimingWheelDelTimer, hen]
        rfl
      rw [step, hsame]
      exact .deleted n _ hs rfl hen fun _ _ => rfl
  | loopCheck t =>
    have hk : (t - r.wheel.curTime) / r.wheel.accuracy < 2 ^ 31 - 8 := he
    rw [show r.wheel.accuracy = a from hs.clock.accuracy] at hk
    by_cases hlt : t - r.wheel.curTime < a
    · rw [step, hs.fillpTimingWheelLoopCheck_of_lt hlt]
      exact .stay _
    · obtain ⟨hinv, htime, hnode⟩ := hs.fillpTimingWheelLoopCheck (by omega) hk
      exact .ticked t _ (by omega) hinv htime fun m => congrFun hnode m
  | callback =>
    rw [step, callback]
    split
    next => exact .stay _
    next n l hlist =>
      have hcb : (r.wheel.node n).cbListNode = true := (hs.wf.memCb n).1 (by rw [hlist]; exact mem_cons_self)
      have hok := hs.wf.node n
      obtain ⟨hinv, hclock, hnode⟩ := hs.cbListDelete
      refine .called n _ hcb hinv hclock ?_ fun m hm => ?_
      · -- The timer is in no list any more.
        have hclear : ({ r.wheel.node n with cbListNode := false } : FillpTimingWheelTimerNode).isClear = true :=
          hok.isClear_iff.2 (hok.pending hcb)
        rw [hnode, update_self, isNodeEnabled, hclear]
        exact Bool.and_false _
      · rw [hnode, update_of_ne hm]

/-- The log and the timers agree. -/
structure Sound (a : ℤ) (r : TimerRun) : Prop where
  inv : ∃ K, r.wheel.Inv a K
  once : TimerLog.FiredOnce r.log
  last : ∀ n, (r.wheel.node n).isNodeEnabled = true →
    ∃ now, TimerLog.LastIs r.log n (.added n (r.wheel.node n).expireTime now)

theorem Sound.step (h : Sound a r) (e : TimerEvent) (he : r.InRange e) : Sound a (r.step e) := by
  obtain ⟨K, hinv⟩ := h.inv
  -- An entry about another timer does not matter.
  have hkeep : ∀ {wheel : FillpTimingWheel} {n m : ℕ} {x : TimerLog}, wheel.node m = r.wheel.node m → x.timer = n → m ≠ n →
      (wheel.node m).isNodeEnabled = true →
      ∃ now, TimerLog.LastIs (r.log ++ [x]) m (.added m (wheel.node m).expireTime now) := by
    intro wheel n m x hnode hx hm hen
    rw [hnode] at hen ⊢
    obtain ⟨now, hlast⟩ := h.last m hen
    exact ⟨now, hlast.concat (hx ▸ Ne.symm hm)⟩
  have hstep := stepOf hinv he
  generalize r.step e = r' at hstep ⊢
  cases hstep with
  | stay => exact h
  | added now expireTime n wheel hoff hinv' hclock hself hother =>
    refine ⟨⟨K, hinv'⟩, h.once.concat nofun, fun m hen => ?_⟩
    by_cases hm : m = n
    · subst hm
      show ∃ now, TimerLog.LastIs _ m (.added m (wheel.node m).expireTime now)
      rw [hself]
      exact ⟨now, TimerLog.LastIs.self ..⟩
    · exact hkeep (hother m hm) rfl hm hen
  | deleted n wheel hinv' hclock hoff hother =>
    refine ⟨⟨K, hinv'⟩, h.once.concat nofun, fun m hen => ?_⟩
    have hm : m ≠ n := fun heq => Bool.false_ne_true (hoff.symm.trans (heq ▸ hen))
    exact hkeep (hother m hm) rfl hm hen
  | ticked t wheel hle hinv' htime hnode =>
    refine ⟨⟨_, hinv'⟩, h.once, fun m hen => ?_⟩
    have hen' : ((r.wheel.node m).tick K _ wheel.clock).isNodeEnabled = true := hnode m ▸ hen
    obtain ⟨now, hlast⟩ := h.last m ((hinv.wf.node m).enabled_of_tick hen')
    refine ⟨now, ?_⟩
    show TimerLog.LastIs r.log m (.added m (wheel.node m).expireTime now)
    rw [hnode m, expireTime_tick]
    exact hlast
  | called n wheel hcb hinv' hclock hoff hother =>
    have hm : ∀ m, (wheel.node m).isNodeEnabled = true → m ≠ n := fun m hen heq =>
      Bool.false_ne_true (hoff.symm.trans (heq ▸ hen))
    split
    next =>
      refine ⟨⟨K, hinv'⟩, h.once.concat ?_, fun m hen => hkeep (hother m (hm m hen)) rfl (hm m hen) hen⟩
      rintro m expireTime curTime ⟨⟩
      exact h.last n ((hinv.wf.node n).enabled_of_pending hcb)
    next =>
      refine ⟨⟨K, hinv'⟩, h.once, fun m hen => ?_⟩
      have hother' := hother m (hm m hen)
      have hen' : (r.wheel.node m).isNodeEnabled = true := hother' ▸ hen
      show ∃ now, TimerLog.LastIs _ m (.added m (wheel.node m).expireTime now)
      rw [hother']
      exact h.last m hen'

theorem Sound.init (now : ℤ) (cb : ℕ → Bool) (ha : accuracy * 512 < 2 ^ 31) :
    Sound (max 1 accuracy) (init now accuracy cb) := by
  refine ⟨⟨0, .init now cb ha⟩, fun before after n expireTime curTime heq => ?_, fun n hen => ?_⟩
  · simp [TimerRun.init] at heq
  · cases hen

end TimerRun

/-! ## The loop over the callbacks -/

namespace FillpTimingWheel

theorem curCbList_addTimer : (s.fillpTimingWheelAddTimer expireTime n).curCbList = s.curCbList := by
  have hite : ∀ {p : Prop} [Decidable p] {s₁ s₂ : FillpTimingWheel}, s₁.curCbList = s.curCbList →
      s₂.curCbList = s.curCbList → (if p then s₁ else s₂).curCbList = s.curCbList := fun h₁ h₂ => by
    split
    next => exact h₁
    next => exact h₂
  exact hite rfl (hite (hite rfl rfl) rfl)

theorem curCbList_delHand (h : TimingHand) : (s.delHand h n).curCbList = s.curCbList := by
  rw [delHand, hlistDelNode]
  split
  next =>
    split
    next => rfl
    next => rfl
  next => rfl

theorem length_curCbList_delTimer : (s.fillpTimingWheelDelTimer n).curCbList.length ≤ s.curCbList.length := by
  rw [fillpTimingWheelDelTimer]
  split
  next => exact le_rfl
  next =>
    have hcb : (if (s.node n).cbListNode then s.cbListDelete n else s).curCbList.length ≤ s.curCbList.length := by
      split
      next => exact erase_sublist.length_le
      next => exact le_rfl
    rw [modifyNode, curCbList_delHand, curCbList_delHand, curCbList_delHand]
    exact hcb

end FillpTimingWheel

namespace TimerRun
variable {r : TimerRun}

/-- Callbacks add no timer to `curCbList`, so that the loop over it comes to an end. -/
theorem length_curCbList_foldl (es : List TimerEvent) (r : TimerRun) (hes : ∀ t, .loopCheck t ∉ es) :
    (es.foldl step r).wheel.curCbList.length ≤ r.wheel.curCbList.length - es.count .callback := by
  induction es generalizing r with
  | nil => exact le_rfl
  | cons e es ih =>
    have hes' : ∀ t, .loopCheck t ∉ es := fun t hmem => hes t (mem_cons_of_mem e hmem)
    have hrest := ih (r.step e) hes'
    rw [foldl_cons]
    cases e with
    | addTimer now expireTime n =>
      rwa [show (r.step (.addTimer now expireTime n)).wheel.curCbList = r.wheel.curCbList from
        curCbList_addTimer ..] at hrest
    | delTimer n =>
      rw [count_cons_of_ne (by exact nofun)]
      have hdel : (r.step (.delTimer n)).wheel.curCbList.length ≤ r.wheel.curCbList.length :=
        length_curCbList_delTimer ..
      omega
    | loopCheck t => exact absurd mem_cons_self (hes t)
    | callback =>
      rw [count_cons_self]
      have hround : (r.step .callback).wheel.curCbList.length = r.wheel.curCbList.length - 1 := by
        rw [step, callback]
        split
        next hnil => rw [hnil]; rfl
        next n l hlist =>
          show (r.wheel.curCbList.erase n).length = _
          rw [hlist, erase_cons_head]
          rfl
      omega

/-- What holds between any two calls and rounds of the loop over the callbacks. -/
structure Tidy (r : TimerRun) : Prop where
  /-- A callback is run at most once for each addition, and not for a timer that has been deleted since. -/
  once : TimerLog.FiredOnce r.log
  /-- A timer is linked once in the slots of the hands that its bits name, and not in the others. -/
  linked : ∀ n h, (r.wheel.slotNodes h).count n = if (r.wheel.node n).status h then 1 else 0
  /-- The other timers that are enabled wait for their callback. -/
  pending : ∀ n, r.wheel.curCbList.count n =
    if (r.wheel.node n).isNodeEnabled ∧ (r.wheel.node n).isClear then 1 else 0
  /-- The loops of `FillpTimingWheelLoopCheck` come to an end, whatever timers the callbacks add and delete. -/
  recycled : r.wheel.hourCycleList = []
  drained : ∀ es : List TimerEvent, (∀ t, .loopCheck t ∉ es) → r.wheel.curCbList.length ≤ es.count .callback →
    (es.foldl step r).wheel.curCbList = []

theorem Sound.tidy (h : Sound a r) : r.Tidy := by
  obtain ⟨K, hinv⟩ := h.inv
  refine ⟨h.once, fun n h => hinv.wf.count_slotNodes h, fun n => ?_, hinv.cycle, fun es hes hcount => ?_⟩
  · have hok := hinv.wf.node n
    have hmem : n ∈ r.wheel.curCbList ↔ (r.wheel.node n).isNodeEnabled = true ∧ (r.wheel.node n).isClear = true := by
      rw [hinv.wf.memCb]
      constructor
      · intro hcb
        exact ⟨hok.enabled_of_pending hcb, hok.isClear_iff.2 (hok.pending hcb)⟩
      · rintro ⟨hen, hclear⟩
        rw [isNodeEnabled, hclear, Bool.not_true, Bool.and_eq_true] at hen
        exact hen.2
    rw [hinv.wf.nodupCb.count]
    simp only [hmem]
  · have hlength := length_curCbList_foldl es r hes
    exact length_eq_zero_iff.1 (by omega)

instance (r : TimerRun) : (e : TimerEvent) → Decidable (r.InRange e)
  | .addTimer .. => inferInstanceAs (Decidable (_ < _))
  | .delTimer _ => .isTrue trivial
  | .loopCheck _ => inferInstanceAs (Decidable (_ < _))
  | .callback => .isTrue trivial

end TimerRun

/-- In a run in which all numbers of ticks fit into a `FILLP_INT`, lists and bits agree, each addition leads to at most one
    callback, and the loops come to an end. -/
theorem timers_tidy (now accuracy : ℤ) (cb : ℕ → Bool) (es : List TimerEvent) (ha : accuracy * 512 < 2 ^ 31)
    (h : AllSteps TimerRun.step TimerRun.InRange (.init now accuracy cb) es) :
    (es.foldl TimerRun.step (.init now accuracy cb)).Tidy :=
  (h.foldl_inv (fun _ e hs he => hs.step e he) (TimerRun.Sound.init now cb ha)).tidy

/-- Two timers expire together.  The callback of the first adds it again with an expiry in the past, and deletes the
    other one. -/
theorem timers_tidy_of_two :
    let es : List TimerEvent := [.addTimer 0 300 0, .addTimer 0 350 1, .addTimer 50 9000 2, .loopCheck 400, .callback,
      .addTimer 400 0 0, .delTimer 1, .callback, .loopCheck 500, .callback]
    let r := es.foldl TimerRun.step (.init 0 100 fun _ => true)
    r.log = [.added 0 300 0, .added 1 350 0, .added 2 9000 50, .fired 0 300 400, .added 0 0 400, .deleted 1,
      .fired 0 0 500] ∧ r.Tidy := by
  intro es r
  exact ⟨by decide +kernel, timers_tidy 0 100 _ es (by decide) (by decide +kernel)⟩

/-- A timer that expires in `2 ^ 31 + 1` ticks, which is less than 60 hours: the number of ticks is negative as a
    `FILLP_INT`, and the timer is linked to a slot before the first one. -/
theorem far_timer_without_slot :
    let r := TimerRun.step (.init 0 100 fun _ => true) (.addTimer 0 214748364900 0)
    (r.wheel.node 0).isNodeEnabled = true ∧ (r.wheel.node 0).status .sec = true ∧
      (r.wheel.node 0).slot .sec = some (-7) ∧ r.wheel.slotNodes .sec = [] ∧ ¬ r.Tidy := by
  intro r
  have hnone : r.wheel.slotNodes .sec = [] := by decide +kernel
  have hstatus : (r.wheel.node 0).status .sec = true := by decide +kernel
  refine ⟨by decide +kernel, hstatus, by decide +kernel, hnone, fun h => ?_⟩
  have hlinked := h.linked 0 .sec
  cases hlinked

end SoftBus.Native
