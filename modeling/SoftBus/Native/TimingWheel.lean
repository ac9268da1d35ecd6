import Mathlib

/-!
# Timing wheel of FillP

`timing_wheel.c`: a timer is linked into a slot of up to three hands, and each of its bits in `status` says that it is
still linked into a slot of that hand.  A hand that moves takes the timers out of the slots that it passes; a timer
whose bits are all cleared goes to `curCbList`, and its callback is run after the hands have moved.

The timers are named by numbers.  Of a node of an intrusive list only its `list` is kept: `slot` names the slot into which
`secNode`, `minNode` and `hourNode` are linked.  A slot is given by an index that may be outside of the array of the
source, where only the eight slots from 0 on exist.  Times are unbounded, and a conversion to `FILLP_INT` keeps
the lowest 32 bits.
-/

namespace SoftBus.Native
open Function

/-- `FILLP_TIMING_WHEEL_SLOT_NUM` -/
def fillpTimingWheelSlotNum : ℤ := 8

/-- A conversion to `FILLP_INT`. -/
def fillpInt (x : ℤ) : ℤ := x.bmod (2 ^ 32)

inductive TimingHand where
  | sec
  | min
  | hour
deriving Repr, DecidableEq

structure FillpTimingWheelHand where
  slotList : ℤ → List ℕ
  accuracy : ℤ
  handLength : ℤ
  curTick : ℤ

structure FillpTimingWheelTimerNode where
  /-- `list` of `secNode`, `minNode` and `hourNode` -/
  slot : TimingHand → Option ℤ
  /-- whether `cbListNode` is linked -/
  cbListNode : Bool
  /-- whether `wheel` is set -/
  wheel : Bool
  expireTime : ℤ
  /-- whether `cbNode.cb` is set -/
  cb : Bool
  status : TimingHand → Bool

structure FillpTimingWheel where
  hand : TimingHand → FillpTimingWheelHand
  curTime : ℤ
  accuracy : ℤ
  curCbList : List ℕ
  hourCycleList : List ℕ
  node : ℕ → FillpTimingWheelTimerNode

namespace FillpTimingWheelTimerNode

/-- `FILLP_TIMING_WHEEL_IS_CLEAR` -/
def isClear (node : FillpTimingWheelTimerNode) : Bool := !node.status .sec && !node.status .min && !node.status .hour

/-- `FILLP_TIMING_WHEEL_IS_NODE_ENABLED` -/
def isNodeEnabled (node : FillpTimingWheelTimerNode) : Bool := node.wheel && (!node.isClear || node.cbListNode)

end FillpTimingWheelTimerNode

namespace FillpTimingWheel

def modifyNode (n : ℕ) (f : FillpTimingWheelTimerNode → FillpTimingWheelTimerNode) (s : FillpTimingWheel) : FillpTimingWheel :=
  { s with node := update s.node n (f (s.node n)) }

section
variable (h : TimingHand)

def modifyHand (f : FillpTimingWheelHand → FillpTimingWheelHand) (s : FillpTimingWheel) : FillpTimingWheel :=
  { s with hand := update s.hand h (f (s.hand h)) }

def setTick (curTick : ℤ) : FillpTimingWheel → FillpTimingWheel :=
  modifyHand h fun hand => { hand with curTick := curTick }

/-- `FILLP_TIMING_WHEEL_SET_SEC`, `…_MIN` and `…_HOUR`, and the macros that clear a bit -/
def setStatus (bit : Bool) (n : ℕ) : FillpTimingWheel → FillpTimingWheel :=
  modifyNode n fun node => { node with status := update node.status h bit }

/-! ## Lists -/

/-- What a function does to the list of the slot `j`. -/
def modifySlot (j : ℤ) (f : List ℕ → List ℕ) : FillpTimingWheel → FillpTimingWheel :=
  modifyHand h fun hand => { hand with slotList := update hand.slotList j (f (hand.slotList j)) }

def setSlot (slot : Option ℤ) (n : ℕ) : FillpTimingWheel → FillpTimingWheel :=
  modifyNode n fun node => { node with slot := update node.slot h slot }

/-- `HlistAddTail` for the slot `j` -/
def hlistAddTail (j : ℤ) (n : ℕ) (s : FillpTimingWheel) : FillpTimingWheel :=
  (s.modifySlot h j (· ++ [n])).setSlot h (some j) n

/-- `HlistDelete` for the slot `j` -/
def hlistDelete (j : ℤ) (n : ℕ) (s : FillpTimingWheel) : FillpTimingWheel :=
  (s.modifySlot h j (List.erase · n)).setSlot h none n

/-- `HlistDelNode` for a node of a slot -/
def hlistDelNode (n : ℕ) (s : FillpTimingWheel) : FillpTimingWheel :=
  match (s.node n).slot h with
  | none => s
  | some j => s.hlistDelete h j n

end

/-- `HlistAddTail` for `curCbList` -/
def cbListAddTail (n : ℕ) (s : FillpTimingWheel) : FillpTimingWheel :=
  ({ s with curCbList := s.curCbList ++ [n] } : FillpTimingWheel).modifyNode n fun node => { node with cbListNode := true }

/-- `HlistDelete` for `curCbList` -/
def cbListDelete (n : ℕ) (s : FillpTimingWheel) : FillpTimingWheel :=
  ({ s with curCbList := s.curCbList.erase n } : FillpTimingWheel).modifyNode n fun node => { node with cbListNode := false }

/-! ## Adding and deleting -/

def fillpTimingWheelAddTimerInner (s : FillpTimingWheel) (expireTime : ℤ) (n : ℕ) : FillpTimingWheel :=
  let s := s.modifyNode n fun node =>
    { node with slot := fun _ => none, status := fun _ => false, expireTime := expireTime }
  let timeDiff := expireTime - s.curTime
  let timeDiff := if timeDiff < 0 ∨ timeDiff < (s.hand .sec).accuracy then (s.hand .sec).accuracy else timeDiff
  let tickDiff := fillpInt (timeDiff.tdiv (s.hand .sec).accuracy)
  let secTick := fillpInt ((s.hand .sec).curTick + tickDiff)
  let s := (s.hlistAddTail .sec (secTick.tmod fillpTimingWheelSlotNum) n).setStatus .sec true n
  let s :=
    if secTick ≥ fillpTimingWheelSlotNum then
      let minTick := fillpInt (secTick.tdiv fillpTimingWheelSlotNum + (s.hand .min).curTick)
      let s := (s.hlistAddTail .min (minTick.tmod fillpTimingWheelSlotNum) n).setStatus .min true n
      let hourTick := minTick.tdiv fillpTimingWheelSlotNum
      if hourTick > 0 then
        let hourTick := fillpInt (hourTick + (s.hand .hour).curTick)
        (s.hlistAddTail .hour (hourTick.tmod fillpTimingWheelSlotNum) n).setStatus .hour true n
      else s
    else s
  s.modifyNode n fun node => { node with wheel := true }

def fillpTimingWheelAddTimer (s : FillpTimingWheel) (expireTime : ℤ) (n : ℕ) : FillpTimingWheel :=
  if (s.node n).isNodeEnabled then s else s.fillpTimingWheelAddTimerInner expireTime n

/-- What `FillpTimingWheelDelTimer` does for one hand. -/
def delHand (h : TimingHand) (n : ℕ) (s : FillpTimingWheel) : FillpTimingWheel :=
  if (s.node n).status h then (s.hlistDelNode h n).setStatus h false n else s

def fillpTimingWheelDelTimer (s : FillpTimingWheel) (n : ℕ) : FillpTimingWheel :=
  if !(s.node n).isNodeEnabled then s
  else
    let s := if (s.node n).cbListNode then s.cbListDelete n else s
    let s := ((s.delHand .sec n).delHand .min n).delHand .hour n
    s.modifyNode n fun node => { node with wheel := false }

/-! ## The hands -/

def fillpTimingWheelRunPending (s : FillpTimingWheel) (n : ℕ) : FillpTimingWheel :=
  if (s.node n).isClear then s.cbListAddTail n else s

/-- A timer is taken out of the slot `j`. -/
def leaveSlot (h : TimingHand) (j : ℤ) (s : FillpTimingWheel) (n : ℕ) : FillpTimingWheel :=
  ((s.hlistDelete h j n).setStatus h false n).fillpTimingWheelRunPending n

/-- The loop over a slot in `FillpTimingWheelHandSecTick` and in `FillpTimingWheelHandMinTick`. -/
def sweepSlot (h : TimingHand) (j : ℤ) (s : FillpTimingWheel) : FillpTimingWheel :=
  ((s.hand h).slotList j).foldl (leaveSlot h j) s

/-- What `FillpTimingWheelHandHourTick` does with a timer of the slot `j`. -/
def visitHour (j : ℤ) (s : FillpTimingWheel) (n : ℕ) : FillpTimingWheel :=
  if s.curTime > (s.node n).expireTime then s.leaveSlot .hour j n
  else if s.curTime + (s.hand .hour).handLength > (s.node n).expireTime then
    { s with hourCycleList := s.hourCycleList ++ [n] }
  else s

/-- The loop over a slot in `FillpTimingWheelHandHourTick`. -/
def sweepHourSlot (j : ℤ) (s : FillpTimingWheel) : FillpTimingWheel :=
  ((s.hand .hour).slotList j).foldl (visitHour j) s

/-- The loop over `count` slots from `tmpIndex` on. -/
def sweepLoop (body : ℤ → FillpTimingWheel → FillpTimingWheel) : ℕ → ℤ → FillpTimingWheel → FillpTimingWheel
  | 0, _, s => s
  | count + 1, tmpIndex, s =>
    sweepLoop body count (if tmpIndex + 1 = fillpTimingWheelSlotNum then 0 else tmpIndex + 1) (body tmpIndex s)

/-- The loop over `hourCycleList`, for at most `count` timers. -/
def recycleLoop : ℕ → FillpTimingWheel → FillpTimingWheel
  | 0, s => s
  | count + 1, s =>
    match s.hourCycleList with
    | [] => s
    | n :: rest =>
      let s := ({ s with hourCycleList := rest } : FillpTimingWheel).fillpTimingWheelDelTimer n
      recycleLoop count (s.fillpTimingWheelAddTimerInner (s.node n).expireTime n)

section
variable (s : FillpTimingWheel)

/-- Whether a hand stands outside of its slots. -/
def badTick (h : TimingHand) : Bool :=
  (s.hand h).curTick ≥ fillpTimingWheelSlotNum || (s.hand h).curTick < 0

def fillpTimingWheelHandHourTick (tickDiff : ℤ) : FillpTimingWheel :=
  let tickLoop := fillpInt (min tickDiff (fillpTimingWheelSlotNum - 1))
  let tmpIndex := (s.hand .hour).curTick
  if s.badTick .hour then s
  else
    let s := sweepLoop sweepHourSlot (tickLoop + 1).toNat tmpIndex s
    let s := s.setTick .hour (fillpInt (((s.hand .hour).curTick + tickDiff).tmod fillpTimingWheelSlotNum))
    recycleLoop s.hourCycleList.length s

def fillpTimingWheelHandMinTick (tickDiff : ℤ) : FillpTimingWheel :=
  let tmpIndex := (s.hand .min).curTick
  let tickLoop := fillpInt (min tickDiff (fillpTimingWheelSlotNum - 1))
  let minTick := fillpInt (tickDiff + (s.hand .min).curTick)
  let hourTick := minTick.tdiv fillpTimingWheelSlotNum
  if s.badTick .min then s
  else
    let s := sweepLoop (sweepSlot .min) (tickLoop + 1).toNat tmpIndex s
    let s := s.setTick .min (minTick.tmod fillpTimingWheelSlotNum)
    if hourTick > 0 then s.fillpTimingWheelHandHourTick hourTick else s

def fillpTimingWheelHandSecTick (tickDiff : ℤ) : FillpTimingWheel :=
  let tmpIndex := (s.hand .sec).curTick
  let tickLoop := min tickDiff (fillpTimingWheelSlotNum - 1)
  let secTick := fillpInt (tickDiff + (s.hand .sec).curTick)
  let minTick := secTick.tdiv fillpTimingWheelSlotNum
  if s.badTick .sec then s
  else
    let s := sweepLoop (sweepSlot .sec) (tickLoop + 1).toNat tmpIndex s
    let s := s.setTick .sec (secTick.tmod fillpTimingWheelSlotNum)
    if minTick > 0 then s.fillpTimingWheelHandMinTick minTick else s

/-- The part of `FillpTimingWheelLoopCheck` before the callbacks. -/
def fillpTimingWheelLoopCheck (curTime : ℤ) : FillpTimingWheel :=
  let timeDiff := curTime - s.curTime
  if timeDiff < 0 then s
  else
    let tickDiff := fillpInt (timeDiff.tdiv s.accuracy)
    if tickDiff = 0 then s
    else ({ s with curTime := curTime } : FillpTimingWheel).fillpTimingWheelHandSecTick tickDiff

end

/-- `FillpInitTimingWheelTimeHand` -/
def fillpInitTimingWheelTimeHand (accuracy : ℤ) : FillpTimingWheelHand :=
  if accuracy = 0 then ⟨fun _ => [], 0, 0, 0⟩
  else ⟨fun _ => [], accuracy, fillpInt (accuracy * fillpTimingWheelSlotNum), 0⟩

/-- `FillpTimingWheelInit` at the time `now`, for timers that have been zeroed, and of which those in `cb` have a callback -/
def fillpTimingWheelInit (now accuracy : ℤ) (cb : ℕ → Bool) : FillpTimingWheel :=
  let accuracy := if accuracy ≤ 0 then 1 else accuracy
  { hand := fun
      | .sec => fillpInitTimingWheelTimeHand (fillpInt accuracy)
      | .min => fillpInitTimingWheelTimeHand (fillpInt (accuracy * fillpTimingWheelSlotNum))
      | .hour => fillpInitTimingWheelTimeHand (fillpInt (accuracy * fillpTimingWheelSlotNum * fillpTimingWheelSlotNum))
    curTime := now
    accuracy := accuracy
    curCbList := []
    hourCycleList := []
    node := fun n => ⟨fun _ => none, false, false, 0, cb n, fun _ => false⟩ }

end FillpTimingWheel

/-! ## Runs -/

/-- The calls of the users of a wheel, with the time of an `FillpTimingWheelAddTimer`, and the rounds of the loop over
    `curCbList` in `FillpTimingWheelLoopCheck`.  The calls that a callback makes are the ones that follow its round. -/
inductive TimerEvent where
  | addTimer (now expireTime : ℤ) (n : ℕ)
  | delTimer (n : ℕ)
  | loopCheck (curTime : ℤ)
  | callback
deriving Repr, DecidableEq

/-- A timer is added that was not enabled, or is deleted, or its callback is run. -/
inductive TimerLog where
  | added (n : ℕ) (expireTime now : ℤ)
  | deleted (n : ℕ)
  | fired (n : ℕ) (expireTime curTime : ℤ)
deriving Repr, DecidableEq

structure TimerRun where
  wheel : FillpTimingWheel
  log : List TimerLog

namespace TimerRun

def init (now accuracy : ℤ) (cb : ℕ → Bool) : TimerRun := ⟨.fillpTimingWheelInit now accuracy cb, []⟩

/-- A round of the loop over `curCbList`. -/
def callback (r : TimerRun) : TimerRun :=
  match r.wheel.curCbList with
  | [] => r
  | n :: _ =>
    let wheel := r.wheel.cbListDelete n
    let node := r.wheel.node n
    ⟨wheel, if node.cb then r.log ++ [.fired n node.expireTime wheel.curTime] else r.log⟩

def step (r : TimerRun) : TimerEvent → TimerRun
  | .addTimer now expireTime n =>
    ⟨r.wheel.fillpTimingWheelAddTimer expireTime n,
      if (r.wheel.node n).isNodeEnabled then r.log else r.log ++ [.added n expireTime now]⟩
  | .delTimer n => ⟨r.wheel.fillpTimingWheelDelTimer n, r.log ++ [.deleted n]⟩
  | .loopCheck curTime => ⟨r.wheel.fillpTimingWheelLoopCheck curTime, r.log⟩
  | .callback => r.callback

end TimerRun
end SoftBus.Native
