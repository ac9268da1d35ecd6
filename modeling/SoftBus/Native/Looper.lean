import Mathlib

/-!
# Loopers

`message_handler.c`: a queue of messages in the order of the times at which they are due, and a thread that handles them.
A step is what a thread does while it has the lock, or the call of a handler, which is made without it;
so other steps come between any two steps of the loop.  What has been posted, handled and removed is kept in
journals.

`SoftBusCondWait` gives the lock back and comes to the begin of the loop again, at the latest when the
first message is due.
-/

namespace SoftBus.Native

structure SoftBusHandler where
  /-- the address -/
  addr : ℕ
  /-- whether `HandleMessage` is not null -/
  handleMessage : Bool
deriving Repr, DecidableEq

/-- A message object; `num` is the number of the call of `PostMessageAtTime` that it was given to. -/
structure SoftBusMessage where
  num : ℕ
  what : Int32
  arg1 : UInt64
  arg2 : UInt64
  time : ℤ
  obj : ℕ
  handler : Option SoftBusHandler
deriving Repr, DecidableEq

structure SoftBusLooperContext where
  msgHead : List SoftBusMessage
  stop : Bool
  running : Bool
  currentMsg : Option SoftBusMessage
  msgSize : UInt32
deriving Repr, DecidableEq

namespace SoftBusLooperContext

/-- The message is inserted before the first one that is due later. -/
def postMessageAtTime (context : SoftBusLooperContext) (msgPost : SoftBusMessage) : SoftBusLooperContext :=
  if msgPost.handler.isNone then context
  else if context.stop then context
  else
    { context with
      msgHead := context.msgHead.orderedInsert (fun msgPost msg => msgPost.time < msg.time) msgPost
      msgSize := context.msgSize + 1 }

/-- `msg->handler == handler && customFunc(msg, args) == 0` -/
def removes (handler : ℕ) (customFunc : SoftBusMessage → Int32) (msg : SoftBusMessage) : Bool :=
  msg.handler.map (·.addr) = some handler ∧ customFunc msg = 0

/-- Nothing is removed while the thread does not run.  Gives the messages that are removed as well. -/
def loopRemoveMessageCustom (context : SoftBusLooperContext) (handler : ℕ) (customFunc : SoftBusMessage → Int32) :
    List SoftBusMessage × SoftBusLooperContext :=
  if !context.running || context.stop then ([], context)
  else
    (context.msgHead.filter (removes handler customFunc),
      { context with
        msgHead := context.msgHead.filter fun msg => !removes handler customFunc msg
        msgSize := context.msgSize - UInt32.ofNat (context.msgHead.countP (removes handler customFunc)) })

/-- `FSM_CTRL_MSG_DATA` -/
def fsmCtrlMsgData : Int32 := 1

/-- `para` is the type, and the type `0` is `NULL`. -/
def removeMessageFunc (msgType : Int32) (msg : SoftBusMessage) : Int32 :=
  if msgType = 0 then 1
  else if msg.what = fsmCtrlMsgData ∧ msg.arg1.toUInt32.toInt32 = msgType then 0
  else 1

/-- For the state machine whose `handler` has the address. -/
def lnnFsmRemoveMessage (context : SoftBusLooperContext) (handler : ℕ) (msgType : Int32) : SoftBusLooperContext :=
  (context.loopRemoveMessageCustom handler (removeMessageFunc msgType)).2

end SoftBusLooperContext

/-- Where the thread is. -/
inductive LoopPhase where
  /-- before `running` is set -/
  | start
  /-- at the begin of the loop -/
  | loop
  /-- with a message, and the time at which it was taken, before the call of the handler -/
  | handle (msg : SoftBusMessage) (now : ℤ)
  /-- after the call -/
  | free (msg : SoftBusMessage)
  /-- out of the loop -/
  | leave
  | ended
deriving Repr, DecidableEq

/-- A call of a handler: the message, and the times at which it was taken and given to the handler. -/
structure HandledMessage where
  msg : SoftBusMessage
  taken : ℤ
  time : ℤ
deriving Repr, DecidableEq

structure LooperState where
  context : SoftBusLooperContext
  phase : LoopPhase
  isNeedDestroy : Bool
  clock : ℤ
  posted : List SoftBusMessage
  handled : List HandledMessage
  removed : List SoftBusMessage
deriving Repr, DecidableEq

namespace LooperState

def createNewLooper (clock : ℤ) : LooperState :=
  ⟨⟨[], false, false, none, 0⟩, .start, false, clock, [], [], []⟩

/-- One step of the thread. -/
def loopTask (s : LooperState) : LooperState :=
  match s.phase with
  | .start => { s with context := { s.context with running := true }, phase := .loop }
  | .loop =>
    if s.context.stop then { s with phase := .leave }
    else if s.isNeedDestroy then { s with phase := .leave }
    else
      match s.context.msgHead with
      | [] => s
      | msg :: msgs =>
        if s.clock ≥ msg.time then
          { s with
            context :=
              { s.context with msgHead := msgs, msgSize := s.context.msgSize - 1, currentMsg := some msg }
            phase := .handle msg s.clock }
        else s
  | .handle msg now =>
    match msg.handler with
    | some ⟨_, true⟩ => { s with handled := s.handled ++ [⟨msg, now, s.clock⟩], phase := .free msg }
    | _ => { s with phase := .free msg }
  | .free _ => { s with context := { s.context with currentMsg := none }, phase := .loop }
  | .leave => { s with context := { s.context with running := false }, phase := .ended }
  | .ended => s

end LooperState

inductive LooperEvent where
  /-- `PostMessageAtTime` -/
  | post (msg : SoftBusMessage)
  /-- `LoopRemoveMessageCustom`, with `customFunc` for its `args` -/
  | remove (handler : ℕ) (customFunc : SoftBusMessage → Int32)
  /-- a step of `LoopTask` -/
  | loop
  /-- `DestroyLooper` sets `stop` -/
  | stop
  /-- `LooperDeinit` before the thread has started -/
  | needDestroy
  /-- the clock shows another time -/
  | clock (now : ℤ)

namespace LooperState

def step (s : LooperState) : LooperEvent → LooperState
  | .post msg =>
    let msg := { msg with num := s.posted.length }
    { s with context := s.context.postMessageAtTime msg, posted := s.posted ++ [msg] }
  | .remove handler customFunc =>
    let r := s.context.loopRemoveMessageCustom handler customFunc
    { s with context := r.2, removed := s.removed ++ r.1 }
  | .loop => s.loopTask
  | .stop => { s with context := { s.context with stop := true } }
  | .needDestroy => { s with isNeedDestroy := true }
  | .clock now => { s with clock := now }

/-- The state after some events. -/
def run (clock : ℤ) (es : List LooperEvent) : LooperState := es.foldl step (createNewLooper clock)

end LooperState
end SoftBus.Native
