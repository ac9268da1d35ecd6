import SoftBus.Native.SendQueue

/-!
# The send queue of the BR connections

`br_connection_queue.c`: any number of producers call `BrEnqueueNonBlock` and one consumer calls
`BrDequeueNonBlock`.  A step is what one of them does between two acquisitions of `g_brQueueLock`; the
waits for `g_sendWaitCond` and `g_sendCond` release it.  `SoftBusCondWait` returns `SOFTBUS_OK` after a
signal and after the time given, so a wait can end at any time, and the broadcasts, which only make
it end earlier, are left out.
-/

namespace SoftBus.Native
open LockFreeQueue

/-- What the queues look at of a `SendBrQueueNode`, and where it is. -/
structure SendBrQueueNode where
  addr : ℕ
  pid : Int32
  flag : Int32
  isInner : Bool
deriving Repr, DecidableEq, Inhabited

/-- `QUEUE_LIMIT` -/
def brQueueLimit : Fin 3 → UInt32
  | 0 => 32
  | 1 => 32
  | 2 => 32

/-- `WAIT_QUEUE_BUFFER_PERIOD_LEN` -/
def waitQueueBufferPeriodLen : UInt32 := 2

/-- `WAIT_RETRY_NUM` -/
def waitRetryNum : ℕ := 2

def createBrQueue (pid : Int32) : Option (PidQueue SendBrQueueNode) := PidQueue.create brQueueLimit pid

inductive BrQueueRet where
  | ok
  | err
  | sendQueueFull
  | queueFull
deriving Repr, DecidableEq

inductive BrWait where
  | returns (ret : BrQueueRet)
  | waits (retry : ℕ)
deriving Repr, DecidableEq

/-- The loop of `WaitQueueLength` from a round to the next wait. -/
def waitQueueLength (ring : LockFreeQueue SendBrQueueNode) (maxLen diffLen : UInt32) (retry : ℕ) : BrWait :=
  let queueCount := ring.queueCountGet
  if queueCount < maxLen - diffLen then .returns .ok
  else if retry + 1 > waitRetryNum then
    if queueCount < maxLen then .returns .ok else .returns .sendQueueFull
  else .waits (retry + 1)

/-- A producer in `WaitQueueLength`. -/
structure BrWaiter where
  producer : ℕ
  msg : SendBrQueueNode
  ref : QueueRef
  retry : ℕ
deriving Repr, DecidableEq

/-- The queues, the producers that wait, and whether the consumer does; the messages whose enqueue
    returned `SOFTBUS_OK`, those that were dequeued, and how often `BrDequeueNonBlock` has returned. -/
structure BrSendQueue where
  queues : QueueList SendBrQueueNode
  waiters : List BrWaiter
  consumerWaits : Bool
  accepted : List SendBrQueueNode
  dequeued : List SendBrQueueNode
  calls : ℕ

inductive BrQueueEvent where
  | enqueue (producer : ℕ) (msg : SendBrQueueNode)
  | wakeProducer (producer : ℕ) (ok : Bool)
  | dequeue
  | wakeConsumer
deriving Repr, DecidableEq

namespace BrSendQueue

def brInnerQueueInit : Option BrSendQueue :=
  (createBrQueue 0).map fun innerQueue => ⟨.init innerQueue, [], false, [], [], 0⟩

variable (s : BrSendQueue)

/-- `BrEnqueueNonBlock` returns. -/
def enqueueReturns (msg : SendBrQueueNode) (ret : BrQueueRet) : BrSendQueue :=
  match ret with
  | .ok => { s with accepted := s.accepted ++ [msg] }
  | .err | .sendQueueFull | .queueFull => s

/-- A producer in the loop of `WaitQueueLength`.  If there is no place for the message after it, `ret` is
    what the ring returned for the inner queue, and still `SOFTBUS_OK` for the others. -/
def enqueueWait (w : BrWaiter) : BrSendQueue :=
  let priority := getPriority w.msg.flag
  match waitQueueLength (s.queues.ring w.ref priority) (brQueueLimit priority) waitQueueBufferPeriodLen
      w.retry with
  | .waits retry => { s with waiters := s.waiters ++ [{ w with retry := retry }] }
  | .returns .ok =>
    match s.queues.enqueue w.ref priority w.msg with
    | some queues => { s with queues := queues }.enqueueReturns w.msg .ok
    | none =>
      match w.ref with
      | .inner => s.enqueueReturns w.msg .queueFull
      | .item _ => s.enqueueReturns w.msg .ok
  | .returns ret => s.enqueueReturns w.msg ret

def brEnqueueNonBlock (producer : ℕ) (msg : SendBrQueueNode) : BrSendQueue :=
  if msg.pid = 0 ∧ msg.isInner then s.enqueueWait ⟨producer, msg, .inner, 0⟩
  else
    match s.queues.find msg.pid with
    | some addr => s.enqueueWait ⟨producer, msg, .item addr, 0⟩
    | none =>
      match createBrQueue msg.pid with
      | none => s.enqueueReturns msg .err
      | some newQueue =>
        match (s.queues.insert newQueue).enqueue (.item s.queues.next) (getPriority msg.flag) msg with
        | some queues => { s with queues := queues }.enqueueReturns msg .ok
        | none => { s with queues := s.queues.insert newQueue }.enqueueReturns msg .err

/-- `BrDequeueNonBlock` returns. -/
def dequeueReturns (msg : Option SendBrQueueNode) (queues : QueueList SendBrQueueNode) :
    BrSendQueue :=
  { s with queues := queues, dequeued := s.dequeued ++ msg.toList, calls := s.calls + 1 }

def brDequeueNonBlock : BrSendQueue :=
  match s.queues.getMsg .inner with
  | some (msg, queues) => s.dequeueReturns (some msg) queues
  | none =>
    match s.queues.list with
    | [] => { s with consumerWaits := true }
    | addr :: rest =>
      let r := s.queues.getFirst addr rest
      s.dequeueReturns r.1 r.2

/-- Who waits does nothing else. -/
def step : BrQueueEvent → BrSendQueue
  | .enqueue producer msg =>
    if s.waiters.any (·.producer = producer) then s else s.brEnqueueNonBlock producer msg
  | .wakeProducer producer ok =>
    match s.waiters.find? (·.producer = producer) with
    | none => s
    | some w =>
      let s := { s with waiters := s.waiters.filter (·.producer ≠ producer) }
      if ok then s.enqueueWait w else s.enqueueReturns w.msg .err
  | .dequeue => if s.consumerWaits then s else s.brDequeueNonBlock
  | .wakeConsumer =>
    if s.consumerWaits then { s with consumerWaits := false }.dequeueReturns none s.queues else s

def run (events : List BrQueueEvent) : BrSendQueue := events.foldl step s

end BrSendQueue
end SoftBus.Native
