import SoftBus.Native.SendQueue

/-!
# The send queue of the BLE connections

`softbus_ble_queue.c`: any number of producers call `BleEnqueueNonBlock` and one consumer calls
`BleDequeueNonBlock`.  A producer finds or creates the object of its process under `g_bleQueueLock`, and
writes to the ring after it has released the lock; the consumer looks at the inner queue before
it takes the lock.  So a call is two steps.  The messages of the own process need no lock, and a
producer of one is done in one step.
-/

namespace SoftBus.Native

/-- What the queues look at of a `SendQueueNode`, and where it is. -/
structure SendQueueNode where
  addr : ℕ
  pid : Int32
  flag : Int32
deriving Repr, DecidableEq, Inhabited

/-- `QUEUE_LIMIT` -/
def bleQueueLimit : Fin 3 → UInt32
  | 0 => 32
  | 1 => 32
  | 2 => 16

def createBleQueue (pid : Int32) : Option (PidQueue SendQueueNode) := PidQueue.create bleQueueLimit pid

/-- A producer that has released the lock and has not yet written to the ring. -/
structure BlePush where
  producer : ℕ
  msg : SendQueueNode
  ref : QueueRef
deriving Repr, DecidableEq

/-- The queues, the producers that are about to write, and whether the consumer is between its two
    steps; how often `BleEnqueueNonBlock` was called, the messages for which it returned
    `SOFTBUS_OK`, those written to an object that had been freed, those that were dequeued, and how
    often `BleDequeueNonBlock` has returned. -/
structure BleSendQueue where
  queues : QueueList SendQueueNode
  pushing : List BlePush
  consumerAtList : Bool
  begun : ℕ
  accepted : List SendQueueNode
  intoFreed : List SendQueueNode
  dequeued : List SendQueueNode
  calls : ℕ

inductive BleQueueEvent where
  | enqueue (producer : ℕ) (msg : SendQueueNode)
  | push (producer : ℕ)
  | dequeue
  | dequeueList
deriving Repr, DecidableEq

/-- Whether an object is not freed. -/
def QueueList.isLive {α : Type} (l : QueueList α) : QueueRef → Bool
  | .inner => true
  | .item addr => l.list.contains addr

namespace BleSendQueue

def bleInnerQueueInit : Option BleSendQueue :=
  (createBleQueue 0).map fun innerQueue => ⟨.init innerQueue, [], false, 0, [], [], [], 0⟩

variable (s : BleSendQueue)

/-- `QueueMultiProducerEnqueue`, and the return from `BleEnqueueNonBlock`. -/
def pushMsg (ref : QueueRef) (msg : SendQueueNode) : BleSendQueue :=
  match s.queues.enqueue ref (getPriority msg.flag) msg with
  | none => s
  | some queues =>
    { s with
      queues := queues
      accepted := s.accepted ++ [msg]
      intoFreed := if s.queues.isLive ref then s.intoFreed else s.intoFreed ++ [msg] }

/-- `BleEnqueueNonBlock` until the lock is released. -/
def bleEnqueueNonBlock (producer : ℕ) (msg : SendQueueNode) : BleSendQueue :=
  let s := { s with begun := s.begun + 1 }
  if msg.pid = 0 then s.pushMsg .inner msg
  else
    match s.queues.find msg.pid with
    | some addr => { s with pushing := s.pushing ++ [⟨producer, msg, .item addr⟩] }
    | none =>
      match createBleQueue msg.pid with
      | none => s
      | some newQueue =>
        { s with
          queues := s.queues.insert newQueue
          pushing := s.pushing ++ [⟨producer, msg, .item s.queues.next⟩] }

/-- `BleDequeueNonBlock` returns. -/
def dequeueReturns (msg : Option SendQueueNode) (queues : QueueList SendQueueNode) : BleSendQueue :=
  { s with
    queues := queues
    consumerAtList := false
    dequeued := s.dequeued ++ msg.toList
    calls := s.calls + 1 }

/-- `BleDequeueNonBlock` with the inner queue. -/
def dequeueInner : BleSendQueue :=
  match s.queues.getMsg .inner with
  | some (msg, queues) => s.dequeueReturns (some msg) queues
  | none => { s with consumerAtList := true }

/-- `BleDequeueNonBlock` with the list. -/
def dequeueList : BleSendQueue :=
  match s.queues.list with
  | [] => s.dequeueReturns none s.queues
  | addr :: rest =>
    let r := s.queues.getFirst addr rest
    s.dequeueReturns r.1 r.2

/-- A producer or the consumer goes on with its call before it starts another one. -/
def step : BleQueueEvent → BleSendQueue
  | .enqueue producer msg =>
    if s.pushing.any (·.producer = producer) then s else s.bleEnqueueNonBlock producer msg
  | .push producer =>
    match s.pushing.find? (·.producer = producer) with
    | none => s
    | some p => { s with pushing := s.pushing.filter (·.producer ≠ producer) }.pushMsg p.ref p.msg
  | .dequeue => if s.consumerAtList then s else s.dequeueInner
  | .dequeueList => if s.consumerAtList then s.dequeueList else s

def run (events : List BleQueueEvent) : BleSendQueue := events.foldl step s

end BleSendQueue
end SoftBus.Native
