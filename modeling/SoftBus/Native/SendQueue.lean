import Mathlib

/-!
# Queues of the messages to be sent

`LockFreeQueue` is a ring of pointers (`softbus_queue.h`), each operation taken as a whole:
no other producer is between its steps, so that the compare-and-swap succeeds and the
producer's tail has not to be waited for.  A new ring is cleared, and `default` is the null pointer.

The managers of the BR and of the BLE connections each have, for every process, an object with
one ring per priority.  The objects are in a list, those of the own process (`g_innerQueue`)
apart; `QueueList` has them by their addresses.  An object that is taken off the list is freed,
but a producer may still have its address; its memory is then read and written as it was left.
-/

namespace SoftBus.Native
open Function

/-! ## Rings -/

structure LockFreeQueue (α : Type) where
  unitNum : UInt32
  mask : UInt32
  producerHead : UInt32
  producerTail : UInt32
  consumerHead : UInt32
  consumerTail : UInt32
  nodes : UInt32 → α

/-- `QUEUE_SIZE_MAX` -/
def queueSizeMax : UInt32 := 8192

/-- `IS_POWER_OF_2` -/
def isPowerOf2 (x : UInt32) : Bool := (x - 1) &&& x = 0

namespace LockFreeQueue
variable {α : Type}

def queueInit [Inhabited α] (unitNum : UInt32) : Option (LockFreeQueue α) :=
  if !isPowerOf2 unitNum then none
  else some ⟨unitNum, unitNum - 1, 0, 0, 0, 0, fun _ => default⟩

/-- There is memory. -/
def createQueue [Inhabited α] (unitNum : UInt32) : Option (LockFreeQueue α) :=
  if !isPowerOf2 unitNum then none
  else if unitNum > queueSizeMax then none
  else queueInit unitNum

variable (queue : LockFreeQueue α)

def queueCountGet : UInt32 :=
  (queue.producerTail - queue.consumerTail) &&& queue.mask

/-- `none` is `QUEUE_FULL`. -/
def queueMultiProducerEnqueue (node : α) : Option (LockFreeQueue α) :=
  let availableCount := (queue.mask + queue.consumerTail) - queue.producerHead
  if availableCount < 1 then none
  else
    some { queue with
      producerHead := queue.producerHead + 1
      nodes := update queue.nodes (queue.producerHead &&& queue.mask) node
      producerTail := queue.producerTail + 1 }

/-- `none` is `QUEUE_EMPTY`. -/
def queueSingleConsumerDequeue : Option (α × LockFreeQueue α) :=
  let availableCount := queue.producerTail - queue.consumerHead
  if availableCount < 1 then none
  else
    some (queue.nodes (queue.consumerHead &&& queue.mask),
      { queue with consumerHead := queue.consumerHead + 1, consumerTail := queue.consumerHead + 1 })

end LockFreeQueue

open LockFreeQueue

/-! ## Queues of a process -/

/-- `BrQueue` and `BleQueue` -/
structure PidQueue (α : Type) where
  pid : Int32
  queue : Fin 3 → LockFreeQueue α

/-- `CONN_MIDDLE` -/
def connMiddle : Int32 := 1

/-- `CONN_HIGH` -/
def connHigh : Int32 := 2

/-- The index of the ring for a message. -/
def getPriority (flag : Int32) : Fin 3 :=
  if flag = connHigh then 0
  else if flag = connMiddle then 1
  else 2

namespace PidQueue
variable {α : Type}

/-- `CreateBrQueue` and `CreateBleQueue`, which have their own limits. -/
def create [Inhabited α] (limit : Fin 3 → UInt32) (pid : Int32) : Option (PidQueue α) := do
  let high ← createQueue (limit 0)
  let middle ← createQueue (limit 1)
  let low ← createQueue (limit 2)
  return ⟨pid, fun
    | 0 => high
    | 1 => middle
    | 2 => low⟩

variable (queue : PidQueue α)

def setRing (priority : Fin 3) (ring : LockFreeQueue α) : PidQueue α :=
  { queue with queue := update queue.queue priority ring }

/-- What `GetMsg` does with one ring. -/
def getFrom (priority : Fin 3) : Option (α × PidQueue α) :=
  (queueSingleConsumerDequeue (queue.queue priority)).map fun r => (r.1, queue.setRing priority r.2)

/-- The rings are tried one after the other. -/
def getMsg : Option (α × PidQueue α) :=
  [0, 1, 2].findSome? queue.getFrom

end PidQueue

/-! ## Lists of queues -/

/-- What a producer has of the object it uses. -/
inductive QueueRef where
  | inner
  | item (addr : ℕ)
deriving Repr, DecidableEq

/-- The objects, those on the list, and the address of the next one that is created. -/
structure QueueList (α : Type) where
  innerQueue : PidQueue α
  queues : ℕ → PidQueue α
  next : ℕ
  list : List ℕ

namespace QueueList
variable {α : Type}

/-- After `BrInnerQueueInit` and `BleInnerQueueInit`. -/
def init (innerQueue : PidQueue α) : QueueList α := ⟨innerQueue, fun _ => innerQueue, 0, []⟩

def queue (l : QueueList α) : QueueRef → PidQueue α
  | .inner => l.innerQueue
  | .item addr => l.queues addr

def setQueue (l : QueueList α) (ref : QueueRef) (queue : PidQueue α) : QueueList α :=
  match ref with
  | .inner => { l with innerQueue := queue }
  | .item addr => { l with queues := update l.queues addr queue }

def ring (l : QueueList α) (ref : QueueRef) (priority : Fin 3) : LockFreeQueue α :=
  (l.queue ref).queue priority

/-- The object of a process on the list. -/
def find (l : QueueList α) (pid : Int32) : Option ℕ := l.list.find? fun addr => (l.queues addr).pid = pid

/-- A new object goes to the end of the list. -/
def insert (l : QueueList α) (queue : PidQueue α) : QueueList α :=
  { l with queues := update l.queues l.next queue, next := l.next + 1, list := l.list ++ [l.next] }

def enqueue (l : QueueList α) (ref : QueueRef) (priority : Fin 3) (node : α) : Option (QueueList α) :=
  (queueMultiProducerEnqueue (l.ring ref priority) node).map fun ring =>
    l.setQueue ref ((l.queue ref).setRing priority ring)

def getMsg (l : QueueList α) (ref : QueueRef) : Option (α × QueueList α) :=
  (l.queue ref).getMsg.map fun r => (r.1, l.setQueue ref r.2)

/-- The object `addr` at the begin of the list goes to its end if there is a message in it, and
    is freed if there is none. -/
def getFirst (l : QueueList α) (addr : ℕ) (rest : List ℕ) : Option α × QueueList α :=
  match l.getMsg (.item addr) with
  | none => (none, { l with list := rest })
  | some (msg, l) => (some msg, { l with list := rest ++ [addr] })

end QueueList
end SoftBus.Native
