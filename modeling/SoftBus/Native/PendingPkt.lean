import SoftBus.ForStd.KeyedList
import SoftBus.Native.ProxyMessage

/-!
# Calls that wait for an acknowledgement

Model of `trans_pending_pkt.c` and of a call that sends a packet and waits, as
`TransProxyTransDataSendSyncMsg` does.  A call sends its packet, puts an item into the
pending list, reads the clock, waits until the item is finished or its time is over, and
takes the item out.  Each of these is one step, so that the acknowledgement
(`SetPendingPacket`), the end of a channel (`DelPendingPacket`) and other calls can come
between any two of them.
-/

namespace SoftBus.Native

/-- `PENDING_TYPE_PROXY` and `PENDING_TYPE_DIRECT`: each has a list of its own. -/
inductive PendingType where
  | proxy
  | direct
deriving Repr, DecidableEq

/-- `PackageStatus` -/
inductive PackageStatus where
  | pending
  | finished
  | canceled
deriving Repr, DecidableEq

/-- The type, channel and number of a packet. -/
abbrev PendingKey := PendingType × Int32 × Int32

/-- `PendingPktInfo`, and the call that waits for it. -/
structure PendingPktInfo where
  type : PendingType
  channelId : Int32
  seq : Int32
  status : PackageStatus
  owner : ℕ
deriving Repr, DecidableEq

def PendingPktInfo.key (item : PendingPktInfo) : PendingKey := (item.type, item.channelId, item.seq)

/-- Where a call is.  `registered` has put its item into the list, `waiting` has read the
    clock, `evaluated` has left the loop, `returned` has also taken its item out. -/
inductive SyncPhase where
  | sent
  | registered
  | waiting (outtime : ℕ)
  | evaluated (ret : TransErr)
  | returned (ret : TransErr)
deriving Repr, DecidableEq

/-- A call that sends a packet and waits. -/
structure SyncCall where
  id : ℕ
  type : PendingType
  channelId : Int32
  seq : Int32
  phase : SyncPhase
deriving Repr, DecidableEq

def SyncCall.key (call : SyncCall) : PendingKey := (call.type, call.channelId, call.seq)

/-- The clock in microseconds, `g_pendingList` (the lists of both types in one, newest item
    first), and the calls. -/
structure PendingWorld where
  now : ℕ
  pending : KeyedList PendingPktInfo.key
  calls : KeyedList SyncCall.id

def PendingWorld.init : PendingWorld := ⟨0, .empty, .empty⟩

/-- `TIME_OUT` in microseconds. -/
def pendingTimeOut : ℕ := 2 * 1000000

/-- A call moves on. -/
def PendingWorld.setPhase (w : PendingWorld) (call : SyncCall) (phase : SyncPhase) : PendingWorld :=
  { w with calls := w.calls.set { call with phase := phase } }

/-- The status of an item of the list. -/
def PendingWorld.setStatus (w : PendingWorld) (item : PendingPktInfo) (status : PackageStatus) :
    PendingWorld :=
  { w with pending := w.pending.set { item with status := status } }

/-! ## The steps of a call -/

/-- The packet is sent; `ret` is what the connection answers. -/
def transProxyTransDataSendSyncMsg (id : ℕ) (key : PendingKey) (ret : TransErr) (w : PendingWorld) :
    PendingWorld :=
  match w.calls.find id with
  | some _ => w
  | none =>
    let phase := if ret = .ok then .sent else .returned ret
    { w with calls := w.calls.push ⟨id, key.1, key.2.1, key.2.2, phase⟩ }

/-- `ProcPendingPacket` up to the first unlock. -/
def procPendingPacketInsert (call : SyncCall) (w : PendingWorld) : PendingWorld :=
  match w.pending.find call.key with
  | some _ => w.setPhase call (.returned .alreadyPending)
  | none =>
    let item : PendingPktInfo := ⟨call.type, call.channelId, call.seq, .pending, call.id⟩
    { w with pending := w.pending.cons item }.setPhase call .registered

/-- The loop of `ProcPendingPacket`, each time its condition is read: whether the call goes
    on waiting, or what it will return. -/
def procPendingPacketWait (now outtime : ℕ) (status : PackageStatus) : Option TransErr :=
  if status = .pending ∧ now < outtime then
    none
  else if status ≠ .finished then
    some .timout
  else
    some .ok

section
variable (w : PendingWorld)

/-- A step of a call, if it is where the step starts. -/
def PendingWorld.withCall (id : ℕ) (f : SyncCall → PendingWorld) : PendingWorld :=
  match w.calls.find id with
  | none => w
  | some call => f call

def procRegister (call : SyncCall) : PendingWorld :=
  match call.phase with
  | .sent => procPendingPacketInsert call w
  | _ => w

def procStartWait (call : SyncCall) : PendingWorld :=
  match call.phase with
  | .registered => w.setPhase call (.waiting (w.now + pendingTimeOut))
  | _ => w

def procCheck (call : SyncCall) : PendingWorld :=
  match call.phase, w.pending.find call.key with
  | .waiting outtime, some item =>
    match procPendingPacketWait w.now outtime item.status with
    | none => w
    | some ret => w.setPhase call (.evaluated ret)
  | _, _ => w

def procRemove (call : SyncCall) : PendingWorld :=
  match call.phase with
  | .evaluated ret => { w with pending := w.pending.erase call.key }.setPhase call (.returned ret)
  | _ => w

end

/-! ## Acknowledgements and closed channels -/

def setPendingPacket (key : PendingKey) (w : PendingWorld) : TransErr × PendingWorld :=
  match w.pending.find key with
  | some item => (.ok, w.setStatus item .finished)
  | none => (.err, w)

/-- The item of a channel that `DelPendingPacket` finds. -/
def PendingWorld.firstOf (w : PendingWorld) (type : PendingType) (channelId : Int32) :
    Option PendingPktInfo :=
  w.pending.toList.find? fun item => item.type = type ∧ item.channelId = channelId

def delPendingPacket (type : PendingType) (channelId : Int32) (w : PendingWorld) :
    TransErr × PendingWorld :=
  match w.firstOf type channelId with
  | some item => (.ok, w.setStatus item .canceled)
  | none => (.ok, w)

/-! ## Runs -/

inductive PendingInput where
  | send (id : ℕ) (key : PendingKey) (ret : TransErr)
  | register (id : ℕ)
  | startWait (id : ℕ)
  | check (id : ℕ)
  | remove (id : ℕ)
  | ack (key : PendingKey)
  | cancel (type : PendingType) (channelId : Int32)
  | advance (d : ℕ)
deriving Repr, DecidableEq

def PendingWorld.step (w : PendingWorld) : PendingInput → PendingWorld
  | .send id key ret => transProxyTransDataSendSyncMsg id key ret w
  | .register id => w.withCall id (procRegister w)
  | .startWait id => w.withCall id (procStartWait w)
  | .check id => w.withCall id (procCheck w)
  | .remove id => w.withCall id (procRemove w)
  | .ack key => (setPendingPacket key w).2
  | .cancel type channelId => (delPendingPacket type channelId w).2
  | .advance d => { w with now := w.now + d }

end SoftBus.Native
