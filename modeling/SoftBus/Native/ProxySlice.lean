import SoftBus.ForStd.KeyedList
import SoftBus.Native.ProxyMessage

/-!
# Slices of the proxy channels

Model of the sending and receiving side of `softbus_proxychannel_session.c`.  A packet is
encrypted behind a head of 16 bytes and sent in slices of at most 1024 bytes, each behind a
slice head of 16 bytes.  The receiver puts the slices together in a buffer of their channel
and priority and hands the packet to `TransProxyNoSubPacketProc`.

Encryption and what the session does with a message are parameters.  `trace` records what
happens to a slot: that it is cleared, that a slice is taken to it, and what is handed on.
-/

namespace SoftBus.Native

/-! ## Types of packets -/

/-- `ProxyPacketType`; `other` is any number that is none of them. -/
inductive ProxyPacketType where
  | bytes
  | ack
  | message
  | fileFirstFrame
  | fileOngoineFrame
  | fileLastFrame
  | fileOnlyoneFrame
  | fileAllFileSent
  | fileCrcCheckFrame
  | fileResultFrame
  | fileAckRequestSent
  | fileAckResponseSent
  | asyncMessage
  | other (flags : Int32)
deriving Repr, DecidableEq

namespace ProxyPacketType

def code : ProxyPacketType → Int32
  | .bytes => 0
  | .ack => 1
  | .message => 2
  | .fileFirstFrame => 3
  | .fileOngoineFrame => 4
  | .fileLastFrame => 5
  | .fileOnlyoneFrame => 6
  | .fileAllFileSent => 7
  | .fileCrcCheckFrame => 8
  | .fileResultFrame => 9
  | .fileAckRequestSent => 10
  | .fileAckResponseSent => 11
  | .asyncMessage => 12
  | .other flags => flags

def ofCode (flags : Int32) : ProxyPacketType :=
  ([bytes, ack, message, fileFirstFrame, fileOngoineFrame, fileLastFrame, fileOnlyoneFrame,
    fileAllFileSent, fileCrcCheckFrame, fileResultFrame, fileAckRequestSent, fileAckResponseSent,
    asyncMessage].find? (·.code = flags)).getD (.other flags)

end ProxyPacketType

/-- `ProxyChannelPriority`: message, bytes, file. -/
abbrev ProxyChannelPriority := Fin 3

def priorityMessage : ProxyChannelPriority := ⟨0, by decide⟩

def priorityBytes : ProxyChannelPriority := ⟨1, by decide⟩

def priorityFile : ProxyChannelPriority := ⟨2, by decide⟩

def proxyTypeToProxyIndex : ProxyPacketType → ProxyChannelPriority
  | .message | .asyncMessage | .ack => priorityMessage
  | .bytes => priorityBytes
  | _ => priorityFile

/-! ## Heads -/

/-- `OVERHEAD_LEN`: what the encryption adds. -/
def overheadLen : ℕ := 28

/-- `MAX_SEND_LENGTH` -/
def maxSendLength : ℕ := 1024

def magicNumber : UInt32 := 0xBABEFACE

/-- The 4 bytes of a word. -/
def packWord (v : Int32) : List UInt8 := Bytes.toLE 4 v.toUInt32.toNat

/-- The word at `off`. -/
def wordAt (data : List UInt8) (off : ℕ) : Int32 :=
  (UInt32.ofNat (Bytes.ofLE ((data.drop off).take 4))).toInt32

structure SliceHead where
  priority : Int32
  sliceNum : Int32
  sliceSeq : Int32
  reserved : Int32
deriving Repr, DecidableEq

def sliceHeadLen : ℕ := 16

def packSliceHead (head : SliceHead) : List UInt8 :=
  packWord head.priority ++ (packWord head.sliceNum ++ (packWord head.sliceSeq ++
    packWord head.reserved))

def unPackSliceHead (data : List UInt8) : SliceHead :=
  ⟨wordAt data 0, wordAt data 4, wordAt data 8, wordAt data 12⟩

structure PacketHead where
  magicNumber : Int32
  seq : Int32
  flags : Int32
  dataLen : Int32
deriving Repr, DecidableEq

def packetHeadLen : ℕ := 16

def packPacketHead (head : PacketHead) : List UInt8 :=
  packWord head.magicNumber ++ (packWord head.seq ++ (packWord head.flags ++ packWord head.dataLen))

def unPackPacketHead (data : List UInt8) : PacketHead :=
  ⟨wordAt data 0, wordAt data 4, wordAt data 8, wordAt data 12⟩

/-! ## Sending -/

/-- The number of a packet; an acknowledgement has that of the packet it is for. -/
def transProxyGetPktSeqId (newChanSeq : Int32) (inData : List UInt8) (flag : ProxyPacketType) : Int32 :=
  if flag = .ack ∧ inData.length ≤ 4 then
    (UInt32.ofNat (Bytes.ofLE inData)).toInt32
  else
    newChanSeq

/-- `encrypt` is `SoftBusEncryptDataWithSeq` with the key of the channel. -/
def transProxyPackBytes (encrypt : Int32 → List UInt8 → Option (List UInt8)) (newChanSeq : Int32)
    (inData : List UInt8) (flag : ProxyPacketType) : Except TransErr (List UInt8) :=
  let seq := transProxyGetPktSeqId newChanSeq inData flag
  match encrypt seq inData with
  | none => .error .proxySessEncryptErr
  | some outData =>
    if outData.length ≠ inData.length + overheadLen then
      .error .proxySessEncryptErr
    else
      .ok (packPacketHead ⟨magicNumber.toInt32, seq, flag.code, .ofNat outData.length⟩ ++ outData)

/-- The message behind the room for the head of the connection. -/
def transProxyPackAppNormalMsg (msg : ProxyMessageHead) (sliceHead : SliceHead)
    (payLoad : List UInt8) : List UInt8 :=
  packProxyMessageHead msg ++ (packSliceHead sliceHead ++ payLoad)

/-- The part of the packet that slice `i` has. -/
def sliceData (payLoad : List UInt8) (sliceNum i : ℕ) : List UInt8 :=
  if sliceNum > 1 then
    (payLoad.drop (i * maxSendLength)).take
      (if i = sliceNum - 1 then payLoad.length - i * maxSendLength else maxSendLength)
  else
    payLoad

/-- The loop of `TransProxyTransAppNormalMsg` over the slices from `i` on; `sendMsg i` is what
    the connection answers for slice `i`. -/
def transAppNormalLoop (msgHead : ProxyMessageHead) (payLoad : List UInt8) (flag : ProxyPacketType)
    (sendMsg : ℕ → TransErr) (sliceNum : ℕ) : ℕ → ℕ → TransErr × List (List UInt8)
  | 0, _ => (.ok, [])
  | left + 1, i =>
    let slicehead : SliceHead := {
      priority := .ofNat (proxyTypeToProxyIndex flag)
      sliceNum := .ofNat sliceNum
      sliceSeq := .ofNat i
      reserved := 0 }
    let buf := transProxyPackAppNormalMsg msgHead slicehead (sliceData payLoad sliceNum i)
    match sendMsg i with
    | .ok =>
      let (ret, sent) := transAppNormalLoop msgHead payLoad flag sendMsg sliceNum left (i + 1)
      (ret, buf :: sent)
    | .sendQueueFull => (.sendQueueFull, [])
    | _ => (.proxySendMsgErr, [])

/-- The messages that are sent for a packet, by a channel with these ids. -/
def transProxyTransAppNormalMsg (myId peerId : Int16) (payLoad : List UInt8) (flag : ProxyPacketType)
    (sendMsg : ℕ → TransErr) : TransErr × List (List UInt8) :=
  let sliceNum := (payLoad.length + maxSendLength - 1) / maxSendLength
  transAppNormalLoop (.mkType .normal 0 myId peerId) payLoad flag sendMsg sliceNum sliceNum 0

/-! ## What a session does with a packet -/

/-- What the receiver does, as far as it can be seen.  `slice` is a slice that comes to a slot,
    for a first slice after the slot is cleared; `noSubPacket` is a packet handed to
    `TransProxyNoSubPacketProc`, `assembled` from slices or not. -/
inductive SliceEvent where
  | cleared (channelId : Int32) (index : ProxyChannelPriority)
  | slice (channelId : Int32) (index : ProxyChannelPriority) (sliceNum sliceSeq : Int32)
      (data : List UInt8)
  | noSubPacket (channelId : Int32) (index : ProxyChannelPriority) (assembled : Bool)
      (data : List UInt8)
  | msgReceived (channelId : Int32) (type : ProxyPacketType) (data : List UInt8)
  | sendSessionAck (channelId seq : Int32)
  | setPendingPacket (channelId seq : Int32)
deriving Repr, DecidableEq

/-- What the receiver's surroundings answer for one message: `decrypt` is
    `SoftBusDecryptDataWithSeq` with the key of the channel, `beyond` are the bytes behind a
    buffer. -/
structure SliceEnv where
  decrypt : Int32 → Int32 → List UInt8 → Option (List UInt8)
  beyond : ℕ → UInt8
  onMsgReceived : TransErr
  setPendingPacket : TransErr

def proxyAckSize : ℕ := 4

def transProxyProcSendMsgAck (env : SliceEnv) (channelId : Int32) (data : List UInt8) :
    TransErr × List SliceEvent :=
  if data.length ≠ proxyAckSize then
    (.invalidDataLength, [])
  else
    (env.setPendingPacket, [.setPendingPacket channelId (wordAt data 0)])

def transProxyNotifySession (env : SliceEnv) (channelId : Int32) (flags : ProxyPacketType)
    (seq : Int32) (data : List UInt8) : TransErr × List SliceEvent :=
  match flags with
  | .message =>
    (env.onMsgReceived, [.sendSessionAck channelId seq, .msgReceived channelId flags data])
  | .ack => transProxyProcSendMsgAck env channelId data
  | .other _ => (.invalidParam, [])
  | _ => (env.onMsgReceived, [.msgReceived channelId flags data])

def proxyMaxBytesLen : ℕ := 4 * 1024

def proxyMaxMessageLen : ℕ := 1 * 1024

def transProxySessionDataLenCheck (dataLen : ℕ) (type : ProxyPacketType) : TransErr :=
  match type with
  | .message | .asyncMessage => if dataLen > proxyMaxMessageLen then .err else .ok
  | .bytes => if dataLen > proxyMaxBytesLen then .err else .ok
  | _ => .ok

/-- The length in the head decides how much is decrypted. -/
def transProxyProcessSessionData (env : SliceEnv) (channelId : Int32) (dataHead : PacketHead)
    (data : List UInt8) : TransErr × List SliceEvent :=
  if dataHead.dataLen ≤ .ofNat overheadLen then
    (.invalidDataLength, [])
  else
    let inData := Bytes.load data env.beyond 0 dataHead.dataLen.toNatClampNeg
    match env.decrypt channelId dataHead.seq inData with
    | none => (.decryptErr, [])
    | some outData =>
      let type := ProxyPacketType.ofCode dataHead.flags
      if transProxySessionDataLenCheck outData.length type ≠ .ok then
        (.err, [])
      else
        match transProxyNotifySession env channelId type dataHead.seq outData with
        | (.ok, events) => (.ok, events)
        | (_, events) => (.err, events)

def transProxyNoSubPacketProc (env : SliceEnv) (channelId : Int32) (data : List UInt8) :
    TransErr × List SliceEvent :=
  let head := unPackPacketHead data
  if head.magicNumber ≠ magicNumber.toInt32 then
    (.err, [])
  else if head.dataLen ≤ 0 then
    (.err, [])
  else
    match transProxyProcessSessionData env channelId head (data.drop packetHeadLen) with
    | (.ok, events) => (.ok, events)
    | (_, events) => (.err, events)

/-! ## One slot -/

/-- `SliceProcessor`; `data` are the bytes that the buffer holds, if there is one. -/
structure SliceProcessor where
  active : Bool
  timeout : ℕ
  sliceNumber : Int32
  expectedSeq : Int32
  dataLen : Int32
  bufLen : Int32
  data : Option (List UInt8)
deriving Repr, DecidableEq

/-- What `TransProxyClearProcessor` leaves, and `SoftBusCalloc` makes. -/
def SliceProcessor.clear : SliceProcessor where
  active := false
  timeout := 0
  sliceNumber := 0
  expectedSeq := 0
  dataLen := 0
  bufLen := 0
  data := none

def transProxyCheckSliceHead (head : SliceHead) : TransErr :=
  if head.priority < 0 ∨ head.priority ≥ 3 then
    .err
  else if head.sliceNum ≠ 1 ∧ head.sliceSeq ≥ head.sliceNum then
    .err
  else
    .ok

/-- `memcpy_s` into a buffer of `destMax` bytes succeeds. -/
def memcpyS (destMax : ℕ) (src : List UInt8) : Bool :=
  decide (0 < destMax ∧ destMax ≤ 0x7fffffff ∧ src.length ≤ destMax)

/-- `DATA_HEAD_SIZE` -/
def dataHeadSize : ℕ := 4 * 1024

def proxyBytesLengthMax : ℕ := 4 * 1024

def proxyMessageLengthMax : ℕ := 1024

/-- The size of the buffer for packets of a priority. -/
def sliceMaxLen (priority : Int32) : ℕ :=
  (if priority = .ofNat priorityMessage then proxyMessageLengthMax else proxyBytesLengthMax) +
    dataHeadSize + overheadLen

/-- The length of a slice, as a 32-bit number. -/
def sliceLen (data : List UInt8) : Int32 := (UInt32.ofNat data.length).toInt32

def transProxyFirstSliceProcess (head : SliceHead) (data : List UInt8) : TransErr × SliceProcessor :=
  let maxLen := sliceMaxLen head.priority
  let processor := { SliceProcessor.clear with data := some [], bufLen := .ofNat maxLen }
  if memcpyS maxLen data then
    (.ok, { processor with
      data := some data, sliceNumber := head.sliceNum, expectedSeq := 1, dataLen := sliceLen data
      active := true, timeout := 0 })
  else
    (.sliceError, processor)

section
variable (processor : SliceProcessor)

def transProxySliceProcessChkPkgIsValid (head : SliceHead) (data : List UInt8) : TransErr :=
  if head.sliceNum ≠ processor.sliceNumber ∨ head.sliceSeq ≠ processor.expectedSeq then
    .proxyAssemblePackNoInvalid
  else if sliceLen data + processor.dataLen > processor.bufLen then
    .proxyAssemblePackExceedLength
  else if processor.data = none then
    .proxyAssemblePackDataNull
  else
    .ok

/-- The slice is copied behind what the buffer holds. -/
def SliceProcessor.append (data : List UInt8) : Option SliceProcessor :=
  if memcpyS (processor.bufLen - processor.dataLen).toUInt32.toNat data then
    some { processor with
      data := processor.data.map (· ++ data)
      expectedSeq := processor.expectedSeq + 1, dataLen := processor.dataLen + sliceLen data }
  else
    none

def transProxyNormalSliceProcess (head : SliceHead)
    (data : List UInt8) : TransErr × SliceProcessor :=
  match transProxySliceProcessChkPkgIsValid processor head data with
  | .ok =>
    match processor.append data with
    | none => (.memErr, processor)
    | some processor => (.ok, { processor with timeout := 0 })
  | ret => (ret, processor)

end

/-- `TransProxyLastSliceProcess`, with the events in the order in which they happen. -/
def transProxyLastSliceProcess (env : SliceEnv) (channelId : Int32) (index : ProxyChannelPriority)
    (processor : SliceProcessor) (head : SliceHead) (data : List UInt8) :
    TransErr × SliceProcessor × List SliceEvent :=
  match transProxySliceProcessChkPkgIsValid processor head data with
  | .ok =>
    match processor.append data with
    | none => (.memErr, processor, [])
    | some processor =>
      let packet := processor.data.getD []
      match transProxyNoSubPacketProc env channelId packet with
      | (.ok, events) =>
        (.ok, .clear, .noSubPacket channelId index true packet :: events ++ [.cleared channelId index])
      | (ret, events) => (ret, processor, .noSubPacket channelId index true packet :: events)
  | ret => (ret, processor, [])

/-- The part of `TransProxySubPacketProc` on the slot: what the functions for a first, last or
    other slice do, and that the slot is cleared if they fail. -/
def SliceProcessor.proc (env : SliceEnv) (channelId : Int32) (index : ProxyChannelPriority)
    (head : SliceHead) (data : List UInt8) (processor : SliceProcessor) :
    TransErr × SliceProcessor × List SliceEvent :=
  let slice := SliceEvent.slice channelId index head.sliceNum head.sliceSeq data
  let (ret, processor, events) :=
    if head.sliceSeq = 0 then
      let (ret, processor) := transProxyFirstSliceProcess head data
      (ret, processor, [.cleared channelId index, slice])
    else if head.sliceNum = head.sliceSeq + 1 then
      let (ret, processor, events) := transProxyLastSliceProcess env channelId index processor head data
      (ret, processor, slice :: events)
    else
      let (ret, processor) := transProxyNormalSliceProcess processor head data
      (ret, processor, [slice])
  if ret ≠ .ok then
    (ret, .clear, events ++ [.cleared channelId index])
  else
    (ret, processor, events)

/-! ## The slots of the channels -/

/-- `ChannelSliceProcessor`: the slots of a channel. -/
structure ChannelSliceProcessor where
  channelId : Int32
  processor : ProxyChannelPriority → SliceProcessor

/-- `g_channelSliceProcessorList`, and what has happened. -/
structure SliceWorld where
  processors : KeyedList ChannelSliceProcessor.channelId
  trace : List SliceEvent

/-- A receiver that has received nothing. -/
def SliceWorld.init : SliceWorld := ⟨.empty, []⟩

/-- The slots of a channel, with new ones if it has none. -/
def transProxyGetChannelSliceProcessor (channelId : Int32) (w : SliceWorld) :
    ChannelSliceProcessor × SliceWorld :=
  match w.processors.find channelId with
  | some node => (node, w)
  | none =>
    let node : ChannelSliceProcessor := ⟨channelId, fun _ => .clear⟩
    (node, { w with processors := w.processors.push node })

def transProxySubPacketProc (env : SliceEnv) (channelId : Int32) (index : ProxyChannelPriority)
    (head : SliceHead) (data : List UInt8) (w : SliceWorld) : TransErr × SliceWorld :=
  if data.length = 0 then
    (.invalidParam, w)
  else
    let (node, w) := transProxyGetChannelSliceProcessor channelId w
    let (ret, processor, events) := (node.processor index).proc env channelId index head data
    (ret,
      { processors := w.processors.set
          { node with processor := Function.update node.processor index processor }
        trace := w.trace ++ events })

/-- The slot that a slice head names. -/
def SliceHead.index (head : SliceHead) : ProxyChannelPriority :=
  ⟨head.priority.toNatClampNeg % 3, Nat.mod_lt _ (by decide)⟩

def transOnNormalMsgReceived (env : SliceEnv) (channelId : Int32) (data : List UInt8)
    (w : SliceWorld) : TransErr × SliceWorld :=
  if data.length ≤ packetHeadLen + sliceHeadLen then
    (.err, w)
  else
    let head := unPackSliceHead data
    if transProxyCheckSliceHead head ≠ .ok then
      (.proxyInvalidSliceHead, w)
    else
      let packet := data.drop sliceHeadLen
      if head.sliceNum = 1 then
        let (ret, events) := transProxyNoSubPacketProc env channelId packet
        (ret, { w with trace := w.trace ++ .noSubPacket channelId head.index false packet :: events })
      else
        transProxySubPacketProc env channelId head.index head packet w

/-- `SLICE_PACKET_TIMEOUT` -/
def slicePacketTimeout : ℕ := 10

/-- What a tick of the timer does to a slot, and whether it clears it. -/
def SliceProcessor.tick (processor : SliceProcessor) : SliceProcessor × Bool :=
  if processor.active then
    let processor := { processor with timeout := processor.timeout + 1 }
    if processor.timeout ≥ slicePacketTimeout then (.clear, true) else (processor, false)
  else
    (processor, false)

/-- The slots of a channel after a tick. -/
def ChannelSliceProcessor.tick (node : ChannelSliceProcessor) : ChannelSliceProcessor :=
  { node with processor := fun index => (node.processor index).tick.1 }

/-- The slots of a channel that a tick clears. -/
def ChannelSliceProcessor.tickEvents (node : ChannelSliceProcessor) : List SliceEvent :=
  ((List.finRange 3).filter fun index => (node.processor index).tick.2).map (.cleared node.channelId)

def transProxySliceTimerProc (w : SliceWorld) : SliceWorld where
  processors := w.processors.update (fun node => some node.tick) fun node _ h => by
    rw [← Option.some.inj h, ChannelSliceProcessor.tick]
  trace := w.trace ++ w.processors.toList.flatMap ChannelSliceProcessor.tickEvents

def transProxyDelSliceProcessorByChannelId (channelId : Int32) (w : SliceWorld) : SliceWorld :=
  match w.processors.find channelId with
  | none => w
  | some _ =>
    { processors := w.processors.erase channelId
      trace := w.trace ++ (List.finRange 3).map (.cleared channelId) }

/-! ## Runs -/

/-- What a message behind its head is, its length being a 32-bit number. -/
abbrev Packet := { data : List UInt8 // data.length < 2 ^ 32 }

/-- A message for a channel, a tick of the timer, or the end of a channel. -/
inductive SliceInput where
  | received (env : SliceEnv) (channelId : Int32) (packet : Packet)
  | tick
  | delete (channelId : Int32)

def SliceWorld.step (w : SliceWorld) : SliceInput → SliceWorld
  | .received env channelId packet => (transOnNormalMsgReceived env channelId packet.1 w).2
  | .tick => transProxySliceTimerProc w
  | .delete channelId => transProxyDelSliceProcessorByChannelId channelId w

end SoftBus.Native
