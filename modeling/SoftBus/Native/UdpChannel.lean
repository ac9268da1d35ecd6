import SoftBus.ForStd.FirstMatch

/-!
# Negotiation of UDP channels

`TransOnExchangeUdpInfo` of `trans_udp_negotiation.c` with the list of channels of
`trans_udp_channel_manager.c`.  A message carries the JSON fields that are read here and what other
modules answer while it is handled.
-/

namespace SoftBus.Native

/-- The fields of `AppInfo` that negotiation reads or writes; `channelId` is that of `myData`,
    the others are those of `peerData`. -/
structure UdpAppInfo where
  channelId : Int64
  udpChannelOptType : Int32
  deviceId : String
  peerChannelId : Int64
  peerPort : Int32
  peerAddr : String
deriving DecidableEq, Repr

inductive UdpChannelStatus where
  | init | openAuth | neging | done
deriving DecidableEq, Repr

structure UdpChannelInfo where
  info : UdpAppInfo
  seq : Int64
  status : UdpChannelStatus
deriving DecidableEq, Repr

/-- A negotiation message over the connection to `device`.  `parsed`: the session key, the package
    name and, to open, the addresses and the peer's device id are there; `port` is the port the
    application opens as server, `opened` whether it takes the channel as client, `replied` whether
    the reply is sent. -/
structure UdpMsg where
  device : String
  isReply : Bool
  seq : Int64
  channelType : Int32
  myChannelId : Option Int64
  peerChannelId : Option Int64
  myPort : Option Int32
  myIp : Option String
  parsed : Bool
  port : Int32
  opened : Bool
  replied : Bool

/-- The channels, the ids in use (`g_channelIdFlagBitsMap`) and `g_seq`. -/
structure UdpWorld where
  channels : List UdpChannelInfo
  idUsed : ℕ → Bool
  seq : Int64

namespace UdpWorld

/-- `TYPE_UDP_CHANNEL_OPEN` and `TYPE_UDP_CHANNEL_CLOSE` -/
def typeOpen : Int32 := 1
def typeClose : Int32 := 2

/-- `GenerateUdpChannelId`: the first of the 20 ids that is free, or `INVALID_ID`. -/
def generateUdpChannelId (s : UdpWorld) : Int32 × UdpWorld :=
  match (List.range 20).find? (!s.idUsed ·) with
  | some id => (.ofNat id, { s with idUsed := fun i => s.idUsed i || i = id })
  | none => (-1, s)

def releaseUdpChannelId (id : Int32) (s : UdpWorld) : UdpWorld :=
  { s with idUsed := fun i => s.idUsed i && Int32.ofNat i ≠ id }

/-- `GenerateSeq(true)` -/
def generateSeq (s : UdpWorld) : Int64 × UdpWorld :=
  let base := if Int64.maxValue - 2 < s.seq then 0 else s.seq
  (base + 3, { s with seq := base + 2 })

def hasId (id : Int64) (c : UdpChannelInfo) : Bool := c.info.channelId = id

def hasSeq (seq : Int64) (c : UdpChannelInfo) : Bool := c.seq = seq

def transAddUdpChannel (c : UdpChannelInfo) (s : UdpWorld) : Option UdpWorld :=
  if s.channels.any (hasId c.info.channelId) then none else some { s with channels := c :: s.channels }

/-- `TransDelUdpChannel`, whose parameter is an `int32_t`. -/
def transDelUdpChannel (id : Int32) (s : UdpWorld) : Bool × UdpWorld :=
  if s.channels.any (hasId id.toInt64) then
    (true, { s.releaseUdpChannelId id with channels := s.channels.eraseP (hasId id.toInt64) })
  else (false, s)

def transSetUdpChannelStatus (seq : Int64) (status : UdpChannelStatus) (s : UdpWorld) : UdpWorld :=
  { s with channels := s.channels.modifyFirst (hasSeq seq) fun c => { c with status := status } }

def transUpdateUdpChannelInfo (seq : Int64) (info : UdpAppInfo) (s : UdpWorld) : UdpWorld :=
  { s with channels := s.channels.modifyFirst (hasSeq seq) fun c => { c with info := info } }

section
variable (msg : UdpMsg)

def acceptUdpChannelAsServer (info : UdpAppInfo) (s : UdpWorld) : UdpWorld :=
  let (id, s) := s.generateUdpChannelId
  let info := { info with channelId := id.toInt64 }
  if msg.port ≤ 0 then s.releaseUdpChannelId id
  else
    let (seq, s) := s.generateSeq
    match s.transAddUdpChannel ⟨info, seq, .init⟩ with
    -- `ProcessAbnormalUdpChannelState` deletes the channel that has the id
    | none => ((s.releaseUdpChannelId id).transDelUdpChannel info.channelId.toInt32).2
    | some s => if msg.replied then s else (s.transDelUdpChannel info.channelId.toInt32).2

/-- A request: `ParseRequestAppInfo` and `ProcessUdpChannelState` as server. -/
def onRequest (s : UdpWorld) : UdpWorld :=
  if !msg.parsed then s
  else if msg.channelType = typeOpen then
    s.acceptUdpChannelAsServer msg
      ⟨0, typeOpen, msg.device, msg.myChannelId.getD 0, 0, msg.myIp.getD ""⟩
  else if msg.channelType = typeClose then
    (s.transDelUdpChannel (msg.peerChannelId.getD 0).toInt32).2
  else s

/-- `TransUnpackReplyUdpInfo` -/
def transUnpackReplyUdpInfo (info : UdpAppInfo) : UdpAppInfo :=
  if info.udpChannelOptType = typeOpen then
    { info with
      peerChannelId := msg.myChannelId.getD info.peerChannelId
      peerPort := msg.myPort.getD info.peerPort
      peerAddr := msg.myIp.getD info.peerAddr }
  else info

/-- A reply: the channel is looked up by the sequence number of the message. -/
def onReply (s : UdpWorld) : UdpWorld :=
  match s.channels.find? (hasSeq msg.seq) with
  | none => s
  | some c =>
    let s := s.transSetUdpChannelStatus msg.seq .done
    let info := transUnpackReplyUdpInfo msg c.info
    let del := (s.transDelUdpChannel info.channelId.toInt32).2
    if info.udpChannelOptType ≠ typeOpen ∧ info.udpChannelOptType ≠ typeClose then del
    else if info.udpChannelOptType = typeClose ∨ ¬ msg.opened then
      del.transUpdateUdpChannelInfo msg.seq info
    else s.transUpdateUdpChannelInfo msg.seq info

end

def transOnExchangeUdpInfo (s : UdpWorld) (msg : UdpMsg) : UdpWorld :=
  if msg.isReply then s.onReply msg else s.onRequest msg

end UdpWorld
end SoftBus.Native
