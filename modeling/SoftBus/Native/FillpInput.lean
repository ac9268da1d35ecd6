import SoftBus.Native.FillpSend

/-!
# What the sender of FillP is told

`fillp_input.c`: the receiver tells the sender with a PACK up to which number it has the data and up to which it
misses some of it, and with a NACK which packets it misses.  `SendEvent` lists what happens to the sender; each round of a loop
that sends items is an event of its own.
-/

namespace SoftBus.Native

/-- A PACK.  `tail` says whether the other conditions for sending the last items again are met: the time since the last
    item was sent, the number of such PACKs, the peer's receiving rate. -/
structure PackInput where
  ackSeqNum : UInt32
  lostSeq : UInt32
  pktNum : UInt32
  adhoc : Bool
  tail : Bool
deriving Repr, DecidableEq

structure NackInput where
  beginSeqNum : UInt32
  beginPktNum : UInt32
  endPktNum : UInt32
deriving Repr, DecidableEq

namespace FillpSendPcb

/-! ## PACK -/

def fillpCheckPackNumber (cfg : SendConfig) (s : FillpSendPcb) (pack : PackInput) : Bool :=
  if fillpNumIsbigger pack.ackSeqNum s.seqNum || fillpNumIsbigger s.seqNum (pack.ackSeqNum + cfg.pktSendCache) then false
  else if fillpNumIsbigger pack.pktNum s.pktNum then false
  else if fillpNumIsbigger pack.ackSeqNum pack.lostSeq then false
  else true

/-- The receiver has the data up to `ackSeqNum`. -/
def raiseMaxAck (s : FillpSendPcb) (ackSeqNum : UInt32) : FillpSendPcb :=
  if fillpNumIsbigger ackSeqNum s.maxAckNumFromReceiver then { s with maxAckNumFromReceiver := ackSeqNum } else s

section
variable (cfg : SendConfig)

def fillpTryAckSendPcbByPackInfo (s : FillpSendPcb) (ackSeqNum : UInt32) : FillpSendPcb :=
  if fillpNumIsbigger ackSeqNum s.ackSeqNum then (s.raiseMaxAck ackSeqNum).fillpAckSendPcb cfg 0 else s

def moveUnackToUnrecvByPackInfo (clock : Clock) (s : FillpSendPcb) (ackSeqNum lostSeqNum : UInt32) :
    FillpSendPcb :=
  if cfg.retransmitCmpTime then s.fillpMoveUnackToUnrecv cfg clock ackSeqNum lostSeqNum true
  else if ackSeqNum = s.lastPackAckSeq then
    let s := { s with packSameAckNum := s.packSameAckNum + 1 }
    if s.packSameAckNum ≥ cfg.packMoveToUnrecvThreshold then
      { s.fillpMoveUnackToUnrecv cfg clock ackSeqNum lostSeqNum true with packSameAckNum := 0 }
    else s
  else { s with lastPackAckSeq := ackSeqNum, packSameAckNum := 0 }

/-- `FillpFcTailProtected` -/
def fillpFcTailProtected (clock : Clock) (s : FillpSendPcb) (pack : PackInput) : FillpSendPcb :=
  let unsendSize := (s.list .unrecvList).nodeNum + (s.list .itemWaitTokenLists).nodeNum + (s.list .redunList).nodeNum
  if pack.ackSeqNum = pack.lostSeq ∧ s.unackCount ≠ 0 ∧ unsendSize = 0 ∧ s.unSendList = [] ∧ pack.tail then
    s.fillpMoveUnackToUnrecv cfg clock pack.ackSeqNum s.seqNum false
  else s

def fillpPackInput (clock : Clock) (s : FillpSendPcb) (pack : PackInput) : FillpSendPcb :=
  if !s.fillpCheckPackNumber cfg pack then s
  else
    let s := s.fillpTryAckSendPcbByPackInfo cfg pack.ackSeqNum
    if pack.adhoc then s
    else
      (s.moveUnackToUnrecvByPackInfo cfg clock pack.ackSeqNum pack.lostSeq).fillpFcTailProtected cfg clock pack

/-! ## NACK -/

def fillpCheckNackSeq (s : FillpSendPcb) (nack : NackInput) : Bool :=
  if fillpNumIsbigger nack.beginSeqNum s.seqNum || fillpNumIsbigger s.seqNum (nack.beginSeqNum + cfg.pktSendCache) then
    false
  else !(s.nackPktStartNum = nack.beginPktNum && s.nackPktEndNum = nack.endPktNum)

end

/-- What `ProtectLongLoopRun` does for an item that it has found. -/
def nackItem (s : FillpSendPcb) (i : ℕ) : FillpSendPcb :=
  let s := { s with
    pktSeqMap := hlistDelNode s.pktSeqMap i
    unackList := hlistDelNode s.unackList i }.decUnackCount
  let s := { s with inSendBytes := s.inSendBytes - (s.item i).dataLen.toUInt64 }.setItem i
    fun item => { item with infCount := item.infCount - 1 }
  match s.insert .unrecvList i with
  | (.comm, s) => s
  | (.ok, s) =>
    { s with unrecvRedunListBytes := s.unrecvRedunListBytes + (s.item i).dataLen.toUInt64 }.setItem i
      fun item => { item with sendCount := item.sendCount + 1 }

/-- The loop of `ProtectLongLoopRun`, with at most `n` packet numbers left.  The sequence numbers are compared as
    plain numbers. -/
def protectLongLoopRun (cfg : SendConfig) (nack : NackInput) : ℕ → UInt32 → FillpSendPcb → FillpSendPcb
  | 0, _, s => s
  | n + 1, pktIndex, s =>
    if !fillpNumIsbigger nack.endPktNum pktIndex then s
    else
      let s :=
        match s.fillpGetSeqFromPktSeqHash cfg pktIndex with
        | none => s
        | some i => if (s.item i).seqNum ≤ nack.beginSeqNum then s else s.nackItem i
      protectLongLoopRun cfg nack n (pktIndex + 1) s

def fillpNackInput (cfg : SendConfig) (s : FillpSendPcb) (nack : NackInput) : FillpSendPcb :=
  if !s.fillpCheckNackSeq cfg nack then s
  else
    let s := { s with nackPktStartNum := nack.beginPktNum, nackPktEndNum := nack.endPktNum }
    let startLoop := nack.beginPktNum + 1
    if !fillpNumIsbigger nack.endPktNum startLoop then s
    else
      let identifyGap := min (nack.endPktNum - startLoop) cfg.mpSendSize
      (s.protectLongLoopRun cfg nack (identifyGap.toNat + 1) startLoop).raiseMaxAck nack.beginSeqNum

end FillpSendPcb

/-! ## Runs -/

/-- What happens to the sender. -/
inductive SendEvent where
  | write (dataLen : UInt16)
  | sendBegin (sendPktNum : UInt32)
  | sendRound (clock : FillpSendPcb.Clock) (token sent : Bool)
  | checkWait (clock : FillpSendPcb.Clock) (sent : Bool)
  | clearWait
  | pack (clock : FillpSendPcb.Clock) (pack : PackInput)
  | nack (nack : NackInput)
  | ack (cntLimit : Int)

namespace FillpSendPcb

/-- An empty write is refused. -/
def step (cfg : SendConfig) (s : FillpSendPcb) : SendEvent → FillpSendPcb
  | .write dataLen => if dataLen = 0 then s else s.write dataLen
  | .sendBegin sendPktNum => s.sendOneBegin cfg sendPktNum
  | .sendRound clock token sent => s.sendOneRound cfg clock token sent
  | .checkWait clock sent => s.checkWaitRound cfg clock sent
  | .clearWait => s.spungeClearItemWaitTokenList
  | .pack clock pack => s.fillpPackInput cfg clock pack
  | .nack nack => s.fillpNackInput cfg nack
  | .ack cntLimit => s.fillpAckSendPcb cfg cntLimit

end FillpSendPcb
end SoftBus.Native
