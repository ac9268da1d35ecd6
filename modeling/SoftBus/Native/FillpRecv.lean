import SoftBus.Native.SkipList

/-!
# Receiving data in FillP

`fillp_common.c`: data items wait in `recvList` until all data before them has been received; then they are given to `recvFunc` in
batches.  What is given to it is kept in a journal.  Two items with the same data are different objects, which `num`
tells apart.
-/

namespace SoftBus.Native

/-- `FILLP_DEFAULT_RECVBOX_BRUST` -/
def fillpDefaultRecvboxBrust : ℕ := 100

/-- `value1` is after `value2` on the circle of sequence numbers. -/
def fillpNumIsbigger (value1 value2 : UInt32) : Bool := (value1 - value2).toInt32.toInt > 0

/-- `FillpSkiplistCmp`, for two sequence numbers -/
def fillpSkiplistCmp (value1 value2 : UInt32) : Int :=
  if value1 = value2 then 0 else if (value1 - value2).toInt32.toInt > 0 then 1 else 0

/-- A `FillpPcbItem` of the receiver. -/
structure RecvItem where
  num : ℕ
  /-- the end of the data -/
  seqNum : UInt32
  pktNum : UInt32
  dataLen : UInt16
  data : List UInt8
deriving Repr, DecidableEq

structure FillpRecvPcb where
  recvList : SkipList RecvItem
  seqNum : UInt32
  pktNum : UInt32
  recvBytes : UInt64
  /-- what `recvFunc` was given, call by call -/
  uploaded : List (List RecvItem)

namespace FillpRecvPcb

/-- `FillpInitRecvpcb`, and the numbers that the connection begins with -/
def init (randomLev : ℕ → Bool) (seqNum pktNum : UInt32) : FillpRecvPcb :=
  ⟨SkipList.skiplistInit randomLev, seqNum, pktNum, 0, []⟩

/-- The inner loop of `FillpUploadRecvBox`, with room for some items: what it puts into `itemPool`. -/
def uploadBatch : ℕ → FillpRecvPcb → List RecvItem × FillpRecvPcb
  | 0, pcb => ([], pcb)
  | room + 1, pcb =>
    match pcb.recvList.skipListGetPop with
    | none => ([], pcb)
    | some item =>
      if item.seqNum - item.dataLen.toUInt32 ≠ pcb.seqNum then ([], pcb)
      else
        let r := uploadBatch room
          { pcb with
            seqNum := item.seqNum
            recvBytes := pcb.recvBytes - item.dataLen.toUInt64
            recvList := pcb.recvList.skipListPopValue.2 }
        (item :: r.1, r.2)

/-- The outer loop: at most `rounds` calls of `recvFunc`. -/
def uploadLoop : ℕ → FillpRecvPcb → FillpRecvPcb
  | 0, pcb => pcb
  | rounds + 1, pcb =>
    let r := pcb.uploadBatch fillpDefaultRecvboxBrust
    if r.1.length = 0 then r.2 else uploadLoop rounds { r.2 with uploaded := r.2.uploaded ++ [r.1] }

/-- A call of `recvFunc` gets at least one of the items. -/
def fillpUploadRecvBox (pcb : FillpRecvPcb) : FillpRecvPcb := uploadLoop (pcb.recvList.nodeNum.toNat + 1) pcb

/-- The end of `FillpDataToStack`, for an item after the receiver's number -/
def storeItem (pcb : FillpRecvPcb) (item : RecvItem) : FillpRecvPcb :=
  match pcb.recvList.skipListInsert (fun a b => fillpSkiplistCmp a.seqNum b.seqNum) item true with
  | (.comm, recvList) => { pcb with recvList := recvList }
  | (.ok, recvList) =>
    fillpUploadRecvBox { pcb with recvList := recvList, recvBytes := pcb.recvBytes + item.dataLen.toUInt64 }

/-- Which packets have been lost, and that the sender is told so, has no influence on the data. -/
def fillpDataToStack (enableNackDelay : Bool) (pcb : FillpRecvPcb) (item : RecvItem) : FillpRecvPcb :=
  let bigger := fillpNumIsbigger item.pktNum pcb.pktNum
  let pcb := if bigger then { pcb with pktNum := item.pktNum } else pcb
  if !bigger && enableNackDelay && !fillpNumIsbigger item.seqNum pcb.seqNum then pcb
  else if !fillpNumIsbigger item.seqNum pcb.seqNum then pcb
  else pcb.storeItem item

end FillpRecvPcb
end SoftBus.Native
