import Mathlib

/-!
# Video frames

`fillp_frame.c`: an application sends a video frame as fragments.  Each fragment is a call of its own, which cuts the
fragment into items.  The first item of a fragment tells the other side the number and the type of the frame, the
size of the fragment, and whether the fragment is the first or the last one of its frame.  The other side counts
what it receives and calls `rxCb` when the frame is complete.  One `curFrame` of a socket is the frame that is sent
and the frame that is received.
-/

namespace SoftBus.Native

/-! ## Items -/

/-- `VIDEO_I` -/
def videoI : Int32 := 1

/-- `VIDEO_P` -/
def videoP : Int32 := 2

/-- `FILLP_FRAME_IS_VIDEO` -/
def fillpFrameIsVideo (type : Int32) : Bool := type = videoI || type = videoP

/-- `FILLP_ITEM_FLAGS_FRAME_FIRST_FRAG_START` -/
def flagsFrameFirstFragStart : UInt32 := 0x1

/-- `FILLP_ITEM_FLAGS_FRAME_LAST_FRAG_START` -/
def flagsFrameLastFragStart : UInt32 := 0x2

/-- `FILLP_ITEM_FLAGS_FRAME_OPT_BITMAP_MASK` -/
def flagsFrameOptBitmapMask : UInt32 := 0xFF

/-- `FILLP_ITEM_FLAGS_FIRST_PKT` -/
def flagsFirstPkt : UInt32 := 0x200

/-- `FRAME_INFO_BITMAP_FRAME_END` -/
def frameInfoBitmapFrameEnd : UInt32 := 0x2

/-- `FILLP_OPT_FLAG_FRAME_INFO` -/
def optFlagFrameInfo : UInt32 := 0x2

/-- `UTILS_FLAGS_CHECK` -/
def flagsCheck (flag f : UInt32) : Bool := flag &&& f = f

/-- What the application says about the frame of a fragment. -/
structure FrameInfo where
  frameType : Int32
  seqNum : Int32
  subSeqNum : Int32
  level : Int32
  timestamp : Int64
  bitMap : UInt32
deriving DecidableEq

structure FillpFrameItem where
  info : FrameInfo
  fragSize : UInt32
deriving DecidableEq

structure FillpPcbItem where
  dataLen : UInt16
  dataOptFlag : UInt32
  flags : UInt32
  rxTimeStamp : ℤ
  frame : Option FillpFrameItem
deriving DecidableEq

/-! ## The frame of a socket -/

structure FillpFrag where
  size : UInt32
  procSize : UInt32
  seqNum : UInt32
deriving DecidableEq

structure FillpFrameInfo where
  seqNum : UInt32
  type : Int32
  size : UInt32
  fragCnt : UInt32
  totalItemCnt : UInt32
  txTimestamp : UInt32
  firstPktRxTime : ℤ
  lastPktRxTime : ℤ
deriving DecidableEq

structure FillpFrame where
  info : FillpFrameInfo
  curFrag : FillpFrag
  rxStarted : Bool
  lastFragRecvd : Bool
deriving DecidableEq

/-- The handle of a socket, and what `rxCb` was called with. -/
structure FillpFrameHandle where
  curFrame : FillpFrame
  notified : List FillpFrameInfo
deriving DecidableEq

def fillpFrameInit : FillpFrameHandle := ⟨⟨⟨0, 0, 0, 0, 0, 0, 0, 0⟩, ⟨0, 0, 0⟩, false, false⟩, []⟩

/-! ## Sending -/

def fillpFrameTxInitItem (h : FillpFrameHandle) (item : FillpPcbItem) (info : Option FrameInfo) (fragSize : UInt32)
    (firstPkt : Bool) : FillpFrameHandle × FillpPcbItem :=
  match item.frame, info with
  | some frame, some info =>
    if fillpFrameIsVideo info.frameType then
      let item := { item with frame := some { frame with fragSize := fragSize } }
      if firstPkt then
        let cur := h.curFrame.info
        let new : Bool := cur.size = 0 ∨ info.seqNum.toUInt32 ≠ cur.seqNum
        let cur :=
          if new then
            { cur with type := info.frameType, seqNum := info.seqNum.toUInt32, size := fragSize, fragCnt := 1 }
          else { cur with size := cur.size + fragSize, fragCnt := cur.fragCnt + 1 }
        let flags := if new then item.flags ||| flagsFrameFirstFragStart else item.flags
        let flags := if flagsCheck info.bitMap frameInfoBitmapFrameEnd then flags ||| flagsFrameLastFragStart else flags
        ({ h with curFrame := { h.curFrame with info := cur } },
          { item with flags := flags, dataOptFlag := item.dataOptFlag ||| optFlagFrameInfo })
      else (h, item)
    else (h, item)
  | _, _ => (h, item)

/-- The items of `SockSendmsgDataToBufCache`, for the lengths into which the data of the call are cut. -/
def sockSendmsgDataToBufCache (frame : FrameInfo) (bufLen : UInt32) :
    Bool → FillpFrameHandle → List UInt16 → FillpFrameHandle × List FillpPcbItem
  | _, h, [] => (h, [])
  | isFirstPkt, h, dataLen :: rest =>
    let item := ⟨dataLen, 0, if isFirstPkt then flagsFirstPkt else 0, 0, some ⟨frame, 0⟩⟩
    let r := fillpFrameTxInitItem h item (some frame) bufLen isFirstPkt
    let s := sockSendmsgDataToBufCache frame bufLen false r.1 rest
    (s.1, r.2 :: s.2)

/-! ## The option of a packet -/

/-- The fields have the byte order of the network on the way only. -/
structure FillpFrameDataOption where
  frameType : UInt8
  level : UInt8
  seqNum : UInt16
  subSeqNum : UInt8
  bitMap : UInt8
  fragSize : UInt32
  txTimestamp : UInt32
deriving DecidableEq

def fillpFrameBuildOption (frame : FillpFrameItem) (flags : UInt32) : FillpFrameDataOption where
  frameType := frame.info.frameType.toUInt32.toUInt8
  level := frame.info.level.toUInt32.toUInt8
  seqNum := frame.info.seqNum.toUInt32.toUInt16
  subSeqNum := frame.info.subSeqNum.toUInt32.toUInt8
  bitMap := (flags &&& flagsFrameOptBitmapMask).toUInt8
  fragSize := frame.fragSize
  txTimestamp := frame.info.timestamp.toUInt64.toUInt32

def fillpFrameParseOption (item : FillpPcbItem) (frameOpt : FillpFrameDataOption) : FillpPcbItem :=
  let info : FrameInfo :=
    { frameType := frameOpt.frameType.toUInt32.toInt32
      level := frameOpt.level.toUInt32.toInt32
      seqNum := frameOpt.seqNum.toUInt32.toInt32
      subSeqNum := frameOpt.subSeqNum.toUInt32.toInt32
      timestamp := frameOpt.txTimestamp.toUInt64.toInt64
      bitMap := 0 }
  { item with
    frame := some ⟨info, frameOpt.fragSize⟩
    flags := frameOpt.bitMap.toUInt32 ||| flagsFirstPkt }

/-- The packet of an item of the sender, as `ProcessPcbItem` takes it in. -/
def processPcbItem (item : FillpPcbItem) (rxTimeStamp : ℤ) : FillpPcbItem :=
  let pcbBuf : FillpPcbItem := ⟨item.dataLen, 0, 0, rxTimeStamp, none⟩
  match item.frame with
  | some frame =>
    if flagsCheck item.dataOptFlag optFlagFrameInfo then
      fillpFrameParseOption pcbBuf (fillpFrameBuildOption frame item.flags)
    else pcbBuf
  | none => pcbBuf

/-! ## Receiving -/

def fillpFrameRxNewFrag (frame : FillpFrame) (item : FillpPcbItem) (frameItem : FillpFrameItem) : FillpFrame :=
  let frame :=
    if flagsCheck item.flags flagsFrameFirstFragStart then
      { frame with
        rxStarted := true
        lastFragRecvd := false
        info :=
          { firstPktRxTime := item.rxTimeStamp
            lastPktRxTime := item.rxTimeStamp
            size := 0
            fragCnt := 0
            totalItemCnt := 0
            seqNum := frameItem.info.seqNum.toUInt32
            type := frameItem.info.frameType
            txTimestamp := frameItem.info.timestamp.toUInt64.toUInt32 } }
    else frame
  if !frame.rxStarted then frame
  else
    { frame with
      info := { frame.info with size := frame.info.size + frameItem.fragSize, fragCnt := frame.info.fragCnt + 1 }
      lastFragRecvd := if flagsCheck item.flags flagsFrameLastFragStart then true else frame.lastFragRecvd
      curFrag := ⟨frameItem.fragSize, 0, frameItem.info.subSeqNum.toUInt32⟩ }

def fillpFrameRxUpdateAndNotify (h : FillpFrameHandle) (item : FillpPcbItem) : FillpFrameHandle :=
  let info :=
    { h.curFrame.info with
      totalItemCnt := h.curFrame.info.totalItemCnt + 1
      firstPktRxTime := min h.curFrame.info.firstPktRxTime item.rxTimeStamp
      lastPktRxTime := max h.curFrame.info.lastPktRxTime item.rxTimeStamp }
  let procSize := h.curFrame.curFrag.procSize + item.dataLen.toUInt32
  let curFrame := { h.curFrame with info := info, curFrag := { h.curFrame.curFrag with procSize := procSize } }
  if curFrame.curFrag.size = procSize then
    if curFrame.lastFragRecvd then ⟨{ curFrame with rxStarted := false }, h.notified ++ [info]⟩
    else { h with curFrame := curFrame }
  else { h with curFrame := curFrame }

def fillpFrameRx (h : FillpFrameHandle) (item : FillpPcbItem) : FillpFrameHandle :=
  let curFrame :=
    match item.frame with
    | some frame => if flagsCheck item.flags flagsFirstPkt then fillpFrameRxNewFrag h.curFrame item frame else h.curFrame
    | none => h.curFrame
  if !curFrame.rxStarted then { h with curFrame := curFrame }
  else fillpFrameRxUpdateAndNotify { h with curFrame := curFrame } item

/-- What a socket does with its handle: an item comes in order, or one of its own is sent. -/
inductive FrameEvent where
  | rx (item : FillpPcbItem)
  | tx (item : FillpPcbItem) (info : Option FrameInfo) (fragSize : UInt32) (firstPkt : Bool)

def FillpFrameHandle.step (h : FillpFrameHandle) : FrameEvent → FillpFrameHandle
  | .rx item => fillpFrameRx h item
  | .tx item info fragSize firstPkt => (fillpFrameTxInitItem h item info fragSize firstPkt).1

end SoftBus.Native
