import SoftBus.Native.FillpRecv

/-!
# The sender of FillP

`fillp_common.c`, `fillp_output.c` and `spunge_core.c`.  Data items go from `unSendList` through the sending functions
into the table of items that are not acknowledged, and from there, when they are reported as lost, to
`unrecvList`, from where they are sent again.  An item is named by its number in the order of writing, so that the lists
hold such numbers, and `item` holds the fields.  A released item is in none of the lists.

The `Hlist`s, of which a node knows the one it is in, are lists; the hash tables `unackList` and
`pktSeqMap` are functions of the index.
-/

namespace SoftBus.Native
open Function

/-- `FILLP_UNACK_HASH_SIZE`, the size of the table of the items that are not acknowledged -/
def fillpUnackHashSize : UInt32 := 512

/-- `FILLP_UNACK_HASH_MOD`, how many sequence numbers in a row have the same index -/
def fillpUnackHashMod : UInt32 := 1024

/-- `FILLP_MAX_PKTSEQ_HASH_SIZE` -/
def fillpMaxPktseqHashSize : UInt32 := 512

/-- `FILLP_UNACKLIST_HASHINDEX` -/
def fillpUnacklistHashindex (seqNum : UInt32) : UInt32 := (seqNum / fillpUnackHashMod) &&& (fillpUnackHashSize - 1)

/-- A `FillpPcbItem` of the sender. -/
structure SendItem where
  seqNum : UInt32
  pktNum : UInt32
  dataLen : UInt16
  sendCount : UInt8
  infCount : UInt32
  lastSendTimestamp : Int
deriving Repr, DecidableEq

/-- The skip lists of the sender. -/
inductive SendList where
  | unrecvList
  | redunList
  | itemWaitTokenLists
deriving Repr, DecidableEq

/-- What does not change while a connection exists. -/
structure SendConfig where
  pktSendCache : UInt32
  mpSendSize : UInt32
  retransmitCmpTime : Bool
  packMoveToUnrecvThreshold : UInt8

structure FillpSendPcb where
  item : ℕ → SendItem
  /-- how many items have been written -/
  itemNum : ℕ
  unSendList : List ℕ
  list : SendList → SkipList ℕ
  unackList : UInt32 → List ℕ
  /-- `unackList.count` -/
  unackCount : UInt32
  pktSeqMap : UInt32 → List ℕ
  seqNum : UInt32
  pktNum : UInt32
  ackSeqNum : UInt32
  maxAckNumFromReceiver : UInt32
  nackPktStartNum : UInt32
  nackPktEndNum : UInt32
  lastPackAckSeq : UInt32
  packSameAckNum : UInt8
  inSendBytes : UInt64
  unrecvRedunListBytes : UInt64

namespace SendConfig

/-- The loop of `FillpInitSendpcbPktSeqMap`: the first power of two above `mpSendSize`. -/
def pktSeqMapSizeLoop (mpSendSize : UInt32) : ℕ → UInt32 → UInt32
  | 0, size => size
  | more + 1, size => if size ≤ mpSendSize then pktSeqMapSizeLoop mpSendSize more (size <<< 1) else size

/-- `pktSeqMap.size` -/
def pktSeqMapSize (cfg : SendConfig) : UInt32 :=
  if cfg.mpSendSize > fillpMaxPktseqHashSize then fillpMaxPktseqHashSize
  else if cfg.mpSendSize &&& (cfg.mpSendSize - 1) = 0 then cfg.mpSendSize
  else pktSeqMapSizeLoop cfg.mpSendSize 32 1

/-- The index of a packet number in `pktSeqMap`. -/
def pktIndex (cfg : SendConfig) (pktNum : UInt32) : UInt32 := pktNum &&& (cfg.pktSeqMapSize - 1)

end SendConfig

namespace FillpSendPcb

/-- A connection whose numbers begin at `seqNum` and `pktNum`. -/
def init (randomLev : SendList → ℕ → Bool) (seqNum pktNum : UInt32) : FillpSendPcb where
  item _ := ⟨0, 0, 0, 0, 0, 0⟩
  itemNum := 0
  unSendList := []
  list L := SkipList.skiplistInit (randomLev L)
  unackList _ := []
  unackCount := 0
  pktSeqMap _ := []
  seqNum := seqNum
  pktNum := pktNum
  ackSeqNum := seqNum
  maxAckNumFromReceiver := seqNum
  nackPktStartNum := pktNum
  nackPktEndNum := pktNum
  lastPackAckSeq := 0
  packSameAckNum := 0
  inSendBytes := 0
  unrecvRedunListBytes := 0

section
variable (s : FillpSendPcb)

/-- The items in the table of items that are not acknowledged. -/
def unackItems : List ℕ :=
  (List.range fillpUnackHashSize.toNat).flatMap fun j => s.unackList (UInt32.ofNat j)

def setItem (i : ℕ) (f : SendItem → SendItem) : FillpSendPcb :=
  { s with item := update s.item i (f (s.item i)) }

def setList (L : SendList) (list : SkipList ℕ) : FillpSendPcb :=
  { s with list := update s.list L list }

/-- `SkipListInsert` of an item, without a second one of the same number -/
def insert (L : SendList) (i : ℕ) : SkipRet × FillpSendPcb :=
  let r := (s.list L).skipListInsert (fun a b => fillpSkiplistCmp (s.item a).seqNum (s.item b).seqNum) i true
  (r.1, s.setList L r.2)

/-- `SkipListPopValue` -/
def pop (L : SendList) : Option ℕ × FillpSendPcb :=
  let r := (s.list L).skipListPopValue
  (r.1, s.setList L r.2)

end

/-- `HlistDelNode`: the node leaves the list it is in. -/
def hlistDelNode (table : UInt32 → List ℕ) (i : ℕ) : UInt32 → List ℕ := fun j => (table j).erase i

/-- `if (unackList->count > 0) unackList->count--` -/
def decUnackCount (s : FillpSendPcb) : FillpSendPcb :=
  { s with unackCount := if s.unackCount > 0 then s.unackCount - 1 else s.unackCount }

/-- What an item contributes to `inSendBytes` is taken away. -/
def landItem (s : FillpSendPcb) (i : ℕ) : FillpSendPcb :=
  { s with inSendBytes := s.inSendBytes - (s.item i).dataLen.toUInt64 * (s.item i).infCount.toUInt64 }.setItem i
    fun item => { item with infCount := 0 }

/-! ## Packet numbers -/

/-- The search of `FillpGetSeqFromPktSeqHash` and `FillpDelPktSeqHashItem` -/
def findPkt (s : FillpSendPcb) (pktNum : UInt32) : List ℕ → Option ℕ
  | [] => none
  | i :: rest =>
    if (s.item i).pktNum = pktNum then some i
    else if fillpNumIsbigger (s.item i).pktNum pktNum then none
    else findPkt s pktNum rest

section
variable (cfg : SendConfig) (s : FillpSendPcb)

def fillpGetSeqFromPktSeqHash (pktNum : UInt32) : Option ℕ :=
  s.findPkt pktNum (s.pktSeqMap (cfg.pktIndex pktNum))

def fillpDelPktSeqHashItem (pktNum : UInt32) : FillpSendPcb :=
  match s.findPkt pktNum (s.pktSeqMap (cfg.pktIndex pktNum)) with
  | none => s
  | some i =>
    { s with
      pktSeqMap := update s.pktSeqMap (cfg.pktIndex pktNum) ((s.pktSeqMap (cfg.pktIndex pktNum)).erase i) }

def fillpAddToPktSeqHash (i : ℕ) : FillpSendPcb :=
  let index := cfg.pktIndex (s.item i).pktNum
  { s with pktSeqMap := update s.pktSeqMap index (s.pktSeqMap index ++ [i]) }

end

/-! ## Items reported as lost -/

/-- What an event says about the time, and about the time after which an item may be sent again. -/
structure Clock where
  curTime : Int
  retramistRto : Int

/-- `FillpMoveOneNode`, for the list with the index `j` -/
def fillpMoveOneNode (cfg : SendConfig) (clock : Clock) (lostSeq : UInt32) (isFromPack onePktOnly : Bool) (j : UInt32) :
    List ℕ → FillpSendPcb → Bool × FillpSendPcb
  | [], s => (false, s)
  | i :: rest, s =>
    if fillpNumIsbigger (s.item i).seqNum lostSeq then (false, s)
    else if clock.curTime - (s.item i).lastSendTimestamp < if cfg.retransmitCmpTime then clock.retramistRto else 0 then
      (false, s)
    else
      let s := { s with unackList := update s.unackList j rest }.decUnackCount
      let s :=
        if isFromPack then
          { s with inSendBytes := s.inSendBytes - (s.item i).dataLen.toUInt64 }.setItem i
            fun item => { item with infCount := item.infCount - 1 }
        else s
      let s := s.fillpDelPktSeqHashItem cfg (s.item i).pktNum
      match s.insert .unrecvList i with
      | (.comm, s) => (false, s)
      | (.ok, s) =>
        let s := { s with unrecvRedunListBytes := s.unrecvRedunListBytes + (s.item i).dataLen.toUInt64 }.setItem i
          fun item => { item with sendCount := item.sendCount + 1 }
        if onePktOnly then (true, s)
        else fillpMoveOneNode cfg clock lostSeq isFromPack onePktOnly j rest s

/-- The loop of `FillpMoveUnackToUnrecvAll` over the lists with the given indices. -/
def moveLoop (cfg : SendConfig) (clock : Clock) (lostSeq : UInt32) (isFromPack onePktOnly : Bool) :
    List UInt32 → FillpSendPcb → FillpSendPcb
  | [], s => s
  | j :: js, s =>
    match s.fillpMoveOneNode cfg clock lostSeq isFromPack onePktOnly j (s.unackList j) with
    | (true, s) => s
    | (false, s) => moveLoop cfg clock lostSeq isFromPack onePktOnly js s

/-- `loopCount + 1` indices from `first` on, around the table. -/
def indicesFrom (first loopCount : UInt32) : List UInt32 :=
  (List.range (loopCount.toNat + 1)).map fun i => (UInt32.ofNat i + first) &&& (fillpUnackHashSize - 1)

def fillpMoveUnackToUnrecvAll (cfg : SendConfig) (clock : Clock) (s : FillpSendPcb) (ackSeq lostSeq : UInt32)
    (isFromPack onePktOnly : Bool) : FillpSendPcb :=
  if lostSeq = ackSeq then s
  else
    let ackSeqIndex := fillpUnacklistHashindex ackSeq
    let lostSeqIndex := fillpUnacklistHashindex lostSeq
    let loopCount :=
      if (lostSeq - ackSeq) / fillpUnackHashMod ≥ fillpUnackHashSize then fillpUnackHashSize
      else (lostSeqIndex + fillpUnackHashSize - ackSeqIndex) &&& (fillpUnackHashSize - 1)
    moveLoop cfg clock lostSeq isFromPack onePktOnly (indicesFrom ackSeqIndex loopCount) s

def fillpMoveUnackToUnrecv (cfg : SendConfig) (clock : Clock) (s : FillpSendPcb) (ackSeq lostSeq : UInt32)
    (isFromPack : Bool) : FillpSendPcb :=
  s.fillpMoveUnackToUnrecvAll cfg clock ackSeq lostSeq isFromPack false

/-! ## Acknowledged items -/

/-- The loop of `FillpAckUnrecvList` and the two functions like it: the number of items that are released.  The bytes in
    `itemWaitTokenLists` are not counted in `unrecvRedunListBytes`. -/
def ackListLoop (L : SendList) (seqNum : UInt32) : ℕ → FillpSendPcb → ℕ × FillpSendPcb
  | 0, s => (0, s)
  | n + 1, s =>
    match (s.list L).skipListGetPop with
    | none => (0, s)
    | some i =>
      if fillpNumIsbigger (s.item i).seqNum seqNum then (0, s)
      else
        let s := (s.pop L).2
        let s :=
          if L = .itemWaitTokenLists then s
          else { s with unrecvRedunListBytes := s.unrecvRedunListBytes - (s.item i).dataLen.toUInt64 }
        let r := ackListLoop L seqNum n (s.landItem i)
        (r.1 + 1, r.2)

section
variable (s : FillpSendPcb)

def ackList (L : SendList) (seqNum : UInt32) : ℕ × FillpSendPcb :=
  if !fillpNumIsbigger seqNum s.ackSeqNum then (0, s)
  else ackListLoop L seqNum (s.list L).nodeNum.toNat s

def fillpAckItemWaitTklist (seqNum : UInt32) : FillpSendPcb :=
  (s.ackList .itemWaitTokenLists seqNum).2

def fillpAckUnrecvList (seqNum : UInt32) : ℕ × FillpSendPcb := s.ackList .unrecvList seqNum

def fillpAckRedunlist (seqNum : UInt32) : FillpSendPcb := (s.ackList .redunList seqNum).2

/-- `FreeUnackList`, for the first item of the list with the index `j` -/
def freeUnackList (j : UInt32) (i : ℕ) (rest : List ℕ) : FillpSendPcb :=
  ({ s with
      pktSeqMap := hlistDelNode s.pktSeqMap i
      unackList := update s.unackList j rest }.decUnackCount).landItem i

end

/-- `cntLimit` items have been released. -/
def limitReached (cntLimit : Int) (count : ℕ) : Bool := cntLimit > 0 && (count : Int) ≥ cntLimit

/-- The inner loop of `FillpAckUnackList`, over the list with the index `j`: whether `cntLimit` stops it, and the
    number of items released so far -/
def ackBucket (curSeq : UInt32) (cntLimit : Int) (j : UInt32) : List ℕ → ℕ → FillpSendPcb → Bool × ℕ × FillpSendPcb
  | [], count, s => (false, count, s)
  | i :: rest, count, s =>
    if fillpNumIsbigger (s.item i).seqNum curSeq then (false, count, s)
    else if limitReached cntLimit (count + 1) then (true, count + 1, s.freeUnackList j i rest)
    else ackBucket curSeq cntLimit j rest (count + 1) (s.freeUnackList j i rest)

/-- The loop of `FillpAckUnackList` over the lists with the given indices. -/
def ackBuckets (curSeq : UInt32) (cntLimit : Int) : List UInt32 → ℕ → FillpSendPcb → ℕ × FillpSendPcb
  | [], count, s => (count, s)
  | j :: js, count, s =>
    match ackBucket curSeq cntLimit j (s.unackList j) count s with
    | (true, r) => r
    | (false, count, s) => ackBuckets curSeq cntLimit js count s

/-- The indices that `FillpAckUnackList` goes through. -/
def ackIndices (ackSeqNum curSeq : UInt32) : List UInt32 :=
  let lastSeqIndex := fillpUnacklistHashindex ackSeqNum
  let curSeqIndex := fillpUnacklistHashindex curSeq
  let loopCount :=
    if curSeq / fillpUnackHashMod - ackSeqNum / fillpUnackHashMod ≥ fillpUnackHashSize then fillpUnackHashSize
    else min ((curSeqIndex + fillpUnackHashSize - lastSeqIndex) &&& (fillpUnackHashSize - 1)) fillpUnackHashSize
  indicesFrom lastSeqIndex loopCount

def fillpAckUnackList (cfg : SendConfig) (s : FillpSendPcb) (curSeq : UInt32) (cntLimit : Int) : FillpSendPcb :=
  if !fillpNumIsbigger curSeq s.ackSeqNum then s
  else
    let s := s.fillpAckRedunlist curSeq
    let s := s.fillpAckItemWaitTklist curSeq
    let r := s.fillpAckUnrecvList curSeq
    let r :=
      if limitReached cntLimit r.1 then r
      else ackBuckets curSeq cntLimit (ackIndices r.2.ackSeqNum curSeq) r.1 r.2
    if r.1 = 0 || !fillpNumIsbigger cfg.pktSendCache (curSeq - r.2.ackSeqNum) then { r.2 with ackSeqNum := curSeq }
    else r.2

def fillpAckSendPcb (cfg : SendConfig) (s : FillpSendPcb) (cntLimit : Int) : FillpSendPcb :=
  let s := s.fillpAckUnackList cfg s.maxAckNumFromReceiver cntLimit
  let pktSendCnt := s.unackCount + (s.list .unrecvList).nodeNum + (s.list .itemWaitTokenLists).nodeNum +
    (s.list .redunList).nodeNum
  if pktSendCnt = 0 ∧ s.inSendBytes ≠ 0 then { s with inSendBytes := 0 } else s

/-! ## Sending -/

/-- Data of the application is put at the end of `unSendList`. -/
def write (s : FillpSendPcb) (dataLen : UInt16) : FillpSendPcb :=
  { s with
    item := update s.item s.itemNum ⟨0, 0, dataLen, 0, 0, 0⟩
    itemNum := s.itemNum + 1
    unSendList := s.unSendList ++ [s.itemNum] }

/-- The loop of `FillpMoveRedundantItemToUnrecvList`, with at most `n` items -/
def moveRedundantLoop : ℕ → FillpSendPcb → FillpSendPcb
  | 0, s => s
  | n + 1, s =>
    match s.pop .redunList with
    | (none, s) => s
    | (some i, s) =>
      match s.insert .unrecvList i with
      | (.comm, s) => { s with unrecvRedunListBytes := s.unrecvRedunListBytes - (s.item i).dataLen.toUInt64 }
      | (.ok, s) => moveRedundantLoop n s

section
variable (s : FillpSendPcb)

def fillpMoveRedundantItemToUnrecvList : FillpSendPcb :=
  moveRedundantLoop (s.list .redunList).nodeNum.toNat s

/-- `FillpGetSendItem` -/
def fillpGetSendItem : Option ℕ × FillpSendPcb :=
  match s.pop .unrecvList with
  | (some i, s) => (some i, s)
  | (none, s) =>
    match s.unSendList with
    | [] => (none, s)
    | i :: rest =>
      let seqNum := s.seqNum + (s.item i).dataLen.toUInt32
      (some i, { s with unSendList := rest, seqNum := seqNum }.setItem i
        fun item => { item with seqNum := seqNum, sendCount := 0, infCount := 0 })

/-- `FillpBeforeSendItem` -/
def fillpBeforeSendItem (i : ℕ) : FillpSendPcb :=
  if (s.item i).sendCount > 0 then
    { s with unrecvRedunListBytes := s.unrecvRedunListBytes - (s.item i).dataLen.toUInt64 }
  else s

/-- An item that was sent before is counted in `unrecvRedunListBytes` when it is put in `unrecvList`. -/
def countUnrecv (i : ℕ) : FillpSendPcb :=
  if (s.item i).sendCount > 0 then
    { s with unrecvRedunListBytes := s.unrecvRedunListBytes + (s.item i).dataLen.toUInt64 }
  else s

end

/-- The loop of `FillpAddtoListBySeqNum`, from the end of the list on: the list backwards with the item in its place -/
def addBackwards (s : FillpSendPcb) (i : ℕ) : List ℕ → Option (List ℕ)
  | [] => some [i]
  | pos :: before =>
    if (s.item pos).seqNum = (s.item i).seqNum then none
    else if fillpNumIsbigger (s.item pos).seqNum (s.item i).seqNum then (addBackwards s i before).map (pos :: ·)
    else some (i :: pos :: before)

def fillpAddtoListBySeqNum (s : FillpSendPcb) (list : List ℕ) (i : ℕ) : Option (List ℕ) :=
  (s.addBackwards i list.reverse).map List.reverse

def fillpAddToUnackList (s : FillpSendPcb) (i : ℕ) : SkipRet × FillpSendPcb :=
  let unackIndex := fillpUnacklistHashindex (s.item i).seqNum
  match s.fillpAddtoListBySeqNum (s.unackList unackIndex) i with
  | none =>
    match s.insert .unrecvList i with
    | (.comm, s) => (.comm, s)
    | (.ok, s) => (.ok, s.countUnrecv i)
  | some list =>
    (.ok, { s with unackList := update s.unackList unackIndex list, unackCount := s.unackCount + 1 })

section
variable (cfg : SendConfig)

def fillpItemRetrans (s : FillpSendPcb) (i : ℕ) : FillpSendPcb :=
  let s := { s with inSendBytes := s.inSendBytes + (s.item i).dataLen.toUInt64 }.setItem i
    fun item => { item with infCount := item.infCount + 1 }
  match s.fillpAddToUnackList i with
  | (.comm, s) => s
  | (.ok, s) => s.fillpAddToPktSeqHash cfg i

/-- `FillpSendItem`; `sent` says whether the network takes the packet. -/
def fillpSendItem (clock : Clock) (s : FillpSendPcb) (i : ℕ) (sent : Bool) : FillpSendPcb :=
  let pktNum := s.pktNum + 1
  let s := { s with pktNum := pktNum }.setItem i
    fun item => { item with lastSendTimestamp := clock.curTime, pktNum := pktNum }
  if sent then s.fillpItemRetrans cfg i
  else
    let s :=
      match s.insert .unrecvList i with
      | (.comm, s) => s
      | (.ok, s) => s.countUnrecv i
    { s with pktNum := s.pktNum - 1 }

/-- `SpungeItemRouteByToken`; `token` says that the rate is not limited, or that there are tokens enough. -/
def spungeItemRouteByToken (clock : Clock) (s : FillpSendPcb) (i : ℕ) (token sent : Bool) :
    FillpSendPcb :=
  if token ∧ (s.list .itemWaitTokenLists).nodeNum = 0 then s.fillpSendItem cfg clock i sent
  else (s.insert .itemWaitTokenLists i).2

/-- One round of the loop of `FillpSendOne`. -/
def sendOneRound (clock : Clock) (s : FillpSendPcb) (token sent : Bool) : FillpSendPcb :=
  match s.fillpGetSendItem with
  | (none, s) => s
  | (some i, s) => (s.fillpBeforeSendItem i).spungeItemRouteByToken cfg clock i token sent

/-- `FillpSendOne`, before its loop -/
def sendOneBegin (s : FillpSendPcb) (sendPktNum : UInt32) : FillpSendPcb :=
  let s := s.fillpMoveRedundantItemToUnrecvList
  if cfg.mpSendSize > 0 then s.fillpAckSendPcb cfg (sendPktNum <<< 1).toInt32.toInt else s

/-- One round of the loop of `SpungeCheckItemWaitTokenList` with this connection -/
def checkWaitRound (clock : Clock) (s : FillpSendPcb) (sent : Bool) : FillpSendPcb :=
  match s.pop .itemWaitTokenLists with
  | (none, s) => s
  | (some i, s) => s.fillpSendItem cfg clock i sent

end

/-- The loop of `SpungeClearItemWaitTokenList` for this connection, with at most `n` items -/
def clearWaitLoop : ℕ → FillpSendPcb → FillpSendPcb
  | 0, s => s
  | n + 1, s =>
    match s.pop .itemWaitTokenLists with
    | (none, s) => s
    | (some i, s) =>
      match s.insert .unrecvList i with
      | (.comm, s) => clearWaitLoop n s
      | (.ok, s) => clearWaitLoop n (s.countUnrecv i)

def spungeClearItemWaitTokenList (s : FillpSendPcb) : FillpSendPcb :=
  clearWaitLoop (s.list .itemWaitTokenLists).nodeNum.toNat s

end FillpSendPcb
end SoftBus.Native
