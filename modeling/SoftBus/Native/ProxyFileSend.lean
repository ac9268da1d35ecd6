import SoftBus.Native.ProxyFileRecv

/-!
# The sender of the proxy file transfer

Model of the sending half of `client_trans_proxy_file_manager.c` and of the pending
packets of `client_trans_pending.c`, together with the receiver that it talks to.

A frame that the sender sends is processed by the receiver at once or lost
(`LinkEnv.lost`), and the frames that the receiver sends in turn are under way to the
sender until it gets them (`LinkEnv.arrives`): the sender looks for them after each
frame, where it may also wait for them.
-/

namespace SoftBus.Native

def maxSendFileNum : ℕ := 10

/-! ## State -/

/-- The sender of a session; `source` are the bytes of its open file. -/
structure SendListenerInfo where
  channelId : Int32
  sessionId : Int32
  source : List UInt8
  fileSize : ℕ
  frameNum : ℕ
  crc : Int32
  seq : UInt32
  waitSeq : UInt32
  waitTimeoutCount : ℕ
  result : UInt32
  checkSumCRC : ℕ
deriving Repr, DecidableEq

/-- A reply that the sender waits for; `data` are the contents of an acknowledgement. -/
structure PendingPacket where
  seq : UInt32
  finded : Bool
  data : Option AckResponseData
deriving Repr, DecidableEq

/-- What the sender sends. -/
inductive Transmission where
  /-- the frame of the file with this index -/
  | frame (index : ℕ)
  | retrans (seq : UInt32)
  | ackRequest (seq : UInt32)
  | checkSum
  | fileList
deriving Repr, DecidableEq

/-- The outside world of a transfer: the receiving device, where the session has the ids
    `peerSession` and `peerChannel`, the channel in both directions, and the files of
    the sender. -/
structure LinkEnv where
  /-- for the frame that reaches the receiver after this many others -/
  recv : ℕ → RecvEnv
  peerSession : Int32
  peerChannel : Int32
  lost : Transmission → Bool
  /-- the replies under way arrive before the sender is done with the frame with this index -/
  arrives : ℕ → Bool
  beyond : ℕ → UInt8
  realPath : Path → Option Path
  contents : Path → Option (List UInt8)
  openFile : Path → Int32
  fcntl : ℕ → Bool

/-- A transfer.  `handled` are the frames that reached the receiver, with what its
    handlers returned. -/
structure Link where
  info : SendListenerInfo
  pending : List PendingPacket
  recv : RecvWorld
  replies : List FileFrame
  handled : List (FileFrame × SoftBusErr)

/-! ## Pending packets -/

section
variable (seq : UInt32)

def createPendingPacket (s : Link) : SoftBusErr × Link :=
  if s.pending.any (·.seq = seq) then
    (.alreadyExisted, s)
  else
    (.ok, { s with pending := s.pending ++ [⟨seq, false, none⟩] })

def deletePendingPacket (s : Link) : Link :=
  { s with pending := s.pending.eraseP (·.seq = seq) }

/-- The wait for a reply, of which all that will come have come; a packet stays pending
    after a timeout unless `isDelete`. -/
def getPendingPacketData (isDelete : Bool) (s : Link) :
    SoftBusErr × Option AckResponseData × Link :=
  match s.pending.find? (·.seq = seq) with
  | none => (.notFind, none, s)
  | some pending =>
    if pending.finded then
      (.ok, pending.data, deletePendingPacket seq s)
    else
      (.timout, none, if isDelete then deletePendingPacket seq s else s)

def setPendingPacketData (data : Option AckResponseData) (s : Link) : Link :=
  { s with pending := s.pending.map fun p =>
      if p.seq = seq then { p with finded := true, data := data.or p.data } else p }

end

/-! ## The channel -/

/-- The frames among the events of the receiver. -/
def sentFrames (events : List RecvEvent) : List FileFrame :=
  events.filterMap fun e => match e with
    | .sent _ frame => some frame
    | _ => none

/-- `ProxyChannelSendFileStream` -/
def Link.send (env : LinkEnv) (t : Transmission) (frame : FileFrame) (s : Link) : Link :=
  if env.lost t then
    s
  else
    let (code, recv) := processRecvFileFrameData (env.recv s.handled.length) env.peerSession
      env.peerChannel frame s.recv
    { s with
      recv := recv
      replies := s.replies ++ sentFrames (recv.trace.drop s.recv.trace.length)
      handled := s.handled ++ [(frame, code)] }

/-- `ProcessFileRecvResult` -/
def processFileRecvResult (seq result : UInt32) (s : Link) : Link :=
  setPendingPacketData seq none { s with info := { s.info with result := result } }

def processFileAckResponse (env : LinkEnv) (frame : FileFrame) (s : Link) : Link :=
  if frame.frameLength = 0 then
    s
  else
    match unpackAckReqAndResData env.beyond frame with
    | .error _ => s
    | .ok data => setPendingPacketData s.info.waitSeq (some data) s

/-- A frame of the receiver reaches the sender. -/
def processReply (env : LinkEnv) (s : Link) (frame : FileFrame) : Link :=
  match frame.frameType with
  | .result =>
    match unpackFileTransResultFrame env.beyond frame with
    | .error _ => s
    | .ok res =>
      if res.side = isRecvResult then processFileRecvResult res.seq res.result s else s
  | .ackResponseSent => processFileAckResponse env frame s
  | _ => s

/-- The replies that arrive until the sender is done with the frame `index`. -/
def Link.poll (env : LinkEnv) (index : ℕ) (s : Link) : Link :=
  if env.arrives index then
    s.replies.foldl (processReply env) { s with replies := [] }
  else s

/-! ## Retransmission -/

/-- The bytes that a read of the open file returns. -/
def SendListenerInfo.pread (info : SendListenerInfo) (readLength fileOffset : ℕ) : List UInt8 :=
  (info.source.drop fileOffset).take readLength

def packReadFileRetransData (env : LinkEnv) (seq : Int32) (readLength fileOffset : ℕ) (s : Link) :
    SoftBusErr × Link :=
  let fileData := s.info.pread readLength fileOffset
  if fileData.length = 0 then
    (.err, s)
  else
    let data := packCrcData seq.toUInt32 fileData
    if data.length > proxyMaxPacketSize then
      (.err, s)
    else
      (.ok, s.send env (.retrans seq.toUInt32)
        ⟨frameIndexToType seq.toInt.toNat s.info.frameNum, data⟩)

def retransFileFrameBySeq (env : LinkEnv) (seq : Int32) (s : Link) : SoftBusErr × Link :=
  if s.info.crc ≠ appInfoFileFeaturesSupport then
    (.ok, s)
  else if seq ≤ 0 then
    (.invalidParam, s)
  else
    let fileOffset := crcFrameDataSize * (seq.toUInt32 - 1).toNat
    if fileOffset ≥ s.info.fileSize then
      (.invalidParam, s)
    else
      let remainedSize := s.info.fileSize - fileOffset
      let readLength := if remainedSize < crcFrameDataSize then remainedSize else crcFrameDataSize
      match packReadFileRetransData env seq readLength fileOffset s with
      | (.ok, s) => (.ok, s)
      | (_, s) => (.err, s)

/-- The loop of `AckResponseDataHandle` over the bits `i`, … of the window. -/
def ackResponseLoop (env : LinkEnv) (resData : AckResponseData) : List ℕ → Link → SoftBusErr × Link
  | [], s => (.ok, s)
  | i :: bits, s =>
    if (resData.seqResult >>> UInt32.ofNat i) &&& 1 = 1 then
      ackResponseLoop env resData bits s
    else
      let failSeq := resData.startSeq + UInt32.ofNat i
      match retransFileFrameBySeq env failSeq.toInt32 s with
      | (.ok, s) => ackResponseLoop env resData bits s
      | (_, s) => (.err, s)

def ackResponseDataHandle (env : LinkEnv) (data : Option AckResponseData) (s : Link) :
    SoftBusErr × Link :=
  match data with
  | none => (.ok, s)
  | some resData =>
    if resData.seqResult ≠ fileSendAckResultSuccess then
      ackResponseLoop env resData (List.range fileSendAckInterval) s
    else
      (.ok, s)

/-! ## One frame -/

def sendOneFrameFront (frameType : FrameType) (s : Link) : SoftBusErr × Link :=
  if s.info.crc ≠ appInfoFileFeaturesSupport then
    (.ok, s)
  else if frameType = .first then
    match createPendingPacket 0 s with
    | (.ok, s) => (.ok, { s with info := { s.info with waitSeq := 0, waitTimeoutCount := 0 } })
    | (_, s) => (.err, s)
  else
    (.ok, s)

def sendOneFrameMiddle (env : LinkEnv) (frameType : FrameType) (s : Link) : SoftBusErr × Link :=
  if s.info.crc ≠ appInfoFileFeaturesSupport then
    (.ok, s)
  else if frameType = .ongoine then
    let seq := s.info.seq
    if seq % 32 ≠ 0 then
      (.ok, s)
    else
      match createPendingPacket seq s with
      | (.ok, s) =>
        let s := { s with info := { s.info with waitSeq := seq, waitTimeoutCount := 0 } }
        (.ok, s.send env (.ackRequest seq)
          ⟨.ackRequestSent, packAckReqAndResData (seq - 32 + 1) seq⟩)
      | (_, s) => (.err, s)
  else
    (.ok, s)

/-- The sender no longer waits for an acknowledgement. -/
def Link.stopWaiting (s : Link) : Link :=
  { s with info := { s.info with waitSeq := 0, waitTimeoutCount := 0 } }

def sendOneFrameRear (env : LinkEnv) (frameType : FrameType) (s : Link) : SoftBusErr × Link :=
  if s.info.crc ≠ appInfoFileFeaturesSupport then
    (.ok, s)
  else if frameType = .onlyone then
    (.ok, s)
  else if frameType = .first then
    match getPendingPacketData 0 true s with
    | (.ok, _, s) => (.ok, s)
    | (_, _, s) => (.err, s)
  else if s.info.waitSeq = 0 then
    (.ok, s)
  else
    match getPendingPacketData s.info.waitSeq false s with
    | (.ok, data, s) =>
      let (ret, s) := ackResponseDataHandle env data s
      (ret, s.stopWaiting)
    | (.timout, _, s) =>
      let s := { s with info := { s.info with waitTimeoutCount := s.info.waitTimeoutCount + 1 } }
      if frameType ≠ .last ∧ s.info.waitTimeoutCount ≤ waitFrameAckTimeoutCount then
        (.ok, s)
      else
        (.err, (deletePendingPacket s.info.waitSeq s).stopWaiting)
    | (_, _, s) => (.err, s.stopWaiting)

def sendOneFrame (env : LinkEnv) (index : ℕ) (frame : FileFrame) (s : Link) : SoftBusErr × Link :=
  match sendOneFrameFront frame.frameType s with
  | (.ok, s) =>
    match sendOneFrameMiddle env frame.frameType (s.send env (.frame index) frame) with
    | (.ok, s) =>
      match sendOneFrameRear env frame.frameType (s.poll env index) with
      | (.ok, s) => if s.info.result ≠ SoftBusErr.ok.code then (.err, s) else (.ok, s)
      | (_, s) => (.err, s)
    | (_, s) => (.err, s)
  | (_, s) => (.err, s)

/-! ## A file -/

/-- `PackReadFileData`: the frame, and the sender with its next sequence number and sum. -/
def packReadFileData (readLength fileOffset : ℕ) (info : SendListenerInfo) :
    Option (List UInt8 × SendListenerInfo) :=
  let fileData := info.pread readLength fileOffset
  if fileData.length = 0 then
    none
  else if info.crc = appInfoFileFeaturesSupport then
    let info' := { info with
      seq := info.seq + 1, checkSumCRC := info.checkSumCRC + (rtuCrc fileData).toNat }
    let data := packCrcData info'.seq fileData
    if data.length > proxyMaxPacketSize then none else some (data, info')
  else
    let data := packPlainData info.channelId fileData
    if data.length > proxyMaxPacketSize then none else some (data, info)

/-- The loop of `FileToFrame` over the frames from `index` on. -/
def fileToFrameLoop (env : LinkEnv) (destFile : Path) :
    ℕ → ℕ → ℕ → ℕ → Link → SoftBusErr × Link
  | 0, _, _, _, s => (.ok, s)
  | left + 1, index, fileOffset, remainedSendSize, s =>
    let frameType := frameIndexToType index s.info.frameNum
    if index = 0 then
      match packFileTransStartInfo s.info.crc s.info.channelId destFile s.info.fileSize with
      | none => (.err, s)
      | some data =>
        match sendOneFrame env index ⟨frameType, data⟩ s with
        | (.ok, s) => fileToFrameLoop env destFile left (index + 1) fileOffset remainedSendSize s
        | (_, s) => (.err, s)
    else
      let frameSize := frameDataSize s.info.crc
      let readLength := if remainedSendSize < frameSize then remainedSendSize else frameSize
      match packReadFileData readLength fileOffset s.info with
      | none => (.err, s)
      | some (data, info) =>
        let len := (s.info.pread readLength fileOffset).length
        match sendOneFrame env index ⟨frameType, data⟩ { s with info := info } with
        | (.ok, s) =>
          fileToFrameLoop env destFile left (index + 1) (fileOffset + len) (remainedSendSize - len) s
        | (_, s) => (.err, s)

def sendFileCrcCheckSum (env : LinkEnv) (s : Link) : SoftBusErr × Link :=
  if s.info.crc ≠ appInfoFileFeaturesSupport then
    (.ok, s)
  else
    let seq := s.info.seq + 1
    match createPendingPacket seq s with
    | (.ok, s) =>
      let s := s.send env .checkSum ⟨.crcCheck, packFileCrcCheckSum seq s.info.checkSumCRC⟩
      match getPendingPacketData seq true (s.poll env s.info.frameNum) with
      | (ret, _, s) => (ret, s)
    | (_, s) => (.err, s)

def fileToFrame (env : LinkEnv) (destFile : Path) (s : Link) : SoftBusErr × Link :=
  match fileToFrameLoop env destFile s.info.frameNum 0 0 s.info.fileSize s with
  | (.ok, s) =>
    match sendFileCrcCheckSum env s with
    | (.ok, s) => (.ok, s)
    | (_, s) => (.err, s)
  | (_, s) => (.err, s)

/-- The size of a file that may be sent, and the number of its frames. -/
def getAndCheckFileSize (contents : Path → Option (List UInt8)) (sourceFile : Path) (crc : Int32) :
    Except SoftBusErr (ℕ × ℕ) :=
  match contents sourceFile with
  | none => .error .fileErr
  | some source =>
    let fileSize := source.length
    if fileSize > maxFileSize then
      .error .fileErr
    else
      let oneFrameSize := frameDataSize crc
      let frameNum := if fileSize % oneFrameSize ≠ 0 then fileSize / oneFrameSize + 1
        else fileSize / oneFrameSize
      -- one more for the start frame
      .ok (fileSize, frameNum + 1)

def fileToFrameAndSendFile (env : LinkEnv) (sourceFile destFile : Path) (s : Link) :
    SoftBusErr × Link :=
  if !checkDestFilePathValid destFile then
    (.err, s)
  else
    match getAndCheckRealPath env.realPath sourceFile with
    | none => (.err, s)
    | some absSrcPath =>
      match getAndCheckFileSize env.contents absSrcPath s.info.crc with
      | .error _ => (.err, s)
      | .ok (fileSize, frameNum) =>
        let fd := env.openFile absSrcPath
        if fd < 0 then
          (.err, s)
        else if tryFileLock env.fcntl fd 2 ≠ .ok then
          (.fileErr, s)
        else
          fileToFrame env destFile { s with info := { s.info with
            source := (env.contents absSrcPath).getD [], fileSize := fileSize, frameNum := frameNum } }

def clearSendInfo (info : SendListenerInfo) : SendListenerInfo :=
  { info with
    source := [], fileSize := 0, frameNum := 0, seq := 0, waitSeq := 0, waitTimeoutCount := 0
    result := SoftBusErr.ok.code, checkSumCRC := 0 }

def sendSingleFile (env : LinkEnv) (sourceFile destFile : Path) (s : Link) : SoftBusErr × Link :=
  let (ret, s) := fileToFrameAndSendFile env sourceFile destFile s
  (ret, { s with info := clearSendInfo s.info })

/-! ## A list of files -/

def sendFileList (env : LinkEnv) (destFile : List Path) (s : Link) : SoftBusErr × Link :=
  match fileListToBuffer destFile with
  | none => (.err, s)
  | some buffer => (.ok, s.send env .fileList ⟨.allFileSent, buffer⟩)

/-- The loop of `ProxyStartSendFile` over the files. -/
def sendFiles (env : LinkEnv) : List (Path × Path) → Link → SoftBusErr × Link
  | [], s => (.ok, s)
  | (sourceFile, destFile) :: files, s =>
    match sendSingleFile env sourceFile destFile s with
    | (.ok, s) => sendFiles env files s
    | (_, s) => (.err, s)

def proxyStartSendFile (env : LinkEnv) (files : List (Path × Path)) (s : Link) : SoftBusErr × Link :=
  match sendFiles env files s with
  | (.ok, s) =>
    match sendFileList env (files.map Prod.snd) s with
    | (.ok, s) => if s.info.result ≠ SoftBusErr.ok.code then (.err, s) else (.ok, s)
    | (_, s) => (.err, s)
  | (_, s) => (.err, s)

/-- All names are there and short enough. -/
def isValidFileString (names : List Path) (maxLen : ℕ) : Bool :=
  !names.isEmpty && names.all fun name => decide (name.length ≠ 0 ∧ name.length < maxLen)

/-- A sender that has sent nothing. -/
def createSendListenerInfo (channelId sessionId crc : Int32) : SendListenerInfo where
  channelId := channelId
  sessionId := sessionId
  source := []
  fileSize := 0
  frameNum := 0
  crc := crc
  seq := 0
  waitSeq := 0
  waitTimeoutCount := 0
  result := SoftBusErr.ok.code
  checkSumCRC := 0

/-- `ProxyChannelSendFile` for a session that sends nothing else. -/
def proxyChannelSendFile (env : LinkEnv) (channelId sessionId crc : Int32)
    (files : List (Path × Path)) (recv : RecvWorld) : SoftBusErr × Link :=
  let s : Link := ⟨createSendListenerInfo channelId sessionId crc, [], recv, [], []⟩
  if files.length = 0 ∨ files.length > maxSendFileNum then
    (.err, s)
  else if !isValidFileString (files.map Prod.fst) maxFilePathNameLen
      || !isValidFileString (files.map Prod.snd) maxFilePathNameLen then
    (.err, s)
  else
    match proxyStartSendFile env files s with
    | (.ok, s) => (.ok, s)
    | (_, s) => (.err, deletePendingPacket s.info.waitSeq s)

end SoftBus.Native
