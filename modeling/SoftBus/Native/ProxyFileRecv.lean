import Mathlib
import SoftBus.ForStd.KeyedList
import SoftBus.ForStd.PosFile
import SoftBus.Native.Adapter
import SoftBus.Native.ProxyFileFrame

/-!
# The receiver of the proxy file transfer

Model of the receiving half of `client_trans_proxy_file_manager.c`: the recipients of
the sessions, the handlers of the frames and the timer.  A handler runs to its end
before the next frame or timer tick.

The list of recipients has one for each session (`CreateNewRecipient` refuses a
second).  A handler that holds a recipient works on its value and writes it back to
the list with its reference (`releaseRecipientRef`).  Offsets and sizes are natural numbers: they stay far below 64 bits.
-/

namespace SoftBus.Native
open Function

/-! ## State -/

inductive FileRecvState where
  | idle
  | start
  | process
  | err
deriving Repr, DecidableEq

inductive RecvFileNodeStatus where
  | idle
  | busy
  | err
deriving Repr, DecidableEq

def fileSendAckResultSuccess : UInt32 := 0xFFFFFFFF

def fileSendAckInterval : ℕ := 32

def waitFrameAckTimeoutCount : ℕ := 24

def fileTransTimeout : ℕ := 10

/-- The file that a recipient receives. -/
structure SingleFileInfo where
  seq : UInt32
  fileFd : Int32
  fileStatus : RecvFileNodeStatus
  fileOffset : ℕ
  oneFrameLen : ℕ
  startSeq : UInt32
  seqResult : UInt64
  preStartSeq : UInt32
  preSeqResult : UInt32
  fileSize : ℕ
  timeOut : ℕ
  checkSumCRC : ℕ
  filePath : Path
deriving Repr, DecidableEq

/-- The memory of a new recipient or file. -/
def SingleFileInfo.calloc : SingleFileInfo where
  seq := 0
  fileFd := 0
  fileStatus := .idle
  fileOffset := 0
  oneFrameLen := 0
  startSeq := 0
  seqResult := 0
  preStartSeq := 0
  preSeqResult := 0
  fileSize := 0
  timeOut := 0
  checkSumCRC := 0
  filePath := []

/-- The root directory of a session's files, and which callbacks its listener has. -/
structure FileListener where
  rootDir : Path
  onReceiveFileStarted : Bool
  onReceiveFileProcess : Bool
  onReceiveFileFinished : Bool
  onFileTransError : Bool
deriving Repr, DecidableEq

structure FileRecipientInfo where
  sessionId : Int32
  channelId : Int32
  crc : Int32
  result : UInt32
  fileListener : FileListener
  objRefCount : ℤ
  recvState : FileRecvState
  recvFileInfo : SingleFileInfo
deriving Repr, DecidableEq

/-- What the receiver does to the world outside. -/
inductive RecvEvent where
  | opened (filePath : Path) (fd : Int32)
  | closed (fd : Int32)
  | removed (filePath : Path)
  | sent (channelId : Int32) (frame : FileFrame)
  | receiveFileStarted (sessionId : Int32) (filePath : Path)
  | receiveFileProcess (sessionId : Int32) (filePath : Path) (bytesUpload bytesTotal : ℕ)
  | receiveFileFinished (sessionId : Int32) (filePath : Path) (fileCnt : ℕ)
  | fileTransError (sessionId : Int32)
deriving Repr, DecidableEq

/-- What the session manager knows of a session with a file listener. -/
structure SessionInfo where
  crc : Int32
  fileListener : FileListener
deriving Repr, DecidableEq

/-- The answers that a handler gets from outside: the bytes behind the frame, the one
    on the stack and the ones behind a full path buffer, the session manager, the file
    system and the channel. -/
structure RecvEnv where
  beyond : ℕ → UInt8
  stackSeq : UInt32
  pastPath : List UInt8
  session : Option SessionInfo
  makeDir : Path → Bool
  realPath : Path → Option Path
  openFile : Path → Int32
  fcntl : ℕ → Bool
  /-- what the `n`-th write of the handler returns for a buffer of this length -/
  pwrite : ℕ → ℕ → ℤ
  ipcSend : SoftBusErr

/-- `files` are the contents of the open files, by descriptor. -/
structure RecvWorld where
  recipients : KeyedList FileRecipientInfo.sessionId
  files : Int32 → List UInt8
  trace : List RecvEvent

namespace RecvWorld

variable (w : RecvWorld)

def emit (e : RecvEvent) : RecvWorld := { w with trace := w.trace ++ [e] }

def emitIf (b : Bool) (e : RecvEvent) : RecvWorld := if b then w.emit e else w

/-- `GetRecipientNoLock` -/
def recipient (sessionId : Int32) : Option FileRecipientInfo :=
  w.recipients.find sessionId

/-- Writes a recipient back to its place in the list. -/
def setRecipient (r : FileRecipientInfo) : RecvWorld :=
  { w with recipients := w.recipients.set r }

/-- Takes a recipient out of the list. -/
def dropRecipient (sessionId : Int32) : RecvWorld :=
  { w with recipients := w.recipients.erase sessionId }

/-- `SoftBusCloseFile` -/
def closeFile (fd : Int32) : RecvWorld :=
  if fd ≤ invalidFd then w else w.emit (.closed fd)

end RecvWorld

def sendFileTransResult (env : RecvEnv) (channelId : Int32) (seq : UInt32) (result : SoftBusErr)
    (side : UInt32) (w : RecvWorld) : SoftBusErr × RecvWorld :=
  (env.ipcSend, w.emit (.sent channelId ⟨.result, packFileTransResult seq result side⟩))

def sendFileAckReqAndResData (env : RecvEnv) (channelId : Int32) (startSeq value : UInt32)
    (type : FrameType) (w : RecvWorld) : SoftBusErr × RecvWorld :=
  (env.ipcSend, w.emit (.sent channelId ⟨type, packAckReqAndResData startSeq value⟩))

/-! ## Recipients -/

/-- The last thing done with a recipient: it is freed afterwards. -/
def clearRecipientResources (env : RecvEnv) (info : FileRecipientInfo) (w : RecvWorld) :
    RecvWorld :=
  let w := if info.recvFileInfo.fileFd ≠ invalidFd then w.closeFile info.recvFileInfo.fileFd else w
  if info.recvState = .err then
    let w := w.emit (.removed info.recvFileInfo.filePath)
    let w :=
      if info.crc = appInfoFileFeaturesSupport then
        (sendFileTransResult env info.channelId info.recvFileInfo.seq .err isRecvResult w).2
      else w
    w.emitIf info.fileListener.onFileTransError (.fileTransError info.sessionId)
  else w

def setRecipientRecvState (state : FileRecvState) (recipient : FileRecipientInfo) :
    FileRecipientInfo :=
  if recipient.recvState ≠ .err then
    let recipient := { recipient with recvState := state }
    if state = .idle then { recipient with recvFileInfo.fileStatus := .idle } else recipient
  else recipient

/-- One recipient at a timer tick: what stays of it in the list. -/
def timeOutRecipient (info : FileRecipientInfo) : Option FileRecipientInfo :=
  if info.recvState = .idle then
    some info
  else if info.recvFileInfo.timeOut ≥ fileTransTimeout then
    none
  else
    some { info with recvFileInfo.timeOut := info.recvFileInfo.timeOut + 1 }

/-- A recipient that has timed out loses the reference of the list. -/
def clearTimedOut (env : RecvEnv) (w : RecvWorld) (info : FileRecipientInfo) : RecvWorld :=
  if (timeOutRecipient info).isSome then
    w
  else
    let info := { info with
      recvState := .err
      recvFileInfo.fileStatus := .err
      recvFileInfo.timeOut := 0
      objRefCount := info.objRefCount - 1 }
    if info.objRefCount = 0 then clearRecipientResources env info w else w

theorem sessionId_timeOutRecipient {info info' : FileRecipientInfo}
    (h : timeOutRecipient info = some info') : info'.sessionId = info.sessionId := by
  unfold timeOutRecipient at h
  split at h
  · rw [← Option.some.inj h]
  · split at h
    · exact absurd h (by simp)
    · rw [← Option.some.inj h]

def proxyFileTransTimerProc (env : RecvEnv) (w : RecvWorld) : RecvWorld :=
  let cleared := w.recipients.toList.foldl (clearTimedOut env) w
  { cleared with recipients :=
      w.recipients.update timeOutRecipient (fun _ _ => sessionId_timeOutRecipient) }

/-- Drops a reference to `info`, and the recipient with the last. -/
def releaseRecipientRef (env : RecvEnv) (info : FileRecipientInfo) (w : RecvWorld) : RecvWorld :=
  let info := { info with objRefCount := info.objRefCount - 1 }
  if info.objRefCount = 0 then
    clearRecipientResources env info (w.dropRecipient info.sessionId)
  else
    w.setRecipient info

/-- Drops the reference of the list. -/
def delRecipient (env : RecvEnv) (sessionId : Int32) (w : RecvWorld) : RecvWorld :=
  match w.recipient sessionId with
  | none => w
  | some info => releaseRecipientRef env info w

/-- The recipient that `CreateNewRecipient` allocates. -/
def newRecipient (session : SessionInfo) (sessionId channelId : Int32) : FileRecipientInfo where
  sessionId := sessionId
  channelId := channelId
  crc := session.crc
  result := 0
  fileListener := session.fileListener
  objRefCount := 1
  recvState := .idle
  recvFileInfo := { SingleFileInfo.calloc with fileFd := invalidFd }

def createNewRecipient (env : RecvEnv) (sessionId channelId : Int32) (w : RecvWorld) :
    Option RecvWorld :=
  match w.recipient sessionId, env.session with
  | some _, _ => none
  | none, none => none
  | none, some session =>
    some { w with recipients := w.recipients.push (newRecipient session sessionId channelId) }

/-- The recipient of a session that may start a file, created if there is none. -/
def getRecipientInCreateFileRef (env : RecvEnv) (sessionId channelId : Int32) (w : RecvWorld) :
    Option (FileRecipientInfo × RecvWorld) :=
  let created :=
    match w.recipient sessionId with
    | some _ => some w
    | none => createNewRecipient env sessionId channelId w
  match created with
  | none => none
  | some w =>
    match w.recipient sessionId with
    | none => none
    | some r =>
      if r.recvState ≠ .idle then
        none
      else
        some ({ r with recvState := .start, objRefCount := r.objRefCount + 1 }, w)

/-- The recipient of a session that receives a file. -/
def getRecipientInProcessRef (sessionId : Int32) (w : RecvWorld) : Option FileRecipientInfo :=
  match w.recipient sessionId with
  | none => none
  | some r =>
    if r.recvState = .idle then
      none
    else
      let r := if r.recvState = .start then { r with recvState := .process } else r
      some { r with objRefCount := r.objRefCount + 1 }

/-! ## The start of a file -/

def getFullRecvPath (filePath rootDir : Path) : Path :=
  if filePath.head? = some pathSeparator ∨ rootDir.getLast? = some pathSeparator then
    rootDir ++ filePath
  else
    rootDir ++ pathSeparator :: filePath

def getDirPath (fullPath : Path) (dirPathLen : ℕ) : Except SoftBusErr Path :=
  if fullPath.length < 1 ∨ fullPath.getLast? = some pathSeparator then
    .error .invalidParam
  else if dirLength fullPath ≥ dirPathLen then
    .error .invalidParam
  else
    .ok (fullPath.take (dirLength fullPath))

def getAbsFullPath (env : RecvEnv) (fullPath : Path) (pathSize : ℕ) : Except SoftBusErr Path :=
  match getDirPath fullPath maxFilePathNameLen with
  | .error _ => .error .invalidParam
  | .ok dirPath =>
    match transGetFileName fullPath, getAndCheckRealPath env.realPath dirPath with
    | some fileName, some absFullDir =>
      if pathSize < fileName.length + absFullDir.length + 1 then
        .error .err
      -- `sprintf_s` also needs room for the separator and the terminating NUL
      else if pathSize < fileName.length + absFullDir.length + 2 then
        .error .err
      else
        .ok (absFullDir ++ pathSeparator :: fileName)
    | _, _ => .error .err

/-- The directories on the way to a file. -/
def parentDirs (filePath : Path) : List Path :=
  filePath.inits.filter fun dir => dir.getLast? = some pathSeparator

def createDirAndGetAbsPath (env : RecvEnv) (filePath : Path) (pathSize : ℕ) :
    Except SoftBusErr Path :=
  if (parentDirs filePath).all env.makeDir then
    getAbsFullPath env filePath pathSize
  else
    .error .err

def getFileInfoByStartFrame (env : RecvEnv) (frame : FileFrame) (info : FileRecipientInfo) :
    Except SoftBusErr SingleFileInfo :=
  let rootDir := info.fileListener.rootDir
  if hasDotDot rootDir then
    .error .err
  else
    match unpackFileTransStartInfo info.crc env.beyond env.pastPath frame with
    | .error _ => .error .err
    | .ok start =>
      if !checkDestFilePathValid start.filePath then
        .error .err
      else
        let fullRecvPath := getFullRecvPath start.filePath rootDir
        if !isPathValid fullRecvPath then
          .error .err
        else
          match createDirAndGetAbsPath env fullRecvPath maxFilePathNameLen with
          | .error _ => .error .err
          | .ok filePath =>
            .ok { SingleFileInfo.calloc with
              seq := start.seq
              oneFrameLen := start.oneFrameLen
              fileSize := start.fileSize
              startSeq := start.startSeq
              preStartSeq := start.preStartSeq
              filePath := filePath }

def checkRecvFileExist (absFullPath : Path) (w : RecvWorld) : Bool :=
  w.recipients.toList.any fun info =>
    decide (info.recvState ≠ .idle) && decide (info.recvFileInfo.fileStatus = .busy)
      && decide (info.recvFileInfo.filePath = absFullPath)

section
variable (env : RecvEnv)

/-- Opens the file and makes it the recipient's. -/
def putToRecvFileList (recipient : FileRecipientInfo) (file : SingleFileInfo)
    (w : RecvWorld) : SoftBusErr × FileRecipientInfo × RecvWorld :=
  if recipient.recvFileInfo.fileStatus ≠ .idle then
    (.err, recipient, w)
  else if checkRecvFileExist file.filePath w then
    (.fileErr, recipient, w)
  else
    -- the copy overwrites the descriptor of the recipient before the open
    let recipient := { recipient with recvFileInfo := file }
    let fd := env.openFile file.filePath
    if fd < 0 then
      (.fileErr, recipient, w)
    else
      let w := w.emit (.opened file.filePath fd)
      if tryFileLock env.fcntl fd 2 ≠ .ok then
        (.fileErr, recipient, w.closeFile fd)
      else
        (.ok, { recipient with recvFileInfo := { file with
            fileStatus := .busy, fileOffset := 0, timeOut := 0, fileFd := fd } },
          { w with files := update w.files fd [] })

/-- The error exit of `CreateFileFromFrame`. -/
def createFileExit (recipient : FileRecipientInfo) (sessionId channelId : Int32)
    (w : RecvWorld) : SoftBusErr × RecvWorld :=
  let w :=
    if recipient.crc = appInfoFileFeaturesSupport then
      (sendFileTransResult env channelId 0 .err isRecvResult w).2
    else w
  let w := w.emitIf recipient.fileListener.onFileTransError (.fileTransError sessionId)
  (.err, delRecipient env sessionId (releaseRecipientRef env recipient w))

/-- The end of `CreateFileFromFrame` when the file is open. -/
def createFileDone (recipient : FileRecipientInfo) (sessionId channelId : Int32)
    (filePath : Path) (w : RecvWorld) : SoftBusErr × RecvWorld :=
  let w := w.emitIf recipient.fileListener.onReceiveFileStarted
    (.receiveFileStarted sessionId filePath)
  let w := releaseRecipientRef env recipient w
  if recipient.crc = appInfoFileFeaturesSupport then
    (.ok, (sendFileTransResult env channelId 0 .ok isRecvResult w).2)
  else
    (.ok, w)

def createFileFromFrame (sessionId channelId : Int32) (frame : FileFrame)
    (w : RecvWorld) : SoftBusErr × RecvWorld :=
  match getRecipientInCreateFileRef env sessionId channelId w with
  | none => (.err, w)
  | some (recipient, w) =>
    match getFileInfoByStartFrame env frame recipient with
    | .error _ => createFileExit env recipient sessionId channelId w
    | .ok file =>
      match putToRecvFileList env recipient file w with
      | (.ok, recipient, w) =>
        createFileDone env recipient sessionId channelId file.filePath w
      | (_, recipient, w) => createFileExit env recipient sessionId channelId w

end

/-! ## File data -/

/-- A file that is written: what the recipient knows of it, its bytes, and the number of
    writes so far. -/
structure WriteState where
  fileInfo : SingleFileInfo
  content : List UInt8
  writes : ℕ

namespace WriteState

/-- `SoftBusPwriteFile`: the returned length, and the file. -/
def pwrite (env : RecvEnv) (s : WriteState) (data : List UInt8) (off : ℕ) : ℤ × WriteState :=
  let len := env.pwrite s.writes data.length
  (len, { s with
    content := PosFile.pwrite 0 s.content off (data.take len.toNat), writes := s.writes + 1 })

end WriteState

/-- The loop of `WriteEmptyFrame`. -/
def writeEmptyFrameLoop (env : RecvEnv) : ℕ → WriteState → SoftBusErr × WriteState
  | 0, s => (.ok, s)
  | i + 1, s =>
    let oneFrameLen := s.fileInfo.oneFrameLen
    let (emptyLen, s) := s.pwrite env (List.replicate oneFrameLen 0) s.fileInfo.fileOffset
    if emptyLen < 0 ∨ emptyLen.toNat ≠ oneFrameLen then
      (.err, s)
    else
      writeEmptyFrameLoop env i
        { s with fileInfo.fileOffset := s.fileInfo.fileOffset + emptyLen.toNat }

def writeEmptyFrame (env : RecvEnv) (count : Int32) (s : WriteState) : SoftBusErr × WriteState :=
  if count > 0 then
    if s.fileInfo.oneFrameLen = 0 ∨ s.fileInfo.oneFrameLen > maxMallocSize then
      (.mallocErr, s)
    else
      writeEmptyFrameLoop env count.toInt.toNat s
  else
    (.ok, s)

/-- The position of a frame in the bitmap of its window. -/
def windowBit (seq : UInt32) : UInt32 :=
  if seq % 32 = 0 then 31 else seq % 32 - 1

/-- `0x01 << bit`, an `int`, as it is or-ed into a 64-bit word: for bit 31 the sign fills
    the upper half. -/
def intBit (bit : UInt32) : UInt64 := ((1 : Int32) <<< bit.toInt32).toInt64.toUInt64

/-- The end of `ProcessOneFrameCRC`: the write, and the sum over the frames of the window. -/
def writeFrameData (env : RecvEnv) (data : FileData) (fileOffset : ℕ) (inWindow : Bool)
    (s : WriteState) : SoftBusErr × WriteState :=
  let (writeLength, s) := s.pwrite env data.fileData fileOffset
  if writeLength < 0 ∨ writeLength.toNat ≠ data.fileData.length then
    (.err, s)
  else if inWindow then
    let s := { s with fileInfo.fileOffset := s.fileInfo.fileOffset + writeLength.toNat }
    if s.fileInfo.fileOffset > maxFileSize then
      (.err, s)
    else
      (.ok, { s with fileInfo.checkSumCRC := s.fileInfo.checkSumCRC + data.crc.toNat })
  else
    (.ok, s)

/-- The window before is incomplete when it has to be complete. -/
def frameLoss (frameType : FrameType) (seq : UInt32) (fileInfo : SingleFileInfo) : Bool :=
  (decide (seq ≥ fileInfo.preStartSeq + 32 + 24 - 1) || (frameType == .last && decide (seq > 32)))
    && fileInfo.preSeqResult != fileSendAckResultSuccess

def processOneFrameCRC (env : RecvEnv) (frameType : FrameType) (data : FileData) (s : WriteState) :
    SoftBusErr × WriteState :=
  let seq := data.seq
  if seq ≥ s.fileInfo.startSeq + 32 then
    (.err, s)
  else if seq ≥ s.fileInfo.startSeq then
    match writeEmptyFrame env (seq - s.fileInfo.seq - 1).toInt32 s with
    | (.ok, s) =>
      if frameLoss frameType seq s.fileInfo then
        (.err, s)
      else
        let s := { s with
          fileInfo.seq := seq
          fileInfo.seqResult := s.fileInfo.seqResult ||| intBit (windowBit seq) }
        writeFrameData env data s.fileInfo.fileOffset true s
    | (_, s) => (.err, s)
  else
    let s := { s with
      fileInfo.preSeqResult := s.fileInfo.preSeqResult ||| 1 <<< windowBit seq }
    writeFrameData env data ((seq - 1).toNat * s.fileInfo.oneFrameLen) false s

def processOneFrame (env : RecvEnv) (crc : Int32) (frameType : FrameType) (data : FileData)
    (s : WriteState) : SoftBusErr × WriteState :=
  if s.fileInfo.fileStatus = .err then
    (.err, s)
  else if crc = appInfoFileFeaturesSupport then
    processOneFrameCRC env frameType data s
  else
    let s := { s with fileInfo.seq := data.seq }
    let (writeLength, s) := s.pwrite env data.fileData s.fileInfo.fileOffset
    if writeLength ≠ data.fileData.length then
      (.err, s)
    else
      let s := { s with fileInfo.fileOffset := s.fileInfo.fileOffset + writeLength.toNat }
      if s.fileInfo.fileOffset > maxFileSize then (.err, s) else (.ok, s)

/-- The error exit of `WriteFrameToFile`. -/
def writeFrameExit (env : RecvEnv) (recipient : FileRecipientInfo) (sessionId : Int32)
    (w : RecvWorld) : SoftBusErr × RecvWorld :=
  let w :=
    if recipient.crc = appInfoFileFeaturesSupport then
      (sendFileTransResult env recipient.channelId 0 .err isRecvResult w).2
    else w
  let recipient := setRecipientRecvState .err recipient
  let w := w.emitIf recipient.fileListener.onFileTransError (.fileTransError sessionId)
  (.err, delRecipient env sessionId (releaseRecipientRef env recipient w))

/-- The end of a file without checksums: its last frame closes it. -/
def closeLastFrame (recipient : FileRecipientInfo) (w : RecvWorld) :
    FileRecipientInfo × RecvWorld :=
  let recipient := setRecipientRecvState .idle recipient
  ({ recipient with recvFileInfo.fileFd := invalidFd }, w.closeFile recipient.recvFileInfo.fileFd)

def writeFrameToFile (env : RecvEnv) (sessionId : Int32) (frame : FileFrame) (w : RecvWorld) :
    SoftBusErr × RecvWorld :=
  match getRecipientInProcessRef sessionId w with
  | none => (.notFind, w)
  | some recipient =>
    match unpackFileDataFrame recipient.crc env.beyond frame with
    | .error _ => writeFrameExit env recipient sessionId w
    | .ok data =>
      let fd := recipient.recvFileInfo.fileFd
      let (ret, s) := processOneFrame env recipient.crc frame.frameType data
        ⟨recipient.recvFileInfo, w.files fd, 0⟩
      let w := { w with files := update w.files fd s.content }
      if ret ≠ .ok then
        writeFrameExit env { recipient with recvFileInfo := s.fileInfo } sessionId w
      else
        let recipient := { recipient with recvFileInfo := { s.fileInfo with timeOut := 0 } }
        let w := w.emitIf recipient.fileListener.onReceiveFileProcess (.receiveFileProcess sessionId
          s.fileInfo.filePath s.fileInfo.fileOffset s.fileInfo.fileSize)
        if recipient.crc ≠ appInfoFileFeaturesSupport
            ∧ (frame.frameType = .last ∨ frame.frameType = .onlyone) then
          let (recipient, w) := closeLastFrame recipient w
          (.ok, releaseRecipientRef env recipient w)
        else
          (.ok, releaseRecipientRef env recipient w)

/-! ## The end of the transfer -/

/-- The path of the first file, when `ProcessFileListData` accepts it. -/
def firstRecvPath (env : RecvEnv) (rootDir firstFilePath : Path) : Option Path :=
  let fullRecvPath := getFullRecvPath firstFilePath rootDir
  if !isPathValid fullRecvPath then none else getAndCheckRealPath env.realPath fullRecvPath

def processFileListData (env : RecvEnv) (sessionId : Int32) (frame : FileFrame) (w : RecvWorld) :
    SoftBusErr × RecvWorld :=
  match getRecipientInProcessRef sessionId w with
  | none => (.notFind, w)
  | some recipient =>
    let listed := (bufferToFileList frame.data).bind fun list =>
      (firstRecvPath env recipient.fileListener.rootDir list.1).map fun path => (path, list.2)
    match listed with
    | some (absRecvPath, fileCount) =>
      let recipient := setRecipientRecvState .idle recipient
      let w := w.emitIf recipient.fileListener.onReceiveFileFinished
        (.receiveFileFinished sessionId absRecvPath fileCount)
      (.ok, delRecipient env sessionId (releaseRecipientRef env recipient w))
    | none =>
      let w := w.emitIf recipient.fileListener.onFileTransError (.fileTransError sessionId)
      let recipient := setRecipientRecvState .err recipient
      (.err, delRecipient env sessionId (releaseRecipientRef env recipient w))

/-- `SetRecipientRecvState` on a recipient that is back in the list. -/
def setListedRecvState (sessionId : Int32) (state : FileRecvState) (w : RecvWorld) : RecvWorld :=
  match w.recipient sessionId with
  | none => w
  | some recipient => w.setRecipient (setRecipientRecvState state recipient)

def processCrcCheckSumData (env : RecvEnv) (sessionId : Int32) (frame : FileFrame) (w : RecvWorld) :
    SoftBusErr × RecvWorld :=
  match getRecipientInProcessRef sessionId w with
  | none => (.notFind, w)
  | some recipient =>
    let (result, seq) := unpackFileCrcCheckSum recipient.crc recipient.recvFileInfo.checkSumCRC
      env.beyond env.stackSeq frame
    let (ret, w) := sendFileTransResult env recipient.channelId seq result isRecvResult w
    -- the state is set after the reference is dropped
    let w := releaseRecipientRef env recipient w
    if result ≠ .ok ∨ ret ≠ .ok then
      (.err, delRecipient env sessionId (setListedRecvState sessionId .err w))
    else
      (.ok, setListedRecvState sessionId .idle w)

/-- The window that an answered acknowledgement request opens. -/
def slideWindow (fileInfo : SingleFileInfo) : SingleFileInfo :=
  { fileInfo with
    timeOut := 0
    preStartSeq := fileInfo.startSeq
    startSeq := fileInfo.startSeq + 32
    preSeqResult := fileInfo.seqResult.toUInt32
    seqResult := fileInfo.seqResult >>> 32 }

def processFileAckRequest (env : RecvEnv) (sessionId : Int32) (frame : FileFrame) (w : RecvWorld) :
    SoftBusErr × RecvWorld :=
  match getRecipientInProcessRef sessionId w with
  | none => (.notFind, w)
  | some recipient =>
    match unpackAckReqAndResData env.beyond frame with
    | .error _ => (.err, releaseRecipientRef env recipient w)
    | .ok request =>
      if request.startSeq ≠ recipient.recvFileInfo.startSeq then
        (.err, releaseRecipientRef env recipient w)
      else
        let file := slideWindow recipient.recvFileInfo
        let (ret, w) := sendFileAckReqAndResData env recipient.channelId file.preStartSeq
          file.preSeqResult .ackResponseSent w
        (ret, releaseRecipientRef env { recipient with recvFileInfo := file } w)

/-- `ProcessFileTransResult` for the side that receives; a result about the receiving
    side goes to the sender of the session. -/
def processFileTransResult (env : RecvEnv) (sessionId : Int32) (frame : FileFrame) (w : RecvWorld) :
    SoftBusErr × RecvWorld :=
  match unpackFileTransResultFrame env.beyond frame with
  | .error _ => (.err, w)
  | .ok res =>
    if res.side = isSendResult then
      match w.recipient sessionId with
      | none => (.notFind, w)
      | some r => (.ok, w.setRecipient { r with result := res.result })
    else
      (.ok, w)

/-- The frames that the receiving side handles.  An acknowledgement response is for the
    sender. -/
def processRecvFileFrameData (env : RecvEnv) (sessionId channelId : Int32) (oneFrame : FileFrame)
    (w : RecvWorld) : SoftBusErr × RecvWorld :=
  if oneFrame.frameLength > proxyMaxPacketSize then
    (.err, w)
  else
    match oneFrame.frameType with
    | .first => createFileFromFrame env sessionId channelId oneFrame w
    | .ongoine | .onlyone | .last => writeFrameToFile env sessionId oneFrame w
    | .ackRequestSent => processFileAckRequest env sessionId oneFrame w
    | .ackResponseSent => (.ok, w)
    | .crcCheck => processCrcCheckSumData env sessionId oneFrame w
    | .result => processFileTransResult env sessionId oneFrame w
    | .allFileSent => processFileListData env sessionId oneFrame w
    | .other _ => (.err, w)

/-! ## Runs -/

/-- What happens to the receiver: a frame for a session, or a tick of its timer. -/
inductive RecvInput where
  | frame (env : RecvEnv) (sessionId channelId : Int32) (oneFrame : FileFrame)
  | tick (env : RecvEnv)

def RecvWorld.step (w : RecvWorld) : RecvInput → RecvWorld
  | .frame env sessionId channelId oneFrame =>
    (processRecvFileFrameData env sessionId channelId oneFrame w).2
  | .tick env => proxyFileTransTimerProc env w

/-- A receiver that has received nothing. -/
def RecvWorld.init : RecvWorld := { recipients := .empty, files := fun _ => [], trace := [] }

end SoftBus.Native
