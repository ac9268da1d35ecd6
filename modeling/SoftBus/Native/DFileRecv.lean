import Mathlib

/-!
# The file manager of a DFile receiver

`WriteSingleBlockFrame` and `GenerateAllEmptyFiles` of `nstackx_file_manager.c` on the files of one
transfer.  The thread of the task may take up the frames handed to it in any order.
-/

namespace SoftBus.Native

/-- `FileInfo`.  `failed` says that `errCode` is set, `written` records the blocks written to the
    file and `notices` what `NotifyFileMsg` said of it, `true` for `FILE_MANAGER_RECEIVE_SUCCESS`. -/
structure DFileInfo where
  fileSize : UInt64
  totalBlockNum : UInt32
  receivedBlockNum : UInt32
  isOpen : Bool
  failed : Bool
  written : List UInt32
  notices : List Bool
deriving DecidableEq

/-- A data frame; `length` counts the bytes behind the frame header. -/
structure DFileDataFrame where
  transId : UInt16
  fileId : UInt16
  blockSequence : UInt32
  length : UInt16

/-- Whether a file can be opened and positioned, what `pwrite` returns and how many bytes
    decryption leaves. -/
structure DFileIo where
  opens : Bool
  seeks : Bool
  pwrite : Int
  decrypted : ℕ

/-- `FileListTask` -/
structure DFileTask where
  transId : UInt16
  files : List DFileInfo
  encrypted : Bool
  errCode : Bool
  isRecvEmptyFilesCreated : Bool

/-- The steps of `RecvTaskProcess`: the empty files, a frame, and the end of the task. -/
inductive DFileEvent where
  | emptyFiles (io : DFileIo)
  | frame (frame : DFileDataFrame) (io : DFileIo)
  | stop

/-- The entry that `AddRecvFileInfo` makes. -/
def DFileInfo.start (standardBlockSize : UInt16) (fileSize : UInt64) : DFileInfo :=
  let blocks := (fileSize / standardBlockSize.toUInt64).toUInt32
  ⟨fileSize, if fileSize % standardBlockSize.toUInt64 ≠ 0 then blocks + 1 else blocks, 0, false, false, [], []⟩

/-- `WriteToFile`; the Boolean says that it returns `NSTACKX_EOK`. -/
def DFileInfo.writeToFile (f : DFileInfo) (blockSequence : UInt32) (length : ℕ) (io : DFileIo) :
    DFileInfo × Bool :=
  if !f.isOpen && !io.opens then ({ f with failed := true }, false)
  else
    let f := { f with isOpen := true }
    if f.fileSize = 0 ∨ length = 0 then (f, true)
    else if !io.seeks || io.pwrite < length then ({ f with failed := true }, false)
    -- every block written is counted, also one that was written before
    else ({ f with
      receivedBlockNum := f.receivedBlockNum + 1, written := f.written ++ [blockSequence] }, true)

/-- `FileGetBytesTransferred` of a receiver.  `WriteToFile` sets `isEndBlockReceived` when the count
    reaches `totalBlockNum`, after which no block is written. -/
def DFileInfo.fileGetBytesTransferred (f : DFileInfo) (standardBlockSize : UInt16) : UInt64 :=
  if f.fileSize = 0 then 0
  else
    let size := standardBlockSize.toUInt64
    let isEndBlockReceived := f.receivedBlockNum ≠ 0 ∧ f.receivedBlockNum = f.totalBlockNum
    let ret :=
      if ¬isEndBlockReceived then size * f.receivedBlockNum.toUInt64
      else size * (f.receivedBlockNum.toUInt64 - 1) + f.fileSize % size
    if f.fileSize < ret then f.fileSize else ret

/-- `CloseFile` and `NotifyFileMsg` -/
def DFileInfo.finish (f : DFileInfo) (success : Bool) : DFileInfo :=
  { f with isOpen := false, notices := f.notices ++ [success] }

/-- `UpdateFileListRecvStatus` -/
def DFileInfo.update (r : DFileInfo × Bool) : DFileInfo :=
  if !r.2 then r.1.finish false
  else if r.1.receivedBlockNum < r.1.totalBlockNum then r.1
  else r.1.finish true

namespace DFileTask

/-- A task as `FileManagerRecvFileTask` starts it. -/
def start (transId standardBlockSize : UInt16) (encrypted : Bool) (sizes : List UInt64) : DFileTask :=
  ⟨transId, sizes.map (.start standardBlockSize), encrypted, false, false⟩

/-- `WriteSingleBlockFrame` with `GetFrameHearderInfo` -/
def writeSingleBlockFrame (t : DFileTask) (frame : DFileDataFrame) (io : DFileIo) : DFileTask :=
  if frame.transId ≠ t.transId ∨ frame.fileId = 0 then { t with errCode := true }
  else
    let i := frame.fileId.toNat - 1
    match t.files[i]? with
    | none => { t with errCode := true }
    | some f =>
      if f.receivedBlockNum = f.totalBlockNum then t
      else if f.totalBlockNum ≤ frame.blockSequence ∨ frame.length ≤ 6 ∨ 14720 < frame.length then
        { t with errCode := true }
      else if f.failed then t
      else if t.encrypted && io.decrypted = 0 then
        { t with files := t.files.set i (.update ({ f with failed := true }, false)) }
      else
        let length := if t.encrypted then io.decrypted % 2 ^ 16 else frame.length.toNat - 6
        { t with files := t.files.set i (.update (f.writeToFile frame.blockSequence length io)) }

/-- `GenerateAllEmptyFiles` for one file. -/
def generateEmptyFile (io : DFileIo) (f : DFileInfo) : DFileInfo :=
  if 0 < f.fileSize then f
  else
    let r := f.writeToFile 0 0 io
    r.1.finish r.2

/-- `FileListRefreshFileRecvStatus` for one file. -/
def refreshFile (f : DFileInfo) : DFileInfo :=
  if f.failed ∨ f.fileSize = 0 ∨ f.receivedBlockNum = f.totalBlockNum then f
  else { f with failed := true, notices := f.notices ++ [false] }

/-- The bytes of a frame that `WriteToFile` is called with. -/
def payloadLength (t : DFileTask) (frame : DFileDataFrame) (io : DFileIo) : ℕ :=
  if t.encrypted then io.decrypted % 2 ^ 16 else frame.length.toNat - 6

/-- The place of a block in its file. -/
def fileOffset (standardBlockSize : UInt16) (startOffset : UInt64) (blockSequence : UInt32) : UInt64 :=
  standardBlockSize.toUInt64 * blockSequence.toUInt64 + startOffset

def step (t : DFileTask) : DFileEvent → DFileTask
  | .emptyFiles io =>
    if t.errCode || t.isRecvEmptyFilesCreated then t
    else { t with files := t.files.map (generateEmptyFile io), isRecvEmptyFilesCreated := true }
  | .frame frame io => if t.errCode then t else t.writeSingleBlockFrame frame io
  | .stop => { t with files := t.files.map refreshFile, errCode := true }

end DFileTask
end SoftBus.Native
