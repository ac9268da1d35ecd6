import SoftBus.Native.ProxyFileCommon

/-!
# Frames of the proxy file transfer

Model of the functions of `client_trans_proxy_file_manager.c` that pack and unpack
frames.  Words are stored with the low byte first.  In a session with checksums a
frame starts with a magic number and the length of the data behind it; without
them it is the 4-byte channel id and the data.

A packed frame is the list of its bytes.  An unpacking function may read past the
end of the frame: `beyond` are the bytes it finds there.
-/

namespace SoftBus.Native

def maxFileSize : ℕ := 0x500000

def fileMagicNumber : ℕ := 0xBABEFACE

def proxyMaxPacketSize : ℕ := 1024 - 48

def frameMagicOffset : ℕ := 4

def frameLenOffset : ℕ := 8

def frameHeadLen : ℕ := frameMagicOffset + frameLenOffset

def frameDataSeqOffset : ℕ := 4

def frameCrcLen : ℕ := 2

def frameCrcCheckNumLen : ℕ := 8

/-- The side that a result frame is about. -/
def isSendResult : UInt32 := 1

def isRecvResult : UInt32 := 0

/-- `APP_INFO_FILE_FEATURES_SUPPORT`: the session has checksums. -/
def appInfoFileFeaturesSupport : Int32 := 1

/-- A frame as it travels: its type and its bytes. -/
structure FileFrame where
  frameType : FrameType
  data : List UInt8
deriving Repr, DecidableEq

namespace FileFrame

def frameLength (frame : FileFrame) : ℕ := frame.data.length

/-- The word of `n` bytes at `off`. -/
def word (frame : FileFrame) (beyond : ℕ → UInt8) (off n : ℕ) : ℕ :=
  Bytes.ofLE (Bytes.load frame.data beyond off n)

end FileFrame

/-- Magic number and length in front of `fileData`; `dataLen` is the length that the
    head announces. -/
def packHead (dataLen : ℕ) : List UInt8 := Bytes.toLE 4 fileMagicNumber ++ Bytes.toLE 8 dataLen

/-! ## Results and acknowledgements -/

/-- The frame that `SendFileTransResult` sends. -/
def packFileTransResult (seq : UInt32) (result : SoftBusErr) (side : UInt32) : List UInt8 :=
  packHead (frameDataSeqOffset + 4 + 4) ++
    (Bytes.toLE 4 seq.toNat ++ (Bytes.toLE 4 side.toNat ++ Bytes.toLE 4 result.code.toNat))

/-- The contents of a result frame. -/
structure TransResult where
  seq : UInt32
  side : UInt32
  result : UInt32
deriving Repr, DecidableEq

def unpackFileTransResultFrame (beyond : ℕ → UInt8) (frame : FileFrame) :
    Except SoftBusErr TransResult :=
  -- the result itself is behind the length that is checked here
  if frame.frameLength < frameHeadLen + frameDataSeqOffset + frameDataSeqOffset then
    .error .transInvalidDataLength
  else if frame.word beyond 0 4 ≠ fileMagicNumber
      ∨ frame.word beyond frameMagicOffset 8 ≠ frameDataSeqOffset + 4 + 4 then
    .error .invalidDataHead
  else
    .ok { seq := .ofNat (frame.word beyond frameHeadLen 4)
          side := .ofNat (frame.word beyond (frameHeadLen + frameDataSeqOffset) 4)
          result := .ofNat (frame.word beyond (frameHeadLen + frameDataSeqOffset + 4) 4) }

/-- The frame that `SendFileAckReqAndResData` sends. -/
def packAckReqAndResData (startSeq value : UInt32) : List UInt8 :=
  packHead (frameDataSeqOffset + frameDataSeqOffset) ++
    (Bytes.toLE 4 startSeq.toNat ++ Bytes.toLE 4 value.toNat)

/-- The contents of an acknowledgement: the window and, in a response, its bitmap. -/
structure AckResponseData where
  startSeq : UInt32
  seqResult : UInt32
deriving Repr, DecidableEq

def unpackAckReqAndResData (beyond : ℕ → UInt8) (frame : FileFrame) :
    Except SoftBusErr AckResponseData :=
  if frame.frameLength < frameHeadLen + frameDataSeqOffset + frameDataSeqOffset then
    .error .transInvalidDataLength
  else if frame.word beyond 0 4 ≠ fileMagicNumber
      ∨ frame.word beyond frameMagicOffset 8 < frameDataSeqOffset + frameDataSeqOffset then
    .error .invalidDataHead
  else
    .ok { startSeq := .ofNat (frame.word beyond frameHeadLen 4)
          seqResult := .ofNat (frame.word beyond (frameHeadLen + frameDataSeqOffset) 4) }

/-! ## File data -/

/-- The data bytes of a full frame of a session with checksums. -/
def crcFrameDataSize : ℕ := proxyMaxPacketSize - frameHeadLen - frameDataSeqOffset - frameCrcLen

/-- The bytes of data that a frame of the session has room for. -/
def frameDataSize (crc : Int32) : ℕ :=
  if crc = appInfoFileFeaturesSupport then
    proxyMaxPacketSize - frameDataSeqOffset - (frameHeadLen + frameCrcLen)
  else
    proxyMaxPacketSize - frameDataSeqOffset

/-- A data frame with its checksum, as `PackReadFileData` and
    `PackReadFileRetransData` write it. -/
def packCrcData (seq : UInt32) (fileData : List UInt8) : List UInt8 :=
  packHead (fileData.length + frameDataSeqOffset) ++
    (Bytes.toLE 4 seq.toNat ++ (fileData ++ Bytes.toLE 2 (rtuCrc fileData).toNat))

/-- A data frame of a session without checksums. -/
def packPlainData (channelId : Int32) (fileData : List UInt8) : List UInt8 :=
  Bytes.toLE 4 channelId.toUInt32.toNat ++ fileData

/-- The contents of a data frame; `fileData` is what is behind the sequence number. -/
structure FileData where
  seq : UInt32
  crc : UInt16
  fileData : List UInt8
deriving Repr, DecidableEq

def unpackFileDataFrame (crc : Int32) (beyond : ℕ → UInt8) (frame : FileFrame) :
    Except SoftBusErr FileData :=
  if crc = appInfoFileFeaturesSupport then
    if frame.frameLength ≤ frameHeadLen + frameDataSeqOffset + frameCrcLen then
      .error .transInvalidDataLength
    else
      let dataLen := frame.word beyond frameMagicOffset 8
      if frame.word beyond 0 4 ≠ fileMagicNumber
          ∨ (dataLen + frameHeadLen + frameCrcLen) % 2 ^ 64 ≠ frame.frameLength then
        .error .invalidDataHead
      else
        let fileData := Bytes.load frame.data beyond (frameHeadLen + frameDataSeqOffset)
          (dataLen - frameDataSeqOffset)
        let recvCRC := frame.word beyond (frameHeadLen + dataLen) 2
        if (rtuCrc fileData).toNat ≠ recvCRC then
          .error .err
        else
          .ok { seq := .ofNat (frame.word beyond frameHeadLen 4), crc := rtuCrc fileData, fileData }
  else if frame.frameLength ≤ frameDataSeqOffset then
    .error .transInvalidDataLength
  else
    .ok { seq := .ofNat (frame.word beyond 0 4), crc := 0
          fileData := frame.data.drop frameDataSeqOffset }

/-! ## The sum of the checksums -/

/-- The frame that `SendFileCrcCheckSum` sends. -/
def packFileCrcCheckSum (seq : UInt32) (checkSumCRC : ℕ) : List UInt8 :=
  packHead (frameDataSeqOffset + 8) ++ (Bytes.toLE 4 seq.toNat ++ Bytes.toLE 8 checkSumCRC)

/-- The result of the check and the sequence number of the frame, which stays what the
    stack held (`stackSeq`) when the frame is refused before it is read. -/
def unpackFileCrcCheckSum (crc : Int32) (checkSumCRC : ℕ) (beyond : ℕ → UInt8) (stackSeq : UInt32)
    (frame : FileFrame) : SoftBusErr × UInt32 :=
  if crc = appInfoFileFeaturesSupport then
    if frame.frameLength ≠ frameHeadLen + frameDataSeqOffset + 8 then
      (.transInvalidDataLength, stackSeq)
    else if frame.word beyond 0 4 ≠ fileMagicNumber
        ∨ frame.word beyond frameMagicOffset 8 ≠ frameDataSeqOffset + 8 then
      (.invalidDataHead, stackSeq)
    else
      let seq := UInt32.ofNat (frame.word beyond frameHeadLen 4)
      if frame.word beyond (frameHeadLen + frameDataSeqOffset) 8 ≠ checkSumCRC then
        (.err, seq)
      else
        (.ok, seq)
  else
    (.ok, stackSeq)

/-! ## The start of a file -/

/-- The first frame of a file, unless it is too long; `memcpy_s` refuses an empty name. -/
def packFileTransStartInfo (crc channelId : Int32) (destFile : Path) (fileSize : ℕ) :
    Option (List UInt8) :=
  if crc = appInfoFileFeaturesSupport then
    let dataLen := destFile.length + frameDataSeqOffset + 8
    if frameHeadLen + dataLen + 8 > proxyMaxPacketSize ∨ destFile = [] then
      none
    else
      -- the frame is 8 bytes longer than its data
      some (packHead dataLen ++ (Bytes.toLE 4 crcFrameDataSize ++ (Bytes.toLE 8 fileSize ++
        (destFile ++ List.replicate 8 0))))
  else if frameDataSeqOffset + destFile.length > proxyMaxPacketSize ∨ destFile = [] then
    none
  else
    some (Bytes.toLE 4 channelId.toUInt32.toNat ++ destFile)

/-- What the first frame of a file says. -/
structure StartInfo where
  seq : UInt32
  oneFrameLen : ℕ
  fileSize : ℕ
  startSeq : UInt32
  preStartSeq : UInt32
  filePath : Path
deriving Repr, DecidableEq

/-- The C string in the path buffer after `fileNameLen` bytes were copied to it: a name
    that fills the buffer is not terminated and goes on with `pastPath`. -/
def pathOfName (pastPath fileName : List UInt8) : Path :=
  if fileName.length < maxFilePathNameLen then cString fileName else cString (fileName ++ pastPath)

def unpackFileTransStartInfo (crc : Int32) (beyond : ℕ → UInt8) (pastPath : List UInt8)
    (frame : FileFrame) : Except SoftBusErr StartInfo :=
  if crc = appInfoFileFeaturesSupport then
    if frame.frameLength < frameHeadLen + frameDataSeqOffset then
      .error .invalidParam
    else
      let dataLen := frame.word beyond frameMagicOffset 8
      if frame.word beyond 0 4 ≠ fileMagicNumber ∨ dataLen < frameDataSeqOffset + 8 then
        .error .err
      else
        let fileNameLen := dataLen - frameDataSeqOffset - 8
        if fileNameLen > maxFilePathNameLen then
          .error .invalidParam
        else
          .ok { seq := 0
                oneFrameLen := frame.word beyond frameHeadLen 4
                fileSize := frame.word beyond (frameHeadLen + frameDataSeqOffset) 8
                startSeq := 1, preStartSeq := 1
                filePath := pathOfName pastPath
                  (Bytes.load frame.data beyond (frameHeadLen + frameDataSeqOffset + 8)
                    fileNameLen) }
  else if frame.frameLength < frameDataSeqOffset then
    .error .err
  else
    let fileNameLen := frame.frameLength - frameDataSeqOffset
    if fileNameLen > maxFilePathNameLen then
      .error .invalidParam
    else
      -- the name is read 8 bytes behind where it was written
      .ok { seq := .ofNat (frame.word beyond 0 4)
            oneFrameLen := 0, fileSize := 0, startSeq := 0, preStartSeq := 0
            filePath := pathOfName pastPath
              (Bytes.load frame.data beyond (frameDataSeqOffset + 8) fileNameLen) }

end SoftBus.Native
