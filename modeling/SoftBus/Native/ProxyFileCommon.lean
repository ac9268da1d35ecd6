import Mathlib
import SoftBus.ForStd.Bytes

/-!
# Helpers of the proxy file transfer

Model of `client_trans_proxy_file_common.c`: the frame types, the checksum of a
frame, the checks on paths and the list of file names that ends a transfer.

A path is the list of its bytes without the terminating NUL.  What the file system
answers (`realpath`, `fcntl`) is a parameter.
-/

namespace SoftBus.Native

/-! ## Constants and codes -/

def maxFilePathNameLen : ℕ := 512

def invalidFd : Int32 := -1

/-- The return codes that the file transfer uses (`softbus_error_code.h`). -/
inductive SoftBusErr where
  | ok
  | err
  | timout
  | invalidParam
  | memErr
  | mallocErr
  | invalidDataHead
  | fileErr
  | alreadyExisted
  | notFind
  | alreadyTriggered
  | fileBusy
  | transInvalidDataLength
deriving Repr, DecidableEq

/-- The 32-bit word that stands for a code in a result frame. -/
def SoftBusErr.code : SoftBusErr → UInt32
  | .ok => 0
  | .err => 0xFFFFFFFF
  | .timout => 0xF0010001
  | .invalidParam => 0xF0010002
  | .memErr => 0xF0010003
  | .mallocErr => 0xF001000A
  | .invalidDataHead => 0xF0010014
  | .fileErr => 0xF0010016
  | .alreadyExisted => 0xF0010019
  | .notFind => 0xF001001C
  | .alreadyTriggered => 0xF001001D
  | .fileBusy => 0xF001001E
  | .transInvalidDataLength => 0xF004000B

/-- The frame types of a file session; `other` is any number that is none of them. -/
inductive FrameType where
  | first
  | ongoine
  | last
  | onlyone
  | allFileSent
  | crcCheck
  | result
  | ackRequestSent
  | ackResponseSent
  | other (type : Int32)
deriving Repr, DecidableEq

/-- The type of frame `index` of a file that is sent in `frameNumber` frames. -/
def frameIndexToType (index frameNumber : ℕ) : FrameType :=
  if index = 0 then
    .first
  else if index = 1 ∧ frameNumber = 2 then
    .onlyone
  else if index + 1 = frameNumber then
    .last
  else
    .ongoine

/-! ## The checksum of a frame -/

def auchCRCHi : Array UInt8 := #[
  0x00, 0xC1, 0x81, 0x40, 0x01, 0xC0, 0x80, 0x41, 0x01, 0xC0, 0x80, 0x41, 0x00, 0xC1, 0x81, 0x40,
  0x01, 0xC0, 0x80, 0x41, 0x00, 0xC1, 0x81, 0x40, 0x00, 0xC1, 0x81, 0x40, 0x01, 0xC0, 0x80, 0x41,
  0x01, 0xC0, 0x80, 0x41, 0x00, 0xC1, 0x81, 0x40, 0x00, 0xC1, 0x81, 0x40, 0x01, 0xC0, 0x80, 0x41,
  0x00, 0xC1, 0x81, 0x40, 0x01, 0xC0, 0x80, 0x41, 0x01, 0xC0, 0x80, 0x41, 0x00, 0xC1, 0x81, 0x40,
  0x01, 0xC0, 0x80, 0x41, 0x00, 0xC1, 0x81, 0x40, 0x00, 0xC1, 0x81, 0x40, 0x01, 0xC0, 0x80, 0x41,
  0x00, 0xC1, 0x81, 0x40, 0x01, 0xC0, 0x80, 0x41, 0x01, 0xC0, 0x80, 0x41, 0x00, 0xC1, 0x81, 0x40,
  0x00, 0xC1, 0x81, 0x40, 0x01, 0xC0, 0x80, 0x41, 0x01, 0xC0, 0x80, 0x41, 0x00, 0xC1, 0x81, 0x40,
  0x01, 0xC0, 0x80, 0x41, 0x00, 0xC1, 0x81, 0x40, 0x00, 0xC1, 0x81, 0x40, 0x01, 0xC0, 0x80, 0x41,
  0x01, 0xC0, 0x80, 0x41, 0x00, 0xC1, 0x81, 0x40, 0x00, 0xC1, 0x81, 0x40, 0x01, 0xC0, 0x80, 0x41,
  0x00, 0xC1, 0x81, 0x40, 0x01, 0xC0, 0x80, 0x41, 0x01, 0xC0, 0x80, 0x41, 0x00, 0xC1, 0x81, 0x40,
  0x00, 0xC1, 0x81, 0x40, 0x01, 0xC0, 0x80, 0x41, 0x01, 0xC0, 0x80, 0x41, 0x00, 0xC1, 0x81, 0x40,
  0x01, 0xC0, 0x80, 0x41, 0x00, 0xC1, 0x81, 0x40, 0x00, 0xC1, 0x81, 0x40, 0x01, 0xC0, 0x80, 0x41,
  0x00, 0xC1, 0x81, 0x40, 0x01, 0xC0, 0x80, 0x41, 0x01, 0xC0, 0x80, 0x41, 0x00, 0xC1, 0x81, 0x40,
  0x01, 0xC0, 0x80, 0x41, 0x00, 0xC1, 0x81, 0x40, 0x00, 0xC1, 0x81, 0x40, 0x01, 0xC0, 0x80, 0x41,
  0x01, 0xC0, 0x80, 0x41, 0x00, 0xC1, 0x81, 0x40, 0x00, 0xC1, 0x81, 0x40, 0x01, 0xC0, 0x80, 0x41,
  0x00, 0xC1, 0x81, 0x40, 0x01, 0xC0, 0x80, 0x41, 0x01, 0xC0, 0x80, 0x41, 0x00, 0xC1, 0x81, 0x40]

def auchCRCLo : Array UInt8 := #[
  0x00, 0xC0, 0xC1, 0x01, 0xC3, 0x03, 0x02, 0xC2, 0xC6, 0x06, 0x07, 0xC7, 0x05, 0xC5, 0xC4, 0x04,
  0xCC, 0x0C, 0x0D, 0xCD, 0x0F, 0xCF, 0xCE, 0x0E, 0x0A, 0xCA, 0xCB, 0x0B, 0xC9, 0x09, 0x08, 0xC8,
  0xD8, 0x18, 0x19, 0xD9, 0x1B, 0xDB, 0xDA, 0x1A, 0x1E, 0xDE, 0xDF, 0x1F, 0xDD, 0x1D, 0x1C, 0xDC,
  0x14, 0xD4, 0xD5, 0x15, 0xD7, 0x17, 0x16, 0xD6, 0xD2, 0x12, 0x13, 0xD3, 0x11, 0xD1, 0xD0, 0x10,
  0xF0, 0x30, 0x31, 0xF1, 0x33, 0xF3, 0xF2, 0x32, 0x36, 0xF6, 0xF7, 0x37, 0xF5, 0x35, 0x34, 0xF4,
  0x3C, 0xFC, 0xFD, 0x3D, 0xFF, 0x3F, 0x3E, 0xFE, 0xFA, 0x3A, 0x3B, 0xFB, 0x39, 0xF9, 0xF8, 0x38,
  0x28, 0xE8, 0xE9, 0x29, 0xEB, 0x2B, 0x2A, 0xEA, 0xEE, 0x2E, 0x2F, 0xEF, 0x2D, 0xED, 0xEC, 0x2C,
  0xE4, 0x24, 0x25, 0xE5, 0x27, 0xE7, 0xE6, 0x26, 0x22, 0xE2, 0xE3, 0x23, 0xE1, 0x21, 0x20, 0xE0,
  0xA0, 0x60, 0x61, 0xA1, 0x63, 0xA3, 0xA2, 0x62, 0x66, 0xA6, 0xA7, 0x67, 0xA5, 0x65, 0x64, 0xA4,
  0x6C, 0xAC, 0xAD, 0x6D, 0xAF, 0x6F, 0x6E, 0xAE, 0xAA, 0x6A, 0x6B, 0xAB, 0x69, 0xA9, 0xA8, 0x68,
  0x78, 0xB8, 0xB9, 0x79, 0xBB, 0x7B, 0x7A, 0xBA, 0xBE, 0x7E, 0x7F, 0xBF, 0x7D, 0xBD, 0xBC, 0x7C,
  0xB4, 0x74, 0x75, 0xB5, 0x77, 0xB7, 0xB6, 0x76, 0x72, 0xB2, 0xB3, 0x73, 0xB1, 0x71, 0x70, 0xB0,
  0x50, 0x90, 0x91, 0x51, 0x93, 0x53, 0x52, 0x92, 0x96, 0x56, 0x57, 0x97, 0x55, 0x95, 0x94, 0x54,
  0x9C, 0x5C, 0x5D, 0x9D, 0x5F, 0x9F, 0x9E, 0x5E, 0x5A, 0x9A, 0x9B, 0x5B, 0x99, 0x59, 0x58, 0x98,
  0x88, 0x48, 0x49, 0x89, 0x4B, 0x8B, 0x8A, 0x4A, 0x4E, 0x8E, 0x8F, 0x4F, 0x8D, 0x4D, 0x4C, 0x8C,
  0x44, 0x84, 0x85, 0x45, 0x87, 0x47, 0x46, 0x86, 0x82, 0x42, 0x43, 0x83, 0x41, 0x81, 0x80, 0x40]

/-- The two halves of the running checksum. -/
structure CrcState where
  uchCRCHi : UInt8
  uchCRCLo : UInt8

def CrcState.step (s : CrcState) (b : UInt8) : CrcState :=
  let uIndex := s.uchCRCLo ^^^ b
  { uchCRCLo := s.uchCRCHi ^^^ auchCRCHi.getD uIndex.toNat 0, uchCRCHi := auchCRCLo.getD uIndex.toNat 0 }

/-- The Modbus RTU checksum of a message. -/
def rtuCrc (msg : List UInt8) : UInt16 :=
  let s := msg.foldl CrcState.step ⟨0xFF, 0xFF⟩
  (s.uchCRCHi.toUInt16 <<< 8) ||| s.uchCRCLo.toUInt16

/-! ## Paths -/

abbrev Path := List UInt8

def pathSeparator : UInt8 := 47

/-- The C string that starts a buffer. -/
def cString (buffer : List UInt8) : Path := buffer.takeWhile (· ≠ 0)

/-- `strstr(path, "..") != NULL` -/
def hasDotDot (path : Path) : Bool := decide ([46, 46] <:+: path)

def isPathValid (filePath : Path) : Bool :=
  if filePath.length = 0 ∨ filePath.length > maxFilePathNameLen - 1 then
    false
  else if filePath.getLast? = some pathSeparator then
    false
  else
    true

def getAndCheckRealPath (realPath : Path → Option Path) (filePath : Path) : Option Path :=
  match realPath filePath with
  | none => none
  | some absPath => if absPath.length > maxFilePathNameLen - 1 then none else some absPath

def checkDestFilePathValid (destFile : Path) : Bool :=
  if destFile.length = 0 ∨ destFile.length > maxFilePathNameLen
      ∨ destFile.head? = some pathSeparator then
    false
  else if hasDotDot destFile then
    false
  else
    true

/-- The number of bytes up to and including the last separator. -/
def dirLength (path : Path) : ℕ :=
  path.length - (path.reverse.takeWhile (· ≠ pathSeparator)).length

def transGetFileName (path : Path) : Option Path :=
  if path.length = 0 then
    none
  else if path.getLast? = some pathSeparator then
    none
  else
    some (path.drop (dirLength path))

/-! ## The list of file names -/

/-- `sizeof(struct FileListItem)`: the index and the length of a name. -/
def fileListItemSize : ℕ := 8

def fileListItem (index : ℕ) (fileName : Path) : List UInt8 :=
  Bytes.toBE 4 index ++ Bytes.toBE 4 fileName.length ++ fileName

def fileListToBuffer (destFile : List Path) : Option (List UInt8) :=
  if destFile.isEmpty then
    none
  else if destFile.any fun name => name.length = 0 ∨ name.length > maxFilePathNameLen then
    none
  else
    some (destFile.zipIdx.flatMap fun item => fileListItem item.2 item.1)

/-- The loop of `BufferToFileList` on the bytes from `offset` on: the number of names
    and the first of them. -/
def bufferToFileListLoop (rest : List UInt8) (count : ℕ) (firstFile : Path) : Option (Path × ℕ) :=
  if rest.length ≤ fileListItemSize then
    some (firstFile, count)
  else
    let fileNameLength := Bytes.ofBE ((rest.drop 4).take 4)
    let names := rest.drop fileListItemSize
    if fileNameLength > names.length ∨ fileNameLength > maxFilePathNameLen then
      none
    else
      bufferToFileListLoop (names.drop fileNameLength) (count + 1)
        (if count = 0 then names.take fileNameLength else firstFile)
termination_by rest.length
decreasing_by simp only [fileListItemSize, List.length_drop] at *; omega

def bufferToFileList (buffer : List UInt8) : Option (Path × ℕ) :=
  if buffer.length < fileListItemSize then
    none
  else
    (bufferToFileListLoop buffer 0 []).map fun r => (cString r.1, r.2)

/-- The bytes from `off` on; none if they do not all lie in the buffer. -/
def readBytes (buffer : List UInt8) (off n : ℕ) : Option (List UInt8) :=
  if off + n ≤ buffer.length then some ((buffer.drop off).take n) else none

/-- The loop of `BufferToFileList` with its offset, for at most `fuel` names; it fails if it goes on
    then or reads outside the buffer. -/
def bufferToFileListAt (buffer : List UInt8) : ℕ → UInt32 → ℕ → Path → Option (Option (Path × ℕ))
  | 0, _, _, _ => none
  | fuel + 1, offset, count, firstFile => do
    if offset.toNat < buffer.length - fileListItemSize then
      let fileNameLength := Bytes.ofBE (← readBytes buffer (offset.toNat + 4) 4)
      let offset := offset + .ofNat fileListItemSize
      if fileNameLength > buffer.length - offset.toNat ∨ fileNameLength > maxFilePathNameLen then return none
      let firstFile ← if count = 0 then readBytes buffer offset.toNat fileNameLength else some firstFile
      bufferToFileListAt buffer fuel (offset + .ofNat fileNameLength) (count + 1) firstFile
    else return some (firstFile, count)

/-! ## File locks -/

/-- `fcntl` tells whether an attempt gets the lock. -/
def tryFileLock (fcntl : ℕ → Bool) (fd : Int32) (retryTimes : ℕ) : SoftBusErr :=
  if fd < 0 then
    .err
  else if (List.range retryTimes).any fcntl then
    .ok
  else
    .fileBusy

end SoftBus.Native
