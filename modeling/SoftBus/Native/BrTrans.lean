import SoftBus.Native.Adapter
import SoftBus.Native.ProxySlice

/-!
# Frames of the BR connections

Model of the receiving part of `br_trans_manager.c`.  A connection has one buffer, whose
first `recvPos` bytes are `recvBuf` here.  `BrTransReadOneFrame` reads from the socket until
the buffer begins with a whole frame, which it takes out.  The head of a frame is converted
to the byte order of the host in the buffer, each time it is looked at.
-/

namespace SoftBus.Native

/-- `sizeof(ConnPktHead)` -/
def connPktHeadLen : ℕ := 24

/-- The sizes of `magic`, `module`, `seq`, `flag` and `len`. -/
def connPktHeadSizes : List ℕ := [4, 4, 8, 4, 4]

/-- The part of `BrConnectionInfo` that is used for receiving. -/
structure BrRecv where
  littleEndian : Bool
  recvSize : Int32
  recvBuf : List UInt8
deriving Repr, DecidableEq

namespace BrRecv

variable (conn : BrRecv)

def unpackConnPktHead : BrRecv :=
  { conn with recvBuf := procFields conn.littleEndian connPktHeadSizes conn.recvBuf }

def magic : UInt32 := hostWordAt conn.littleEndian conn.recvBuf 0

/-- `(int32_t)(head->len) + sizeof(ConnPktHead)` -/
def packLen : Int32 := (hostWordAt conn.littleEndian conn.recvBuf 20).toInt32 + 24

/-- The head of the buffer has been received and is good.  A bad head empties the buffer. -/
def receivedHeadCheck : Bool × BrRecv :=
  if conn.recvBuf.length < connPktHeadLen then (false, conn)
  else
    let conn := conn.unpackConnPktHead
    if conn.magic ≠ magicNumber then (false, { conn with recvBuf := [] })
    else if conn.packLen > conn.recvSize then (false, { conn with recvBuf := [] })
    else (true, conn)

/-- Takes a whole frame out of the buffer.  There is no copy of a length that is not positive. -/
def brRecvDataParse : Option (List UInt8) × BrRecv :=
  let r := conn.receivedHeadCheck
  let conn := r.2
  if !r.1 then (none, conn)
  else if (conn.recvBuf.length : ℤ) < conn.packLen.toInt ∨ conn.packLen ≤ 0 then (none, conn)
  else
    let len := conn.packLen.toInt.toNat
    (some (conn.recvBuf.take len), { conn with recvBuf := conn.recvBuf.drop len })

/-- The bytes that fit behind those of the buffer. -/
def space : ℕ := (conn.recvSize.toInt - conn.recvBuf.length).toNat

end BrRecv

/-- How one call of `Read` goes: it gives at most so many bytes, or fails. -/
inductive BrReadStep where
  | data (len : ℕ)
  | failed
deriving Repr, DecidableEq

/-- What a socket still has to give. -/
structure SppStream where
  bytes : List UInt8
  reads : List BrReadStep
deriving Repr, DecidableEq

/-- What a call of `Read` gives: it waits, or gives bytes, none if the socket is closed or fails. -/
inductive SppRead where
  | waiting
  | data (bytes : List UInt8)
deriving Repr, DecidableEq

def SppStream.read (size : ℕ) (stream : SppStream) : SppRead × SppStream :=
  match stream.reads with
  | [] => (.waiting, stream)
  | .failed :: reads => (.data [], { stream with reads := reads })
  | .data len :: reads =>
    (.data (stream.bytes.take (min len size)), ⟨stream.bytes.drop (min len size), reads⟩)

/-- How `BrTransReadOneFrame` ends, if it does. -/
inductive BrReadResult where
  | frame (data : List UInt8)
  | socketClosed
  | waiting
  | running
deriving Repr, DecidableEq

/-- `BrTransReadOneFrame`, for at most `fuel` rounds of its loop. -/
def brTransReadOneFrame : ℕ → BrRecv → SppStream → BrReadResult × BrRecv × SppStream
  | 0, conn, stream => (.running, conn, stream)
  | fuel + 1, conn, stream =>
    match conn.brRecvDataParse with
    | (some data, conn) => (.frame data, conn, stream)
    | (none, conn) =>
      -- without space nothing is read
      let r := if 0 < conn.space then stream.read conn.space else (.data [], stream)
      match r.1 with
      | .waiting => (.waiting, conn, r.2)
      | .data bytes =>
        if 0 < conn.space ∧ bytes = [] then (.socketClosed, conn, r.2)
        else
          match { conn with recvBuf := conn.recvBuf ++ bytes }.brRecvDataParse with
          | (some data, conn) => (.frame data, conn, r.2)
          | (none, conn) => brTransReadOneFrame fuel conn r.2

/-- Calls until one gives no frame, `calls` at most: the frames, and what is left. -/
def brReadFrames (fuel : ℕ) : ℕ → BrRecv → SppStream → List (List UInt8) × BrRecv × SppStream
  | 0, conn, stream => ([], conn, stream)
  | calls + 1, conn, stream =>
    match brTransReadOneFrame fuel conn stream with
    | (.frame data, conn, stream) =>
      let r := brReadFrames fuel calls conn stream
      (data :: r.1, r.2)
    | (_, conn, stream) => ([], conn, stream)

end SoftBus.Native
