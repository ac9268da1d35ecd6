import Mathlib

/-!
# DFile over TCP: reading frames

`DFileSocketRecvSP` of `nstackx_dfile_mp.c` with `SocketRecvForTcp` and `TcpSocketRecv` of
`nstackx_dfile_send.c`: a frame is gathered in `recvBuffer`, first its header and then as many bytes
as the header announces, over as many calls as the socket makes necessary.
-/

namespace SoftBus.Native

/-- `sizeof(DFileFrameHeader)` -/
def dFileFrameHeaderLen : ℕ := 8

/-- `NSTACKX_RECV_BUFFER_LEN`, the size of `recvBuffer` -/
def nstackxRecvBufferLen : ℕ := 1600

/-- `ntohs(frameHeader->length)` -/
def dFilePayloadLen (frame : List UInt8) : ℕ :=
  (frame.getD 6 0).toNat * 256 + (frame.getD 7 0).toNat

inductive NstackxRet where
  | ok
  | eAgain
  | eFailed
  | peerClose
  deriving DecidableEq

/-- A result of `SocketRecv`: a number of bytes, or an error. -/
inductive SocketRead where
  | data (len : ℕ)
  | eAgain
  | eFailed

/-- `recvBuffer` up to `recvLen`, the bytes still to come from the socket, and what
    `DFileSessionHandleReadBuffer` was called with. -/
structure DFileReceiver where
  recvBuffer : List UInt8
  stream : List UInt8
  handed : List (List UInt8)

namespace DFileReceiver

def read (s : DFileReceiver) (n : ℕ) : DFileReceiver :=
  { s with recvBuffer := s.recvBuffer ++ s.stream.take n, stream := s.stream.drop n }

/-- `TcpSocketRecv`, with the results of the socket; those it does not use are given back. -/
def tcpSocketRecv : List SocketRead → ℕ → DFileReceiver →
    NstackxRet × List SocketRead × DFileReceiver
  | reads, 0, s => (.ok, reads, s)
  | [], _ + 1, s => (.eAgain, [], s)
  | .eAgain :: reads, _ + 1, s => (.eAgain, reads, s)
  | .eFailed :: reads, _ + 1, s => (.eFailed, reads, s)
  | .data len :: reads, length + 1, s =>
    -- the socket gives no more than it is asked for and has
    let ret := min len (min (length + 1) s.stream.length)
    if ret = 0 then (.peerClose, reads, s) else tcpSocketRecv reads (length + 1 - ret) (s.read ret)

/-- `SocketRecvForTcp`; nothing is read where the source leaves out the call for no bytes -/
def socketRecvForTcp (reads : List SocketRead) (s : DFileReceiver) :
    NstackxRet × List SocketRead × DFileReceiver :=
  match tcpSocketRecv reads (dFileFrameHeaderLen - s.recvBuffer.length) s with
  | (.ok, reads, s) =>
    let payloadLen := dFilePayloadLen s.recvBuffer
    if nstackxRecvBufferLen ≤ payloadLen then (.eFailed, reads, s)
    else tcpSocketRecv reads (payloadLen - (s.recvBuffer.length - dFileFrameHeaderLen)) s
  | r => r

/-- `DFileSocketRecvSP` -/
def dFileSocketRecvSP (s : DFileReceiver) (reads : List SocketRead) : DFileReceiver :=
  match socketRecvForTcp reads s with
  | (.ok, _, s) => { s with recvBuffer := [], handed := s.handed ++ [s.recvBuffer] }
  | (_, _, s) => s

end DFileReceiver
end SoftBus.Native
