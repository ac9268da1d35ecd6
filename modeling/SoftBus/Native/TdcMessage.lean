import SoftBus.Native.Adapter
import SoftBus.Native.ProxySlice

/-!
# Packets of the TCP direct channels

Model of `client_trans_tcp_direct_message.c` for one channel, with what
`client_trans_tcp_direct_listener.c` does when the socket can be read.  The buffer of a
channel grows to the size of a packet that does not fit; it is `size` bytes large, and `data`
are the bytes before `w`.  The head of a packet is converted to the byte order of the host in
the buffer, each time it is looked at.
-/

namespace SoftBus.Native

/-- `DC_DATA_HEAD_SIZE` -/
def dcDataHeadSize : ℕ := 16

/-- `MIN_BUF_LEN` -/
def minBufLen : UInt32 := 1024 + 16 + 28

/-- The flags with which `TransTdcPackData` is called. -/
inductive TdcFlag where
  | bytes
  | ack
  | message
deriving Repr, DecidableEq

def TdcFlag.code : TdcFlag → UInt32
  | .bytes => 0
  | .ack => 1
  | .message => 2

/-- Encryption with the session key of a channel. -/
structure TdcCipher where
  encrypt : Int32 → List UInt8 → List UInt8
  decrypt : List UInt8 → Option (List UInt8)
  decrypt_encrypt : ∀ seq data, decrypt (encrypt seq data) = some data
  length_encrypt : ∀ seq data, (encrypt seq data).length = data.length + overheadLen

/-! ## Sending -/

/-- The number and the data of a packet; those of an acknowledgement are the number it is for,
    which is given in the byte order of the host. -/
def tdcFinal (littleEndian : Bool) (sequence : Int32) (data : List UInt8) (flag : TdcFlag) :
    Int32 × List UInt8 :=
  match flag with
  | .ack =>
    let seq := hostWordAt littleEndian data 0
    (seq.toInt32, Bytes.toBE 4 seq.toNat)
  | .bytes | .message => (sequence, data)

/-- The head of a packet as it is sent. -/
def packTcpDataPacketHead (seq : Int32) (flag : TdcFlag) (dataLen : UInt32) : List UInt8 :=
  Bytes.toLE 4 magicNumber.toNat ++ (Bytes.toLE 4 seq.toUInt32.toNat ++
    (Bytes.toLE 4 flag.code.toNat ++ Bytes.toLE 4 dataLen.toNat))

/-- Nothing cannot be encrypted. -/
def transTdcPackData (cipher : TdcCipher) (littleEndian : Bool) (sequence : Int32) (data : List UInt8)
    (flag : TdcFlag) : Option (List UInt8) :=
  let dataLen := UInt32.ofNat data.length + 28
  if !softBusMalloc (dataLen + 16) then none
  else if data.length = 0 then none
  else
    let final := tdcFinal littleEndian sequence data flag
    some (packTcpDataPacketHead final.1 flag dataLen ++ cipher.encrypt final.1 final.2)

/-! ## Receiving -/

/-- What `TransTdcProcessDataByFlag` is called with. -/
structure TdcPacket where
  flag : UInt32
  seq : Int32
  plain : List UInt8
deriving Repr, DecidableEq

/-- `ClientDataBuf` -/
structure ClientDataBuf where
  size : UInt32
  data : List UInt8
deriving Repr, DecidableEq

/-- A channel: its buffer until it is closed, the packets it has processed, and the sizes with
    which it has called `recv`.  `accepts n` is what the session answers to packet `n`. -/
structure TdcChannel where
  littleEndian : Bool
  dataBufferMaxLen : UInt32
  accepts : ℕ → Bool
  node : Option ClientDataBuf
  processed : List TdcPacket
  recvSizes : List ℤ

inductive TdcRet where
  | ok
  | dataNotEnough
  | err
  | running
deriving Repr, DecidableEq

namespace TdcChannel

/-- A new channel. -/
def new (littleEndian : Bool) (dataBufferMaxLen : UInt32) (accepts : ℕ → Bool) : TdcChannel :=
  ⟨littleEndian, dataBufferMaxLen, accepts, some ⟨minBufLen, []⟩, [], []⟩

def setNode (node : ClientDataBuf) (ch : TdcChannel) : TdcChannel := { ch with node := some node }

/-- `TransTdcProcessDataByFlag`: acknowledgements are always taken, packets with other flags
    never. -/
def transTdcProcessDataByFlag (packet : TdcPacket) (ch : TdcChannel) : Bool × TdcChannel :=
  (packet.flag = TdcFlag.ack.code ∨
      (packet.flag = TdcFlag.bytes.code ∨ packet.flag = TdcFlag.message.code) ∧
        ch.accepts ch.processed.length,
    { ch with processed := ch.processed ++ [packet] })

/-- The packet at the begin of the buffer, whose head is in the byte order of the host. -/
def transTdcProcessData (cipher : TdcCipher) (node : ClientDataBuf) (ch : TdcChannel) : Bool × TdcChannel :=
  let seqNum := (hostWordAt ch.littleEndian node.data 4).toInt32
  let flag := hostWordAt ch.littleEndian node.data 8
  let dataLen := hostWordAt ch.littleEndian node.data 12
  if !softBusCalloc (dataLen - 28) then (false, ch)
  else
    match cipher.decrypt ((node.data.drop dcDataHeadSize).take dataLen.toNat) with
    | none => (false, ch)
    | some plain =>
      ch.setNode { node with data := node.data.drop (dcDataHeadSize + dataLen.toNat) }
        |>.transTdcProcessDataByFlag ⟨flag, seqNum, plain⟩

/-- The buffer gets the size `pkgLen`. -/
def transResizeDataBuffer (node : ClientDataBuf) (pkgLen : UInt32) (ch : TdcChannel) : TdcRet × TdcChannel :=
  if !softBusCalloc pkgLen then (.err, ch)
  else if memcpyS pkgLen.toNat node.data then (.ok, ch.setNode { node with size := pkgLen })
  else (.err, ch)

/-- One round of the loop of `TransTdcProcAllData`: how it ends, if it does. -/
def transTdcProcRound (cipher : TdcCipher) (ch : TdcChannel) : Option TdcRet × TdcChannel :=
  match ch.node with
  | none => (some .err, ch)
  | some node =>
    if node.data.length < dcDataHeadSize then (some .dataNotEnough, ch)
    else
      let node := { node with data := procFields ch.littleEndian [4, 4, 4, 4] node.data }
      let ch := ch.setNode node
      let pkgLen := hostWordAt ch.littleEndian node.data 12 + 16
      if hostWordAt ch.littleEndian node.data 0 ≠ magicNumber then (some .err, ch)
      else if pkgLen > ch.dataBufferMaxLen then (some .err, ch)
      else if pkgLen > node.size then
        let r := ch.transResizeDataBuffer node pkgLen
        (some r.1, r.2)
      else if node.data.length < pkgLen.toNat then (some .dataNotEnough, ch)
      else
        let r := ch.transTdcProcessData cipher node
        if r.1 then (none, r.2) else (some .err, r.2)

/-- `TransTdcProcAllData`, for at most `fuel` rounds. -/
def transTdcProcAllData (cipher : TdcCipher) : ℕ → TdcChannel → TdcRet × TdcChannel
  | 0, ch => (.running, ch)
  | fuel + 1, ch =>
    match ch.transTdcProcRound cipher with
    | (some ret, ch) => (ret, ch)
    | (none, ch) => transTdcProcAllData cipher fuel ch

/-- `ClientTdcOnDataEvent`: the socket can be read, and `recv` gives up to `len` of the bytes that
    have come.  There are fewer rounds than bytes in the buffer.  A failure closes the channel. -/
def clientTdcOnDataEvent (cipher : TdcCipher) (len : ℕ) (bytes : List UInt8) (ch : TdcChannel) :
    List UInt8 × TdcChannel :=
  match ch.node with
  | none => (bytes, ch)
  | some node =>
    let size := (node.size.toNat : ℤ) - node.data.length
    let ch := { ch with recvSizes := ch.recvSizes ++ [size] }
    let n := min len size.toNat
    let data := node.data ++ bytes.take n
    let r :=
      if bytes.take n = [] then (.err, ch)
      else transTdcProcAllData cipher (data.length + 1) (ch.setNode { node with data := data })
    (bytes.drop n,
      match r.1 with
      | .ok | .dataNotEnough => r.2
      | .err | .running => { r.2 with node := none })

/-- What the socket gives at each event, as long as there is something. -/
def receiveAll (cipher : TdcCipher) : List ℕ → List UInt8 → TdcChannel → List UInt8 × TdcChannel
  | [], bytes, ch => (bytes, ch)
  | len :: lens, bytes, ch =>
    if bytes = [] then (bytes, ch)
    else
      let r := ch.clientTdcOnDataEvent cipher len bytes
      receiveAll cipher lens r.1 r.2

end TdcChannel
end SoftBus.Native
