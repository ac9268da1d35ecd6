import SoftBus.ForStd.Bytes

/-!
# Messages of the proxy channels

Model of the message head of `softbus_proxychannel_message.c`.  A message starts with 8
bytes: version and type, cipher flags, the id of the channel on the device that sends it,
the id on the device that receives it.  Ids travel with the low byte first, so the sender's
`myId` is what the receiver reads as `peerId`.
-/

namespace SoftBus.Native

/-- The return codes that the proxy channels use (`softbus_error_code.h`). -/
inductive TransErr where
  | ok
  | err
  | timout
  | invalidParam
  | memErr
  | mallocErr
  | noInit
  | sliceError
  | decryptErr
  | encryptErr
  | sendQueueFull
  | invalidDataLength
  | alreadyPending
  | proxyPackMsgErr
  | proxySendMsgErr
  | proxySessEncryptErr
  | proxyInvalidSliceHead
  | proxyAssemblePackNoInvalid
  | proxyAssemblePackExceedLength
  | proxyAssemblePackDataNull
  | proxySendChannelIdInvalid
  | proxyChannelStatusInvalid
  | proxyChannelNotFound
  | proxyDelChannelIdInvalid
  /-- the answer of `memcpy_s` for a buffer of no bytes -/
  | erange
deriving Repr, DecidableEq

/-- `MsgType` -/
inductive MsgType where
  | normal
  | handshake
  | handshakeAck
  | reset
  | keepalive
  | keepaliveAck
deriving Repr, DecidableEq

def MsgType.code : MsgType → UInt8
  | .normal => 0
  | .handshake => 1
  | .handshakeAck => 2
  | .reset => 3
  | .keepalive => 4
  | .keepaliveAck => 5

/-- The type with this number, if it is below `PROXYCHANNEL_MSG_TYPE_MAX`. -/
def MsgType.ofCode (code : UInt8) : Option MsgType :=
  [MsgType.normal, .handshake, .handshakeAck, .reset, .keepalive, .keepaliveAck].find?
    (·.code = code)

/-- `VERSION` -/
def proxyVersion : UInt8 := 1

def versionShift : UInt8 := 4

def fourBitMask : UInt8 := 0xF

def proxyChannelHeadLen : ℕ := 8

/-- `ENCRYPTED` -/
def chiperEncrypted : UInt8 := 1

/-- `ProxyMessageHead` -/
structure ProxyMessageHead where
  type : UInt8
  chiper : UInt8
  myId : Int16
  peerId : Int16
  reserved : Int16
deriving Repr, DecidableEq

/-- The head of a message of the given type. -/
def ProxyMessageHead.mkType (type : MsgType) (chiper : UInt8) (myId peerId : Int16) :
    ProxyMessageHead where
  type := (type.code &&& fourBitMask) ||| (proxyVersion <<< versionShift)
  chiper := chiper
  myId := myId
  peerId := peerId
  reserved := 0

/-- The bytes of a head after `PackProxyMessageHead`. -/
def packProxyMessageHead (head : ProxyMessageHead) : List UInt8 :=
  head.type :: head.chiper :: (Bytes.toLE 2 head.myId.toUInt16.toNat ++
    (Bytes.toLE 2 head.peerId.toUInt16.toNat ++ Bytes.toLE 2 head.reserved.toUInt16.toNat))

/-- What `TransProxyParseMessageHead` reads from a message: the ids are those of the
    receiving device. -/
structure ParsedHead where
  type : MsgType
  chiper : UInt8
  myId : Int16
  peerId : Int16
deriving Repr, DecidableEq

/-- The 16-bit id at `off`. -/
def idAt (data : List UInt8) (off : ℕ) : Int16 :=
  (UInt16.ofNat (Bytes.ofLE ((data.drop off).take 2))).toInt16

/-- `TransProxyParseMessageHead`, with the length check of `TransProxyParseMessage`. -/
def transProxyParseMessageHead (data : List UInt8) : Option (ParsedHead × List UInt8) :=
  if data.length ≤ proxyChannelHeadLen then
    none
  else
    let firstByte := data.getD 0 0
    let version := (firstByte >>> versionShift) &&& fourBitMask
    if version ≠ proxyVersion then
      none
    else
      match MsgType.ofCode (firstByte &&& fourBitMask) with
      | none => none
      | some type =>
        some (⟨type, data.getD 1 0, idAt data 4, idAt data 2⟩, data.drop proxyChannelHeadLen)

end SoftBus.Native
