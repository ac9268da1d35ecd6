import SoftBus.ForStd.Bytes
import SoftBus.ForStd.FirstMatch
import SoftBus.Native.ProxyMessage

/-!
# Connections under the proxy channels

Model of the connection list of `softbus_proxychannel_transceiver.c`
(`g_proxyConnectionList`).  An item starts in `PYH_CONNECTING` with connection id 0 and the
id of its request, and gets its connection id when the request succeeds.  `ref` counts the
channels that use it.  Every operation searches the list from its head, where new items
are put.
-/

namespace SoftBus.Native

/-- `ProxyChannelStatus`, which is also the state of a connection item. -/
inductive ProxyChannelStatus where
  | pyhConnected
  | pyhConnecting
  | handshakeing
  | keepliveing
  | timeout
  | handshakeTimeout
  | completed
deriving Repr, DecidableEq

/-! ## Connection options -/

/-- `ConnectType`; `invalid` is for the numbers that name no type. -/
inductive ConnectType where
  | tcp
  | br
  | ble
  | p2p
  | invalid
deriving Repr, DecidableEq

def ConnectType.code : ConnectType → ℕ
  | .invalid => 0
  | .tcp => 1
  | .br => 2
  | .ble => 3
  | .p2p => 4

def ConnectType.ofCode (code : ℕ) : ConnectType :=
  ([ConnectType.tcp, .br, .ble, .p2p].find? (·.code = code)).getD .invalid

/-- `ConnectOption`.  `brMac`, `bleMac` and the socket's `addr` lie at one place of a union,
    so `addr` stands for all three, as a string without its final zero; `port` and
    `protocol` are those of the socket. -/
structure ConnectOption where
  type : ConnectType
  addr : List UInt8
  port : Int32
  protocol : UInt64
deriving Repr, DecidableEq

/-- `ConnectionInfo`, with the buffer of its address. -/
structure ConnectionInfo where
  isAvailable : ℕ
  type : ConnectType
  addr : List UInt8
  protocol : UInt64
deriving Repr, DecidableEq

section
variable (littleEndian : Bool)

/-- The bytes of a 32-bit number in memory. -/
def bytesOfInt (v : ℕ) : List UInt8 :=
  if littleEndian then Bytes.toLE 4 v else Bytes.toBE 4 v

def intOfBytes (bs : List UInt8) : Int32 :=
  (UInt32.ofNat (if littleEndian then Bytes.ofLE bs else Bytes.ofBE bs)).toInt32

/-- What `memcpy_s(&item->connInfo, …, &info, sizeof(ConnectOption))` makes of a
    `ConnectionInfo`: the two structures do not agree.  The type is read where
    `isAvailable` stands, the address where `type` stands, and the port in the last bytes
    of the address. -/
def ConnectionInfo.copied (info : ConnectionInfo) : ConnectOption where
  type := .ofCode info.isAvailable
  addr := (bytesOfInt littleEndian info.type.code).takeWhile (· ≠ 0)
  port := intOfBytes littleEndian ((info.addr.drop 40).take 4)
  protocol := info.protocol

end

/-! ## The connection list -/

/-- `ProxyConnInfo` -/
structure ProxyConnInfo where
  requestId : UInt32
  connInfo : ConnectOption
  connId : UInt32
  ref : Int
  state : ProxyChannelStatus
deriving Repr, DecidableEq

/-- The item of a request that is under way. -/
def ProxyConnInfo.waitsFor (reqId : UInt32) (item : ProxyConnInfo) : Bool :=
  item.requestId = reqId ∧ item.state = .pyhConnecting

/-- The item of a connection. -/
def ProxyConnInfo.hasConnId (connId : UInt32) (item : ProxyConnInfo) : Bool := item.connId = connId

def transDelConnByReqId (reqId : UInt32) (conns : List ProxyConnInfo) : List ProxyConnInfo :=
  conns.eraseP (·.waitsFor reqId)

section
variable (connId : UInt32) (conns : List ProxyConnInfo)

def transDelConnByConnId : List ProxyConnInfo :=
  conns.eraseP (·.hasConnId connId)

/-- `SOFTBUS_OK` means that nobody uses the connection any more. -/
def transDecConnRefByConnId : TransErr × List ProxyConnInfo :=
  match conns.find? (·.hasConnId connId) with
  | none => (.ok, conns)
  | some item =>
    if item.ref - 1 ≤ 0 then
      (.ok, conns.eraseP (·.hasConnId connId))
    else
      (.err, conns.modifyFirst (·.hasConnId connId) fun item => { item with ref := item.ref - 1 })

def transAddConnRefByConnId : List ProxyConnInfo :=
  conns.modifyFirst (·.hasConnId connId) fun item => { item with ref := item.ref + 1 }

end

/-- The item that `TransAddConnItem` takes for the same connection: only the strings at
    the start of the unions are compared. -/
def transFindSameAddr (option : ConnectOption) (conns : List ProxyConnInfo) : Option ProxyConnInfo :=
  conns.find? fun item => item.connInfo.addr = option.addr

def transCreateConnByConnId (littleEndian : Bool) (connId : UInt32) (info : ConnectionInfo)
    (conns : List ProxyConnInfo) : List ProxyConnInfo :=
  match conns.find? (·.hasConnId connId) with
  | some _ => transAddConnRefByConnId connId conns
  | none =>
    { requestId := 0, connInfo := info.copied littleEndian, connId := connId, ref := 1,
      state := .pyhConnected } :: conns

/-- The comparison of `TransGetConn`. -/
def ConnectOption.sameConn (option item : ConnectOption) : Bool :=
  if item.type ≠ option.type then false
  else
    match option.type with
    | .tcp => option.protocol = item.protocol ∧ option.addr = item.addr ∧ option.port = item.port
    | .br => option.addr = item.addr
    | .ble => option.addr = item.addr
    | _ => false

def transGetConn (option : ConnectOption) (conns : List ProxyConnInfo) : Option ProxyConnInfo :=
  conns.find? fun item => option.sameConn item.connInfo

def transSetConnStateByReqId (reqId connId : UInt32) (state : ProxyChannelStatus)
    (conns : List ProxyConnInfo) : List ProxyConnInfo :=
  conns.modifyFirst (·.waitsFor reqId) fun item =>
    { item with state := state, connId := connId, requestId := 0 }

end SoftBus.Native
