import SoftBus.Native.ProxyConn

/-!
# The proxy channel list

Model of the channel list of `softbus_proxychannel_manager.c` (`g_proxyChannelList`): the
allocation of channel ids, and the searches by channel id, by the two ids of a message, by
request and by connection.  New channels are put at the head of the list, and every search
starts there.
-/

namespace SoftBus.Native

/-! ## Channels -/

/-- `AppType` -/
inductive AppType where
  | notCare
  | normal
  | auth
  | inner
deriving Repr, DecidableEq

/-- The part of `AppInfoData` that the channels read. -/
structure AppInfoData where
  deviceId : String
  pkgName : String
  sessionName : String
deriving Repr, DecidableEq

/-- The part of `AppInfo` that the channels read. -/
structure AppInfo where
  appType : AppType
  myData : AppInfoData
  peerData : AppInfoData
  encrypt : Int32
  algorithm : Int32
  crc : Int32
deriving Repr, DecidableEq

/-- `ProxyChannelInfo`.  `uid` and `option` are not in the source: the one tells channels
    apart that have had the same id one after the other, the other is the option that a
    local channel was opened with. -/
structure ProxyChannelInfo where
  channelId : Int32
  reqId : UInt32
  isServer : Bool
  status : ProxyChannelStatus
  timeout : UInt16
  myId : Int16
  peerId : Int16
  connId : UInt32
  type : ConnectType
  identity : String
  appInfo : AppInfo
  chiper : UInt8
  uid : ℕ
  option : Option ConnectOption
deriving Repr, DecidableEq

/-- `PROXY_CHANNEL_CONTROL_TIMEOUT` -/
def proxyChannelControlTimeout : UInt16 := 19

/-- `PROXY_CHANNEL_BT_IDLE_TIMEOUT` -/
def proxyChannelBtIdleTimeout : UInt16 := 240

/-- `INVALID_CHANNEL_ID` -/
def invalidChannelId : Int16 := -1

/-! ## Channel ids -/

def myIdIsValid (myId : Int16) (channels : List ProxyChannelInfo) : Bool :=
  channels.all (·.myId ≠ myId)

def endianSwap16 (littleEndian : Bool) (num : UInt16) : UInt16 :=
  if !littleEndian then num
  else ((num &&& 0xFF00) >>> 8) ||| ((num &&& 0x00FF) <<< 8)

/-- `MYID_MAX_NUM` -/
def myIdMaxNum : ℕ := 100

/-- The id that a value of the counter stands for. -/
def myIdOfCounter (littleEndian : Bool) (counter : UInt16) : Int16 :=
  (endianSwap16 littleEndian (counter % 100 + 1)).toInt16

/-- The loop of `TransProxyGetNewMyId`: at most `cnt` more numbers are tried. -/
def getNewMyIdLoop (littleEndian : Bool) (channels : List ProxyChannelInfo) :
    ℕ → UInt16 → Int16 × UInt16
  | 0, counter => (invalidChannelId, counter)
  | cnt + 1, counter =>
    let id := myIdOfCounter littleEndian (counter + 1)
    if myIdIsValid id channels then (id, counter + 1)
    else getNewMyIdLoop littleEndian channels cnt (counter + 1)

/-- The new id, and the counter `myId` after it. -/
def transProxyGetNewMyId (littleEndian : Bool) (channels : List ProxyChannelInfo)
    (counter : UInt16) : Int16 × UInt16 :=
  getNewMyIdLoop littleEndian channels myIdMaxNum counter

/-! ## Searches -/

def chanIsEqual (a : ProxyChannelInfo) (myId peerId : Int16) (identity : String) : Bool :=
  a.myId = myId ∧ a.peerId = peerId ∧ a.identity = identity

def resetChanIsEqual (a : ProxyChannelInfo) (myId peerId : Int16) (identity : String) : Bool :=
  (a.status = .handshakeing ∧ a.myId = myId ∧ a.identity = identity) ∨
    (a.myId = myId ∧ a.peerId = peerId ∧ a.identity = identity)

/-- The channel of an acknowledged handshake, as it is afterwards. -/
def transProxyUpdateAckInfo (myId peerId : Int16) (identity : String) (info : AppInfo)
    (channels : List ProxyChannelInfo) : Option (ProxyChannelInfo × List ProxyChannelInfo) :=
  channels.updateFirst (fun item => item.myId = myId ∧ item.identity = identity) fun item =>
    { item with
      peerId := peerId
      status := .completed
      timeout := 0
      appInfo := { item.appInfo with
        encrypt := info.encrypt, algorithm := info.algorithm, crc := info.crc
        peerData := info.peerData } }

def hasChannelId (channelId : Int32) (item : ProxyChannelInfo) : Bool := item.channelId = channelId

def transProxyGetChanByChanId (chanId : Int32) (channels : List ProxyChannelInfo) :
    Option ProxyChannelInfo :=
  channels.find? (hasChannelId chanId)

def transProxyDelChanByChanId (chanId : Int32) (channels : List ProxyChannelInfo) :
    List ProxyChannelInfo :=
  channels.eraseP (hasChannelId chanId)

def transProxyDelByChannelId (channelId : Int32) (channels : List ProxyChannelInfo) :
    Option (ProxyChannelInfo × List ProxyChannelInfo) :=
  channels.takeFirst (hasChannelId channelId)

def transProxyResetChan (myId peerId : Int16) (identity : String)
    (channels : List ProxyChannelInfo) : Option (ProxyChannelInfo × List ProxyChannelInfo) :=
  channels.takeFirst fun removeNode => resetChanIsEqual removeNode myId peerId identity

/-- A message on a complete channel starts its idle time again. -/
def ProxyChannelInfo.touch (item : ProxyChannelInfo) : ProxyChannelInfo :=
  if item.status = .completed then { item with timeout := 0 } else item

/-- The channel that a message with these ids goes to. -/
def transProxyGetRecvMsgChanInfo (myId peerId : Int16) (channels : List ProxyChannelInfo) :
    Option (ProxyChannelInfo × List ProxyChannelInfo) :=
  channels.updateFirst (fun item => item.myId = myId ∨ item.peerId = peerId) (·.touch)

def transProxyGetSendMsgChanInfo (channelId : Int32) (channels : List ProxyChannelInfo) :
    Option (ProxyChannelInfo × List ProxyChannelInfo) :=
  channels.updateFirst (hasChannelId channelId) (·.touch)

def transProxyKeepAlvieChan (myId peerId : Int16) (identity : String)
    (channels : List ProxyChannelInfo) : Option (ProxyChannelInfo × List ProxyChannelInfo) :=
  channels.updateFirst (chanIsEqual · myId peerId identity) fun item =>
    if item.status = .keepliveing ∨ item.status = .completed then
      { item with timeout := 0, status := .completed }
    else
      item

def transProxySetChiper (channelId : Int32) (chiper : UInt8) (channels : List ProxyChannelInfo) :
    List ProxyChannelInfo :=
  channels.modifyFirst (hasChannelId channelId) ({ · with chiper := chiper })

def transProxyGetChiper (channelId : Int32) (channels : List ProxyChannelInfo) : Option UInt8 :=
  (channels.find? (hasChannelId channelId)).map (·.chiper)

/-! ## Channels of a request or a connection -/

/-- A channel that waits for the connection of a request. -/
def ProxyChannelInfo.waitsFor (reqId : UInt32) (item : ProxyChannelInfo) : Bool :=
  item.reqId = reqId ∧ item.status = .pyhConnecting

/-- A channel of `TransProxyChanProcessByReqId` gets its connection. -/
def ProxyChannelInfo.bind (reqId connId : UInt32) (item : ProxyChannelInfo) : ProxyChannelInfo :=
  if item.waitsFor reqId then { item with status := .handshakeing, connId := connId } else item

/-! ## Timeouts -/

variable (item : ProxyChannelInfo)

/-- One tick of the timer for one channel, and the status with which it is taken out, if it is. -/
def ProxyChannelInfo.tick : ProxyChannelInfo × Option ProxyChannelStatus :=
  let item := { item with timeout := item.timeout + 1 }
  match item.status with
  | .handshakeing | .pyhConnecting =>
    (item, if proxyChannelControlTimeout ≤ item.timeout then some .handshakeTimeout else none)
  | .keepliveing =>
    (item, if proxyChannelControlTimeout ≤ item.timeout then some .timeout else none)
  | .completed =>
    (item, if proxyChannelBtIdleTimeout ≤ item.timeout then some .timeout else none)
  | _ => (item, none)

/-- A channel that stays after a tick. -/
def ProxyChannelInfo.stays : Option ProxyChannelInfo :=
  if item.tick.2.isNone then some item.tick.1 else none

/-- A channel that a tick takes out, with its last status. -/
def ProxyChannelInfo.timesOut : Option ProxyChannelInfo :=
  item.tick.2.map fun status => { item.tick.1 with status := status }

end SoftBus.Native
