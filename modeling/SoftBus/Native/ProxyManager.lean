import SoftBus.Native.ProxyChannel

/-!
# The proxy channel manager

Model of the handlers of `softbus_proxychannel_manager.c` and
`softbus_proxychannel_transceiver.c` over the channel list, the connection list and the
queue of messages that the handlers post to their own loop.  A handler runs as one step,
except for `TransProxyOpenConnChannel`, which looks its connection up in one step and acts
on the copy it got in another, so that anything can happen between the two.

What the world outside answers (whether a message is sent, a key found, a listener content)
is part of the inputs.
-/

namespace SoftBus.Native

/-! ## The state -/

/-- `LoopMsg` with its object. -/
inductive LoopMsg where
  | handshake (chanId : Int32)
  | disconnect (connId : UInt32)
  | openFail (chan : ProxyChannelInfo)
  | openClose (chan : ProxyChannelInfo)
  | keepAlive (chan : ProxyChannelInfo)
  | resetPeer (chan : ProxyChannelInfo)
deriving Repr, DecidableEq

/-- What the manager does outside its lists: the reports to the upper layer, the payloads
    it hands on, the messages it sends and the connections it closes. -/
inductive ProxyEvent where
  | channelOpened (uid : ℕ) (channelId : Int32) (isServer : Bool)
  | channelOpenFailed (uid : ℕ) (channelId : Int32)
  | channelClosed (uid : ℕ) (channelId : Int32)
  | msgReceived (uid : ℕ) (channelId : Int32) (data : List UInt8)
  | post (connId : UInt32) (head : ProxyMessageHead)
  | disconnectDevice (connId : UInt32)
deriving Repr, DecidableEq

/-- A call of `TransProxyOpenConnChannel` that has its id and its copy of a connection. -/
structure OpenCall where
  chanNewId : Int32
  appInfo : AppInfo
  option : ConnectOption
  conn : Option ProxyConnInfo
deriving Repr, DecidableEq

/-- The lists, the loop's queue, the calls under way, the two counters, the next `uid`, and
    what has been done so far. -/
structure ProxyWorld where
  littleEndian : Bool
  channels : List ProxyChannelInfo
  conns : List ProxyConnInfo
  loop : List LoopMsg
  calls : List OpenCall
  myId : UInt16
  reqId : UInt32
  nextUid : ℕ
  events : List ProxyEvent
deriving Repr, DecidableEq

def ProxyWorld.init (littleEndian : Bool) : ProxyWorld :=
  ⟨littleEndian, [], [], [], [], 0, 1, 0, []⟩

namespace ProxyWorld

/-- Messages for the loop. -/
def postLoop (msgs : List LoopMsg) (w : ProxyWorld) : ProxyWorld := { w with loop := w.loop ++ msgs }

def emit (events : List ProxyEvent) (w : ProxyWorld) : ProxyWorld :=
  { w with events := w.events ++ events }

end ProxyWorld

/-! ## Reports to the upper layer -/

/-- Whether the application type has a listener. -/
def AppType.isReported (appType : AppType) : Bool := appType ≠ .notCare

/-- What the listeners answer: is the peer's network id known, and does the callback succeed. -/
structure OpenedEnv where
  networkId : Bool
  ret : Bool
deriving Repr, DecidableEq

section
variable (chan : ProxyChannelInfo)

def onProxyChannelOpened (env : OpenedEnv) : Bool × List ProxyEvent :=
  let opened := [ProxyEvent.channelOpened chan.uid chan.channelId chan.isServer]
  match chan.appInfo.appType with
  | .normal => if env.networkId then (env.ret, opened) else (false, [])
  | .auth | .inner => (env.ret, opened)
  | .notCare => (false, [])

def onProxyChannelOpenFailed : List ProxyEvent :=
  if chan.appInfo.appType.isReported then [.channelOpenFailed chan.uid chan.channelId] else []

def onProxyChannelClosed : List ProxyEvent :=
  if chan.appInfo.appType.isReported then [.channelClosed chan.uid chan.channelId] else []

def onProxyChannelMsgReceived (data : List UInt8) : List ProxyEvent :=
  if chan.appInfo.appType.isReported ∧ data ≠ [] then [.msgReceived chan.uid chan.channelId data]
  else []

end

/-! ## Messages to the peer -/

/-- The head of a message that a channel sends. -/
def ProxyChannelInfo.head (type : MsgType) (chan : ProxyChannelInfo) : ProxyMessageHead :=
  let chiper := if chan.appInfo.appType ≠ .auth then chan.chiper ||| chiperEncrypted else 0
  .mkType type chiper chan.myId chan.peerId

/-- `TransProxyAckHandshake`, `TransProxyKeepalive`, `TransProxyAckKeepalive` and
    `TransProxyResetPeer`: a message of the channel, if it can be packed and sent. -/
def ProxyChannelInfo.sendControl (type : MsgType) (connId : UInt32) (sent : Bool)
    (chan : ProxyChannelInfo) : List ProxyEvent :=
  if sent then [.post connId (chan.head type)] else []

namespace ProxyWorld

/-! ## Connections -/

def transProxyCloseConnChannelReset (connId : UInt32) (isDisconnect : Bool) (w : ProxyWorld) :
    ProxyWorld :=
  let r := transDecConnRefByConnId connId w.conns
  let w := { w with conns := r.2 }
  if r.1 = .ok ∧ isDisconnect then w.emit [.disconnectDevice connId] else w

def transProxyCloseConnChannel (connId : UInt32) (w : ProxyWorld) : ProxyWorld :=
  w.transProxyCloseConnChannelReset connId true

/-- The channels that wait for a request are bound to its connection. -/
def transProxyChanProcessByReqId (reqId connId : UInt32) (w : ProxyWorld) : ProxyWorld :=
  let waiting := w.channels.filter (·.waitsFor reqId)
  { w with
    channels := w.channels.map (·.bind reqId connId)
    conns := waiting.foldl (fun conns _ => transAddConnRefByConnId connId conns) w.conns
    loop := w.loop ++ waiting.map fun item => .handshake item.channelId }

def transOnConnectSuccessed (requestId connectionId : UInt32) (w : ProxyWorld) : ProxyWorld :=
  { w with conns := transSetConnStateByReqId requestId connectionId .pyhConnected w.conns }
    |>.transProxyChanProcessByReqId requestId connectionId

/-- The channels that wait for a request that failed are taken out. -/
def transProxyDelChanByReqId (reqId : UInt32) (w : ProxyWorld) : ProxyWorld :=
  { w with
    channels := w.channels.filter (!·.waitsFor reqId)
    loop := w.loop ++ (w.channels.filter (·.waitsFor reqId)).map .openFail }

def transOnConnectFailed (requestId : UInt32) (w : ProxyWorld) : ProxyWorld :=
  { w with conns := transDelConnByReqId requestId w.conns }.transProxyDelChanByReqId requestId

/-! ## Opening a channel -/

/-- `ConnGetNewRequestId` -/
def connGetNewRequestId (reqId : UInt32) : UInt32 := (reqId + 1) % 1000000 + 1

/-- A channel that is being opened, as `SoftBusCalloc` and `TransProxyCreateChanInfo` leave it. -/
def newChannel (call : OpenCall) (identity : String) (uid : ℕ) : ProxyChannelInfo where
  channelId := call.chanNewId
  reqId := 0
  isServer := false
  status := .pyhConnected
  timeout := 0
  myId := call.chanNewId.toInt16
  peerId := 0
  connId := 0
  type := .invalid
  identity := identity
  appInfo := call.appInfo
  chiper := 0
  uid := uid
  option := some call.option

def transProxyAddChanItem (chan : ProxyChannelInfo) (w : ProxyWorld) : ProxyWorld :=
  { w with channels := chan :: w.channels, nextUid := w.nextUid + 1 }

/-- The call found a connection item, `conn` is its copy. -/
def transProxyConnExistProc (conn : ProxyConnInfo) (call : OpenCall) (identity : String)
    (w : ProxyWorld) : ProxyWorld :=
  let chan := newChannel call identity w.nextUid
  if conn.state = .pyhConnecting then
    w.transProxyAddChanItem { chan with reqId := conn.requestId, status := .pyhConnecting }
  else
    let w := w.transProxyAddChanItem { chan with connId := conn.connId, status := .handshakeing }
    { w with conns := transAddConnRefByConnId conn.connId w.conns }.postLoop
      [.handshake call.chanNewId]

/-- The call found no connection item.  `connected` is what `ConnConnectDevice` answers. -/
def transProxyOpenNewConnChannel (call : OpenCall) (identity : String) (connected : Bool)
    (w : ProxyWorld) : ProxyWorld :=
  let reqId := connGetNewRequestId w.reqId
  let chan := newChannel call identity w.nextUid
  let chan := { chan with reqId := reqId, status := .pyhConnecting, type := call.option.type }
  let w := { w with reqId := reqId }.transProxyAddChanItem chan
  -- `TransAddConnItem`
  match transFindSameAddr call.option w.conns with
  | some item =>
    if item.state = .pyhConnected then w.transProxyChanProcessByReqId reqId item.connId else w
  | none =>
    let item : ProxyConnInfo := ⟨reqId, call.option, 0, 0, .pyhConnecting⟩
    let w := { w with conns := item :: w.conns }
    if connected then w
    else
      { w with
        conns := transDelConnByReqId reqId w.conns
        channels := transProxyDelChanByChanId call.chanNewId w.channels }

/-- `TransProxyOpenConnChannel` up to the end of `TransGetConn`. -/
def openLookup (appInfo : AppInfo) (option : ConnectOption) (w : ProxyWorld) : ProxyWorld :=
  let r := transProxyGetNewMyId w.littleEndian w.channels w.myId
  { w with
    myId := r.2
    calls := w.calls ++ [⟨r.1.toInt32, appInfo, option, transGetConn option w.conns⟩] }

/-- The rest of a call of `TransProxyOpenConnChannel`; no identity if the random generator
    fails. -/
def openFinish (n : ℕ) (identity : Option String) (connected : Bool) (w : ProxyWorld) :
    ProxyWorld :=
  match w.calls[n]?, identity with
  | none, _ => w
  | some call, none =>
    -- the request id is taken before the random generator is asked
    let reqId := if call.conn.isSome then w.reqId else connGetNewRequestId w.reqId
    { w with calls := w.calls.eraseIdx n, reqId := reqId }
  | some call, some identity =>
    let w := { w with calls := w.calls.eraseIdx n }
    match call.conn with
    | some conn => w.transProxyConnExistProc conn call identity
    | none => w.transProxyOpenNewConnChannel call identity connected

/-! ## Closing -/

/-- The resources of a channel that has been taken out. -/
def transProxyCloseProxyOtherRes (info : ProxyChannelInfo) : List LoopMsg :=
  [.resetPeer info, .disconnect info.connId]

def transProxyCloseProxyChannel (channelId : Int32) (w : ProxyWorld) : TransErr × ProxyWorld :=
  match transProxyDelByChannelId channelId w.channels with
  | none => (.proxyDelChannelIdInvalid, w)
  | some (info, channels) =>
    (.ok, { w with channels := channels }.postLoop (transProxyCloseProxyOtherRes info))

/-- The report for a channel that goes down with its connection. -/
def reportReleased (chan : ProxyChannelInfo) : List ProxyEvent :=
  if chan.status = .handshakeing ∨ chan.status = .pyhConnecting then onProxyChannelOpenFailed chan
  else onProxyChannelClosed chan

/-- The channels of a connection are taken out. -/
def transProxyDelByConnId (connId : UInt32) (w : ProxyWorld) : ProxyWorld :=
  let removed := (w.channels.filter (·.connId = connId)).reverse
  { w with channels := w.channels.filter (·.connId ≠ connId) }
    |>.emit (removed.flatMap reportReleased)
    |>.postLoop (removed.flatMap transProxyCloseProxyOtherRes)

def transProxyOnDisConnect (connId : UInt32) (w : ProxyWorld) : ProxyWorld :=
  let w := w.transProxyDelByConnId connId
  { w with conns := transDelConnByConnId connId w.conns }

/-- One channel of a package whose process has died. -/
def closeDead (sent : Bool) (w : ProxyWorld) (item : ProxyChannelInfo) : ProxyWorld :=
  w.emit (item.sendControl .reset item.connId sent) |>.transProxyCloseConnChannel item.connId

def transProxyDeathCallback (pkgName : String) (sent : Bool) (w : ProxyWorld) : ProxyWorld :=
  let dead := w.channels.filter (·.appInfo.myData.pkgName = pkgName)
  let w := dead.foldl (closeDead sent) w
  { w with channels := w.channels.filter (·.appInfo.myData.pkgName ≠ pkgName) }

/-! ## The timer -/

/-- What a channel that has timed out posts. -/
def timerItemMsgs (removeNode : ProxyChannelInfo) : List LoopMsg :=
  match removeNode.status with
  | .timeout => [.resetPeer removeNode, .openClose removeNode, .disconnect removeNode.connId]
  | .handshakeTimeout => [.openFail removeNode, .disconnect removeNode.connId]
  | .keepliveing => [.keepAlive removeNode]
  | _ => []

def transProxyTimerProc (w : ProxyWorld) : ProxyWorld :=
  let proxyProcList := (w.channels.filterMap (·.timesOut)).reverse
  { w with channels := w.channels.filterMap ProxyChannelInfo.stays }.postLoop (proxyProcList.flatMap timerItemMsgs)

end ProxyWorld

/-! ## The loop -/

/-- What the connection answers to the messages of the loop: the cipher flags of the
    peer's authentication, and whether a message is sent. -/
structure LoopEnv where
  chiper : Option UInt8
  sent : Bool
deriving Repr, DecidableEq

namespace ProxyWorld

/-- The cipher flags of a handshake, if they can be had. -/
def handshakeChiper (chan : ProxyChannelInfo) (env : LoopEnv) : Option UInt8 :=
  if chan.appInfo.appType = .auth then some 0 else env.chiper.map (· ||| chiperEncrypted)

/-- `TransProxyHandshake`: whether the message is sent. -/
def transProxyHandshake (info : ProxyChannelInfo) (env : LoopEnv) (w : ProxyWorld) :
    Bool × ProxyWorld :=
  match handshakeChiper info env with
  | none => (false, w)
  | some chiper =>
    let w :=
      if info.appInfo.appType = .auth then w
      else { w with channels := transProxySetChiper info.channelId chiper w.channels }
    if env.sent then
      (true, w.emit [.post info.connId (.mkType .handshake chiper info.myId invalidChannelId)])
    else
      (false, w)

def transProxyOpenProxyChannelSuccess (chanId : Int32) (env : LoopEnv) (w : ProxyWorld) :
    ProxyWorld :=
  match transProxyGetChanByChanId chanId w.channels with
  | none =>
    -- the connection id of the record that was allocated for the copy
    w.transProxyCloseConnChannel 0
  | some chan =>
    let r := w.transProxyHandshake chan env
    if r.1 then r.2
    else
      let w := r.2.transProxyCloseConnChannel chan.connId |>.emit (onProxyChannelOpenFailed chan)
      { w with channels := transProxyDelChanByChanId chanId w.channels }

def handleLoopMsg (env : LoopEnv) (w : ProxyWorld) : LoopMsg → ProxyWorld
  | .handshake chanId => w.transProxyOpenProxyChannelSuccess chanId env
  | .disconnect connId => w.transProxyCloseConnChannel connId
  | .openFail chan => w.emit (onProxyChannelOpenFailed chan)
  | .openClose chan => w.emit (onProxyChannelClosed chan)
  | .keepAlive chan => w.emit (chan.sendControl .keepalive chan.connId env.sent)
  | .resetPeer chan => w.emit (chan.sendControl .reset chan.connId env.sent)

/-- `TransProxyLoopMsgHandler` on the next message. -/
def transProxyLoopMsgHandler (env : LoopEnv) (w : ProxyWorld) : ProxyWorld :=
  match w.loop with
  | [] => w
  | msg :: loop => { w with loop := loop }.handleLoopMsg env msg

end ProxyWorld

/-! ## Messages from the peer -/

/-- `ProxyMessage`.  `unpacked` is the identity and the application data that the JSON
    text of a control message holds, if it can be unpacked. -/
structure ProxyMessage where
  connId : UInt32
  msgHead : ParsedHead
  data : List UInt8
  unpacked : Option (String × AppInfo)
deriving Repr, DecidableEq

/-- What the rest of the system answers while a message is handled: is it plain or does it
    decrypt, the local package and device, the connection, the listeners, and whether the
    answer is sent. -/
structure MsgEnv where
  decrypted : Bool
  pkgName : Option String
  deviceId : Option String
  connInfo : Option ConnectionInfo
  opened : OpenedEnv
  sent : Bool
deriving Repr, DecidableEq

/-- The flags that `GetChiperParam` reads from a handshake. -/
def msgChiper (chiper : UInt8) : UInt8 :=
  (if chiper &&& 2 = 0 then 2 else 0) ||| (if chiper &&& 4 = 0 then 0 else 4)

/-- `TransProxyGetLocalInfo` -/
def transProxyGetLocalInfo (appInfo : AppInfo) (env : MsgEnv) : Option AppInfo :=
  let pkgName := if appInfo.appType = .inner then some appInfo.myData.pkgName else env.pkgName
  match pkgName, env.deviceId with
  | some pkgName, some deviceId =>
    some { appInfo with myData := { appInfo.myData with pkgName := pkgName, deviceId := deviceId } }
  | _, _ => none

namespace ProxyWorld

section
variable (msg : ProxyMessage)

/-- The channel of a handshake. -/
def serverChannel (identity : String) (appInfo : AppInfo)
    (info : ConnectionInfo) (newChanId : Int16) (uid : ℕ) : ProxyChannelInfo where
  channelId := newChanId.toInt32
  reqId := 0
  isServer := true
  status := .completed
  timeout := 0
  myId := newChanId
  peerId := msg.msgHead.peerId
  connId := msg.connId
  type := info.type
  identity := identity
  appInfo := appInfo
  chiper := msgChiper msg.msgHead.chiper
  uid := uid
  option := none

/-- The rest of `TransProxyProcessHandshakeMsg` once everything about the peer is known. -/
def acceptHandshake (env : MsgEnv) (identity : String) (appInfo : AppInfo)
    (info : ConnectionInfo) (w : ProxyWorld) : ProxyWorld :=
  let w := { w with conns := transCreateConnByConnId w.littleEndian msg.connId info w.conns }
  let r := transProxyGetNewMyId w.littleEndian w.channels w.myId
  let w := { w with myId := r.2 }
  let chan := serverChannel msg identity appInfo info r.1 w.nextUid
  let opened := onProxyChannelOpened chan env.opened
  let w := w.emit opened.2
  if opened.1 then
    let w := w.transProxyAddChanItem chan
    if env.sent then
      w.emit (chan.sendControl .handshakeAck msg.connId true)
    else
      let w := w.emit (onProxyChannelClosed chan)
      { w with channels := transProxyDelChanByChanId chan.channelId w.channels }
  else
    { w with nextUid := w.nextUid + 1 }.transProxyCloseConnChannel msg.connId

def transProxyProcessHandshakeMsg (env : MsgEnv) (w : ProxyWorld) : ProxyWorld :=
  match msg.unpacked with
  | none => w
  | some (identity, appInfo) =>
    match transProxyGetLocalInfo appInfo env, env.connInfo with
    | some appInfo, some info => w.acceptHandshake msg env identity appInfo info
    | _, _ => w

def transProxyProcessHandshakeAckMsg (env : MsgEnv) (w : ProxyWorld) : ProxyWorld :=
  match msg.unpacked with
  | none => w
  | some (identity, info) =>
    match transProxyUpdateAckInfo msg.msgHead.myId msg.msgHead.peerId identity info w.channels with
    | none => w
    | some (chan, channels) =>
      { w with channels := channels }.emit
        (onProxyChannelOpened { chan with isServer := false } env.opened).2

def transProxyProcessResetMsg (w : ProxyWorld) : ProxyWorld :=
  match msg.unpacked with
  | none => w
  | some (identity, _) =>
    match transProxyResetChan msg.msgHead.myId msg.msgHead.peerId identity w.channels with
    | none => w
    | some (info, channels) =>
      let w := { w with channels := channels }
      let w :=
        if info.status = .handshakeing then w.emit (onProxyChannelOpenFailed info)
        else w.emit (onProxyChannelClosed info)
      let isKept := (info.type = .br ∨ info.type = .ble) ∧ info.status = .completed
      w.transProxyCloseConnChannelReset msg.connId (!isKept)

def transProxyProcessKeepAlive (env : MsgEnv) (w : ProxyWorld) : ProxyWorld :=
  match msg.unpacked with
  | none => w
  | some (identity, _) =>
    match transProxyKeepAlvieChan msg.msgHead.myId msg.msgHead.peerId identity w.channels with
    | none => w
    | some (info, channels) =>
      { w with channels := channels }.emit (info.sendControl .keepaliveAck info.connId env.sent)

def transProxyProcessKeepAliveAck (w : ProxyWorld) : ProxyWorld :=
  match msg.unpacked with
  | none => w
  | some (identity, _) =>
    match transProxyKeepAlvieChan msg.msgHead.myId msg.msgHead.peerId identity w.channels with
    | none => w
    | some (_, channels) => { w with channels := channels }

def transProxyProcessDataRecv (w : ProxyWorld) : ProxyWorld :=
  match transProxyGetRecvMsgChanInfo msg.msgHead.myId msg.msgHead.peerId w.channels with
  | none => w
  | some (info, channels) =>
    { w with channels := channels }.emit (onProxyChannelMsgReceived info msg.data)

def transProxyOnMessageReceived (env : MsgEnv) (w : ProxyWorld) : ProxyWorld :=
  match msg.msgHead.type with
  | .handshake => w.transProxyProcessHandshakeMsg msg env
  | .handshakeAck => w.transProxyProcessHandshakeAckMsg msg env
  | .reset => w.transProxyProcessResetMsg msg
  | .keepalive => w.transProxyProcessKeepAlive msg env
  | .keepaliveAck => w.transProxyProcessKeepAliveAck msg
  | .normal => w.transProxyProcessDataRecv msg

/-- `GetChiperParam`: only a handshake may come for a channel that does not exist. -/
def isParsed (env : MsgEnv) (w : ProxyWorld) : Bool :=
  env.decrypted ∧ (msg.msgHead.type = .handshake ∨
    (transProxyGetChiper msg.msgHead.myId.toInt32 w.channels).isSome)

def transProxyOnDataReceived (env : MsgEnv) (w : ProxyWorld) : ProxyWorld :=
  if w.isParsed msg env then w.transProxyOnMessageReceived msg env else w

end

/-! ## Messages of the upper layer -/

/-- `ret` is what the sending of the packed message answers. -/
def transProxySendMsg (channelId : Int32) (ret : TransErr) (w : ProxyWorld) : TransErr × ProxyWorld :=
  match transProxyGetSendMsgChanInfo channelId w.channels with
  | none => (.proxySendChannelIdInvalid, w)
  | some (info, channels) =>
    let w := { w with channels := channels }
    if info.status ≠ .completed ∧ info.status ≠ .keepliveing then
      (.proxyChannelStatusInvalid, w)
    else if ret = .ok then
      (.ok, w.emit [.post info.connId (info.head .normal)])
    else
      (ret, w)

/-! ## Runs -/

end ProxyWorld

inductive ProxyInput where
  | openLookup (appInfo : AppInfo) (option : ConnectOption)
  | openFinish (n : ℕ) (identity : Option String) (connected : Bool)
  | connectSuccessed (requestId connectionId : UInt32)
  | connectFailed (requestId : UInt32)
  | disconnected (connId : UInt32)
  | received (msg : ProxyMessage) (env : MsgEnv)
  | send (channelId : Int32) (ret : TransErr)
  | close (channelId : Int32)
  | death (pkgName : String) (sent : Bool)
  | tick
  | loop (env : LoopEnv)
deriving Repr, DecidableEq

def ProxyWorld.step (w : ProxyWorld) : ProxyInput → ProxyWorld
  | .openLookup appInfo option => w.openLookup appInfo option
  | .openFinish n identity connected => w.openFinish n identity connected
  | .connectSuccessed requestId connectionId => w.transOnConnectSuccessed requestId connectionId
  | .connectFailed requestId => w.transOnConnectFailed requestId
  | .disconnected connId => w.transProxyOnDisConnect connId
  | .received msg env => w.transProxyOnDataReceived msg env
  | .send channelId ret => (w.transProxySendMsg channelId ret).2
  | .close channelId => (w.transProxyCloseProxyChannel channelId).2
  | .death pkgName sent => w.transProxyDeathCallback pkgName sent
  | .tick => w.transProxyTimerProc
  | .loop env => w.transProxyLoopMsgHandler env

/-- What a step does outside the lists. -/
def ProxyWorld.issued (w : ProxyWorld) (input : ProxyInput) : List ProxyEvent :=
  (w.step input).events.drop w.events.length

end SoftBus.Native
