import SoftBus.Native.AuthSessionKey

/-!
# Authentication of devices

Model of `auth_manager.c` with the parts of `auth_socket.c`, `auth_connection.c`,
`auth_common.c` and `auth_p2p.c` that it runs through.  An authentication is an
`AuthManager` in one of two lists, for the client and the server side.  It is found by its
id, its socket, its connection or its request, and always the first match is taken, in the
list of clients first.

A step is one call from outside: from the upper layer, a connection, a socket, HiChain or
the timer.  The network layer (LNN) answers `onKeyGenerated` later, by a message to its own
loop; the P2P module answers it at once.  Sending, packing and parsing are decided by the
inputs.
-/

namespace SoftBus.Native

/-! ## Authentications -/

/-- The status of an authentication. -/
inductive AuthStatus where
  | initState
  | waitConnectionEstablished
  | inAuthProgress
  | inSyncProgress
  | syncFinish
  | waitPeerDevInfo
  | waitCloseAck
  | authPassed
deriving Repr, DecidableEq

/-- The number of a status. -/
def AuthStatus.code : AuthStatus → ℕ
  | .initState => 0
  | .waitConnectionEstablished => 1
  | .inAuthProgress => 2
  | .inSyncProgress => 3
  | .syncFinish => 4
  | .waitPeerDevInfo => 5
  | .waitCloseAck => 6
  | .authPassed => 7

/-- `encryptInfoStatus` of a server on a Wi-Fi link. -/
inductive EncryptInfoStatus where
  | initial
  | recvEncryptData
  | keyGenerated
deriving Repr, DecidableEq

/-- `AuthVerifyModule` of an authentication. -/
inductive AuthVerifyModule where
  | lnn
  | verifyP2pDevice
deriving Repr, DecidableEq

/-- Which of the callbacks of `AuthOpenConn` are set. -/
structure AuthConnCallback where
  onConnOpened : Bool
  onConnOpenFailed : Bool
deriving Repr, DecidableEq

def AuthConnCallback.none : AuthConnCallback := ⟨false, false⟩

/-- `AuthManager`.  `uid` is not in the source, it stands for the address of the record.
    Without a module there is no `cb`. -/
structure AuthManager where
  uid : ℕ
  requestId : UInt32
  connectionId : UInt32
  authId : Int64
  side : AuthSideFlag
  status : AuthStatus
  id : UInt16
  fd : Int32
  option : ConnectOption
  encryptInfoStatus : EncryptInfoStatus
  cb : Option AuthVerifyModule
  connCb : AuthConnCallback
  encryptDevData : Option (List UInt8)
deriving Repr, DecidableEq

namespace AuthManager

variable (auth : AuthManager)

def isAuthP2p : Bool := auth.cb = some .verifyP2pDevice

def isWiFiLink : Bool := auth.option.type = .tcp ∧ ¬ auth.isAuthP2p

def isP2PLink : Bool := auth.option.type = .tcp ∧ auth.isAuthP2p

/-- `(int32_t)authId` -/
def seq : Int32 := auth.authId.toInt32

def isReportKeyGeneratedInTcpServer : Bool :=
  auth.isWiFiLink ∧ auth.side = .server ∧ auth.encryptInfoStatus = .keyGenerated ∧
    auth.status = .inSyncProgress

end AuthManager

/-- `LNN_PROTOCOL_IP` -/
def lnnProtocolIp : UInt64 := 4

/-- `remoteIp` is the address that the network layer knows for `option2`. -/
def compareConnectOption (remoteIp : Option (List UInt8)) (option1 option2 : ConnectOption) : Bool :=
  match option1.type with
  | .tcp =>
    option2.type = .tcp ∧
      ((option2.protocol = option1.protocol ∧ option1.addr = option2.addr) ∨
        (option2.protocol ≠ lnnProtocolIp ∧ remoteIp = some option1.addr))
  | .br => option2.type = .br ∧ option1.addr = option2.addr
  | .ble => option2.type = .ble ∧ option1.addr = option2.addr
  | _ => false

/-! ## The state -/

/-- What the authentications do outside: `keyReturned` marks the call of HiChain for an
    authentication, `cleared` a key that is deleted on behalf of one. -/
inductive AuthEvent where
  | keyReturned (uid : ℕ)
  | verifyPass (uid : ℕ)
  | verifyFail (uid : ℕ)
  | recvSyncDeviceInfo (uid : ℕ) (data : List UInt8)
  | connOpened (requestId : UInt32) (authId : Int64)
  | connOpenFailed (requestId : UInt32)
  | closeAck (connectionId : UInt32)
  | disconnectDevice (connectionId : UInt32)
  | cleared (uid : ℕ) (key : SessionKey)
deriving Repr, DecidableEq

/-- The two lists, the keys, the authentications whose keys the network layer has been told of
    and has not answered (with their ids), the counters, and what has been done so far.
    `crashed` is set when a missing `cb` is used. -/
structure AuthWorld where
  serverSide : Bool
  uniqueId : UInt64
  clients : List AuthManager
  servers : List AuthManager
  keys : List SessionKey
  generated : List (ℕ × Int64)
  integer : UInt64
  authConnId : UInt16
  nextUid : ℕ
  events : List AuthEvent
  crashed : Bool
deriving Repr, DecidableEq

/-- What `AuthIsSupportServerSide` and `UniqueIdInit` find. -/
def AuthWorld.init (serverSide : Bool) (uniqueId : UInt64) : AuthWorld :=
  ⟨serverSide, uniqueId, [], [], [], [], 0, 0, 0, [], false⟩

namespace AuthWorld

def managers (w : AuthWorld) : List AuthManager := w.clients ++ w.servers

def emit (events : List AuthEvent) (w : AuthWorld) : AuthWorld :=
  { w with events := w.events ++ events }

def crash (w : AuthWorld) : AuthWorld := { w with crashed := true }

/-- Changes fields of an authentication. -/
def modify (auth : AuthManager) (f : AuthManager → AuthManager) (w : AuthWorld) : AuthWorld :=
  { w with
    clients := w.clients.map fun a => if a.uid = auth.uid then f a else a
    servers := w.servers.map fun a => if a.uid = auth.uid then f a else a }

/-- `connCb.onConnOpenFailed` is called and taken away. -/
def callConnOpenFailed (auth : AuthManager) (w : AuthWorld) : AuthWorld :=
  (w.emit [.connOpenFailed auth.requestId]).modify auth fun a =>
    { a with connCb := { a.connCb with onConnOpenFailed := false } }

def deleteAuth (auth : AuthManager) (w : AuthWorld) : AuthWorld :=
  { w with
    clients := w.clients.filter (·.uid ≠ auth.uid)
    servers := w.servers.filter (·.uid ≠ auth.uid) }

def authGetManagerByAuthId (authId : Int64) (w : AuthWorld) : Option AuthManager :=
  w.managers.find? (·.authId = authId)

def authGetManagerByConnId (id : UInt16) (w : AuthWorld) : Option AuthManager :=
  w.managers.find? (·.id = id)

def authGetManagerByFd (fd : Int32) (w : AuthWorld) : Option AuthManager :=
  w.managers.find? (·.fd = fd)

def authGetManagerByConnectionId (connectionId : UInt32) (w : AuthWorld) : Option AuthManager :=
  w.managers.find? (·.connectionId = connectionId)

/-- Requests are made by clients only. -/
def authGetManagerByRequestId (requestId : UInt32) (w : AuthWorld) : Option AuthManager :=
  w.clients.find? (·.requestId = requestId)

def authGetManagerByOption (remoteIp : Option (List UInt8)) (option : ConnectOption) (w : AuthWorld) :
    Option AuthManager :=
  w.managers.find? fun item => compareConnectOption remoteIp item.option option

/-- The keys of an authentication are cleared. -/
def clearSessionKey (auth : AuthManager) (w : AuthWorld) : AuthWorld :=
  { w with keys := authClearSessionKeyBySeq auth.seq w.keys }.emit
    ((w.keys.filter fun key : SessionKey => key.seq = auth.seq).map (.cleared auth.uid))

/-! ## New authentications -/

/-- `INT_MAX_VALUE` -/
def intMaxValue : UInt64 := 0xFFFFFE

/-- The next number, and the counter after it. -/
def getSeq (flag : AuthSideFlag) (w : AuthWorld) : Int64 × AuthWorld :=
  let integer := (if w.integer = intMaxValue then 0 else w.integer) + 2
  let temp := if flag = .server then integer + 1 else integer
  (((w.uniqueId <<< 24) ||| (temp &&& 0xFFFFFF)).toInt64, { w with integer := integer })

/-- A record from `SoftBusCalloc` with its address and the next connection id. -/
def newAuthManager (side : AuthSideFlag) (authId : Int64) (w : AuthWorld) : AuthManager where
  uid := w.nextUid
  requestId := 0
  connectionId := 0
  authId := authId
  side := side
  status := .initState
  id := w.authConnId + 1
  fd := 0
  option := ⟨.invalid, [], 0, 0⟩
  encryptInfoStatus := .initial
  cb := none
  connCb := .none
  encryptDevData := none

def insertClient (auth : AuthManager) (w : AuthWorld) : AuthWorld :=
  { w with
    clients := auth :: w.clients, authConnId := w.authConnId + 1, nextUid := w.nextUid + 1 }

def insertServer (auth : AuthManager) (w : AuthWorld) : AuthWorld :=
  { w with
    servers := auth :: w.servers, authConnId := w.authConnId + 1, nextUid := w.nextUid + 1 }

def initClientAuthManager (moduleId : AuthVerifyModule) (option : ConnectOption)
    (requestId : UInt32) (connCb : AuthConnCallback) (w : AuthWorld) : AuthManager × AuthWorld :=
  let r := w.getSeq .client
  let auth := { newAuthManager .client r.1 w with
    requestId := requestId, option := option, fd := -1, status := .waitConnectionEstablished
    cb := some moduleId, connCb := connCb }
  (auth, r.2.insertClient auth)

/-- `AuthOpenChannel` on the socket `fd`: there is no `cb`. -/
def authOpenChannel (option : ConnectOption) (fd : Int32) (w : AuthWorld) : AuthWorld :=
  let r := w.getSeq .client
  r.2.insertClient { newAuthManager .client r.1 w with option := option, fd := fd }

/-- A peer has connected the socket `cfd`, which is the id until the peer has sent its own. -/
def addAuthServer (cfd : Int32) (clientAddr : ConnectOption) (w : AuthWorld) : AuthWorld :=
  w.insertServer { newAuthManager .server cfd.toInt64 w with
    fd := cfd, option := clientAddr, status := .waitConnectionEstablished, cb := some .lnn }

/-- The authentication that a peer starts on a connection.  Its id is chosen by the peer. -/
def createServerAuth (connectionId : UInt32) (seq : Int64) (option : ConnectOption) (w : AuthWorld) :
    Option AuthManager × AuthWorld :=
  let auth := { newAuthManager .server seq w with
    connectionId := connectionId, option := option, status := .waitConnectionEstablished
    cb := some (if option.type = .tcp then .verifyP2pDevice else .lnn) }
  match option.type with
  | .tcp | .br | .ble => (some auth, w.insertServer auth)
  | _ => (none, { w with authConnId := w.authConnId + 1 })

/-! ## The end of an authentication -/

def authHandleFail (auth : AuthManager) (w : AuthWorld) : AuthWorld :=
  match auth.cb with
  | none => w.crash
  | some _ =>
    let w := w.emit [.verifyFail auth.uid]
    if auth.connCb.onConnOpenFailed then (w.callConnOpenFailed auth).deleteAuth auth else w

def authHandleLeaveLNN (authId : Int64) (w : AuthWorld) : AuthWorld :=
  match w.authGetManagerByAuthId authId with
  | none => w
  | some auth =>
    let w := w.clearSessionKey auth
    if auth.isWiFiLink then w.deleteAuth auth
    else if auth.status ≠ .authPassed ∨ auth.option.type = .br then
      w.emit [.disconnectDevice auth.connectionId]
    else
      w.deleteAuth auth

def handleAuthTimeout (id : UInt16) (w : AuthWorld) : AuthWorld :=
  match w.authGetManagerByConnId id with
  | none => w
  | some auth =>
    match auth.cb with
    | none => w.crash
    | some _ =>
      let w := w.emit [.verifyFail auth.uid]
      if auth.connCb.onConnOpenFailed then w.callConnOpenFailed auth else w

/-- The authentications of the same peer with another id go. -/
def tryRemoveOldAuthManager (remoteIp : Option (List UInt8)) (auth : AuthManager) (w : AuthWorld) :
    AuthWorld :=
  let stays := fun item : AuthManager =>
    ¬ (compareConnectOption remoteIp item.option auth.option ∧ item.authId ≠ auth.authId)
  { w with clients := w.clients.filter stays, servers := w.servers.filter stays }

def tryRemoveConnection (remoteIp : Option (List UInt8)) (auth : AuthManager) (w : AuthWorld) :
    AuthWorld :=
  let w := w.tryRemoveOldAuthManager remoteIp auth
  if auth.connCb.onConnOpened then w.emit [.connOpened auth.requestId auth.authId]
  else if auth.option.type = .ble ∧ auth.side = .client then
    w.emit [.disconnectDevice auth.connectionId]
  else
    w

/-! ## The information of the peer -/

/-- `AUTH_MAX_DATA_LEN` -/
def authMaxDataLen : ℕ := 64 * 1024

/-- The authentication has passed. -/
def verifyPass (auth : AuthManager) (w : AuthWorld) : AuthWorld :=
  (w.modify auth ({ · with status := .authPassed })).emit [.verifyPass auth.uid]

variable (remoteIp : Option (List UInt8)) (auth : AuthManager)

def authReportSyncDeviceInfoResults (data : List UInt8) (w : AuthWorld) : AuthWorld :=
  match auth.cb with
  | none => w.crash
  | some _ =>
    let w := w.emit [.recvSyncDeviceInfo auth.uid data]
    if auth.isWiFiLink then w.verifyPass auth
    else
      match auth.status with
      | .syncFinish =>
        (w.emit [.closeAck auth.connectionId]).modify auth ({ · with status := .waitCloseAck })
      | .waitPeerDevInfo =>
        (w.emit [.closeAck auth.connectionId]).verifyPass auth |>.tryRemoveConnection remoteIp auth
      | _ => w

/-- The last part of `AuthHandlePeerSyncDeviceInfo`. -/
def reportPeerSyncDeviceInfo (data : List UInt8) (w : AuthWorld) : AuthWorld :=
  if auth.isReportKeyGeneratedInTcpServer then
    { w with generated := w.generated ++ [(auth.uid, auth.authId)] }.modify auth
      ({ · with encryptInfoStatus := .recvEncryptData })
  else
    w.authReportSyncDeviceInfoResults remoteIp auth data

def authHandlePeerSyncDeviceInfo (data : List UInt8) (w : AuthWorld) : AuthWorld :=
  if data = [] ∨ authMaxDataLen < data.length then w
  else if ¬ authIsSeqInKeyList auth.seq w.keys ∨ auth.status = .inSyncProgress then
    let w := w.modify auth ({ · with encryptDevData := some data })
    if ¬ auth.isWiFiLink then w
    else if auth.side = .server ∧ auth.encryptInfoStatus = .initial then
      w.modify auth ({ · with encryptInfoStatus := .recvEncryptData })
    else
      w.reportPeerSyncDeviceInfo remoteIp auth data
  else
    w.reportPeerSyncDeviceInfo remoteIp auth data

def receiveCloseAck (w : AuthWorld) : AuthWorld :=
  if auth.status = .waitCloseAck then
    match auth.cb with
    | none => w.crash
    | some _ => (w.verifyPass auth).tryRemoveConnection remoteIp auth
  else
    w.modify auth ({ · with status := .waitPeerDevInfo })

end AuthWorld

/-! ## Sending -/

/-- `AuthDataType`; `other` is for the numbers that name no type. -/
inductive AuthDataType where
  | auth
  | sync
  | deviceId
  | connection
  | closeAck
  | other
deriving Repr, DecidableEq

/-- What the other parts answer while a step runs: whether the data to be sent can be packed
    and sent, whether the data of the peer can be unpacked, what HiChain answers, and what is
    known about addresses. -/
structure AuthEnv where
  packed : Bool
  sent : Bool
  unpacked : Bool
  hichain : Bool
  remoteIp : Option (List UInt8)
deriving Repr, DecidableEq

namespace AuthWorld

/-- `HandlePeerSyncDeviceInfo`: the local information has been sent. -/
def handlePeerSyncDeviceInfo (remoteIp : Option (List UInt8)) (auth : AuthManager)
    (dataType : AuthDataType) (w : AuthWorld) : AuthWorld :=
  if dataType ≠ .sync then w
  else
    let auth := { auth with status := .syncFinish }
    let w := w.modify auth ({ · with status := .syncFinish })
    match auth.encryptDevData with
    | none => w
    | some data =>
      w.authHandlePeerSyncDeviceInfo remoteIp auth data
        |>.modify auth ({ · with encryptDevData := none })

def authPostData (authId : Int64) (dataType : AuthDataType) (env : AuthEnv) (w : AuthWorld) :
    Bool × AuthWorld :=
  match w.authGetManagerByAuthId authId with
  | none => (false, w)
  | some auth =>
    -- a number is taken for every message on a connection
    let w := if auth.isWiFiLink then w else (w.getSeq auth.side).2
    if env.sent then (true, w.handlePeerSyncDeviceInfo env.remoteIp auth dataType) else (false, w)

/-- `AuthSyncDeviceUuid`: whether the local device id has been sent. -/
def authSyncDeviceUuid (auth : AuthManager) (env : AuthEnv) (w : AuthWorld) : Bool × AuthWorld :=
  if !env.packed then (false, w)
  else
    let dataType := if auth.isWiFiLink then .other else .deviceId
    (w.modify auth ({ · with status := .inAuthProgress })).authPostData auth.authId dataType env

/-- `AuthSyncDeviceUuid`, and `AuthHandleFail` if it fails. -/
def syncDeviceUuid (auth : AuthManager) (env : AuthEnv) (w : AuthWorld) : AuthWorld :=
  let r := w.authSyncDeviceUuid auth env
  if r.1 then r.2 else r.2.authHandleFail auth

/-! ## Session keys -/

/-- What `AuthOnSessionKeyReturned` gets besides the id. -/
structure KeyData where
  sessionKey : List UInt8
  deviceKey : Option (List UInt8)
deriving Repr, DecidableEq

/-- The module of the authentication is told that the key is there: the network layer by a
    message to its loop, the P2P module sends its information at once. -/
def onKeyGenerated (auth : AuthManager) (env : AuthEnv) (w : AuthWorld) : AuthWorld :=
  match auth.cb with
  | none => w.crash
  | some .lnn => { w with generated := w.generated ++ [(auth.uid, auth.authId)] }
  | some .verifyP2pDevice =>
    if env.packed then (w.authPostData auth.authId .sync env).2 else w

def authOnSessionKeyReturned (authId : Int64) (key : KeyData) (env : AuthEnv) (w : AuthWorld) :
    AuthWorld :=
  match w.authGetManagerByAuthId authId with
  | none => w
  | some auth =>
    let w := w.emit [.keyReturned auth.uid]
    match key.deviceKey with
    | none => w
    | some deviceKey =>
      let auth := { auth with status := .inSyncProgress }
      let stored := ⟨auth.option.type, auth.side, auth.seq, deviceKey, key.sessionKey, auth.uid⟩
      let w := w.modify auth ({ · with status := .inSyncProgress })
      let w := { w with keys := authSetLocalSessionKey stored w.keys }
      if auth.isWiFiLink ∧ auth.side = .server then
        match auth.encryptInfoStatus with
        | .initial => w.modify auth ({ · with encryptInfoStatus := .keyGenerated })
        | .recvEncryptData => w.onKeyGenerated auth env
        | .keyGenerated => w
      else
        w.onKeyGenerated auth env

def authOnError (authId : Int64) (w : AuthWorld) : AuthWorld :=
  match w.authGetManagerByAuthId authId with
  | none => w
  | some auth => w.authHandleFail auth

/-- `OnSyncDeviceInfo` of the network layer, for one of the keys it has been told of. -/
def onSyncDeviceInfo (n : ℕ) (env : AuthEnv) (w : AuthWorld) : AuthWorld :=
  match w.generated[n]? with
  | none => w
  | some (_, authId) =>
    let w := { w with generated := w.generated.eraseIdx n }
    if env.packed then (w.authPostData authId .sync env).2 else w

/-! ## Data from the peer -/

def handleReceiveDeviceId (auth : AuthManager) (env : AuthEnv) (w : AuthWorld) : AuthWorld :=
  if !env.unpacked then w.authHandleFail auth
  else if auth.side = .server then w.syncDeviceUuid auth env
  -- `VerifyDeviceDevLvl`
  else if env.packed ∧ ¬ env.hichain then w.authHandleFail auth
  else w

/-- `isSdk`: the module is `MODULE_AUTH_SDK`. -/
def handleReceiveAuthData (auth : AuthManager) (isSdk : Bool) (env : AuthEnv) (w : AuthWorld) :
    AuthWorld :=
  if isSdk ∧ ¬ env.hichain then w.authHandleFail auth else w

end AuthWorld

/-- `ConnModule` of a packet on a socket; `other` is for the modules that are not handled. -/
inductive AuthModule where
  | trustEngine
  | authSdk
  | authConnection
  | udpInfo
  | p2pLink
  | p2pListen
  | timeSync
  | authChannel
  | authMsg
  | other
deriving Repr, DecidableEq

def AuthModule.isAuthTransModule : AuthModule → Bool
  | .udpInfo | .authChannel | .authMsg | .p2pLink | .p2pListen => true
  | _ => false

/-- The part of `ConnPktHead` that is read. -/
structure AuthPktHead where
  module : AuthModule
  seq : Int64
  flag : Int32
deriving Repr, DecidableEq

/-- The part of `AuthDataInfo` that is read; `isSdk` as in `handleReceiveAuthData`. -/
structure AuthDataInfo where
  type : AuthDataType
  isSdk : Bool
  seq : Int64
deriving Repr, DecidableEq

namespace AuthWorld

/-- A packet whose number does not fit is dropped. -/
def isDropped (auth : AuthManager) (fd : Int32) (head : AuthPktHead) : Bool :=
  ¬ head.module.isAuthTransModule ∧ auth.authId ≠ head.seq ∧ auth.authId ≠ fd.toInt64 ∧
    (head.seq ≠ 0 ∨ head.module ≠ .authConnection)

/-- A server takes the id that the client has chosen. -/
def takesPeerId (auth : AuthManager) (fd : Int32) (head : AuthPktHead) : Bool :=
  auth.side = .server ∧ head.flag = 0 ∧ auth.authId = fd.toInt64

def authIpOnDataReceived (fd : Int32) (head : AuthPktHead) (data : List UInt8) (env : AuthEnv)
    (w : AuthWorld) : AuthWorld :=
  match w.authGetManagerByFd fd with
  | none => w
  | some auth =>
    if isDropped auth fd head then w
    else
      match head.module with
      | .trustEngine =>
        if takesPeerId auth fd head then
          w.modify auth ({ · with authId := head.seq })
            |>.handleReceiveDeviceId { auth with authId := head.seq } env
        else
          w.handleReceiveDeviceId auth env
      | .authSdk => w.handleReceiveAuthData auth true env
      | .authConnection => w.authHandlePeerSyncDeviceInfo env.remoteIp auth data
      | .timeSync | .authChannel | .authMsg =>
        if auth.authId = 0 then
          let r := w.getSeq .server
          r.2.modify auth ({ · with authId := r.1 })
        else
          w
      | .udpInfo | .p2pLink | .p2pListen | .other => w

/-- The socket is connected; `trigger` tells whether it can be read from then on. -/
def trySyncDeviceUuid (fd : Int32) (trigger : Bool) (env : AuthEnv) (w : AuthWorld) : AuthWorld :=
  match w.authGetManagerByFd fd with
  | none => w
  | some auth =>
    if auth.side ≠ .client ∨ auth.status ≠ .waitConnectionEstablished then w
    else if trigger then w.syncDeviceUuid auth env
    else w.authHandleFail auth

def handleReceiveData (auth : AuthManager) (info : AuthDataInfo) (data : List UInt8) (env : AuthEnv)
    (w : AuthWorld) : AuthWorld :=
  match info.type with
  | .deviceId => w.handleReceiveDeviceId auth env
  | .auth => w.handleReceiveAuthData auth info.isSdk env
  | .sync => w.authHandlePeerSyncDeviceInfo env.remoteIp auth data
  | .closeAck => w.receiveCloseAck env.remoteIp auth
  | .connection | .other => w

/-- `AuthGetSideByRemoteSeq` answers `SERVER_SIDE_FLAG`. -/
def isServerSeq (seq : Int64) : Bool := seq % 2 = 0

/-- The packet starts an authentication. -/
def isNewServer (seq : Int64) (info : AuthDataInfo) (w : AuthWorld) : Bool :=
  info.type = .deviceId ∧ isServerSeq seq ∧ w.serverSide

/-- `connInfo` is what `ConnGetConnectionInfo` finds. -/
def authOnDataReceived (connectionId : UInt32) (seq : Int64) (info : AuthDataInfo)
    (data : List UInt8) (connInfo : Option ConnectOption) (env : AuthEnv) (w : AuthWorld) : AuthWorld :=
  match w.authGetManagerByConnectionId connectionId with
  | some auth => w.handleReceiveData auth info data env
  | none =>
    if w.isNewServer seq info then
      match connInfo with
      | none => w
      | some option =>
        let r := w.createServerAuth connectionId info.seq option
        match r.1 with
        | none => r.2
        | some auth => r.2.handleReceiveData auth info data env
    else
      w

/-! ## Connections -/

def authVerifyDevice (option : ConnectOption) (requestId : UInt32) (fd : Option Int32)
    (connected : Bool) (w : AuthWorld) : AuthWorld :=
  let r := w.initClientAuthManager .lnn option requestId .none
  let auth := r.1
  let w := r.2
  match option.type with
  | .tcp =>
    match fd with
    | none => w.authHandleLeaveLNN auth.authId
    | some fd => w.modify auth ({ · with fd := fd })
  | .br | .ble => if connected then w else w.authHandleLeaveLNN auth.authId
  | _ => w.deleteAuth auth

def authOnConnectSuccessful (requestId connectionId : UInt32) (env : AuthEnv) (w : AuthWorld) :
    AuthWorld :=
  match w.authGetManagerByRequestId requestId with
  | none => w
  | some auth =>
    w.modify auth ({ · with connectionId := connectionId })
      |>.syncDeviceUuid { auth with connectionId := connectionId } env

def authOnConnectFailed (requestId : UInt32) (w : AuthWorld) : AuthWorld :=
  match w.authGetManagerByRequestId requestId with
  | none => w
  | some auth => w.authHandleFail auth

/-- The result of the request that `TryCreateConnection` has made. -/
def onConnectSuccessed (requestId connectionId : UInt32) (w : AuthWorld) : AuthWorld :=
  match w.authGetManagerByRequestId requestId with
  | none => w
  | some conn =>
    if conn.connCb.onConnOpened ∧ conn.connCb.onConnOpenFailed then
      match w.authGetManagerByConnectionId connectionId with
      | none => (w.emit [.connOpenFailed requestId]).deleteAuth conn
      | some auth => (w.emit [.connOpened requestId auth.authId]).deleteAuth conn
    else
      w.deleteAuth conn

def onConnectFailed (requestId : UInt32) (w : AuthWorld) : AuthWorld :=
  match w.authGetManagerByRequestId requestId with
  | none => w
  | some conn =>
    let w := if conn.connCb.onConnOpenFailed then w.emit [.connOpenFailed requestId] else w
    w.deleteAuth conn

/-- A request on a connection that has been authenticated before: whether it has been made. -/
def tryCreateConnection (option : ConnectOption) (requestId : UInt32) (connected : Bool)
    (w : AuthWorld) : Bool × AuthWorld :=
  if option.type ≠ .br ∧ option.type ≠ .ble then (false, w)
  else
    let r := w.initClientAuthManager .lnn option requestId ⟨true, true⟩
    if connected then (true, r.2) else (false, r.2.authHandleLeaveLNN r.1.authId)

/-- `IsNeedVerifyAgain`: `active` tells whether the connection is still there. -/
def isNeedVerifyAgain (option : ConnectOption) (requestId : UInt32) (active connected : Bool)
    (remoteIp : Option (List UInt8)) (w : AuthWorld) : Bool × AuthWorld :=
  match w.authGetManagerByOption remoteIp option with
  | none => (true, w)
  | some auth =>
    if auth.isP2PLink then (false, w.emit [.connOpened requestId auth.authId])
    else if (auth.option.type = .br ∨ auth.option.type = .ble) ∧ active then
      let r := w.tryCreateConnection option requestId connected
      (!r.1, r.2)
    else
      (true, w)

/-- `AuthOpenCommonConn`: the first request is the one of `TryCreateConnection`. -/
def authOpenCommonConn (moduleId : AuthVerifyModule) (option : ConnectOption) (requestId : UInt32)
    (active connected connected' : Bool) (remoteIp : Option (List UInt8)) (w : AuthWorld) : AuthWorld :=
  let r := w.isNeedVerifyAgain option requestId active connected remoteIp
  if !r.1 then r.2
  else
    let r := r.2.initClientAuthManager moduleId option requestId ⟨true, true⟩
    if connected' then r.2 else r.2.authHandleLeaveLNN r.1.authId

/-- `AuthNotifyLnnDisconn`, with `AuthP2pOnDisconnect` for the P2P module. -/
def authNotifyLnnDisconn (authId : Int64) (w : AuthWorld) : AuthWorld :=
  match w.authGetManagerByAuthId authId with
  | none => w
  | some auth =>
    if auth.side = .server ∧ auth.status.code < AuthStatus.inSyncProgress.code then
      w.authHandleLeaveLNN auth.authId
    else if auth.isAuthP2p ∧ auth.status.code < AuthStatus.authPassed.code ∧
        auth.connCb.onConnOpenFailed then
      w.callConnOpenFailed auth
    else
      w

def authNotifyDisconn (fd : Int32) (w : AuthWorld) : AuthWorld :=
  match w.authGetManagerByFd fd with
  | none => w
  | some auth => w.authNotifyLnnDisconn auth.authId

def authOnDisConnect (connectionId : UInt32) (w : AuthWorld) : AuthWorld :=
  match w.authGetManagerByConnectionId connectionId with
  | none => w
  | some auth =>
    if ¬ auth.isP2PLink ∧ auth.option.type ≠ .br then w
    else
      let w :=
        if auth.status ≠ .authPassed ∧ auth.connCb.onConnOpenFailed then w.callConnOpenFailed auth
        else w
      let w := w.clearSessionKey auth
      let w := if auth.option.type = .br then w.authNotifyLnnDisconn auth.authId else w
      w.deleteAuth auth

/-! ## Runs -/

end AuthWorld

inductive AuthInput where
  | verifyDevice (option : ConnectOption) (requestId : UInt32) (fd : Option Int32) (connected : Bool)
  | openConn (moduleId : AuthVerifyModule) (option : ConnectOption) (requestId : UInt32)
      (active connected connected' : Bool) (remoteIp : Option (List UInt8))
  | openChannel (option : ConnectOption) (fd : Int32)
  | connectSuccessful (requestId connectionId : UInt32) (env : AuthEnv)
  | connectFailed (requestId : UInt32)
  | createSuccessed (requestId connectionId : UInt32)
  | createFailed (requestId : UInt32)
  | addServer (cfd : Int32) (clientAddr : ConnectOption)
  | socketOut (fd : Int32) (trigger : Bool) (env : AuthEnv)
  | ipData (fd : Int32) (head : AuthPktHead) (data : List UInt8) (env : AuthEnv)
  | ipDisconnected (fd : Int32)
  | data (connectionId : UInt32) (seq : Int64) (info : AuthDataInfo) (data : List UInt8)
      (connInfo : Option ConnectOption) (env : AuthEnv)
  | disconnected (connectionId : UInt32)
  | sessionKeyReturned (authId : Int64) (key : AuthWorld.KeyData) (env : AuthEnv)
  | error (authId : Int64)
  | syncDeviceInfo (n : ℕ) (env : AuthEnv)
  | leaveLNN (authId : Int64)
  | timeout (id : UInt16)
deriving Repr, DecidableEq

namespace AuthWorld

def handle (w : AuthWorld) : AuthInput → AuthWorld
  | .verifyDevice option requestId fd connected => w.authVerifyDevice option requestId fd connected
  | .openConn moduleId option requestId active connected connected' remoteIp =>
    w.authOpenCommonConn moduleId option requestId active connected connected' remoteIp
  | .openChannel option fd => w.authOpenChannel option fd
  | .connectSuccessful requestId connectionId env =>
    w.authOnConnectSuccessful requestId connectionId env
  | .connectFailed requestId => w.authOnConnectFailed requestId
  | .createSuccessed requestId connectionId => w.onConnectSuccessed requestId connectionId
  | .createFailed requestId => w.onConnectFailed requestId
  | .addServer cfd clientAddr => w.addAuthServer cfd clientAddr
  | .socketOut fd trigger env => w.trySyncDeviceUuid fd trigger env
  | .ipData fd head data env => w.authIpOnDataReceived fd head data env
  | .ipDisconnected fd => w.authNotifyDisconn fd
  | .data connectionId seq info data connInfo env =>
    w.authOnDataReceived connectionId seq info data connInfo env
  | .disconnected connectionId => w.authOnDisConnect connectionId
  | .sessionKeyReturned authId key env => w.authOnSessionKeyReturned authId key env
  | .error authId => w.authOnError authId
  | .syncDeviceInfo n env => w.onSyncDeviceInfo n env
  | .leaveLNN authId => w.authHandleLeaveLNN authId
  | .timeout id => w.handleAuthTimeout id

/-- Nothing happens after a crash. -/
def step (w : AuthWorld) (input : AuthInput) : AuthWorld :=
  if w.crashed then w else w.handle input

end AuthWorld
end SoftBus.Native
