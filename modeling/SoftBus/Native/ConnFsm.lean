import Mathlib

/-!
# The connection state machine of the net builder

`lnn_connection_fsm.c`: one connection joins the network (authentication, exchange of device
information, clean-up of connections with stale information), is online and leaves.  The net
builder posts messages to the machine and the default looper hands them over in order;
timeouts are delayed messages of the machine itself.  What other modules answer while a
message is handled is in `FsmEnv`.  `uses`, `joinsAsked`, `joinResults`, `leavesAsked`,
`leaveResults` and `cleanups` record what happened.
-/

namespace SoftBus.Native

/-- The entries of `g_states`. -/
inductive ConnState where
  | auth | syncDeviceInfo | cleanInvalidConn | online | leaving
deriving DecidableEq, Repr

/-- The codes of a join result; `code 0` is `SOFTBUS_OK`. -/
inductive JoinRet where
  | code (rc : Int32)
  | err | memErr | connFsmDead | joinCanceled | joinLeaving | joinTimeout | devNotTrust | leaveOffline
  | authDisconnect | packDevidFailed
deriving DecidableEq, Repr

/-- `FSM_MSG_TYPE_*` without the timeouts, and `FSM_CTRL_MSG_STOP`. -/
inductive FsmMsg where
  | joinLnn | authKeyGenerated | authDone (retCode : Int32) | syncDeviceInfo | syncDeviceInfoDone
  | leaveInvalidConn | leaveLnn | notTrusted | disconnect | syncOfflineDone | initiateOnline | stop
deriving DecidableEq, Repr

/-- What the other modules answer: the result of `AuthVerifyDevice`, of `LnnConvertAddrToOption`,
    whether the local information can be packed and is sent, the result of
    `ParsePeerNodeInfo` and of the copy of the network id, whether the node is online
    with other information, and whether `SyncOffline` succeeds. -/
structure FsmEnv where
  authVerifyDevice : Int64
  convertAddr : Bool
  packed : Bool
  authPostData : Bool
  parsePeerNodeInfo : Int32
  copyNetworkId : Bool
  nodeInfoChanged : Bool
  syncOffline : Bool

/-- `LnnConnectionFsm`: the state (`none` once stopped), the bits of `connInfo.flag` that
    are read here, whether `connInfo.nodeInfo` is present, the delayed and the queued messages. -/
structure ConnFsm where
  curState : Option ConnState
  isDead : Bool
  authId : Int64
  nodeInfo : Bool
  joinRequest : Bool
  joinAuto : Bool
  leaveRequest : Bool
  leaveAuto : Bool
  listed : Bool
  joinTimeouts : ℕ
  leaveTimeouts : ℕ
  queue : List FsmMsg
  crashed : Bool
  uses : List Bool
  joinsAsked : ℕ
  joinResults : List JoinRet
  leavesAsked : ℕ
  leaveResults : ℕ
  cleanups : ℕ
deriving DecidableEq

namespace ConnFsm

/-- A machine that has been created and started; `authId` is set if the peer asked first. -/
def init (authId : Int64) : ConnFsm :=
  ⟨some .auth, false, authId, false, false, false, false, false, true, 0, 0, [], false, [], 0, [], 0, 0, 0⟩

/-- `LnnFsmPostMessage` -/
@[grind] def post (msg : FsmMsg) (s : ConnFsm) : ConnFsm := { s with queue := s.queue ++ [msg] }

@[grind] def notifyJoinResult (retCode : JoinRet) (s : ConnFsm) : ConnFsm :=
  { s with
    joinResults := if s.joinRequest then s.joinResults ++ [retCode] else s.joinResults
    joinRequest := false
    joinAuto := false }

@[grind] def notifyLeaveResult (s : ConnFsm) : ConnFsm :=
  { s with
    leaveResults := if s.leaveRequest then s.leaveResults + 1 else s.leaveResults
    leaveRequest := false
    leaveAuto := false }

@[grind] def completeJoinLNN (retCode : JoinRet) (s : ConnFsm) : ConnFsm :=
  if retCode = .code 0 then
    -- `LnnAddOnlineNode` and the notifications read the node information
    if s.nodeInfo then
      { s.notifyJoinResult retCode with
        joinTimeouts := 0, uses := s.uses ++ [true], nodeInfo := false }
    else { s with uses := s.uses ++ [false], crashed := true }
  else
    { s.notifyJoinResult retCode with
      joinTimeouts := 0, nodeInfo := false, isDead := true, cleanups := s.cleanups + 1 }

/-- `CompleteLeaveLNN` with `SOFTBUS_OK`, its only use. -/
@[grind] def completeLeaveLNN (s : ConnFsm) : ConnFsm :=
  if s.isDead then s
  else { s.notifyLeaveResult with leaveTimeouts := 0, isDead := true, cleanups := s.cleanups + 1 }

@[grind] def onJoinFail (retCode : JoinRet) (s : ConnFsm) : ConnFsm :=
  if s.isDead then s else s.completeJoinLNN retCode

@[grind] def tryCancelJoinProcedure (s : ConnFsm) : ConnFsm :=
  if s.leaveAuto then s.completeJoinLNN .joinCanceled else s.notifyJoinResult .leaveOffline

@[grind] def onJoinLNNInAuth (env : FsmEnv) (s : ConnFsm) : ConnFsm :=
  if s.isDead then s.notifyJoinResult .connFsmDead
  else if 0 < s.authId then s
  else if env.authVerifyDevice ≤ 0 then
    { s with authId := env.authVerifyDevice }.completeJoinLNN (.code env.authVerifyDevice.toInt32)
  else { s with authId := env.authVerifyDevice, joinTimeouts := s.joinTimeouts + 1 }

@[grind] def onAuthKeyGeneratedInAuth (s : ConnFsm) : ConnFsm :=
  if s.isDead then s
  else if s.joinRequest || s.joinAuto then
    { s with curState := some .syncDeviceInfo }.post .syncDeviceInfo
  else
    { s with curState := some .syncDeviceInfo, joinTimeouts := s.joinTimeouts + 1 }.post .syncDeviceInfo

@[grind] def onAuthDoneInAuth (retCode : Int32) (s : ConnFsm) : ConnFsm :=
  if s.isDead || retCode = 0 then s else s.completeJoinLNN (.code retCode)

@[grind] def onSyncDeviceInfo (env : FsmEnv) (s : ConnFsm) : ConnFsm :=
  if s.isDead || !env.convertAddr then s
  else if !env.packed then s.completeJoinLNN .packDevidFailed
  else if !env.authPostData then s.completeJoinLNN .err
  else s

/-- `OnSyncDeviceInfoDone`; a failed `ParsePeerNodeInfo` frees the node information. -/
@[grind] def onSyncDeviceInfoDone (env : FsmEnv) (s : ConnFsm) : ConnFsm :=
  if s.isDead then s
  else if env.parsePeerNodeInfo ≠ 0 then
    { s with nodeInfo := false }.completeJoinLNN (.code env.parsePeerNodeInfo)
  else if !env.copyNetworkId then { s with nodeInfo := true }.completeJoinLNN .memErr
  else { s with nodeInfo := true }

@[grind] def onAuthDoneInSyncInfo (retCode : Int32) (s : ConnFsm) : ConnFsm :=
  if s.isDead then s
  else if retCode = 0 then { s with curState := some .cleanInvalidConn }.post .leaveInvalidConn
  else s.completeJoinLNN (.code retCode)

/-- The transition to the online state and `OnlineStateEnter` -/
@[grind] def onlineStateEnter (s : ConnFsm) : ConnFsm :=
  if s.isDead then { s with curState := some .online }
  else { s with curState := some .online }.completeJoinLNN (.code 0)

variable (env : FsmEnv) (s : ConnFsm)

/-- `OnLeaveInvalidConn`: the node information is read before the dead flag. -/
@[grind] def onLeaveInvalidConn : ConnFsm :=
  if !s.nodeInfo then { s with uses := s.uses ++ [false], crashed := true }
  else if s.isDead || env.nodeInfoChanged then { s with uses := s.uses ++ [true] }
  else { s with uses := s.uses ++ [true] }.onlineStateEnter

/-- `LeaveLNNInOnline` with `LeavingStateEnter` -/
@[grind] def leaveLNNInOnline : ConnFsm :=
  if s.isDead then s
  else if env.syncOffline then
    { s with curState := some .leaving, leaveTimeouts := s.leaveTimeouts + 1 }
  else { s with curState := some .leaving }.completeLeaveLNN

/-- The `process` functions of the states and `ProcessStopMessage`; a message that its state
    does not handle is freed. -/
@[grind] def process : FsmMsg → ConnFsm
  | .stop => { s with curState := none }
  | .joinLnn =>
    match s.curState with
    | some .auth => s.onJoinLNNInAuth env
    | some .online => s.notifyJoinResult (.code 0)
    | some .leaving => s.notifyJoinResult .joinLeaving
    | some .syncDeviceInfo | some .cleanInvalidConn | none => s
  | .authKeyGenerated => if s.curState = some .auth then s.onAuthKeyGeneratedInAuth else s
  | .authDone retCode =>
    match s.curState with
    | some .auth => s.onAuthDoneInAuth retCode
    | some .syncDeviceInfo => s.onAuthDoneInSyncInfo retCode
    | _ => s
  | .syncDeviceInfo => if s.curState = some .syncDeviceInfo then s.onSyncDeviceInfo env else s
  | .syncDeviceInfoDone => if s.curState = some .syncDeviceInfo then s.onSyncDeviceInfoDone env else s
  | .leaveInvalidConn => if s.curState = some .cleanInvalidConn then s.onLeaveInvalidConn env else s
  | .initiateOnline => if s.curState = some .cleanInvalidConn then s.onlineStateEnter else s
  | .leaveLnn =>
    match s.curState with
    | some .online => s.leaveLNNInOnline env
    | some .auth | some .syncDeviceInfo | some .cleanInvalidConn => s.tryCancelJoinProcedure
    | _ => s
  | .notTrusted =>
    match s.curState with
    | some .online => s.leaveLNNInOnline env
    | some .syncDeviceInfo | some .cleanInvalidConn => s.onJoinFail .devNotTrust
    | _ => s
  | .disconnect =>
    match s.curState with
    | some .online => s.leaveLNNInOnline env
    | some .auth | some .syncDeviceInfo | some .cleanInvalidConn => s.onJoinFail .authDisconnect
    | _ => s
  | .syncOfflineDone => if s.curState = some .leaving then s.completeLeaveLNN else s

end ConnFsm

/-- What can happen to a connection: the net builder posts a join or a leave request (asked for
    by an application, or its own) or another message, the looper hands over the oldest message,
    a delayed message is due, the net builder cleans a dead machine. -/
inductive ConnEvent where
  | join (request : Bool)
  | leave (request : Bool)
  | send (msg : FsmMsg)
  | handle (env : FsmEnv)
  | joinTimeout
  | leaveTimeout
  | clean

/-- The messages that the machine posts to itself or that go with a flag are not sent alone. -/
@[grind] def FsmMsg.sentAlone : FsmMsg → Bool
  | .joinLnn | .leaveLnn | .syncDeviceInfo | .leaveInvalidConn | .stop => false
  | _ => true

namespace ConnFsm

/-- The states in which the connection has not been online. -/
@[grind] def Joining (s : ConnFsm) : Prop :=
  s.curState = some .auth ∨ s.curState = some .syncDeviceInfo ∨ s.curState = some .cleanInvalidConn
deriving Decidable

def step (s : ConnFsm) (e : ConnEvent) : ConnFsm :=
  if s.crashed then s else
  match e with
  -- every `LnnSend…ToConnFsm` refuses a dead machine
  | .join request =>
    if s.isDead then s
    else if request then { s with joinRequest := true, joinsAsked := s.joinsAsked + 1 }.post .joinLnn
    else { s with joinAuto := true }.post .joinLnn
  | .leave request =>
    if s.isDead then s
    else if request then { s with leaveRequest := true, leavesAsked := s.leavesAsked + 1 }.post .leaveLnn
    else { s with leaveAuto := true }.post .leaveLnn
  | .send msg => if s.isDead || !msg.sentAlone then s else s.post msg
  | .handle env =>
    match s.queue with
    | [] => s
    | msg :: rest => { s with queue := rest }.process env msg
  | .joinTimeout =>
    if s.joinTimeouts = 0 then s
    else
      let s := { s with joinTimeouts := s.joinTimeouts - 1 }
      if s.Joining then s.onJoinFail .joinTimeout else s
  | .leaveTimeout =>
    if s.leaveTimeouts = 0 then s
    else
      let s := { s with leaveTimeouts := s.leaveTimeouts - 1 }
      if s.curState = some .leaving then s.completeLeaveLNN else s
  | .clean => if s.isDead && s.listed then { s with listed := false }.post .stop else s

def run (authId : Int64) (es : List ConnEvent) : ConnFsm := es.foldl step (init authId)

end ConnFsm
end SoftBus.Native
