import SoftBus.ForStd.FirstMatch

/-!
# Requests for time synchronisation

The packages that ask for a synchronisation with one device share it (`lnn_time_sync_manager.c`): its
accuracy and period stand beside the list of their requests.
-/

namespace SoftBus.Native

/-- `LOW_ACCURACY` -/
def lowAccuracy : Int := 10

/-- `LONG_PERIOD` -/
def longPeriod : Int := 2

structure StartTimeSyncReq where
  pkgName : String
  accuracy : Int
  period : Int
deriving DecidableEq, Repr

structure TimeSyncReqInfo where
  targetNetworkId : String
  startReqList : List StartTimeSyncReq
  curAccuracy : Int
  curPeriod : Int
deriving DecidableEq, Repr

/-- What succeeds of a start: `CreateTimeSyncReqInfo`, `CreateStartTimeSyncReq`, `LnnStartTimeSyncImpl`. -/
structure TimeSyncEnv where
  createInfo : Bool
  createReq : Bool
  startImpl : Bool

namespace TimeSyncReqInfo

variable (info : TimeSyncReqInfo)

/-- `TryUpdateStartTimeSyncReq`; the new values replace both old ones. -/
def tryUpdateStartTimeSyncReq (createReq : Bool) (startReq : StartTimeSyncReq) :
    Option TimeSyncReqInfo :=
  match info.startReqList.find? (·.pkgName = startReq.pkgName) with
  | some item =>
    if item.accuracy < startReq.accuracy ∨ item.period > startReq.period then
      some { info with
        startReqList := info.startReqList.modifyFirst (·.pkgName = startReq.pkgName) fun _ => startReq }
    else some info
  | none => if createReq then some { info with startReqList := startReq :: info.startReqList } else none

def removeStartTimeSyncReq (pkgName : String) : TimeSyncReqInfo :=
  { info with startReqList := info.startReqList.eraseP (·.pkgName = pkgName) }

def tryUpdateTimeSyncReqInfo (accuracy period : Int) : Bool × TimeSyncReqInfo :=
  if info.curAccuracy < accuracy ∨ info.curPeriod > period then
    (true, { info with curAccuracy := accuracy, curPeriod := period })
  else (false, info)

/-- The part of `ProcessStartTimeSyncRequest` after the synchronisation has been found or created. -/
def start (env : TimeSyncEnv) (isStart : Bool) (para : StartTimeSyncReq) : Bool × TimeSyncReqInfo :=
  match info.tryUpdateStartTimeSyncReq env.createReq para with
  | none => (false, info)
  | some info =>
    if isStart && !env.startImpl then (false, info.removeStartTimeSyncReq para.pkgName) else (true, info)

/-- `TryUpdateTimeSyncReq`; without a request the synchronisation ends. -/
def tryUpdateTimeSyncReq : Option TimeSyncReqInfo :=
  let cur := info.startReqList.foldl (fun cur item => (max cur.1 item.accuracy, min cur.2 item.period))
    (lowAccuracy, longPeriod)
  if info.startReqList.isEmpty then none
  else if cur.1 > info.curAccuracy ∨ cur.2 < info.curPeriod then
    some { info with curAccuracy := cur.1, curPeriod := cur.2 }
  else some info

end TimeSyncReqInfo

/-- The messages; `failed` says that the code of a result is one of those that end the synchronisation. -/
inductive TimeSyncMessage where
  | start (env : TimeSyncEnv) (targetNetworkId : String) (para : StartTimeSyncReq)
  | stop (targetNetworkId pkgName : String)
  | complete (networkId : String) (failed : Bool)
  | removeAll

/-- `TimeSyncMessageHandler` on `reqList` -/
def timeSyncMessageHandler (reqList : List TimeSyncReqInfo) : TimeSyncMessage → List TimeSyncReqInfo
  | .start env target para =>
    match reqList.find? (·.targetNetworkId = target) with
    | none =>
      let r := TimeSyncReqInfo.start ⟨target, [], para.accuracy, para.period⟩ env true para
      if env.createInfo && r.1 then r.2 :: reqList else reqList
    | some existInfo =>
      let (isUpdate, info) := existInfo.tryUpdateTimeSyncReqInfo para.accuracy para.period
      reqList.modifyFirst (·.targetNetworkId = target) fun _ => (info.start env isUpdate para).2
  | .stop target pkgName =>
    match reqList.find? (·.targetNetworkId = target) with
    | none => reqList
    | some info =>
      match (info.removeStartTimeSyncReq pkgName).tryUpdateTimeSyncReq with
      | some info => reqList.modifyFirst (·.targetNetworkId = target) fun _ => info
      | none => reqList.eraseP (·.targetNetworkId = target)
  | .complete networkId failed => if failed then reqList.eraseP (·.targetNetworkId = networkId) else reqList
  | .removeAll => []

end SoftBus.Native
