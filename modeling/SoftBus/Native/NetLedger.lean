import Mathlib

/-!
# One device in the distributed net ledger

`LnnAddOnlineNode` and `LnnSetNodeOffline` of `lnn_distributed_net_ledger.c` on the entry of one
device, with the information that `ParsePeerConnInfo` puts into a new entry.  The ledger does not
know the connections; `NetLedger.up` records which of them are up.
-/

namespace SoftBus.Native

/-- `ConnectionAddrType` -/
inductive AddrType where
  | wlan | br | ble | eth
deriving DecidableEq, Repr

/-- `DiscoveryType`, those an address has. -/
inductive DiscType where
  | wifi | ble | br
deriving DecidableEq, Repr

/-- `LnnConvAddrTypeToDiscType` -/
def AddrType.discType : AddrType → DiscType
  | .wlan | .eth => .wifi
  | .br => .br
  | .ble => .ble

inductive ReportCategory where
  | none | change | online | offline
deriving DecidableEq, Repr

/-- The fields of `NodeInfo` in which connections leave a trace; `discoveryType` by its bits. -/
structure LedgerNode where
  online : Bool
  networkId : String
  discoveryType : DiscType → Bool
  authChannelId : AddrType → Int32
  relation : AddrType → UInt8

namespace LedgerNode

/-- `ParsePeerConnInfo` -/
def parsePeerConnInfo (type : AddrType) (authId : Int32) (networkId : String) : LedgerNode :=
  ⟨false, networkId, fun d => d = type.discType, fun t => if t = type then authId else 0,
    fun t => if t = type then 1 else 0⟩

/-- What becomes of the new information when the node is online already (`MergeLnnInfo`):
    the auth ids are those of the old information. -/
def merge (old info : LedgerNode) : LedgerNode :=
  { info with
    discoveryType := fun d => info.discoveryType d || old.discoveryType d
    relation := fun t => (info.relation t + old.relation t) &&& 3
    authChannelId := old.authChannelId }

def lnnAddOnlineNode (info : LedgerNode) (old : Option LedgerNode) : ReportCategory × LedgerNode :=
  match old with
  | some old =>
    if old.online then
      (if info.networkId ≠ old.networkId then .change else .none, { old.merge info with online := true })
    else (.online, { info with online := true })
  | none => (.online, { info with online := true })

def lnnSetNodeOffline (type : AddrType) (authId : Int32) (info : LedgerNode) :
    ReportCategory × LedgerNode :=
  let info := { info with
    relation := fun t => if t = type ∧ 0 < info.relation t then info.relation t - 1 else info.relation t }
  if info.discoveryType .wifi ∧ type.discType = .wifi ∧ info.authChannelId type ≠ authId then (.none, info)
  else
    let info := { info with discoveryType := fun d => info.discoveryType d && d ≠ type.discType }
    if info.discoveryType .wifi || info.discoveryType .ble || info.discoveryType .br then (.none, info)
    else (.offline, { info with online := false })

end LedgerNode

/-- The entry of the device, the connections that are up and the results so far, newest first. -/
structure NetLedger where
  node : Option LedgerNode
  up : List (AddrType × Int32)
  reports : List ReportCategory

/-- A connection of the device comes up or goes down. -/
inductive LedgerEvent where
  | up (type : AddrType) (authId : Int32) (networkId : String)
  | down (type : AddrType) (authId : Int32)

namespace NetLedger

def init : NetLedger := ⟨none, [], []⟩

def step (s : NetLedger) : LedgerEvent → NetLedger
  | .up type authId networkId =>
    let r := (LedgerNode.parsePeerConnInfo type authId networkId).lnnAddOnlineNode s.node
    ⟨some r.2, (type, authId) :: s.up, r.1 :: s.reports⟩
  | .down type authId =>
    match s.node with
    | some info =>
      if (type, authId) ∈ s.up then
        let r := info.lnnSetNodeOffline type authId
        ⟨some r.2, s.up.erase (type, authId), r.1 :: s.reports⟩
      else s
    | none => s

def isOnline (s : NetLedger) : Bool := s.node.any (·.online)

end NetLedger
end SoftBus.Native
