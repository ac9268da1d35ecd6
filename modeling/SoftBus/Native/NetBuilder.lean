import SoftBus.Native.NetLedger

/-!
# The net builder

`ProcessCleanConnectionFsm` of `lnn_net_builder.c`, as far as it takes connections down, and
`ProcessMasterElect`, without the messages it sends.
-/

namespace SoftBus.Native

/-- `ConnectionAddr`: the MAC of a Bluetooth address, or an IP and a port. -/
structure ConnectionAddr where
  type : AddrType
  text : List UInt8
  port : UInt16
deriving DecidableEq

/-- `LnnConnectionFsm`; `isOnline` is the flag `LNN_CONN_INFO_FLAG_ONLINE`. -/
structure LnnConnectionFsm where
  id : UInt16
  addr : ConnectionAddr
  peerNetworkId : List UInt8
  isOnline : Bool
  isDead : Bool
deriving DecidableEq

/-- Whether `strncmp` finds no difference between two strings. -/
def strncmpEq (a b : List UInt8) (n : ℕ) : Bool := a.take n = b.take n

/-- The comparison of `TryDisconnectAllConnection`, in which a Bluetooth address of the list is
    compared with itself. -/
def sameConnection (addr1 addr2 : ConnectionAddr) : Bool :=
  addr1.type = addr2.type &&
    match addr1.type with
    | .br | .ble => strncmpEq addr2.text addr2.text 18
    | .wlan | .eth => strncmpEq addr1.text addr2.text addr1.text.length

/-- The address of which all connections are taken down. -/
def tryDisconnectAllConnection (connFsm : LnnConnectionFsm) (fsmList : List LnnConnectionFsm) :
    Option ConnectionAddr :=
  if !connFsm.isOnline || fsmList.any (sameConnection connFsm.addr ·.addr) then none else some connFsm.addr

def processCleanConnectionFsm (connFsmId : UInt16) (fsmList : List LnnConnectionFsm) :
    Option (List LnnConnectionFsm × Option ConnectionAddr) :=
  match fsmList.find? (·.id = connFsmId) with
  | none => none
  | some connFsm =>
    let fsmList := fsmList.eraseP (·.id = connFsmId)
    some (fsmList, tryDisconnectAllConnection connFsm fsmList)

/-! ## Elections -/

/-- `strcmp`, which compares the bytes as unsigned ones; only the sign of its result is known. -/
def strcmp (a b : List UInt8) : Int32 :=
  if a.map UInt8.toNat < b.map UInt8.toNat then -1 else if a = b then 0 else 1

def lnnCompareNodeWeight (weight1 : Int32) (masterUdid1 : List UInt8) (weight2 : Int32)
    (masterUdid2 : List UInt8) : Int32 :=
  if weight1 ≠ weight2 then weight1 - weight2 else strcmp masterUdid1 masterUdid2

structure ElectMsgPara where
  networkId : List UInt8
  masterUdid : List UInt8
  masterWeight : Int32

/-- The connections, with the nodes that are online and the master that the ledgers have. -/
structure NetBuilder where
  fsmList : List LnnConnectionFsm
  isNodeOnline : List UInt8 → Bool
  masterUdid : List UInt8
  masterWeight : Int32

namespace NetBuilder

/-- The message is from a node with a connection that is online. -/
def hears (s : NetBuilder) (msgPara : ElectMsgPara) : Bool :=
  match s.fsmList.find? (·.peerNetworkId = msgPara.networkId) with
  | none => false
  | some connFsm => !connFsm.isDead && s.isNodeOnline connFsm.peerNetworkId

def processMasterElect (s : NetBuilder) (msgPara : ElectMsgPara) : NetBuilder :=
  if s.hears msgPara ∧
      lnnCompareNodeWeight s.masterWeight s.masterUdid msgPara.masterWeight msgPara.masterUdid < 0 then
    { s with masterUdid := msgPara.masterUdid, masterWeight := msgPara.masterWeight }
  else s

end NetBuilder
end SoftBus.Native
