import Mathlib
import SoftBus.ForStd.FirstMatch
import SoftBus.Native.Adapter

/-!
# The topology of the network

`lnn_topo_manager.c` keeps the relations between devices.  The relation of two devices is stored in the
list of one of them: the device's item in a hash table of 16 lists has the udids of its peers.  The
messages that tell other devices about a change are left out.
-/

namespace SoftBus.Native
open Function

/-- A udid without its terminator. -/
abbrev Udid := List UInt8

/-- A byte for each of the `CONNECTION_ADDR_MAX` types of a connection. -/
abbrev Relation := Vector UInt8 4

/-- `UDID_BUF_LEN` -/
def udidBufLen : ℕ := 65

structure TopoInfo where
  peerUdid : Udid
  relation : Relation
deriving Repr, DecidableEq

structure TopoTableItem where
  udid : Udid
  count : UInt32
  joinList : List TopoInfo
deriving Repr, DecidableEq

/-- The table, on a host of the given byte order. -/
structure TopoHashTable where
  littleEndian : Bool
  table : Fin 16 → List TopoTableItem
  totalCount : UInt32

inductive TopoRet where
  | ok
  | err
  | notFind
  | memErr
deriving Repr, DecidableEq

def isSameRelation (newRelation oldRelation : Relation) : Bool :=
  (newRelation.toList.zip oldRelation.toList).all fun r =>
    !((r.1 ≠ 0 && r.2 = 0) || (r.1 = 0 && r.2 ≠ 0))

def hasRelation (relation : Relation) : Bool := relation.toList.any (· > 0)

/-- `strcpy_s` fails if the udid is too long. -/
def createTopoItem (udid : Udid) : Option TopoTableItem :=
  if udid.length < udidBufLen then some ⟨udid, 0, []⟩ else none

def createTopoInfo (udid : Udid) (relation : Relation) : Option TopoInfo :=
  if udid.length < udidBufLen then some ⟨udid, relation⟩ else none

/-- An entry comes to the begin of the list. -/
def TopoTableItem.add (info : TopoInfo) (item : TopoTableItem) : TopoTableItem :=
  { item with joinList := info :: item.joinList, count := item.count + 1 }

/-- The entry for `peerUdid` gets another relation. -/
def TopoTableItem.setRelation (peerUdid : Udid) (relation : Relation) (item : TopoTableItem) :
    TopoTableItem :=
  { item with joinList := item.joinList.modifyFirst (·.peerUdid = peerUdid) ({ · with relation := relation }) }

def TopoTableItem.delete (peerUdid : Udid) (item : TopoTableItem) : TopoTableItem :=
  { item with joinList := item.joinList.eraseP (·.peerUdid = peerUdid), count := item.count - 1 }

namespace TopoHashTable

/-- After `LnnInitTopoManager`. -/
def init (littleEndian : Bool) : TopoHashTable := ⟨littleEndian, fun _ => [], 0⟩

variable (t : TopoHashTable)

/-- The first four bytes of the udid as a number of the host. -/
def hashIndex (udid : Udid) : Fin 16 :=
  Fin.ofNat 16 (hostWordAt t.littleEndian (udid ++ [0, 0, 0, 0]) 0).toNat

def findTopoItem (udid : Udid) : Option TopoTableItem :=
  (t.table (t.hashIndex udid)).find? (·.udid = udid)

/-- The item in whose list the pair is searched for and to which it is added, and the udid that is used there:
    `FindTopoInfo` and `AddTopoInfo` both look for the item of `udid` and, if there is none, for that
    of `peerUdid`. -/
def findEnd (udid peerUdid : Udid) : Option (TopoTableItem × Udid) :=
  match t.findTopoItem udid with
  | some topoItem => some (topoItem, peerUdid)
  | none => (t.findTopoItem peerUdid).map fun topoItem => (topoItem, udid)

def findTopoInfo (udid peerUdid : Udid) : Option (TopoTableItem × TopoInfo) := do
  let (topoItem, compareUdid) ← t.findEnd udid peerUdid
  let topoInfo ← topoItem.joinList.find? (·.peerUdid = compareUdid)
  return (topoItem, topoInfo)

/-- The item of `udid` changes. -/
def modifyItem (udid : Udid) (f : TopoTableItem → TopoTableItem) : TopoHashTable :=
  { t with
    table := update t.table (t.hashIndex udid)
      ((t.table (t.hashIndex udid)).modifyFirst (·.udid = udid) f) }

def insertItem (topoItem : TopoTableItem) : TopoHashTable :=
  { t with
    table := update t.table (t.hashIndex topoItem.udid)
      (topoItem :: t.table (t.hashIndex topoItem.udid)) }

def deleteItem (udid : Udid) : TopoHashTable :=
  { t with
    table := update t.table (t.hashIndex udid)
      ((t.table (t.hashIndex udid)).eraseP (·.udid = udid)) }

def clearTopoTable : TopoHashTable := { t with table := fun _ => [], totalCount := 0 }

/-- A new item is only kept if the entry can be created. -/
def addTopoInfo (udid peerUdid : Udid) (relation : Relation) : TopoRet × TopoHashTable :=
  match t.findEnd udid peerUdid with
  | some (topoItem, name) =>
    match createTopoInfo name relation with
    | none => (.memErr, t)
    | some topoInfo =>
      (.ok, { t.modifyItem topoItem.udid (·.add topoInfo) with totalCount := t.totalCount + 1 })
  | none =>
    match createTopoItem udid, createTopoInfo peerUdid relation with
    | some topoItem, some topoInfo =>
      (.ok, { t.insertItem (topoItem.add topoInfo) with totalCount := t.totalCount + 1 })
    | _, _ => (.memErr, t)

/-- An item without entries is deleted. -/
def tryDeleteItem (udid : Udid) : TopoHashTable :=
  match t.findTopoItem udid with
  | none => t
  | some topoItem => if topoItem.joinList.isEmpty then t.deleteItem udid else t

def updateLocalTopo (udid peerUdid : Udid) (relation : Relation) : TopoRet × TopoHashTable :=
  match t.findTopoInfo udid peerUdid with
  | none =>
    if !hasRelation relation then (.notFind, t)
    else t.addTopoInfo udid peerUdid relation
  | some (topoItem, topoInfo) =>
    if isSameRelation topoInfo.relation relation then (.err, t)
    else
      let t := t.modifyItem topoItem.udid (·.setRelation topoInfo.peerUdid relation)
      let t :=
        if !hasRelation relation then
          { t.modifyItem topoItem.udid (·.delete topoInfo.peerUdid) with totalCount := t.totalCount - 1 }
        else t
      (.ok, t.tryDeleteItem topoItem.udid)

/-- `none` is `SOFTBUS_NOT_FIND`. -/
def lnnGetRelation (udid peerUdid : Udid) : Option Relation :=
  (t.findTopoInfo udid peerUdid).map (·.2.relation)

end TopoHashTable

structure TopoUpdate where
  udid : Udid
  peerUdid : Udid
  relation : Relation
deriving Repr, DecidableEq

inductive TopoEvent where
  | update (u : TopoUpdate)
  | clear
deriving Repr, DecidableEq

/-- The table, and the updates that were written to it since it was empty. -/
structure TopoRun where
  table : TopoHashTable
  written : List TopoUpdate

namespace TopoRun

def init (littleEndian : Bool) : TopoRun := ⟨.init littleEndian, []⟩

def step (s : TopoRun) : TopoEvent → TopoRun
  | .update u =>
    match s.table.updateLocalTopo u.udid u.peerUdid u.relation with
    | (.ok, table) => ⟨table, s.written ++ [u]⟩
    | (_, table) => { s with table := table }
  | .clear => ⟨s.table.clearTopoTable, []⟩

def run (s : TopoRun) (events : List TopoEvent) : TopoRun := events.foldl step s

end TopoRun
end SoftBus.Native
