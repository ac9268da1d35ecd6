import Mathlib
import SoftBus.ForStd.FirstMatch
import SoftBus.Native.Adapter

/-!
# Maps

`lnn_map.c`: a hash table with chains that gets four times as many chains when there are as many nodes as
chains.  A key is a string without its terminator, and a value is the `valueSize` bytes that are given.  `char` is
signed or not, as `signedChar` says; pointers have eight bytes.  Allocations succeed within the limits
of `SoftBusCalloc`.
-/

namespace SoftBus.Native
open Function

/-- `HDF_MIN_MAP_SIZE` -/
def hdfMinMapSize : UInt32 := 8

/-- `HDF_ENLARGE_FACTOR` -/
def hdfEnlargeFactor : UInt32 := 2

/-- `HDF_MAP_KEY_MAX_SIZE`, with which the size of the value is compared -/
def hdfMapKeyMaxSize : ℕ := 1000

/-- `HDF_MAP_VALUE_MAX_SIZE`, with which the length of the key is compared -/
def hdfMapValueMaxSize : ℕ := 1000

structure MapNode where
  hash : UInt32
  valueSize : ℕ
  key : List UInt8
  value : List UInt8
deriving Repr, DecidableEq

/-- `Map`: the chains, if there are any yet, the number of nodes and that of chains. -/
structure LnnMap where
  nodes : Option (UInt32 → List MapNode)
  nodeSize : UInt32
  bucketSize : UInt32

inductive MapRet where
  | ok
  | err
  | invalidParam
  | memErr
deriving Repr, DecidableEq

/-- A character as a number. -/
def charValue (signedChar : Bool) (c : UInt8) : UInt32 := if signedChar then c.toInt8.toInt32.toUInt32 else c.toUInt32

def mapHash (signedChar : Bool) (key : List UInt8) : UInt32 :=
  (key.foldl (fun hash c => hash * 131 + charValue signedChar c) 0) &&& 0x7FFFFFFF

def mapHashIdx (bucketSize hash : UInt32) : UInt32 := hash &&& (bucketSize - 1)

def mapCreateNode (key : List UInt8) (hash : UInt32) (value : List UInt8) : MapNode :=
  ⟨hash, value.length, key, value⟩

/-- A node comes to the begin of its chain. -/
def addToChain (bucketSize : UInt32) (nodes : UInt32 → List MapNode) (node : MapNode) : UInt32 → List MapNode :=
  update nodes (mapHashIdx bucketSize node.hash) (node :: nodes (mapHashIdx bucketSize node.hash))

/-- What a search for the key goes by. -/
def MapNode.matches (hash : UInt32) (key : List UInt8) (node : MapNode) : Bool := node.hash = hash ∧ node.key = key

namespace LnnMap

def lnnMapInit : LnnMap := ⟨none, 0, 0⟩

def mapAddNode (map : LnnMap) (node : MapNode) : LnnMap :=
  { map with nodes := map.nodes.map fun nodes => addToChain map.bucketSize nodes node }

/-- The nodes in the order in which they are moved. -/
def allNodes (map : LnnMap) : List MapNode :=
  match map.nodes with
  | none => []
  | some nodes => (List.range map.bucketSize.toNat).flatMap fun i => nodes (UInt32.ofNat i)

def mapResize (map : LnnMap) (size : UInt32) : MapRet × LnnMap :=
  if !softBusCalloc (size * 8) then (.memErr, map)
  else (.ok, map.allNodes.foldl mapAddNode { map with nodes := some fun _ => [], bucketSize := size })

variable (signedChar : Bool) (map : LnnMap)

/-- The node with the key. -/
def findNode (key : List UInt8) : Option MapNode :=
  if map.nodeSize = 0 then none
  else
    map.nodes.bind fun nodes =>
      (nodes (mapHashIdx map.bucketSize (mapHash signedChar key))).find? (·.matches (mapHash signedChar key) key)

/-- The first node with the key in its chain changes, or is taken out. -/
def modifyChain (key : List UInt8) (f : List MapNode → List MapNode) : LnnMap :=
  let idx := mapHashIdx map.bucketSize (mapHash signedChar key)
  { map with nodes := map.nodes.map fun nodes => update nodes idx (f (nodes idx)) }

/-- The result of `MapResize` is not looked at. -/
def lnnMapSet (key value : List UInt8) : MapRet × LnnMap :=
  if value.length = 0 then (.invalidParam, map)
  else if value.length > hdfMapKeyMaxSize ∨ key.length > hdfMapValueMaxSize then (.invalidParam, map)
  else
    let hash := mapHash signedChar key
    match map.findNode signedChar key with
    | some node =>
      if node.valueSize ≠ value.length then (.invalidParam, map)
      else
        (.ok, map.modifyChain signedChar key fun chain =>
          chain.modifyFirst (·.matches hash key) ({ · with value := value }))
    | none =>
      let map :=
        if map.nodeSize ≥ map.bucketSize then
          let size := if map.bucketSize < hdfMinMapSize then hdfMinMapSize else map.bucketSize <<< hdfEnlargeFactor
          (map.mapResize size).2
        else map
      let map := map.mapAddNode (mapCreateNode key hash value)
      (.ok, { map with nodeSize := map.nodeSize + 1 })

def lnnMapGet (key : List UInt8) : Option (List UInt8) :=
  (map.findNode signedChar key).map (·.value)

def lnnMapErase (key : List UInt8) : MapRet × LnnMap :=
  if map.nodeSize = 0 ∨ map.nodes.isNone then (.invalidParam, map)
  else
    match map.findNode signedChar key with
    | none => (.err, map)
    | some _ =>
      let map := map.modifyChain signedChar key fun chain => chain.eraseP (·.matches (mapHash signedChar key) key)
      (.ok, { map with nodeSize := map.nodeSize - 1 })

end LnnMap

inductive MapOp where
  | set (key value : List UInt8)
  | get (key : List UInt8)
  | erase (key : List UInt8)
deriving Repr, DecidableEq

inductive MapResult where
  | returned (ret : MapRet)
  | value (value : Option (List UInt8))
deriving Repr, DecidableEq

namespace LnnMap

def apply (signedChar : Bool) (map : LnnMap) : MapOp → MapResult × LnnMap
  | .set key value =>
    let r := map.lnnMapSet signedChar key value
    (.returned r.1, r.2)
  | .get key => (.value (map.lnnMapGet signedChar key), map)
  | .erase key =>
    let r := map.lnnMapErase signedChar key
    (.returned r.1, r.2)

/-- The results of some operations, and the map after them. -/
def run (signedChar : Bool) : List MapOp → LnnMap → List MapResult × LnnMap
  | [], map => ([], map)
  | op :: ops, map =>
    let r := map.apply signedChar op
    let rest := run signedChar ops r.2
    (r.1 :: rest.1, rest.2)

end LnnMap
end SoftBus.Native
