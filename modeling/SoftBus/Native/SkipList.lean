import Mathlib
import SoftBus.ForStd.DList

/-!
# Skip lists

`skiplist.c`: a list with levels.  A node is linked into as many of the lowest levels as a sequence of random bits says, and
a search goes from the highest level of the list down.  A node is a part of its item, so that both are named by the
item, and the links `forward[i]` and `pre[i]` of all nodes are kept with the ends `hnode[i]` and `tnode[i]` of
level `i`.  The number of nodes itself, of which the source keeps the lowest 32 bits, bounds the steps of a search.
-/

namespace SoftBus.Native
open Function

/-- `MAX_SKIPLIST_LEVEL` -/
def maxSkiplistLevel : ℕ := 16

/-- `MAX_RANDOM_LEV` -/
def maxRandomLev : UInt32 := 1024

structure SkipList (ι : Type*) where
  head : Option ι
  tail : Option ι
  /-- `hnode`, `tnode`, and `forward` and `pre` of the nodes -/
  levels : ℕ → DList ι
  /-- `level` of the nodes -/
  nodeLevel : ι → ℕ
  level : ℕ
  nodeNum : UInt32
  /-- how many nodes there are, not kept by the source -/
  size : ℕ
  randomLev : ℕ → Bool
  randomIndex : UInt32

inductive SkipRet where
  | ok
  | comm
deriving Repr, DecidableEq

variable {ι : Type*} [DecidableEq ι]

/-- What `*p = v` does to the links, for a field `f` of the nodes. -/
def store (f : ι → Option ι) (p v : Option ι) : ι → Option ι := p.elim f fun p => update f p v

/-- The lowest `n` levels change, one after the other. -/
def forLevels (n : ℕ) (f : ℕ → DList ι → DList ι) (levels : ℕ → DList ι) : ℕ → DList ι :=
  (List.range n).foldl (fun levels index => update levels index (f index (levels index))) levels

namespace SkipList

/-- `SkiplistInit`, with the bits of `FILLP_RAND` -/
def skiplistInit (randomLev : ℕ → Bool) : SkipList ι :=
  ⟨none, none, fun _ => .empty, fun _ => 0, 0, 0, 0, randomLev, 0⟩

/-- The loop of `SkiplistRandomLevel` with `more` levels left. -/
def randomLevelLoop (randomLev : ℕ → Bool) : ℕ → UInt32 → ℕ × UInt32
  | 0, index => (maxSkiplistLevel, index + 1)
  | more + 1, index =>
    if randomLev (index &&& (maxRandomLev - 1)).toNat then randomLevelLoop randomLev more (index + 1)
    else (maxSkiplistLevel - (more + 1), index + 1)

def skiplistRandomLevel (list : SkipList ι) : ℕ × SkipList ι :=
  let r := randomLevelLoop list.randomLev (maxSkiplistLevel - 1) list.randomIndex
  (r.1, { list with randomIndex := r.2 })

/-- `SkipListGetPop` -/
def skipListGetPop (list : SkipList ι) : Option ι := list.head

/-- What `SkipListPopValue` does in a level of the first node. -/
def popLevel (head : ι) (d : DList ι) : DList ι :=
  let first := d.next head
  match first with
  | none => { d with first := none, last := none }
  | some _ => { d with first := first, prev := store d.prev first none }

def skipListPopValue (list : SkipList ι) : Option ι × SkipList ι :=
  match list.head with
  | none => (none, list)
  | some head =>
    let list := (List.range (list.nodeLevel head)).reverse.foldl
      (fun list index =>
        { list with
          levels := update list.levels index (popLevel head (list.levels index))
          level := if (list.levels index).next head = none then list.level - 1 else list.level }) list
    let first := (list.levels 0).next head
    (some head,
      { list with
        head := first
        tail := if first = none then none else list.tail
        nodeNum := list.nodeNum - 1
        size := list.size - 1 })

/-- What `SkipListPopTail` does in a level of the last node. -/
def popTailLevel (tail : ι) (d : DList ι) : DList ι :=
  let tnode := d.prev tail
  match tnode with
  | none => { d with first := none, last := none }
  | some _ => { d with next := store d.next tnode none, last := tnode }

def skipListPopTail (list : SkipList ι) : Option ι × SkipList ι :=
  match list.tail with
  | none => (none, list)
  | some tail =>
    let list := (List.range (list.nodeLevel tail)).reverse.foldl
      (fun list index =>
        { list with
          levels := update list.levels index (popTailLevel tail (list.levels index))
          level := if (list.levels index).prev tail = none then list.level - 1 else list.level }) list
    let tnode := (list.levels 0).prev tail
    (some tail,
      { list with
        tail := tnode
        head := if tnode = none then none else list.head
        nodeNum := list.nodeNum - 1
        size := list.size - 1 })

/-! ## Insertion -/

/-- Both `node->forward` and `node->pre` are null in all levels. -/
def resetNode (list : SkipList ι) (node : ι) (level : ℕ) : SkipList ι :=
  { list with
    nodeLevel := update list.nodeLevel node level
    levels := fun index =>
      { list.levels index with
        next := update (list.levels index).next node none
        prev := update (list.levels index).prev node none } }

/-- The node is the only one of the level. -/
def onlyNode (node : ι) (d : DList ι) : DList ι := { d with first := some node, last := some node }

def skipListInsertFirstNode (list : SkipList ι) (node : ι) : SkipList ι :=
  { list with
    head := some node
    tail := some node
    levels := forLevels (list.nodeLevel node) (fun _ => onlyNode node) list.levels
    level := list.nodeLevel node
    nodeNum := list.nodeNum + 1
    size := list.size + 1 }

def tailLevel (node : ι) (d : DList ι) : DList ι :=
  { d with
    prev := update d.prev node d.last
    next := store d.next d.last (some node)
    last := some node }

def skipListInsertAtTail (list : SkipList ι) (node : ι) (curMinLevel : ℕ) : SkipList ι :=
  { list with levels := forLevels curMinLevel (fun _ => tailLevel node) list.levels }

def headLevel (node : ι) (d : DList ι) : DList ι :=
  { d with
    prev := store d.prev d.first (some node)
    next := update d.next node d.first
    first := some node }

def skipListInsertAtHead (list : SkipList ι) (node : ι) (curMinLevel : ℕ) : SkipList ι :=
  { list with levels := forLevels curMinLevel (fun _ => headLevel node) list.levels }

/-- `while (next && list->funcCmp(item, next->item) > 0)` in a level -/
def walk (funcCmp : ι → ι → Int) (d : DList ι) (item : ι) : ℕ → Option ι → Option ι → Option ι × Option ι
  | 0, prev, next => (prev, next)
  | _ + 1, prev, none => (prev, none)
  | steps + 1, prev, some next =>
    if funcCmp item next > 0 then walk funcCmp d item steps (some next) (d.next next) else (prev, some next)

/-- The search from level `n - 1` down: `next` in the lowest level, and `prevRecord`. -/
def findPrev (funcCmp : ι → ι → Int) (list : SkipList ι) (item : ι) :
    ℕ → Option ι → Option ι → (ℕ → Option ι) → Option ι × (ℕ → Option ι)
  | 0, _, next, prevRecord => (next, prevRecord)
  | index + 1, prev, _, prevRecord =>
    let d := list.levels index
    let r := walk funcCmp d item list.size prev (prev.elim d.first d.next)
    findPrev funcCmp list item index r.1 r.2 (update prevRecord index r.1)

def midLevel (node : ι) (prev : Option ι) (d : DList ι) : DList ι :=
  match prev with
  | none =>
    { d with
      next := update d.next node d.first
      prev := store d.prev d.first (some node)
      first := some node }
  | some prev =>
    let forward := d.next prev
    { d with
      next := update (update d.next node forward) prev (some node)
      prev := store (update d.prev node (some prev)) forward (some node)
      last := if forward = none then some node else d.last }

def skiplistInsertAtMid (funcCmp : ι → ι → Int) (list : SkipList ι) (node : ι) (errIfConflict : Bool) (curMinLevel : ℕ) :
    SkipRet × SkipList ι :=
  let r := findPrev funcCmp list node list.level none none fun _ => none
  if r.1.any (funcCmp · node = 0) && errIfConflict then (.comm, list)
  else (.ok, { list with levels := forLevels curMinLevel (fun index => midLevel node (r.2 index)) list.levels })

/-- The end of `SkipListInsert`: the list may get more levels. -/
def raiseLevel (list : SkipList ι) (node : ι) : SkipList ι :=
  let level := list.nodeLevel node
  let levels :=
    if list.level < level then
      forLevels level (fun index d => if list.level ≤ index then onlyNode node d else d) list.levels
    else list.levels
  { list with
    levels := levels
    level := if list.level < level then level else list.level
    nodeNum := list.nodeNum + 1
    size := list.size + 1
    head := (levels 0).first
    tail := (levels 0).last }

def skipListInsert (funcCmp : ι → ι → Int) (list : SkipList ι) (item : ι) (errIfConflict : Bool) : SkipRet × SkipList ι :=
  let r := list.skiplistRandomLevel
  let level := r.1
  let list := r.2.resetNode item level
  match list.head with
  | none => (.ok, list.skipListInsertFirstNode item)
  | some head =>
    let curMinLevel := if list.level > level then level else list.level
    if list.tail.any (funcCmp item · > 0) then (.ok, (list.skipListInsertAtTail item curMinLevel).raiseLevel item)
    else if funcCmp head item > 0 then (.ok, (list.skipListInsertAtHead item curMinLevel).raiseLevel item)
    else
      match list.skiplistInsertAtMid funcCmp item errIfConflict curMinLevel with
      | (.comm, list) => (.comm, list)
      | (.ok, list) => (.ok, list.raiseLevel item)

/-- The items in order, as they are linked in the lowest level. -/
def itemsFrom (d : DList ι) : ℕ → Option ι → List ι
  | _, none => []
  | 0, some _ => []
  | steps + 1, some node => node :: itemsFrom d steps (d.next node)

def items (list : SkipList ι) : List ι := itemsFrom (list.levels 0) list.size list.head

end SkipList

/-! ## The users of a list

Here a node and its item are told apart: a node that is out of the list may come back with another item. -/

/-- A call of a user. -/
inductive SkipListCall (ι α : Type*) where
  | insert (item : α) (node : ι) (errIfConflict : Bool)
  | popValue
  | popTail

/-- What a call returns. -/
inductive SkipListReturn (α : Type*) where
  | ret (ret : SkipRet)
  | item (item : Option α)
deriving Repr, DecidableEq

/-- A list, `item` of the nodes, and what the calls returned so far. -/
structure SkipListUser (ι α : Type*) where
  list : SkipList ι
  item : ι → α
  returned : List (SkipListReturn α)

namespace SkipListUser
variable {α : Type*}

def init (randomLev : ℕ → Bool) (item : ι → α) : SkipListUser ι α := ⟨.skiplistInit randomLev, item, []⟩

def step (funcCmp : α → α → Int) (s : SkipListUser ι α) : SkipListCall ι α → SkipListUser ι α
  | .insert item node errIfConflict =>
    let items := update s.item node item
    let r := s.list.skipListInsert (fun a b => funcCmp (items a) (items b)) node errIfConflict
    ⟨r.2, items, s.returned ++ [.ret r.1]⟩
  | .popValue =>
    let r := s.list.skipListPopValue
    ⟨r.2, s.item, s.returned ++ [.item (r.1.map s.item)]⟩
  | .popTail =>
    let r := s.list.skipListPopTail
    ⟨r.2, s.item, s.returned ++ [.item (r.1.map s.item)]⟩

end SkipListUser
end SoftBus.Native
