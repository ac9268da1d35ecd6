import Mathlib
import SoftBus.ForStd.Buckets
import SoftBus.Native.LnnMap

/-!
# Maps refine finite maps

The chains hold a finite map: a search in the chain of a key finds the value of the key.  Adding to a
chain, overwriting, taking out and moving all nodes to more chains keep this, whatever the hashes are.
`nodeSize` counts the keys modulo `2 ^ 32`, and no chain is searched when it is `0`; so the results are
those of the finite map as long as there are fewer keys than that.
-/

namespace SoftBus.Native
open Function List Finmap Option UInt32
variable {m : AbsMap} {key : List UInt8} {node : MapNode} {nodes : UInt32 → List MapNode} {value : List UInt8}

/-! ## The finite map -/

/-- What a `Map` is for. -/
abbrev AbsMap := Finmap fun _ : List UInt8 => List UInt8

namespace AbsMap

/-- The value of a key is overwritten by one of the same size only. -/
def set (m : AbsMap) (key value : List UInt8) : MapRet × AbsMap :=
  if value.length = 0 ∨ value.length > hdfMapKeyMaxSize ∨ key.length > hdfMapValueMaxSize then (.invalidParam, m)
  else
    match m.lookup key with
    | some old => if old.length = value.length then (.ok, m.insert key value) else (.invalidParam, m)
    | none => (.ok, m.insert key value)

def erase (m : AbsMap) (key : List UInt8) : MapRet × AbsMap :=
  if m = ∅ then (.invalidParam, m)
  else if key ∈ m then (.ok, Finmap.erase key m)
  else (.err, m)

def apply (m : AbsMap) : MapOp → MapResult × AbsMap
  | .set key value => (.returned (m.set key value).1, (m.set key value).2)
  | .get key => (.value (m.lookup key), m)
  | .erase key => (.returned (m.erase key).1, (m.erase key).2)

/-- The results of some operations, and the map after them. -/
def run : List MapOp → AbsMap → List MapResult × AbsMap
  | [], m => ([], m)
  | op :: ops, m => ((m.apply op).1 :: (run ops (m.apply op).2).1, (run ops (m.apply op).2).2)

theorem run_concat (ops : List MapOp) (op : MapOp) :
    m.run (ops ++ [op]) = ((m.run ops).1 ++ [((m.run ops).2.apply op).1], ((m.run ops).2.apply op).2) := by
  induction ops generalizing m with
  | nil => rfl
  | cons op' ops ih => simp only [cons_append, run, ih]

theorem card_keys_insert (h : m.lookup key = none) : (m.insert key value).keys.card = m.keys.card + 1 := by
  have hkeys : (m.insert key value).keys = insert key m.keys := by
    ext k
    rw [Finmap.mem_keys, Finmap.mem_insert, Finset.mem_insert, Finmap.mem_keys]
  rw [hkeys, Finset.card_insert_of_notMem]
  rwa [Finmap.mem_keys, ← Finmap.lookup_eq_none]

theorem keys_insert_of_mem (h : key ∈ m) : (m.insert key value).keys = m.keys := by
  ext k
  rw [Finmap.mem_keys, Finmap.mem_insert]
  exact ⟨fun hk => hk.elim (fun heq => heq ▸ h) id, .inr⟩

theorem eq_empty_of_card (h : m.keys.card = 0) : m = ∅ := by
  refine ext_lookup fun key => ?_
  rw [Finmap.lookup_empty, Finmap.lookup_eq_none, ← Finmap.mem_keys, Finset.card_eq_zero.1 h]
  exact Finset.notMem_empty key

end AbsMap

/-! ## Chains -/

/-- The chain in which the key is searched for. -/
def chainOf (signedChar : Bool) (bucketSize : UInt32) (key : List UInt8) : UInt32 :=
  mapHashIdx bucketSize (mapHash signedChar key)

theorem mapHashIdx_lt {bucketSize : UInt32} (h : bucketSize ≠ 0) (hash : UInt32) :
    (mapHashIdx bucketSize hash).toNat < bucketSize.toNat := by
  have hpos : bucketSize.toNat ≠ 0 := fun h0 => h (UInt32.toNat_inj.1 h0)
  have hle : (mapHashIdx bucketSize hash).toNat ≤ (bucketSize - 1).toNat := by
    exact Nat.and_le_right
  have hone : (1 : UInt32) ≤ bucketSize := le_iff_toNat_le.2 (by
    change 1 ≤ bucketSize.toNat
    omega)
  rw [UInt32.toNat_sub_of_le _ _ hone] at hle
  change _ ≤ bucketSize.toNat - 1 at hle
  omega

/-- The chains hold the finite map `m`. -/
structure Holds (signedChar : Bool) (bucketSize : UInt32) (nodes : UInt32 → List MapNode) (m : AbsMap) : Prop where
  bucketSize_ne : bucketSize ≠ 0
  ok : Buckets.Ok (chainOf signedChar bucketSize) MapNode.key nodes
  node : ∀ i, ∀ node ∈ nodes i, node.hash = mapHash signedChar node.key ∧ node.valueSize = node.value.length
  find : ∀ key, (Buckets.find (chainOf signedChar bucketSize) MapNode.key nodes key).map (·.value) = m.lookup key

namespace Holds
variable {signedChar : Bool} {bucketSize : UInt32}

theorem empty (h : bucketSize ≠ 0) : Holds signedChar bucketSize (fun _ => []) ∅ := by
  refine ⟨h, ⟨fun i a ha => absurd ha not_mem_nil, fun i => nodup_nil⟩,
    fun i a ha => absurd ha not_mem_nil, fun key => ?_⟩
  rfl

section
variable (h : Holds signedChar bucketSize nodes m)
include h

/-- In a chain the key of a node says whether it is the one searched for. -/
theorem matches_eq {i : UInt32} :
    ∀ node ∈ nodes i, node.matches (mapHash signedChar key) key = decide (node.key = key) := by
  intro node hnode
  rw [MapNode.matches, decide_eq_decide, (h.node i node hnode).1]
  exact ⟨And.right, fun heq => ⟨by rw [heq], heq⟩⟩

theorem find?_matches :
    (nodes (chainOf signedChar bucketSize key)).find? (·.matches (mapHash signedChar key) key) =
      Buckets.find (chainOf signedChar bucketSize) MapNode.key nodes key :=
  find?_congr h.matches_eq

theorem find_none_of_lookup (hkey : m.lookup key = none) :
    Buckets.find (chainOf signedChar bucketSize) MapNode.key nodes key = none := by
  rw [← h.find] at hkey
  exact map_eq_none_iff.1 hkey

end

/-! ## Operations on the chains -/

theorem addToChain_eq (hhash : node.hash = mapHash signedChar node.key) :
    addToChain bucketSize nodes node = update nodes (chainOf signedChar bucketSize node.key)
        (node :: nodes (chainOf signedChar bucketSize node.key)) := by
  rw [addToChain, hhash, chainOf]

section
variable (h : Holds signedChar bucketSize nodes m)
include h

/-- A new list in the place of one chain. -/
theorem node_update {idx : UInt32} {chain : List MapNode}
    (hchain : ∀ node ∈ chain, node.hash = mapHash signedChar node.key ∧ node.valueSize = node.value.length) :
    ∀ i, ∀ node ∈ update nodes idx chain i,
      node.hash = mapHash signedChar node.key ∧ node.valueSize = node.value.length := by
  intro i node hnode
  by_cases hi : i = idx
  · subst hi
    rw [update_self] at hnode
    exact hchain node hnode
  · rw [update_of_ne hi] at hnode
    exact h.node i node hnode

theorem add (hhash : node.hash = mapHash signedChar node.key)
    (hsize : node.valueSize = node.value.length) (hkey : m.lookup node.key = none) :
    Holds signedChar bucketSize (addToChain bucketSize nodes node) (m.insert node.key node.value) := by
  rw [addToChain_eq hhash]
  refine ⟨h.bucketSize_ne, h.ok.cons (h.find_none_of_lookup hkey), h.node_update ?_, fun key => ?_⟩
  · rw [forall_mem_cons]
    exact ⟨⟨hhash, hsize⟩, h.node _⟩
  · rw [Buckets.find_cons]
    split
    · next heq => rw [heq, lookup_insert, map_some]
    · next hne => rw [lookup_insert_of_ne _ hne, h.find]

theorem overwrite {value old : List UInt8} (hold : m.lookup key = some old)
    (hsize : old.length = value.length) :
    Holds signedChar bucketSize
      (update nodes (chainOf signedChar bucketSize key)
        ((nodes (chainOf signedChar bucketSize key)).modifyFirst (·.matches (mapHash signedChar key) key)
          ({ · with value := value }))) (m.insert key value) := by
  rw [modifyFirst_congr h.matches_eq]
  obtain ⟨found, hfound, hval⟩ := map_eq_some_iff.1 ((h.find key).trans hold)
  refine ⟨h.bucketSize_ne, h.ok.modify fun _ => rfl, h.node_update fun node hnode => ?_, fun k => ?_⟩
  · rcases mem_of_mem_modifyFirst hnode with hnode | ⟨node', hnode', rfl⟩
    · exact h.node _ node hnode
    · -- the node that is overwritten had a value of this size
      obtain rfl : node' = found := some.inj (hnode'.symm.trans hfound)
      have hnode := h.node _ node' (mem_of_find?_eq_some hnode')
      exact ⟨hnode.1, hnode.2.trans (hval ▸ hsize)⟩
  · have hkeep : ∀ node : MapNode, ({ node with value := value } : MapNode).key = node.key := fun _ => rfl
    rw [Buckets.find_modify hkeep]
    split
    · next heq => rw [heq, lookup_insert, hfound, map_some, map_some]
    · next hne => rw [lookup_insert_of_ne _ hne, h.find]

theorem erase : Holds signedChar bucketSize (update nodes (chainOf signedChar bucketSize key)
        ((nodes (chainOf signedChar bucketSize key)).eraseP (·.matches (mapHash signedChar key) key)))
      (Finmap.erase key m) := by
  rw [eraseP_congr h.matches_eq]
  refine ⟨h.bucketSize_ne, h.ok.erase, h.node_update fun node hnode => h.node _ node (mem_of_mem_eraseP hnode),
    fun k => ?_⟩
  rw [Buckets.find_erase h.ok]
  split
  · next heq => rw [heq, lookup_erase, map_none]
  · next hne => rw [lookup_erase_ne hne, h.find]

end

/-- The numbers of the chains. -/
def chainIdxs (bucketSize : UInt32) : List UInt32 := (List.range bucketSize.toNat).map UInt32.ofNat

theorem nodup_chainIdxs : (chainIdxs bucketSize).Nodup := by
  refine List.Nodup.map_on (fun i hi j hj heq => ?_) nodup_range
  have hlt : bucketSize.toNat < 2 ^ 32 := bucketSize.toNat_lt
  rw [mem_range] at hi hj
  have heq := congrArg toNat heq
  rwa [toNat_ofNat_of_lt' (Nat.lt_trans hi hlt), toNat_ofNat_of_lt' (Nat.lt_trans hj hlt)] at heq

theorem chainOf_mem_chainIdxs (h : bucketSize ≠ 0) :
    chainOf signedChar bucketSize key ∈ chainIdxs bucketSize :=
  mem_map.2 ⟨_, mem_range.2 (mapHashIdx_lt h _), UInt32.ofNat_toNat⟩

/-- The nodes of all chains, moved to new ones. -/
theorem rehash (h : Holds signedChar bucketSize nodes m) {size : UInt32} (hsize : size ≠ 0) :
    Holds signedChar size (((chainIdxs bucketSize).flatMap nodes).foldl (addToChain size) fun _ => []) m := by
  have hempty : Holds signedChar size (fun _ => []) ∅ := empty hsize
  have hnode : ∀ node ∈ (chainIdxs bucketSize).flatMap nodes,
      node.hash = mapHash signedChar node.key ∧ node.valueSize = node.value.length := by
    intro node hnode
    obtain ⟨i, -, hi⟩ := mem_flatMap.1 hnode
    exact h.node i node hi
  have hadd : ∀ b, ∀ node ∈ (chainIdxs bucketSize).flatMap nodes, addToChain size b node =
      update b (chainOf signedChar size node.key) (node :: b (chainOf signedChar size node.key)) :=
    fun b node hmem => addToChain_eq (hnode node hmem).1
  rw [foldl_ext (addToChain size) _ _ hadd]
  obtain ⟨hok, hfind⟩ := Buckets.foldl_cons hempty.ok (Buckets.nodup_flatMap h.ok nodup_chainIdxs) fun _ _ => rfl
  refine ⟨hsize, hok, fun i node hmem => ?_, fun key => ?_⟩
  · -- a node of the new chains is one of those that were moved
    have hmoved := hfind node.key
    rw [Buckets.find_of_mem hok hmem] at hmoved
    rcases or_eq_some_iff.1 hmoved.symm with hmoved | ⟨-, hmoved⟩
    · exact hnode node (mem_of_find?_eq_some hmoved)
    · exact absurd (hmoved.symm.trans (hempty.find_none_of_lookup (lookup_empty _))) (some_ne_none node)
  · rw [hfind, hempty.find_none_of_lookup (lookup_empty _), or_none,
      Buckets.find?_flatMap h.ok (chainOf_mem_chainIdxs h.bucketSize_ne), h.find]

end Holds

/-! ## Maps -/

/-- A map holds the finite map `m`.  There are no chains before the first key is set. -/
structure Refines (signedChar : Bool) (map : LnnMap) (m : AbsMap) : Prop where
  nodeSize : map.nodeSize = UInt32.ofNat m.keys.card
  nodes : (map.nodes = none ∧ map.bucketSize = 0 ∧ m = ∅) ∨
    ∃ nodes, map.nodes = some nodes ∧ Holds signedChar map.bucketSize nodes m

namespace Refines
variable {signedChar : Bool} {map : LnnMap}

theorem init : Refines signedChar .lnnMapInit ∅ := ⟨rfl, .inl ⟨rfl, rfl, rfl⟩⟩

/-- The count says whether there are keys, if there are fewer than `2 ^ 32`. -/
theorem nodeSize_eq_zero (h : Refines signedChar map m) (hlt : m.keys.card < 2 ^ 32) : map.nodeSize = 0 ↔ m = ∅ := by
  rw [h.nodeSize]
  constructor
  · intro h0
    refine AbsMap.eq_empty_of_card ?_
    rw [← toNat_ofNat_of_lt' hlt, h0]
    rfl
  · rintro rfl
    rfl

/-- What a search finds. -/
theorem findNode_eq (h : Refines signedChar map m) (hlt : m.keys.card < 2 ^ 32) (key : List UInt8) :
    (map.findNode signedChar key).map (·.value) = m.lookup key ∧
      ∀ node, map.findNode signedChar key = some node → node.valueSize = node.value.length := by
  unfold LnnMap.findNode
  split
  · next h0 =>
    rw [(h.nodeSize_eq_zero hlt).1 h0]
    exact ⟨rfl, fun node hnode => by cases hnode⟩
  · rcases h.nodes with ⟨hnone, -, rfl⟩ | ⟨nodes, hnodes, hholds⟩
    · rw [hnone]
      exact ⟨rfl, fun node hnode => by cases hnode⟩
    · rw [hnodes]
      change Option.map _ (List.find? _ (nodes (chainOf _ _ _))) = _ ∧ _
      refine ⟨by rw [hholds.find?_matches, hholds.find], fun node hnode => ?_⟩
      exact (hholds.node _ node (mem_of_find?_eq_some hnode)).2

theorem foldl_mapAddNode (l : List MapNode) (nodes : UInt32 → List MapNode) (nodeSize bucketSize : UInt32) :
    l.foldl LnnMap.mapAddNode ⟨some nodes, nodeSize, bucketSize⟩ =
      ⟨some (l.foldl (addToChain bucketSize) nodes), nodeSize, bucketSize⟩ := by
  induction l generalizing nodes with
  | nil => rfl
  | cons node l ih => exact ih (addToChain bucketSize nodes node)

/-- More chains, if there are some already; there may be no memory for them. -/
theorem mapResize_some (hnodes : map.nodes = some nodes) (h : Holds signedChar map.bucketSize nodes m) (size : UInt32) :
    ∃ nodes', (map.mapResize size).2.nodes = some nodes' ∧
      Holds signedChar (map.mapResize size).2.bucketSize nodes' m ∧
      (map.mapResize size).2.nodeSize = map.nodeSize := by
  unfold LnnMap.mapResize
  split
  · exact ⟨nodes, hnodes, h, rfl⟩
  · next hcalloc =>
    have hsize : size ≠ 0 := by
      rintro rfl
      exact hcalloc rfl
    have hall : map.allNodes = (Holds.chainIdxs map.bucketSize).flatMap nodes := by
      rw [LnnMap.allNodes, hnodes, Holds.chainIdxs, flatMap_map]
    rw [hall, foldl_mapAddNode]
    exact ⟨_, rfl, h.rehash hsize, rfl⟩

/-- There are chains when a node is to be added. -/
theorem grown (h : Refines signedChar map m) {grown : LnnMap}
    (hgrown : grown =
      if map.nodeSize ≥ map.bucketSize then
        (map.mapResize (if map.bucketSize < hdfMinMapSize then hdfMinMapSize
          else map.bucketSize <<< hdfEnlargeFactor)).2
      else map) :
    ∃ nodes, grown.nodes = some nodes ∧ Holds signedChar grown.bucketSize nodes m ∧
      grown.nodeSize = map.nodeSize := by
  rcases h.nodes with ⟨hnone, hsize, rfl⟩ | ⟨nodes, hnodes, hholds⟩
  · have hnodeSize := h.nodeSize
    have hresize : map.mapResize hdfMinMapSize = (.ok, ⟨some fun _ => [], map.nodeSize, hdfMinMapSize⟩) := by
      rw [LnnMap.mapResize, LnnMap.allNodes, hnone]
      rfl
    rw [hnodeSize, hsize, if_pos (by decide), if_pos (by decide), hresize] at hgrown
    have hmin : hdfMinMapSize ≠ 0 := by decide
    rw [hgrown]
    exact ⟨fun _ => [], rfl, Holds.empty hmin, rfl⟩
  · split at hgrown
    · rw [hgrown]
      exact mapResize_some hnodes hholds _
    · rw [hgrown]
      exact ⟨nodes, hnodes, hholds, rfl⟩

/-- There are chains when there is a key. -/
theorem exists_holds (h : Refines signedChar map m) (hkey : key ∈ m) :
    ∃ nodes, map.nodes = some nodes ∧ Holds signedChar map.bucketSize nodes m := by
  rcases h.nodes with ⟨-, -, rfl⟩ | hholds
  · exact absurd hkey notMem_empty
  · exact hholds

/-- A change of the chain of a key. -/
theorem modifyChain_nodes (hnodes : map.nodes = some nodes) (f : List MapNode → List MapNode) :
    (map.modifyChain signedChar key f).nodes = some (update nodes (chainOf signedChar map.bucketSize key)
        (f (nodes (chainOf signedChar map.bucketSize key)))) := by
  rw [LnnMap.modifyChain, hnodes]
  rfl

theorem mapAddNode_nodes (hnodes : map.nodes = some nodes) :
    (map.mapAddNode node).nodes = some (addToChain map.bucketSize nodes node) := by
  rw [LnnMap.mapAddNode, hnodes]
  rfl

/-! ## Operations -/

section
variable (h : Refines signedChar map m) (hlt : m.keys.card < 2 ^ 32)
include h hlt

theorem set : (map.lnnMapSet signedChar key value).1 = (m.set key value).1 ∧
      Refines signedChar (map.lnnMapSet signedChar key value).2 (m.set key value).2 := by
  obtain ⟨hfind, hsize⟩ := h.findNode_eq hlt key
  unfold LnnMap.lnnMapSet AbsMap.set
  by_cases h0 : value.length = 0
  · rw [if_pos h0, if_pos (.inl h0)]
    exact ⟨rfl, h⟩
  by_cases hlimit : value.length > hdfMapKeyMaxSize ∨ key.length > hdfMapValueMaxSize
  · rw [if_neg h0, if_pos hlimit, if_pos (.inr hlimit)]
    exact ⟨rfl, h⟩
  rw [if_neg h0, if_neg hlimit, if_neg (not_or.2 ⟨h0, hlimit⟩)]
  cases hnode : map.findNode signedChar key with
  | some node =>
    rw [hnode, map_some] at hfind
    simp only [← hfind, hsize node hnode]
    by_cases hlen : node.value.length = value.length
    · rw [if_neg (not_not.2 hlen), if_pos hlen]
      have hmem := mem_of_lookup_eq_some hfind.symm
      obtain ⟨nodes, hnodes, hholds⟩ := h.exists_holds hmem
      refine ⟨rfl, ?_, .inr ⟨_, modifyChain_nodes hnodes _, hholds.overwrite hfind.symm hlen⟩⟩
      rw [AbsMap.keys_insert_of_mem hmem]
      exact h.nodeSize
    · rw [if_pos hlen, if_neg hlen]
      exact ⟨rfl, h⟩
  | none =>
    rw [hnode, map_none] at hfind
    simp only [← hfind]
    obtain ⟨nodes, hnodes, hholds, hnodeSize⟩ := h.grown rfl
    refine ⟨trivial, ?_, .inr ⟨_, mapAddNode_nodes hnodes, hholds.add rfl rfl hfind.symm⟩⟩
    rw [AbsMap.card_keys_insert hfind.symm, ofNat_add, ← h.nodeSize]
    exact congrArg (· + 1) hnodeSize

theorem erase : (map.lnnMapErase signedChar key).1 = (m.erase key).1 ∧
      Refines signedChar (map.lnnMapErase signedChar key).2 (m.erase key).2 := by
  have hfind := (h.findNode_eq hlt key).1
  have hempty : (map.nodeSize = 0 ∨ map.nodes.isNone = true) ↔ m = ∅ := by
    rw [h.nodeSize_eq_zero hlt, or_iff_left_iff_imp]
    intro hnone
    rcases h.nodes with ⟨-, -, hm⟩ | ⟨nodes, hnodes, -⟩
    · exact hm
    · rw [hnodes] at hnone
      cases hnone
  unfold LnnMap.lnnMapErase AbsMap.erase
  simp only [hempty]
  split
  · exact ⟨rfl, h⟩
  cases hnode : map.findNode signedChar key with
  | none =>
    rw [hnode, map_none, eq_comm, lookup_eq_none] at hfind
    rw [if_neg hfind]
    exact ⟨rfl, h⟩
  | some node =>
    rw [hnode] at hfind
    have hmem := mem_of_lookup_eq_some hfind.symm
    rw [if_pos hmem]
    obtain ⟨nodes, hnodes, hholds⟩ := h.exists_holds hmem
    refine ⟨rfl, ?_, .inr ⟨_, modifyChain_nodes hnodes _, hholds.erase⟩⟩
    have hcard := Finset.card_erase_add_one (mem_keys.2 hmem)
    change map.nodeSize - 1 = _
    rw [h.nodeSize, ← hcard, ofNat_add, keys_erase]
    exact UInt32.add_sub_cancel _ _

theorem apply (op : MapOp) :
    (map.apply signedChar op).1 = (m.apply op).1 ∧ Refines signedChar (map.apply signedChar op).2 (m.apply op).2 := by
  cases op with
  | set key value =>
    obtain ⟨hret, hrefines⟩ := h.set hlt
    exact ⟨congrArg _ hret, hrefines⟩
  | get key => exact ⟨congrArg _ (h.findNode_eq hlt key).1, h⟩
  | erase key =>
    obtain ⟨hret, hrefines⟩ := h.erase hlt
    exact ⟨congrArg _ hret, hrefines⟩

end

theorem run_concat (ops : List MapOp) (op : MapOp) (map : LnnMap) :
    map.run signedChar (ops ++ [op]) =
      ((map.run signedChar ops).1 ++ [((map.run signedChar ops).2.apply signedChar op).1],
        ((map.run signedChar ops).2.apply signedChar op).2) := by
  induction ops generalizing map with
  | nil => rfl
  | cons op' ops ih => simp only [cons_append, LnnMap.run, ih]

/-- A run, as long as there are fewer than `2 ^ 32` keys before every operation. -/
theorem run (h : Refines signedChar map m) {ops : List MapOp}
    (hlt : ∀ pre op, pre ++ [op] <+: ops → (AbsMap.run pre m).2.keys.card < 2 ^ 32) :
    (map.run signedChar ops).1 = (m.run ops).1 ∧ Refines signedChar (map.run signedChar ops).2 (m.run ops).2 := by
  induction ops using reverseRecOn with
  | nil => exact ⟨rfl, h⟩
  | append_singleton ops op ih =>
    obtain ⟨hres, hrefines⟩ := ih fun pre op' hpre => hlt pre op' (hpre.trans (prefix_append _ _))
    obtain ⟨hret, hnext⟩ := hrefines.apply (hlt ops op prefix_rfl) op
    rw [run_concat, AbsMap.run_concat, hres, hret]
    exact ⟨rfl, hnext⟩

end Refines

/-! ## Runs -/

/-- A key that is overwritten, not overwritten by a value of another size, erased and not found. -/
def oneKeyOps : List MapOp :=
  [.set [97] [1, 2], .set [97] [3, 4], .set [97] [5], .get [97], .erase [98], .erase [97], .get [97]]

/-- The `n`-th of `2 ^ 32` keys. -/
def nthKey (n : ℕ) : List UInt8 := (List.range 32).map fun i => if n.testBit i then 2 else 1

/-- The first `n` keys are set. -/
def setKeys (n : ℕ) : List MapOp := (List.range n).map fun i => .set (nthKey i) [0]

theorem nthKey_inj {a b : ℕ} (ha : a < 2 ^ 32) (hb : b < 2 ^ 32) (h : nthKey a = nthKey b) : a = b := by
  refine Nat.eq_of_testBit_eq fun i => ?_
  by_cases hi : i < 32
  · have hbit := map_inj_left.1 h i (mem_range.2 hi)
    cases hbit' : a.testBit i <;> cases hbit'' : b.testBit i <;> simp [hbit', hbit''] at hbit ⊢
  · have hpow : 2 ^ 32 ≤ 2 ^ i := Nat.pow_le_pow_right (by decide) (Nat.le_of_not_lt hi)
    rw [Nat.testBit_lt_two_pow (Nat.lt_of_lt_of_le ha hpow), Nat.testBit_lt_two_pow (Nat.lt_of_lt_of_le hb hpow)]

theorem setKeys_succ (n : ℕ) : setKeys (n + 1) = setKeys n ++ [.set (nthKey n) [0]] := by
  rw [setKeys, range_succ, map_append]
  rfl

/-- Both maps after the first `n` keys have been set. -/
theorem refines_setKeys (signedChar : Bool) {n : ℕ} (hn : n ≤ 2 ^ 32) :
    Refines signedChar (LnnMap.run signedChar (setKeys n) .lnnMapInit).2 (AbsMap.run (setKeys n) ∅).2 ∧
      (AbsMap.run (setKeys n) ∅).2.keys.card = n ∧
      ∀ key, (AbsMap.run (setKeys n) ∅).2.lookup key = if ∃ i < n, key = nthKey i then some [0] else none := by
  induction n with
  | zero => exact ⟨Refines.init, rfl, fun key => by simp [setKeys, AbsMap.run]⟩
  | succ n ih =>
    obtain ⟨hrefines, hcard, hlookup⟩ := ih (Nat.le_of_succ_le hn)
    have hnone : (AbsMap.run (setKeys n) ∅).2.lookup (nthKey n) = none := by
      rw [hlookup, if_neg]
      rintro ⟨i, hi, heq⟩
      exact absurd (nthKey_inj (by omega) (by omega) heq) (by omega)
    have hset : (AbsMap.run (setKeys n) ∅).2.apply (.set (nthKey n) [0]) =
        (.returned .ok, (AbsMap.run (setKeys n) ∅).2.insert (nthKey n) [0]) := by
      have hlen : (nthKey n).length = 32 := by rw [nthKey, length_map, length_range]
      simp only [AbsMap.apply, AbsMap.set, hnone, hlen]
      rfl
    have happly := (hrefines.apply (by omega) (.set (nthKey n) [0])).2
    rw [setKeys_succ, Refines.run_concat, AbsMap.run_concat]
    rw [hset] at happly ⊢
    refine ⟨happly, ?_, fun key => ?_⟩
    · rw [AbsMap.card_keys_insert hnone, hcard]
    · by_cases hkey : key = nthKey n
      · rw [hkey, lookup_insert, if_pos ⟨n, Nat.lt_succ_self n, rfl⟩]
      · rw [lookup_insert_of_ne _ hkey, hlookup]
        refine if_congr ⟨fun ⟨i, hi, heq⟩ => ⟨i, by omega, heq⟩, fun ⟨i, hi, heq⟩ => ⟨i, ?_, heq⟩⟩ rfl rfl
        rcases Nat.lt_succ_iff_lt_or_eq.1 hi with hi | rfl
        · exact hi
        · exact absurd heq hkey

end SoftBus.Native
