import Mathlib
import SoftBus.ForStd.Mailbox
import SoftBus.ForStd.Ring
import SoftBus.Native.SendQueue

/-!
# Queues of the messages to be sent, as lists

A ring between two operations is a list of at most `mask` messages (`LockFreeQueue.toList`), and the
queues of the processes are boxes, one for each process and priority (`QueueList.boxes`).  Here
is what each operation does with the boxes, and with the work that the consumer still
has (`QueueList.load`): one call for each message and one for each object on the list.
-/

namespace SoftBus.Native
open Function List
variable {unitNum : UInt32} {i : Fin 3} {addr : ℕ} {pid : Int32} {k : Int32 × Fin 3}
variable {α : Type}

/-! ## Rings -/

namespace LockFreeQueue

/-- The messages in the ring, the oldest one first. -/
def toList (q : LockFreeQueue α) : List α :=
  Ring.window q.nodes q.mask q.consumerHead (q.producerHead - q.consumerHead).toNat

/-- A ring between two operations. -/
structure Ok (q : LockFreeQueue α) : Prop where
  pow : ∃ k, q.mask.toNat + 1 = 2 ^ k
  producer : q.producerTail = q.producerHead
  consumer : q.consumerTail = q.consumerHead
  length_le : q.toList.length ≤ q.mask.toNat

variable {q q' : LockFreeQueue α} {a : α}

theorem length_toList (q : LockFreeQueue α) : q.toList.length = (q.producerHead - q.consumerHead).toNat :=
  Ring.length_window

section
variable (h : q.Ok)
include h

theorem Ok.count_eq : q.queueCountGet.toNat = q.toList.length := by
  obtain ⟨k, hk⟩ := h.pow
  have hle := h.length_le
  rw [length_toList] at hle ⊢
  unfold queueCountGet
  have hm : q.mask.toNat = 2 ^ k - 1 := by omega
  rw [h.producer, h.consumer, UInt32.toNat_and, hm, Nat.and_two_pow_sub_one_eq_mod]
  exact Nat.mod_eq_of_lt (by omega)

/-- There is no place in a ring with `mask` messages. -/
theorem Ok.full_iff :
    (q.mask + q.consumerTail) - q.producerHead < 1 ↔ q.toList.length = q.mask.toNat := by
  have hle := h.length_le
  rw [length_toList] at hle ⊢
  rw [h.consumer]
  simp only [UInt32.lt_iff_toNat_lt, UInt32.toNat_sub, UInt32.toNat_add, UInt32.toNat_one] at hle ⊢
  have := q.mask.toNat_lt
  have := q.producerHead.toNat_lt
  have := q.consumerHead.toNat_lt
  omega

theorem Ok.enqueue_eq_none :
    q.queueMultiProducerEnqueue a = none ↔ q.toList.length = q.mask.toNat := by
  rw [← h.full_iff]
  simp [queueMultiProducerEnqueue]

theorem Ok.enqueue (henq : q.queueMultiProducerEnqueue a = some q') :
    q'.Ok ∧ q'.mask = q.mask ∧ q'.toList = q.toList ++ [a] := by
  have hfull := mt h.enqueue_eq_none.2 (by rw [henq]; nofun)
  have hle := h.length_le
  obtain ⟨k, hk⟩ := h.pow
  simp only [queueMultiProducerEnqueue] at henq
  split at henq
  · exact absurd henq nofun
  · obtain rfl := Option.some.inj henq
    rw [length_toList] at hle hfull
    have hlast : q.producerHead = q.consumerHead +
        UInt32.ofNat (q.producerHead - q.consumerHead).toNat := by
      rw [UInt32.ofNat_toNat, UInt32.add_comm, UInt32.sub_add_cancel]
    have hnext : (q.producerHead + 1 - q.consumerHead).toNat =
        (q.producerHead - q.consumerHead).toNat + 1 := by
      simp only [UInt32.toNat_sub, UInt32.toNat_add, UInt32.toNat_one] at hle hfull ⊢
      have := q.mask.toNat_lt
      omega
    have hlist : Ring.window (update q.nodes (q.producerHead &&& q.mask) a) q.mask q.consumerHead
        (q.producerHead + 1 - q.consumerHead).toNat = q.toList ++ [a] := by
      rw [hnext, toList, ← Ring.window_push hk hle, ← hlast]
    refine ⟨⟨⟨k, hk⟩, by rw [h.producer], h.consumer, ?_⟩, rfl, hlist⟩
    rw [length_toList]
    dsimp only
    omega

theorem Ok.dequeue_eq_none : q.queueSingleConsumerDequeue = none ↔ q.toList = [] := by
  rw [← length_eq_zero_iff, length_toList, ← h.producer]
  simp [queueSingleConsumerDequeue, UInt32.lt_iff_toNat_lt]

theorem Ok.dequeue (hdeq : q.queueSingleConsumerDequeue = some (a, q')) :
    q'.Ok ∧ q'.mask = q.mask ∧ q.toList = a :: q'.toList := by
  have hne := mt h.dequeue_eq_none.2 (by rw [hdeq]; nofun)
  have hle := h.length_le
  rw [← length_eq_zero_iff, length_toList] at hne
  simp only [queueSingleConsumerDequeue] at hdeq
  split at hdeq
  · exact absurd hdeq nofun
  · obtain ⟨rfl, rfl⟩ := Prod.mk.inj (Option.some.inj hdeq)
    have hnext : (q.producerHead - q.consumerHead).toNat =
        (q.producerHead - (q.consumerHead + 1)).toNat + 1 := by
      simp only [UInt32.toNat_sub, UInt32.toNat_add, UInt32.toNat_one] at hne ⊢
      have := q.consumerHead.toNat_lt
      omega
    refine ⟨⟨h.pow, h.producer, rfl, ?_⟩, rfl, ?_⟩
    · rw [length_toList] at hle ⊢
      dsimp only
      omega
    · unfold toList
      rw [hnext, Ring.window_cons]

end

/-- A new ring. -/
def fresh [Inhabited α] (unitNum : UInt32) : LockFreeQueue α :=
  ⟨unitNum, unitNum - 1, 0, 0, 0, 0, fun _ => default⟩

theorem createQueue_eq [Inhabited α] (hpow : isPowerOf2 unitNum) (hmax : unitNum ≤ queueSizeMax) :
    (createQueue unitNum : Option (LockFreeQueue α)) = some (fresh unitNum) := by
  have hle : ¬unitNum > queueSizeMax := UInt32.not_lt.2 hmax
  simp [createQueue, queueInit, hpow, hle, fresh]

theorem toList_fresh [Inhabited α] : (fresh unitNum : LockFreeQueue α).toList = [] := by
  simp [← length_eq_zero_iff, length_toList, fresh]

theorem ok_fresh [Inhabited α] (hpow : ∃ k, (unitNum - 1).toNat + 1 = 2 ^ k) :
    (fresh unitNum : LockFreeQueue α).Ok :=
  ⟨hpow, rfl, rfl, by simp [toList_fresh]⟩

inductive RingOp (α : Type) where
  | enqueue (node : α)
  | dequeue

/-- An operation on a ring, and what it has put in or taken out. -/
def step (r : List (Option α) × LockFreeQueue α) : RingOp α → List (Option α) × LockFreeQueue α
  | .enqueue node => (r.2.queueMultiProducerEnqueue node).elim (r.1 ++ [none], r.2) fun q => (r.1 ++ [some node], q)
  | .dequeue => r.2.queueSingleConsumerDequeue.elim (r.1 ++ [none], r.2) fun t => (r.1 ++ [some t.1], t.2)

/-- The same with a list for at most `n` messages. -/
def fifoStep (n : ℕ) (r : List (Option α) × List α) : RingOp α → List (Option α) × List α
  | .enqueue node => if r.2.length = n then (r.1 ++ [none], r.2) else (r.1 ++ [some node], r.2 ++ [node])
  | .dequeue => (r.1 ++ [r.2.head?], r.2.tail)

section
variable {r : List (Option α) × LockFreeQueue α} (h : r.2.Ok)
include h

theorem Ok.fifoStep_eq (op : RingOp α) :
    (step r op).2.Ok ∧ (step r op).2.mask = r.2.mask ∧
      fifoStep r.2.mask.toNat (r.map id toList) op = (step r op).map id toList := by
  cases op with
  | enqueue node =>
    simp only [step, fifoStep, Prod.map, ← h.enqueue_eq_none (a := node)]
    cases henq : r.2.queueMultiProducerEnqueue node with
    | none => simp [h]
    | some q => simp [h.enqueue henq]
  | dequeue =>
    simp only [step, fifoStep, Prod.map]
    cases hdeq : r.2.queueSingleConsumerDequeue with
    | none => simp [h, h.dequeue_eq_none.1 hdeq]
    | some t => simp [h.dequeue hdeq]

theorem Ok.foldl_fifoStep (ops : List (RingOp α)) :
    ops.foldl (fifoStep r.2.mask.toNat) (r.map id toList) = (ops.foldl step r).map id toList := by
  induction ops generalizing r with
  | nil => rfl
  | cons op ops ih =>
    obtain ⟨hok, hmask, hstep⟩ := h.fifoStep_eq op
    rw [foldl_cons, foldl_cons, ← ih hok, hmask, hstep]

end

/-- A ring whose size is a power of two is a queue for one message less, however often its indices wrap around. -/
theorem ring_refines_fifo [Inhabited α] (k : Fin 14) :
    ∃ q : LockFreeQueue α, createQueue (2 ^ k.1) = some q ∧ ∀ ops : List (RingOp α),
      ops.foldl (fifoStep (2 ^ k.1 - 1)) ([], []) = (ops.foldl step ([], q)).map id toList := by
  have hsize : isPowerOf2 (2 ^ k.1) ∧ (2 ^ k.1 : UInt32) ≤ queueSizeMax ∧
      (2 ^ k.1 - 1 : UInt32).toNat + 1 = 2 ^ k.1 := by
    revert k
    decide
  refine ⟨_, createQueue_eq hsize.1 hsize.2.1, fun ops => ?_⟩
  have hrun := (ok_fresh ⟨k, hsize.2.2⟩).foldl_fifoStep (r := ([], fresh (α := α) (2 ^ k.1))) ops
  rw [← hrun, ← hsize.2.2, Prod.map, toList_fresh]
  rfl

end LockFreeQueue

/-! ## Queues of a process -/

namespace PidQueue
variable {limit : Fin 3 → UInt32} {q q' : PidQueue α} {a : α}

/-- The rings of an object, of the sizes `limit`. -/
structure Ok (limit : Fin 3 → UInt32) (q : PidQueue α) : Prop where
  ring : ∀ i, (q.queue i).Ok
  mask : ∀ i, (q.queue i).mask = limit i - 1

section
variable (q)

/-- The number of messages. -/
def size : ℕ := ∑ i, (q.queue i).toList.length

theorem queue_setRing_self (ring : LockFreeQueue α) :
    (q.setRing i ring).queue i = ring := update_self ..

theorem queue_setRing_of_ne {j : Fin 3} (h : j ≠ i) (ring : LockFreeQueue α) :
    (q.setRing i ring).queue j = q.queue j := update_of_ne h ..

end

theorem Ok.setRing (h : q.Ok limit) {ring : LockFreeQueue α} (hring : ring.Ok) (hmask : ring.mask = (q.queue i).mask) :
    (q.setRing i ring).Ok limit := by
  have hj : ∀ j, ((q.setRing i ring).queue j).Ok ∧ ((q.setRing i ring).queue j).mask = limit j - 1 := by
    intro j
    by_cases hj : j = i
    · rw [hj, queue_setRing_self, hmask]
      exact ⟨hring, h.mask i⟩
    · rw [queue_setRing_of_ne q hj]
      exact ⟨h.ring j, h.mask j⟩
  exact ⟨fun j => (hj j).1, fun j => (hj j).2⟩

theorem size_setRing (q : PidQueue α) (i : Fin 3) (ring : LockFreeQueue α) :
    (q.setRing i ring).size + (q.queue i).toList.length = q.size + ring.toList.length := by
  have hrest : ∑ j ∈ Finset.univ.erase i, ((q.setRing i ring).queue j).toList.length =
      ∑ j ∈ Finset.univ.erase i, (q.queue j).toList.length :=
    Finset.sum_congr rfl fun j hj => by rw [queue_setRing_of_ne q (Finset.ne_of_mem_erase hj)]
  unfold size
  rw [← Finset.add_sum_erase _ _ (Finset.mem_univ i), ← Finset.add_sum_erase _ _ (Finset.mem_univ i),
    queue_setRing_self]
  omega

theorem Ok.getMsg_eq_none (h : q.Ok limit) : q.getMsg = none ↔ ∀ i, (q.queue i).toList = [] := by
  have hfrom : ∀ i, q.getFrom i = none ↔ (q.queue i).toList = [] := fun i => by
    rw [getFrom, Option.map_eq_none_iff, (h.ring i).dequeue_eq_none]
  simp [getMsg, Fin.forall_fin_succ, hfrom]

/-- A message is taken from the first ring that is not empty. -/
theorem Ok.getMsg (h : q.Ok limit) (hget : q.getMsg = some (a, q')) :
    ∃ i ring, q' = q.setRing i ring ∧ ring.Ok ∧ ring.mask = (q.queue i).mask ∧
      (q.queue i).toList = a :: ring.toList ∧ ∀ j < i, (q.queue j).toList = [] := by
  obtain ⟨before, i, after, hrings, hi, hbefore⟩ := findSome?_eq_some_iff.1 hget
  obtain ⟨⟨b, ring⟩, hring, heq⟩ := Option.map_eq_some_iff.1 hi
  obtain ⟨rfl, rfl⟩ := Prod.mk.inj heq
  obtain ⟨hok, hmask, hlist⟩ := (h.ring i).dequeue hring
  refine ⟨i, ring, rfl, hok, hmask, hlist, fun j hj => ?_⟩
  have hmem : j ∈ before := by
    -- the rings are tried in the order of their indices
    have hall : ([0, 1, 2] : List (Fin 3)).Pairwise (· < ·) ∧ ∀ j : Fin 3, j ∈ [0, 1, 2] := by decide
    rw [hrings] at hall
    have hafter := (pairwise_cons.1 (pairwise_append.1 hall.1).2.1).1
    have := hall.2 j
    grind
  exact (h.ring j).dequeue_eq_none.1 (Option.map_eq_none_iff.1 (hbefore j hmem))

/-- A new object has its rings, and they are empty. -/
theorem create_spec [Inhabited α] (hlimit : ∀ i, isPowerOf2 (limit i) ∧ limit i ≤ queueSizeMax)
    (hpow : ∀ i, ∃ k, (limit i - 1).toNat + 1 = 2 ^ k) :
    ∃ q : PidQueue α, create limit pid = some q ∧ q.pid = pid ∧ q.Ok limit ∧
      ∀ i, (q.queue i).toList = [] := by
  have hqueue := fun i => LockFreeQueue.createQueue_eq (α := α) (hlimit i).1 (hlimit i).2
  refine ⟨⟨pid, fun i => .fresh (limit i)⟩, ?_, rfl, ⟨fun i => LockFreeQueue.ok_fresh (hpow i), fun i => rfl⟩,
    fun i => LockFreeQueue.toList_fresh⟩
  simp only [create, hqueue]
  refine congrArg some (congrArg _ (funext fun i => ?_))
  match i with
  | 0 | 1 | 2 => rfl

end PidQueue

/-! ## Lists of queues -/

namespace QueueList
variable {limit : Fin 3 → UInt32} {l l' : QueueList α} {q : PidQueue α} {ref ref' : QueueRef} {a : α}

/-- The objects that are not freed. -/
def live (l : QueueList α) : List QueueRef := .inner :: l.list.map .item

/-- The objects that are not freed are good and belong to different processes. -/
structure Ok (limit : Fin 3 → UInt32) (l : QueueList α) : Prop where
  queue : ∀ ref ∈ l.live, (l.queue ref).Ok limit
  inner_pid : l.innerQueue.pid = 0
  nodup : l.list.Nodup
  lt_next : ∀ addr ∈ l.list, addr < l.next
  pid_inj : ∀ ref ∈ l.live, ∀ ref' ∈ l.live, (l.queue ref).pid = (l.queue ref').pid → ref = ref'

/-- The messages of a process with a priority. -/
def boxes (l : QueueList α) (k : Int32 × Fin 3) : List α :=
  match l.live.find? fun ref => (l.queue ref).pid = k.1 with
  | some ref => (l.ring ref k.2).toList
  | none => []

/-- The calls that the consumer needs for what is there. -/
def load (l : QueueList α) : ℕ :=
  l.innerQueue.size + (l.list.map fun addr => (l.queues addr).size).sum + l.list.length

/-- Only what is in the rings has changed. -/
structure Same (l l' : QueueList α) : Prop where
  pid : ∀ ref, (l'.queue ref).pid = (l.queue ref).pid
  list : l'.list = l.list
  next : l'.next = l.next

/-- The object `ref` is not freed and belongs to the process `pid`. -/
structure Owns (l : QueueList α) (ref : QueueRef) (pid : Int32) : Prop where
  live : ref ∈ l.live
  pid : (l.queue ref).pid = pid

@[simp] theorem inner_mem_live (l : QueueList α) : .inner ∈ l.live := List.mem_cons_self

@[simp] theorem item_mem_live : .item addr ∈ l.live ↔ addr ∈ l.list := by
  simp [live]

theorem live_subset (h : l.list ⊆ l'.list) : l.live ⊆ l'.live := cons_subset_cons _ (map_subset _ h)

theorem owns_of_find (h : l.find pid = some addr) : l.Owns (.item addr) pid := by
  have hpid : (l.queues addr).pid = pid := by simpa using find?_some h
  exact ⟨item_mem_live.2 (mem_of_find?_eq_some h), hpid⟩

theorem of_find_none (h : l.find pid = none) (haddr : .item addr ∈ l.live) :
    (l.queue (.item addr)).pid ≠ pid := by
  have hpid : (l.queues addr).pid ≠ pid := by
    simpa using find?_eq_none.1 h addr (item_mem_live.1 haddr)
  exact hpid

theorem Same.live_eq (h : Same l l') : l'.live = l.live := by
  rw [live, live, h.list]

theorem Owns.of_same (h : l.Owns ref pid) (hsame : Same l l') : l'.Owns ref pid :=
  ⟨by rw [hsame.live_eq]; exact h.live, by rw [hsame.pid]; exact h.pid⟩

theorem Ok.boxes_of_mem (h : l.Ok limit) (href : ref ∈ l.live) (hk : (l.queue ref).pid = k.1) :
    l.boxes k = (l.ring ref k.2).toList := by
  have hfind : l.live.find? (fun ref => (l.queue ref).pid = k.1) = some ref := by
    cases hf : l.live.find? (fun ref => (l.queue ref).pid = k.1) with
    | none => exact absurd hk (by simpa using find?_eq_none.1 hf ref href)
    | some ref' =>
      have hpid : (l.queue ref').pid = k.1 := by simpa using find?_some hf
      rw [h.pid_inj _ (mem_of_find?_eq_some hf) _ href (hpid.trans hk.symm)]
  rw [boxes, hfind]

theorem boxes_eq_nil (h : ∀ ref ∈ l.live, (l.queue ref).pid ≠ k.1) : l.boxes k = [] := by
  have hfind : l.live.find? (fun ref => (l.queue ref).pid = k.1) = none := by simpa using h
  rw [boxes, hfind]

/-- A box is a ring of an object that is not freed, or there is no such object. -/
theorem boxes_cases (l : QueueList α) (k : Int32 × Fin 3) :
    (∃ ref ∈ l.live, (l.queue ref).pid = k.1) ∨ ∀ ref ∈ l.live, (l.queue ref).pid ≠ k.1 := by
  by_cases h : ∃ ref ∈ l.live, (l.queue ref).pid = k.1
  · exact .inl h
  · exact .inr fun ref href heq => h ⟨ref, href, heq⟩

/-- Boxes stay as they are when each object keeps what is in it, other than empty ones that come
    or go. -/
theorem Ok.boxes_congr (h : l.Ok limit) (h' : l'.Ok limit)
    (hsame : ∀ ref ∈ l.live, ref ∈ l'.live → l'.queue ref = l.queue ref)
    (hgone : ∀ ref ∈ l.live, ref ∉ l'.live → ∀ i, (l.ring ref i).toList = [])
    (hnew : ∀ ref ∈ l'.live, ref ∉ l.live → ∀ i, (l'.ring ref i).toList = [])
    (hpid : ∀ ref ∈ l'.live, ref ∉ l.live → ∀ ref' ∈ l.live, (l.queue ref').pid ≠ (l'.queue ref).pid) :
    l'.boxes k = l.boxes k := by
  rcases boxes_cases l' k with ⟨ref, href, hk⟩ | hnone
  · rw [h'.boxes_of_mem href hk]
    by_cases hmem : ref ∈ l.live
    · rw [h.boxes_of_mem hmem (by rw [← hsame ref hmem href]; exact hk), ring, ring, hsame ref hmem href]
    · rw [hnew ref href hmem, boxes_eq_nil fun ref' href' => hk ▸ hpid ref href hmem ref' href']
  · rw [boxes_eq_nil hnone]
    rcases boxes_cases l k with ⟨ref, href, hk⟩ | hnone'
    · rw [h.boxes_of_mem href hk, hgone ref href fun hmem => hnone ref hmem (by rw [hsame ref href hmem]; exact hk)]
    · rw [boxes_eq_nil hnone']

/-! ### One object changes -/

section
variable (l)

theorem queue_setQueue_self (q : PidQueue α) : (l.setQueue ref q).queue ref = q := by
  cases ref with
  | inner => rfl
  | item addr => exact update_self ..

theorem queue_setQueue_of_ne (h : ref' ≠ ref) (q : PidQueue α) :
    (l.setQueue ref q).queue ref' = l.queue ref' := by
  cases ref with
  | inner =>
    cases ref' with
    | inner => exact absurd rfl h
    | item addr => rfl
  | item addr =>
    cases ref' with
    | inner => rfl
    | item addr' => exact update_of_ne (fun heq => h (congrArg _ heq)) ..

theorem list_setQueue (q : PidQueue α) : (l.setQueue ref q).list = l.list := by
  cases ref <;> rfl

theorem next_setQueue (q : PidQueue α) : (l.setQueue ref q).next = l.next := by
  cases ref <;> rfl

end

theorem same_setQueue (hpid : q.pid = (l.queue ref).pid) : Same l (l.setQueue ref q) := by
  refine ⟨fun ref' => ?_, list_setQueue .., next_setQueue ..⟩
  by_cases h : ref' = ref
  · rw [h, queue_setQueue_self, hpid]
  · rw [queue_setQueue_of_ne l h]

section
variable (h : l.Ok limit)
include h

theorem Ok.of_same (hsame : Same l l') (hqueue : ∀ ref ∈ l.live, (l'.queue ref).Ok limit) :
    l'.Ok limit := by
  refine ⟨?_, (hsame.pid .inner).trans h.inner_pid, hsame.list ▸ h.nodup, ?_, ?_⟩
  · rw [hsame.live_eq]
    exact hqueue
  · rw [hsame.list, hsame.next]
    exact h.lt_next
  · rw [hsame.live_eq]
    intro ref href ref' href'
    rw [hsame.pid, hsame.pid]
    exact h.pid_inj ref href ref' href'

theorem Ok.setQueue (hq : q.Ok limit) (hpid : q.pid = (l.queue ref).pid) :
    (l.setQueue ref q).Ok limit := by
  refine h.of_same (same_setQueue hpid) fun ref' href' => ?_
  by_cases heq : ref' = ref
  · rw [heq, queue_setQueue_self]
    exact hq
  · rw [queue_setQueue_of_ne l heq]
    exact h.queue ref' href'

theorem Ok.boxes_setQueue (href : ref ∈ l.live) (hq : q.Ok limit)
    (hpid : q.pid = (l.queue ref).pid) (i : Fin 3) :
    (l.setQueue ref q).boxes (q.pid, i) = (q.queue i).toList := by
  have hmem : ref ∈ (l.setQueue ref q).live := by rwa [(same_setQueue hpid).live_eq]
  rw [(h.setQueue hq hpid).boxes_of_mem hmem (k := (q.pid, i)) (by rw [queue_setQueue_self]), ring,
    queue_setQueue_self]

theorem Ok.boxes_setQueue_of_ne (hq : q.Ok limit) (hpid : q.pid = (l.queue ref).pid)
    (hk : k.1 ≠ q.pid) : (l.setQueue ref q).boxes k = l.boxes k := by
  have hsame := same_setQueue hpid
  rcases boxes_cases l k with ⟨ref', href', hk'⟩ | hnone
  · have hne : ref' ≠ ref := by
      rintro rfl
      exact hk (hk'.symm.trans hpid.symm)
    have hmem : ref' ∈ (l.setQueue ref q).live := by rwa [hsame.live_eq]
    rw [h.boxes_of_mem href' hk', (h.setQueue hq hpid).boxes_of_mem hmem (by rw [hsame.pid]; exact hk'), ring,
      ring, queue_setQueue_of_ne l hne]
  · rw [boxes_eq_nil hnone, boxes_eq_nil]
    rw [hsame.live_eq]
    intro ref' href'
    rw [hsame.pid]
    exact hnone ref' href'

theorem Ok.load_setQueue (href : ref ∈ l.live) :
    (l.setQueue ref q).load + (l.queue ref).size = l.load + q.size := by
  cases ref with
  | inner =>
    simp only [load, QueueList.setQueue, QueueList.queue]
    omega
  | item addr =>
    have hmem := item_mem_live.1 href
    have hrest : (l.list.erase addr).map (fun a => ((l.setQueue (.item addr) q).queues a).size) =
        (l.list.erase addr).map fun a => (l.queues a).size := by
      refine map_congr_left fun a ha => ?_
      exact congrArg PidQueue.size (update_of_ne (h.nodup.mem_erase_iff.1 ha).1 _ _)
    have hself : (l.setQueue (.item addr) q).queues addr = q := update_self ..
    unfold load
    rw [list_setQueue, ← sum_map_erase _ hmem, ← sum_map_erase _ hmem, hrest, hself]
    simp only [QueueList.setQueue, QueueList.queue]
    omega

end

/-- What a successful operation on the ring of an object does. -/
structure Changes (limit : Fin 3 → UInt32) (ref : QueueRef) (i : Fin 3) (l l' : QueueList α) : Prop where
  ok : l'.Ok limit
  same : Same l l'
  boxes : ∀ k ≠ ((l.queue ref).pid, i), l'.boxes k = l.boxes k

/-- One ring of an object changes. -/
theorem Ok.setRing (h : l.Ok limit) (href : ref ∈ l.live) {ring : LockFreeQueue α} (hring : ring.Ok)
    (hmask : ring.mask = (l.ring ref i).mask) :
    Changes limit ref i l (l.setQueue ref ((l.queue ref).setRing i ring)) ∧
      (l.setQueue ref ((l.queue ref).setRing i ring)).boxes ((l.queue ref).pid, i) = ring.toList ∧
      (l.setQueue ref ((l.queue ref).setRing i ring)).load + (l.ring ref i).toList.length =
        l.load + ring.toList.length := by
  have hq := (h.queue ref href).setRing hring hmask
  have hpid : ((l.queue ref).setRing i ring).pid = (l.queue ref).pid := rfl
  refine ⟨⟨h.setQueue hq hpid, same_setQueue hpid, fun k hk => ?_⟩, ?_, ?_⟩
  · by_cases hk' : k.1 = (l.queue ref).pid
    · have hne : k.2 ≠ i := fun heq => hk (Prod.ext hk' heq)
      have hbox := h.boxes_setQueue href hq hpid k.2
      rw [PidQueue.queue_setRing_of_ne _ hne, hpid, ← hk'] at hbox
      rw [h.boxes_of_mem href hk'.symm]
      exact hbox
    · exact h.boxes_setQueue_of_ne hq hpid hk'
  · have hbox := h.boxes_setQueue href hq hpid i
    rwa [PidQueue.queue_setRing_self] at hbox
  · have hload := h.load_setQueue (q := (l.queue ref).setRing i ring) href
    have hsize := PidQueue.size_setRing (l.queue ref) i ring
    rw [QueueList.ring]
    omega

section
variable (h : l.Ok limit) (href : ref ∈ l.live)
include h href

theorem Ok.enqueue (henq : l.enqueue ref i a = some l') :
    Changes limit ref i l l' ∧ l'.boxes ((l.queue ref).pid, i) = l.boxes ((l.queue ref).pid, i) ++ [a] ∧
      l'.load = l.load + 1 := by
  obtain ⟨ring, hring, rfl⟩ := Option.map_eq_some_iff.1 henq
  obtain ⟨hok, hmask, hlist⟩ := ((h.queue ref href).ring i).enqueue hring
  obtain ⟨hchanges, hbox, hload⟩ := h.setRing href hok hmask
  refine ⟨hchanges, ?_, ?_⟩
  · rw [hbox, hlist, h.boxes_of_mem href rfl]
    rfl
  · have hlen := congrArg length hlist
    rw [length_append, length_singleton] at hlen
    rw [QueueList.ring] at hload
    omega

/-- A ring that is not full takes a message. -/
theorem Ok.enqueue_eq_none :
    l.enqueue ref i a = none ↔ (l.ring ref i).toList.length = (limit i - 1).toNat := by
  rw [QueueList.enqueue, Option.map_eq_none_iff, ← (h.queue ref href).mask i]
  exact ((h.queue ref href).ring i).enqueue_eq_none

theorem Ok.getMsg (hget : l.getMsg ref = some (a, l')) :
    ∃ i, Changes limit ref i l l' ∧ l.boxes ((l.queue ref).pid, i) = a :: l'.boxes ((l.queue ref).pid, i) ∧
      l.load = l'.load + 1 ∧ ∀ j < i, l.boxes ((l.queue ref).pid, j) = [] := by
  obtain ⟨⟨b, q⟩, hq, heq⟩ := Option.map_eq_some_iff.1 hget
  obtain ⟨rfl, rfl⟩ := Prod.mk.inj heq
  obtain ⟨i, ring, rfl, hok, hmask, hlist, hfirst⟩ := (h.queue ref href).getMsg hq
  obtain ⟨hchanges, hbox, hload⟩ := h.setRing href hok hmask
  refine ⟨i, hchanges, ?_, ?_, fun j hj => (h.boxes_of_mem href rfl).trans (hfirst j hj)⟩
  · rw [hbox, h.boxes_of_mem href rfl]
    exact hlist
  · have hlen := congrArg length hlist
    rw [length_cons] at hlen
    rw [QueueList.ring] at hload
    dsimp only
    omega

/-- What a process has sent with a higher priority is taken before. -/
theorem Ok.taken_of_getMsg (hget : l.getMsg ref = some (a, l')) {key : α → Int32 × Fin 3} {sent taken : List α}
    (hbalanced : Mailbox.Balanced key sent taken l.boxes) {j : Fin 3} (hj : j < (key a).2) :
    sent.filter (key · = ((key a).1, j)) = taken.filter (key · = ((key a).1, j)) := by
  obtain ⟨i, _, hbox, _, hfirst⟩ := h.getMsg href hget
  have hkey := hbalanced.key_of_mem (hbox ▸ mem_cons_self)
  rw [hkey] at hj ⊢
  rw [hbalanced.filter_eq, hfirst j hj, append_nil]

theorem Ok.getMsg_eq_none : l.getMsg ref = none ↔ ∀ i, (l.ring ref i).toList = [] := by
  rw [QueueList.getMsg, Option.map_eq_none_iff]
  exact (h.queue ref href).getMsg_eq_none

end

/-- A message is work for the consumer. -/
theorem Ok.load_pos (h : l.Ok limit) (hbox : l.boxes k ≠ []) : 0 < l.load := by
  rcases boxes_cases l k with ⟨ref, href, hk⟩ | hnone
  · cases ref with
    | inner =>
      have hring : (l.innerQueue.queue k.2).toList ≠ [] := by
        rw [h.boxes_of_mem href hk] at hbox
        exact hbox
      have hle : (l.innerQueue.queue k.2).toList.length ≤ l.innerQueue.size :=
        Finset.single_le_sum (f := fun i => (l.innerQueue.queue i).toList.length) (fun _ _ => Nat.zero_le _)
          (Finset.mem_univ k.2)
      have := length_pos_of_ne_nil hring
      unfold load
      omega
    | item addr =>
      have := length_pos_of_mem (item_mem_live.1 href)
      unfold load
      omega
  · exact absurd (boxes_eq_nil hnone) hbox

/-- With no object on the list there are at most the messages of the inner queue. -/
theorem Ok.boxes_eq_nil_of_list_nil (h : l.Ok limit) (hlist : l.list = []) (hinner : k.1 = 0 → l.getMsg .inner = none) :
    l.boxes k = [] := by
  rcases boxes_cases l k with ⟨ref, href, hk⟩ | hnone
  · obtain rfl : ref = .inner := by simpa [live, hlist] using href
    rw [h.boxes_of_mem href hk]
    exact (h.getMsg_eq_none href).1 (hinner (hk.symm.trans h.inner_pid)) k.2
  · exact boxes_eq_nil hnone

/-- At first there is only the inner queue. -/
theorem init_spec (hq : q.Ok limit) (hpid : q.pid = 0) (hempty : ∀ i, (q.queue i).toList = []) :
    (init q).Ok limit ∧ ∀ k, (init q).boxes k = [] := by
  have hlive : ∀ ref, ref ∈ (init q).live → ref = .inner := by
    simp [live, init]
  have hok : (init q).Ok limit := by
    refine ⟨fun ref href => ?_, hpid, nodup_nil, nofun, fun ref href ref' href' _ => ?_⟩
    · rw [hlive ref href]
      exact hq
    · rw [hlive ref href, hlive ref' href']
  refine ⟨hok, fun k => hok.boxes_eq_nil_of_list_nil rfl fun _ => ?_⟩
  exact (hok.getMsg_eq_none (inner_mem_live _)).2 hempty

/-! ### The list changes -/

/-- An object of a process that has none comes to the list. -/
theorem Ok.insert (h : l.Ok limit) (hq : q.Ok limit) (hpid : ∀ ref ∈ l.live, (l.queue ref).pid ≠ q.pid)
    (hempty : ∀ i, (q.queue i).toList = []) :
    (l.insert q).Ok limit ∧ (l.insert q).Owns (.item l.next) q.pid ∧
      (∀ i, ((l.insert q).ring (.item l.next) i).toList = []) ∧
      (∀ {ref pid}, l.Owns ref pid → (l.insert q).Owns ref pid) ∧
      (∀ k, (l.insert q).boxes k = l.boxes k) ∧ (l.insert q).load = l.load + 1 := by
  have hnew : (l.insert q).queue (.item l.next) = q := update_self ..
  have hnext : l.next ∉ l.list := fun hmem => Nat.lt_irrefl _ (h.lt_next _ hmem)
  have hlive : ∀ {ref}, ref ∈ (l.insert q).live ↔ ref ∈ l.live ∨ ref = .item l.next := by
    simp [live, QueueList.insert, or_assoc, eq_comm]
  have hold : ∀ ref ∈ l.live, (l.insert q).queue ref = l.queue ref := by
    intro ref href
    cases ref with
    | inner => rfl
    | item addr =>
      refine update_of_ne (fun heq => hnext ?_) _ _
      exact heq ▸ item_mem_live.1 href
  have hsize : q.size = 0 := by simp [PidQueue.size, hempty]
  have hok : (l.insert q).Ok limit := by
    refine ⟨fun ref href => ?_, h.inner_pid, ?_, fun addr haddr => ?_, fun ref href ref' href' => ?_⟩
    · rcases hlive.1 href with href | rfl
      · rw [hold ref href]
        exact h.queue ref href
      · rw [hnew]
        exact hq
    · exact nodup_append.2 ⟨h.nodup, nodup_singleton _, by
        rintro a ha b hb rfl
        exact hnext (mem_singleton.1 hb ▸ ha)⟩
    · rcases mem_append.1 haddr with hmem | hmem
      · exact Nat.lt_succ_of_lt (h.lt_next addr hmem)
      · rw [mem_singleton.1 hmem]
        exact Nat.lt_succ_self _
    · rcases hlive.1 href with hmem | rfl <;> rcases hlive.1 href' with hmem' | rfl
      · rw [hold ref hmem, hold ref' hmem']
        exact h.pid_inj ref hmem ref' hmem'
      · rw [hold ref hmem, hnew]
        exact fun heq => absurd heq (hpid ref hmem)
      · rw [hold ref' hmem', hnew]
        exact fun heq => absurd heq.symm (hpid ref' hmem')
      · exact fun _ => rfl
  have hring : ∀ i, ((l.insert q).ring (.item l.next) i).toList = [] := by
    intro i
    rw [ring, hnew]
    exact hempty i
  refine ⟨hok, ⟨hlive.2 (.inr rfl), by rw [hnew]⟩, hring, fun howns => ?_, fun k => ?_, ?_⟩
  · exact ⟨hlive.2 (.inl howns.live), by rw [hold _ howns.live]; exact howns.pid⟩
  · refine h.boxes_congr hok (fun ref href _ => hold ref href)
      (fun ref href hgone => absurd (hlive.2 (.inl href)) hgone) (fun ref href hmem i => ?_)
      (fun ref href hmem ref' href' => ?_)
    all_goals obtain rfl := (hlive.1 href).resolve_left hmem
    · exact hring i
    · rw [hnew]
      exact hpid ref' href'
  · have hmap : l.list.map (fun addr => ((l.insert q).queues addr).size) =
        l.list.map fun addr => (l.queues addr).size :=
      map_congr_left fun addr haddr =>
        congrArg PidQueue.size (hold (.item addr) (item_mem_live.2 haddr))
    have hself : ((l.insert q).queues l.next).size = 0 := (congrArg PidQueue.size hnew).trans hsize
    have hlist : (l.insert q).list = l.list ++ [l.next] := rfl
    unfold load
    rw [hlist, map_append, hmap, sum_append, map_singleton, hself, length_append]
    rfl

/-- Other objects are on the list, or in another order. -/
theorem Ok.relist (h : l.Ok limit) (list : List ℕ) (hsub : list ⊆ l.list) (hnodup : list.Nodup) :
    ({ l with list := list } : QueueList α).Ok limit := by
  have hlive : ({ l with list := list } : QueueList α).live ⊆ l.live := live_subset hsub
  refine ⟨fun ref href => ?_, h.inner_pid, hnodup, fun addr haddr => h.lt_next addr (hsub haddr),
    fun ref href ref' href' => ?_⟩
  · exact h.queue ref (hlive href)
  · exact h.pid_inj ref (hlive href) ref' (hlive href')

/-- The first object on the list is freed, as it is empty, or a message is taken from it. -/
theorem Ok.getFirst (h : l.Ok limit) {rest : List ℕ} (hlist : l.list = addr :: rest) :
    (l.getFirst addr rest).2.Ok limit ∧ l.load = (l.getFirst addr rest).2.load + 1 ∧
      (∀ {ref pid}, l.Owns ref pid → (l.getMsg (.item addr) = none → ref ≠ .item addr) →
        (l.getFirst addr rest).2.Owns ref pid) ∧
      ∀ {key : α → Int32 × Fin 3} {sent taken : List α}, Mailbox.Balanced key sent taken l.boxes →
        Mailbox.Balanced key sent (taken ++ (l.getFirst addr rest).1.toList) (l.getFirst addr rest).2.boxes := by
  have haddr : .item addr ∈ l.live := item_mem_live.2 (by rw [hlist]; exact mem_cons_self)
  have hnodup := h.nodup
  rw [hlist] at hnodup
  unfold QueueList.getFirst
  cases hget : l.getMsg (.item addr) with
  | none =>
    have hempty := (h.getMsg_eq_none haddr).1 hget
    have hsub : rest ⊆ l.list := hlist ▸ subset_cons_self addr rest
    have hok := h.relist rest hsub hnodup.of_cons
    have hsize : (l.queues addr).size = 0 := by
      refine Finset.sum_eq_zero fun i _ => ?_
      exact length_eq_zero_iff.2 (hempty i)
    have hlive : ∀ ref ∈ l.live, ref ≠ .item addr →
        ref ∈ ({ l with list := rest } : QueueList α).live := by
      intro ref href hne
      cases ref with
      | inner => exact inner_mem_live _
      | item addr' =>
        have hmem := item_mem_live.1 href
        rw [hlist] at hmem
        exact item_mem_live.2 ((mem_cons.1 hmem).resolve_left fun heq => hne (congrArg _ heq))
    refine ⟨hok, ?_, fun howns hne => ⟨hlive _ howns.live (hne rfl), howns.pid⟩, fun hbalanced => ?_⟩
    · simp only [load, hlist, map_cons, sum_cons, length_cons, hsize]
      omega
    · rw [Option.toList_none, append_nil]
      refine hbalanced.congr fun k => h.boxes_congr hok (fun _ _ _ => rfl) (fun ref href hgone i => ?_)
        (fun ref href hnew => ?_) (fun ref href hnew => ?_)
      · obtain rfl : ref = .item addr := by
          by_contra hne
          exact hgone (hlive ref href hne)
        exact hempty i
      all_goals exact absurd (live_subset hsub href) hnew
  | some r =>
    obtain ⟨a, l'⟩ := r
    obtain ⟨i, hchanges, hbox, hload, _⟩ := h.getMsg haddr hget
    have hlist' : l'.list = addr :: rest := hchanges.same.list.trans hlist
    have hperm : (rest ++ [addr]).Perm l'.list := hlist' ▸ perm_append_singleton addr rest
    have hlive : ∀ ref, ref ∈ ({ l' with list := rest ++ [addr] } : QueueList α).live ↔ ref ∈ l'.live :=
      fun ref => ⟨fun h => live_subset hperm.subset h, fun h => live_subset hperm.symm.subset h⟩
    have hok := hchanges.ok.relist (rest ++ [addr]) hperm.subset (hperm.nodup_iff.2 (hlist' ▸ hnodup))
    have hboxes : ∀ k, ({ l' with list := rest ++ [addr] } : QueueList α).boxes k = l'.boxes k := fun k =>
      hchanges.ok.boxes_congr hok (fun _ _ _ => rfl) (fun ref href hgone => absurd ((hlive ref).2 href) hgone)
        (fun ref href hnew => absurd ((hlive ref).1 href) hnew)
        (fun ref href hnew => absurd ((hlive ref).1 href) hnew)
    refine ⟨hok, ?_, fun howns _ => ⟨?_, (hchanges.same.pid _).trans howns.pid⟩, fun hbalanced => ?_⟩
    · rw [hload]
      simp only [load, hlist', map_cons, sum_cons, map_append, sum_append,
        length_append, length_cons, map_nil, sum_nil, length_nil]
      omega
    · rw [hlive, hchanges.same.live_eq]
      exact howns.live
    · refine hbalanced.take (k := ((l.queue (.item addr)).pid, i)) ?_ fun k hk => ?_
      · rw [hboxes]
        exact hbox
      · rw [hboxes]
        exact hchanges.boxes k hk

end QueueList
end SoftBus.Native
