import SoftBus.Native.BleQueue
import SoftBus.Spec.SendQueue

/-!
# The send queue of the BLE connections

A producer writes to the ring of an object that it has found under the lock, but after it has
released it.  If the consumer finds the object empty in between, it is freed, and the message
is lost.  In the runs in which no object is freed that a producer has found (`Allowed`), nothing is
written to a freed object, the messages of a process with a priority are dequeued once each and in
order, and all of them are dequeued if there are enough calls.
-/

namespace SoftBus.Native
open Mailbox List QueueList

def SendQueueNode.key (msg : SendQueueNode) : Int32 × Fin 3 := (msg.pid, getPriority msg.flag)

namespace BleSendQueue
variable {s s' : BleSendQueue} {producer : ℕ}

/-- The object that the consumer frees if it takes the lock now. -/
def frees (s : BleSendQueue) : Option ℕ :=
  s.queues.list.head?.filter fun addr => (s.queues.getMsg (.item addr)).isNone

/-- An object that a producer has found is not freed before the producer has written to it. -/
def Allowed (s : BleSendQueue) : BleQueueEvent → Prop
  | .dequeueList => ∀ addr ∈ s.frees, ∀ p ∈ s.pushing, p.ref ≠ .item addr
  | .enqueue _ _ | .push _ | .dequeue => True

instance (s : BleSendQueue) (e : BleQueueEvent) : Decidable (s.Allowed e) := by
  unfold Allowed
  split <;> infer_instance

/-- A producer has found the object of its process, which is not freed. -/
structure Inv (s : BleSendQueue) : Prop where
  ok : s.queues.Ok bleQueueLimit
  balanced : Balanced SendQueueNode.key s.accepted s.dequeued s.queues.boxes
  pushing : ∀ p ∈ s.pushing, s.queues.Owns p.ref p.msg.pid
  intoFreed : s.intoFreed = []

/-- What the consumer may still have to do for the messages of `k`, and what it has done. -/
def cost (k : Int32 × Fin 3) (s : BleSendQueue) : ℕ :=
  s.queues.load + s.pushing.length + s.calls + if k.1 = 0 then s.consumerAtList.toNat else 0

/-- The messages that were accepted and those that were dequeued stay so. -/
structure Logs (s s' : BleSendQueue) : Prop where
  accepted : s.accepted <+: s'.accepted
  dequeued : s.dequeued <+: s'.dequeued
  begun : s.begun ≤ s'.begun

/-- What a step does while there is a message in the box of `k`. -/
structure Steps (s s' : BleSendQueue) : Prop where
  inv : s'.Inv
  cost_le : ∀ k, s.queues.boxes k ≠ [] → s'.cost k + 2 * s.begun ≤ s.cost k + 2 * s'.begun

theorem createBleQueue_spec (pid : Int32) :
    ∃ q, createBleQueue pid = some q ∧ q.pid = pid ∧ q.Ok bleQueueLimit ∧ ∀ i, (q.queue i).toList = [] := by
  refine PidQueue.create_spec (by decide) (fun i => ?_)
  match i with
  | 0 | 1 => exact ⟨5, rfl⟩
  | 2 => exact ⟨4, rfl⟩

theorem Inv.stays (h : s.Inv) : Steps s s ∧ Logs s s :=
  ⟨⟨h, fun _ _ => Nat.le_refl _⟩, prefix_refl _, prefix_refl _, Nat.le_refl _⟩

theorem logs_dequeueReturns (msg : Option SendQueueNode)
    (queues : QueueList SendQueueNode) : Logs s (s.dequeueReturns msg queues) :=
  ⟨prefix_refl _, prefix_append _ _, Nat.le_refl _⟩

/-! ## Producers -/

theorem isLive_of_mem {l : QueueList SendQueueNode} {ref : QueueRef} (h : ref ∈ l.live) : l.isLive ref := by
  cases ref with
  | inner => rfl
  | item addr => simpa [isLive] using item_mem_live.1 h

section
variable (h : s.Inv)
include h

/-- A message comes into a ring of the object of its process, or the ring is full. -/
theorem Inv.pushMsg {ref : QueueRef} {msg : SendQueueNode} (howns : s.queues.Owns ref msg.pid) :
    (s.pushMsg ref msg).Inv ∧ Logs s (s.pushMsg ref msg) ∧ ∀ k, (s.pushMsg ref msg).cost k ≤ s.cost k + 1 ∧
      (s.pushMsg ref msg).begun = s.begun := by
  unfold BleSendQueue.pushMsg
  cases henq : s.queues.enqueue ref (getPriority msg.flag) msg with
  | none => exact ⟨h, h.stays.2, fun k => ⟨Nat.le_succ _, rfl⟩⟩
  | some queues =>
    obtain ⟨hchanges, hbox, hload⟩ := h.ok.enqueue howns.live henq
    have hkey : msg.key = ((s.queues.queue ref).pid, getPriority msg.flag) := by rw [howns.pid]; rfl
    refine ⟨⟨hchanges.ok, ?_, fun p hp => (h.pushing p hp).of_same hchanges.same, ?_⟩,
      ⟨prefix_append _ _, prefix_refl _, Nat.le_refl _⟩, fun k => ⟨?_, rfl⟩⟩
    · refine h.balanced.send msg ?_ ?_
      · rw [hkey]
        exact hbox
      · rw [hkey]
        exact hchanges.boxes
    · rw [if_pos (isLive_of_mem howns.live)]
      exact h.intoFreed
    · simp only [cost, hload]
      omega

theorem Inv.bleEnqueueNonBlock (msg : SendQueueNode) :
    Steps s (s.bleEnqueueNonBlock producer msg) ∧ Logs s (s.bleEnqueueNonBlock producer msg) := by
  unfold BleSendQueue.bleEnqueueNonBlock
  have hbegun : Inv { s with begun := s.begun + 1 } := { h with }
  dsimp only
  split
  · next hzero =>
    obtain ⟨hinv, hlogs, hcost⟩ := hbegun.pushMsg ⟨inner_mem_live _, h.ok.inner_pid.trans hzero.symm⟩
    refine ⟨⟨hinv, fun k _ => ?_⟩, hlogs.accepted, hlogs.dequeued, Nat.le_of_succ_le hlogs.begun⟩
    obtain ⟨hle, heq⟩ := hcost k
    rw [heq]
    simp only [cost] at hle ⊢
    omega
  · next hne =>
    split
    · next addr hfind =>
      refine ⟨⟨⟨h.ok, h.balanced, ?_, h.intoFreed⟩, fun k _ => ?_⟩, prefix_refl _, prefix_refl _, Nat.le_succ _⟩
      · simp only [forall_mem_append, forall_mem_singleton]
        exact ⟨h.pushing, owns_of_find hfind⟩
      · simp only [cost, length_append, length_singleton]
        omega
    · next hfind =>
      obtain ⟨newQueue, hnew, hpid, hok, hempty⟩ := createBleQueue_spec msg.pid
      have hfresh : ∀ ref ∈ s.queues.live, (s.queues.queue ref).pid ≠ newQueue.pid := by
        intro ref href heq
        rw [hpid] at heq
        cases ref with
        | inner => exact hne (heq.symm.trans h.ok.inner_pid)
        | item addr => exact of_find_none hfind href heq
      obtain ⟨hok', howns, _, hold, hboxes, hload⟩ := h.ok.insert hok hfresh hempty
      rw [hnew]
      refine ⟨⟨⟨hok', h.balanced.congr hboxes, ?_, h.intoFreed⟩, fun k _ => ?_⟩, prefix_refl _, prefix_refl _,
        Nat.le_succ _⟩
      · simp only [forall_mem_append, forall_mem_singleton]
        exact ⟨fun p hp => hold (h.pushing p hp), hpid ▸ howns⟩
      · simp only [cost, length_append, length_singleton, hload]
        omega

theorem Inv.push : Steps s (s.step (.push producer)) ∧ Logs s (s.step (.push producer)) := by
  rw [BleSendQueue.step]
  split
  · exact h.stays
  · next p hfind =>
    have hmem : p ∈ s.pushing := mem_of_find?_eq_some hfind
    have hlt : (s.pushing.filter (·.producer ≠ producer)).length < s.pushing.length := by
      refine length_filter_lt_length_iff_exists.2 ⟨p, hmem, ?_⟩
      simpa using find?_some hfind
    have hinv : Inv { s with pushing := s.pushing.filter (·.producer ≠ producer) } :=
      ⟨h.ok, h.balanced, fun p' hp' => h.pushing p' (mem_of_mem_filter hp'), h.intoFreed⟩
    obtain ⟨hinv', hlogs, hcost⟩ := hinv.pushMsg (h.pushing p hmem)
    refine ⟨⟨hinv', fun k _ => ?_⟩, hlogs.accepted, hlogs.dequeued, hlogs.begun⟩
    obtain ⟨hle, heq⟩ := hcost k
    rw [heq]
    simp only [cost] at hle ⊢
    omega

/-! ## The consumer -/

theorem Inv.dequeueInner (hidle : s.consumerAtList = false) :
    Steps s s.dequeueInner ∧ Logs s s.dequeueInner := by
  unfold BleSendQueue.dequeueInner
  cases hget : s.queues.getMsg .inner with
  | some r =>
    obtain ⟨i, hchanges, hbox, hload, _⟩ := h.ok.getMsg (inner_mem_live _) hget
    refine ⟨⟨⟨hchanges.ok, h.balanced.take hbox hchanges.boxes, fun p hp => ?_, h.intoFreed⟩, fun k _ => ?_⟩,
      logs_dequeueReturns _ _⟩
    · exact (h.pushing p hp).of_same hchanges.same
    · simp only [cost, dequeueReturns, hload, hidle]
      omega
  | none =>
    refine ⟨⟨{ h with }, fun k hk => ?_⟩, prefix_refl _, prefix_refl _, Nat.le_refl _⟩
    have hzero : k.1 ≠ 0 := by
      intro hzero
      rw [h.ok.boxes_of_mem (inner_mem_live _) (h.ok.inner_pid.trans hzero.symm)] at hk
      exact hk ((h.ok.getMsg_eq_none (inner_mem_live _)).1 hget k.2)
    simp only [cost, if_neg hzero]
    omega

theorem Inv.dequeueList (hat : s.consumerAtList = true)
    (hfrees : ∀ addr ∈ s.frees, ∀ p ∈ s.pushing, p.ref ≠ .item addr) :
    Steps s s.dequeueList ∧ Logs s s.dequeueList := by
  unfold BleSendQueue.dequeueList
  cases hlist : s.queues.list with
  | nil =>
    refine ⟨⟨⟨h.ok, ?_, h.pushing, h.intoFreed⟩, fun k hk => ?_⟩, logs_dequeueReturns _ _⟩
    · simpa [dequeueReturns] using h.balanced
    · have hzero : k.1 = 0 := by
        by_contra hne
        exact hk (h.ok.boxes_eq_nil_of_list_nil hlist fun hzero => absurd hzero hne)
      simp only [cost, dequeueReturns, if_pos hzero, hat, Bool.toNat_true, Bool.toNat_false]
      omega
  | cons addr rest =>
    obtain ⟨hok, hload, howns, hbalanced⟩ := h.ok.getFirst hlist
    refine ⟨⟨⟨hok, hbalanced h.balanced, fun p hp => ?_, h.intoFreed⟩, fun k _ => ?_⟩, logs_dequeueReturns _ _⟩
    · refine howns (h.pushing p hp) fun hnone => hfrees addr ?_ p hp
      simp [frees, hlist, hnone]
    · simp only [cost, dequeueReturns, hload, Bool.toNat_false]
      split <;> omega

/-! ## Runs -/

theorem Inv.step {e : BleQueueEvent} (hallowed : s.Allowed e) :
    Steps s (s.step e) ∧ Logs s (s.step e) := by
  cases e with
  | enqueue producer msg =>
    rw [BleSendQueue.step]
    split
    · exact h.stays
    · exact h.bleEnqueueNonBlock msg
  | push producer => exact h.push
  | dequeue =>
    rw [BleSendQueue.step]
    split
    · exact h.stays
    · next hidle => exact h.dequeueInner (by simpa using hidle)
  | dequeueList =>
    rw [BleSendQueue.step]
    split
    · next hat => exact h.dequeueList hat hallowed
    · exact h.stays

end

theorem Inv.init (hinit : bleInnerQueueInit = some s) : s.Inv := by
  obtain ⟨q, hq, hpid, hok, hempty⟩ := createBleQueue_spec 0
  rw [bleInnerQueueInit, hq] at hinit
  obtain rfl := Option.some.inj hinit
  obtain ⟨hqueues, hboxes⟩ := init_spec hok hpid hempty
  exact ⟨hqueues, .init hboxes, nofun, rfl⟩

theorem isSome_bleInnerQueueInit : bleInnerQueueInit.isSome := by decide +kernel

end BleSendQueue
end SoftBus.Native
