import SoftBus.Native.BrQueue
import SoftBus.Spec.SendQueue

/-!
# The send queue of the BR connections loses nothing

A producer that has waited twice takes a queue with 31 of 32 messages for one with a place, but
there is none: the message is lost, and `BrEnqueueNonBlock` returns `SOFTBUS_OK`.  And the object for which
a producer waits may be freed.  In the runs in which neither happens (`Allowed`), the messages of
a process with a priority are dequeued once each and in order, and all of them are dequeued if there
are enough calls.
-/

namespace SoftBus.Native
open Mailbox List QueueList

/-- The messages that have to keep their order. -/
def SendBrQueueNode.key (msg : SendBrQueueNode) : Int32 × Fin 3 := (msg.pid, getPriority msg.flag)

namespace BrSendQueue
variable {s s' : BrSendQueue}

/-- The object that the consumer frees if it is called now. -/
def frees (s : BrSendQueue) : Option ℕ :=
  match s.queues.getMsg .inner with
  | some _ => none
  | none => s.queues.list.head?.filter fun addr => (s.queues.getMsg (.item addr)).isNone

/-- Messages of the own process are marked as such; a producer that gives up waiting finds a
    place; an object for which a producer waits is not freed. -/
def Allowed (s : BrSendQueue) : BrQueueEvent → Prop
  | .enqueue _ msg => msg.pid = 0 → msg.isInner
  | .wakeProducer producer true => ∀ w ∈ s.waiters, w.producer = producer → w.ref ≠ .inner →
      waitRetryNum ≤ w.retry → (s.queues.ring w.ref (getPriority w.msg.flag)).queueCountGet ≠
        (s.queues.ring w.ref (getPriority w.msg.flag)).mask
  | .wakeProducer _ false => True
  | .dequeue => ∀ addr ∈ s.frees, ∀ w ∈ s.waiters, w.ref ≠ .item addr
  | .wakeConsumer => True

instance (s : BrSendQueue) (e : BrQueueEvent) : Decidable (s.Allowed e) := by
  unfold Allowed
  split <;> infer_instance

/-- A producer waits for the object of its process, which is not freed. -/
structure Inv (s : BrSendQueue) : Prop where
  ok : s.queues.Ok brQueueLimit
  balanced : Balanced SendBrQueueNode.key s.accepted s.dequeued s.queues.boxes
  waiters : ∀ w ∈ s.waiters, s.queues.Owns w.ref w.msg.pid

/-- What the consumer may still have to do, and what it has done. -/
def cost (s : BrSendQueue) : ℕ := s.queues.load + s.calls + s.consumerWaits.toNat

/-- The messages that were accepted and those that were dequeued stay so. -/
structure Logs (s s' : BrSendQueue) : Prop where
  accepted : s.accepted <+: s'.accepted
  dequeued : s.dequeued <+: s'.dequeued

/-- What a step does. -/
structure Steps (s s' : BrSendQueue) : Prop where
  inv : s'.Inv
  cost_le : s'.cost + 2 * s.accepted.length ≤ s.cost + 2 * s'.accepted.length

theorem createBrQueue_spec (pid : Int32) :
    ∃ q, createBrQueue pid = some q ∧ q.pid = pid ∧ q.Ok brQueueLimit ∧ ∀ i, (q.queue i).toList = [] := by
  refine PidQueue.create_spec (by decide) (fun i => ⟨5, ?_⟩)
  match i with
  | 0 | 1 | 2 => rfl

/-! ## Producers -/

theorem logs_refl : Logs s s := ⟨prefix_refl _, prefix_refl _⟩

theorem Inv.refuses (h : s.Inv) : Steps s s ∧ Logs s s := ⟨⟨h, Nat.le_refl _⟩, logs_refl⟩

/-- A message comes into a ring of the object of its process. -/
theorem Inv.accepts (h : s.Inv) {w : BrWaiter} (hw : s.queues.Owns w.ref w.msg.pid) {queues : QueueList SendBrQueueNode}
    (henq : s.queues.enqueue w.ref (getPriority w.msg.flag) w.msg = some queues) :
    let s' := { s with queues := queues }.enqueueReturns w.msg .ok
    Steps s s' ∧ Logs s s' := by
  obtain ⟨hchanges, hbox, hload⟩ := h.ok.enqueue hw.live henq
  have hkey : w.msg.key = ((s.queues.queue w.ref).pid, getPriority w.msg.flag) := by rw [hw.pid]; rfl
  refine ⟨⟨⟨hchanges.ok, ?_, fun w' hw' => (h.waiters w' hw').of_same hchanges.same⟩, ?_⟩,
    prefix_append _ _, prefix_refl _⟩
  · refine h.balanced.send w.msg ?_ ?_
    · rw [hkey]
      exact hbox
    · rw [hkey]
      exact hchanges.boxes
  · simp only [cost, enqueueReturns, hload, length_append, length_singleton]
    omega

theorem brQueueLimit_eq (i : Fin 3) : brQueueLimit i = 32 := by
  match i with
  | 0 | 1 | 2 => rfl

/-- A producer comes out of `WaitQueueLength` with a queue that is full only if it has given up. -/
theorem retry_of_full {ring : LockFreeQueue SendBrQueueNode} (hring : ring.Ok) (hmask : ring.mask = 32 - 1)
    (hfull : ring.toList.length = ring.mask.toNat) {retry : ℕ}
    (hwait : waitQueueLength ring 32 waitQueueBufferPeriodLen retry = .returns .ok) :
    waitRetryNum ≤ retry ∧ ring.queueCountGet = ring.mask := by
  have hcount : ring.queueCountGet = ring.mask := UInt32.toNat_inj.1 (hring.count_eq.trans hfull)
  refine ⟨?_, hcount⟩
  by_contra hretry
  have hless : ¬ring.queueCountGet < 32 - waitQueueBufferPeriodLen := by
    rw [hcount, hmask]
    decide
  simp only [waitQueueLength, if_neg hless, if_neg (show ¬retry + 1 > waitRetryNum by omega)] at hwait
  exact absurd hwait nofun

theorem Inv.enqueueWait (h : s.Inv) {w : BrWaiter} (hw : s.queues.Owns w.ref w.msg.pid)
    (hplace : w.ref ≠ .inner → waitRetryNum ≤ w.retry →
      (s.queues.ring w.ref (getPriority w.msg.flag)).queueCountGet ≠
        (s.queues.ring w.ref (getPriority w.msg.flag)).mask) :
    Steps s (s.enqueueWait w) ∧ Logs s (s.enqueueWait w) := by
  unfold BrSendQueue.enqueueWait
  dsimp only
  split
  · refine ⟨⟨⟨h.ok, h.balanced, fun w' hw' => ?_⟩, Nat.le_refl _⟩, prefix_refl _, prefix_refl _⟩
    rcases mem_append.1 hw' with hmem | hmem
    · exact h.waiters w' hmem
    · rw [mem_singleton.1 hmem]
      exact hw
  · next hwait =>
    cases henq : s.queues.enqueue w.ref (getPriority w.msg.flag) w.msg with
    | some queues => exact h.accepts hw henq
    | none =>
      cases href : w.ref with
      | inner => exact h.refuses
      | item addr =>
        -- the ring would be full, which is excluded
        have hqueue := h.ok.queue w.ref hw.live
        have hmask := hqueue.mask (getPriority w.msg.flag)
        have hfull := (h.ok.enqueue_eq_none hw.live).1 henq
        rw [brQueueLimit_eq] at hmask hwait
        rw [brQueueLimit_eq, ← hmask] at hfull
        obtain ⟨hretry, hcount⟩ := retry_of_full (hqueue.ring _) hmask hfull hwait
        exact absurd hcount (hplace (by rw [href]; nofun) hretry)
  · next ret hret _ =>
    cases ret with
    | ok => exact absurd rfl hret
    | err | sendQueueFull | queueFull => exact h.refuses

theorem Inv.brEnqueueNonBlock (h : s.Inv) (producer : ℕ) {msg : SendBrQueueNode}
    (hinner : msg.pid = 0 → msg.isInner) :
    Steps s (s.brEnqueueNonBlock producer msg) ∧ Logs s (s.brEnqueueNonBlock producer msg) := by
  unfold BrSendQueue.brEnqueueNonBlock
  split
  · next hown =>
    refine h.enqueueWait ⟨inner_mem_live _, ?_⟩ fun hne => absurd rfl hne
    exact h.ok.inner_pid.trans hown.1.symm
  · next hother =>
    split
    · next addr hfind =>
      exact h.enqueueWait (owns_of_find hfind) fun _ hretry => absurd hretry (show ¬waitRetryNum ≤ 0 by decide)
    · next hfind =>
      obtain ⟨newQueue, hnew, hpid, hok, hempty⟩ := createBrQueue_spec msg.pid
      have hfresh : ∀ ref ∈ s.queues.live, (s.queues.queue ref).pid ≠ newQueue.pid := by
        intro ref href heq
        rw [hpid] at heq
        cases ref with
        | inner =>
          have hzero : msg.pid = 0 := heq.symm.trans h.ok.inner_pid
          exact hother ⟨hzero, hinner hzero⟩
        | item addr => exact of_find_none hfind href heq
      obtain ⟨hok', howns, hring, hold, hboxes, hload⟩ := h.ok.insert hok hfresh hempty
      rw [hpid] at howns
      have hinv : Inv { s with queues := s.queues.insert newQueue } := by
        exact ⟨hok', h.balanced.congr hboxes, fun w hw => hold (h.waiters w hw)⟩
      rw [hnew]
      dsimp only
      cases henq : (s.queues.insert newQueue).enqueue (.item s.queues.next) (getPriority msg.flag) msg with
      | some queues =>
        obtain ⟨hsteps, hlogs⟩ := hinv.accepts (w := ⟨producer, msg, .item s.queues.next, 0⟩) howns henq
        obtain ⟨_, _, hload'⟩ := hok'.enqueue howns.live henq
        refine ⟨⟨hsteps.inv, ?_⟩, hlogs.accepted, hlogs.dequeued⟩
        simp only [cost, enqueueReturns, length_append, length_singleton, hload', hload]
        omega
      | none =>
        -- there is a place in a new ring
        have hfull := (hok'.enqueue_eq_none howns.live).1 henq
        rw [hring, brQueueLimit_eq] at hfull
        exact absurd hfull (by decide)

/-! ## The consumer -/

theorem Inv.brDequeueNonBlock (h : s.Inv) (hfrees : ∀ addr ∈ s.frees, ∀ w ∈ s.waiters, w.ref ≠ .item addr) :
    s.brDequeueNonBlock.Inv ∧ Logs s s.brDequeueNonBlock ∧ ∀ k, s.queues.boxes k ≠ [] →
      s.brDequeueNonBlock.cost ≤ s.cost ∧ s.brDequeueNonBlock.accepted = s.accepted := by
  unfold BrSendQueue.brDequeueNonBlock
  cases hget : s.queues.getMsg .inner with
  | some r =>
    obtain ⟨i, hchanges, hbox, hload, _⟩ := h.ok.getMsg (inner_mem_live _) hget
    refine ⟨⟨hchanges.ok, h.balanced.take hbox hchanges.boxes, fun w hw => ?_⟩, ⟨prefix_refl _, prefix_append _ _⟩,
      fun k _ => ⟨?_, rfl⟩⟩
    · exact (h.waiters w hw).of_same hchanges.same
    · simp only [cost, dequeueReturns, hload]
      omega
  | none =>
    cases hlist : s.queues.list with
    | nil =>
      refine ⟨⟨h.ok, h.balanced, h.waiters⟩, ⟨prefix_refl _, prefix_refl _⟩, fun k hk => ?_⟩
      exact absurd (h.ok.boxes_eq_nil_of_list_nil hlist fun _ => hget) hk
    | cons addr rest =>
      obtain ⟨hok, hload, howns, hbalanced⟩ := h.ok.getFirst hlist
      refine ⟨⟨hok, hbalanced h.balanced, fun w hw => ?_⟩, ⟨prefix_refl _, prefix_append _ _⟩, fun k _ => ⟨?_, rfl⟩⟩
      · refine howns (h.waiters w hw) fun hnone => hfrees addr ?_ w hw
        simp [frees, hget, hlist, hnone]
      · simp only [cost, dequeueReturns, hload]
        omega

/-! ## Runs -/

/-- A step keeps the invariant, and while there is a message in a box, none is without effect. -/
theorem Inv.step (h : s.Inv) {e : BrQueueEvent} (hallowed : s.Allowed e) :
    (s.step e).Inv ∧ Logs s (s.step e) ∧ ∀ k, s.queues.boxes k ≠ [] →
      (s.step e).cost + 2 * s.accepted.length ≤ s.cost + 2 * (s.step e).accepted.length := by
  have hsteps : ∀ {s'}, Steps s s' ∧ Logs s s' → s'.Inv ∧ Logs s s' ∧ ∀ k, s.queues.boxes k ≠ [] →
      s'.cost + 2 * s.accepted.length ≤ s.cost + 2 * s'.accepted.length :=
    fun hs => ⟨hs.1.inv, hs.2, fun _ _ => hs.1.cost_le⟩
  cases e with
  | enqueue producer msg =>
    rw [BrSendQueue.step]
    split
    · exact hsteps h.refuses
    · exact hsteps (h.brEnqueueNonBlock producer hallowed)
  | wakeProducer producer ok =>
    rw [BrSendQueue.step]
    split
    · exact hsteps h.refuses
    · next w hfind =>
      have hmem : w ∈ s.waiters := mem_of_find?_eq_some hfind
      have hproducer : w.producer = producer := by simpa using find?_some hfind
      have hinv : Inv { s with waiters := s.waiters.filter (·.producer ≠ producer) } :=
        ⟨h.ok, h.balanced, fun w' hw' => h.waiters w' (mem_of_mem_filter hw')⟩
      have hw := h.waiters w hmem
      cases ok with
      | true =>
        obtain ⟨⟨hinv', hcost⟩, hlogs⟩ := hinv.enqueueWait (w := w) hw (hallowed w hmem hproducer)
        exact ⟨hinv', ⟨hlogs.accepted, hlogs.dequeued⟩, fun _ _ => hcost⟩
      | false => exact ⟨hinv, ⟨prefix_refl _, prefix_refl _⟩, fun _ _ => Nat.le_refl _⟩
  | dequeue =>
    rw [BrSendQueue.step]
    split
    · exact hsteps h.refuses
    · obtain ⟨hinv, hlogs, hcost⟩ := h.brDequeueNonBlock hallowed
      refine ⟨hinv, hlogs, fun k hk => ?_⟩
      obtain ⟨hle, haccepted⟩ := hcost k hk
      rw [haccepted]
      omega
  | wakeConsumer =>
    rw [BrSendQueue.step]
    split
    · next hwaits =>
      refine ⟨⟨h.ok, ?_, h.waiters⟩, ⟨prefix_refl _, prefix_append _ _⟩, fun k _ => ?_⟩
      · simpa [dequeueReturns] using h.balanced
      · simp only [cost, dequeueReturns, hwaits, Bool.toNat_true, Bool.toNat_false]
        omega
    · exact hsteps h.refuses

theorem Inv.init (hinit : brInnerQueueInit = some s) : s.Inv := by
  obtain ⟨q, hq, hpid, hok, hempty⟩ := createBrQueue_spec 0
  rw [brInnerQueueInit, hq] at hinit
  obtain rfl := Option.some.inj hinit
  obtain ⟨hqueues, hboxes⟩ := init_spec hok hpid hempty
  exact ⟨hqueues, .init hboxes, nofun⟩

theorem isSome_brInnerQueueInit : brInnerQueueInit.isSome := by decide +kernel

/-- `n` messages of one process, each enqueued by a producer that waits as long as it may. -/
def brMessages (n : ℕ) : List BrQueueEvent :=
  (List.range n).flatMap fun i =>
    [.enqueue 0 ⟨i, 1, connHigh, false⟩, .wakeProducer 0 true, .wakeProducer 0 true]

theorem exists_getMsg {e : BrQueueEvent} {msg : SendBrQueueNode} (hmsg : (s.step e).dequeued = s.dequeued ++ [msg]) :
    ∃ ref ∈ s.queues.live, (ref ≠ .inner → s.queues.getMsg .inner = none) ∧ ∃ l, s.queues.getMsg ref = some (msg, l) := by
  cases e <;>
    simp only [step, brEnqueueNonBlock, enqueueWait, enqueueReturns, brDequeueNonBlock, dequeueReturns, getFirst] at hmsg
  all_goals grind [inner_mem_live, item_mem_live, self_eq_append_right, append_right_inj]

end BrSendQueue
end SoftBus.Native
