import SoftBus.ForStd.Run
import SoftBus.ForStd.Stamped
import SoftBus.Native.Looper

/-!
# The order of the looper's queue

A message is in one place at a time: in the queue, with the thread, handled or removed.  A step puts a new one into
the queue, moves messages from one place to another or drops them.  With the numbers of the posts this
gives that no message is handled twice and that one that is removed is not handled.
-/

namespace SoftBus.Native
open Stamped List
variable {s s' : LooperState} {msg : SoftBusMessage} {e : LooperEvent}

/-- The message whose handler is going to be called. -/
def LoopPhase.pending : LoopPhase → List SoftBusMessage
  | .handle msg _ => [msg]
  | _ => []

namespace LooperState

section
variable (s)

/-- The messages at all places. -/
def accounted : List SoftBusMessage :=
  s.handled.map (·.msg) ++ (s.phase.pending ++ (s.removed ++ s.context.msgHead))

/-! ## What a step can do -/

theorem accounted_post :
    ∃ msg', msg'.num = s.posted.length ∧ (s.step (.post msg)).posted = s.posted ++ [msg'] ∧
      ((s.step (.post msg)).accounted = s.accounted ∨ (s.step (.post msg)).accounted.Perm (msg' :: s.accounted)) := by
  refine ⟨{ msg with num := s.posted.length }, rfl, rfl, ?_⟩
  simp only [step, SoftBusLooperContext.postMessageAtTime, accounted]
  split
  · exact .inl rfl
  · split
    · exact .inl rfl
    · -- the message comes into the queue, which is the last of the places
      refine .inr ?_
      rw [← append_assoc, ← append_assoc, ← append_assoc, ← append_assoc]
      exact ((perm_orderedInsert _ _ _).append_left _).trans perm_middle

theorem accounted_remove (handler : ℕ) (customFunc : SoftBusMessage → Int32) :
    (s.step (.remove handler customFunc)).accounted.Perm s.accounted := by
  simp only [step, SoftBusLooperContext.loopRemoveMessageCustom, accounted]
  split
  · rw [append_nil]
  · refine List.Perm.append_left _ (List.Perm.append_left _ ?_)
    rw [append_assoc]
    exact (filter_append_perm _ _).append_left _

end

/-- What the thread can do in one step. -/
inductive LoopStep (s : LooperState) : LooperState → Prop where
  /-- it goes on without a message -/
  | quiet {context : SoftBusLooperContext} {phase : LoopPhase} (hmsgs : context.msgHead = s.context.msgHead)
      (hsize : context.msgSize = s.context.msgSize) (hpending : s.phase.pending = []) (hphase : phase.pending = []) :
      LoopStep s { s with context := context, phase := phase }
  /-- it takes the first message, which is due -/
  | take {msg : SoftBusMessage} {msgs : List SoftBusMessage} (hmsgs : s.context.msgHead = msg :: msgs)
      (hdue : msg.time ≤ s.clock) (hpending : s.phase.pending = []) :
      LoopStep s
        { s with
          context :=
            { s.context with msgHead := msgs, msgSize := s.context.msgSize - 1, currentMsg := some msg }
          phase := .handle msg s.clock }
  /-- it calls the handler -/
  | handle {msg : SoftBusMessage} {now : ℤ} (hphase : s.phase = .handle msg now) :
      LoopStep s { s with handled := s.handled ++ [⟨msg, now, s.clock⟩], phase := .free msg }
  /-- there is no function to call -/
  | drop {msg : SoftBusMessage} {now : ℤ} (hphase : s.phase = .handle msg now) :
      LoopStep s { s with phase := .free msg }

theorem loopTask_spec (s : LooperState) : LoopStep s s.loopTask := by
  unfold loopTask
  split
  · next hphase => exact .quiet rfl rfl (by rw [hphase]; rfl) rfl
  · next hphase =>
    have hpending : s.phase.pending = [] := by rw [hphase]; rfl
    split
    · exact .quiet rfl rfl hpending rfl
    split
    · exact .quiet rfl rfl hpending rfl
    split
    · exact .quiet rfl rfl hpending hpending
    · next msg msgs hmsgs =>
      split
      · next hdue => exact .take hmsgs hdue hpending
      · exact .quiet rfl rfl hpending hpending
  · next msg now hphase =>
    split
    · exact .handle hphase
    · exact .drop hphase
  · next hphase => exact .quiet rfl rfl (by rw [hphase]; rfl) rfl
  · next hphase => exact .quiet rfl rfl (by rw [hphase]; rfl) rfl
  · next hphase =>
    have hpending : s.phase.pending = [] := by rw [hphase]; rfl
    exact .quiet rfl rfl hpending hpending

theorem LoopStep.posted_eq (h : LoopStep s s') : s'.posted = s.posted := by
  cases h <;> rfl

theorem LoopStep.accounted (h : LoopStep s s') : s'.accounted.Subperm s.accounted := by
  cases h with
  | quiet hmsgs _ hpending hphase =>
    simp only [LooperState.accounted, hmsgs, hpending, hphase]
    exact List.Subperm.refl _
  | @take msg msgs hmsgs _ hpending =>
    have hold : s.accounted = s.handled.map (·.msg) ++ (s.removed ++ msg :: msgs) := by
      rw [LooperState.accounted, hmsgs, hpending, nil_append]
    rw [hold]
    show (s.handled.map (·.msg) ++ msg :: (s.removed ++ msgs)).Subperm _
    exact (perm_middle.symm.append_left _).subperm
  | handle hphase =>
    simp only [LooperState.accounted, hphase, LoopPhase.pending, map_append, append_assoc]
    exact List.Subperm.refl _
  | @drop msg _ hphase =>
    refine List.Sublist.subperm ?_
    simp only [LooperState.accounted, hphase, LoopPhase.pending, nil_append, singleton_append]
    exact (sublist_cons_self msg _).append_left _

/-- A message comes, and the thread may not have taken it in; or messages are moved and dropped. -/
theorem accounted_step (s : LooperState) :
    (∃ msg, msg.num = s.posted.length ∧ (s.step e).posted = s.posted ++ [msg] ∧
        ((s.step e).accounted = s.accounted ∨ (s.step e).accounted.Perm (msg :: s.accounted))) ∨
      (s.step e).posted = s.posted ∧ (s.step e).accounted.Subperm s.accounted := by
  cases e with
  | post msg => exact .inl s.accounted_post
  | remove handler customFunc => exact .inr ⟨rfl, (s.accounted_remove handler customFunc).subperm⟩
  | loop => exact .inr ⟨s.loopTask_spec.posted_eq, s.loopTask_spec.accounted⟩
  | stop | needDestroy | clock => exact .inr ⟨rfl, List.Subperm.refl _⟩

/-! ## The invariant -/

structure Inv (s : LooperState) : Prop where
  accounted : Accounted SoftBusMessage.num s.posted s.accounted
  ordered : s.context.msgHead.Pairwise (Before SoftBusMessage.time SoftBusMessage.num)
  msgSize : s.context.msgSize = UInt32.ofNat s.context.msgHead.length
  due : ∀ h ∈ s.handled, h.msg.time ≤ h.taken
  taken : ∀ msg now, s.phase = .handle msg now → msg.time ≤ now

namespace Inv

theorem init (clock : ℤ) : Inv (createNewLooper clock) :=
  ⟨Accounted.nil, List.Pairwise.nil, rfl, fun _ h => absurd h not_mem_nil, fun _ _ h => by cases h⟩

section
variable (h : Inv s)
include h

theorem accounted_of_step :
    Accounted SoftBusMessage.num (s.step e).posted (s.step e).accounted := by
  rcases s.accounted_step with ⟨msg, hnum, hposted, haccounted⟩ | ⟨hposted, haccounted⟩
  · rw [hposted]
    rcases haccounted with heq | hperm
    · rw [heq]
      exact h.accounted.refuse msg
    · exact h.accounted.take hnum hperm
  · rw [hposted]
    exact h.accounted.subperm haccounted

/-- Messages in the queue have been posted. -/
theorem num_lt : ∀ msg ∈ s.context.msgHead, msg.num < s.posted.length := by
  intro msg hmsg
  refine h.accounted.stamp_lt ?_
  simp only [LooperState.accounted, mem_append]
  exact .inr (.inr (.inr hmsg))

theorem post : Inv (s.step (.post msg)) := by
  refine ⟨h.accounted_of_step, ?_, ?_, h.due, h.taken⟩
  · simp only [step, SoftBusLooperContext.postMessageAtTime]
    split
    · exact h.ordered
    split
    · exact h.ordered
    · exact pairwise_orderedInsert h.ordered h.num_lt
  · simp only [step, SoftBusLooperContext.postMessageAtTime]
    split
    · exact h.msgSize
    split
    · exact h.msgSize
    · rw [orderedInsert_length, UInt32.ofNat_add, ← h.msgSize]
      rfl

theorem remove (handler : ℕ) (customFunc : SoftBusMessage → Int32) :
    Inv (s.step (.remove handler customFunc)) := by
  refine ⟨h.accounted_of_step, ?_, ?_, h.due, h.taken⟩
  · simp only [step, SoftBusLooperContext.loopRemoveMessageCustom]
    split
    · exact h.ordered
    · exact h.ordered.sublist filter_sublist
  · simp only [step, SoftBusLooperContext.loopRemoveMessageCustom]
    split
    · exact h.msgSize
    · -- those that stay and those that are removed are all
      rw [h.msgSize, length_eq_countP_add_countP (SoftBusLooperContext.removes handler customFunc),
        UInt32.ofNat_add, UInt32.add_comm, ← countP_eq_length_filter]
      simp

theorem loop (hs : LoopStep s s') : Inv s' := by
  have haccounted : Accounted SoftBusMessage.num s'.posted s'.accounted := by
    rw [hs.posted_eq]
    exact h.accounted.subperm hs.accounted
  cases hs with
  | quiet hmsgs hsize _ hphase =>
    refine ⟨haccounted, ?_, ?_, h.due, fun msg now heq => ?_⟩
    · rw [hmsgs]; exact h.ordered
    · rw [hsize, hmsgs]; exact h.msgSize
    · cases (congrArg LoopPhase.pending heq).symm.trans hphase
  | take hmsgs hdue _ =>
    have hordered := h.ordered
    have hmsgSize := h.msgSize
    rw [hmsgs] at hordered hmsgSize
    refine ⟨haccounted, (pairwise_cons.1 hordered).2, ?_, h.due, fun msg now heq => ?_⟩
    · rw [hmsgSize, length_cons, UInt32.ofNat_add]
      exact UInt32.add_sub_cancel _ _
    · obtain ⟨rfl, rfl⟩ := LoopPhase.handle.inj heq
      exact hdue
  | @handle msg now hphase =>
    refine ⟨haccounted, h.ordered, h.msgSize, fun hd hmem => ?_, fun msg now heq => by cases heq⟩
    rcases mem_append.1 hmem with hmem | hmem
    · exact h.due hd hmem
    · rw [mem_singleton.1 hmem]
      exact h.taken msg now hphase
  | drop hphase => exact ⟨haccounted, h.ordered, h.msgSize, h.due, fun msg now heq => by cases heq⟩

theorem step : Inv (s.step e) := by
  cases e with
  | post msg => exact h.post
  | remove handler customFunc => exact h.remove handler customFunc
  | loop => exact h.loop s.loopTask_spec
  | stop | needDestroy | clock => exact { h with }

end

theorem run (clock : ℤ) (es : List LooperEvent) : Inv (LooperState.run clock es) :=
  foldlRecOn es LooperState.step (init clock) fun _ h _ _ => h.step

end Inv

/-! ## Clocks that are not set back -/

/-- The clock is not set back. -/
def Forward (s : LooperState) : LooperEvent → Prop
  | .clock now => s.clock ≤ now
  | _ => True

/-- A message is handled when, or after, it is taken. -/
structure Later (s : LooperState) : Prop where
  handled : ∀ h ∈ s.handled, h.taken ≤ h.time
  taken : ∀ msg now, s.phase = .handle msg now → now ≤ s.clock

theorem Later.loop (h : Later s) (hs : LoopStep s s') : Later s' := by
  cases hs with
  | quiet _ _ _ hphase =>
    exact ⟨h.handled, fun msg now heq => by cases (congrArg LoopPhase.pending heq).symm.trans hphase⟩
  | take _ _ _ =>
    refine ⟨h.handled, fun msg now heq => ?_⟩
    obtain ⟨-, rfl⟩ := LoopPhase.handle.inj heq
    exact Int.le_refl _
  | @handle msg now hphase =>
    refine ⟨fun hd hmem => ?_, fun msg now heq => by cases heq⟩
    rcases mem_append.1 hmem with hmem | hmem
    · exact h.handled hd hmem
    · rw [mem_singleton.1 hmem]
      exact h.taken msg now hphase
  | drop _ => exact ⟨h.handled, fun msg now heq => by cases heq⟩

theorem Later.step (h : Later s) {e : LooperEvent} (he : Forward s e) : Later (s.step e) := by
  cases e with
  | post | remove | stop | needDestroy => exact ⟨h.handled, h.taken⟩
  | loop => exact h.loop s.loopTask_spec
  | clock now => exact ⟨h.handled, fun msg t heq => Int.le_trans (h.taken msg t heq) he⟩

theorem Later.run {clock : ℤ} {es : List LooperEvent}
    (hes : Run.AllSteps LooperState.step Forward (createNewLooper clock) es) : Later (LooperState.run clock es) :=
  hes.foldl_inv (fun _ _ h he => Later.step h he) ⟨fun _ h => absurd h not_mem_nil, fun _ _ h => by cases h⟩

/-! ## Runs -/

/-- In every run the queue is in the order of the times at which the messages are due, with those of the same time in the
    order in which they were posted, and `msgSize` is its length modulo `2 ^ 32`.  No message is handled twice,
    none before the thread has seen its time on the clock, which is before its time only if the clock was set back
    meanwhile, and none that was removed. -/
theorem looper_queue_order (clock : ℤ) (es : List LooperEvent) :
    (run clock es).context.msgHead.Pairwise
        (fun a b => a.time < b.time ∨ a.time = b.time ∧ a.num < b.num) ∧
      (run clock es).context.msgSize = UInt32.ofNat (run clock es).context.msgHead.length ∧
      ((run clock es).handled.map (·.msg.num)).Nodup ∧
      (∀ h ∈ (run clock es).handled, (run clock es).posted[h.msg.num]? = some h.msg ∧ h.msg.time ≤ h.taken) ∧
      (Run.AllSteps step Forward (createNewLooper clock) es →
        ∀ h ∈ (run clock es).handled, h.msg.time ≤ h.time) ∧
      ∀ msg ∈ (run clock es).removed, ∀ h ∈ (run clock es).handled, h.msg.num ≠ msg.num := by
  have hinv := Inv.run clock es
  have hnodup := hinv.accounted.nodup
  rw [accounted, map_append, nodup_append] at hnodup
  obtain ⟨hhandled, -, hdisjoint⟩ := hnodup
  rw [map_map] at hhandled
  refine ⟨hinv.ordered, hinv.msgSize, hhandled, fun h hmem => ⟨?_, hinv.due h hmem⟩,
    fun hes h hmem => Int.le_trans (hinv.due h hmem) ((Later.run hes).handled h hmem), fun msg hmsg h hmem => ?_⟩
  · refine hinv.accounted.came h.msg ?_
    exact mem_append_left _ (mem_map_of_mem hmem)
  · refine hdisjoint _ (mem_map_of_mem (mem_map_of_mem hmem)) _ (mem_map_of_mem ?_)
    exact mem_append_right _ (mem_append_left _ hmsg)

/-- A message for a handler at the address `1`. -/
def messageAt (time : ℤ) : SoftBusMessage := ⟨0, 0, 0, 0, time, 0, some ⟨1, true⟩⟩

/-- Two messages are due at the same time and one before; one that is due later is removed. -/
def fourMessages : List LooperEvent :=
  [.loop, .post (messageAt 5), .post (messageAt 5), .post (messageAt 3), .post (messageAt 9), .loop, .clock 4, .loop,
    .loop, .loop, .remove 1 (fun msg => if msg.time = 9 then 0 else 1), .clock 6, .loop, .loop, .loop, .loop, .loop]

theorem four_messages_in_order :
    Run.AllSteps step Forward (createNewLooper 0) fourMessages ∧
      (run 0 fourMessages).handled.map (·.msg.num) = [2, 0, 1] ∧ (run 0 fourMessages).removed.map (·.num) = [3] ∧
      ∀ h ∈ (run 0 fourMessages).handled, h.msg.time ≤ h.time := by
  have hforward : Run.AllSteps step Forward (createNewLooper 0) fourMessages := by
    simp only [fourMessages, Run.allSteps_cons, Run.allSteps_nil, Forward]
    decide +kernel
  exact ⟨hforward, by decide +kernel, by decide +kernel,
    (looper_queue_order 0 fourMessages).2.2.2.2.1 hforward⟩

/-- Posts of a message that is taken in. -/
theorem length_replicate_post (hstop : s.context.stop = false)
    (hhandler : msg.handler.isNone = false) (n : ℕ) :
    ((replicate n (.post msg)).foldl step s).context.msgHead.length = s.context.msgHead.length + n := by
  induction n generalizing s with
  | zero => rfl
  | succ n ih =>
    have hpost : (s.step (.post msg)).context.stop = false ∧
        (s.step (.post msg)).context.msgHead.length = s.context.msgHead.length + 1 := by
      simp [step, SoftBusLooperContext.postMessageAtTime, hhandler, hstop, orderedInsert_length]
    rw [replicate_succ, foldl_cons, ih hpost.1]
    omega

theorem length_run_replicate_post (n : ℕ) :
    (run 0 (replicate n (.post (messageAt 0)))).context.msgHead.length = n := by
  rw [run, length_replicate_post rfl rfl]
  exact Nat.zero_add n

/-- With `2 ^ 32` messages in the queue `msgSize` is `0` again. -/
theorem msgSize_at_wrap :
    (run 0 (List.replicate (2 ^ 32) (.post (messageAt 0)))).context.msgHead.length = 2 ^ 32 ∧
      (run 0 (List.replicate (2 ^ 32) (.post (messageAt 0)))).context.msgSize = 0 := by
  refine ⟨length_run_replicate_post _, ?_⟩
  rw [(Inv.run 0 _).msgSize, length_run_replicate_post]
  rfl

end LooperState

/-! ## Messages of state machines -/

namespace SoftBusLooperContext

/-- A data message of the type for the state machine. -/
def isFsmData (handler : ℕ) (msgType : Int32) (msg : SoftBusMessage) : Bool :=
  msg.handler.map (·.addr) = some handler ∧ msg.what = fsmCtrlMsgData ∧ msg.arg1.toUInt32.toInt32 = msgType

theorem removes_removeMessageFunc (handler : ℕ) (msgType : Int32) :
    removes handler (removeMessageFunc msgType) msg = (decide (msgType ≠ 0) && isFsmData handler msgType msg) := by
  unfold removes removeMessageFunc isFsmData
  by_cases hzero : msgType = 0
  · simp [hzero]
  · by_cases hdata : msg.what = fsmCtrlMsgData ∧ msg.arg1.toUInt32.toInt32 = msgType <;> simp [hzero, hdata]

/-- The data messages of the type are taken out and the others stay in their order just when the looper runs and the
    type is not `0`, or when there is no such message. -/
theorem lnnFsmRemoveMessage_exact (context : SoftBusLooperContext) (handler : ℕ) (msgType : Int32) :
    (context.lnnFsmRemoveMessage handler msgType).msgHead =
        context.msgHead.filter (fun msg => !isFsmData handler msgType msg) ↔
      (context.running = true ∧ context.stop = false ∧ msgType ≠ 0) ∨
        ∀ msg ∈ context.msgHead, isFsmData handler msgType msg = false := by
  -- a queue that stays as it is
  have hkept : context.msgHead = context.msgHead.filter (fun msg => !isFsmData handler msgType msg) ↔
      ∀ msg ∈ context.msgHead, isFsmData handler msgType msg = false := by
    rw [eq_comm, filter_eq_self]
    simp
  unfold lnnFsmRemoveMessage loopRemoveMessageCustom
  split
  · next hidle =>
    rw [hkept]
    refine ⟨.inr, fun h => h.resolve_left fun hrun => ?_⟩
    simp [hrun.1, hrun.2.1] at hidle
  · next hrun =>
    simp only [removes_removeMessageFunc]
    by_cases hzero : msgType = 0
    · simpa [hzero] using hkept
    · simp_all

/-- A message of type `0` is not removed. -/
theorem fsmData_zero_not_removed :
    let context : SoftBusLooperContext := ⟨[⟨0, fsmCtrlMsgData, 0, 0, 5, 0, some ⟨1, true⟩⟩], false, true, none, 1⟩
    isFsmData 1 0 (context.msgHead.headD (LooperState.messageAt 0)) = true ∧
      context.lnnFsmRemoveMessage 1 0 = context := by
  decide +kernel

end SoftBusLooperContext
end SoftBus.Native
