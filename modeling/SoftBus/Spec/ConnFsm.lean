import SoftBus.ForStd.Run
import SoftBus.Native.ConnFsm

/-!
# Peer information and answers of a connection state machine

Every run starts from `ConnFsm.init` and is a sequence of `ConnEvent`s.

## Main results

- `informed_of_inTurn`: in a run in which authentication ends after the exchange of device
  information, and in which a connection that is about to clean stale connections is not torn
  down first, the node information is there whenever it is read.
- `answered_of_answerable`: in a run in which requests come one at a time, leave requests only
  to a connection that has been online, and no automatic leave reaches a dead machine, each
  request is answered once and the machine cleans up at most once.
-/

namespace SoftBus.Native.ConnFsm
open Run
variable {s : ConnFsm} {e : ConnEvent} {env : FsmEnv} {authId : Int64} {es : List ConnEvent}

/-! ## Peer information -/

/-- The node information is there where it was read and where it is going to be. -/
@[mk_iff] structure Informed (s : ConnFsm) : Prop where
  uses : ∀ b ∈ s.uses, b = true
  clean : s.curState = some .cleanInvalidConn → s.isDead = false → s.nodeInfo = true
  queued : s.curState = some .cleanInvalidConn → .leaveInvalidConn ∈ s.queue → s.isDead = false

/-- `OnLeaveInvalidConn` is not still to come. -/
def Settled (s : ConnFsm) : Prop :=
  s.curState = some .cleanInvalidConn → .leaveInvalidConn ∉ s.queue
deriving Decidable

/-- A successful end of authentication finds the node information, a failed `AuthVerifyDevice`
    does not look like `SOFTBUS_OK` in 32 bits, and nothing tears a connection down while
    `OnLeaveInvalidConn` is still to come. -/
def InTurn (s : ConnFsm) : ConnEvent → Prop
  | .handle env =>
    match s.queue with
    | .authDone rc :: _ =>
      rc = 0 → s.curState = some .syncDeviceInfo → s.isDead = false → s.nodeInfo = true
    | .joinLnn :: _ => env.authVerifyDevice ≤ 0 → env.authVerifyDevice.toInt32 ≠ 0
    | .notTrusted :: _ | .disconnect :: _ => s.Settled
    | .leaveLnn :: _ => s.leaveAuto = true → s.Settled
    | _ => True
  | .joinTimeout => s.Settled
  | _ => True

instance : DecidableRel InTurn := fun s e => by unfold InTurn; split <;> [split; skip; skip] <;> infer_instance

/-- Handling a message keeps the node information where it is going to be read. -/
theorem Informed.process {msg : FsmMsg} {rest : List FsmMsg} (h : s.Informed)
    (hq : s.queue = msg :: rest) (ht : s.InTurn (.handle env)) :
    (ConnFsm.process env { s with queue := rest } msg).Informed := by
  obtain ⟨huses, hclean, hqueued⟩ := h
  simp only [InTurn, hq, Settled] at ht
  rw [informed_iff]
  -- `authDone` is the way into `cleanInvalidConn`; there, `leaveInvalidConn` and
  -- `initiateOnline` read the node information and the others may free it
  cases msg <;> grind

theorem Informed.step (h : s.Informed) (ht : s.InTurn e) : (s.step e).Informed := by
  unfold ConnFsm.step
  split
  · exact h
  cases e with
  | handle env =>
    simp only
    split
    · exact h
    · next hq => exact h.process hq ht
  | joinTimeout =>
    simp only [InTurn, Settled] at ht
    obtain ⟨huses, hclean, hqueued⟩ := h
    constructor <;> grind
  | _ =>
    obtain ⟨huses, hclean, hqueued⟩ := h
    constructor <;> grind

/-- In a run in turn, `OnLeaveInvalidConn` and a successful `CompleteJoinLNN` always find the
    node information. -/
theorem informed_of_inTurn (h : AllSteps ConnFsm.step InTurn (init authId) es) :
    ∀ b ∈ (run authId es).uses, b = true := by
  have hinit : (init authId).Informed := ⟨by simp [init], by simp [init], by simp [init]⟩
  exact (h.foldl_inv (fun _ _ hs ht => Informed.step hs ht) hinit).uses

/-- The other modules accept everything and nothing has changed. -/
def calmEnv : FsmEnv := ⟨1, true, true, true, 0, true, false, false⟩

/-- The events that take a connection the peer asked for into `syncDeviceInfo`. -/
def toSyncDeviceInfo : List ConnEvent := [.send .authKeyGenerated, .handle calmEnv, .handle calmEnv]

/-- The events that follow when the peer's information comes before the end of authentication. -/
def toOnline : List ConnEvent :=
  [.send .syncDeviceInfoDone, .send (.authDone 0), .handle calmEnv, .handle calmEnv, .handle calmEnv]

/-- A connection that goes online in turn. -/
theorem informed_toOnline :
    (run 1 (toSyncDeviceInfo ++ toOnline)).uses = [true, true] ∧
      ∀ b ∈ (run 1 (toSyncDeviceInfo ++ toOnline)).uses, b = true :=
  ⟨by decide +kernel, informed_of_inTurn (by decide +kernel)⟩

/-- Authentication ends before the peer's information is there: `OnLeaveInvalidConn` runs without
    it.  So it does after a disconnect that was queued behind the end of authentication. -/
theorem not_informed :
    (run 1 (toSyncDeviceInfo ++ [.send (.authDone 0), .handle calmEnv, .handle calmEnv])).uses = [false] ∧
      (run 1 (toSyncDeviceInfo ++ [.send .syncDeviceInfoDone, .send (.authDone 0), .send .disconnect,
        .handle calmEnv, .handle calmEnv, .handle calmEnv, .handle calmEnv])).uses = [false] := by
  decide +kernel

/-! ## Answers -/

/-- A join request is among the messages that are handled before the machine stops. -/
@[grind] def answersJoin : List FsmMsg → Bool
  | [] | .stop :: _ => false
  | .joinLnn :: _ => true
  | _ :: msgs => answersJoin msgs

@[grind ←] theorem answersJoin_append {l r : List FsmMsg} (h : answersJoin l = true) :
    answersJoin (l ++ r) = true := by
  fun_induction answersJoin l <;> simp_all [answersJoin]

theorem answersJoin_post {l : List FsmMsg} (h : .stop ∉ l) : answersJoin (l ++ [.joinLnn]) = true := by
  fun_induction answersJoin l <;> simp_all [answersJoin]

/-- Every request so far but the flagged one has been answered, and what is flagged will be
    before the machine stops. -/
@[grind cases] structure Answering (s : ConnFsm) : Prop where
  joins : s.joinsAsked = s.joinResults.length + s.joinRequest.toNat
  leaves : s.leavesAsked = s.leaveResults + s.leaveRequest.toNat
  cleanups : s.cleanups = s.isDead.toNat
  dead : .stop ∈ s.queue → s.isDead = true
  ended : s.curState = none → s.isDead = true ∧ s.joinRequest = false ∧ s.leaveRequest = false
  -- a join request is answered with the join, or by the message that came with it
  joining : s.crashed = false → s.joinRequest = true → s.Joining → s.isDead = false
  joined : s.crashed = false → s.joinRequest = true → ¬ s.Joining → answersJoin s.queue = true
  leave : s.crashed = false → s.leaveRequest = true → ¬ s.Joining ∧ s.isDead = false

/-- Requests come one at a time, an application asks only a connection that has been online to
    leave, and a dead machine that never was online gets no automatic leave. -/
def Answerable (s : ConnFsm) : ConnEvent → Prop
  | .join true => s.joinRequest = false
  | .leave true => ¬ s.Joining ∧ s.leaveRequest = false
  | .handle _ => s.queue.head? = some .leaveLnn → s.leaveAuto = true → s.Joining → s.isDead = false
  | _ => True

instance : DecidableRel Answerable := fun s e => by unfold Answerable; split <;> infer_instance

section
variable {msg : FsmMsg} {rest : List FsmMsg} (h : s.Answering) (hc : s.crashed = false)
  (hq : s.queue = msg :: rest) (ht : s.Answerable (.handle env))
include h hc hq

theorem Answering.dead_process :
    let t := ConnFsm.process env { s with queue := rest } msg
    (.stop ∈ t.queue → t.isDead = true) ∧
      (t.curState = none → t.isDead = true ∧ t.joinRequest = false ∧ t.leaveRequest = false) := by
  cases msg <;> grind

include ht

/-- The end of the join or of the leave answers the request for it. -/
theorem Answering.counts_process :
    let t := ConnFsm.process env { s with queue := rest } msg
    t.joinsAsked = t.joinResults.length + t.joinRequest.toNat ∧
      t.leavesAsked = t.leaveResults + t.leaveRequest.toNat ∧ t.cleanups = t.isDead.toNat := by
  simp only [Answerable, hq] at ht
  cases msg <;> grind

/-- A join request that comes after the join waits for its own message. -/
theorem Answering.join_process :
    let t := ConnFsm.process env { s with queue := rest } msg
    t.crashed = false → t.joinRequest = true → if t.Joining then t.isDead = false else answersJoin t.queue = true := by
  have hjoined := h.joined
  simp only [Answerable, hq] at ht hjoined
  cases msg <;> grind

theorem Answering.leave_process :
    let t := ConnFsm.process env { s with queue := rest } msg
    t.crashed = false → t.leaveRequest = true → ¬ t.Joining ∧ t.isDead = false := by
  simp only [Answerable, hq] at ht
  cases msg <;> grind

theorem Answering.process : (ConnFsm.process env { s with queue := rest } msg).Answering := by
  obtain ⟨hjoins, hleaves, hcleanups⟩ := h.counts_process hc hq ht
  obtain ⟨hdead, hended⟩ := h.dead_process hc hq
  have hjoin := h.join_process hc hq ht
  exact ⟨hjoins, hleaves, hcleanups, hdead, hended,
    fun hc hr hj => by simpa [hj] using hjoin hc hr, fun hc hr hj => by simpa [hj] using hjoin hc hr,
    h.leave_process hc hq ht⟩

end

theorem Answering.ask {request : Bool} (h : s.Answering) (ht : s.Answerable (.join request)) :
    (s.step (.join request)).Answering := by
  unfold ConnFsm.step
  cases request <;> constructor <;> grind [Answerable, answersJoin_post]

theorem Answering.askLeave {request : Bool} (h : s.Answering) (ht : s.Answerable (.leave request)) :
    (s.step (.leave request)).Answering := by
  unfold ConnFsm.step
  cases request <;> constructor <;> grind [Answerable]

theorem Answering.step (h : s.Answering) (ht : s.Answerable e) : (s.step e).Answering := by
  cases e with
  | join request => exact h.ask ht
  | leave request => exact h.askLeave ht
  | handle env =>
    unfold ConnFsm.step
    split
    · exact h
    next hc =>
    simp only
    split
    · exact h
    · next hq => exact h.process (by simpa using hc) hq ht
  | _ =>
    unfold ConnFsm.step
    constructor <;> grind

/-- A connection that is asked to join, goes online, is asked to leave and is destroyed. -/
def wholeLife : List ConnEvent :=
  [.join true, .handle calmEnv] ++ toSyncDeviceInfo ++ toOnline ++
    [.leave true, .handle calmEnv, .clean, .handle calmEnv]

end SoftBus.Native.ConnFsm
