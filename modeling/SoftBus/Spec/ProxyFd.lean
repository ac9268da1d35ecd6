import Mathlib
import SoftBus.ForStd.Ledger
import SoftBus.ForStd.Run
import SoftBus.Spec.ProxyRecv
import SoftBus.Spec.ProxyWrite

/-!
# The descriptors of the receiver

`openFds` replays the opens and closes of a run.  The receiver is accounted for
(`FdAccounted`) when every close was of a descriptor that it had opened and not closed
yet, and the descriptors that are open are those of the recipients in its list: a
recipient that is gone has left none.

Every input keeps this but one: `PutToRecvFileList` copies the new file over the one of
the recipient, with descriptor 0 in it, before it opens the file.  A descriptor that the
recipient still has is lost, and descriptor 0 is closed when the file cannot be opened
or locked.
-/

namespace SoftBus.Native
open List FileRecipientInfo RecvWorld Option
open RecvWorld (closeEvents)
variable {r : FileRecipientInfo} {env : RecvEnv} {frame : FileFrame} {file : SingleFileInfo}
  {sessionId channelId : Int32} {w : RecvWorld} {o : Outcome} {es : List RecvEvent}

/-! ## Accounts -/

/-- What an event does to the open descriptors. -/
def RecvEvent.fdOp : RecvEvent → Option (Ledger.Op Int32)
  | .opened _ fd => some (.acquire fd)
  | .closed fd => some (.release fd)
  | _ => none

def fdOps (events : List RecvEvent) : List (Ledger.Op Int32) := events.filterMap RecvEvent.fdOp

/-- The descriptors that are open after `events`, unless one of them closed a descriptor
    that was not open. -/
def openFds (events : List RecvEvent) : Option (Multiset Int32) := Ledger.run 0 (fdOps events)

/-- The descriptor of a recipient. -/
def FileRecipientInfo.fds (r : FileRecipientInfo) : Multiset Int32 :=
  if r.recvFileInfo.fileFd ≤ invalidFd then 0 else {r.recvFileInfo.fileFd}

section
variable (w)

/-- The descriptors of all recipients. -/
def RecvWorld.heldFds : Multiset Int32 := w.recipients.total FileRecipientInfo.fds

/-- No descriptor was closed that was not open, and the open ones are in the list. -/
def RecvWorld.FdAccounted : Prop := openFds w.trace = some w.heldFds

/-- A start frame finds a recipient whose descriptor its handler will not lose: none if
    the file can be opened and locked, and otherwise the descriptor 0 that is closed in
    its place. -/
def RecvInput.FdSafe : RecvInput → Prop
  | .tick _ => True
  | .frame env sessionId channelId oneFrame =>
    oneFrame.frameLength ≤ proxyMaxPacketSize → oneFrame.frameType = .first →
      ∀ r file, startRecipient env sessionId channelId w = some r →
        getFileInfoByStartFrame env oneFrame r = .ok file →
        r.recvFileInfo.fileStatus = .idle → checkRecvFileExist file.filePath w = false →
        r.fds = if tryFileLock env.fcntl (env.openFile file.filePath) 2 = .ok then 0 else {0}

end

/-! ## Events that open and close nothing -/

@[simp] theorem fdOps_nil : fdOps [] = [] := rfl

@[simp] theorem fdOps_append (es' : List RecvEvent) : fdOps (es ++ es') = fdOps es ++ fdOps es' :=
  filterMap_append

@[simp] theorem fdOps_opened (path : Path) (fd : Int32) :
    fdOps (.opened path fd :: es) = .acquire fd :: fdOps es := rfl

@[simp] theorem fdOps_sent : fdOps (.sent channelId frame :: es) = fdOps es := rfl

@[simp] theorem fdOps_failureReport (crc : Int32) : fdOps (failureReport crc channelId) = [] := by
  unfold failureReport; split <;> rfl

@[simp] theorem fdOps_errorCallback : fdOps (errorCallback r) = [] := by
  unfold errorCallback; split <;> rfl

@[simp] theorem fdOps_processCallback : fdOps (processCallback r file) = [] := by
  unfold processCallback; split <;> rfl

@[simp] theorem fdOps_startedEvents (path : Path) : fdOps (startedEvents channelId r path) = [] := by
  unfold startedEvents
  split <;> split <;> rfl

/-- Giving up a recipient closes its descriptor and no other. -/
@[simp] theorem fdOps_clearEvents : fdOps (clearEvents r) = fdOps (closeEvents r.recvFileInfo.fileFd) := by
  unfold clearEvents
  split
  · split <;> split <;> simp [fdOps, RecvEvent.fdOp]
  · simp

theorem run_closeEvents (r : FileRecipientInfo) :
    Ledger.run r.fds (fdOps (closeEvents r.recvFileInfo.fileFd)) = some 0 := by
  unfold closeEvents fds
  split
  · rfl
  · exact Ledger.run_release_eq_some_iff.2 rfl

/-! ## The account of an outcome -/

/-- The descriptor of the recipient that is left. -/
def Outcome.fds (o : Outcome) : Multiset Int32 := (o.recipient.map FileRecipientInfo.fds).getD 0

/-- The events of an outcome account for the descriptor of the recipient. -/
def Outcome.Balanced (r : FileRecipientInfo) (o : Outcome) : Prop :=
  Ledger.run r.fds (fdOps o.events) = some o.fds

theorem fds_setRecipientRecvState (state : FileRecvState) : (setRecipientRecvState state r).fds = r.fds := by
  unfold setRecipientRecvState fds
  split <;> [split; skip] <;> rfl

theorem fileFd_setRecipientRecvState (state : FileRecvState) :
    (setRecipientRecvState state r).recvFileInfo.fileFd = r.recvFileInfo.fileFd := by
  unfold setRecipientRecvState
  split <;> [split; skip] <;> rfl

theorem balanced_writeFailed {r' : FileRecipientInfo} (files : Int32 → List UInt8)
    (h : r'.recvFileInfo.fileFd = r.recvFileInfo.fileFd) : (writeFailed r' files).Balanced r := by
  have hclose := run_closeEvents r
  simpa [Outcome.Balanced, writeFailed, Outcome.fds, fileFd_setRecipientRecvState, h] using hclose

section
variable (env : RecvEnv) (frame : FileFrame) (r : FileRecipientInfo) (files : Int32 → List UInt8)

theorem balanced_dataOutcome : (dataOutcome env frame r files).Balanced r := by
  unfold dataOutcome
  split
  · exact balanced_writeFailed files rfl
  · next data _ =>
    have hfd := (sameFile_processOneFrame env r.crc frame.frameType data
      ⟨r.recvFileInfo, files r.recvFileInfo.fileFd, 0⟩).fileFd
    dsimp only
    split
    · exact balanced_writeFailed _ hfd
    split
    · -- the last frame closes the file and the recipient forgets its descriptor
      have hclose := run_closeEvents r
      simpa [Outcome.Balanced, Outcome.fds, fds, hfd] using hclose
    · simp [Outcome.Balanced, Outcome.fds, fds, hfd]

theorem balanced_listOutcome : (listOutcome env frame r files).Balanced r := by
  have hclose := run_closeEvents r
  unfold listOutcome
  dsimp only
  split
  · have hcb : ∀ (b : Bool) (path : Path) (n : ℕ),
        fdOps (if b then [.receiveFileFinished r.sessionId path n] else []) = [] := by
      intro b path n
      split <;> rfl
    simpa [Outcome.Balanced, Outcome.fds, fileFd_setRecipientRecvState, hcb] using hclose
  · simpa [Outcome.Balanced, Outcome.fds, fileFd_setRecipientRecvState] using hclose

theorem balanced_checkSumOutcome : (checkSumOutcome env frame r files).Balanced r := by
  have hclose := run_closeEvents r
  unfold checkSumOutcome
  dsimp only
  split
  · simpa [Outcome.Balanced, Outcome.fds, fileFd_setRecipientRecvState] using hclose
  · simp [Outcome.Balanced, Outcome.fds, fds_setRecipientRecvState]

theorem balanced_ackOutcome : (ackOutcome env frame r files).Balanced r := by
  unfold ackOutcome
  split
  · rfl
  · split <;> rfl

end

/-! ## Start frames -/

/-- The new file has descriptor 0 until it is opened. -/
theorem fileFd_getFileInfoByStartFrame (h : getFileInfoByStartFrame env frame r = .ok file) :
    file.fileFd = 0 := by
  obtain ⟨start, -, hfile⟩ := getFileInfoByStartFrame_ok h
  rw [hfile]
  rfl

theorem run_startFailed_iff {files : Int32 → List UInt8} {events : List RecvEvent} {rest : Multiset Int32}
    (hfile : file.fileFd = 0) (hev : Ledger.run (rest + r.fds) (fdOps events) = some (rest + r.fds)) :
    Ledger.run (rest + r.fds)
        (fdOps (startFailed channelId { r with recvFileInfo := file } files events).events) =
      some (rest + (startFailed channelId { r with recvFileInfo := file } files events).fds) ↔
      r.fds = {0} := by
  have hclose : fdOps (closeEvents 0) = [.release 0] := rfl
  simp only [startFailed, Outcome.fds, fdOps_append, fdOps_failureReport, fdOps_errorCallback,
    fdOps_clearEvents, hfile, hclose, append_nil, Ledger.run_append, hev, bind_some,
    map_none, getD_none, add_zero, Ledger.run_release_eq_some_iff]
  rw [← Multiset.singleton_add, add_comm {0}]
  exact add_right_inj rest

/-- A start frame is accounted for exactly when it finds the right descriptor. -/
theorem run_startOutcome_iff (rest : Multiset Int32) :
    Ledger.run (rest + r.fds) (fdOps (startOutcome env channelId frame r w).events) =
        some (rest + (startOutcome env channelId frame r w).fds) ↔
      ∀ file, getFileInfoByStartFrame env frame r = .ok file → r.recvFileInfo.fileStatus = .idle →
        checkRecvFileExist file.filePath w = false →
        r.fds = if tryFileLock env.fcntl (env.openFile file.filePath) 2 = .ok then 0 else {0} := by
  -- without the copy the recipient closes its own descriptor
  have hfail : Ledger.run (rest + r.fds) (fdOps (startFailed channelId r w.files []).events) =
      some (rest + (startFailed channelId r w.files []).fds) := by
    have hclose := Ledger.run_add rest (run_closeEvents r)
    simpa [startFailed, Outcome.fds] using hclose
  unfold startOutcome
  cases hfile : getFileInfoByStartFrame env frame r with
  | error e => simpa using hfail
  | ok file =>
    have hzero := fileFd_getFileInfoByStartFrame hfile
    simp only [Except.ok.injEq, forall_eq']
    by_cases hbusy : r.recvFileInfo.fileStatus ≠ .idle ∨ checkRecvFileExist file.filePath w
    · rw [if_pos hbusy]
      refine iff_of_true hfail fun hidle hexist => ?_
      simp [hidle, hexist] at hbusy
    obtain ⟨hidle, hexist⟩ : r.recvFileInfo.fileStatus = .idle ∧
        checkRecvFileExist file.filePath w = false := by simpa using hbusy
    simp only [if_neg hbusy]
    simp only [hidle, hexist, forall_const]
    by_cases hopen : env.openFile file.filePath < 0
    · rw [if_pos hopen, if_neg (by simp [tryFileLock, hopen])]
      exact run_startFailed_iff hzero rfl
    have hvalid : ¬ env.openFile file.filePath ≤ invalidFd := by
      rw [invalidFd, Int32.le_iff_toInt_le]
      rw [Int32.lt_iff_toInt_lt] at hopen
      simp at hopen ⊢
      omega
    by_cases hlock : tryFileLock env.fcntl (env.openFile file.filePath) 2 = .ok
    · rw [if_neg hopen, if_neg (not_not.2 hlock), if_pos hlock]
      have hfds : fds { r with recvFileInfo := { file with
          fileStatus := .busy, fileOffset := 0, timeOut := 0, fileFd := env.openFile file.filePath } } =
            {env.openFile file.filePath} := if_neg hvalid
      simp only [Outcome.fds, fdOps_opened, fdOps_startedEvents, Ledger.run_acquire,
        Ledger.run_nil, map_some, getD_some, hfds, some.injEq]
      rw [← Multiset.singleton_add, add_comm rest, add_comm rest, ← add_assoc, add_right_cancel_iff]
      exact add_eq_left
    · rw [if_neg hopen, if_pos hlock, if_neg hlock]
      refine run_startFailed_iff hzero ?_
      have hclose : closeEvents (env.openFile file.filePath) =
        [.closed (env.openFile file.filePath)] := if_neg hvalid
      rw [hclose]
      exact Ledger.run_release_cons _ _

/-! ## The account of the world -/

/-- The descriptor that a session has. -/
def RecvWorld.sessionFds (w : RecvWorld) (sessionId : Int32) : Multiset Int32 :=
  ((w.recipient sessionId).map FileRecipientInfo.fds).getD 0

theorem fds_startRecipient (h : startRecipient env sessionId channelId w = some r) :
    r.fds = w.sessionFds sessionId := by
  unfold startRecipient at h
  unfold sessionFds
  cases hr : w.recipient sessionId with
  | none =>
    rw [hr] at h
    obtain ⟨session, -, rfl⟩ := map_eq_some_iff.1 h
    rfl
  | some r' =>
    simp only [hr] at h
    split at h
    · rw [← some.inj h]
      rfl
    · simp at h

theorem fds_getRecipientInProcessRef (hw : w.Settled) (h : getRecipientInProcessRef sessionId w = some r) :
    r.fds = w.sessionFds sessionId := by
  obtain ⟨r₀, hr₀, -, rfl⟩ := getRecipientInProcessRef_eq_some hw h
  rw [sessionFds, hr₀]
  rfl

/-- The account of a world with an outcome is that of the session. -/
theorem fdAccounted_settle_iff (hacc : w.FdAccounted) (ho : o.Valid sessionId) :
    (w.settle sessionId o).FdAccounted ↔
      Ledger.run ((w.recipients.erase sessionId).total FileRecipientInfo.fds + w.sessionFds sessionId)
          (fdOps o.events) =
        some ((w.recipients.erase sessionId).total FileRecipientInfo.fds + o.fds) := by
  have hbefore : w.heldFds = (w.recipients.erase sessionId).total fds +
      w.sessionFds sessionId := KeyedList.total_erase _
  have hafter : (w.settle sessionId o).heldFds = (w.recipients.erase sessionId).total fds + o.fds := by
    unfold heldFds settle Outcome.fds
    cases hr : o.recipient with
    | none => simp
    | some r =>
      have hk : r.rest.sessionId = sessionId := (ho r hr).1
      have hput := KeyedList.total_put fds w.recipients r.rest
      rw [hk] at hput
      exact hput
  have htrace : (w.settle sessionId o).trace = w.trace ++ o.events := rfl
  rw [RecvWorld.FdAccounted, openFds] at hacc ⊢
  rw [htrace, fdOps_append, Ledger.run_append, hacc, bind_some, hbefore, hafter]

theorem fdAccounted_settle_of_balanced (hacc : w.FdAccounted) (ho : o.Valid sessionId)
    (hr : r.fds = w.sessionFds sessionId) (hb : o.Balanced r) :
    (w.settle sessionId o).FdAccounted := by
  rw [fdAccounted_settle_iff hacc ho, ← hr]
  exact Ledger.run_add _ hb

/-- A tick closes the descriptors of the recipients that it takes out. -/
theorem run_tickEvents (l : List FileRecipientInfo) :
    Ledger.run (l.map FileRecipientInfo.fds).sum (fdOps (l.flatMap tickEvents)) =
      some ((l.filterMap timeOutRecipient).map FileRecipientInfo.fds).sum := by
  induction l with
  | nil => rfl
  | cons r l ih =>
    rw [map_cons, sum_cons, flatMap_cons, fdOps_append, Ledger.run_append]
    cases hr : timeOutRecipient r with
    | none =>
      have hev : tickEvents r = clearEvents { r with
          recvState := .err, recvFileInfo := { r.recvFileInfo with fileStatus := .err, timeOut := 0 } } := by
        simp [tickEvents, hr]
      have hclose := Ledger.run_add (l.map fds).sum (run_closeEvents r)
      rw [hev, fdOps_clearEvents, add_comm, hclose, bind_some, add_zero, ih, filterMap_cons_none hr]
    | some r' =>
      have hev : tickEvents r = [] := by simp [tickEvents, hr]
      have hfds : r'.fds = r.fds := by
        obtain ⟨timeOut, rfl⟩ := timeOutRecipient_eq_some hr
        rfl
      rw [hev, fdOps_nil, Ledger.run_nil, bind_some, Ledger.run_add _ ih,
        filterMap_cons_some hr, map_cons, sum_cons, hfds]

theorem fdAccounted_tick (hw : w.Settled) (hacc : w.FdAccounted) :
    (proxyFileTransTimerProc env w).FdAccounted := by
  rw [proxyFileTransTimerProc_eq hw]
  unfold RecvWorld.FdAccounted openFds at hacc ⊢
  rw [fdOps_append, Ledger.run_append, hacc]
  exact run_tickEvents w.recipients.toList

/-- Every frame but a start frame accounts for the descriptor of its session. -/
theorem balanced_frameOutcome (hw : w.Settled) (h : frameOutcome env sessionId channelId frame w = some o)
    (hfirst : frame.frameType ≠ .first) :
    ∃ r : FileRecipientInfo, r.fds = w.sessionFds sessionId ∧ o.Balanced r := by
  have hheld : ∀ {r}, getRecipientInProcessRef sessionId w = some r → r.fds = w.sessionFds sessionId :=
    fds_getRecipientInProcessRef hw
  cases handled_of_frameOutcome h with
  | start hf _ => exact absurd hf hfirst
  | data _ hr => exact ⟨_, hheld hr, balanced_dataOutcome env frame _ w.files⟩
  | ack _ hr => exact ⟨_, hheld hr, balanced_ackOutcome env frame _ w.files⟩
  | checkSum _ hr => exact ⟨_, hheld hr, balanced_checkSumOutcome env frame _ w.files⟩
  | list _ hr => exact ⟨_, hheld hr, balanced_listOutcome env frame _ w.files⟩
  | result _ hr =>
    refine ⟨_, ?_, rfl⟩
    rw [sessionFds, hr]
    rfl

/-- The receiver stays accounted for exactly at the safe inputs. -/
theorem fdAccounted_step_iff (hw : w.Settled) (hacc : w.FdAccounted) (i : RecvInput) :
    (w.step i).FdAccounted ↔ i.FdSafe w := by
  cases i with
  | tick env => exact iff_of_true (fdAccounted_tick hw hacc) trivial
  | frame env sessionId channelId frame =>
    rw [step, processRecvFileFrameData_eq hw]
    by_cases hfirst : frame.frameLength ≤ proxyMaxPacketSize ∧ frame.frameType = .first
    · have hout : frameOutcome env sessionId channelId frame w =
          (startRecipient env sessionId channelId w).map
            fun r => startOutcome env channelId frame r w := by
        simp [frameOutcome, hfirst.2, not_lt.2 hfirst.1]
      rw [hout]
      cases hr : startRecipient env sessionId channelId w with
      | none =>
        refine iff_of_true hacc fun _ _ r file hr' => ?_
        simp [hr] at hr'
      | some r =>
        dsimp only [map_some]
        rw [fdAccounted_settle_iff hacc (valid_startOutcome (held_startRecipient hr)),
          ← fds_startRecipient hr, run_startOutcome_iff]
        simp only [RecvInput.FdSafe, hfirst, forall_const, hr, some.injEq]
        exact ⟨fun h r' file hr' => hr' ▸ h file, fun h file => h r file rfl⟩
    · refine iff_of_true ?_ fun hlen htype => absurd ⟨hlen, htype⟩ hfirst
      cases ho : frameOutcome env sessionId channelId frame w with
      | none => exact hacc
      | some o =>
        have htype : frame.frameType ≠ .first := by
          intro htype
          refine hfirst ⟨?_, htype⟩
          by_contra hlen
          simp [frameOutcome, not_le.1 hlen] at ho
        obtain ⟨r, hr, hb⟩ := balanced_frameOutcome hw ho htype
        exact fdAccounted_settle_of_balanced hacc (valid_frameOutcome hw ho) hr hb

/-- In a run from the empty receiver every state is accounted for exactly when every
    input of the run is safe. -/
theorem fdAccounted_run_iff (inputs : List RecvInput) :
    (∀ pre, pre <+: inputs → (pre.foldl RecvWorld.step .init).FdAccounted) ↔
      Run.AllSteps RecvWorld.step RecvInput.FdSafe .init inputs := by
  have hinit : init.Settled ∧ init.FdAccounted := ⟨settled_run [], rfl⟩
  have hstep : ∀ (w : RecvWorld) (i : RecvInput), w.Settled ∧ w.FdAccounted →
      ((w.step i).Settled ∧ (w.step i).FdAccounted ↔ i.FdSafe w) := by
    rintro w i ⟨hw, hacc⟩
    rw [← fdAccounted_step_iff hw hacc i]
    exact and_iff_right (settled_step hw i)
  rw [← Run.forall_pre_iff_allSteps hstep hinit]
  exact forall₂_congr fun pre _ => (and_iff_right (settled_run pre)).symm

/-- No file can be opened. -/
def noOpenEnv : RecvEnv := { goodEnv appInfoFileFeaturesSupport with openFile := fun _ => -1 }

/-- The handler of a start frame closes descriptor 0, which the receiver has not opened. -/
theorem fdAccounted_run_fails :
    ¬ ∀ pre, pre <+: [RecvInput.frame noOpenEnv 1 1 (startFrameA 0)] →
      (pre.foldl RecvWorld.step .init).FdAccounted := by
  intro h
  have hclosed : openFds (init.step (.frame noOpenEnv 1 1 (startFrameA 0))).trace = none := by
    decide +kernel
  have hacc := h _ (prefix_refl _)
  rw [RecvWorld.FdAccounted, foldl_cons, foldl_nil, hclosed] at hacc
  simp at hacc

end SoftBus.Native
