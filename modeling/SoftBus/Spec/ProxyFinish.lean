import SoftBus.ForStd.Chunks
import SoftBus.ForStd.Run
import SoftBus.Spec.ProxyFrame
import SoftBus.Spec.ProxyLink
import SoftBus.Spec.ProxyRecv

/-!
# The end of a list of files

After the last file the sender sends the list of its files, and the receiver calls
`OnReceiveFileFinished` for it when it finds a file under way (`RecvWorld.InProcess`).
But the checksum frame of a file, and without checksums its last frame, end the file:
a file is under way only after an empty one of a session without checksums, whose start
frame is all that is sent of it.
-/

namespace SoftBus.Native
open List Link FileRecipientInfo
variable {sessionId channelId crc : Int32} {env : RecvEnv} {w w₀ : RecvWorld} {o : Outcome} {frame : FileFrame}
  {files : Int32 → List UInt8} {session : SessionInfo} {r : FileRecipientInfo} {s : Link} {destFile first : Path}
  {file : Path × Path} {fileCount : ℕ} {buffer : List UInt8}

/-! ## Events that do not matter -/

/-- The function picks no event of the handlers of a file; the frames that they send are
    all for sessions with checksums. -/
structure Ignores {β : Type*} (crc : Int32) (f : RecvEvent → Option β) : Prop where
  opened : ∀ filePath fd, f (.opened filePath fd) = none
  closed : ∀ fd, f (.closed fd) = none
  removed : ∀ filePath, f (.removed filePath) = none
  receiveFileStarted : ∀ sessionId filePath, f (.receiveFileStarted sessionId filePath) = none
  receiveFileProcess : ∀ sessionId filePath bytesUpload bytesTotal,
    f (.receiveFileProcess sessionId filePath bytesUpload bytesTotal) = none
  fileTransError : ∀ sessionId, f (.fileTransError sessionId) = none
  sent : crc = appInfoFileFeaturesSupport → ∀ channelId frame, f (.sent channelId frame) = none

@[simp] theorem crc_setRecipientRecvState (state : FileRecvState) :
    (setRecipientRecvState state r).crc = r.crc := by
  unfold setRecipientRecvState
  split
  · split
    · rfl
    · rfl
  · rfl

namespace Ignores
variable {β : Type*} {f : RecvEvent → Option β}

theorem closeEvents (h : Ignores crc f) (fd : Int32) : (RecvWorld.closeEvents fd).filterMap f = [] := by
  unfold RecvWorld.closeEvents
  split
  · rfl
  · simp [h.closed]

theorem failureReport (h : Ignores crc f) : (failureReport crc channelId).filterMap f = [] := by
  unfold SoftBus.Native.failureReport
  split
  · next hcrc => simp [h.sent hcrc]
  · rfl

section
variable (h : Ignores r.crc f)
include h

theorem errorCallback : (errorCallback r).filterMap f = [] := by
  unfold SoftBus.Native.errorCallback
  split
  · simp [h.fileTransError]
  · rfl

theorem processCallback (file : SingleFileInfo) : (processCallback r file).filterMap f = [] := by
  unfold SoftBus.Native.processCallback
  split
  · simp [h.receiveFileProcess]
  · rfl

theorem startedEvents (filePath : Path) : (startedEvents channelId r filePath).filterMap f = [] := by
  unfold SoftBus.Native.startedEvents
  rw [filterMap_append, append_eq_nil_iff]
  constructor
  · split
    · simp [h.receiveFileStarted]
    · rfl
  · split
    · next hcrc => simp [h.sent hcrc]
    · rfl

theorem clearEvents : (clearEvents r).filterMap f = [] := by
  have herror := h.errorCallback
  unfold SoftBus.Native.errorCallback at herror
  unfold SoftBus.Native.clearEvents
  rw [filterMap_append, h.closeEvents]
  split
  · rw [filterMap_cons_none (h.removed _), filterMap_append, herror]
    split
    · next hcrc => simp [h.sent hcrc]
    · rfl
  · rfl

theorem writeFailed : (writeFailed r files).events.filterMap f = [] := by
  have hclear : Ignores (setRecipientRecvState .err r).crc f := by
    rw [crc_setRecipientRecvState]
    exact h
  simp only [SoftBus.Native.writeFailed, filterMap_append, h.failureReport, h.errorCallback,
    hclear.clearEvents, append_nil]

theorem dataOutcome : (dataOutcome env frame r files).events.filterMap f = [] := by
  unfold SoftBus.Native.dataOutcome
  split
  · exact h.writeFailed
  dsimp only
  split
  · apply writeFailed
    exact h
  split
  · rw [filterMap_append, h.processCallback, h.closeEvents, append_nil]
  · exact h.processCallback _

theorem startFailed {events : List RecvEvent} (hevents : events.filterMap f = []) :
    (startFailed channelId r files events).events.filterMap f = [] := by
  simp only [SoftBus.Native.startFailed, filterMap_append, hevents, h.failureReport,
    h.errorCallback, h.clearEvents, append_nil]

theorem startOutcome : (startOutcome env channelId frame r w).events.filterMap f = [] := by
  unfold SoftBus.Native.startOutcome
  split
  · exact h.startFailed rfl
  next file hfile =>
  have hfile : Ignores ({ r with recvFileInfo := file } : FileRecipientInfo).crc f := h
  split
  · exact h.startFailed rfl
  dsimp only
  split
  · exact hfile.startFailed rfl
  split
  · apply hfile.startFailed
    rw [filterMap_cons_none (h.opened _ _)]
    exact h.closeEvents _
  · rw [filterMap_cons_none (h.opened _ _)]
    exact h.startedEvents _

end
end Ignores

/-- The picks of `sentFrames`, in a session without checksums. -/
theorem ignores_sent (hcrc : crc ≠ appInfoFileFeaturesSupport) :
    Ignores crc fun e => match e with
      | .sent _ frame => some frame
      | _ => none where
  opened _ _ := rfl
  closed _ := rfl
  removed _ := rfl
  receiveFileStarted _ _ := rfl
  receiveFileProcess _ _ _ _ := rfl
  fileTransError _ := rfl
  sent h := absurd h hcrc

/-- The calls of `OnReceiveFileFinished`: the session and the number of files. -/
def finishedCalls (events : List RecvEvent) : List (Int32 × ℕ) :=
  events.filterMap fun e => match e with
    | .receiveFileFinished sessionId _ fileCnt => some (sessionId, fileCnt)
    | _ => none

theorem finishedCalls_append (es es' : List RecvEvent) :
    finishedCalls (es ++ es') = finishedCalls es ++ finishedCalls es' :=
  filterMap_append

theorem ignores_finished (crc : Int32) :
    Ignores crc fun e => match e with
      | .receiveFileFinished sessionId _ fileCnt => some (sessionId, fileCnt)
      | _ => none where
  opened _ _ := rfl
  closed _ := rfl
  removed _ := rfl
  receiveFileStarted _ _ := rfl
  receiveFileProcess _ _ _ _ := rfl
  fileTransError _ := rfl
  sent _ _ _ := rfl

theorem finishedCalls_clearEvents : finishedCalls (clearEvents r) = [] :=
  (ignores_finished r.crc).clearEvents

/-- Only the list of the files makes the receiver call `OnReceiveFileFinished`. -/
theorem finishedCalls_frameOutcome (hlist : frame.frameType ≠ .allFileSent)
    (h : frameOutcome env sessionId channelId frame w = some o) : finishedCalls o.events = [] := by
  cases handled_of_frameOutcome h with
  | @start r => exact (ignores_finished r.crc).startOutcome
  | @data r => exact (ignores_finished r.crc).dataOutcome
  | ack =>
    unfold ackOutcome
    split
    · rfl
    · split
      · rfl
      · rfl
  | checkSum =>
    unfold checkSumOutcome
    dsimp only
    split
    · exact finishedCalls_clearEvents
    · rfl
  | list hf => exact absurd hf hlist
  | result => rfl

/-! ## The session during a transfer -/

/-- A recipient made for the session. -/
structure FileRecipientInfo.Of (r : FileRecipientInfo) (session : SessionInfo) : Prop where
  crc : r.crc = session.crc
  fileListener : r.fileListener = session.fileListener
  fileStatus : r.recvState = .idle → r.recvFileInfo.fileStatus = .idle

/-- The receiver during a transfer of the session that found it as `w₀`, until the list of
    the files comes. -/
structure During (sessionId : Int32) (session : SessionInfo) (w₀ w : RecvWorld) : Prop where
  settled : w.Settled
  others : ∀ id, id ≠ sessionId → w.recipient id = w₀.recipient id
  finished : finishedCalls w.trace = finishedCalls w₀.trace
  own : ∀ r, w.recipient sessionId = some r → r.Of session

/-- A file of the session is under way. -/
def RecvWorld.InProcess (w : RecvWorld) (sessionId : Int32) : Prop :=
  ∃ r, w.recipient sessionId = some r ∧ r.recvState ≠ .idle

theorem inProcess_settle (ho : o.Valid sessionId) :
    (w.settle sessionId o).InProcess sessionId ↔ ∃ r, o.recipient = some r ∧ r.recvState ≠ .idle := by
  unfold RecvWorld.InProcess
  rw [recipient_settle_self ho]
  cases o.recipient with
  | none => simp
  | some r => simp [rest]

theorem getRecipientInProcessRef_of_not_inProcess (h : ¬ w.InProcess sessionId) :
    getRecipientInProcessRef sessionId w = none := by
  apply getRecipientInProcessRef_eq_none
  intro r hr
  by_contra hne
  exact h ⟨r, hr, hne⟩

section Own
variable {r' : FileRecipientInfo}

theorem of_held (h : r.Of session) : r.held.Of session :=
  ⟨h.crc, h.fileListener, fun hidle => by simp [held] at hidle⟩

theorem of_startRecipient (hown : ∀ r, w.recipient sessionId = some r → r.Of session)
    (hsess : env.session = some session) (h : startRecipient env sessionId channelId w = some r) :
    r.Of session ∧ r.recvState = .start ∧ r.recvFileInfo.fileStatus = .idle := by
  unfold startRecipient at h
  cases hr : w.recipient sessionId with
  | none =>
    rw [hr, hsess] at h
    cases h
    exact ⟨⟨rfl, rfl, fun _ => rfl⟩, rfl, rfl⟩
  | some r₀ =>
    have hof := hown r₀ hr
    simp only [hr] at h
    split at h
    · next hidle =>
      cases h
      have hstatus := hof.fileStatus hidle
      exact ⟨⟨hof.crc, hof.fileListener, fun _ => hstatus⟩, rfl, hstatus⟩
    · simp at h

variable (hr : r.Of session)
include hr

theorem of_startOutcome (hs : r.recvState = .start)
    (h : (startOutcome env channelId frame r w).recipient = some r') : r'.Of session := by
  rcases startOutcome_cases env channelId frame r w with ⟨-, hnone⟩ | ⟨file, -, -, hsome, -⟩
  · simp [hnone] at h
  · rw [hsome] at h
    cases h
    exact ⟨hr.crc, hr.fileListener, fun hidle => by simp [hs] at hidle⟩

theorem of_dataOutcome (h : (dataOutcome env frame r.held files).recipient = some r') :
    r'.Of session := by
  rcases dataOutcome_cases env frame r.held files with ⟨-, hnone⟩ | ⟨data, s, -, -, -, -, hsome⟩
  · simp [hnone] at h
  · rw [hsome] at h
    cases h
    split
    · exact ⟨hr.crc, hr.fileListener, fun _ => rfl⟩
    · exact ⟨hr.crc, hr.fileListener, fun hidle => by simp [held] at hidle⟩

theorem of_ackOutcome (h : (ackOutcome env frame r.held files).recipient = some r') :
    r'.Of session := by
  unfold ackOutcome at h
  split at h
  · cases h
    exact of_held hr
  · split at h
    · cases h
      exact of_held hr
    · cases h
      exact ⟨hr.crc, hr.fileListener, fun hidle => by simp [held] at hidle⟩

theorem of_checkSumOutcome (h : (checkSumOutcome env frame r.held files).recipient = some r') :
    r'.Of session := by
  unfold checkSumOutcome at h
  dsimp only at h
  split at h
  · simp at h
  · cases h
    exact ⟨hr.crc, hr.fileListener, fun _ => rfl⟩

end Own

/-- A frame leaves the session a recipient of its own. -/
theorem of_frameOutcome (hw : w.Settled)
    (hown : ∀ r, w.recipient sessionId = some r → r.Of session) (hsess : env.session = some session)
    (h : frameOutcome env sessionId channelId frame w = some o) (hr : o.recipient = some r) :
    r.Of session := by
  -- the handlers of all frames but the first and results hold a recipient that is there
  have hheld : ∀ r, getRecipientInProcessRef sessionId w = some r →
      ∃ r₀ : FileRecipientInfo, r = r₀.held ∧ r₀.Of session := by
    intro r hget
    obtain ⟨r₀, hr₀, -, heq⟩ := getRecipientInProcessRef_eq_some hw hget
    exact ⟨r₀, heq, hown r₀ hr₀⟩
  cases handled_of_frameOutcome h with
  | start _ hstart =>
    obtain ⟨hof, hs, -⟩ := of_startRecipient hown hsess hstart
    exact of_startOutcome hof hs hr
  | data _ hget =>
    obtain ⟨r₀, rfl, hof⟩ := hheld _ hget
    exact of_dataOutcome hof hr
  | ack _ hget =>
    obtain ⟨r₀, rfl, hof⟩ := hheld _ hget
    exact of_ackOutcome hof hr
  | checkSum _ hget =>
    obtain ⟨r₀, rfl, hof⟩ := hheld _ hget
    exact of_checkSumOutcome hof hr
  | list =>
    unfold listOutcome at hr
    dsimp only at hr
    split at hr
    · simp at hr
    · simp at hr
  | result _ hr₁ =>
    cases hr
    have hof := hown _ hr₁
    exact ⟨hof.crc, hof.fileListener, hof.fileStatus⟩

/-- One frame of the transfer, other than the list of the files. -/
theorem During.of_frame (h : During sessionId session w₀ w) (hsess : env.session = some session)
    (hlist : frame.frameType ≠ .allFileSent) :
    During sessionId session w₀ (processRecvFileFrameData env sessionId channelId frame w).2 := by
  rw [processRecvFileFrameData_eq h.settled]
  cases ho : frameOutcome env sessionId channelId frame w with
  | none => exact h
  | some o =>
    have hvalid := valid_frameOutcome h.settled ho
    constructor
    · exact settled_settle h.settled hvalid
    · intro id hid
      exact (recipient_settle_ne hvalid hid).trans (h.others id hid)
    · show finishedCalls (w.trace ++ o.events) = _
      rw [finishedCalls_append, finishedCalls_frameOutcome hlist ho, append_nil, h.finished]
    · intro r hr
      have hself := recipient_settle_self (w := w) hvalid
      rw [hr] at hself
      obtain ⟨r₁, hr₁, rfl⟩ := Option.map_eq_some_iff.1 hself.symm
      have hof := of_frameOutcome h.settled h.own hsess ho hr₁
      exact ⟨hof.crc, hof.fileListener, hof.fileStatus⟩

/-! ## When a file is under way -/

theorem getRecipientInProcessRef_eq_none_iff :
    getRecipientInProcessRef sessionId w = none ↔ ¬ w.InProcess sessionId := by
  constructor
  · rintro hget ⟨r, hr, hne⟩
    simp [getRecipientInProcessRef, hr, hne] at hget
  · exact getRecipientInProcessRef_of_not_inProcess

/-- A start frame that the receiver accepts, for a session with no file under way: it
    names a file, which no other session receives and which can be opened and locked. -/
def StartAccepted (env : RecvEnv) (session : SessionInfo) (sessionId channelId : Int32)
    (frame : FileFrame) (w : RecvWorld) : Prop :=
  ∃ file, getFileInfoByStartFrame env frame (newRecipient session sessionId channelId) = .ok file ∧
    checkRecvFileExist file.filePath w = false ∧ 0 ≤ env.openFile file.filePath ∧
    tryFileLock env.fcntl (env.openFile file.filePath) 2 = .ok

/-- A start frame is read as its session tells. -/
theorem getFileInfoByStartFrame_congr {r' : FileRecipientInfo} (hcrc : r.crc = r'.crc)
    (hlistener : r.fileListener = r'.fileListener) :
    getFileInfoByStartFrame env frame r = getFileInfoByStartFrame env frame r' := by
  unfold getFileInfoByStartFrame
  rw [hcrc, hlistener]

theorem startOutcome_recipient_iff (hs : r.recvState = .start)
    (hidle : r.recvFileInfo.fileStatus = .idle) :
    (∃ r', (startOutcome env channelId frame r w).recipient = some r' ∧ r'.recvState ≠ .idle) ↔
      ∃ file, getFileInfoByStartFrame env frame r = .ok file ∧
        checkRecvFileExist file.filePath w = false ∧ 0 ≤ env.openFile file.filePath ∧
        tryFileLock env.fcntl (env.openFile file.filePath) 2 = .ok := by
  unfold startOutcome
  cases hfile : getFileInfoByStartFrame env frame r with
  | error e => simp [startFailed]
  | ok file =>
    dsimp only
    by_cases hexist : checkRecvFileExist file.filePath w = true
    · simp [startFailed, hexist]
    rw [if_neg (by simp [hidle, hexist])]
    by_cases hopen : env.openFile file.filePath < 0
    · rw [if_pos hopen]
      have hnot := Int32.not_le.2 hopen
      simp [startFailed, hnot]
    rw [if_neg hopen]
    by_cases hlock : tryFileLock env.fcntl (env.openFile file.filePath) 2 ≠ .ok
    · simp [startFailed, hlock]
    · rw [not_not] at hlock
      simp [hs, hexist, hlock, Int32.not_lt.1 hopen]

/-- Another session receives the file. -/
theorem checkRecvFileExist_iff {path : Path} :
    checkRecvFileExist path w = true ↔ ∃ id r, w.recipient id = some r ∧ r.recvState ≠ .idle ∧
      r.recvFileInfo.fileStatus = .busy ∧ r.recvFileInfo.filePath = path := by
  unfold checkRecvFileExist
  rw [any_eq_true]
  constructor
  · rintro ⟨r, hr, hbusy⟩
    simp only [Bool.and_eq_true, decide_eq_true_eq] at hbusy
    exact ⟨r.sessionId, r, KeyedList.find_of_mem hr, hbusy.1.1, hbusy.1.2, hbusy.2⟩
  · rintro ⟨id, r, hr, hne, hbusy, hpath⟩
    exact ⟨r, KeyedList.mem_of_find hr, by simp [hne, hbusy, hpath]⟩

namespace During
variable (h : During sessionId session w₀ w)
include h in
/-- Without a file under way the session receives what it received before. -/
theorem checkRecvFileExist_eq (h₀ : ¬ w₀.InProcess sessionId)
    (hidle : ¬ w.InProcess sessionId) (path : Path) :
    checkRecvFileExist path w = checkRecvFileExist path w₀ := by
  rw [Bool.eq_iff_iff, checkRecvFileExist_iff, checkRecvFileExist_iff]
  constructor
  · rintro ⟨id, r, hr, hne, hbusy⟩
    have hid : id ≠ sessionId := by
      rintro rfl
      exact hidle ⟨r, hr, hne⟩
    exact ⟨id, r, h.others id hid ▸ hr, hne, hbusy⟩
  · rintro ⟨id, r, hr, hne, hbusy⟩
    have hid : id ≠ sessionId := by
      rintro rfl
      exact h₀ ⟨r, hr, hne⟩
    exact ⟨id, r, (h.others id hid).symm ▸ hr, hne, hbusy⟩

theorem startRecipient_eq_none_iff (hsess : env.session = some session) :
    startRecipient env sessionId channelId w = none ↔ w.InProcess sessionId := by
  unfold startRecipient RecvWorld.InProcess
  cases w.recipient sessionId with
  | none => simp [hsess]
  | some r => simp

include h

/-- A start frame is ignored when a file is under way. -/
theorem inProcess_first_iff (h₀ : ¬ w₀.InProcess sessionId)
    (hsess : env.session = some session) (hf : frame.frameType = .first)
    (hlen : frame.frameLength ≤ proxyMaxPacketSize) :
    (processRecvFileFrameData env sessionId channelId frame w).2.InProcess sessionId ↔
      w.InProcess sessionId ∨ StartAccepted env session sessionId channelId frame w₀ := by
  have ho : frameOutcome env sessionId channelId frame w =
      (startRecipient env sessionId channelId w).map fun r => startOutcome env channelId frame r w := by
    unfold frameOutcome
    rw [if_neg (Nat.not_lt.2 hlen), hf]
  rw [processRecvFileFrameData_eq h.settled, ho]
  by_cases hin : w.InProcess sessionId
  · rw [(startRecipient_eq_none_iff hsess).2 hin]
    exact iff_of_true hin (.inl hin)
  · obtain ⟨r, hr⟩ := Option.ne_none_iff_exists'.1 (mt (startRecipient_eq_none_iff hsess).1 hin)
    obtain ⟨hof, hs, hidle⟩ := of_startRecipient h.own hsess hr
    rw [hr, Option.map_some]
    have hread : getFileInfoByStartFrame env frame r =
        getFileInfoByStartFrame env frame (newRecipient session sessionId channelId) :=
      getFileInfoByStartFrame_congr hof.crc hof.fileListener
    rw [inProcess_settle (valid_startOutcome (held_startRecipient hr)),
      startOutcome_recipient_iff hs hidle]
    simp only [h.checkRecvFileExist_eq h₀ hin, hin, false_or, StartAccepted, hread]

/-- The checksum of a file ends it. -/
theorem not_inProcess_checkSum (hf : frame.frameType = .crcCheck)
    (hlen : frame.frameLength ≤ proxyMaxPacketSize) :
    ¬ (processRecvFileFrameData env sessionId channelId frame w).2.InProcess sessionId := by
  have ho : frameOutcome env sessionId channelId frame w = (getRecipientInProcessRef sessionId w).map
      fun r => checkSumOutcome env frame r w.files := by
    unfold frameOutcome
    rw [if_neg (Nat.not_lt.2 hlen), hf]
  rw [processRecvFileFrameData_eq h.settled, ho]
  cases hget : getRecipientInProcessRef sessionId w with
  | none => exact getRecipientInProcessRef_eq_none_iff.1 hget
  | some r =>
    have hheld := held_getRecipientInProcessRef h.settled hget
    rw [Option.map_some]
    rw [inProcess_settle (valid_checkSumOutcome hheld)]
    rintro ⟨r', hr', hne⟩
    unfold checkSumOutcome at hr'
    dsimp only at hr'
    split at hr'
    · simp at hr'
    · cases hr'
      simp [setRecipientRecvState_idle hheld.recvState] at hne

/-- The last frame of a file without checksums ends it. -/
theorem not_inProcess_last (hcrc : session.crc ≠ appInfoFileFeaturesSupport)
    (hf : frame.frameType = .last ∨ frame.frameType = .onlyone)
    (hlen : frame.frameLength ≤ proxyMaxPacketSize) :
    ¬ (processRecvFileFrameData env sessionId channelId frame w).2.InProcess sessionId := by
  have ho : frameOutcome env sessionId channelId frame w = (getRecipientInProcessRef sessionId w).map
      fun r => dataOutcome env frame r w.files := by
    unfold frameOutcome
    rw [if_neg (Nat.not_lt.2 hlen)]
    rcases hf with hf | hf
    · rw [hf]
    · rw [hf]
  rw [processRecvFileFrameData_eq h.settled, ho]
  cases hget : getRecipientInProcessRef sessionId w with
  | none => exact getRecipientInProcessRef_eq_none_iff.1 hget
  | some r =>
    have hheld := held_getRecipientInProcessRef h.settled hget
    obtain ⟨r₀, hr₀, -, heq⟩ := getRecipientInProcessRef_eq_some h.settled hget
    have hrcrc : r.crc = session.crc := by
      rw [heq]
      exact (h.own r₀ hr₀).crc
    rw [Option.map_some]
    rw [inProcess_settle (valid_dataOutcome hheld)]
    rintro ⟨r', hr', hne⟩
    rcases dataOutcome_cases env frame r w.files with ⟨-, hnone⟩ | ⟨data, s, -, -, -, -, hsome⟩
    · simp [hnone] at hr'
    · rw [hsome, if_pos ⟨hrcrc ▸ hcrc, hf⟩] at hr'
      cases hr'
      simp at hne

end During

/-! ## Sessions with checksums -/

/-- The sender of a session, and its receiver during the transfer. -/
structure LinkDuring (env : LinkEnv) (session : SessionInfo) (w₀ : RecvWorld) (s : Link) : Prop where
  recv : During env.peerSession session w₀ s.recv
  crc : s.info.crc = session.crc

section
variable {env : LinkEnv}

theorem keeps_linkDuring (hsess : ∀ n, (env.recv n).session = some session) :
    Link.Keeps env true (LinkDuring env session w₀) where
  same h hsame := ⟨hsame.recv ▸ h.recv, hsame.crc.trans h.crc⟩
  send := by
    intro s h t frame _ hlist
    unfold send
    split
    · exact h
    · exact ⟨h.recv.of_frame (hsess _) hlist, h.crc⟩

theorem LinkDuring.sendFileCrcCheckSum_ends (hkept : env.lost .checkSum = false)
    (hcrc : session.crc = appInfoFileFeaturesSupport) (h : LinkDuring env session w₀ s)
    (hok : (sendFileCrcCheckSum env s).1 = .ok) :
    ¬ (sendFileCrcCheckSum env s).2.recv.InProcess env.peerSession := by
  have hpending := sameChannel_createPendingPacket s (s.info.seq + 1)
  unfold sendFileCrcCheckSum at hok ⊢
  rw [if_neg (not_not.2 (h.crc.trans hcrc))] at hok ⊢
  dsimp only at hok ⊢
  generalize createPendingPacket (s.info.seq + 1) s = x at hpending hok ⊢
  obtain ⟨ret, s'⟩ := x
  cases ret with
  | ok =>
    rw [(sameChannel_getPendingPacketData _ _ _).recv, (sameChannel_poll env _ _).recv, recv_send hkept]
    apply During.not_inProcess_checkSum (hpending.recv.symm ▸ h.recv) rfl
    show (packFileCrcCheckSum _ _).length ≤ _
    simp [packFileCrcCheckSum, proxyMaxPacketSize, frameHeadLen, frameMagicOffset, frameLenOffset]
  | _ => simp at hok

section
variable (hkept : env.lost .checkSum = false) (hsess : ∀ n, (env.recv n).session = some session)
  (hcrc : session.crc = appInfoFileFeaturesSupport) (h : LinkDuring env session w₀ s)
include hkept hsess hcrc h

theorem LinkDuring.fileToFrame_ends (hok : (fileToFrame env destFile s).1 = .ok) :
    ¬ (fileToFrame env destFile s).2.recv.InProcess env.peerSession := by
  have hloop : LinkDuring env session w₀
      (fileToFrameLoop env destFile s.info.frameNum 0 0 s.info.fileSize s).2 :=
    (keeps_linkDuring hsess).fileToFrameLoop h destFile _ (fun _ => rfl) _ _
  unfold fileToFrame at hok ⊢
  generalize fileToFrameLoop env destFile s.info.frameNum 0 0 s.info.fileSize s = x at hloop hok ⊢
  obtain ⟨ret, s'⟩ := x
  cases ret with
  | ok =>
    have hends := hloop.sendFileCrcCheckSum_ends hkept hcrc
    dsimp only at hends hok ⊢
    generalize sendFileCrcCheckSum env s' = y at hends hok ⊢
    obtain ⟨ret', s''⟩ := y
    cases ret' with
    | ok => exact hends rfl
    | _ => simp at hok
  | _ => simp at hok

theorem LinkDuring.sendSingleFile_ends (sourceFile destFile : Path) (hok : (sendSingleFile env sourceFile destFile s).1 = .ok) :
    ¬ (sendSingleFile env sourceFile destFile s).2.recv.InProcess env.peerSession := by
  unfold sendSingleFile fileToFrameAndSendFile at hok ⊢
  dsimp only at hok ⊢
  split at hok
  · simp at hok
  next hdest =>
  rw [if_neg hdest]
  split at hok
  · simp at hok
  split at hok
  · simp at hok
  split at hok
  · simp at hok
  next hopen =>
  rw [if_neg hopen]
  split at hok
  · simp at hok
  next hlock =>
  rw [if_neg hlock]
  refine LinkDuring.fileToFrame_ends hkept hsess hcrc (?_ : LinkDuring env session w₀ _) hok
  exact ⟨h.recv, h.crc⟩

/-- A list of files with checksums that is sent leaves no file under way. -/
theorem LinkDuring.sendFiles_ends (files : List (Path × Path)) (hne : files ≠ []) (hok : (sendFiles env files s).1 = .ok) :
    ¬ (sendFiles env files s).2.recv.InProcess env.peerSession := by
  induction files generalizing s with
  | nil => exact absurd rfl hne
  | cons file files ih =>
    obtain ⟨sourceFile, destFile⟩ := file
    have hsingle := (keeps_linkDuring hsess).sendSingleFile h sourceFile destFile
    have hends := h.sendSingleFile_ends hkept hsess hcrc sourceFile destFile
    unfold sendFiles at hok ⊢
    generalize sendSingleFile env sourceFile destFile s = x at hsingle hends hok ⊢
    obtain ⟨ret, s'⟩ := x
    cases ret with
    | ok =>
      -- the last file decides
      by_cases hlast : files = []
      · subst hlast
        exact hends rfl
      · exact ih hsingle hlast hok
    | _ => simp at hok

end
end

/-! ## Sessions without checksums -/

/-- A file frame is not answered in a session without checksums. -/
theorem During.sentFrames_eq_nil (h : During sessionId session w₀ w)
    (hsess : env.session = some session) (hcrc : session.crc ≠ appInfoFileFeaturesSupport)
    (hf : frame.frameType.isFileFrame = true) :
    sentFrames ((processRecvFileFrameData env sessionId channelId frame w).2.trace.drop
      w.trace.length) = [] := by
  rw [processRecvFileFrameData_eq h.settled]
  cases ho : frameOutcome env sessionId channelId frame w with
  | none => simp [sentFrames]
  | some o =>
    dsimp only [RecvWorld.settle]
    rw [drop_left]
    cases handled_of_frameOutcome ho with
    | @start r _ hr =>
      have hcrc₁ : r.crc ≠ appInfoFileFeaturesSupport := by
        rw [(of_startRecipient h.own hsess hr).1.crc]
        exact hcrc
      exact (ignores_sent hcrc₁).startOutcome
    | data _ hget =>
      obtain ⟨r₀, hr₀, -, rfl⟩ := getRecipientInProcessRef_eq_some h.settled hget
      have hcrc₀ : r₀.held.crc ≠ appInfoFileFeaturesSupport := by
        rw [(of_held (h.own r₀ hr₀)).crc]
        exact hcrc
      exact (ignores_sent hcrc₀).dataOutcome
    | ack ht | checkSum ht | list ht | result ht => simp [ht, FrameType.isFileFrame] at hf

/-- A transfer without checksums: no replies are under way. -/
structure PlainAt (env : LinkEnv) (session : SessionInfo) (w₀ : RecvWorld) (s : Link) : Prop
    extends LinkDuring env session w₀ s where
  result : s.info.result = SoftBusErr.ok.code
  replies : s.replies = []

theorem isFileFrame_frameIndexToType (index frameNum : ℕ) :
    (frameIndexToType index frameNum).isFileFrame = true := by
  unfold frameIndexToType
  split
  · rfl
  split
  · rfl
  split
  · rfl
  · rfl

theorem frameIndexToType_last {index frameNum : ℕ} (hindex : index ≠ 0)
    (hnum : frameNum = index + 1) :
    frameIndexToType index frameNum = .last ∨ frameIndexToType index frameNum = .onlyone := by
  unfold frameIndexToType
  rw [if_neg hindex]
  split
  · exact .inr rfl
  · rw [if_pos hnum.symm]
    exact .inl rfl

/-- The sessions without checksums of a link that loses nothing. -/
structure PlainLink (env : LinkEnv) (session : SessionInfo) : Prop where
  kept : ∀ t, env.lost t = false
  crc : session.crc ≠ appInfoFileFeaturesSupport
  session : ∀ n, (env.recv n).session = some session

namespace PlainAt
variable {env : LinkEnv} (hl : PlainLink env session) (h : PlainAt env session w₀ s)
include hl h in
theorem send (t : Transmission) (hf : frame.frameType.isFileFrame = true) :
    PlainAt env session w₀ (s.send env t frame) := by
  have hlist : frame.frameType ≠ .allFileSent := by
    intro ht
    simp [ht, FrameType.isFileFrame] at hf
  have hduring := (keeps_linkDuring hl.session).send h.toLinkDuring t (fun _ => rfl) hlist
  refine ⟨hduring, (congrArg _ (info_send env t frame s)).trans h.result, ?_⟩
  rw [replies_send (hl.kept t), h.replies, h.recv.sentFrames_eq_nil (hl.session _) hl.crc hf]
  rfl

include hl h in
/-- A frame is sent, and no more. -/
theorem sendOneFrame_eq (index : ℕ) (hf : frame.frameType.isFileFrame = true) :
    sendOneFrame env index frame s = (.ok, s.send env (.frame index) frame) := by
  have hsent := h.send hl (.frame index) hf
  have hcrc : s.info.crc ≠ appInfoFileFeaturesSupport := h.crc ▸ hl.crc
  have hcrc' : (s.send env (.frame index) frame).info.crc ≠ appInfoFileFeaturesSupport := by
    rw [info_send]
    exact hcrc
  unfold sendOneFrame sendOneFrameFront
  rw [if_pos hcrc]
  dsimp only
  unfold sendOneFrameMiddle
  rw [if_pos hcrc']
  dsimp only
  unfold sendOneFrameRear
  rw [poll_eq_self env index hsent.replies, if_pos hcrc']
  dsimp only
  rw [if_neg (not_not.2 hsent.result)]

include hl in
theorem length_handled_send (t : Transmission) :
    (s.send env t frame).handled.length = s.handled.length + 1 := by
  rw [handled_send (hl.kept t), length_append]
  rfl

include hl h in
/-- A data frame without checksums. -/
theorem packReadFileData_eq {readLength off : ℕ} (hpos : (s.info.pread readLength off).length ≠ 0) (hle : readLength ≤ 972) :
    packReadFileData readLength off s.info =
      some (packPlainData s.info.channelId (s.info.pread readLength off), s.info) := by
  have hcrc : s.info.crc ≠ appInfoFileFeaturesSupport := h.crc ▸ hl.crc
  have hlen : (s.info.pread readLength off).length ≤ readLength := by
    simp [SendListenerInfo.pread]
  unfold packReadFileData
  rw [if_neg hpos, if_neg hcrc, if_neg]
  simp only [packPlainData, length_append, Bytes.length_toLE, proxyMaxPacketSize]
  omega

include hl h in
/-- The data frames of a file: the last of them ends it. -/
theorem fileToFrameLoop_data (left index off remained : ℕ) (hindex : index ≠ 0)
    (hnum : s.info.frameNum = index + left) (hsource : s.info.source.length = off + remained)
    (hle : remained ≤ 972 * left) (hlt : 972 * left < remained + 972) :
    ∃ s', fileToFrameLoop env destFile left index off remained s = (.ok, s') ∧
      PlainAt env session w₀ s' ∧ s'.info = s.info ∧ s'.handled.length = s.handled.length + left ∧
      (left ≠ 0 → ¬ s'.recv.InProcess env.peerSession) := by
  induction left generalizing index off remained s with
  | zero => exact ⟨s, rfl, h, rfl, rfl, fun hne => absurd rfl hne⟩
  | succ left ih =>
    have hcrc : s.info.crc ≠ appInfoFileFeaturesSupport := h.crc ▸ hl.crc
    have hsize : frameDataSize s.info.crc = 972 := by
      unfold frameDataSize
      rw [if_neg hcrc]
      rfl
    -- the bytes of the next frame
    obtain ⟨readLength, hread⟩ : ∃ n, n = if remained < 972 then remained else 972 := ⟨_, rfl⟩
    have hbytes : (s.info.pread readLength off).length = min remained 972 := by
      rw [SendListenerInfo.pread, length_take, length_drop, hread]
      split
      · omega
      · omega
    have hpack : packReadFileData readLength off s.info =
        some (packPlainData s.info.channelId (s.info.pread readLength off), s.info) := by
      apply packReadFileData_eq hl h
      · omega
      · rw [hread]
        split
        · omega
        · omega
    have hfile := isFileFrame_frameIndexToType index s.info.frameNum
    unfold fileToFrameLoop
    dsimp only
    rw [if_neg hindex, hsize, ← hread, hpack]
    dsimp only
    rw [sendOneFrame_eq hl h index hfile, hbytes]
    generalize hframe : FileFrame.mk (frameIndexToType index s.info.frameNum)
      (packPlainData s.info.channelId (s.info.pread readLength off)) = frame
    have htype : frame.frameType = frameIndexToType index s.info.frameNum := by
      rw [← hframe]
    have hlen : frame.frameLength ≤ proxyMaxPacketSize := by
      rw [← hframe]
      simp only [FileFrame.frameLength, packPlainData, length_append, Bytes.length_toLE,
        proxyMaxPacketSize, hbytes]
      omega
    have hsent := h.send hl (.frame index) (htype ▸ hfile)
    have hinfo := info_send env (.frame index) frame s
    obtain ⟨s', hloop, hplain, hinfo', hhandled, hends⟩ := ih hsent (index + 1)
      (off + min remained 972) (remained - min remained 972) (by omega) (by rw [hinfo]; omega)
      (by rw [hinfo]; omega) (by omega) (by omega)
    refine ⟨s', hloop, hplain, hinfo'.trans hinfo, ?_, fun _ => ?_⟩
    · rw [hhandled, length_handled_send hl]
      omega
    · by_cases hlast : left = 0
      · subst hlast
        rw [← (Prod.mk.inj hloop).2, recv_send (hl.kept _)]
        apply h.recv.not_inProcess_last hl.crc _ hlen
        rw [htype]
        exact frameIndexToType_last hindex hnum
      · exact hends hlast

end PlainAt

/-! ## The files of a list -/

/-- The bytes of the file that is sent. -/
def LinkEnv.source (env : LinkEnv) (file : Path × Path) : List UInt8 :=
  ((getAndCheckRealPath env.realPath file.1).bind env.contents).getD []

/-- A file that can be sent: its names, its size, and that the sender can open and lock it. -/
structure ValidFile (env : LinkEnv) (file : Path × Path) : Prop where
  sourceName : file.1 ≠ [] ∧ file.1.length < maxFilePathNameLen
  destName : file.2 ≠ [] ∧ file.2.length < maxFilePathNameLen ∧ 0 ∉ file.2
  destPath : checkDestFilePathValid file.2 = true
  readable : ∃ path bytes, getAndCheckRealPath env.realPath file.1 = some path ∧
    env.contents path = some bytes ∧ bytes.length ≤ maxFileSize ∧ 0 ≤ env.openFile path ∧
    tryFileLock env.fcntl (env.openFile path) 2 = .ok

/-- The number of frames in which a file is sent, its start frame included. -/
def frameCount (env : LinkEnv) (crc : Int32) (file : Path × Path) : ℕ :=
  Chunks.count (frameDataSize crc) (env.source file) + 1

/-- The start frame of an empty file. -/
def emptyStart (crc channelId : Int32) (destFile : Path) : FileFrame :=
  ⟨.first, (packFileTransStartInfo crc channelId destFile 0).getD []⟩

namespace PlainAt
variable {env : LinkEnv} (hl : PlainLink env session) (h₀ : ¬ w₀.InProcess env.peerSession)
  (h : PlainAt env session w₀ s)

/-- The start frame of a file without checksums does not tell its size. -/
theorem packFileTransStartInfo_eq (hcrc : session.crc ≠ appInfoFileFeaturesSupport) (hne : destFile ≠ [])
    (hlen : destFile.length < maxFilePathNameLen) (fileSize : ℕ) :
    packFileTransStartInfo session.crc channelId destFile fileSize =
      some (emptyStart session.crc channelId destFile).data := by
  have hshort : ¬ (frameDataSeqOffset + destFile.length > proxyMaxPacketSize ∨ destFile = []) := by
    have hlen' : destFile.length < 512 := hlen
    show ¬ (4 + destFile.length > 1024 - 48 ∨ destFile = [])
    simp only [hne, or_false]
    omega
  simp only [emptyStart, packFileTransStartInfo, if_neg hcrc, if_neg hshort, Option.getD_some]

theorem frameLength_emptyStart (hcrc : session.crc ≠ appInfoFileFeaturesSupport) :
    (emptyStart session.crc channelId destFile).frameLength ≤ proxyMaxPacketSize := by
  simp only [FileFrame.frameLength, emptyStart, packFileTransStartInfo, if_neg hcrc]
  split
  · exact Nat.zero_le _
  · next hfits => simpa [frameDataSeqOffset] using (not_or.1 hfits).1

include hl h₀ h

/-- A file from its start frame on. -/
theorem fileToFrame_eq (hne : destFile ≠ []) (hname : destFile.length < maxFilePathNameLen) {n : ℕ}
    {start : FileFrame} (hstart : start = emptyStart session.crc s.info.channelId destFile)
    (hnum : s.info.frameNum = n + 1) (hsize : s.info.fileSize = s.info.source.length)
    (hle : s.info.source.length ≤ 972 * n) (hlt : 972 * n < s.info.source.length + 972) :
    ∃ s', fileToFrame env destFile s = (.ok, s') ∧ PlainAt env session w₀ s' ∧ s'.info = s.info ∧
      s'.handled.length = s.handled.length + (n + 1) ∧
      (s'.recv.InProcess env.peerSession ↔ n = 0 ∧ (s.recv.InProcess env.peerSession ∨
        StartAccepted (env.recv s.handled.length) session env.peerSession env.peerChannel start w₀)) := by
  have hsent : PlainAt env session w₀ (s.send env (.frame 0) start) := h.send hl _ (hstart ▸ rfl)
  have hinfo := info_send env (.frame 0) start s
  have hfirst : (s.send env (.frame 0) start).recv.InProcess env.peerSession ↔ s.recv.InProcess env.peerSession ∨
        StartAccepted (env.recv s.handled.length) session env.peerSession env.peerChannel start w₀ := by
    rw [recv_send (hl.kept (.frame 0)), hstart]
    exact h.recv.inProcess_first_iff h₀ (hl.session _) rfl (frameLength_emptyStart hl.crc)
  obtain ⟨s', hloop, hplain, hinfo', hhandled, hends⟩ := hsent.fileToFrameLoop_data hl n 1 0
    s.info.source.length (by omega) (by rw [hinfo]; omega) (by rw [hinfo]; omega) hle hlt
  have hcrc : s'.info.crc ≠ appInfoFileFeaturesSupport := hplain.crc ▸ hl.crc
  refine ⟨s', ?_, hplain, hinfo'.trans hinfo, ?_, ?_⟩
  · have hframe : ⟨frameIndexToType 0 s.info.frameNum, start.data⟩ = start := hstart ▸ rfl
    unfold fileToFrame
    rw [hnum]
    unfold fileToFrameLoop
    rw [if_pos rfl, h.crc, packFileTransStartInfo_eq hl.crc hne hname, ← hstart]
    dsimp only
    rw [hframe, h.sendOneFrame_eq hl 0 (hstart ▸ rfl)]
    dsimp only
    rw [hsize, hloop]
    dsimp only
    unfold sendFileCrcCheckSum
    rw [if_pos hcrc]
  · rw [hhandled, length_handled_send hl]
    omega
  · by_cases hn : n = 0
    · subst hn
      rw [← (Prod.mk.inj hloop).2]
      simpa using hfirst
    · exact iff_of_false (hends hn) fun hboth => hn hboth.1

theorem sendSingleFile_eq (hfile : ValidFile env file) :
    ∃ s', sendSingleFile env file.1 file.2 s = (.ok, s') ∧ PlainAt env session w₀ s' ∧
      s'.info.channelId = s.info.channelId ∧
      s'.handled.length = s.handled.length + frameCount env session.crc file ∧
      (s'.recv.InProcess env.peerSession ↔ env.source file = [] ∧ (s.recv.InProcess env.peerSession ∨
          StartAccepted (env.recv s.handled.length) session env.peerSession env.peerChannel
            (emptyStart session.crc s.info.channelId file.2) w₀)) := by
  obtain ⟨path, bytes, hpath, hbytes, hmax, hopen, hlock⟩ := hfile.readable
  have hcrc : session.crc ≠ appInfoFileFeaturesSupport := hl.crc
  have hsize : frameDataSize session.crc = 972 := by
    unfold frameDataSize
    rw [if_neg hcrc]
    rfl
  have hsource : env.source file = bytes := by
    rw [LinkEnv.source, hpath, Option.bind_some, hbytes, Option.getD_some]
  obtain ⟨n, hn⟩ : ∃ n, n = Chunks.count 972 bytes := ⟨_, rfl⟩
  have hcount : n = (bytes.length + 972 - 1) / 972 := hn
  have hframes : getAndCheckFileSize env.contents path s.info.crc = .ok (bytes.length, n + 1) := by
    unfold getAndCheckFileSize
    rw [hbytes, h.crc, hsize]
    dsimp only
    rw [if_neg (Nat.not_lt.2 hmax)]
    congr 3
    split
    · omega
    · omega
  have hat : PlainAt env session w₀ { s with info := { s.info with
      source := (env.contents path).getD [], fileSize := bytes.length, frameNum := n + 1 } } :=
    ⟨⟨h.recv, h.crc⟩, h.result, h.replies⟩
  obtain ⟨s', hsend, hplain, hinfo, hhandled, hin⟩ := hat.fileToFrame_eq hl h₀ hfile.destName.1
    hfile.destName.2.1 (n := n) rfl rfl (by simp [hbytes]) (by simp [hbytes]; omega) (by simp [hbytes]; omega)
  refine ⟨{ s' with info := clearSendInfo s'.info }, ?_, ?_, ?_, ?_, ?_⟩
  · unfold sendSingleFile fileToFrameAndSendFile
    rw [hfile.destPath, hpath]
    dsimp only
    rw [hframes]
    dsimp only
    rw [if_neg (by simp), if_neg (Int32.not_lt.2 hopen), if_neg (not_not.2 hlock), hsend]
  · exact ⟨⟨hplain.recv, hplain.crc⟩, rfl, hplain.replies⟩
  · show s'.info.channelId = _
    rw [hinfo]
  · rw [hhandled, frameCount, hsize, hsource, ← hn]
  · have hempty : n = 0 ↔ bytes = [] := by
      rw [← length_eq_zero_iff]
      omega
    rw [hsource, ← hempty]
    exact hin

end PlainAt

/-- The files end in empty ones, and the receiver starts one of those; `frames` reached it
    before the first file. -/
def EndsStarted (env : LinkEnv) (session : SessionInfo) (channelId : Int32) (w₀ : RecvWorld)
    (frames : ℕ) (files : List (Path × Path)) : Prop :=
  ∃ before file after, files = before ++ file :: after ∧ (∀ f ∈ file :: after, env.source f = []) ∧
    StartAccepted (env.recv (frames + (before.map (frameCount env session.crc)).sum)) session
      env.peerSession env.peerChannel (emptyStart session.crc channelId file.2) w₀

theorem endsStarted_cons {env : LinkEnv} {frames : ℕ} {files : List (Path × Path)} :
    EndsStarted env session channelId w₀ frames (file :: files) ↔
      ((env.source file = [] ∧ StartAccepted (env.recv frames) session env.peerSession
          env.peerChannel (emptyStart session.crc channelId file.2) w₀) ∧
        ∀ f ∈ files, env.source f = []) ∨
      EndsStarted env session channelId w₀ (frames + frameCount env session.crc file) files := by
  constructor
  · rintro ⟨before, f, after, hfiles, hempty, hstart⟩
    cases before with
    | nil =>
      obtain ⟨rfl, rfl⟩ := cons.inj hfiles
      exact .inl ⟨⟨hempty _ mem_cons_self, hstart⟩, fun g hg => hempty g (mem_cons_of_mem _ hg)⟩
    | cons g before =>
      obtain ⟨rfl, rfl⟩ := cons.inj hfiles
      rw [map_cons, sum_cons, ← Nat.add_assoc] at hstart
      exact .inr ⟨before, f, after, rfl, hempty, hstart⟩
  · rintro (⟨⟨hempty, hstart⟩, hall⟩ | ⟨before, f, after, rfl, hempty, hstart⟩)
    · refine ⟨[], file, files, rfl, ?_, hstart⟩
      intro g hg
      rcases mem_cons.1 hg with rfl | hg
      · exact hempty
      · exact hall g hg
    · refine ⟨file :: before, f, after, rfl, hempty, ?_⟩
      rw [map_cons, sum_cons, ← Nat.add_assoc]
      exact hstart

/-- All files of a list without checksums are sent. -/
theorem PlainAt.sendFiles_eq {env : LinkEnv} (hl : PlainLink env session) (h₀ : ¬ w₀.InProcess env.peerSession)
    (h : PlainAt env session w₀ s) {files : List (Path × Path)} (hfiles : ∀ file ∈ files, ValidFile env file) :
    ∃ s', sendFiles env files s = (.ok, s') ∧ PlainAt env session w₀ s' ∧
      s'.handled.length = s.handled.length + (files.map (frameCount env session.crc)).sum ∧
      (s'.recv.InProcess env.peerSession ↔
        (s.recv.InProcess env.peerSession ∧ ∀ file ∈ files, env.source file = []) ∨
          EndsStarted env session s.info.channelId w₀ s.handled.length files) := by
  induction files generalizing s with
  | nil =>
    refine ⟨s, rfl, h, rfl, ?_⟩
    simp [EndsStarted]
  | cons file files ih =>
    obtain ⟨s₁, hsend, hplain, hchannel, hhandled, hin⟩ :=
      h.sendSingleFile_eq hl h₀ (hfiles file mem_cons_self)
    obtain ⟨s', hrest, hplain', hhandled', hin'⟩ :=
      ih hplain fun f hf => hfiles f (mem_cons_of_mem _ hf)
    refine ⟨s', ?_, hplain', ?_, ?_⟩
    · unfold sendFiles
      rw [hsend]
      exact hrest
    · rw [hhandled', hhandled, map_cons, sum_cons, Nat.add_assoc]
    · rw [hin', hin, hchannel, hhandled, endsStarted_cons, forall_mem_cons, ← or_assoc]
      refine or_congr_left ?_
      constructor
      · rintro ⟨⟨hempty, hproc | hstart⟩, hall⟩
        · exact .inl ⟨hproc, hempty, hall⟩
        · exact .inr ⟨⟨hempty, hstart⟩, hall⟩
      · rintro (⟨hproc, hempty, hall⟩ | ⟨⟨hempty, hstart⟩, hall⟩)
        · exact ⟨⟨hempty, .inl hproc⟩, hall⟩
        · exact ⟨⟨hempty, .inr hstart⟩, hall⟩

/-! ## The list frame -/

/-- The calls that the list of the files brings about. -/
theorem finishedCalls_listOutcome (h : bufferToFileList frame.data = some (first, fileCount)) :
    finishedCalls (listOutcome env frame r files).events =
      if (firstRecvPath env r.fileListener.rootDir first).isSome ∧
          r.fileListener.onReceiveFileFinished = true then [(r.sessionId, fileCount)] else [] := by
  unfold listOutcome
  rw [h, Option.bind_some]
  cases firstRecvPath env r.fileListener.rootDir first with
  | none =>
    exact (finishedCalls_append _ _).trans
      (by rw [finishedCalls_clearEvents, append_nil]; exact (ignores_finished r.crc).errorCallback)
  | some path =>
    dsimp only [Option.map_some]
    rw [finishedCalls_append, finishedCalls_clearEvents]
    cases r.fileListener.onReceiveFileFinished with
    | true => rfl
    | false => rfl

theorem During.finishedCalls_list_iff (h : During sessionId session w₀ w)
    (hlist : bufferToFileList buffer = some (first, fileCount)) :
    finishedCalls (processRecvFileFrameData env sessionId channelId ⟨.allFileSent, buffer⟩ w).2.trace =
        finishedCalls w₀.trace ++ [(sessionId, fileCount)] ↔
      w.InProcess sessionId ∧ buffer.length ≤ proxyMaxPacketSize ∧
        (firstRecvPath env session.fileListener.rootDir first).isSome ∧
        session.fileListener.onReceiveFileFinished = true := by
  have hnone : finishedCalls w.trace ≠ finishedCalls w₀.trace ++ [(sessionId, fileCount)] := by
    rw [h.finished]
    simp
  have ho : frameOutcome env sessionId channelId ⟨.allFileSent, buffer⟩ w =
      if buffer.length > proxyMaxPacketSize then none
      else (getRecipientInProcessRef sessionId w).map fun r =>
        listOutcome env ⟨.allFileSent, buffer⟩ r w.files := rfl
  rw [processRecvFileFrameData_eq h.settled, ho]
  by_cases hlen : buffer.length > proxyMaxPacketSize
  · rw [if_pos hlen]
    exact iff_of_false hnone fun hall => absurd hall.2.1 (Nat.not_le.2 hlen)
  rw [if_neg hlen]
  cases hget : getRecipientInProcessRef sessionId w with
  | none =>
    exact iff_of_false hnone fun hall => getRecipientInProcessRef_eq_none_iff.1 hget hall.1
  | some r =>
    obtain ⟨r₀, hr₀, hne, rfl⟩ := getRecipientInProcessRef_eq_some h.settled hget
    have hof := of_held (h.own r₀ hr₀)
    have hid := (held_getRecipientInProcessRef h.settled hget).sessionId
    have hin : w.InProcess sessionId := ⟨r₀, hr₀, hne⟩
    dsimp only [Option.map_some, RecvWorld.settle]
    rw [finishedCalls_append, finishedCalls_listOutcome hlist, hof.fileListener, hid, h.finished]
    by_cases hcall : (firstRecvPath env session.fileListener.rootDir first).isSome ∧
        session.fileListener.onReceiveFileFinished = true
    · rw [if_pos hcall]
      exact iff_of_true rfl ⟨hin, Nat.not_lt.1 hlen, hcall⟩
    · rw [if_neg hcall]
      exact iff_of_false (by simp) fun hall => hcall hall.2.2

/-! ## A whole transfer -/

/-- A sender at the start of its list of files. -/
def startLink (channelId sessionId crc : Int32) (recv : RecvWorld) : Link :=
  ⟨createSendListenerInfo channelId sessionId crc, [], recv, [], []⟩

/-- What the receiver is left with: the list of the files comes when all are sent. -/
theorem recv_proxyChannelSendFile {env : LinkEnv} {files : List (Path × Path)} {recv : RecvWorld} (hne : files ≠ [])
    (hmax : files.length ≤ maxSendFileNum) (hfiles : ∀ file ∈ files, ValidFile env file)
    (hbuffer : fileListToBuffer (files.map Prod.snd) = some buffer) :
    (proxyChannelSendFile env channelId sessionId crc files recv).2.recv =
      match sendFiles env files (startLink channelId sessionId crc recv) with
      | (.ok, s) => (s.send env .fileList ⟨.allFileSent, buffer⟩).recv
      | (_, s) => s.recv := by
  have hnames : ∀ (name : Path × Path → Path),
      (∀ file ∈ files, name file ≠ [] ∧ (name file).length < maxFilePathNameLen) →
      isValidFileString (files.map name) maxFilePathNameLen = true := by
    intro name h
    simp only [isValidFileString, isEmpty_map, Bool.and_eq_true, all_eq_true,
      mem_map, decide_eq_true_eq, Bool.not_eq_true', isEmpty_eq_false_iff]
    refine ⟨hne, ?_⟩
    rintro _ ⟨file, hfile, rfl⟩
    obtain ⟨hname, hlen⟩ := h file hfile
    exact ⟨fun h0 => hname (length_eq_zero_iff.1 h0), hlen⟩
  have hcount : ¬ (files.length = 0 ∨ files.length > maxSendFileNum) := by
    have hpos := length_pos_iff.2 hne
    omega
  unfold proxyChannelSendFile startLink
  rw [if_neg hcount, hnames _ fun file hfile => (hfiles file hfile).sourceName,
    hnames _ fun file hfile =>
      ⟨(hfiles file hfile).destName.1, (hfiles file hfile).destName.2.1⟩]
  rw [if_neg (by simp)]
  unfold proxyStartSendFile
  generalize sendFiles env files _ = x
  obtain ⟨ret, s⟩ := x
  cases ret with
  | ok =>
    unfold sendFileList
    rw [hbuffer]
    dsimp only
    split
    · next heq =>
      split at heq
      · simp at heq
      · rw [← (Prod.mk.inj heq).2]
    · next heq =>
      split at heq
      · rw [← (Prod.mk.inj heq).2]
        rfl
      · next hne' _ => exact absurd (Prod.mk.inj heq).1.symm (by simpa using hne')
  | _ => rfl

/-- The session has no file under way. -/
structure SessionIdle (sessionId : Int32) (session : SessionInfo) (w : RecvWorld) : Prop where
  settled : w.Settled
  idle : ∀ r, w.recipient sessionId = some r → r.recvState = .idle ∧ r.Of session

namespace SessionIdle

theorem during (h : SessionIdle sessionId session w) : During sessionId session w w :=
  ⟨h.settled, fun _ _ => rfl, rfl, fun r hr => (h.idle r hr).2⟩

theorem not_inProcess (h : SessionIdle sessionId session w) : ¬ w.InProcess sessionId := by
  rintro ⟨r, hr, hne⟩
  exact hne (h.idle r hr).1

theorem init (sessionId : Int32) (session : SessionInfo) :
    SessionIdle sessionId session RecvWorld.init :=
  ⟨settled_run [], fun _ hr => absurd (KeyedList.mem_of_find hr) not_mem_nil⟩

end SessionIdle

/-- The session manager answers every frame for the session alike. -/
def RecvInput.Knows (sessionId : Int32) (session : SessionInfo) : RecvInput → Prop
  | .frame env sessionId' _ _ => sessionId' = sessionId → env.session = some session
  | .tick _ => True

theorem of_step {i : RecvInput} (hw : w.Settled) (hown : ∀ r, w.recipient sessionId = some r → r.Of session)
    (hi : i.Knows sessionId session) (hr : (w.step i).recipient sessionId = some r) : r.Of session := by
  cases i with
  | tick env =>
    rw [RecvWorld.step, recipient_tick] at hr
    obtain ⟨r₀, hr₀, htick⟩ := Option.bind_eq_some_iff.1 hr
    obtain ⟨timeOut, rfl⟩ := timeOutRecipient_eq_some htick
    have hof := hown r₀ hr₀
    exact ⟨hof.crc, hof.fileListener, hof.fileStatus⟩
  | frame env sessionId' channelId frame =>
    by_cases hid : sessionId' = sessionId
    · subst hid
      rw [RecvWorld.step, processRecvFileFrameData_eq hw] at hr
      cases ho : frameOutcome env sessionId' channelId frame w with
      | none =>
        rw [ho] at hr
        exact hown r hr
      | some o =>
        rw [ho] at hr
        rw [recipient_settle_self (valid_frameOutcome hw ho)] at hr
        obtain ⟨r₀, hr₀, rfl⟩ := Option.map_eq_some_iff.1 hr
        have hof := of_frameOutcome hw hown (hi rfl) ho hr₀
        exact ⟨hof.crc, hof.fileListener, hof.fileStatus⟩
    · rw [recipient_step_ne hw (Ne.symm hid)] at hr
      exact hown r hr

/-- A receiver is ready for the session after every run that leaves it no file under way. -/
theorem SessionIdle.of_run (inputs : List RecvInput) (hknows : ∀ i ∈ inputs, i.Knows sessionId session)
    (hidle : ¬ (inputs.foldl RecvWorld.step .init).InProcess sessionId) :
    SessionIdle sessionId session (inputs.foldl RecvWorld.step .init) := by
  have hinit := SessionIdle.init sessionId session
  obtain ⟨hsettled, hof⟩ := Run.AllSteps.foldl_inv
    (P := fun w : RecvWorld => w.Settled ∧ ∀ r, w.recipient sessionId = some r → r.Of session)
    (fun w i hw hi => ⟨settled_step hw.1 i, fun r hr => of_step hw.1 hw.2 hi hr⟩)
    (.of_forall fun _ => hknows) ⟨hinit.settled, fun r hr => (hinit.idle r hr).2⟩
  refine ⟨hsettled, fun r hr => ⟨?_, hof r hr⟩⟩
  by_contra hne
  exact hidle ⟨r, hr, hne⟩

/-- The size of the list of the files. -/
theorem length_fileListItems (names : List Path) (k : ℕ) :
    ((names.zipIdx k).flatMap fun item => fileListItem item.2 item.1).length =
      (names.map fun name => fileListItemSize + name.length).sum := by
  induction names generalizing k with
  | nil => rfl
  | cons name names ih =>
    rw [zipIdx_cons, flatMap_cons, length_append, ih, map_cons]
    simp only [fileListItem, length_append, Bytes.length_toBE]
    rfl

theorem length_fileListToBuffer {names : List Path} (h : fileListToBuffer names = some buffer) :
    buffer.length = (names.map fun name => fileListItemSize + name.length).sum := by
  unfold fileListToBuffer at h
  split at h
  · simp at h
  split at h
  · simp at h
  rw [← Option.some.inj h]
  exact length_fileListItems names 0

/-- The receiver calls `OnReceiveFileFinished` for a list of files, once and with their
    number, only in sessions without checksums, and only when the list ends in empty files
    of which it starts one. -/
theorem finishedCalls_proxyChannelSendFile_iff {env : LinkEnv}
    {recv : RecvWorld} {files : List (Path × Path)} (hkept : ∀ t, env.lost t = false)
    (hsess : ∀ n, (env.recv n).session = some session)
    (hidle : SessionIdle env.peerSession session recv) (hne : files ≠ [])
    (hfiles : ∀ file ∈ files, ValidFile env file) (channelId sessionId : Int32) :
    finishedCalls (proxyChannelSendFile env channelId sessionId session.crc files recv).2.recv.trace =
        finishedCalls recv.trace ++ [(env.peerSession, files.length)] ↔
      session.crc ≠ appInfoFileFeaturesSupport ∧ files.length ≤ maxSendFileNum ∧
        EndsStarted env session channelId recv 0 files ∧
        (files.map fun file => fileListItemSize + file.2.length).sum ≤ proxyMaxPacketSize ∧
        (firstRecvPath (env.recv (files.map (frameCount env session.crc)).sum)
          session.fileListener.rootDir ((files.map Prod.snd).headD [])).isSome = true ∧
        session.fileListener.onReceiveFileFinished = true := by
  by_cases hmax : files.length ≤ maxSendFileNum
  swap
  · -- the sender refuses the list
    have hrefused : (proxyChannelSendFile env channelId sessionId session.crc files recv).2.recv =
        recv := by
      unfold proxyChannelSendFile
      rw [if_pos (.inr (Nat.not_le.1 hmax))]
    rw [hrefused]
    exact iff_of_false (by simp) fun hall => hmax hall.2.1
  have hnames : ∀ name ∈ files.map Prod.snd, name ≠ [] ∧ name.length ≤ maxFilePathNameLen ∧
      0 ∉ name := by
    intro name hname
    obtain ⟨file, hfile, rfl⟩ := mem_map.1 hname
    obtain ⟨h1, h2, h3⟩ := (hfiles file hfile).destName
    exact ⟨h1, h2.le, h3⟩
  have hne' : files.map Prod.snd ≠ [] := by simpa using hne
  obtain ⟨buffer, hbuffer, hlist⟩ := bufferToFileList_fileListToBuffer
    (fun name hname => ⟨(hnames name hname).1, (hnames name hname).2.1⟩) hne' (by
      rw [headD_eq_head?_getD, head?_eq_some_head hne', Option.getD_some]
      exact (hnames _ (head_mem hne')).2.2)
  have hlen := length_fileListToBuffer hbuffer
  rw [map_map] at hlen
  rw [length_map] at hlist
  rw [recv_proxyChannelSendFile hne hmax hfiles hbuffer]
  by_cases hcrc : session.crc = appInfoFileFeaturesSupport
  · -- the checksum of the last file has ended it
    have hstart : LinkDuring env session recv (startLink channelId sessionId session.crc recv) :=
      ⟨hidle.during, rfl⟩
    have hkeep := (keeps_linkDuring hsess).sendFiles hstart files
    have hends := hstart.sendFiles_ends (hkept _) hsess hcrc files hne
    generalize sendFiles env files _ = x at hkeep hends
    obtain ⟨ret, s⟩ := x
    refine iff_of_false ?_ fun hall => hall.1 hcrc
    cases ret with
    | ok =>
      dsimp only
      rw [recv_send (hkept _), hkeep.recv.finishedCalls_list_iff hlist]
      exact fun hall => hends rfl hall.1
    | _ =>
      rw [hkeep.recv.finished]
      simp
  · have hstart : PlainAt env session recv (startLink channelId sessionId session.crc recv) :=
      ⟨⟨hidle.during, rfl⟩, rfl, rfl⟩
    obtain ⟨s, hsend, hplain, hhandled, hin⟩ :=
      hstart.sendFiles_eq ⟨hkept, hcrc, hsess⟩ hidle.not_inProcess hfiles
    have hframes : s.handled.length = (files.map (frameCount env session.crc)).sum := by
      rw [hhandled]
      exact Nat.zero_add _
    have hstarted : s.recv.InProcess env.peerSession ↔
        EndsStarted env session channelId recv 0 files := by
      rw [hin]
      exact or_iff_right fun hboth => hidle.not_inProcess hboth.1
    rw [hsend]
    dsimp only
    rw [recv_send (hkept _), hplain.recv.finishedCalls_list_iff hlist, hframes, hstarted, hlen]
    exact ⟨fun hall => ⟨hcrc, hmax, hall⟩, fun hall => hall.2.2⟩

/-- A link that loses nothing, to a receiver whose calls all succeed; every file of the
    sender has the same bytes. -/
def listLink (crc : Int32) (bytes : List UInt8) : LinkEnv where
  recv := fun _ => goodEnv crc
  peerSession := 1
  peerChannel := 1
  lost := fun _ => false
  arrives := fun _ => true
  beyond := fun _ => 0
  realPath := some
  contents := fun _ => some bytes
  openFile := fun _ => 3
  fcntl := fun _ => true

/-- The session without checksums of that receiver. -/
def listSession : SessionInfo := ⟨0, ⟨[pathSeparator], false, false, true, false⟩⟩

/-- The path of a file of which the receiver reads a name, 8 bytes behind its start. -/
def longName : Path := [98, 98, 98, 98, 98, 98, 98, 98, 97]

theorem finishedCalls_empty_file :
    finishedCalls (proxyChannelSendFile (listLink 0 []) 1 1 0 [([97], longName)] .init).2.recv.trace =
      [(1, 1)] := by
  have hvalid : ∀ file ∈ [(([97] : Path), longName)], ValidFile (listLink 0 []) file := by
    intro file hfile
    rw [mem_singleton.1 hfile]
    exact ⟨by decide, by decide, by decide, [97], [], rfl, rfl, by decide, by decide, by decide⟩
  have hsess : ∀ n, ((listLink 0 []).recv n).session = some listSession := fun _ => rfl
  apply (finishedCalls_proxyChannelSendFile_iff (fun _ => rfl) hsess (SessionIdle.init 1 _)
    (by simp) hvalid 1 1).2
  have hfile : getFileInfoByStartFrame (goodEnv 0) (emptyStart 0 1 longName)
      (newRecipient listSession 1 1) =
        .ok { SingleFileInfo.calloc with seq := 1, filePath := [47, 47, 97] } := by
    decide +kernel
  have hstart : StartAccepted (goodEnv 0) listSession 1 1 (emptyStart 0 1 longName) .init :=
    ⟨_, hfile, rfl, by decide, by decide⟩
  exact ⟨by decide, by decide, ⟨[], ([97], longName), [], rfl, by decide, hstart⟩, by decide,
    by decide, rfl⟩

/-- A file of one byte that the receiver gets whole. -/
theorem finishedCalls_one_byte :
    (proxyChannelSendFile (listLink appInfoFileFeaturesSupport [1]) 1 1 appInfoFileFeaturesSupport
        [([97], [97])] .init).1 = .ok ∧
      finishedCalls (proxyChannelSendFile (listLink appInfoFileFeaturesSupport [1]) 1 1
        appInfoFileFeaturesSupport [([97], [97])] .init).2.recv.trace ≠ [(1, 1)] := by
  decide +kernel

end SoftBus.Native
