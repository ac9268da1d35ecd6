import Mathlib
import SoftBus.Native.ProxyFileRecv

/-!
# The receiver, one session at a time

A frame concerns the recipient of its session and no other.  `Outcome` is what a
handler makes of the recipient it holds, with the files and the events, and
`writeFrameToFile_eq`, … show that the handlers are the functions from recipient to
outcome defined here.  Between two inputs a recipient has one reference, the one of
the list, and is not in the error state (`Settled`).
-/

namespace SoftBus.Native
open Function FileRecipientInfo RecvWorld KeyedList Option Prod
variable {sessionId channelId sessionId' : Int32} {r r' : FileRecipientInfo} {w w' : RecvWorld} {env : RecvEnv}
  {o : Outcome} {frame : FileFrame} {files : Int32 → List UInt8} {es : List RecvEvent}

/-- What a handler leaves behind: the recipient it holds, unless it gives it up. -/
structure Outcome where
  code : SoftBusErr
  recipient : Option FileRecipientInfo
  files : Int32 → List UInt8
  events : List RecvEvent

/-- The recipient with the reference of the list alone. -/
def FileRecipientInfo.rest (r : FileRecipientInfo) : FileRecipientInfo := { r with objRefCount := 1 }

/-- The world with the outcome of a handler for the session. -/
def RecvWorld.settle (w : RecvWorld) (sessionId : Int32) (o : Outcome) : RecvWorld where
  recipients := match o.recipient with
    | some r => w.recipients.put r.rest
    | none => w.recipients.erase sessionId
  files := o.files
  trace := w.trace ++ o.events

/-- A recipient between two inputs. -/
structure FileRecipientInfo.AtRest (r : FileRecipientInfo) : Prop where
  objRefCount : r.objRefCount = 1
  recvState : r.recvState ≠ .err

/-- A recipient that a handler holds. -/
structure FileRecipientInfo.Held (r : FileRecipientInfo) (sessionId : Int32) : Prop where
  sessionId : r.sessionId = sessionId
  objRefCount : r.objRefCount = 2
  recvState : r.recvState ≠ .err

/-- Every recipient is at rest. -/
def RecvWorld.Settled (w : RecvWorld) : Prop := ∀ r ∈ w.recipients.toList, r.AtRest

/-! ## Small lemmas about the world -/

namespace RecvWorld
variable (w : RecvWorld) (e : RecvEvent) (r : FileRecipientInfo) (b : Bool) (fd : Int32)

@[simp] theorem recipients_emit : (w.emit e).recipients = w.recipients := rfl
@[simp] theorem files_emit : (w.emit e).files = w.files := rfl
@[simp] theorem trace_emit : (w.emit e).trace = w.trace ++ [e] := rfl
@[simp] theorem recipients_setRecipient : (w.setRecipient r).recipients = w.recipients.set r := rfl
@[simp] theorem files_setRecipient : (w.setRecipient r).files = w.files := rfl
@[simp] theorem trace_setRecipient : (w.setRecipient r).trace = w.trace := rfl

@[simp] theorem recipients_emitIf : (w.emitIf b e).recipients = w.recipients := by
  cases b <;> rfl

@[simp] theorem files_emitIf : (w.emitIf b e).files = w.files := by cases b <;> rfl

@[simp] theorem trace_emitIf : (w.emitIf b e).trace = w.trace ++ if b then [e] else [] := by
  cases b <;> simp [emitIf]

/-- The event of closing a descriptor, if it is one. -/
def closeEvents (fd : Int32) : List RecvEvent := if fd ≤ invalidFd then [] else [.closed fd]

@[simp] theorem recipients_closeFile : (w.closeFile fd).recipients = w.recipients := by
  unfold closeFile; split <;> rfl

@[simp] theorem files_closeFile : (w.closeFile fd).files = w.files := by
  unfold closeFile; split <;> rfl

@[simp] theorem trace_closeFile : (w.closeFile fd).trace = w.trace ++ closeEvents fd := by
  unfold closeFile closeEvents; split <;> simp

theorem sessionId_of_recipient {w : RecvWorld} {r : FileRecipientInfo} (h : w.recipient sessionId = some r) :
    r.sessionId = sessionId :=
  key_of_find h

/-- A world with more events. -/
def log (w : RecvWorld) (es : List RecvEvent) : RecvWorld := { w with trace := w.trace ++ es }

@[simp] theorem recipients_log : (w.log es).recipients = w.recipients := rfl
@[simp] theorem files_log : (w.log es).files = w.files := rfl
@[simp] theorem trace_log : (w.log es).trace = w.trace ++ es := rfl

theorem recipient_setRecipient {w : RecvWorld} {r : FileRecipientInfo} (r' : FileRecipientInfo)
    (h : w.recipient sessionId = some r) (hk : r'.sessionId = sessionId) :
    (w.setRecipient r').recipient sessionId = some r' := by
  subst hk
  exact find_set_self h

theorem ext {w : RecvWorld} (h1 : w.recipients = w'.recipients) (h2 : w.files = w'.files) (h3 : w.trace = w'.trace) :
    w = w' := by
  cases w'; cases h1; cases h2; cases h3; rfl

end RecvWorld

open RecvWorld (closeEvents sessionId_of_recipient recipient_setRecipient)

/-! ## Giving up a recipient -/

/-- The events of `ClearRecipientResources`. -/
def clearEvents (info : FileRecipientInfo) : List RecvEvent :=
  closeEvents info.recvFileInfo.fileFd ++
    if info.recvState = .err then
      .removed info.recvFileInfo.filePath :: ((if info.crc = appInfoFileFeaturesSupport then
          [.sent info.channelId
            ⟨.result, packFileTransResult info.recvFileInfo.seq .err isRecvResult⟩] else []) ++
        if info.fileListener.onFileTransError then [.fileTransError info.sessionId] else [])
    else []

theorem clearRecipientResources_eq (info : FileRecipientInfo) :
    clearRecipientResources env info w = { w with trace := w.trace ++ clearEvents info } := by
  have hclose : (if info.recvFileInfo.fileFd ≠ invalidFd then w.closeFile info.recvFileInfo.fileFd
      else w) = w.closeFile info.recvFileInfo.fileFd := by
    split
    · rfl
    · next h => rw [not_not.1 h]; rfl
  unfold clearRecipientResources clearEvents
  simp only [hclose]
  apply RecvWorld.ext
  · split <;> [split; skip] <;> simp [sendFileTransResult]
  · split <;> [split; skip] <;> simp [sendFileTransResult]
  · split <;> [split; skip] <;> simp [sendFileTransResult]

/-- Dropping the reference of a handler. -/
theorem releaseRecipientRef_eq (w : RecvWorld) (hc : r.objRefCount = 2) :
    releaseRecipientRef env r w = w.setRecipient r.rest := by
  unfold releaseRecipientRef rest
  simp [hc]

/-- Dropping the last reference. -/
theorem delRecipient_eq (h : w.recipient sessionId = some r) (hc : r.objRefCount = 1) :
    delRecipient env sessionId w = (w.dropRecipient sessionId).log (clearEvents r) := by
  have hk := sessionId_of_recipient h
  subst hk
  rw [delRecipient, h]
  simp only [releaseRecipientRef, hc, Int.sub_self, if_true]
  rw [clearRecipientResources_eq]
  rfl

section
variable (h : w.recipient sessionId = some r') (hk : r.sessionId = sessionId)
  (hc : r.objRefCount = 2) {code : SoftBusErr}
include h hk hc

/-- The end of every error exit: the reference of the handler and that of the list. -/
theorem delRecipient_releaseRecipientRef :
    delRecipient env sessionId (releaseRecipientRef env r w) =
      (w.dropRecipient sessionId).log (clearEvents r) := by
  have hrest := recipient_setRecipient r.rest h hk
  rw [releaseRecipientRef_eq w hc, delRecipient_eq hrest rfl]
  apply RecvWorld.ext
  · exact erase_set hk
  · rfl
  · rfl

/-- A handler that keeps its recipient. -/
theorem releaseRecipientRef_eq_settle (ho : o.recipient = some r) (hw : w'.recipients = w.recipients)
    (hf : w'.files = o.files) (ht : w'.trace = w.trace ++ o.events) :
    (code, releaseRecipientRef env r w') = (code, w.settle sessionId o) := by
  subst hk
  have hput : w.recipients.put r.rest = w.recipients.set r.rest := put_of_find h
  rw [releaseRecipientRef_eq w' hc]
  refine congrArg (Prod.mk _) (RecvWorld.ext ?_ ?_ ?_)
  · simp only [settle, ho, hput, recipients_setRecipient, hw]
  · exact hf
  · exact ht

/-- A handler that gives its recipient up. -/
theorem delRecipient_eq_settle (ho : o.recipient = none) (hw : w'.recipients = w.recipients)
    (hf : w'.files = o.files) (ht : w'.trace ++ clearEvents r = w.trace ++ o.events) :
    (code, delRecipient env sessionId (releaseRecipientRef env r w')) = (code, w.settle sessionId o) := by
  have h' : w'.recipient sessionId = some r' := by rw [recipient, hw]; exact h
  rw [delRecipient_releaseRecipientRef h' hk hc]
  refine congrArg (Prod.mk _) (RecvWorld.ext ?_ ?_ ?_)
  · simp only [settle, ho, recipients_log, dropRecipient, hw]
  · exact hf
  · exact ht

end

/-! ## Taking a recipient for a frame -/

theorem getRecipientInProcessRef_eq_none (h : ∀ r, w.recipient sessionId = some r → r.recvState = .idle) :
    getRecipientInProcessRef sessionId w = none := by
  unfold getRecipientInProcessRef
  cases hr : w.recipient sessionId with
  | none => rfl
  | some r => simp [h r hr]

/-- The recipient that a handler of the session gets: a file that was started is in
    process from its first frame on. -/
def FileRecipientInfo.held (r : FileRecipientInfo) : FileRecipientInfo :=
  { r with recvState := .process, objRefCount := 2 }

theorem getRecipientInProcessRef_eq (h : w.recipient sessionId = some r) (hr : r.AtRest) (hs : r.recvState ≠ .idle) :
    getRecipientInProcessRef sessionId w = some r.held := by
  have hs' := hr.recvState
  unfold getRecipientInProcessRef held
  cases hstate : r.recvState <;> simp_all [hr.objRefCount]

theorem held_held (h : w.recipient sessionId = some r) : r.held.Held sessionId where
  sessionId := by
    have := sessionId_of_recipient h
    exact this
  objRefCount := rfl
  recvState := by simp [held]

section
variable (state : FileRecvState) (r : FileRecipientInfo)

@[simp] theorem sessionId_setRecipientRecvState :
    (setRecipientRecvState state r).sessionId = r.sessionId := by
  unfold setRecipientRecvState; split <;> [split; skip] <;> rfl

@[simp] theorem objRefCount_setRecipientRecvState :
    (setRecipientRecvState state r).objRefCount = r.objRefCount := by
  unfold setRecipientRecvState; split <;> [split; skip] <;> rfl

@[simp] theorem fileListener_setRecipientRecvState :
    (setRecipientRecvState state r).fileListener = r.fileListener := by
  unfold setRecipientRecvState; split <;> [split; skip] <;> rfl

theorem setRecipientRecvState_rest :
    setRecipientRecvState state r.rest = (setRecipientRecvState state r).rest := by
  unfold setRecipientRecvState rest; split <;> [split; skip] <;> rfl

end

theorem setRecipientRecvState_idle (hs : r.recvState ≠ .err) :
    setRecipientRecvState .idle r =
      { r with recvState := .idle, recvFileInfo.fileStatus := .idle } := by
  simp [setRecipientRecvState, hs]

/-! ## File data -/

/-- The result frame that tells the sender of a failure. -/
def failureReport (crc channelId : Int32) : List RecvEvent :=
  if crc = appInfoFileFeaturesSupport then
    [.sent channelId ⟨.result, packFileTransResult 0 .err isRecvResult⟩]
  else []

/-- The callback that tells the application of a failure. -/
def errorCallback (r : FileRecipientInfo) : List RecvEvent :=
  if r.fileListener.onFileTransError then [.fileTransError r.sessionId] else []

theorem sendFailure_eq (crc : Int32) : (if crc = appInfoFileFeaturesSupport then
      (sendFileTransResult env channelId 0 .err isRecvResult w).2 else w) =
      w.log (failureReport crc channelId) := by
  unfold failureReport
  split
  · rfl
  · exact ext rfl rfl (by simp)

/-- A recipient given up because of a frame it cannot process. -/
def writeFailed (r : FileRecipientInfo) (files : Int32 → List UInt8) : Outcome where
  code := .err
  recipient := none
  files := files
  events := failureReport r.crc r.channelId ++ errorCallback r ++
    clearEvents (setRecipientRecvState .err r)

theorem writeFrameExit_eq (h : w.recipient sessionId = some r') (hr : r.Held sessionId)
    (hw : w'.recipients = w.recipients) (ht : w'.trace = w.trace) :
    writeFrameExit env r sessionId w' = (.err, w.settle sessionId (writeFailed r w'.files)) := by
  unfold writeFrameExit
  simp only [sendFailure_eq]
  apply delRecipient_eq_settle h
  · simpa using hr.sessionId
  · simpa using hr.objRefCount
  · rfl
  · simpa using hw
  · simp [writeFailed]
  · simp [writeFailed, errorCallback, ht, hr.sessionId]

/-- The callback that tells the application of the progress of a file. -/
def processCallback (r : FileRecipientInfo) (file : SingleFileInfo) : List RecvEvent :=
  if r.fileListener.onReceiveFileProcess then
    [.receiveFileProcess r.sessionId file.filePath file.fileOffset file.fileSize]
  else []

/-- What a data frame does to the recipient that its handler holds. -/
def dataOutcome (env : RecvEnv) (frame : FileFrame) (r : FileRecipientInfo)
    (files : Int32 → List UInt8) : Outcome :=
  match unpackFileDataFrame r.crc env.beyond frame with
  | .error _ => writeFailed r files
  | .ok data =>
    let fd := r.recvFileInfo.fileFd
    let (ret, s) := processOneFrame env r.crc frame.frameType data ⟨r.recvFileInfo, files fd, 0⟩
    let files := update files fd s.content
    if ret ≠ .ok then
      writeFailed { r with recvFileInfo := s.fileInfo } files
    else if r.crc ≠ appInfoFileFeaturesSupport
        ∧ (frame.frameType = .last ∨ frame.frameType = .onlyone) then
      { code := .ok
        recipient := some { r with
          recvState := .idle
          recvFileInfo := { s.fileInfo with
            timeOut := 0, fileStatus := .idle, fileFd := invalidFd } }
        files
        events := processCallback r s.fileInfo ++ closeEvents s.fileInfo.fileFd }
    else
      { code := .ok
        recipient := some { r with recvFileInfo := { s.fileInfo with timeOut := 0 } }
        files
        events := processCallback r s.fileInfo }

theorem writeFrameToFile_eq (h : w.recipient sessionId = some r')
    (hget : getRecipientInProcessRef sessionId w = some r) (hr : r.Held sessionId) :
    writeFrameToFile env sessionId frame w = ((dataOutcome env frame r w.files).code,
        w.settle sessionId (dataOutcome env frame r w.files)) := by
  unfold writeFrameToFile dataOutcome
  rw [hget]
  dsimp only
  cases hu : unpackFileDataFrame r.crc env.beyond frame with
  | error e =>
    rw [writeFrameExit_eq h hr rfl rfl]
    rfl
  | ok data =>
    dsimp only
    generalize processOneFrame env r.crc frame.frameType data _ = res
    obtain ⟨ret, s⟩ := res
    by_cases hret : ret = .ok
    · rw [if_neg (not_not.2 hret), if_neg (not_not.2 hret)]
      -- the last frame of a file without checksums also closes it
      split
      · simp only [closeLastFrame, setRecipientRecvState, ne_eq, hr.recvState, not_false_iff, if_true]
        apply releaseRecipientRef_eq_settle h
        · exact hr.sessionId
        · exact hr.objRefCount
        · rfl
        · simp
        · simp
        · simp [processCallback, hr.sessionId]
      · apply releaseRecipientRef_eq_settle h
        · exact hr.sessionId
        · exact hr.objRefCount
        · rfl
        · simp
        · simp
        · simp [processCallback, hr.sessionId]
    · rw [if_pos hret, if_pos hret]
      rw [writeFrameExit_eq h]
      · rfl
      · exact ⟨hr.sessionId, hr.objRefCount, hr.recvState⟩
      · rfl
      · rfl

/-! ## The start of a file -/

/-- The recipient as the handler of a start frame gets it. -/
def FileRecipientInfo.starting (r : FileRecipientInfo) : FileRecipientInfo :=
  { r with recvState := .start, objRefCount := 2 }

/-- The recipient of a session that may start a file, new if there is none. -/
def startRecipient (env : RecvEnv) (sessionId channelId : Int32) (w : RecvWorld) :
    Option FileRecipientInfo :=
  match w.recipient sessionId with
  | some r => if r.recvState = .idle then some r.starting else none
  | none => env.session.map fun session => (newRecipient session sessionId channelId).starting

theorem held_startRecipient (h : startRecipient env sessionId channelId w = some r) :
    r.Held sessionId := by
  unfold startRecipient at h
  cases hr : w.recipient sessionId with
  | none =>
    rw [hr] at h
    obtain ⟨session, -, rfl⟩ := map_eq_some_iff.1 h
    exact ⟨rfl, rfl, by simp [starting]⟩
  | some r' =>
    simp only [hr] at h
    split at h
    · rw [← some.inj h]
      have hk := sessionId_of_recipient hr
      exact ⟨hk, rfl, by simp [starting]⟩
    · exact absurd h (by simp)

/-- A recipient given up because its file cannot be created. -/
def startFailed (channelId : Int32) (r : FileRecipientInfo) (files : Int32 → List UInt8)
    (events : List RecvEvent) : Outcome where
  code := .err
  recipient := none
  files := files
  events := events ++ failureReport r.crc channelId ++ errorCallback r ++ clearEvents r

/-- The callback and the result frame of a file that is created. -/
def startedEvents (channelId : Int32) (r : FileRecipientInfo) (filePath : Path) : List RecvEvent :=
  (if r.fileListener.onReceiveFileStarted then [.receiveFileStarted r.sessionId filePath] else []) ++
    if r.crc = appInfoFileFeaturesSupport then
      [.sent channelId ⟨.result, packFileTransResult 0 .ok isRecvResult⟩]
    else []

/-- What a start frame does to the recipient that its handler holds. -/
def startOutcome (env : RecvEnv) (channelId : Int32) (frame : FileFrame) (r : FileRecipientInfo)
    (w : RecvWorld) : Outcome :=
  match getFileInfoByStartFrame env frame r with
  | .error _ => startFailed channelId r w.files []
  | .ok file =>
    if r.recvFileInfo.fileStatus ≠ .idle ∨ checkRecvFileExist file.filePath w then
      startFailed channelId r w.files []
    else
      let fd := env.openFile file.filePath
      if fd < 0 then
        startFailed channelId { r with recvFileInfo := file } w.files []
      else if tryFileLock env.fcntl fd 2 ≠ .ok then
        startFailed channelId { r with recvFileInfo := file } w.files
          (.opened file.filePath fd :: closeEvents fd)
      else
        { code := .ok
          recipient := some { r with recvFileInfo := { file with
            fileStatus := .busy, fileOffset := 0, timeOut := 0, fileFd := fd } }
          files := update w.files fd []
          events := .opened file.filePath fd :: startedEvents channelId r file.filePath }

theorem settle_push (h : w.recipients.find r.sessionId = none) (hk : r.sessionId = sessionId)
    (ho : ∀ r', o.recipient = some r' → r'.sessionId = sessionId) :
    settle { w with recipients := w.recipients.push r } sessionId o = w.settle sessionId o := by
  subst hk
  unfold settle
  cases ho' : o.recipient with
  | none => simp only [erase_push h, erase_of_find_none h]
  | some r' =>
    have hk' : r'.rest.sessionId = r.sessionId := ho r' ho'
    have hfind : (w.recipients.push r).find r'.rest.sessionId = some r := by
      rw [hk']
      exact find_push_self h
    simp only [put_of_find hfind, set_push h hk'.symm,
      put_of_find_none (hk' ▸ h : w.recipients.find r'.rest.sessionId = none)]

/-- The world in which the handler of a start frame works: it may have a new recipient. -/
structure Started (sessionId : Int32) (r : FileRecipientInfo) (w w' : RecvWorld) : Prop where
  recipient : ∃ r', w'.recipient sessionId = some r'
  files : w'.files = w.files
  trace : w'.trace = w.trace
  exist : ∀ path, checkRecvFileExist path w' = checkRecvFileExist path w
  settle : ∀ o : Outcome, (∀ r', o.recipient = some r' → r'.sessionId = sessionId) →
    w'.settle sessionId o = w.settle sessionId o

theorem getRecipientInCreateFileRef_eq (env : RecvEnv) (sessionId channelId : Int32) (hw : w.Settled) :
    match startRecipient env sessionId channelId w with
    | none => getRecipientInCreateFileRef env sessionId channelId w = none
    | some r => ∃ w', getRecipientInCreateFileRef env sessionId channelId w = some (r, w') ∧
        Started sessionId r w w' := by
  unfold startRecipient getRecipientInCreateFileRef
  cases hr : w.recipient sessionId with
  | some r =>
    have hrest := hw r (mem_of_find hr)
    by_cases hs : r.recvState = .idle
    · simp only [hr, hs, ne_eq, not_true, if_true, if_false]
      refine ⟨w, ?_, ⟨r, hr⟩, rfl, rfl, fun _ => rfl, fun _ _ => rfl⟩
      simp [starting, hrest.objRefCount]
    · simp only [hr, hs, ne_eq, not_false_iff, if_true, if_false]
  | none =>
    cases hsess : env.session with
    | none => simp [createNewRecipient, hr, hsess]
    | some session =>
      have hnew : w.recipients.find (newRecipient session sessionId channelId).sessionId = none := hr
      have hfind : recipient
          { w with recipients := w.recipients.push (newRecipient session sessionId channelId) }
          sessionId = some (newRecipient session sessionId channelId) :=
        find_push_self hnew
      simp only [createNewRecipient, hr, hsess, map_some]
      refine ⟨_, ?_, ⟨_, hfind⟩, rfl, rfl, fun path => ?_, fun o ho => ?_⟩
      · rw [hfind]
        rfl
      · simp only [checkRecvFileExist, push, dif_neg (find_eq_none.1 hnew)]
        simp [newRecipient]
      · exact settle_push hnew rfl ho

section
variable (events : List RecvEvent) (h : w.recipient sessionId = some r') (hr : r.Held sessionId)
  (hw : w'.recipients = w.recipients) (ht : w'.trace = w.trace ++ events)
include h hr hw ht

theorem createFileExit_eq :
    createFileExit env r sessionId channelId w' =
      (.err, w.settle sessionId (startFailed channelId r w'.files events)) := by
  unfold createFileExit
  simp only [sendFailure_eq]
  apply delRecipient_eq_settle h
  · exact hr.sessionId
  · exact hr.objRefCount
  · rfl
  · simpa using hw
  · simp [startFailed]
  · simp [startFailed, errorCallback, ht, hr.sessionId]

theorem createFileDone_eq {filePath : Path} :
    createFileDone env r sessionId channelId filePath w' = (.ok, w.settle sessionId {
        code := .ok
        recipient := some r
        files := w'.files
        events := events ++ startedEvents channelId r filePath }) := by
  have hput := put_of_find (a := r.rest) (hr.sessionId ▸ h)
  simp only [createFileDone, startedEvents, releaseRecipientRef_eq _ hr.objRefCount]
  split
  · refine congrArg (Prod.mk _) (RecvWorld.ext ?_ ?_ ?_)
    · simp [settle, sendFileTransResult, hput, hw]
    · simp [settle, sendFileTransResult]
    · simp [settle, sendFileTransResult, ht, hr.sessionId]
  · refine congrArg (Prod.mk _) (RecvWorld.ext ?_ ?_ ?_)
    · simp [settle, hput, hw]
    · simp [settle]
    · simp [settle, ht, hr.sessionId]

end

theorem createFileFromFrame_eq (hw : w.Settled) :
    createFileFromFrame env sessionId channelId frame w =
      match startRecipient env sessionId channelId w with
      | none => (.err, w)
      | some r => ((startOutcome env channelId frame r w).code,
          w.settle sessionId (startOutcome env channelId frame r w)) := by
  have hget := getRecipientInCreateFileRef_eq env sessionId channelId hw
  unfold createFileFromFrame
  cases hr : startRecipient env sessionId channelId w with
  | none =>
    rw [hr] at hget
    simp only [hget]
  | some r =>
    rw [hr] at hget
    obtain ⟨w', hget, hst⟩ := hget
    obtain ⟨r', hr'⟩ := hst.recipient
    have hheld := held_startRecipient hr
    simp only [hget]
    -- every exit is stated for the world with the new recipient first
    unfold startOutcome putToRecvFileList
    rw [← hst.files]
    have hexit : ∀ {r₁ : FileRecipientInfo} {w₁ : RecvWorld} (events : List RecvEvent), r₁.Held sessionId →
        w₁.recipients = w'.recipients → w₁.files = w'.files → w₁.trace = w'.trace ++ events →
        createFileExit env r₁ sessionId channelId w₁ =
          (.err, w.settle sessionId (startFailed channelId r₁ w'.files events)) := by
      intro r₁ w₁ events hheld₁ hw₁ hf₁ ht₁
      rw [createFileExit_eq events hr' hheld₁ hw₁ ht₁, hst.settle _ (by simp [startFailed]), hf₁]
    cases hf : getFileInfoByStartFrame env frame r with
    | error e => exact hexit [] hheld rfl rfl (by simp)
    | ok file =>
      simp only [hst.exist]
      by_cases hbusy : r.recvFileInfo.fileStatus ≠ .idle
      · simp only [if_pos hbusy, if_pos (Or.inl hbusy)]
        exact hexit [] hheld rfl rfl (by simp)
      by_cases hexist : checkRecvFileExist file.filePath w = true
      · simp only [if_neg hbusy, if_pos hexist, if_pos (Or.inr hexist)]
        exact hexit [] hheld rfl rfl (by simp)
      simp only [if_neg hbusy, if_neg hexist, if_neg (not_or.2 ⟨hbusy, hexist⟩)]
      have hheld' : FileRecipientInfo.Held { r with recvFileInfo := file } sessionId :=
        ⟨hheld.sessionId, hheld.objRefCount, hheld.recvState⟩
      by_cases hopen : env.openFile file.filePath < 0
      · simp only [if_pos hopen]
        exact hexit [] hheld' rfl rfl (by simp)
      by_cases hlock : tryFileLock env.fcntl (env.openFile file.filePath) 2 ≠ .ok
      · simp only [if_neg hopen, if_pos hlock]
        exact hexit _ hheld' (by simp) (by simp) (by simp)
      · simp only [if_neg hopen, if_neg hlock]
        rw [createFileDone_eq (w := w') [.opened file.filePath (env.openFile file.filePath)] hr']
        · exact congrArg (Prod.mk _) (hst.settle _ (by rintro _ ⟨⟩; exact hheld.sessionId))
        · exact ⟨hheld.sessionId, hheld.objRefCount, hheld.recvState⟩
        · rfl
        · rfl

/-! ## The end of the transfer -/

section
variable (h : w.recipient sessionId = some r') (hget : getRecipientInProcessRef sessionId w = some r)
  (hr : r.Held sessionId)
include h hget hr

/-- What the list of the files does to the recipient that its handler holds. -/
def listOutcome (env : RecvEnv) (frame : FileFrame) (r : FileRecipientInfo)
    (files : Int32 → List UInt8) : Outcome :=
  let listed := (bufferToFileList frame.data).bind fun list =>
    (firstRecvPath env r.fileListener.rootDir list.1).map fun path => (path, list.2)
  match listed with
  | some (absRecvPath, fileCount) =>
    { code := .ok
      recipient := none
      files := files
      events := (if r.fileListener.onReceiveFileFinished then
          [.receiveFileFinished r.sessionId absRecvPath fileCount] else []) ++
        clearEvents (setRecipientRecvState .idle r) }
  | none =>
    { code := .err
      recipient := none
      files := files
      events := errorCallback r ++ clearEvents (setRecipientRecvState .err r) }

theorem processFileListData_eq :
    processFileListData env sessionId frame w = ((listOutcome env frame r w.files).code,
        w.settle sessionId (listOutcome env frame r w.files)) := by
  unfold processFileListData listOutcome
  rw [hget]
  dsimp only
  cases (bufferToFileList frame.data).bind fun list =>
      (firstRecvPath env r.fileListener.rootDir list.1).map fun path => (path, list.2) with
  | some listed =>
    apply delRecipient_eq_settle h
    · simpa using hr.sessionId
    · simpa using hr.objRefCount
    · rfl
    · simp
    · simp
    · simp [hr.sessionId]
  | none =>
    apply delRecipient_eq_settle h
    · simpa using hr.sessionId
    · simpa using hr.objRefCount
    · rfl
    · simp
    · simp
    · simp [errorCallback, hr.sessionId]

/-- What a checksum frame does to the recipient that its handler holds. -/
def checkSumOutcome (env : RecvEnv) (frame : FileFrame) (r : FileRecipientInfo)
    (files : Int32 → List UInt8) : Outcome :=
  let (result, seq) := unpackFileCrcCheckSum r.crc r.recvFileInfo.checkSumCRC env.beyond
    env.stackSeq frame
  let answer : RecvEvent := .sent r.channelId ⟨.result, packFileTransResult seq result isRecvResult⟩
  if result ≠ .ok ∨ env.ipcSend ≠ .ok then
    { code := .err
      recipient := none
      files := files
      events := answer :: clearEvents (setRecipientRecvState .err r) }
  else
    { code := .ok
      recipient := some (setRecipientRecvState .idle r)
      files := files
      events := [answer] }

theorem processCrcCheckSumData_eq :
    processCrcCheckSumData env sessionId frame w = ((checkSumOutcome env frame r w.files).code,
        w.settle sessionId (checkSumOutcome env frame r w.files)) := by
  unfold processCrcCheckSumData checkSumOutcome
  rw [hget]
  dsimp only
  generalize unpackFileCrcCheckSum r.crc _ _ _ _ = res
  obtain ⟨result, seq⟩ := res
  simp only [sendFileTransResult, releaseRecipientRef_eq _ hr.objRefCount]
  generalize RecvEvent.sent r.channelId _ = answer
  have hrest := recipient_setRecipient (w := w.emit answer) r.rest h hr.sessionId
  by_cases hfail : result ≠ .ok ∨ env.ipcSend ≠ .ok
  · simp only [if_pos hfail, setListedRecvState, hrest, setRecipientRecvState_rest]
    refine congrArg (Prod.mk _) ?_
    have hk : (setRecipientRecvState .err r).rest.sessionId = sessionId := by
      simpa [rest] using hr.sessionId
    rw [delRecipient_eq (recipient_setRecipient _ hrest hk) rfl]
    apply RecvWorld.ext
    · exact (erase_set hk).trans (erase_set hr.sessionId)
    · rfl
    · exact List.append_assoc _ _ _
  · simp only [if_neg hfail, setListedRecvState, hrest, setRecipientRecvState_rest]
    refine congrArg (Prod.mk _) ?_
    have hk : r.rest.sessionId = (setRecipientRecvState .idle r).rest.sessionId := by
      simp [rest]
    have hfind : w.recipients.find (setRecipientRecvState .idle r).rest.sessionId = some r' := by
      rw [← hk]
      exact hr.sessionId ▸ h
    apply RecvWorld.ext
    · exact (set_set hk).trans (put_of_find hfind).symm
    · rfl
    · rfl

/-- What an acknowledgement request does to the recipient that its handler holds. -/
def ackOutcome (env : RecvEnv) (frame : FileFrame) (r : FileRecipientInfo)
    (files : Int32 → List UInt8) : Outcome :=
  match unpackAckReqAndResData env.beyond frame with
  | .error _ => { code := .err, recipient := some r, files := files, events := [] }
  | .ok request =>
    if request.startSeq ≠ r.recvFileInfo.startSeq then
      { code := .err, recipient := some r, files := files, events := [] }
    else
      { code := env.ipcSend
        recipient := some { r with recvFileInfo := slideWindow r.recvFileInfo }
        files := files
        events := [.sent r.channelId ⟨.ackResponseSent,
          packAckReqAndResData r.recvFileInfo.startSeq r.recvFileInfo.seqResult.toUInt32⟩] }

theorem processFileAckRequest_eq :
    processFileAckRequest env sessionId frame w = ((ackOutcome env frame r w.files).code,
        w.settle sessionId (ackOutcome env frame r w.files)) := by
  unfold processFileAckRequest ackOutcome
  rw [hget]
  cases unpackAckReqAndResData env.beyond frame with
  | error e =>
    exact releaseRecipientRef_eq_settle h hr.sessionId hr.objRefCount rfl rfl rfl (by simp)
  | ok request =>
    dsimp only
    split
    · exact releaseRecipientRef_eq_settle h hr.sessionId hr.objRefCount rfl rfl rfl (by simp)
    · apply releaseRecipientRef_eq_settle h
      · exact hr.sessionId
      · exact hr.objRefCount
      · rfl
      · rfl
      · rfl
      · rfl

end

/-! ## All frames -/

/-- What a result frame about the sending side does. -/
def resultOutcome (env : RecvEnv) (frame : FileFrame) (r : FileRecipientInfo)
    (files : Int32 → List UInt8) : Option Outcome :=
  match unpackFileTransResultFrame env.beyond frame with
  | .error _ => none
  | .ok res =>
    if res.side = isSendResult then
      some { code := .ok, recipient := some { r with result := res.result }, files, events := [] }
    else none

/-- What a frame does to its session; `none` when it changes nothing. -/
def frameOutcome (env : RecvEnv) (sessionId channelId : Int32) (frame : FileFrame)
    (w : RecvWorld) : Option Outcome :=
  if frame.frameLength > proxyMaxPacketSize then
    none
  else
    match frame.frameType with
    | .first =>
      (startRecipient env sessionId channelId w).map fun r => startOutcome env channelId frame r w
    | .ongoine | .onlyone | .last =>
      (getRecipientInProcessRef sessionId w).map fun r => dataOutcome env frame r w.files
    | .ackRequestSent =>
      (getRecipientInProcessRef sessionId w).map fun r => ackOutcome env frame r w.files
    | .crcCheck =>
      (getRecipientInProcessRef sessionId w).map fun r => checkSumOutcome env frame r w.files
    | .allFileSent =>
      (getRecipientInProcessRef sessionId w).map fun r => listOutcome env frame r w.files
    | .result => (w.recipient sessionId).bind fun r => resultOutcome env frame r w.files
    | .ackResponseSent | .other _ => none

/-- What the handler of each kind of frame does, with the recipient that it works on. -/
inductive Handled (env : RecvEnv) (sessionId channelId : Int32) (frame : FileFrame) (w : RecvWorld) :
    Outcome → Prop
  | start {r : FileRecipientInfo} (hf : frame.frameType = .first)
      (hr : startRecipient env sessionId channelId w = some r) :
      Handled env sessionId channelId frame w (startOutcome env channelId frame r w)
  | data {r : FileRecipientInfo}
      (hf : frame.frameType = .ongoine ∨ frame.frameType = .onlyone ∨ frame.frameType = .last)
      (hr : getRecipientInProcessRef sessionId w = some r) :
      Handled env sessionId channelId frame w (dataOutcome env frame r w.files)
  | ack {r : FileRecipientInfo} (hf : frame.frameType = .ackRequestSent)
      (hr : getRecipientInProcessRef sessionId w = some r) :
      Handled env sessionId channelId frame w (ackOutcome env frame r w.files)
  | checkSum {r : FileRecipientInfo} (hf : frame.frameType = .crcCheck)
      (hr : getRecipientInProcessRef sessionId w = some r) :
      Handled env sessionId channelId frame w (checkSumOutcome env frame r w.files)
  | list {r : FileRecipientInfo} (hf : frame.frameType = .allFileSent)
      (hr : getRecipientInProcessRef sessionId w = some r) :
      Handled env sessionId channelId frame w (listOutcome env frame r w.files)
  | result {r : FileRecipientInfo} {result : UInt32} (hf : frame.frameType = .result)
      (hr : w.recipient sessionId = some r) : Handled env sessionId channelId frame w
        { code := .ok, recipient := some { r with result }, files := w.files, events := [] }

theorem handled_of_frameOutcome (h : frameOutcome env sessionId channelId frame w = some o) :
    Handled env sessionId channelId frame w o := by
  unfold frameOutcome at h
  split at h
  · simp at h
  cases hf : frame.frameType <;> simp only [hf, map_eq_some_iff, reduceCtorEq] at h
  case first =>
    obtain ⟨r, hr, rfl⟩ := h
    exact .start hf hr
  case ongoine | onlyone | last =>
    obtain ⟨r, hr, rfl⟩ := h
    exact .data (by simp [hf]) hr
  case ackRequestSent =>
    obtain ⟨r, hr, rfl⟩ := h
    exact .ack hf hr
  case crcCheck =>
    obtain ⟨r, hr, rfl⟩ := h
    exact .checkSum hf hr
  case allFileSent =>
    obtain ⟨r, hr, rfl⟩ := h
    exact .list hf hr
  case result =>
    obtain ⟨r, hr, ho⟩ := bind_eq_some_iff.1 h
    unfold resultOutcome at ho
    split at ho
    · simp at ho
    · split at ho
      · cases ho
        exact .result hf hr
      · simp at ho

/-- A handler either holds the recipient of its session or finds none. -/
theorem getRecipientInProcessRef_cases (sessionId : Int32) (hw : w.Settled) :
    getRecipientInProcessRef sessionId w = none ∨
      ∃ r, w.recipient sessionId = some r ∧ r.AtRest ∧ r.recvState ≠ .idle ∧
        getRecipientInProcessRef sessionId w = some r.held := by
  cases hr : w.recipient sessionId with
  | none => exact .inl (getRecipientInProcessRef_eq_none (by simp [hr]))
  | some r =>
    have hrest := hw r (mem_of_find hr)
    by_cases hs : r.recvState = .idle
    · exact .inl (getRecipientInProcessRef_eq_none (by simp [hr, hs]))
    · exact .inr ⟨r, rfl, hrest, hs, getRecipientInProcessRef_eq hr hrest hs⟩

theorem getRecipientInProcessRef_eq_some (hw : w.Settled) (h : getRecipientInProcessRef sessionId w = some r) :
    ∃ r₀, w.recipient sessionId = some r₀ ∧ r₀.recvState ≠ .idle ∧ r = r₀.held := by
  rcases getRecipientInProcessRef_cases sessionId hw with hnone | ⟨r₀, hr₀, -, hne, hget⟩
  · simp [hnone] at h
  · rw [hget] at h
    exact ⟨r₀, hr₀, hne, (some.inj h).symm⟩

theorem held_getRecipientInProcessRef (hw : w.Settled) (h : getRecipientInProcessRef sessionId w = some r) :
    r.Held sessionId := by
  obtain ⟨r₀, hr₀, -, rfl⟩ := getRecipientInProcessRef_eq_some hw h
  exact held_held hr₀

/-- A handler of the world is the outcome of its session. -/
theorem processRecvFileFrameData_eq (hw : w.Settled) :
    (processRecvFileFrameData env sessionId channelId frame w).2 =
      match frameOutcome env sessionId channelId frame w with
      | none => w
      | some o => w.settle sessionId o := by
  have hcases := getRecipientInProcessRef_cases sessionId hw
  unfold processRecvFileFrameData frameOutcome
  split
  · rfl
  cases hf : frame.frameType with
  | first =>
    rw [createFileFromFrame_eq hw]
    cases startRecipient env sessionId channelId w <;> rfl
  | ongoine | onlyone | last =>
    rcases hcases with hnone | ⟨r, hr, hrest, hs, hget⟩
    · simp [writeFrameToFile, hnone]
    · simp only [writeFrameToFile_eq hr hget (held_held hr), hget, map_some]
  | ackRequestSent =>
    rcases hcases with hnone | ⟨r, hr, hrest, hs, hget⟩
    · simp [processFileAckRequest, hnone]
    · simp only [processFileAckRequest_eq hr hget (held_held hr), hget, map_some]
  | crcCheck =>
    rcases hcases with hnone | ⟨r, hr, hrest, hs, hget⟩
    · simp [processCrcCheckSumData, hnone]
    · simp only [processCrcCheckSumData_eq hr hget (held_held hr), hget, map_some]
  | allFileSent =>
    rcases hcases with hnone | ⟨r, hr, hrest, hs, hget⟩
    · simp [processFileListData, hnone]
    · simp only [processFileListData_eq hr hget (held_held hr), hget, map_some]
  | result =>
    dsimp only [processFileTransResult, resultOutcome]
    cases hu : unpackFileTransResultFrame env.beyond frame with
    | error e => cases w.recipient sessionId <;> rfl
    | ok res =>
      by_cases hside : res.side = isSendResult
      · simp only [if_pos hside]
        cases hr : w.recipient sessionId with
        | none => rfl
        | some r =>
          have hrest := (hw r (mem_of_find hr)).objRefCount
          have hput := put_of_find (a := { r with result := res.result })
            ((sessionId_of_recipient hr).symm ▸ hr)
          exact ext (by simp [settle, rest, ← hrest, hput]) rfl
            (List.append_nil _).symm
      · simp only [if_neg hside]
        cases w.recipient sessionId <;> rfl
  | ackResponseSent => rfl
  | other type => rfl

/-- The frames whose handlers take part of a file. -/
def FrameType.isFileFrame : FrameType → Bool
  | .first | .ongoine | .onlyone | .last => true
  | _ => false

/-- The code that the handler of a part of a file returns. -/
theorem processRecvFileFrameData_code (hw : w.Settled) (hf : frame.frameType.isFileFrame = true) :
    (processRecvFileFrameData env sessionId channelId frame w).1 = .ok ↔
      ∃ o, frameOutcome env sessionId channelId frame w = some o ∧ o.code = .ok := by
  have hcases := getRecipientInProcessRef_cases sessionId hw
  have hdata : (writeFrameToFile env sessionId frame w).1 = .ok ↔
      ∃ o, (getRecipientInProcessRef sessionId w).map (fun r => dataOutcome env frame r w.files) =
        some o ∧ o.code = .ok := by
    rcases hcases with hnone | ⟨r, hr, hrest, hs, hget⟩
    · simp [writeFrameToFile, hnone]
    · simp [writeFrameToFile_eq hr hget (held_held hr), hget]
  unfold processRecvFileFrameData frameOutcome
  split
  · simp
  cases ht : frame.frameType with
  | first =>
    rw [createFileFromFrame_eq hw]
    cases startRecipient env sessionId channelId w <;> simp
  | ongoine | onlyone | last => exact hdata
  | _ => simp [ht, FrameType.isFileFrame] at hf

/-- The file that a start frame announces. -/
theorem getFileInfoByStartFrame_ok {file : SingleFileInfo} (h : getFileInfoByStartFrame env frame r = .ok file) :
    ∃ start, unpackFileTransStartInfo r.crc env.beyond env.pastPath frame = .ok start ∧
      file = { SingleFileInfo.calloc with
        seq := start.seq
        oneFrameLen := start.oneFrameLen
        fileSize := start.fileSize
        startSeq := start.startSeq
        preStartSeq := start.preStartSeq
        filePath := file.filePath } := by
  unfold getFileInfoByStartFrame at h
  dsimp only at h
  split at h
  · simp at h
  split at h
  · simp at h
  next start hstart =>
  split at h
  · simp at h
  split at h
  · simp at h
  split at h
  · simp at h
  · cases h
    exact ⟨start, hstart, rfl⟩

/-- The frames of a session with checksums are numbered from 1. -/
theorem unpackFileTransStartInfo_crc {crc : Int32} {beyond : ℕ → UInt8} {pastPath : List UInt8} {start : StartInfo}
    (hcrc : crc = appInfoFileFeaturesSupport) (h : unpackFileTransStartInfo crc beyond pastPath frame = .ok start) :
    start.seq = 0 ∧ start.startSeq = 1 ∧ start.preStartSeq = 1 := by
  unfold unpackFileTransStartInfo at h
  rw [if_pos hcrc] at h
  split at h
  · simp at h
  dsimp only at h
  split at h
  · simp at h
  split at h
  · simp at h
  · cases h
    exact ⟨rfl, rfl, rfl⟩

/-- A start frame either loses the recipient or opens its file. -/
theorem startOutcome_cases (env : RecvEnv) (channelId : Int32) (frame : FileFrame)
    (r : FileRecipientInfo) (w : RecvWorld) :
    let o := startOutcome env channelId frame r w
    o.code = .err ∧ o.recipient = none ∨
      ∃ file, getFileInfoByStartFrame env frame r = .ok file ∧ o.code = .ok ∧
        o.recipient = some { r with recvFileInfo := { file with
          fileStatus := .busy, fileOffset := 0, timeOut := 0, fileFd := env.openFile file.filePath } } ∧
        o.files = update w.files (env.openFile file.filePath) [] := by
  unfold startOutcome
  split
  · exact .inl ⟨rfl, rfl⟩
  next file hfile =>
  split
  · exact .inl ⟨rfl, rfl⟩
  dsimp only
  split
  · exact .inl ⟨rfl, rfl⟩
  split
  · exact .inl ⟨rfl, rfl⟩
  · exact .inr ⟨file, hfile, rfl, rfl, rfl⟩

/-- A data frame either loses the recipient or is written to its file. -/
theorem dataOutcome_cases (env : RecvEnv) (frame : FileFrame) (r : FileRecipientInfo)
    (files : Int32 → List UInt8) :
    let o := dataOutcome env frame r files
    o.code = .err ∧ o.recipient = none ∨
      ∃ data s, unpackFileDataFrame r.crc env.beyond frame = .ok data ∧
        processOneFrame env r.crc frame.frameType data
          ⟨r.recvFileInfo, files r.recvFileInfo.fileFd, 0⟩ = (.ok, s) ∧
        o.code = .ok ∧ o.files = update files r.recvFileInfo.fileFd s.content ∧
        o.recipient = some
          (if r.crc ≠ appInfoFileFeaturesSupport
              ∧ (frame.frameType = .last ∨ frame.frameType = .onlyone) then
            { r with recvState := .idle, recvFileInfo := { s.fileInfo with
                timeOut := 0, fileStatus := .idle, fileFd := invalidFd } }
          else { r with recvFileInfo := { s.fileInfo with timeOut := 0 } }) := by
  unfold dataOutcome
  split
  · exact .inl ⟨rfl, rfl⟩
  next data hdata =>
  dsimp only
  generalize hs : processOneFrame env r.crc frame.frameType data _ = res
  obtain ⟨ret, s⟩ := res
  by_cases hret : ret = .ok
  · subst hret
    rw [if_neg (by simp)]
    split
    · exact .inr ⟨data, s, hdata, hs, rfl, rfl, rfl⟩
    · exact .inr ⟨data, s, hdata, hs, rfl, rfl, rfl⟩
  · rw [if_pos hret]
    exact .inl ⟨rfl, rfl⟩

/-- The recipient that an outcome leaves is the one of the session, and not in error. -/
def Outcome.Valid (sessionId : Int32) (o : Outcome) : Prop :=
  ∀ r, o.recipient = some r → r.sessionId = sessionId ∧ r.recvState ≠ .err

section
variable (hr : r.Held sessionId)
include hr

theorem valid_startOutcome : (startOutcome env channelId frame r w).Valid sessionId := by
  intro r' h
  rcases startOutcome_cases env channelId frame r w with ⟨-, hnone⟩ | ⟨file, -, -, hsome, -⟩
  · simp [hnone] at h
  · rw [hsome] at h
    cases h
    exact ⟨hr.sessionId, hr.recvState⟩

theorem valid_dataOutcome : (dataOutcome env frame r files).Valid sessionId := by
  intro r' h
  rcases dataOutcome_cases env frame r files with ⟨-, hnone⟩ | ⟨data, s, -, -, -, -, hsome⟩
  · simp [hnone] at h
  · rw [hsome] at h
    cases h
    split
    · exact ⟨hr.sessionId, by simp⟩
    · exact ⟨hr.sessionId, hr.recvState⟩

theorem valid_ackOutcome : (ackOutcome env frame r files).Valid sessionId := by
  intro r' h
  unfold ackOutcome at h
  split at h
  · cases h
    exact ⟨hr.sessionId, hr.recvState⟩
  · split_ifs at h
    · cases h
      exact ⟨hr.sessionId, hr.recvState⟩
    · cases h
      exact ⟨hr.sessionId, hr.recvState⟩

theorem valid_checkSumOutcome : (checkSumOutcome env frame r files).Valid sessionId := by
  intro r' h
  unfold checkSumOutcome at h
  dsimp only at h
  split_ifs at h
  cases h
  rw [setRecipientRecvState_idle hr.recvState]
  exact ⟨hr.sessionId, by simp⟩

end

theorem valid_listOutcome : (listOutcome env frame r files).Valid sessionId := by
  intro r' h
  unfold listOutcome at h
  dsimp only at h
  split at h <;> simp at h

theorem valid_frameOutcome (hw : w.Settled) (h : frameOutcome env sessionId channelId frame w = some o) :
    o.Valid sessionId := by
  cases handled_of_frameOutcome h with
  | start _ hr => exact valid_startOutcome (held_startRecipient hr)
  | data _ hr => exact valid_dataOutcome (held_getRecipientInProcessRef hw hr)
  | ack _ hr => exact valid_ackOutcome (held_getRecipientInProcessRef hw hr)
  | checkSum _ hr => exact valid_checkSumOutcome (held_getRecipientInProcessRef hw hr)
  | list => exact valid_listOutcome
  | result _ hr =>
    have hk := sessionId_of_recipient hr
    rintro _ ⟨⟩
    exact ⟨hk, (hw _ (mem_of_find hr)).recvState⟩

/-! ## What the other sessions see -/

theorem recipient_settle_self (ho : o.Valid sessionId) :
    (w.settle sessionId o).recipient sessionId = o.recipient.map rest := by
  unfold settle recipient
  cases hr : o.recipient with
  | none => simp
  | some r =>
    have hk : r.rest.sessionId = sessionId := (ho r hr).1
    subst hk
    simp

theorem recipient_settle_ne (ho : o.Valid sessionId) (hne : sessionId' ≠ sessionId) :
    (w.settle sessionId o).recipient sessionId' = w.recipient sessionId' := by
  unfold settle recipient
  cases hr : o.recipient with
  | none => exact find_erase_ne hne
  | some r =>
    have hk : r.rest.sessionId = sessionId := (ho r hr).1
    exact find_put_ne (hk ▸ hne)

/-- A frame for one session does not concern another. -/
theorem recipient_step_ne (hw : w.Settled) (hne : sessionId' ≠ sessionId) :
    (w.step (.frame env sessionId channelId frame)).recipient sessionId' = w.recipient sessionId' := by
  rw [step, processRecvFileFrameData_eq hw]
  cases ho : frameOutcome env sessionId channelId frame w with
  | none => rfl
  | some o => exact recipient_settle_ne (valid_frameOutcome hw ho) hne

/-- Every recipient found is at rest. -/
theorem settled_iff : w.Settled ↔ ∀ sessionId r, w.recipient sessionId = some r → r.AtRest := by
  constructor
  · intro h sessionId r hr
    exact h r (mem_of_find hr)
  · intro h r hr
    exact h r.sessionId r (find_of_mem hr)

theorem settled_settle (hw : w.Settled) (ho : o.Valid sessionId) : (w.settle sessionId o).Settled := by
  rw [settled_iff] at hw ⊢
  intro sessionId' r hr
  by_cases hk : sessionId' = sessionId
  · subst hk
    rw [recipient_settle_self ho, map_eq_some_iff] at hr
    obtain ⟨r', hr', rfl⟩ := hr
    exact ⟨rfl, (ho r' hr').2⟩
  · rw [recipient_settle_ne ho hk] at hr
    exact hw sessionId' r hr

/-! ## The timer -/

/-- The events of a tick for one recipient. -/
def tickEvents (r : FileRecipientInfo) : List RecvEvent :=
  if (timeOutRecipient r).isSome then []
  else clearEvents { r with
    recvState := .err, recvFileInfo := { r.recvFileInfo with fileStatus := .err, timeOut := 0 } }

theorem proxyFileTransTimerProc_eq (hw : w.Settled) :
    proxyFileTransTimerProc env w =
      { recipients := w.recipients.update timeOutRecipient (fun _ _ => sessionId_timeOutRecipient)
        files := w.files
        trace := w.trace ++ w.recipients.toList.flatMap tickEvents } := by
  have hfold : ∀ (l : List FileRecipientInfo) (w' : RecvWorld), (∀ r ∈ l, r.AtRest) →
      l.foldl (clearTimedOut env) w' = w'.log (l.flatMap tickEvents) := by
    intro l
    induction l with
    | nil => intro w' _; exact ext rfl rfl (by simp)
    | cons r l ih =>
      intro w' hl
      have hc := (hl r List.mem_cons_self).objRefCount
      have hstep : clearTimedOut env w' r = w'.log (tickEvents r) := by
        unfold clearTimedOut tickEvents
        split
        · exact ext rfl rfl (by simp)
        · simp only [hc, Int.sub_self, if_true]
          exact clearRecipientResources_eq _
      rw [List.foldl_cons, hstep, ih _ fun r' hr' => hl r' (List.mem_cons_of_mem _ hr')]
      exact ext rfl rfl (by simp)
  unfold proxyFileTransTimerProc
  rw [hfold _ w hw]
  rfl

theorem recipient_tick (sessionId : Int32) : (proxyFileTransTimerProc env w).recipient sessionId =
    (w.recipient sessionId).bind timeOutRecipient :=
  find_update (fun _ _ => sessionId_timeOutRecipient)

/-- A tick counts the time of a recipient or takes it out. -/
theorem timeOutRecipient_eq_some (h : timeOutRecipient r = some r') :
    ∃ timeOut, r' = { r with recvFileInfo.timeOut := timeOut } := by
  unfold timeOutRecipient at h
  split at h
  · exact ⟨r.recvFileInfo.timeOut, (some.inj h).symm⟩
  · split at h
    · simp at h
    · exact ⟨_, (some.inj h).symm⟩

theorem atRest_timeOutRecipient (hr : r.AtRest) (h : timeOutRecipient r = some r') : r'.AtRest := by
  obtain ⟨timeOut, rfl⟩ := timeOutRecipient_eq_some h
  exact ⟨hr.objRefCount, hr.recvState⟩

theorem settled_tick (hw : w.Settled) : (proxyFileTransTimerProc env w).Settled := by
  intro r hr
  obtain ⟨r', hr', h⟩ := List.mem_filterMap.1 hr
  exact atRest_timeOutRecipient (hw r' hr') h

theorem settled_step (hw : w.Settled) (i : RecvInput) : (w.step i).Settled := by
  cases i with
  | tick env => exact settled_tick hw
  | frame env sessionId channelId frame =>
    rw [step, processRecvFileFrameData_eq hw]
    cases ho : frameOutcome env sessionId channelId frame w with
    | none => exact hw
    | some o => exact settled_settle hw (valid_frameOutcome hw ho)

/-- Every state of a run from the empty receiver is settled. -/
theorem settled_run (inputs : List RecvInput) : (inputs.foldl step .init).Settled := by
  have h : ∀ w : RecvWorld, w.Settled → (inputs.foldl step w).Settled := by
    induction inputs with
    | nil => intro w hw; exact hw
    | cons i inputs ih => intro w hw; exact ih _ (settled_step hw i)
  exact h _ fun r hr => absurd hr List.not_mem_nil

/-! ## A receiver for examples -/

/-- Every call of the receiver succeeds; its files are under the root and get
    descriptor 3. -/
def goodEnv (crc : Int32) : RecvEnv where
  beyond := fun _ => 0
  stackSeq := 0
  pastPath := []
  session := some ⟨crc, ⟨[pathSeparator], false, false, true, false⟩⟩
  makeDir := fun _ => true
  realPath := some
  openFile := fun _ => 3
  fcntl := fun _ => true
  pwrite := fun _ len => len
  ipcSend := .ok

/-- The start frame of a file `a` of a session with checksums. -/
def startFrameA (fileSize : ℕ) : FileFrame :=
  ⟨.first, (packFileTransStartInfo appInfoFileFeaturesSupport 1 [97] fileSize).getD []⟩

end SoftBus.Native
