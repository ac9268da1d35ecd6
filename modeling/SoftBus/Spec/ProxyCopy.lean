import SoftBus.Spec.ProxyAck
import SoftBus.Spec.ProxySource

/-!
# When an accepted file is a copy of its source

The receiver of a session with checksums compares the sum of the checksums of the frames
that it accepted in their windows with the sum over the source.  The sum says neither
where a frame was written nor that a frame with checksum 0 came at all.  When the frames
of a window come in order and none with checksum 0 is missing, an accepted file is a copy
of the source (`CopyOk`): lost and repeated frames make no difference.
-/

namespace SoftBus.Native
open Function List Chunks UInt32
variable {k : ℕ} {s s' : WriteState} {source : List UInt8} {env : RecvEnv} {r : FileRecipientInfo}
  {files : Int32 → List UInt8} {sessionId channelId sender : Int32} {w : RecvWorld} {destFile : Path}

/-- The chunks of the frames accepted in their windows. -/
def chunksInWindow (accepted : List AcceptedFrame) : List ℕ :=
  (accepted.filter (·.inWindow)).map fun a => a.seq.toNat - 1

@[simp] theorem chunksInWindow_nil : chunksInWindow [] = [] := rfl

@[simp] theorem chunksInWindow_true (seq : UInt32) (accepted : List AcceptedFrame) :
    chunksInWindow (⟨seq, true⟩ :: accepted) = (seq.toNat - 1) :: chunksInWindow accepted := rfl

/-- What the receiver has of a file after the frames of its log. -/
structure CopyOk (source : List UInt8) (file : SingleFileInfo) (content : List UInt8)
    (accepted : List AcceptedFrame) : Prop where
  oneFrameLen : file.oneFrameLen = crcFrameDataSize
  seq_le : file.seq.toNat ≤ dataFrames source
  fileOffset : file.fileOffset = min (crcFrameDataSize * file.seq.toNat) source.length
  length_le : content.length ≤ source.length
  lt_seq : ∀ k ∈ chunksInWindow accepted, k < file.seq.toNat
  nodup : (chunksInWindow accepted).Nodup
  hasChunk : ∀ k ∈ chunksInWindow accepted, Chunks.HasChunk crcFrameDataSize source content k
  checkSumCRC : file.checkSumCRC = ((chunksInWindow accepted).map (frameCrc source)).sum

namespace CopyOk
variable {file file' : SingleFileInfo} {content : List UInt8} {accepted : List AcceptedFrame}

theorem congr (h : CopyOk source file content accepted)
    (hlen : file'.oneFrameLen = file.oneFrameLen) (hseq : file'.seq = file.seq)
    (hoff : file'.fileOffset = file.fileOffset) (hsum : file'.checkSumCRC = file.checkSumCRC) :
    CopyOk source file' content accepted :=
  { h with
    oneFrameLen := hlen.trans h.oneFrameLen
    seq_le := hseq ▸ h.seq_le
    fileOffset := by rw [hoff, hseq, h.fileOffset]
    lt_seq := hseq ▸ h.lt_seq
    checkSumCRC := hsum.trans h.checkSumCRC }

theorem start (hlen : file.oneFrameLen = crcFrameDataSize) (hseq : file.seq = 0)
    (hoff : file.fileOffset = 0) (hsum : file.checkSumCRC = 0) : CopyOk source file [] [] where
  oneFrameLen := hlen
  seq_le := by rw [hseq]; exact Nat.zero_le _
  fileOffset := by rw [hoff, hseq]; exact (Nat.zero_min _).symm
  length_le := Nat.zero_le _
  lt_seq := by simp
  nodup := by simp
  hasChunk := by simp
  checkSumCRC := by simp [hsum]

/-- A frame that is newer than all before leaves out those between. -/
theorem skipped_eq (hsize : source.length ≤ maxFileSize) (hk : k < dataFrames source)
    (hnew : file.seq < .ofNat (k + 1)) : skipped (.ofNat (k + 1)) file = k - file.seq.toNat := by
  have hn := dataFrames_le hsize
  have hof := toNat_ofNat_frame hsize hk
  have hlt := lt_iff_toNat_lt.1 hnew
  have hsub : (ofNat (k + 1) - file.seq).toNat = k + 1 - file.seq.toNat := by
    rw [UInt32.toNat_sub_of_le _ _ (UInt32.le_of_lt hnew), hof]
  have hone : (1 : UInt32) ≤ ofNat (k + 1) - file.seq := by
    rw [le_iff_toNat_le]
    show 1 ≤ _
    omega
  have hnat : (ofNat (k + 1) - file.seq - 1).toNat = k - file.seq.toNat := by
    rw [UInt32.toNat_sub_of_le _ _ hone, hsub]
    show k + 1 - file.seq.toNat - 1 = _
    omega
  unfold skipped
  rw [toInt_toInt32_of_lt (by omega), Int.toNat_natCast, hnat]

/-- Where a frame that is newer than all before goes. -/
theorem offset_eq (h : CopyOk source file content accepted) (hk : k < dataFrames source) (hle : file.seq.toNat ≤ k) :
    file.fileOffset = crcFrameDataSize * file.seq.toNat ∧
      file.fileOffset + (k - file.seq.toNat) * file.oneFrameLen = crcFrameDataSize * k := by
  have hlt := (lt_count crcFrameDataSize_pos).1 hk
  have hmul : crcFrameDataSize * file.seq.toNat ≤ crcFrameDataSize * k := Nat.mul_le_mul_left _ hle
  have hoff : file.fileOffset = crcFrameDataSize * file.seq.toNat := by
    rw [h.fileOffset]
    omega
  refine ⟨hoff, ?_⟩
  rw [hoff, h.oneFrameLen, Nat.mul_comm (k - _), ← Nat.mul_add, Nat.add_sub_cancel' hle]

section
variable (hsize : source.length ≤ maxFileSize) (hk : k < dataFrames source)
  (h : CopyOk source s.fileInfo s.content accepted)
include hsize hk h

/-- A frame of the window that is newer than all before. -/
theorem accept_inWindow {frameType : FrameType} (ha : AcceptedInWindow frameType ⟨.ofNat (k + 1), rtuCrc (frameData source k), frameData source k⟩ s s')
    (hnew : s.fileInfo.seq < .ofNat (k + 1)) :
    CopyOk source s'.fileInfo s'.content (⟨.ofNat (k + 1), true⟩ :: accepted) := by
  have hof := toNat_ofNat_frame hsize hk
  have hle : s.fileInfo.seq.toNat ≤ k := by
    have := lt_iff_toNat_lt.1 hnew
    omega
  have hskip := skipped_eq hsize hk hnew
  obtain ⟨hoff, hpos⟩ := h.offset_eq hk hle
  have hend := chunk_end crcFrameDataSize_pos hk
  have hlt := (lt_count crcFrameDataSize_pos).1 hk
  have hcontent := ha.content
  rw [ha.fileInfo, hcontent]
  rw [hskip, hpos]
  have hlen : (skipFrames (k - s.fileInfo.seq.toNat) s.fileInfo s.content).length
      ≤ source.length := by
    refine length_pwrite_le h.length_le ?_
    rw [length_replicate, hpos]
    exact hlt.le
  refine ⟨h.oneFrameLen, ?_, ?_, ?_, ?_, ?_, ?_, ?_⟩
  · show (ofNat (k + 1)).toNat ≤ _
    omega
  · rw [hof]
    exact hend
  · refine length_pwrite_le hlen ?_
    show crcFrameDataSize * k + (chunk crcFrameDataSize source k).length ≤ _
    omega
  · rw [chunksInWindow_true, hof]
    intro j hj
    rcases mem_cons.1 hj with rfl | hj
    · omega
    · have := h.lt_seq j hj
      omega
  · rw [chunksInWindow_true, nodup_cons]
    refine ⟨fun hmem => ?_, h.nodup⟩
    have := h.lt_seq _ hmem
    omega
  · rw [chunksInWindow_true, hof]
    intro j hj
    rcases mem_cons.1 hj with rfl | hj
    · exact hasChunk_pwrite_self 0
    · -- neither the zeros nor the frame reach the chunks before
      have hj' := h.lt_seq j hj
      refine ((h.hasChunk j hj).pwrite (.inl ?_)).pwrite_chunk
      rw [hoff]
      exact Nat.mul_le_mul_left _ hj'
  · rw [chunksInWindow_true, hof, map_cons, sum_cons]
    show s.fileInfo.checkSumCRC + frameCrc source k = _
    rw [h.checkSumCRC]
    exact Nat.add_comm _ _

/-- A frame of an earlier window. -/
theorem accept_before (ha : AcceptedBefore ⟨.ofNat (k + 1), rtuCrc (frameData source k), frameData source k⟩ s s') :
    CopyOk source s'.fileInfo s'.content (⟨.ofNat (k + 1), false⟩ :: accepted) := by
  have hof := toNat_ofNat_frame hsize hk
  have hone : (1 : UInt32) ≤ .ofNat (k + 1) := by
    rw [le_iff_toNat_le, hof]
    exact Nat.le_add_left 1 k
  have hpos : (ofNat (k + 1) - 1).toNat * s.fileInfo.oneFrameLen = crcFrameDataSize * k := by
    rw [UInt32.toNat_sub_of_le _ _ hone, hof, h.oneFrameLen]
    exact Nat.mul_comm k _
  have hend := chunk_end crcFrameDataSize_pos hk
  have hcontent : s'.content =
      PosFile.pwrite 0 s.content (crcFrameDataSize * k) (chunk crcFrameDataSize source k) := by
    rw [ha.content, ← hpos]
    rfl
  rw [ha.fileInfo, hcontent]
  refine { h with length_le := ?_, hasChunk := ?_ }
  · refine length_pwrite_le h.length_le ?_
    omega
  · intro j hj
    exact (h.hasChunk j hj).pwrite_chunk

end

/-- A file with the right sum and no missing frame of checksum 0 is a copy. -/
theorem eq_source (h : CopyOk source file content accepted)
    (hsum : sourceSum source = file.checkSumCRC)
    (hzero : ∀ k < dataFrames source, frameCrc source k = 0 → k ∈ chunksInWindow accepted) :
    content = source := by
  refine eq_of_hasChunk crcFrameDataSize_pos h.length_le fun k hk => h.hasChunk k ?_
  -- the checksums of the missing frames have the sum 0
  have hsub : (chunksInWindow accepted).toFinset ⊆ Finset.range (dataFrames source) := by
    intro j hj
    have hlt := h.lt_seq j (mem_toFinset.1 hj)
    have hle := h.seq_le
    exact Finset.mem_range.2 (by omega)
  have hsplit := Finset.sum_sdiff (f := frameCrc source) hsub
  rw [sum_toFinset _ h.nodup, ← h.checkSumCRC, ← hsum] at hsplit
  have hrest : ∑ j ∈ Finset.range (dataFrames source) \ (chunksInWindow accepted).toFinset,
      frameCrc source j = 0 := by
    unfold sourceSum at hsplit
    omega
  by_contra hmissing
  apply hmissing
  refine hzero k hk (Finset.sum_eq_zero_iff.1 hrest k ?_)
  rw [Finset.mem_sdiff, Finset.mem_range, mem_toFinset]
  exact ⟨hk, hmissing⟩

end CopyOk

/-! ## A transfer -/

/-- What reaches the receiver in a transfer of `source`: any of its data frames, sent
    once or again, and requests for acknowledgements, in any order; and ticks of the
    timer. -/
inductive TransferInput (source : List UInt8) where
  | data (env : RecvEnv) (k : Fin (dataFrames source))
  | ackRequest (env : RecvEnv) (startSeq seq : UInt32)
  | tick (env : RecvEnv)

namespace TransferInput

def toRecvInput (sessionId channelId : Int32) : TransferInput source → RecvInput
  | .data env k => .frame env sessionId channelId (dataFrame source k)
  | .ackRequest env startSeq seq =>
    .frame env sessionId channelId ⟨.ackRequestSent, packAckReqAndResData startSeq seq⟩
  | .tick env => .tick env

def step (sessionId channelId : Int32) (s : RecvLog) (i : TransferInput source) : RecvLog :=
  s.step (i.toRecvInput sessionId channelId)

/-- A frame of the current window is newer than the frames of the window before it. -/
def InOrder (sessionId : Int32) (s : RecvLog) : TransferInput source → Prop
  | .data _ k => ∀ r ∈ s.world.recipient sessionId,
      r.recvFileInfo.startSeq ≤ .ofNat (k + 1) → r.recvFileInfo.seq < .ofNat (k + 1)
  | _ => True

end TransferInput

/-- The receiver of a transfer into the file `fd`. -/
structure Copying (source : List UInt8) (sessionId fd : Int32) (s : RecvLog) : Prop where
  settled : s.world.Settled
  recipient : ∀ r, s.world.recipient sessionId = some r →
    r.recvState ≠ .idle ∧ r.crc = appInfoFileFeaturesSupport ∧ r.recvFileInfo.fileFd = fd ∧
      CopyOk source r.recvFileInfo (s.world.files fd) (s.accepted sessionId)

theorem processRecvFileFrameData_dataFrame (env : RecvEnv) (sessionId channelId : Int32)
    (source : List UInt8) (k : ℕ) (w : RecvWorld) :
    processRecvFileFrameData env sessionId channelId (dataFrame source k) w =
      writeFrameToFile env sessionId (dataFrame source k) w := by
  unfold processRecvFileFrameData
  rw [if_neg (not_lt.2 (frameLength_dataFrame_le k))]
  rcases frameType_dataFrame source k with h | h | h <;> simp only [h]

theorem files_checkSumOutcome (frame : FileFrame) : (checkSumOutcome env frame r files).files = files := by
  unfold checkSumOutcome
  dsimp only
  split <;> rfl

/-- The checksum frame is accepted when the sum is right. -/
theorem code_checkSumOutcome_iff (hsize : source.length ≤ maxFileSize) (hcrc : r.crc = appInfoFileFeaturesSupport) :
    (checkSumOutcome env (checkSumFrame source) r files).code = .ok ↔
      sourceSum source = r.recvFileInfo.checkSumCRC ∧ env.ipcSend = .ok := by
  have hsum : unpackFileCrcCheckSum r.crc r.recvFileInfo.checkSumCRC env.beyond env.stackSeq
      (checkSumFrame source) = (if sourceSum source = r.recvFileInfo.checkSumCRC then .ok else .err,
        .ofNat (dataFrames source + 1)) := by
    rw [hcrc]
    exact unpackFileCrcCheckSum_pack env.stackSeq (sourceSum_lt hsize)
  unfold checkSumOutcome
  rw [hsum]
  by_cases heq : sourceSum source = r.recvFileInfo.checkSumCRC
  · by_cases hsend : env.ipcSend = .ok <;> simp [heq, hsend]
  · simp [heq]

theorem logFrame_dataFrame {s : RecvLog} {code : SoftBusErr} (hcode : code = .ok) :
    logFrame env sessionId (dataFrame source k) code s =
      (acceptedFrame env sessionId (dataFrame source k) s.world).toList ++ s.accepted sessionId := by
  unfold logFrame
  rw [if_neg (not_not.2 hcode)]
  rcases frameType_dataFrame source k with h | h | h <;> simp only [h]

/-- The recipient of a file that has been started. -/
def startedRecipient (r : FileRecipientInfo) (file : SingleFileInfo) (fd : Int32) : FileRecipientInfo :=
  { r with recvFileInfo := { file with
      fileStatus := .busy, fileOffset := 0, timeOut := 0, fileFd := fd } }

/-- What an accepted start frame does to the recipient that its handler holds. -/
def startedOutcome (channelId fd : Int32) (r : FileRecipientInfo) (file : SingleFileInfo)
    (files : Int32 → List UInt8) : Outcome where
  code := .ok
  recipient := some (startedRecipient r file fd)
  files := update files fd []
  events := .opened file.filePath fd :: startedEvents channelId r file.filePath

theorem startOutcome_ok {frame : FileFrame} (h : (startOutcome env channelId frame r w).code = .ok) :
    ∃ file, getFileInfoByStartFrame env frame r = .ok file ∧ startOutcome env channelId frame r w =
        startedOutcome channelId (env.openFile file.filePath) r file w.files := by
  unfold startOutcome at h ⊢
  split at h
  · simp [startFailed] at h
  next file hfile =>
  refine ⟨file, hfile, ?_⟩
  dsimp only at h ⊢
  split at h
  · simp [startFailed] at h
  next hbusy =>
  split at h
  · simp [startFailed] at h
  next hopen =>
  split at h
  · simp [startFailed] at h
  next hlock =>
  rw [if_neg hbusy, if_neg hopen, if_neg hlock]
  rfl

theorem recvState_startRecipient (h : startRecipient env sessionId channelId w = some r) :
    r.recvState = .start := by
  unfold startRecipient at h
  split at h
  · split at h
    · cases h
      rfl
    · simp at h
  · obtain ⟨session, -, rfl⟩ := Option.map_eq_some_iff.1 h
    rfl

theorem valid_startedOutcome {fd : Int32} {file : SingleFileInfo} (hr : r.Held sessionId) :
    (startedOutcome channelId fd r file files).Valid sessionId := by
  intro r' hr'
  cases hr'
  exact ⟨hr.sessionId, hr.recvState⟩

/-- The start frame of a file, with a name and a size that the receiver can store. -/
structure PacksStart (sender : Int32) (destFile : Path) (source data : List UInt8) : Prop where
  name : 0 ∉ destFile
  short : destFile.length < maxFilePathNameLen
  size : source.length ≤ maxFileSize
  pack : packFileTransStartInfo appInfoFileFeaturesSupport sender destFile source.length = some data

/-- The receiver accepts a start frame, for a session with checksums. -/
structure TakesStart (env : RecvEnv) (sessionId channelId : Int32) (data : List UInt8) (w : RecvWorld) : Prop where
  settled : w.Settled
  ok : (processRecvFileFrameData env sessionId channelId ⟨.first, data⟩ w).1 = .ok
  crc : ∀ r, (processRecvFileFrameData env sessionId channelId ⟨.first, data⟩ w).2.recipient sessionId = some r →
    r.crc = appInfoFileFeaturesSupport

/-- The receiver after an accepted start frame of a session with checksums. -/
theorem start_accepted {data : List UInt8} (hp : PacksStart sender destFile source data)
    (ht : TakesStart env sessionId channelId data w) :
    ∃ r file fd, r.Held sessionId ∧ r.recvState = .start ∧ r.crc = appInfoFileFeaturesSupport ∧
      file = { SingleFileInfo.calloc with
        seq := 0
        oneFrameLen := crcFrameDataSize
        fileSize := source.length
        startSeq := 1
        preStartSeq := 1
        filePath := file.filePath } ∧
      (processRecvFileFrameData env sessionId channelId ⟨.first, data⟩ w).2 =
        w.settle sessionId (startedOutcome channelId fd r file w.files) := by
  obtain ⟨o, ho, hcode⟩ := (processRecvFileFrameData_code ht.settled rfl).1 ht.ok
  have hworld : (processRecvFileFrameData env sessionId channelId ⟨.first, data⟩ w).2 =
      w.settle sessionId o := by
    rw [processRecvFileFrameData_eq ht.settled, ho]
  have hvalid := valid_frameOutcome ht.settled ho
  unfold frameOutcome at ho
  split at ho
  · simp at ho
  simp only [Option.map_eq_some_iff] at ho
  obtain ⟨r, hr, rfl⟩ := ho
  obtain ⟨file, hfile, hout⟩ := startOutcome_ok hcode
  rw [hout] at hworld hvalid
  have hcrc' : r.crc = appInfoFileFeaturesSupport := by
    have hcrc := ht.crc
    rw [hworld, recipient_settle_self hvalid] at hcrc
    exact hcrc (startedRecipient r file (env.openFile file.filePath)).rest rfl
  obtain ⟨start, hstart, heq⟩ := getFileInfoByStartFrame_ok hfile
  rw [hcrc', unpackFileTransStartInfo_pack hp.pack hp.name hp.short
    (lt_of_le_of_lt hp.size (by decide))] at hstart
  cases hstart
  exact ⟨r, file, _, held_startRecipient hr, recvState_startRecipient hr, hcrc', heq, hworld⟩

namespace Copying
variable {fd : Int32} {s : RecvLog}

section
variable (h : Copying source sessionId fd s)
include h

/-- A handler that finds no recipient does not find one that is there. -/
theorem recipient_eq_none (hget : getRecipientInProcessRef sessionId s.world = none) : s.world.recipient sessionId = none := by
  cases hr : s.world.recipient sessionId with
  | none => rfl
  | some r =>
    have hrest := settled_iff.1 h.settled sessionId r hr
    rw [getRecipientInProcessRef_eq hr hrest (h.recipient r hr).1] at hget
    simp at hget

theorem data (hsize : source.length ≤ maxFileSize) (env : RecvEnv)
    (hk : k < dataFrames source)
    (horder : ∀ r ∈ s.world.recipient sessionId, r.recvFileInfo.startSeq ≤ .ofNat (k + 1) → r.recvFileInfo.seq < .ofNat (k + 1)) :
    Copying source sessionId fd (s.step (.frame env sessionId channelId (dataFrame source k))) := by
  refine ⟨settled_step h.settled _, fun r' hr' => ?_⟩
  have hstep := processRecvFileFrameData_dataFrame env sessionId channelId source k s.world
  have hworld : (s.step (.frame env sessionId channelId (dataFrame source k))).world =
      (writeFrameToFile env sessionId (dataFrame source k) s.world).2 := congrArg Prod.snd hstep
  have hlog : (s.step (.frame env sessionId channelId (dataFrame source k))).accepted sessionId =
      logFrame env sessionId (dataFrame source k)
        (writeFrameToFile env sessionId (dataFrame source k) s.world).1 s := by
    rw [← hstep]
    exact update_self ..
  rw [hworld] at hr' ⊢
  rw [hlog]
  rcases getRecipientInProcessRef_cases sessionId h.settled with hget | ⟨r, hr, -, -, hget⟩
  · have hnone := h.recipient_eq_none hget
    simp [writeFrameToFile, hget, hnone] at hr'
  obtain ⟨-, hcrc, rfl, hcopy⟩ := h.recipient r hr
  have hheld := held_held hr
  rw [writeFrameToFile_eq hr hget hheld] at hr' ⊢
  rw [recipient_settle_self (valid_dataOutcome hheld), Option.map_eq_some_iff] at hr'
  obtain ⟨r'', hr'', rfl⟩ := hr'
  rcases dataOutcome_cases env (dataFrame source k) r.held s.world.files with
    ⟨-, hnone⟩ | ⟨data, s', hdata, hs', hcode, hfiles, hsome⟩
  · simp [hnone] at hr''
  have hdata' := unpackFileDataFrame_dataFrame env.beyond hk
  rw [show r.held.crc = _ from hcrc, hdata'] at hdata
  cases hdata
  rw [hsome, if_neg fun hne => hne.1 hcrc] at hr''
  cases hr''
  have hframe : acceptedFrame env sessionId (dataFrame source k) s.world =
      some ⟨.ofNat (k + 1), decide (r.recvFileInfo.startSeq ≤ .ofNat (k + 1))⟩ := by
    simp only [acceptedFrame, hget, show r.held.crc = _ from hcrc, hdata']
    rfl
  rw [logFrame_dataFrame hcode, hframe]
  refine ⟨by simp [FileRecipientInfo.rest, FileRecipientInfo.held], hcrc, ?_, ?_⟩
  · have hsame := sameFile_processOneFrame env r.held.crc (dataFrame source k).frameType
      ⟨.ofNat (k + 1), rtuCrc (frameData source k), frameData source k⟩
      ⟨r.held.recvFileInfo, s.world.files r.held.recvFileInfo.fileFd, 0⟩
    rw [hs'] at hsame
    exact hsame.fileFd
  · have hcontent : (s.world.settle sessionId (dataOutcome env (dataFrame source k) r.held
        s.world.files)).files r.recvFileInfo.fileFd = s'.content := by
      show (dataOutcome env (dataFrame source k) r.held s.world.files).files _ = _
      rw [hfiles]
      exact update_self ..
    rw [hcontent]
    rcases processOneFrame_crc_ok hcrc hs' with ha | ha
    · have hle : r.recvFileInfo.startSeq ≤ .ofNat (k + 1) := ha.startSeq_le
      rw [decide_eq_true hle]
      exact (hcopy.accept_inWindow hsize hk ha (horder r hr hle)).congr rfl rfl rfl rfl
    · have hlt : ofNat (k + 1) < r.recvFileInfo.startSeq := ha.lt_startSeq
      rw [decide_eq_false (UInt32.not_le.2 hlt)]
      exact (hcopy.accept_before hsize hk ha).congr rfl rfl rfl rfl

theorem ackRequest (startSeq seq : UInt32) :
    Copying source sessionId fd (s.step (.frame env sessionId channelId
      ⟨.ackRequestSent, packAckReqAndResData startSeq seq⟩)) := by
  refine ⟨settled_step h.settled _, fun r' hr' => ?_⟩
  generalize hframe : FileFrame.mk .ackRequestSent (packAckReqAndResData startSeq seq) = frame at hr' ⊢
  have hstep : processRecvFileFrameData env sessionId channelId frame s.world =
      processFileAckRequest env sessionId frame s.world := by
    rw [← hframe]
    rfl
  have hworld : (s.step (.frame env sessionId channelId frame)).world =
      (processFileAckRequest env sessionId frame s.world).2 := congrArg Prod.snd hstep
  have hlog : (s.step (.frame env sessionId channelId frame)).accepted sessionId =
      s.accepted sessionId := by
    rw [← hframe]
    refine (update_self ..).trans ?_
    unfold logFrame
    split <;> rfl
  rw [hworld] at hr' ⊢
  rw [hlog]
  rcases getRecipientInProcessRef_cases sessionId h.settled with hget | ⟨r, hr, -, -, hget⟩
  · have hnone := h.recipient_eq_none hget
    simp [processFileAckRequest, hget, hnone] at hr'
  obtain ⟨-, hcrc, rfl, hcopy⟩ := h.recipient r hr
  have hheld := held_held hr
  rw [processFileAckRequest_eq hr hget hheld] at hr' ⊢
  rw [recipient_settle_self (valid_ackOutcome hheld), Option.map_eq_some_iff] at hr'
  obtain ⟨r'', hr'', rfl⟩ := hr'
  have hne : r.held.recvState ≠ .idle := by simp [FileRecipientInfo.held]
  -- the window slides, or nothing happens
  unfold ackOutcome at hr'' ⊢
  split at hr''
  · cases hr''
    exact ⟨hne, hcrc, rfl, hcopy⟩
  · split at hr''
    · next request hreq hstart =>
      cases hr''
      simp only [if_pos hstart]
      exact ⟨hne, hcrc, rfl, hcopy⟩
    · next request hreq hstart =>
      cases hr''
      simp only [if_neg hstart]
      exact ⟨hne, hcrc, rfl, hcopy.congr rfl rfl rfl rfl⟩

theorem tick : Copying source sessionId fd (s.step (.tick env)) := by
  refine ⟨settled_step h.settled _, fun r' hr' => ?_⟩
  obtain ⟨r, hr, htime⟩ :=
    Option.bind_eq_some_iff.1 ((recipient_tick sessionId).symm.trans hr')
  obtain ⟨hne, hcrc, hfd, hcopy⟩ := h.recipient r hr
  obtain ⟨timeOut, rfl⟩ := timeOutRecipient_eq_some htime
  have hfiles : (s.step (.tick env)).world.files = s.world.files := by
    show (proxyFileTransTimerProc env s.world).files = _
    rw [proxyFileTransTimerProc_eq h.settled]
  rw [hfiles]
  exact ⟨hne, hcrc, hfd, hcopy.congr rfl rfl rfl rfl⟩

theorem step (hsize : source.length ≤ maxFileSize) {i : TransferInput source} (hi : i.InOrder sessionId s) :
    Copying source sessionId fd (i.step sessionId channelId s) := by
  cases i with
  | data env k => exact h.data hsize env k.isLt hi
  | ackRequest env startSeq seq => exact h.ackRequest startSeq seq
  | tick env => exact h.tick

end

/-- The receiver after the start frame of a file. -/
theorem start {data : List UInt8} (hp : PacksStart sender destFile source data)
    (hs : s.world.Settled) (hok : (processRecvFileFrameData env sessionId channelId ⟨.first, data⟩ s.world).1 = .ok)
    {s' : RecvLog} (hs' : s' = s.step (.frame env sessionId channelId ⟨.first, data⟩))
    (hr : s'.world.recipient sessionId = some r) (hcrc : r.crc = appInfoFileFeaturesSupport) :
    Copying source sessionId r.recvFileInfo.fileFd s' := by
  have hlog : s'.accepted sessionId = [] := by
    rw [hs']
    refine (update_self ..).trans ?_
    unfold logFrame
    rw [if_neg (not_not.2 hok)]
  have hcrc' : ∀ r', s'.world.recipient sessionId = some r' → r'.crc = appInfoFileFeaturesSupport := by
    intro r' hr'
    rw [hr] at hr'
    cases hr'
    exact hcrc
  obtain ⟨r₀, file, fd, hheld, hstate, -, hfile, hworld⟩ := start_accepted hp ⟨hs, hok, by rw [hs'] at hcrc'; exact hcrc'⟩
  have hworld' : s'.world = s.world.settle sessionId (startedOutcome channelId fd r₀ file s.world.files) :=
    hs' ▸ hworld
  rw [hworld', recipient_settle_self (valid_startedOutcome hheld)] at hr
  cases hr
  refine ⟨hs' ▸ settled_step hs _, fun r' hr' => ?_⟩
  rw [hworld', recipient_settle_self (valid_startedOutcome hheld)] at hr'
  cases hr'
  rw [hworld', hlog]
  refine ⟨?_, hcrc, rfl, ?_⟩
  · show r₀.recvState ≠ .idle
    simp [hstate]
  · have hcontent : (s.world.settle sessionId (startedOutcome channelId fd r₀ file
        s.world.files)).files fd = [] := update_self ..
    rw [show (startedRecipient r₀ file fd).rest.recvFileInfo.fileFd = fd from rfl, hcontent]
    apply CopyOk.start
    · show file.oneFrameLen = _
      rw [hfile]
    · show file.seq = 0
      rw [hfile]
    · rfl
    · rw [hfile]
      rfl

/-- What an accepted checksum frame says about the file. -/
theorem checkSum (h : Copying source sessionId fd s) (hsize : source.length ≤ maxFileSize)
    (hok : (processCrcCheckSumData env sessionId (checkSumFrame source) s.world).1 = .ok) :
    (processCrcCheckSumData env sessionId (checkSumFrame source) s.world).2.files = s.world.files ∧
      ∃ file, sourceSum source = file.checkSumCRC ∧
        CopyOk source file (s.world.files fd) (s.accepted sessionId) := by
  rcases getRecipientInProcessRef_cases sessionId h.settled with hget | ⟨r, hr, -, -, hget⟩
  · simp [processCrcCheckSumData, hget] at hok
  obtain ⟨-, hcrc, rfl, hcopy⟩ := h.recipient r hr
  rw [processCrcCheckSumData_eq hr hget (held_held hr)] at hok ⊢
  have hsum := ((code_checkSumOutcome_iff hsize (show r.held.crc = _ from hcrc)).1 hok).1
  exact ⟨files_checkSumOutcome .., r.recvFileInfo, hsum, hcopy⟩

end Copying

open Run (AllSteps)

/-- A file whose checksum frame is accepted is a copy of its source, when the frames of
    every window came in order and no frame with checksum 0 is missing. -/
theorem eq_source_of_checkSum_accepted (hsize : source.length ≤ maxFileSize)
    (hname : 0 ∉ destFile) (hshort : destFile.length < maxFilePathNameLen)
    {data : List UInt8}
    (hpack : packFileTransStartInfo appInfoFileFeaturesSupport sender destFile source.length =
      some data)
    (before : List RecvInput) {env₀ : RecvEnv} {s₀ : RecvLog}
    (hstart : (processRecvFileFrameData env₀ sessionId channelId ⟨.first, data⟩
      (before.foldl RecvLog.step .init).world).1 = .ok)
    (hs₀ : s₀ = (before.foldl RecvLog.step .init).step
      (.frame env₀ sessionId channelId ⟨.first, data⟩))
    {r : FileRecipientInfo} (hr : s₀.world.recipient sessionId = some r)
    (hcrc : r.crc = appInfoFileFeaturesSupport)
    (inputs : List (TransferInput source)) {s : RecvLog}
    (hs : s = inputs.foldl (TransferInput.step sessionId channelId) s₀)
    (horder : AllSteps (TransferInput.step sessionId channelId) (TransferInput.InOrder sessionId)
      s₀ inputs)
    (hzero : ∀ k < dataFrames source, frameCrc source k = 0 → k ∈ chunksInWindow (s.accepted sessionId))
    {env : RecvEnv}
    (hok : (processCrcCheckSumData env sessionId (checkSumFrame source) s.world).1 = .ok) :
    (processCrcCheckSumData env sessionId (checkSumFrame source) s.world).2.files
      r.recvFileInfo.fileFd = source := by
  have hsettled : (before.foldl RecvLog.step .init).world.Settled := by
    rw [RecvLog.world_foldl]
    exact settled_run before
  subst hs₀
  have hcopying := Copying.start ⟨hname, hshort, hsize, hpack⟩ hsettled hstart rfl hr hcrc
  have hend := horder.foldl_inv (fun _ _ h hi => h.step hsize hi) hcopying
  rw [← hs] at hend
  obtain ⟨hfiles, file, hsum, hcopy⟩ := hend.checkSum hsize hok
  rw [hfiles]
  exact hcopy.eq_source hsum hzero

instance {source : List UInt8} (sessionId : Int32) (s : RecvLog) (i : TransferInput source) :
    Decidable (i.InOrder sessionId s) :=
  match i with
  | .data _ _ => inferInstanceAs (Decidable (∀ r ∈ s.world.recipient sessionId, _))
  | .ackRequest .. | .tick _ => isTrue trivial

/-- The receiver after the start frame of a file `a`. -/
def startedA (fileSize : ℕ) : RecvLog :=
  RecvLog.init.step (.frame (goodEnv appInfoFileFeaturesSupport) 1 1 (startFrameA fileSize))

/-- A file of one byte. -/
theorem eq_source_of_one_byte :
    let s := (startedA 1).step
      (.frame (goodEnv appInfoFileFeaturesSupport) 1 1 (dataFrame [7] 0))
    (processCrcCheckSumData (goodEnv appInfoFileFeaturesSupport) 1 (checkSumFrame [7]) s.world).1
        = .ok ∧
      (processCrcCheckSumData (goodEnv appInfoFileFeaturesSupport) 1 (checkSumFrame [7])
        s.world).2.files 3 = [7] := by
  intro s
  have hok : (processCrcCheckSumData (goodEnv appInfoFileFeaturesSupport) 1 (checkSumFrame [7])
      s.world).1 = .ok := by decide +kernel
  refine ⟨hok, ?_⟩
  have hpack : packFileTransStartInfo appInfoFileFeaturesSupport 1 [97] 1 =
      some (startFrameA 1).data := by decide +kernel
  obtain ⟨r, hr, hcrc, hfd⟩ : ∃ r, (startedA 1).world.recipient 1 = some r ∧
      r.crc = appInfoFileFeaturesSupport ∧ r.recvFileInfo.fileFd = 3 := by
    refine ⟨((startedA 1).world.recipient 1).get (by decide +kernel), (Option.some_get _).symm, ?_, ?_⟩
      <;> decide +kernel
  have hstart : (processRecvFileFrameData (goodEnv appInfoFileFeaturesSupport) 1 1
      ⟨.first, (startFrameA 1).data⟩ (foldl RecvLog.step .init []).world).1 = .ok := by
    decide +kernel
  have horder : AllSteps (TransferInput.step 1 1) (TransferInput.InOrder 1) (startedA 1)
      [(.data (goodEnv appInfoFileFeaturesSupport) ⟨0, by decide +kernel⟩ : TransferInput [7])] := by
    decide +kernel
  have hzero : ∀ k < dataFrames [7], frameCrc [7] k = 0 → k ∈ chunksInWindow (s.accepted 1) := by
    decide +kernel
  have hsize : ([7] : List UInt8).length ≤ maxFileSize := by decide
  have hs₀ : startedA 1 = (foldl RecvLog.step .init []).step
    (.frame (goodEnv appInfoFileFeaturesSupport) 1 1 ⟨.first, (startFrameA 1).data⟩) := rfl
  have hs : s = foldl (TransferInput.step 1 1) (startedA 1)
    [(.data (goodEnv appInfoFileFeaturesSupport) ⟨0, by decide +kernel⟩ : TransferInput [7])] := rfl
  rw [← hfd]
  exact eq_source_of_checkSum_accepted hsize (by decide) (by decide) hpack [] hstart hs₀ hr hcrc _
    hs horder hzero hok

/-- The checksum of the two bytes is 0: the file is accepted although its frame never came. -/
theorem checkSum_accepted_without_frame :
    (processRecvFileFrameData (goodEnv appInfoFileFeaturesSupport) 1 1 (startFrameA 2) .init).1 = .ok ∧
      (processCrcCheckSumData (goodEnv appInfoFileFeaturesSupport) 1 (checkSumFrame [0xFF, 0xFF])
        (startedA 2).world).1 = .ok ∧
      (processCrcCheckSumData (goodEnv appInfoFileFeaturesSupport) 1 (checkSumFrame [0xFF, 0xFF])
        (startedA 2).world).2.files 3 ≠ [0xFF, 0xFF] := by
  decide +kernel

end SoftBus.Native
