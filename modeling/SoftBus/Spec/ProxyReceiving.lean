import SoftBus.Spec.ProxyCopy

/-!
# The receiver while a file is sent in order

The frames of a file reach the receiver in order, except for those that are `lost`; a
lost frame may come again when its window has been acknowledged.  `Receiving` and
`RecvAt` say what the receiver then knows after `i` frames and `w` acknowledged windows:
the frames that came in their window are in the sum and in the bitmap, and a window that
is reported incomplete is complete again when its missing frames have come.
-/

namespace SoftBus.Native
open Function FileRecipientInfo Finset UInt32
variable {k b : ℕ} {accepted : List AcceptedFrame} {env : RecvEnv} {sessionId : Int32} {r : FileRecipientInfo}
  {s : WriteState} {frame : FileFrame} {data : FileData} {seq : UInt32}

/-! ## The file -/

/-- A file of which the first `i` frames were sent and `w` windows acknowledged. -/
structure Receiving (source : List UInt8) (lost : ℕ → Bool) (i w : ℕ) (file : SingleFileInfo)
    (content : List UInt8) (accepted : List AcceptedFrame) : Prop where
  copy : CopyOk source file content accepted
  window : WindowOk file accepted
  fileStatus : file.fileStatus ≠ .err
  startSeq : file.startSeq.toNat = 32 * w + 1
  preStartSeq : file.preStartSeq.toNat = 32 * (w - 1) + 1
  seq_le : file.seq.toNat ≤ i
  inWindow : ∀ k, k ∈ chunksInWindow accepted ↔ k < i ∧ lost (k + 1) = false
  seq_pos : ∀ a ∈ accepted, 0 < a.seq.toNat
  before : ∀ a ∈ accepted, a.inWindow = false → a.seq.toNat < file.startSeq.toNat

theorem mem_chunksInWindow (hpos : ∀ a ∈ accepted, 0 < a.seq.toNat) :
    k ∈ chunksInWindow accepted ↔ ∃ a ∈ accepted, a.inWindow = true ∧ a.seq.toNat = k + 1 := by
  unfold chunksInWindow
  simp only [List.mem_map, List.mem_filter]
  constructor
  · rintro ⟨a, ⟨ha, hin⟩, rfl⟩
    have := hpos a ha
    exact ⟨a, ha, hin, by omega⟩
  · rintro ⟨a, ha, hin, hk⟩
    exact ⟨a, ⟨ha, hin⟩, by omega⟩

namespace Receiving
variable {source : List UInt8} {lost : ℕ → Bool} {i w : ℕ} {file : SingleFileInfo} {content : List UInt8}
  {s' : WriteState} (h : Receiving source lost i w file content accepted)
include h in
/-- The time of the last frame does not matter. -/
theorem timeOut (t : ℕ) : Receiving source lost i w { file with timeOut := t } content accepted :=
  ⟨h.copy.congr rfl rfl rfl rfl, h.window.congr rfl rfl, h.fileStatus, h.startSeq, h.preStartSeq,
    h.seq_le, h.inWindow, h.seq_pos, h.before⟩

include h in
/-- The next frame is lost. -/
theorem lose (hlost : lost (i + 1) = true) : Receiving source lost (i + 1) w file content accepted := by
  refine { h with seq_le := Nat.le_succ_of_le h.seq_le, inWindow := fun k => ?_ }
  rw [h.inWindow]
  constructor
  · rintro ⟨hk, hkept⟩
    exact ⟨by omega, hkept⟩
  · rintro ⟨hk, hkept⟩
    refine ⟨?_, hkept⟩
    by_contra hge
    obtain rfl : k = i := by omega
    simp [hlost] at hkept

/-- The next frame comes in its window. -/
theorem deliver (hsize : source.length ≤ maxFileSize)
    (h : Receiving source lost i w s.fileInfo s.content accepted) (hi : i < dataFrames source)
    (hkept : lost (i + 1) = false) {frameType : FrameType}
    (ha : AcceptedInWindow frameType
      ⟨.ofNat (i + 1), rtuCrc (frameData source i), frameData source i⟩ s s') :
    Receiving source lost (i + 1) w s'.fileInfo s'.content (⟨.ofNat (i + 1), true⟩ :: accepted) := by
  have hof := toNat_ofNat_frame hsize hi
  have hle := h.seq_le
  have hnew : s.fileInfo.seq < .ofNat (i + 1) := by
    rw [lt_iff_toNat_lt]
    omega
  have hcopy := h.copy.accept_inWindow hsize hi ha hnew
  have hwindow := h.window.accept_inWindow ha
  rw [ha.fileInfo] at hcopy hwindow ⊢
  refine ⟨hcopy, hwindow, h.fileStatus, h.startSeq, h.preStartSeq, hof.le, fun k => ?_, ?_, ?_⟩
  · rw [chunksInWindow_true, hof, List.mem_cons, h.inWindow]
    constructor
    · rintro (rfl | ⟨hk, hkept'⟩)
      · exact ⟨by omega, hkept⟩
      · exact ⟨by omega, hkept'⟩
    · rintro ⟨hk, hkept'⟩
      rcases Nat.lt_succ_iff_lt_or_eq.1 hk with hk | rfl
      · exact .inr ⟨hk, hkept'⟩
      · exact .inl rfl
  · intro a hmem
    rcases List.mem_cons.1 hmem with rfl | hmem
    · rw [hof]
      exact Nat.succ_pos i
    · exact h.seq_pos a hmem
  · intro a hmem hin
    rcases List.mem_cons.1 hmem with rfl | hmem
    · simp at hin
    · exact h.before a hmem hin

/-- A frame of an acknowledged window comes. -/
theorem retrans (hsize : source.length ≤ maxFileSize) (h : Receiving source lost i w s.fileInfo s.content accepted)
    (hk : k < dataFrames source)
    (ha : AcceptedBefore ⟨.ofNat (k + 1), rtuCrc (frameData source k), frameData source k⟩ s s') :
    Receiving source lost i w s'.fileInfo s'.content (⟨.ofNat (k + 1), false⟩ :: accepted) := by
  have hof := toNat_ofNat_frame hsize hk
  have hcopy := h.copy.accept_before hsize hk ha
  have hwindow := h.window.accept_before ha
  rw [ha.fileInfo] at hcopy hwindow ⊢
  refine ⟨hcopy, hwindow, h.fileStatus, h.startSeq, h.preStartSeq, h.seq_le, h.inWindow, ?_, ?_⟩
  · intro a hmem
    rcases List.mem_cons.1 hmem with rfl | hmem
    · rw [hof]
      exact Nat.succ_pos k
    · exact h.seq_pos a hmem
  · intro a hmem hin
    rcases List.mem_cons.1 hmem with rfl | hmem
    · exact lt_iff_toNat_lt.1 ha.lt_startSeq
    · exact h.before a hmem hin

include h in
/-- The window is acknowledged. -/
theorem slide (hw : 32 * w + 33 < 2 ^ 32) :
    Receiving source lost i (w + 1) (slideWindow file) content accepted := by
  have hstart := h.startSeq
  have hstart' : (slideWindow file).startSeq.toNat = 32 * (w + 1) + 1 := by
    show (file.startSeq + 32).toNat = _
    rw [UInt32.toNat_add, show (32 : UInt32).toNat = 32 from rfl]
    omega
  refine ⟨h.copy.congr rfl rfl rfl rfl, h.window.slide (by omega), h.fileStatus, hstart', ?_,
    h.seq_le, h.inWindow, h.seq_pos, fun a hmem hin => ?_⟩
  · show file.startSeq.toNat = _
    rw [hstart, Nat.add_sub_cancel]
  · have := h.before a hmem hin
    omega

include h in
/-- A frame in its window is in the log as such. -/
theorem mem_accepted_iff (seq : ℕ) :
    (∃ a ∈ accepted, a.inWindow = true ∧ a.seq.toNat = seq) ↔ 1 ≤ seq ∧ seq ≤ i ∧ lost seq = false := by
  cases seq with
  | zero =>
    constructor
    · rintro ⟨a, ha, -, hzero⟩
      have := h.seq_pos a ha
      omega
    · omega
  | succ k =>
    rw [← mem_chunksInWindow h.seq_pos, h.inWindow]
    exact ⟨fun hk => ⟨by omega, hk⟩, fun hk => hk.2⟩

/-- What is reported of a window: the frames that came, and all of them when the last
    frame of the window before came. -/
theorem testBit_report (h : Receiving source lost (32 * (w + 1)) w file content accepted) (hb : b < 32) :
    file.seqResult.toUInt32.toNat.testBit b = true ↔
      (1 ≤ w ∧ lost (32 * w) = false) ∨ lost (32 * w + 1 + b) = false := by
  have hstart := h.startSeq
  rw [UInt64.toNat_toUInt32, Nat.testBit_mod_two_pow, decide_eq_true hb, Bool.true_and,
    h.window.low b hb]
  refine or_congr ?_ ?_
  · have hiff := h.mem_accepted_iff (32 * w)
    constructor
    · rintro ⟨a, ha, hin, hseq⟩
      obtain ⟨hpos, -, hkept⟩ := hiff.1 ⟨a, ha, hin, by omega⟩
      exact ⟨by omega, hkept⟩
    · rintro ⟨hw, hkept⟩
      obtain ⟨a, ha, hin, hseq⟩ := hiff.2 ⟨by omega, by omega, hkept⟩
      exact ⟨a, ha, hin, by omega⟩
  · have hiff := h.mem_accepted_iff (32 * w + 1 + b)
    constructor
    · rintro ⟨a, ha, hseq⟩
      -- a frame of the current window cannot have come after it
      have hin : a.inWindow = true := by
        by_contra hout
        have := h.before a ha (by simpa using hout)
        omega
      exact (hiff.1 ⟨a, ha, hin, by omega⟩).2.2
    · intro hkept
      obtain ⟨a, ha, -, hseq⟩ := hiff.2 ⟨by omega, by omega, hkept⟩
      exact ⟨a, ha, by omega⟩

include h in
/-- The sum is over the frames that came in their window. -/
theorem checkSumCRC_eq :
    file.checkSumCRC =
      ∑ k ∈ (Finset.range i).filter (fun k => lost (k + 1) = false), frameCrc source k := by
  rw [h.copy.checkSumCRC, ← List.sum_toFinset _ h.copy.nodup]
  refine sum_congr ?_ fun _ _ => rfl
  ext k
  rw [List.mem_toFinset, h.inWindow, mem_filter, mem_range]

/-- The sum is right when all lost frames have checksum 0. -/
theorem sourceSum_eq_iff (h : Receiving source lost (dataFrames source) w file content accepted) :
    sourceSum source = file.checkSumCRC ↔
      ∀ k < dataFrames source, lost (k + 1) = true → frameCrc source k = 0 := by
  have hsplit := sum_filter_add_sum_filter_not (range (dataFrames source))
    (fun k => lost (k + 1) = false) (frameCrc source)
  rw [← h.checkSumCRC_eq] at hsplit
  have hzero : sourceSum source = file.checkSumCRC ↔
      ∑ k ∈ (range (dataFrames source)).filter (fun k => ¬ lost (k + 1) = false),
        frameCrc source k = 0 := by
    unfold sourceSum
    omega
  rw [hzero, sum_eq_zero_iff]
  simp only [mem_filter, mem_range, Bool.not_eq_false, and_imp]

section
variable (hsize : source.length ≤ maxFileSize)
  (hi : i < dataFrames source) (hlo : 32 * w ≤ i) (hhi : i < 32 * w + 32)
include h hsize hi hlo hhi

/-- When a frame in its window finds the window before incomplete. -/
theorem frameLoss_iff (frameType : FrameType) :
    frameLoss frameType (.ofNat (i + 1)) file = true ↔
      1 ≤ w ∧ (32 * w + 24 ≤ i + 1 ∨ frameType = .last) ∧
        file.preSeqResult ≠ fileSendAckResultSuccess := by
  have hn := dataFrames_le hsize
  have hof := toNat_ofNat_frame hsize hi
  have hpre := h.preStartSeq
  have hlate : ofNat (i + 1) ≥ file.preStartSeq + 32 + 24 - 1 ↔ 32 * (w - 1) + 56 ≤ i + 1 := by
    have hsum : (file.preStartSeq + 32 + 24).toNat = 32 * (w - 1) + 57 := by
      rw [UInt32.toNat_add, UInt32.toNat_add, show (32 : UInt32).toNat = 32 from rfl,
        show (24 : UInt32).toNat = 24 from rfl]
      omega
    have hone : (1 : UInt32) ≤ file.preStartSeq + 32 + 24 := by
      rw [le_iff_toNat_le, UInt32.toNat_one]
      omega
    rw [ge_iff_le, UInt32.le_iff_toNat_le, UInt32.toNat_sub_of_le _ _ hone, hsum, hof,
      UInt32.toNat_one]
    omega
  have hlast : ofNat (i + 1) > 32 ↔ 32 < i + 1 := by
    rw [gt_iff_lt, lt_iff_toNat_lt, hof]
    rfl
  unfold frameLoss
  simp only [Bool.and_eq_true, Bool.or_eq_true, decide_eq_true_eq, bne_iff_ne, beq_iff_eq, hlate, hlast]
  constructor
  · rintro ⟨hlate | ⟨hlast, hw⟩, hfull⟩
    · exact ⟨by omega, .inl (by omega), hfull⟩
    · exact ⟨by omega, .inr hlast, hfull⟩
  · rintro ⟨hw, hlate | hlast, hfull⟩
    · exact ⟨.inl (by omega), hfull⟩
    · exact ⟨.inr ⟨hlast, by omega⟩, hfull⟩

/-- The place of the next frame in its window. -/
theorem seq_inWindow : file.startSeq ≤ .ofNat (i + 1) ∧ UInt32.ofNat (i + 1) < file.startSeq + 32 := by
  have hn := dataFrames_le hsize
  have hof := toNat_ofNat_frame hsize hi
  have hstart := h.startSeq
  constructor
  · rw [le_iff_toNat_le]
    omega
  · rw [UInt32.lt_iff_toNat_lt, UInt32.toNat_add, show (32 : UInt32).toNat = 32 from rfl]
    omega

/-- A frame in its window is accepted. -/
theorem processOneFrame_ok (hwrite : FullWrites env) {frameType : FrameType} (hloss : frameLoss frameType (.ofNat (i + 1)) file = false) :
    ∃ s', processOneFrame env appInfoFileFeaturesSupport frameType
        ⟨.ofNat (i + 1), rtuCrc (frameData source i), frameData source i⟩ ⟨file, content, 0⟩ =
      (.ok, s') := by
  obtain ⟨hle, hlt⟩ := h.seq_inWindow hsize hi hlo hhi
  have hof := toNat_ofNat_frame hsize hi
  have hseq := h.seq_le
  have hnew : file.seq < .ofNat (i + 1) := by
    rw [lt_iff_toNat_lt]
    omega
  have hend := Chunks.chunk_end crcFrameDataSize_pos hi
  unfold processOneFrame
  rw [if_neg h.fileStatus]
  refine processOneFrameCRC_inWindow hwrite hle hlt hloss ?_ ?_
  · show 0 < file.oneFrameLen ∧ file.oneFrameLen ≤ maxMallocSize
    rw [h.copy.oneFrameLen]
    refine ⟨crcFrameDataSize_pos, ?_⟩
    show 958 ≤ 512 * 1024 * 1024
    omega
  · show file.fileOffset + skipped (.ofNat (i + 1)) file * file.oneFrameLen +
      (Chunks.chunk crcFrameDataSize source i).length ≤ _
    rw [CopyOk.skipped_eq hsize hi hnew, (h.copy.offset_eq hi hseq).2]
    omega

end
end Receiving

/-! ## The receiver -/

/-- What a data frame that is accepted does to the recipient that its handler holds. -/
def acceptedOutcome (r : FileRecipientInfo) (s : WriteState) (files : Int32 → List UInt8) :
    Outcome where
  code := .ok
  recipient := some { r with recvFileInfo := { s.fileInfo with timeOut := 0 } }
  files := update files r.recvFileInfo.fileFd s.content
  events := processCallback r s.fileInfo

theorem valid_acceptedOutcome {files : Int32 → List UInt8} (hr : r.Held sessionId) :
    (acceptedOutcome r s files).Valid sessionId := by
  intro r' hr'
  cases hr'
  exact ⟨hr.sessionId, hr.recvState⟩

theorem writeFrameToFile_accepted {w : RecvWorld} (hw : w.Settled) (hr : w.recipient sessionId = some r)
    (hidle : r.recvState ≠ .idle) (hcrc : r.crc = appInfoFileFeaturesSupport)
    (hdata : unpackFileDataFrame appInfoFileFeaturesSupport env.beyond frame = .ok data)
    (hs : processOneFrame env appInfoFileFeaturesSupport frame.frameType data ⟨r.recvFileInfo, w.files r.recvFileInfo.fileFd, 0⟩ = (.ok, s)) :
    writeFrameToFile env sessionId frame w =
      (.ok, w.settle sessionId (acceptedOutcome r.held s w.files)) := by
  have hget := getRecipientInProcessRef_eq hr (settled_iff.1 hw _ r hr) hidle
  have hcrc' : r.held.crc = appInfoFileFeaturesSupport := hcrc
  have hdata' : unpackFileDataFrame r.held.crc env.beyond frame = .ok data := by
    rw [hcrc']
    exact hdata
  have hs' : processOneFrame env r.held.crc frame.frameType data
      ⟨r.held.recvFileInfo, w.files r.held.recvFileInfo.fileFd, 0⟩ = (.ok, s) := by
    rw [hcrc']
    exact hs
  have hout : dataOutcome env frame r.held w.files = acceptedOutcome r.held s w.files := by
    unfold dataOutcome
    simp only [hdata', hs']
    rw [if_neg (by simp), if_neg fun hne => hne.1 hcrc']
    rfl
  rw [writeFrameToFile_eq hr hget (held_held hr), hout]
  rfl

/-- Progress callbacks are not frames. -/
@[simp] theorem sentFrames_processCallback (file : SingleFileInfo) :
    sentFrames (processCallback r file) = [] := by
  unfold processCallback
  split <;> rfl

/-- The receiver after the first `i` frames and `w` acknowledgements; `pre` is what it
    knows of the window before the current one. -/
structure RecvAt (source : List UInt8) (lost : ℕ → Bool) (sessionId : Int32) (i w : ℕ)
    (pre : UInt32) (world : RecvWorld) : Prop where
  settled : world.Settled
  recipient : ∃ r accepted, world.recipient sessionId = some r ∧ r.recvState ≠ .idle ∧
    r.crc = appInfoFileFeaturesSupport ∧ r.recvFileInfo.preSeqResult = pre ∧
    Receiving source lost i w r.recvFileInfo (world.files r.recvFileInfo.fileFd) accepted

/-- The receiver has given the file up. -/
structure Gone (sessionId : Int32) (world : RecvWorld) : Prop where
  settled : world.Settled
  recipient : world.recipient sessionId = none

/-- A bitmap is right for window `w`: the last frame of the window before sets all bits. -/
def Report (lost : ℕ → Bool) (w : ℕ) (report : UInt32) : Prop :=
  ∀ b < 32, report.toNat.testBit b = true ↔
    (1 ≤ w ∧ lost (32 * w) = false) ∨ lost (32 * w + 1 + b) = false

/-- A window is complete, as far as the receiver knows. -/
def PreFull (pre : UInt32) : Prop := pre = fileSendAckResultSuccess

theorem preFull_iff {pre : UInt32} : PreFull pre ↔ ∀ b < 32, pre.toNat.testBit b = true := by
  have hfull : fileSendAckResultSuccess.toNat = 2 ^ 32 - 1 := rfl
  constructor
  · rintro rfl b hb
    rw [hfull, Nat.testBit_two_pow_sub_one, decide_eq_true hb]
  · intro hbits
    unfold PreFull
    rw [← UInt32.toNat_inj, hfull]
    apply Nat.eq_of_testBit_eq
    intro b
    rw [Nat.testBit_two_pow_sub_one]
    by_cases hb : b < 32
    · rw [hbits b hb, decide_eq_true hb]
    · rw [decide_eq_false hb]
      refine Nat.testBit_lt_two_pow (Nat.lt_of_lt_of_le pre.toNat_lt ?_)
      exact Nat.pow_le_pow_right (by omega) (by omega)

/-- A window is reported complete when none of its frames is lost, or when the last frame
    of the window before is not. -/
theorem Report.preFull_iff {lost : ℕ → Bool} {w : ℕ} {report : UInt32} (h : Report lost w report) :
    PreFull report ↔ (1 ≤ w ∧ lost (32 * w) = false) ∨ ∀ b < 32, lost (32 * w + 1 + b) = false := by
  rw [SoftBus.Native.preFull_iff]
  constructor
  · intro hbits
    by_cases hspill : 1 ≤ w ∧ lost (32 * w) = false
    · exact .inl hspill
    · exact .inr fun b hb => ((h b hb).1 (hbits b hb)).resolve_left hspill
  · rintro (hspill | hall) b hb
    · exact (h b hb).2 (.inl hspill)
    · exact (h b hb).2 (.inr (hall b hb))

/-- A retransmitted frame sets its bit. -/
theorem testBit_retrans (pre : UInt32) (hb : b < 32) : (pre ||| 1 <<< windowBit seq).toNat.testBit b =
      (pre.toNat.testBit b || decide (b = (seq.toNat + 31) % 32)) := by
  have hbit := toNat_windowBit seq
  rw [UInt32.toNat_or, Nat.testBit_or, UInt32.toNat_shiftLeft, UInt32.toNat_one,
    Nat.testBit_mod_two_pow, decide_eq_true hb, Nat.one_shiftLeft,
    Nat.testBit_two_pow, hbit, Nat.mod_mod]
  congr 1
  exact decide_eq_decide.2 eq_comm

namespace RecvAt
variable {source : List UInt8} {lost : ℕ → Bool} {i w : ℕ} {pre : UInt32} {world : RecvWorld}

/-- The receiver after an accepted start frame. -/
theorem start {sender channelId : Int32} {destFile : Path} {data : List UInt8}
    (hp : PacksStart sender destFile source data) (ht : TakesStart env sessionId channelId data world) :
    RecvAt source lost sessionId 0 0 0
        (processRecvFileFrameData env sessionId channelId ⟨.first, data⟩ world).2 ∧
      sentFrames ((processRecvFileFrameData env sessionId channelId ⟨.first, data⟩ world).2.trace.drop
        world.trace.length) = [⟨.result, packFileTransResult 0 .ok isRecvResult⟩] := by
  obtain ⟨r, file, fd, hheld, hstate, hcrc, hfile, hworld⟩ := start_accepted hp ht
  have hvalid : (startedOutcome channelId fd r file world.files).Valid sessionId :=
    valid_startedOutcome hheld
  have hcontent : (world.settle sessionId (startedOutcome channelId fd r file world.files)).files
      fd = [] := update_self ..
  have hself := recipient_settle_self (w := world) hvalid
  rw [hworld]
  generalize file.filePath = path at hfile hworld
  subst hfile
  refine ⟨⟨settled_settle ht.settled hvalid, _, [], hself, ?_, hcrc, rfl, ?_⟩, ?_⟩
  · show r.recvState ≠ .idle
    simp [hstate]
  · erw [hcontent]
    refine ⟨CopyOk.start rfl rfl rfl rfl, WindowOk.start rfl rfl, ?_, rfl, rfl, le_rfl, ?_, ?_, ?_⟩
    · simp [startedRecipient, rest]
    · simp
    · simp
    · simp
  · rw [RecvWorld.settle, List.drop_left]
    show sentFrames (startedEvents ..) = _
    rw [startedEvents]
    split <;> rfl

theorem lose (h : RecvAt source lost sessionId i w pre world) (hlost : lost (i + 1) = true) :
    RecvAt source lost sessionId (i + 1) w pre world := by
  obtain ⟨r, accepted, hr, hidle, hcrc, hpre, hrecv⟩ := h.recipient
  exact ⟨h.settled, r, accepted, hr, hidle, hcrc, hpre, hrecv.lose hlost⟩

/-- A frame that is accepted leaves the receiver with the file it has written. -/
theorem of_accepted (hw : world.Settled) (hr : world.recipient sessionId = some r) (hidle : r.recvState ≠ .idle)
    (hcrc : r.crc = appInfoFileFeaturesSupport)
    (hdata : unpackFileDataFrame appInfoFileFeaturesSupport env.beyond frame = .ok data)
    (hs : processOneFrame env appInfoFileFeaturesSupport frame.frameType data ⟨r.recvFileInfo, world.files r.recvFileInfo.fileFd, 0⟩ = (.ok, s))
    (hpre : s.fileInfo.preSeqResult = pre) (hrecv : Receiving source lost i w s.fileInfo s.content accepted) :
    ∃ world', writeFrameToFile env sessionId frame world = (.ok, world') ∧
      RecvAt source lost sessionId i w pre world' ∧
      sentFrames (world'.trace.drop world.trace.length) = [] := by
  have hvalid : (acceptedOutcome r.held s world.files).Valid sessionId :=
    valid_acceptedOutcome (held_held hr)
  refine ⟨_, writeFrameToFile_accepted hw hr hidle hcrc hdata hs, ⟨settled_settle hw hvalid, ?_⟩, ?_⟩
  · have hself := recipient_settle_self (w := world) hvalid
    refine ⟨_, accepted, hself, by simp [held, rest], hcrc, hpre, ?_⟩
    have hfd : s.fileInfo.fileFd = r.recvFileInfo.fileFd := by
      have hsame := sameFile_processOneFrame env appInfoFileFeaturesSupport frame.frameType data
        ⟨r.recvFileInfo, world.files r.recvFileInfo.fileFd, 0⟩
      rw [hs] at hsame
      exact hsame.fileFd
    have hcontent : (world.settle sessionId (acceptedOutcome r.held s world.files)).files
        s.fileInfo.fileFd = s.content := by
      rw [hfd]
      exact update_self ..
    have hfinal := hrecv.timeOut 0
    rw [← hcontent] at hfinal
    exact hfinal
  · simp [RecvWorld.settle, acceptedOutcome]

section
variable (h : RecvAt source lost sessionId i w pre world) (channelId : Int32)
  (hsize : source.length ≤ maxFileSize) (hi : i < dataFrames source) (hlo : 32 * w ≤ i)
  (hhi : i < 32 * w + 32)
include h channelId hsize hi hlo hhi

/-- The next frame is accepted. -/
theorem deliver (hwrite : FullWrites env) (hkept : lost (i + 1) = false)
    (hpre : PreFull pre ∨ w = 0 ∨ i + 1 < min (32 * w + 24) (dataFrames source)) :
    ∃ world', processRecvFileFrameData env sessionId channelId (dataFrame source i) world =
        (.ok, world') ∧ RecvAt source lost sessionId (i + 1) w pre world' ∧
      sentFrames (world'.trace.drop world.trace.length) = [] := by
  obtain ⟨r, accepted, hr, hidle, hcrc, rfl, hrecv⟩ := h.recipient
  have hloss : frameLoss (dataFrame source i).frameType (.ofNat (i + 1)) r.recvFileInfo = false := by
    rw [← Bool.not_eq_true, hrecv.frameLoss_iff hsize hi hlo hhi]
    rintro ⟨hw, hlate, hfull⟩
    rcases hpre with hpre | hpre | hpre
    · exact hfull hpre
    · omega
    · rcases hlate with hlate | hlast
      · omega
      · rw [frameType_dataFrame_eq, if_neg (by omega)] at hlast
        simp at hlast
  obtain ⟨s, hs⟩ := hrecv.processOneFrame_ok hsize hi hlo hhi hwrite hloss
  have hle := (hrecv.seq_inWindow hsize hi hlo hhi).1
  have hdata := unpackFileDataFrame_dataFrame env.beyond hi
  rw [processRecvFileFrameData_dataFrame]
  rcases processOneFrame_crc_ok rfl hs with ha | ha
  · refine of_accepted h.settled hr hidle hcrc hdata hs ?_ (hrecv.deliver hsize hi hkept ha)
    rw [ha.fileInfo]
  · exact absurd ha.lt_startSeq (UInt32.not_lt.2 hle)

/-- The next frame is accepted, or the receiver gives the file up. -/
theorem deliver_or_gone (hkept : lost (i + 1) = false) :
    (∃ world', processRecvFileFrameData env sessionId channelId (dataFrame source i) world =
        (.ok, world') ∧ RecvAt source lost sessionId (i + 1) w pre world' ∧
      sentFrames (world'.trace.drop world.trace.length) = []) ∨
    Gone sessionId
      (processRecvFileFrameData env sessionId channelId (dataFrame source i) world).2 := by
  obtain ⟨r, accepted, hr, hidle, hcrc, rfl, hrecv⟩ := h.recipient
  have hle := (hrecv.seq_inWindow hsize hi hlo hhi).1
  have hdata := unpackFileDataFrame_dataFrame env.beyond hi
  have hcrc' : r.held.crc = appInfoFileFeaturesSupport := hcrc
  rw [processRecvFileFrameData_dataFrame]
  rcases dataOutcome_cases env (dataFrame source i) r.held world.files with
    ⟨-, hnone⟩ | ⟨data, s, hdata', hs, -⟩
  · -- the recipient is given up
    right
    have hget := getRecipientInProcessRef_eq hr (settled_iff.1 h.settled _ r hr) hidle
    have hvalid : (dataOutcome env (dataFrame source i) r.held world.files).Valid sessionId :=
      valid_dataOutcome (held_held hr)
    rw [writeFrameToFile_eq hr hget (held_held hr)]
    refine ⟨settled_settle h.settled hvalid, ?_⟩
    rw [recipient_settle_self hvalid, Option.map_eq_none_iff]
    exact hnone
  · left
    rw [hcrc', hdata] at hdata'
    cases hdata'
    rw [hcrc'] at hs
    rcases processOneFrame_crc_ok rfl hs with ha | ha
    · refine of_accepted h.settled hr hidle hcrc hdata hs ?_ (hrecv.deliver hsize hi hkept ha)
      rw [ha.fileInfo]
      rfl
    · exact absurd ha.lt_startSeq (UInt32.not_lt.2 hle)

/-- The next frame finds the window before incomplete. -/
theorem giveUp (hpre : ¬ PreFull pre)
    (hw : 1 ≤ w) (hlate : min (32 * w + 24) (dataFrames source) ≤ i + 1) :
    Gone sessionId
      (processRecvFileFrameData env sessionId channelId (dataFrame source i) world).2 := by
  obtain ⟨r, accepted, hr, hidle, hcrc, rfl, hrecv⟩ := h.recipient
  have hloss : frameLoss (dataFrame source i).frameType (.ofNat (i + 1)) r.recvFileInfo = true := by
    rw [hrecv.frameLoss_iff hsize hi hlo hhi]
    refine ⟨hw, ?_, hpre⟩
    by_cases hlast : i + 1 = dataFrames source
    · right
      rw [frameType_dataFrame_eq, if_pos hlast, if_neg (by omega)]
    · omega
  have hle := (hrecv.seq_inWindow hsize hi hlo hhi).1
  have hget := getRecipientInProcessRef_eq hr (settled_iff.1 h.settled _ r hr) hidle
  have hvalid : (dataOutcome env (dataFrame source i) r.held world.files).Valid sessionId :=
    valid_dataOutcome (held_held hr)
  rw [processRecvFileFrameData_dataFrame, writeFrameToFile_eq hr hget (held_held hr)]
  refine ⟨settled_settle h.settled hvalid, ?_⟩
  rw [recipient_settle_self hvalid, Option.map_eq_none_iff]
  rcases dataOutcome_cases env (dataFrame source i) r.held world.files with
    ⟨-, hnone⟩ | ⟨data, s, hdata, hs, -⟩
  · exact hnone
  · rw [show r.held.crc = _ from hcrc, unpackFileDataFrame_dataFrame env.beyond hi] at hdata
    cases hdata
    rcases processOneFrame_crc_ok hcrc hs with ha | ha
    · have hno := ha.noLoss
      rw [show frameLoss _ _ r.held.recvFileInfo = true from hloss] at hno
      simp at hno
    · exact absurd ha.lt_startSeq (UInt32.not_lt.2 hle)

end

section
variable (channelId : Int32) (hsize : source.length ≤ maxFileSize)
include hsize

/-- A frame of an acknowledged window comes again. -/
theorem retrans (h : RecvAt source lost sessionId i w pre world) (hwrite : FullWrites env) (hw : 32 * w ≤ dataFrames source)
    (hkw : k < 32 * w) :
    ∃ world', processRecvFileFrameData env sessionId channelId (dataFrame source k) world =
        (.ok, world') ∧
      RecvAt source lost sessionId i w (pre ||| 1 <<< windowBit (.ofNat (k + 1))) world' ∧
      sentFrames (world'.trace.drop world.trace.length) = [] := by
  obtain ⟨r, accepted, hr, hidle, hcrc, rfl, hrecv⟩ := h.recipient
  have hk : k < dataFrames source := by omega
  have hof := toNat_ofNat_frame hsize hk
  have hn := dataFrames_le hsize
  have hstart := hrecv.startSeq
  have hlt : ofNat (k + 1) < r.recvFileInfo.startSeq := by
    rw [lt_iff_toNat_lt]
    omega
  have hlt' : ofNat (k + 1) < r.recvFileInfo.startSeq + 32 := by
    rw [UInt32.lt_iff_toNat_lt, UInt32.toNat_add, show (32 : UInt32).toNat = 32 from rfl]
    omega
  have hdata := unpackFileDataFrame_dataFrame env.beyond hk
  obtain ⟨s, hs⟩ : ∃ s, processOneFrame env appInfoFileFeaturesSupport (dataFrame source k).frameType
      ⟨.ofNat (k + 1), rtuCrc (frameData source k), frameData source k⟩
      ⟨r.recvFileInfo, world.files r.recvFileInfo.fileFd, 0⟩ = (.ok, s) := by
    unfold processOneFrame
    rw [if_neg hrecv.fileStatus]
    exact processOneFrameCRC_before hwrite hlt hlt'
  rw [processRecvFileFrameData_dataFrame]
  rcases processOneFrame_crc_ok rfl hs with ha | ha
  · exact absurd hlt (UInt32.not_lt.2 ha.startSeq_le)
  · refine of_accepted h.settled hr hidle hcrc hdata hs ?_ (hrecv.retrans hsize hk ha)
    rw [ha.fileInfo]

/-- The window is acknowledged when all its frames have been sent. -/
theorem acknowledge (h : RecvAt source lost sessionId (32 * (w + 1)) w pre world)
    (hw : 32 * (w + 1) ≤ dataFrames source) {startSeq : UInt32} (hstart : startSeq.toNat = 32 * w + 1) :
    ∃ report world', Report lost w report ∧ processRecvFileFrameData env sessionId channelId
        ⟨.ackRequestSent, packAckReqAndResData startSeq seq⟩ world = (env.ipcSend, world') ∧
      RecvAt source lost sessionId (32 * (w + 1)) (w + 1) report world' ∧
      sentFrames (world'.trace.drop world.trace.length) =
        [⟨.ackResponseSent, packAckReqAndResData startSeq report⟩] := by
  obtain ⟨r, accepted, hr, hidle, hcrc, rfl, hrecv⟩ := h.recipient
  have hn := dataFrames_le hsize
  have hget := getRecipientInProcessRef_eq hr (settled_iff.1 h.settled _ r hr) hidle
  have hreq := unpackAckReqAndResData_pack env.beyond .ackRequestSent startSeq seq
  obtain rfl : startSeq = r.recvFileInfo.startSeq := by
    rw [← UInt32.toNat_inj, hstart, hrecv.startSeq]
  generalize hframe : FileFrame.mk .ackRequestSent
    (packAckReqAndResData r.recvFileInfo.startSeq seq) = frame at hreq ⊢
  have hstep : processRecvFileFrameData env sessionId channelId frame world =
      processFileAckRequest env sessionId frame world := by
    rw [← hframe]
    rfl
  have hvalid : (ackOutcome env frame r.held world.files).Valid sessionId :=
    valid_ackOutcome (held_held hr)
  have hout : ackOutcome env frame r.held world.files =
      { code := env.ipcSend
        recipient := some { r.held with recvFileInfo := slideWindow r.recvFileInfo }
        files := world.files
        events := [.sent r.channelId ⟨.ackResponseSent, packAckReqAndResData r.recvFileInfo.startSeq
          r.recvFileInfo.seqResult.toUInt32⟩] } := by
    unfold ackOutcome
    rw [hreq]
    dsimp only
    rw [if_neg (show ¬ r.recvFileInfo.startSeq ≠ r.held.recvFileInfo.startSeq from not_not.2 rfl)]
    rfl
  rw [hstep, processFileAckRequest_eq hr hget (held_held hr)]
  have hself := recipient_settle_self (w := world) hvalid
  rw [hout] at hself hvalid ⊢
  refine ⟨r.recvFileInfo.seqResult.toUInt32, _, fun b hb => hrecv.testBit_report hb, rfl,
    ⟨settled_settle h.settled hvalid, _, accepted, hself, ?_, hcrc, rfl, ?_⟩, ?_⟩
  · simp [held, rest]
  · exact hrecv.slide (by omega)
  · simp [RecvWorld.settle, sentFrames]

/-- The checksum frame is accepted when all lost frames have checksum 0. -/
theorem checkSum (h : RecvAt source lost sessionId (dataFrames source) w pre world)
    (hsend : env.ipcSend = .ok) :
    (processRecvFileFrameData env sessionId channelId (checkSumFrame source) world).1 = .ok ↔
      ∀ k < dataFrames source, lost (k + 1) = true → frameCrc source k = 0 := by
  obtain ⟨r, accepted, hr, hidle, hcrc, rfl, hrecv⟩ := h.recipient
  have hget := getRecipientInProcessRef_eq hr (settled_iff.1 h.settled _ r hr) hidle
  have hstep : processRecvFileFrameData env sessionId channelId (checkSumFrame source) world =
      processCrcCheckSumData env sessionId (checkSumFrame source) world := rfl
  rw [hstep, processCrcCheckSumData_eq hr hget (held_held hr)]
  rw [code_checkSumOutcome_iff hsize (show r.held.crc = _ from hcrc), ← hrecv.sourceSum_eq_iff]
  exact ⟨fun hok => hok.1, fun hsum => ⟨hsum, hsend⟩⟩

end
end RecvAt

namespace Gone
variable {channelId : Int32} {world : RecvWorld}

/-- Only a start frame brings the recipient back. -/
theorem frame_eq (h : Gone sessionId world) (hf : frame.frameType ≠ .first) :
    (processRecvFileFrameData env sessionId channelId frame world).2 = world := by
  have hget : getRecipientInProcessRef sessionId world = none :=
    getRecipientInProcessRef_eq_none (by simp [h.recipient])
  have hnone : frameOutcome env sessionId channelId frame world = none := by
    unfold frameOutcome
    split
    · rfl
    cases ht : frame.frameType with
    | first => exact absurd ht hf
    | ongoine | onlyone | last | ackRequestSent | crcCheck | allFileSent =>
      simp only [hget, Option.map_none]
    | result => simp only [h.recipient, Option.bind_none]
    | ackResponseSent | other => rfl
  rw [processRecvFileFrameData_eq h.settled, hnone]

theorem checkSum_ne_ok (h : Gone sessionId world) (hf : frame.frameType = .crcCheck) :
    (processRecvFileFrameData env sessionId channelId frame world).1 ≠ .ok := by
  have hget : getRecipientInProcessRef sessionId world = none :=
    getRecipientInProcessRef_eq_none (by simp [h.recipient])
  unfold processRecvFileFrameData
  split
  · simp
  · simp [hf, processCrcCheckSumData, hget]

end Gone
end SoftBus.Native
