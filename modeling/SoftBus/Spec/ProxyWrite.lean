import SoftBus.Native.ProxyFileRecv

/-!
# What a data frame does to a file

The frame of a session with checksums belongs to the current window of 32 frames or to
one before it.  A frame of the window goes behind what the file has, with zeros in the
place of the frames that were skipped, and its checksum is added to the sum; a frame of
an earlier window is written in its place.
-/

namespace SoftBus.Native
variable {env : RecvEnv} {s s' : WriteState} {data : FileData} {off : ℕ} {frameType : FrameType}

/-- What no data frame changes. -/
structure SingleFileInfo.SameFile (file file' : SingleFileInfo) : Prop where
  fileFd : file'.fileFd = file.fileFd
  oneFrameLen : file'.oneFrameLen = file.oneFrameLen
  startSeq : file'.startSeq = file.startSeq
  preStartSeq : file'.preStartSeq = file.preStartSeq
  filePath : file'.filePath = file.filePath

namespace SingleFileInfo.SameFile
variable {f g h : SingleFileInfo}

theorem refl (f : SingleFileInfo) : f.SameFile f := ⟨rfl, rfl, rfl, rfl, rfl⟩

theorem trans (hfg : f.SameFile g) (hgh : g.SameFile h) : f.SameFile h :=
  ⟨hgh.1.trans hfg.1, hgh.2.trans hfg.2, hgh.3.trans hfg.3, hgh.4.trans hfg.4, hgh.5.trans hfg.5⟩

end SingleFileInfo.SameFile

/-- Writes are complete. -/
def FullWrites (env : RecvEnv) : Prop := ∀ n len : ℕ, env.pwrite n len = len

/-! ## Skipped frames -/

/-- Zeros in the place of `n` frames. -/
def skipFrames (n : ℕ) (file : SingleFileInfo) (content : List UInt8) : List UInt8 :=
  PosFile.pwrite 0 content file.fileOffset (List.replicate (n * file.oneFrameLen) 0)

/-- A write that returns the length of its data has written the data. -/
theorem pwrite_eq (data : List UInt8)
    (h : ¬ ((s.pwrite env data off).1 < 0 ∨ (s.pwrite env data off).1.toNat ≠ data.length)) :
    s.pwrite env data off = ((data.length : ℤ),
      { s with content := PosFile.pwrite 0 s.content off data, writes := s.writes + 1 }) := by
  have hlen : env.pwrite s.writes data.length = data.length := by
    have h' : ¬ (env.pwrite s.writes data.length < 0 ∨
      (env.pwrite s.writes data.length).toNat ≠ data.length) := h
    omega
  simp only [WriteState.pwrite, hlen, Int.toNat_natCast, List.take_length]

theorem sameFile_writeEmptyFrameLoop (env : RecvEnv) (n : ℕ) (s : WriteState) :
    s.fileInfo.SameFile (writeEmptyFrameLoop env n s).2.fileInfo := by
  induction n generalizing s with
  | zero => exact .refl _
  | succ n ih =>
    unfold writeEmptyFrameLoop
    dsimp only
    split
    · exact .refl _
    · refine .trans ?_ (ih _)
      exact ⟨rfl, rfl, rfl, rfl, rfl⟩

theorem writeEmptyFrameLoop_ok {n : ℕ} (h : writeEmptyFrameLoop env n s = (.ok, s')) :
    s'.fileInfo = { s.fileInfo with
        fileOffset := s.fileInfo.fileOffset + n * s.fileInfo.oneFrameLen } ∧
      s'.content = skipFrames n s.fileInfo s.content := by
  induction n generalizing s with
  | zero =>
    cases h
    simp [skipFrames]
  | succ n ih =>
    unfold writeEmptyFrameLoop at h
    dsimp only at h
    split at h
    · simp at h
    · next hfull =>
      rw [pwrite_eq (List.replicate s.fileInfo.oneFrameLen 0) (by simpa using hfull)] at h
      obtain ⟨hinfo, hcontent⟩ := ih h
      rw [hinfo, hcontent]
      constructor
      · simp [Nat.succ_mul, Nat.add_assoc, Nat.add_comm s.fileInfo.oneFrameLen]
      · have hwrite := PosFile.pwrite_pwrite 0 s.content s.fileInfo.fileOffset
          (List.replicate s.fileInfo.oneFrameLen 0) (List.replicate (n * s.fileInfo.oneFrameLen) 0)
        rw [List.replicate_append_replicate, Nat.add_comm s.fileInfo.oneFrameLen, ← Nat.succ_mul]
          at hwrite
        simpa [skipFrames] using hwrite

theorem writeEmptyFrameLoop_full (hw : FullWrites env) (n : ℕ) (s : WriteState) :
    (writeEmptyFrameLoop env n s).1 = .ok := by
  induction n generalizing s with
  | zero => rfl
  | succ n ih =>
    unfold writeEmptyFrameLoop
    dsimp only
    rw [if_neg]
    · exact ih _
    · simp [WriteState.pwrite, hw s.writes]

/-- The number of frames that a frame leaves out. -/
def skipped (seq : UInt32) (file : SingleFileInfo) : ℕ :=
  (seq - file.seq - 1).toInt32.toInt.toNat

theorem sameFile_writeEmptyFrame (env : RecvEnv) (count : Int32) (s : WriteState) :
    s.fileInfo.SameFile (writeEmptyFrame env count s).2.fileInfo := by
  unfold writeEmptyFrame
  split
  · split
    · exact .refl _
    · exact sameFile_writeEmptyFrameLoop env _ s
  · exact .refl _

theorem writeEmptyFrame_ok {count : Int32} (h : writeEmptyFrame env count s = (.ok, s')) :
    s'.fileInfo = { s.fileInfo with
        fileOffset := s.fileInfo.fileOffset + count.toInt.toNat * s.fileInfo.oneFrameLen } ∧
      s'.content = skipFrames count.toInt.toNat s.fileInfo s.content := by
  unfold writeEmptyFrame at h
  split at h
  · split at h
    · simp at h
    · exact writeEmptyFrameLoop_ok h
  · next hcount =>
    have hzero : count.toInt.toNat = 0 := by
      have hle := Int32.lt_iff_toInt_lt.not.1 hcount
      rw [Int32.toInt_zero] at hle
      omega
    cases h
    simp [hzero, skipFrames]

theorem writeEmptyFrame_full (hw : FullWrites env) (count : Int32)
    (h : 0 < s.fileInfo.oneFrameLen ∧ s.fileInfo.oneFrameLen ≤ maxMallocSize) :
    (writeEmptyFrame env count s).1 = .ok := by
  unfold writeEmptyFrame
  split
  · rw [if_neg (by omega)]
    exact writeEmptyFrameLoop_full hw _ s
  · rfl

/-! ## The write -/

theorem sameFile_writeFrameData (inWindow : Bool) : s.fileInfo.SameFile (writeFrameData env data off inWindow s).2.fileInfo := by
  unfold writeFrameData
  dsimp only
  split
  · exact .refl _
  split
  · split <;> exact ⟨rfl, rfl, rfl, rfl, rfl⟩
  · exact .refl _

/-- The write behind what the file has. -/
theorem writeFrameData_true_ok (h : writeFrameData env data off true s = (.ok, s')) :
    s'.content = PosFile.pwrite 0 s.content off data.fileData ∧ s'.fileInfo = { s.fileInfo with
        fileOffset := s.fileInfo.fileOffset + data.fileData.length
        checkSumCRC := s.fileInfo.checkSumCRC + data.crc.toNat } ∧
      s'.fileInfo.fileOffset ≤ maxFileSize := by
  unfold writeFrameData at h
  dsimp only at h
  split at h
  · simp at h
  next hfull =>
  rw [pwrite_eq data.fileData hfull, if_pos rfl] at h
  split at h
  · simp at h
  · next hsize =>
    cases h
    exact ⟨rfl, rfl, by simpa using hsize⟩

/-- The write inside the file. -/
theorem writeFrameData_false_ok (h : writeFrameData env data off false s = (.ok, s')) :
    s'.content = PosFile.pwrite 0 s.content off data.fileData ∧ s'.fileInfo = s.fileInfo := by
  unfold writeFrameData at h
  dsimp only at h
  split at h
  · simp at h
  next hfull =>
  rw [pwrite_eq data.fileData hfull] at h
  cases h
  exact ⟨rfl, rfl⟩

theorem writeFrameData_full (hw : FullWrites env) {inWindow : Bool}
    (h : inWindow = true → s.fileInfo.fileOffset + data.fileData.length ≤ maxFileSize) :
    (writeFrameData env data off inWindow s).1 = .ok := by
  have hwrite : s.pwrite env data.fileData off = ((data.fileData.length : ℤ),
      { s with content := PosFile.pwrite 0 s.content off data.fileData, writes := s.writes + 1 }) :=
    pwrite_eq _ (by simp [WriteState.pwrite, hw s.writes])
  unfold writeFrameData
  rw [hwrite]
  dsimp only
  rw [if_neg (by simp)]
  split
  · next hin =>
    rw [if_neg]
    simpa using h hin
  · rfl

/-! ## A frame of a session with checksums -/

/-- A frame of the window is accepted. -/
structure AcceptedInWindow (frameType : FrameType) (data : FileData) (s s' : WriteState) : Prop where
  startSeq_le : s.fileInfo.startSeq ≤ data.seq
  lt_startSeq : data.seq < s.fileInfo.startSeq + 32
  noLoss : frameLoss frameType data.seq s.fileInfo = false
  fileInfo : s'.fileInfo = { s.fileInfo with
    seq := data.seq
    seqResult := s.fileInfo.seqResult ||| intBit (windowBit data.seq)
    fileOffset := s.fileInfo.fileOffset + skipped data.seq s.fileInfo * s.fileInfo.oneFrameLen
      + data.fileData.length
    checkSumCRC := s.fileInfo.checkSumCRC + data.crc.toNat }
  content : s'.content =
    PosFile.pwrite 0 (skipFrames (skipped data.seq s.fileInfo) s.fileInfo s.content)
      (s.fileInfo.fileOffset + skipped data.seq s.fileInfo * s.fileInfo.oneFrameLen) data.fileData
  fileOffset_le : s'.fileInfo.fileOffset ≤ maxFileSize

/-- A frame of an earlier window is accepted. -/
structure AcceptedBefore (data : FileData) (s s' : WriteState) : Prop where
  lt_startSeq : data.seq < s.fileInfo.startSeq
  fileInfo : s'.fileInfo = { s.fileInfo with
    preSeqResult := s.fileInfo.preSeqResult ||| 1 <<< windowBit data.seq }
  content : s'.content = PosFile.pwrite 0 s.content
    ((data.seq - 1).toNat * s.fileInfo.oneFrameLen) data.fileData

theorem sameFile_processOneFrameCRC : s.fileInfo.SameFile (processOneFrameCRC env frameType data s).2.fileInfo := by
  unfold processOneFrameCRC
  dsimp only
  split
  · exact .refl _
  split
  · have hempty := sameFile_writeEmptyFrame env (data.seq - s.fileInfo.seq - 1).toInt32 s
    split
    · next s' hw =>
      rw [hw] at hempty
      split
      · exact hempty
      · refine .trans hempty (.trans ?_ (sameFile_writeFrameData ..))
        exact ⟨rfl, rfl, rfl, rfl, rfl⟩
    · next hw =>
      rw [hw] at hempty
      exact hempty
  · refine .trans ?_ (sameFile_writeFrameData ..)
    exact ⟨rfl, rfl, rfl, rfl, rfl⟩

/-- What an accepted frame does. -/
theorem processOneFrameCRC_ok (h : processOneFrameCRC env frameType data s = (.ok, s')) :
    AcceptedInWindow frameType data s s' ∨ AcceptedBefore data s s' := by
  unfold processOneFrameCRC at h
  dsimp only at h
  split at h
  · simp at h
  next hlt =>
  split at h
  · next hle =>
    left
    split at h
    · next s₁ hempty =>
      obtain ⟨hinfo, hcontent⟩ := writeEmptyFrame_ok hempty
      split at h
      · simp at h
      · next hloss =>
        obtain ⟨hcontent', hinfo', hsize⟩ := writeFrameData_true_ok h
        refine ⟨hle, UInt32.not_le.1 hlt, ?_, ?_, ?_, hsize⟩
        · rw [hinfo] at hloss
          simpa [frameLoss] using hloss
        · rw [hinfo', hinfo]
          rfl
        · rw [hcontent', hcontent, hinfo]
          rfl
    · simp at h
  · next hle =>
    right
    obtain ⟨hcontent, hinfo⟩ := writeFrameData_false_ok h
    exact ⟨UInt32.not_le.1 hle, hinfo, hcontent⟩

/-- A frame of the window is accepted when the window before is complete where it has to
    be and the file does not get too long. -/
theorem processOneFrameCRC_inWindow (hw : FullWrites env) (hle : s.fileInfo.startSeq ≤ data.seq) (hlt : data.seq < s.fileInfo.startSeq + 32)
    (hloss : frameLoss frameType data.seq s.fileInfo = false)
    (hlen : 0 < s.fileInfo.oneFrameLen ∧ s.fileInfo.oneFrameLen ≤ maxMallocSize)
    (hsize : s.fileInfo.fileOffset + skipped data.seq s.fileInfo * s.fileInfo.oneFrameLen + data.fileData.length ≤ maxFileSize) :
    ∃ s', processOneFrameCRC env frameType data s = (.ok, s') := by
  unfold processOneFrameCRC
  rw [if_neg (UInt32.not_le.2 hlt), if_pos hle]
  have hempty := writeEmptyFrame_full hw (data.seq - s.fileInfo.seq - 1).toInt32 hlen
  cases hskip : writeEmptyFrame env (data.seq - s.fileInfo.seq - 1).toInt32 s with
  | mk ret s₁ =>
    rw [hskip] at hempty
    obtain rfl : ret = .ok := hempty
    obtain ⟨hinfo, -⟩ := writeEmptyFrame_ok hskip
    dsimp only
    rw [if_neg]
    · refine ⟨_, Prod.ext (writeFrameData_full hw fun _ => ?_) rfl⟩
      rw [hinfo]
      exact hsize
    · rw [hinfo]
      simpa [frameLoss] using hloss

/-- A frame of an earlier window is always accepted. -/
theorem processOneFrameCRC_before (hw : FullWrites env) (hlt : data.seq < s.fileInfo.startSeq)
    (hlt' : data.seq < s.fileInfo.startSeq + 32) :
    ∃ s', processOneFrameCRC env frameType data s = (.ok, s') := by
  unfold processOneFrameCRC
  rw [if_neg (UInt32.not_le.2 hlt'), if_neg (UInt32.not_le.2 hlt)]
  exact ⟨_, Prod.ext (writeFrameData_full hw (by simp)) rfl⟩

theorem sameFile_processOneFrame (env : RecvEnv) (crc : Int32) (frameType : FrameType)
    (data : FileData) (s : WriteState) :
    s.fileInfo.SameFile (processOneFrame env crc frameType data s).2.fileInfo := by
  unfold processOneFrame
  split
  · exact .refl _
  split
  · exact sameFile_processOneFrameCRC
  · dsimp only
    split
    · exact ⟨rfl, rfl, rfl, rfl, rfl⟩
    · split <;> exact ⟨rfl, rfl, rfl, rfl, rfl⟩

theorem processOneFrame_crc_ok {crc : Int32} (hcrc : crc = appInfoFileFeaturesSupport)
    (h : processOneFrame env crc frameType data s = (.ok, s')) :
    AcceptedInWindow frameType data s s' ∨ AcceptedBefore data s s' := by
  unfold processOneFrame at h
  split at h
  · simp at h
  · exact processOneFrameCRC_ok h

end SoftBus.Native
