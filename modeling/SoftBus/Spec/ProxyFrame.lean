import Mathlib
import SoftBus.Native.ProxyFileFrame

/-!
# Packed frames are read back

Every frame that one side packs is unpacked by the other to what went in: data frames
with and without checksums, the sum of the checksums, results, acknowledgements and the
list of the files.
The start frame of a session without checksums is the exception: its name is read from
8 bytes behind its start.
-/

namespace SoftBus.Native
open List Bytes FileFrame
variable {frame : FileFrame} {rest before after fileData buffer : List UInt8} {n dataLen v off : ℕ} {names : List Path}
  {beyond : ℕ → UInt8} {seq : UInt32} {type : FrameType} {checkSumCRC : ℕ} {pastPath : List UInt8}

/-! ## Words -/

/-- The bytes of a part of a frame. -/
theorem load_data {mid : List UInt8} (h : frame.data = before ++ (mid ++ after))
    (hoff : off = before.length) (hn : n = mid.length) : load frame.data beyond off n = mid := by
  rw [h]
  exact load_append beyond hoff hn

/-- The word that was written at an offset. -/
theorem word_toLE (h : frame.data = before ++ (toLE n v ++ after))
    (hoff : off = before.length) (hv : v < 256 ^ n) : frame.word beyond off n = v := by
  rw [word, load_data h hoff (by simp), ofLE_toLE_of_lt hv]

@[simp] theorem length_packHead (dataLen : ℕ) : (packHead dataLen).length = frameHeadLen := by
  rfl

section
variable (beyond : ℕ → UInt8)

theorem word_magic (h : frame.data = packHead dataLen ++ rest) :
    frame.word beyond 0 4 = fileMagicNumber := by
  have h' : frame.data = [] ++ (toLE 4 fileMagicNumber ++ (toLE 8 dataLen ++ rest)) := by
    rw [h, packHead, append_assoc, nil_append]
  have hm : fileMagicNumber < 256 ^ 4 := by unfold fileMagicNumber; norm_num
  exact word_toLE h' rfl hm

theorem word_dataLen (h : frame.data = packHead dataLen ++ rest) (hlen : dataLen < 256 ^ 8) :
    frame.word beyond frameMagicOffset 8 = dataLen := by
  have h' : frame.data = toLE 4 fileMagicNumber ++ (toLE 8 dataLen ++ rest) := by
    rw [h, packHead, append_assoc]
  exact word_toLE h' (by rfl) hlen

/-- The word behind the head. -/
theorem word_head (h : frame.data = packHead dataLen ++ (toLE n v ++ rest))
    (hv : v < 256 ^ n) :
    frame.word beyond frameHeadLen n = v :=
  word_toLE h (length_packHead dataLen).symm hv

/-- The word behind the head and a sequence number. -/
theorem word_afterSeq {seq : List UInt8} (h : frame.data = packHead dataLen ++ (seq ++ (toLE n v ++ rest))) (hseq : seq.length = frameDataSeqOffset)
    (hv : v < 256 ^ n) :
    frame.word beyond (frameHeadLen + frameDataSeqOffset) n = v := by
  rw [← append_assoc] at h
  refine word_toLE h ?_ hv
  rw [length_append, length_packHead, hseq]

/-! ## Acknowledgements -/

theorem unpackAckReqAndResData_pack (type : FrameType)
    (startSeq value : UInt32) :
    unpackAckReqAndResData beyond ⟨type, packAckReqAndResData startSeq value⟩ =
      .ok ⟨startSeq, value⟩ := by
  generalize hframe : mk type (packAckReqAndResData startSeq value) = frame
  have hdata : frame.data = packHead 8 ++ (toLE 4 startSeq.toNat ++ (toLE 4 value.toNat ++ [])) := by
    rw [← hframe]
    rfl
  have hlen : frame.frameLength = 20 := by
    simp [frameLength, hdata, frameHeadLen, frameMagicOffset, frameLenOffset]
  unfold unpackAckReqAndResData
  rw [hlen, if_neg (by decide), word_magic beyond hdata, word_dataLen beyond hdata (by norm_num),
    if_neg (by decide), word_head beyond hdata startSeq.toNat_lt,
    word_afterSeq beyond hdata (length_toLE 4 _) value.toNat_lt]
  simp

/-! ## Results -/

theorem unpackFileTransResultFrame_pack (type : FrameType) (seq side : UInt32)
    (result : SoftBusErr) :
    unpackFileTransResultFrame beyond ⟨type, packFileTransResult seq result side⟩ =
      .ok ⟨seq, side, result.code⟩ := by
  generalize hframe : mk type (packFileTransResult seq result side) = frame
  have hdata : frame.data = packHead 12 ++ (toLE 4 seq.toNat ++
      (toLE 4 side.toNat ++ (toLE 4 result.code.toNat ++ []))) := by
    rw [← hframe]
    rfl
  have hdata' : frame.data = packHead 12 ++ ((toLE 4 seq.toNat ++
      toLE 4 side.toNat) ++ (toLE 4 result.code.toNat ++ [])) := by
    rw [hdata, append_assoc]
  have hresult : frame.word beyond (frameHeadLen + frameDataSeqOffset + 4) 4 = result.code.toNat := by
    rw [← append_assoc] at hdata'
    refine word_toLE hdata' ?_ result.code.toNat_lt
    simp [frameDataSeqOffset]
  have hlen : frame.frameLength = 24 := by
    simp [frameLength, hdata, frameHeadLen, frameMagicOffset, frameLenOffset]
  unfold unpackFileTransResultFrame
  rw [hlen, if_neg (by decide), word_magic beyond hdata, word_dataLen beyond hdata (by norm_num),
    if_neg (by decide), word_head beyond hdata seq.toNat_lt,
    word_afterSeq beyond hdata (length_toLE 4 _) side.toNat_lt, hresult]
  simp

end

/-! ## File data -/

theorem length_packCrcData : (packCrcData seq fileData).length = fileData.length + 18 := by
  simp only [packCrcData, length_append, length_packHead, length_toLE, frameHeadLen,
    frameMagicOffset, frameLenOffset]
  omega

/-- A data frame with its checksum. -/
theorem unpackFileDataFrame_packCrcData (hne : fileData ≠ []) (hmax : fileData.length ≤ crcFrameDataSize) :
    unpackFileDataFrame appInfoFileFeaturesSupport beyond ⟨type, packCrcData seq fileData⟩ =
      .ok ⟨seq, rtuCrc fileData, fileData⟩ := by
  have hmax' : fileData.length ≤ 958 := hmax
  generalize hframe : mk type (packCrcData seq fileData) = frame
  have hdata : frame.data = packHead (fileData.length + 4) ++ (toLE 4 seq.toNat ++
      (fileData ++ toLE 2 (rtuCrc fileData).toNat)) := by
    rw [← hframe]
    rfl
  have hfile : load frame.data beyond (frameHeadLen + frameDataSeqOffset)
      (fileData.length + 4 - frameDataSeqOffset) = fileData := by
    have hdata' := hdata
    rw [← append_assoc] at hdata'
    exact load_data hdata' (by simp [frameDataSeqOffset]) (by simp [frameDataSeqOffset])
  have hcrc : frame.word beyond (frameHeadLen + (fileData.length + 4)) 2 = (rtuCrc fileData).toNat := by
    have hdata' : frame.data = (packHead (fileData.length + 4) ++ (toLE 4 seq.toNat ++
        fileData)) ++ (toLE 2 (rtuCrc fileData).toNat ++ []) := by
      rw [hdata]
      simp only [append_assoc, append_nil]
    exact word_toLE hdata' (by simp [Nat.add_comm]) (rtuCrc fileData).toNat_lt
  have hlen : frame.frameLength = fileData.length + 18 := by
    rw [← hframe]
    exact length_packCrcData
  unfold unpackFileDataFrame
  rw [if_pos rfl, hlen, if_neg (by simp [frameHeadLen, frameMagicOffset, frameLenOffset,
    frameDataSeqOffset, frameCrcLen]; omega)]
  rw [word_magic beyond hdata, word_dataLen beyond hdata (by omega), if_neg, hfile, hcrc,
    word_head beyond hdata seq.toNat_lt]
  · simp
  · simp [frameHeadLen, frameMagicOffset, frameLenOffset, frameCrcLen]
    omega

/-! ## The sum of the checksums -/

/-- The sum of the sender is compared with the one of the receiver. -/
theorem unpackFileCrcCheckSum_pack (stackSeq : UInt32) {sum : ℕ} (hsum : sum < 256 ^ 8) :
    unpackFileCrcCheckSum appInfoFileFeaturesSupport checkSumCRC beyond stackSeq
        ⟨type, packFileCrcCheckSum seq sum⟩ = (if sum = checkSumCRC then .ok else .err, seq) := by
  generalize hframe : mk type (packFileCrcCheckSum seq sum) = frame
  have hdata : frame.data = packHead 12 ++ (toLE 4 seq.toNat ++ (toLE 8 sum ++ [])) := by
    rw [← hframe]
    rfl
  have hlen : frame.frameLength = 24 := by
    simp [frameLength, hdata, frameHeadLen, frameMagicOffset, frameLenOffset]
  unfold unpackFileCrcCheckSum
  rw [if_pos rfl, hlen, if_neg (by decide), word_magic beyond hdata,
    word_dataLen beyond hdata (by norm_num), if_neg (by decide)]
  rw [word_head beyond hdata seq.toNat_lt,
    word_afterSeq beyond hdata (length_toLE 4 _) hsum, UInt32.ofNat_toNat]
  by_cases heq : sum = checkSumCRC
  · rw [if_neg (by simpa using heq), if_pos heq]
  · rw [if_pos heq, if_neg heq]

/-! ## The start of a file -/

/-- A C string is what its bytes spell. -/
theorem cString_of_nonzero {name : Path} (h : 0 ∉ name) : cString name = name := by
  refine takeWhile_eq_self_iff.2 fun b hb => ?_
  simp only [ne_eq, decide_not, Bool.not_eq_true', decide_eq_false_iff_not]
  rintro rfl
  exact h hb

/-- The start frame of a session with checksums. -/
theorem unpackFileTransStartInfo_pack {channelId : Int32} {destFile : Path} {fileSize : ℕ} {data : List UInt8}
    (h : packFileTransStartInfo appInfoFileFeaturesSupport channelId destFile fileSize = some data)
    (hname : 0 ∉ destFile) (hshort : destFile.length < maxFilePathNameLen) (hsize : fileSize < 256 ^ 8) :
    unpackFileTransStartInfo appInfoFileFeaturesSupport beyond pastPath ⟨type, data⟩ =
      .ok { seq := 0, oneFrameLen := crcFrameDataSize, fileSize, startSeq := 1, preStartSeq := 1
            filePath := destFile } := by
  have hshort' : destFile.length < 512 := hshort
  unfold packFileTransStartInfo at h
  rw [if_pos rfl] at h
  dsimp only at h
  split at h
  · simp at h
  generalize hframe : mk type data = frame
  have hdata : frame.data = packHead (destFile.length + 12) ++ (toLE 4 crcFrameDataSize ++
      (toLE 8 fileSize ++ (destFile ++ replicate 8 0))) := by
    rw [← hframe, ← Option.some.inj h]
    rfl
  have hfile : load frame.data beyond (frameHeadLen + frameDataSeqOffset + 8)
      (destFile.length + 12 - frameDataSeqOffset - 8) = destFile := by
    have hdata' : frame.data = (packHead (destFile.length + 12) ++ (toLE 4 crcFrameDataSize ++
        toLE 8 fileSize)) ++ (destFile ++ replicate 8 0) := by
      rw [hdata]
      simp only [append_assoc]
    exact load_data hdata' (by simp [frameDataSeqOffset]) (by simp [frameDataSeqOffset])
  have hlen : frame.frameLength = destFile.length + 32 := by
    simp only [frameLength, hdata, length_append, length_packHead,
      length_toLE, length_replicate, frameHeadLen, frameMagicOffset, frameLenOffset]
    omega
  have hlong : ¬ destFile.length + 32 < frameHeadLen + frameDataSeqOffset := by
    show ¬ destFile.length + 32 < 16
    omega
  unfold unpackFileTransStartInfo
  rw [if_pos rfl, hlen, if_neg hlong]
  rw [word_magic beyond hdata, word_dataLen beyond hdata (by omega),
    if_neg (by simp [frameDataSeqOffset]), if_neg (by
      simp only [frameDataSeqOffset, maxFilePathNameLen]; omega),
    word_head beyond hdata (by decide), word_afterSeq beyond hdata (length_toLE 4 _) hsize,
    hfile, pathOfName, if_pos hshort, cString_of_nonzero hname]

/-- A start frame with checksums that holds all the data its head announces is read without
    looking at what lies behind it. -/
theorem unpackFileTransStartInfo_congr (beyond' : ℕ → UInt8)
    (h : frameHeadLen + frame.word beyond frameMagicOffset 8 ≤ frame.frameLength) :
    unpackFileTransStartInfo appInfoFileFeaturesSupport beyond' pastPath frame =
      unpackFileTransStartInfo appInfoFileFeaturesSupport beyond pastPath frame := by
  have hload {off n : ℕ} (hle : off + n ≤ frame.frameLength) :
      load frame.data beyond' off n = load frame.data beyond off n := by
    rw [load_eq _ hle, load_eq _ hle]
  have hword {off n : ℕ} (hle : off + n ≤ frame.frameLength) :
      frame.word beyond' off n = frame.word beyond off n := congrArg ofLE (hload hle)
  simp only [frameHeadLen, frameMagicOffset, frameLenOffset] at h
  simp only [unpackFileTransStartInfo, if_true, frameHeadLen, frameMagicOffset, frameLenOffset,
    frameDataSeqOffset, hword (show 0 + 4 ≤ _ by omega), hword (show 4 + 8 ≤ _ by omega)]
  -- the tests agree, and the last read is behind all of them
  refine ite_congr rfl (fun _ => rfl) fun _ => ite_congr rfl (fun _ => rfl) fun hbad =>
    ite_congr rfl (fun _ => rfl) fun _ => ?_
  rw [hword (by omega), hword (by omega), hload (by omega)]

section
variable (h : ∀ name ∈ names, name ≠ [] ∧ name.length ≤ maxFilePathNameLen)
include h

/-- The loop of `BufferToFileList` counts the names from `k` on that a list has. -/
theorem bufferToFileListLoop_items (k count : ℕ)
    (first : Path) :
    bufferToFileListLoop ((names.zipIdx k).flatMap fun item => fileListItem item.2 item.1) count
        first =
      some (if count = 0 then names.headD first else first, count + names.length) := by
  -- the loop takes one item off the buffer
  induction names generalizing k count first with
  | nil =>
    unfold bufferToFileListLoop
    simp
  | cons name names ih =>
    obtain ⟨hne, hlen⟩ := h name mem_cons_self
    have hpos := length_pos_iff.2 hne
    have hlen' : name.length ≤ 512 := hlen
    generalize hrest : (names.zipIdx (k + 1)).flatMap
      (fun item => fileListItem item.2 item.1) = rest
    have hbuf : ((name :: names).zipIdx k).flatMap (fun item => fileListItem item.2 item.1) =
        (toBE 4 k ++ toBE 4 name.length) ++ (name ++ rest) := by
      rw [zipIdx_cons, flatMap_cons, hrest]
      simp only [fileListItem, append_assoc]
    have hword : ((toBE 4 k ++ toBE 4 name.length) ++ (name ++ rest)).drop 4 =
        toBE 4 name.length ++ (name ++ rest) := by
      rw [append_assoc, drop_left' (length_toBE 4 k)]
    have hnames : ((toBE 4 k ++ toBE 4 name.length) ++ (name ++ rest)).drop
        fileListItemSize = name ++ rest := drop_left' (by simp [fileListItemSize])
    rw [hbuf]
    unfold bufferToFileListLoop
    rw [if_neg (by simp [fileListItemSize]; omega), hword,
      take_left' (length_toBE 4 _), ofBE_toBE_of_lt (by omega), hnames,
      if_neg (by simp only [length_append, maxFilePathNameLen]; omega), drop_left,
      take_left, ← hrest, ih fun n hn => h n (mem_cons_of_mem _ hn)]
    simp only [length_cons, headD_cons, Nat.succ_ne_zero, if_false]
    congr 2
    omega

/-- The receiver gets the first name and the number of names. -/
theorem bufferToFileList_fileListToBuffer (hne : names ≠ [])
    (hzero : 0 ∉ names.headD []) :
    ∃ buffer, fileListToBuffer names = some buffer ∧
      bufferToFileList buffer = some (names.headD [], names.length) := by
  have hloop := bufferToFileListLoop_items h 0 0 []
  have hbad : names.any (fun name => name.length = 0 ∨ name.length > maxFilePathNameLen) = false := by
    rw [any_eq_false]
    intro name hname
    have hlen := h name hname
    simpa using hlen
  have hbuf : fileListToBuffer names =
      some (names.zipIdx.flatMap fun item => fileListItem item.2 item.1) := by
    unfold fileListToBuffer
    rw [if_neg (by simpa using hne), hbad]
    rfl
  refine ⟨_, hbuf, ?_⟩
  -- a buffer with a name is longer than the head of its item
  have hlong : ¬ (names.zipIdx.flatMap fun item => fileListItem item.2 item.1).length <
      fileListItemSize := by
    cases names with
    | nil => exact absurd rfl hne
    | cons name names =>
      simp [zipIdx_cons, fileListItem, fileListItemSize]
      omega
  unfold bufferToFileList
  rw [if_neg hlong, hloop, if_pos rfl, Nat.zero_add, Option.map_some, cString_of_nonzero hzero]

end

/-- The loop reads inside the buffer only and ends. -/
theorem bufferToFileListAt_eq (hlen : buffer.length < 2 ^ 32) {fuel count : ℕ} {offset : UInt32}
    {firstFile : Path} (hfuel : buffer.length - offset.toNat < fuel) :
    bufferToFileListAt buffer fuel offset count firstFile =
      some (bufferToFileListLoop (buffer.drop offset.toNat) count firstFile) := by
  induction fuel generalizing offset count firstFile with
  | zero => omega
  | succ fuel ih =>
    unfold bufferToFileListAt bufferToFileListLoop
    -- the offset does not wrap while it is in the buffer
    have hadd : ∀ {a : UInt32} {n : ℕ}, a.toNat + n ≤ buffer.length → (a + .ofNat n).toNat = a.toNat + n := by
      intro a n h
      rw [UInt32.toNat_add, UInt32.toNat_ofNat_of_lt' (by simp [UInt32.size]; omega)]
      omega
    unfold fileListItemSize
    by_cases hlt : offset.toNat < buffer.length - 8
    · have hoff := hadd (a := offset) (n := 8) (by omega)
      rw [if_pos hlt, if_neg (by simp; omega)]
      simp only [readBytes, drop_drop, length_drop, hoff]
      rw [if_pos (by omega), Option.bind_eq_bind, Option.bind_some]
      generalize Bytes.ofBE _ = name
      by_cases hname : name > buffer.length - (offset.toNat + 8) ∨ name > maxFilePathNameLen
      · simp [hname]
      · have hnext := hadd (a := offset + .ofNat 8) (n := name) (by omega)
        rw [hoff] at hnext
        have hin : offset.toNat + 8 + name ≤ buffer.length := by omega
        have hless : buffer.length - (offset + .ofNat 8 + .ofNat name).toNat < fuel := by omega
        simp only [if_neg hname, if_pos hin, Option.bind_some]
        rw [← hnext]
        split <;> exact ih hless
    · rw [if_neg hlt, if_pos (by simp; omega)]
      rfl

/-- The list of names that the sender packs is read back, and every buffer is read inside its bounds and to an end. -/
theorem fileList_codec (h : ∀ name ∈ names, name ≠ [] ∧ name.length ≤ maxFilePathNameLen) (hne : names ≠ [])
    (hzero : 0 ∉ names.headD []) (hlen : buffer.length < 2 ^ 32) :
    (∃ packed, fileListToBuffer names = some packed ∧
      bufferToFileList packed = some (names.headD [], names.length)) ∧
    bufferToFileListAt buffer (buffer.length + 1) 0 0 [] = some (bufferToFileListLoop buffer 0 []) :=
  ⟨bufferToFileList_fileListToBuffer h hne hzero, bufferToFileListAt_eq hlen (Nat.lt_succ_of_le (Nat.sub_le ..))⟩

/-- A name, and a buffer with a length that is too large. -/
theorem fileList_codec_one : bufferToFileListAt [0, 0, 0, 0, 255, 255, 255, 255, 9] 10 0 0 [] = some none ∧
    ∃ packed, fileListToBuffer [[97]] = some packed ∧ bufferToFileList packed = some ([97], 1) :=
  have h := fileList_codec (show ∀ name ∈ [[97]], name ≠ [] ∧ name.length ≤ maxFilePathNameLen by simp; decide) (by simp)
    (by simp) (show [0, 0, 0, 0, 255, 255, 255, 255, 9].length < 2 ^ 32 by decide)
  ⟨h.2.trans (by decide +kernel), h.1⟩

end SoftBus.Native
