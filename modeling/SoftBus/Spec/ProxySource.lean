import Mathlib
import SoftBus.ForStd.Chunks
import SoftBus.Native.ProxyFileSend
import SoftBus.Spec.ProxyFrame

/-!
# The frames of a source file

In a session with checksums a file is sent in chunks of `crcFrameDataSize` bytes: chunk
`k` is data frame `k + 1`, behind the start frame with index 0.  The frame is the same
whether `FileToFrame` sends it or `RetransFileFrameBySeq` sends it again.
-/

namespace SoftBus.Native

section
variable (source : List UInt8)

/-- The number of data frames of a file. -/
def dataFrames : ℕ := Chunks.count crcFrameDataSize source

/-- The data of frame `k + 1`. -/
def frameData (k : ℕ) : List UInt8 := Chunks.chunk crcFrameDataSize source k

/-- Frame `k + 1`. -/
def dataFrame (k : ℕ) : FileFrame :=
  ⟨frameIndexToType (k + 1) (dataFrames source + 1), packCrcData (.ofNat (k + 1)) (frameData source k)⟩

def frameCrc (k : ℕ) : ℕ := (rtuCrc (frameData source k)).toNat

/-- The sum of the checksums of all frames. -/
def sourceSum : ℕ := ∑ k ∈ Finset.range (dataFrames source), frameCrc source k

/-- The frame that tells the receiver the sum. -/
def checkSumFrame : FileFrame :=
  ⟨.crcCheck, packFileCrcCheckSum (.ofNat (dataFrames source + 1)) (sourceSum source)⟩

end

variable {source : List UInt8}

theorem crcFrameDataSize_pos : 0 < crcFrameDataSize := by decide

/-- A file that may be sent has few frames. -/
theorem dataFrames_le (h : source.length ≤ maxFileSize) : dataFrames source ≤ 5473 := by
  have hmax : source.length ≤ 5242880 := h
  show (source.length + 958 - 1) / 958 ≤ 5473
  omega

theorem frameCrc_lt (source : List UInt8) (k : ℕ) : frameCrc source k < 2 ^ 16 := (rtuCrc _).toNat_lt

theorem sourceSum_lt (h : source.length ≤ maxFileSize) : sourceSum source < 256 ^ 8 := by
  have hle : sourceSum source ≤ dataFrames source * 2 ^ 16 := by
    have hsum := Finset.sum_le_card_nsmul (Finset.range (dataFrames source)) (frameCrc source) (2 ^ 16)
      fun k _ => (frameCrc_lt source k).le
    rw [Finset.card_range] at hsum
    exact hsum
  have hn := dataFrames_le h
  omega

theorem toNat_ofNat_frame (h : source.length ≤ maxFileSize) {k : ℕ} (hk : k < dataFrames source) :
    (UInt32.ofNat (k + 1)).toNat = k + 1 := by
  have hn := dataFrames_le h
  exact UInt32.toNat_ofNat_of_lt' (show k + 1 < 2 ^ 32 by omega)

/-- The frames of a file are numbered and carry their checksum. -/
theorem unpackFileDataFrame_dataFrame (beyond : ℕ → UInt8) {k : ℕ} (hk : k < dataFrames source) :
    unpackFileDataFrame appInfoFileFeaturesSupport beyond (dataFrame source k) =
      .ok ⟨.ofNat (k + 1), rtuCrc (frameData source k), frameData source k⟩ := by
  apply unpackFileDataFrame_packCrcData
  · exact Chunks.chunk_ne_nil crcFrameDataSize_pos hk
  · unfold frameData
    rw [Chunks.length_chunk]
    exact Nat.min_le_left _ _

theorem frameLength_dataFrame_le (k : ℕ) : (dataFrame source k).frameLength ≤ proxyMaxPacketSize := by
  have hlen : (dataFrame source k).frameLength = (frameData source k).length + 18 :=
    length_packCrcData
  have hle : (frameData source k).length ≤ 958 := by
    unfold frameData
    rw [Chunks.length_chunk]
    exact Nat.min_le_left _ _
  show _ ≤ 976
  omega

/-- The last frame of a file is marked. -/
theorem frameType_dataFrame_eq (k : ℕ) : (dataFrame source k).frameType =
      if k + 1 = dataFrames source then if k = 0 then .onlyone else .last else .ongoine := by
  show frameIndexToType (k + 1) (dataFrames source + 1) = _
  unfold frameIndexToType
  split
  · omega
  split
  · rw [if_pos (by omega), if_pos (by omega)]
  split
  · rw [if_pos (by omega), if_neg (by omega)]
  · rw [if_neg (by omega)]

/-- The frames of a file are data frames. -/
theorem frameType_dataFrame (source : List UInt8) (k : ℕ) :
    (dataFrame source k).frameType = .onlyone ∨ (dataFrame source k).frameType = .last ∨
      (dataFrame source k).frameType = .ongoine := by
  rw [frameType_dataFrame_eq]
  split
  · split
    · exact .inl rfl
    · exact .inr (.inl rfl)
  · exact .inr (.inr rfl)

end SoftBus.Native
