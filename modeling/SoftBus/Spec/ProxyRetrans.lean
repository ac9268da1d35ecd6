import SoftBus.Spec.ProxyLink
import SoftBus.Spec.ProxyReceiving

/-!
# Retransmission

A file is sent over a link that loses some of its data frames; the frames that the
receiver reports as missing are sent again.  The receiver does not add the checksum of a
frame that comes after its window to its sum, so the checksum frame is accepted only when
all lost frames have checksum 0.  Moreover the receiver gives the file up when the missing
frames of a window come too late.
-/

namespace SoftBus.Native
open List FileRecipientInfo Chunks Link
variable {handled : List (FileFrame × SoftBusErr)} {n index w a : ℕ} {s₁ s₂ : Link} {env : LinkEnv}
  {source data : List UInt8} {destFile : Path} {channelId : Int32} {recv : RecvWorld} {waitSeq : UInt32}

/-! ## The frames that the sender makes -/

/-- The sender of `source` after `i` data frames. -/
structure Sending (source : List UInt8) (i : ℕ) (info : SendListenerInfo) : Prop where
  reads : info.source = source
  fileSize : info.fileSize = source.length
  frameNum : info.frameNum = dataFrames source + 1
  crc : info.crc = appInfoFileFeaturesSupport
  seq : info.seq = .ofNat i
  checkSumCRC : info.checkSumCRC = ∑ k ∈ Finset.range i, frameCrc source k
  result : info.result = SoftBusErr.ok.code

/-- The length of the read for frame `k + 1`. -/
def readLength (source : List UInt8) (k : ℕ) : ℕ :=
  if source.length - crcFrameDataSize * k < crcFrameDataSize then
    source.length - crcFrameDataSize * k
  else crcFrameDataSize

/-- The sender with frame `i + 1` in its number and sum. -/
def nextInfo (source : List UInt8) (i : ℕ) (info : SendListenerInfo) : SendListenerInfo :=
  { info with seq := .ofNat (i + 1), checkSumCRC := info.checkSumCRC + frameCrc source i }

namespace Sending
variable {i : ℕ} {info : SendListenerInfo}

variable (h : Sending source i info)
include h

theorem pread_eq (k : ℕ) :
    info.pread (readLength source k) (crcFrameDataSize * k) = frameData source k := by
  unfold SendListenerInfo.pread frameData chunk readLength
  rw [h.reads]
  split
  · next hshort =>
    have hlen : (source.drop (crcFrameDataSize * k)).length < crcFrameDataSize := by
      rw [length_drop]
      exact hshort
    rw [take_of_length_le hlen.le, take_of_length_le (by rw [length_drop])]
  · rfl

/-- The next data frame. -/
theorem packReadFileData_eq (hi : i < dataFrames source) :
    packReadFileData (readLength source i) (crcFrameDataSize * i) info =
      some ((dataFrame source i).data, nextInfo source i info) := by
  have hne := chunk_ne_nil crcFrameDataSize_pos hi
  have hseq : info.seq + 1 = .ofNat (i + 1) := by
    rw [h.seq, UInt32.ofNat_add]
    rfl
  have hlen : ¬ (packCrcData (.ofNat (i + 1)) (frameData source i)).length > proxyMaxPacketSize :=
    not_lt.2 (frameLength_dataFrame_le i)
  unfold packReadFileData
  rw [h.pread_eq]
  rw [if_neg (by simpa [frameData] using hne), if_pos h.crc, hseq, if_neg hlen]
  rfl

theorem next : Sending source (i + 1) (nextInfo source i info) := by
  refine { h with seq := rfl, checkSumCRC := ?_ }
  rw [Finset.sum_range_succ, ← h.checkSumCRC]
  rfl

/-- Waiting does not change what is sent. -/
theorem wait (waitTimeoutCount : ℕ) : Sending source i { info with waitSeq, waitTimeoutCount } :=
  { h with }

end Sending

/-! ## The link -/

/-- What is lost of a file: data frames of full windows, but not the last frame. -/
structure LossyLink (env : LinkEnv) (source : List UInt8) : Prop where
  fullWrites : ∀ n, FullWrites (env.recv n)
  ipcSend : ∀ n, (env.recv n).ipcSend = .ok
  start : env.lost (.frame 0) = false
  window : ∀ k < dataFrames source, env.lost (.frame (k + 1)) = true →
    32 * (k / 32 + 1) ≤ dataFrames source ∧ k + 1 ≠ dataFrames source
  retrans : ∀ seq, env.lost (.retrans seq) = false
  ackRequest : ∀ seq, env.lost (.ackRequest seq) = false
  checkSum : env.lost .checkSum = false

/-- No checksum frame has been accepted. -/
def NoneAccepted (handled : List (FileFrame × SoftBusErr)) : Prop :=
  ∀ p ∈ handled, p.1.frameType = .crcCheck → p.2 ≠ .ok

theorem NoneAccepted.concat (h : NoneAccepted handled) {frame : FileFrame} {code : SoftBusErr}
    (hf : frame.frameType = .crcCheck → code ≠ .ok) :
    NoneAccepted (handled ++ [(frame, code)]) := by
  intro p hp
  rcases mem_append.1 hp with hp | hp
  · exact h p hp
  · rw [mem_singleton.1 hp]
    exact hf

theorem NoneAccepted.dataFrame (h : NoneAccepted handled) (source : List UInt8) (k : ℕ) (code : SoftBusErr) :
    NoneAccepted (handled ++ [(dataFrame source k, code)]) := by
  refine h.concat fun hc => ?_
  rcases frameType_dataFrame source k with ht | ht | ht <;> simp [ht] at hc

/-! ## Retransmission -/

/-- A transfer that goes on as `s`, except for what the receiver has got. -/
def Link.received (s : Link) (recv : RecvWorld) (handled : List (FileFrame × SoftBusErr)) : Link :=
  { s with recv, handled }

section
variable (hl : LossyLink env source) (hsize : source.length ≤ maxFileSize)

section Retrans
variable {i : ℕ} {pre : UInt32} {s : Link}

/-- The frames that are lost. -/
def LinkEnv.lostFrame (env : LinkEnv) (k : ℕ) : Bool := env.lost (.frame k)

include hl hsize in
/-- A frame of the window before is sent again. -/
theorem retransFileFrameBySeq_eq
    (hsend : Sending source n s.info) (hrecv : RecvAt source env.lostFrame env.peerSession i w pre s.recv)
    (hcheck : NoneAccepted s.handled) (hw : 32 * w ≤ dataFrames source) {k : ℕ} (hk : k < 32 * w) :
    ∃ recv handled, retransFileFrameBySeq env (UInt32.ofNat (k + 1)).toInt32 s =
        (.ok, s.received recv handled) ∧
      RecvAt source env.lostFrame env.peerSession i w (pre ||| 1 <<< windowBit (.ofNat (k + 1)))
        recv ∧ NoneAccepted handled := by
  have hkn : k < dataFrames source := by omega
  have hn := dataFrames_le hsize
  have hof := toNat_ofNat_frame hsize hkn
  have hint : (UInt32.ofNat (k + 1)).toInt32.toInt = (k + 1 : ℕ) := by
    rw [UInt32.toInt_toInt32_of_lt (by omega), hof]
  have hpos : ¬ (UInt32.ofNat (k + 1)).toInt32 ≤ 0 := by
    rw [Int32.le_iff_toInt_le, Int32.toInt_zero]
    omega
  have hone : (1 : UInt32) ≤ .ofNat (k + 1) := by
    rw [UInt32.le_iff_toNat_le, hof]
    exact Nat.le_add_left 1 k
  have hoff : crcFrameDataSize * (UInt32.ofNat (k + 1) - 1).toNat = crcFrameDataSize * k := by
    rw [UInt32.toNat_sub_of_le _ _ hone, hof]
    rfl
  have hlt : ¬ crcFrameDataSize * k ≥ source.length := not_le.2 ((lt_count crcFrameDataSize_pos).1 hkn)
  obtain ⟨recv, hproc, hat, hsent⟩ := hrecv.retrans env.peerChannel hsize
    (hl.fullWrites s.handled.length) hw hk
  have hpack : packReadFileRetransData env (UInt32.ofNat (k + 1)).toInt32 (readLength source k)
      (crcFrameDataSize * k) s =
      (.ok, s.send env (.retrans (.ofNat (k + 1))) (dataFrame source k)) := by
    have hne := chunk_ne_nil crcFrameDataSize_pos hkn
    have hlen : ¬ (packCrcData (.ofNat (k + 1)) (frameData source k)).length > proxyMaxPacketSize :=
      not_lt.2 (frameLength_dataFrame_le k)
    unfold packReadFileRetransData
    rw [hsend.pread_eq, UInt32.toUInt32_toInt32, hint, hsend.frameNum]
    rw [if_neg (by simpa [frameData] using hne), if_neg hlen]
    rfl
  have hsent' := send_eq (hl.retrans (.ofNat (k + 1))) hproc
  rw [hsent, append_nil] at hsent'
  refine ⟨recv, s.handled ++ [(dataFrame source k, .ok)], ?_, hat, hcheck.dataFrame source k _⟩
  unfold retransFileFrameBySeq
  rw [if_neg (not_not.2 hsend.crc), if_neg hpos]
  dsimp only
  rw [UInt32.toUInt32_toInt32, hoff, hsend.fileSize, if_neg hlt]
  rw [show ite _ _ _ = readLength source k from rfl, hpack, hsent']
  rfl

section
variable (hsend : Sending source n s.info)
  (hrecv : RecvAt source env.lostFrame env.peerSession i (w + 1) pre s.recv)
  (hcheck : NoneAccepted s.handled) (hw : 32 * (w + 1) ≤ dataFrames source)
include hl hsize hsend hrecv hcheck hw

/-- All frames that are not in the report are sent again. -/
theorem ackResponseLoop_eq (resData : AckResponseData)
    (hstart : resData.startSeq = .ofNat (32 * w + 1)) (bits : List ℕ) (hbits : ∀ b ∈ bits, b < 32) :
    ∃ recv handled pre', ackResponseLoop env resData bits s = (.ok, s.received recv handled) ∧
      RecvAt source env.lostFrame env.peerSession i (w + 1) pre' recv ∧ NoneAccepted handled ∧
      (∀ b < 32, pre.toNat.testBit b = true → pre'.toNat.testBit b = true) ∧
      ∀ b ∈ bits, resData.seqResult.toNat.testBit b = false → pre'.toNat.testBit b = true := by
  induction bits generalizing s pre with
  | nil => exact ⟨s.recv, s.handled, pre, rfl, hrecv, hcheck, fun _ _ h => h, by simp⟩
  | cons b bits ih =>
    have hb := hbits b mem_cons_self
    have hbits' : ∀ b ∈ bits, b < 32 := fun b hb => hbits b (mem_cons_of_mem _ hb)
    unfold ackResponseLoop
    have hbit : (resData.seqResult >>> UInt32.ofNat b) &&& 1 = 1 ↔
        resData.seqResult.toNat.testBit b = true := UInt32.shiftRight_and_one_iff hb
    by_cases hset : resData.seqResult.toNat.testBit b = true
    · rw [if_pos (hbit.2 hset)]
      obtain ⟨recv, handled, pre', heq, hat, hcheck', hmono, hdone⟩ := ih hsend hrecv hcheck hbits'
      refine ⟨recv, handled, pre', heq, hat, hcheck', hmono, fun b' hb' hclear => ?_⟩
      rcases mem_cons.1 hb' with rfl | hb'
      · simp [hset] at hclear
      · exact hdone b' hb' hclear
    · -- the frame is missing
      rw [if_neg (fun h => hset (hbit.1 h))]
      have hseq : resData.startSeq + UInt32.ofNat b = .ofNat (32 * w + b + 1) := by
        rw [hstart, ← UInt32.ofNat_add]
        congr 1
        omega
      dsimp only
      rw [hseq]
      obtain ⟨recv, handled, heq, hat, hcheck'⟩ := retransFileFrameBySeq_eq hl hsize hsend hrecv
        hcheck hw (k := 32 * w + b) (by omega)
      rw [heq]
      obtain ⟨recv', handled', pre', heq', hat', hcheck'', hmono, hdone⟩ :=
        ih (s := s.received recv handled) hsend hat hcheck' hbits'
      have hmod : (UInt32.ofNat (32 * w + b + 1)).toNat = 32 * w + b + 1 :=
        toNat_ofNat_frame hsize (by omega)
      refine ⟨recv', handled', pre', heq', hat', hcheck'', fun b' hb' hset' => ?_,
        fun b' hb' hclear => ?_⟩
      · apply hmono b' hb'
        rw [testBit_retrans _ hb', hset', Bool.true_or]
      · rcases mem_cons.1 hb' with rfl | hb'
        · apply hmono b' hb
          rw [testBit_retrans _ hb, decide_eq_true (by omega), Bool.or_true]
        · exact hdone b' hb' hclear

/-- After the missing frames have been sent again the window is complete. -/
theorem ackResponseDataHandle_eq :
    ∃ recv handled pre', ackResponseDataHandle env (some ⟨.ofNat (32 * w + 1), pre⟩) s =
        (.ok, s.received recv handled) ∧
      RecvAt source env.lostFrame env.peerSession i (w + 1) pre' recv ∧ NoneAccepted handled ∧
      PreFull pre' := by
  unfold ackResponseDataHandle
  dsimp only
  by_cases hfull : pre = fileSendAckResultSuccess
  · rw [if_neg (not_not.2 hfull)]
    exact ⟨s.recv, s.handled, pre, rfl, hrecv, hcheck, hfull⟩
  · rw [if_pos hfull]
    obtain ⟨recv, handled, pre', heq, hat, hcheck', hmono, hdone⟩ := ackResponseLoop_eq hl hsize hsend
      hrecv hcheck hw ⟨.ofNat (32 * w + 1), pre⟩ rfl (range fileSendAckInterval)
      fun b hb => mem_range.1 hb
    refine ⟨recv, handled, pre', heq, hat, hcheck', preFull_iff.2 fun b hb => ?_⟩
    by_cases hset : pre.toNat.testBit b = true
    · exact hmono b hb hset
    · exact hdone b (mem_range.2 hb) (Bool.not_eq_true _ ▸ hset)

end
end Retrans

/-! ## Waiting for an acknowledgement -/

/-- Nothing is under way to the sender. -/
structure Link.Quiet (s : Link) : Prop where
  pending : s.pending = []
  replies : s.replies = []
  waitSeq : s.info.waitSeq = 0

/-- The answer for window `w` is under way, and the sender has waited `count` frames for it. -/
structure Link.Waiting (w : ℕ) (report : UInt32) (count : ℕ) (s : Link) : Prop where
  pending : s.pending = [⟨.ofNat (32 * (w + 1)), false, none⟩]
  replies : s.replies = [⟨.ackResponseSent, packAckReqAndResData (.ofNat (32 * w + 1)) report⟩]
  waitSeq : s.info.waitSeq = .ofNat (32 * (w + 1))
  waitTimeoutCount : s.info.waitTimeoutCount = count

/-- The sender has made `n` data frames and the receiver has seen the first `i` of them. -/
structure LinkAt (env : LinkEnv) (source : List UInt8) (n i w : ℕ) (pre : UInt32) (s : Link) :
    Prop where
  sending : Sending source n s.info
  recv : RecvAt source env.lostFrame env.peerSession i w pre s.recv
  noneAccepted : NoneAccepted s.handled

section Rear
variable {i count : ℕ} {pre : UInt32} {s : Link}

/-- Without a request there is nothing to wait for. -/
theorem Link.Quiet.rear (h : s.Quiet) {frameType : FrameType} (hf : frameType ≠ .first) :
    sendOneFrameRear env frameType s = (.ok, s) := by
  unfold sendOneFrameRear
  split
  · rfl
  split
  · rfl
  · rw [if_pos h.waitSeq]

include hsize in
theorem ofNat_window_ne_zero (hw : 32 * (w + 1) ≤ dataFrames source) : UInt32.ofNat (32 * (w + 1)) ≠ 0 := by
  have hn := dataFrames_le hsize
  rw [← UInt32.toNat_inj.ne, UInt32.toNat_ofNat_of_lt' (show 32 * (w + 1) < 2 ^ 32 by omega)]
  show 32 * (w + 1) ≠ 0
  omega

include hl hsize in
/-- The answer arrives, and the missing frames are sent again. -/
theorem rear_answered
    (h : LinkAt env source n i (w + 1) pre s) (hwait : s.Waiting w pre count) (hw : 32 * (w + 1) ≤ dataFrames source)
    {frameType : FrameType} (hf : frameType = .ongoine ∨ frameType = .last) (harrives : env.arrives index = true) :
    ∃ s' pre', sendOneFrameRear env frameType (s.poll env index) = (.ok, s') ∧
      LinkAt env source n i (w + 1) pre' s' ∧ s'.Quiet ∧ PreFull pre' := by
  have hunpack := unpackAckReqAndResData_pack env.beyond .ackResponseSent (.ofNat (32 * w + 1)) pre
  have hpoll : s.poll env index = { s with
      replies := []
      pending := [⟨.ofNat (32 * (w + 1)), true, some ⟨.ofNat (32 * w + 1), pre⟩⟩] } := by
    unfold poll
    rw [if_pos harrives, hwait.replies]
    have hlen : (FileFrame.mk .ackResponseSent
        (packAckReqAndResData (.ofNat (32 * w + 1)) pre)).frameLength ≠ 0 := by
      simp [FileFrame.frameLength, packAckReqAndResData, frameHeadLen]
    simp only [foldl_cons, foldl_nil, processReply, processFileAckResponse, if_neg hlen,
      hunpack, setPendingPacketData, hwait.pending, hwait.waitSeq, map_cons, map_nil,
      if_true, Option.some_or]
  have hne := ofNat_window_ne_zero hsize hw
  have hcrc : (s.poll env index).info.crc = appInfoFileFeaturesSupport := by
    rw [hpoll]
    exact h.sending.crc
  have hget : getPendingPacketData (s.poll env index).info.waitSeq false (s.poll env index) =
      (.ok, some ⟨.ofNat (32 * w + 1), pre⟩, { s with replies := [], pending := [] }) := by
    rw [hpoll]
    simp [getPendingPacketData, deletePendingPacket, hwait.waitSeq]
  obtain ⟨recv, handled, pre', hhandle, hat, hcheck, hfull⟩ :=
    ackResponseDataHandle_eq (s := { s with replies := [], pending := [] }) hl hsize h.sending h.recv
      h.noneAccepted hw
  refine ⟨(received { s with replies := [], pending := [] } recv handled).stopWaiting, pre', ?_,
    ⟨h.sending.wait 0, hat, hcheck⟩, ⟨rfl, rfl, rfl⟩, hfull⟩
  unfold sendOneFrameRear
  rw [if_neg (not_not.2 hcrc), if_neg (by rcases hf with rfl | rfl <;> simp),
    if_neg (by rcases hf with rfl | rfl <;> simp), if_neg (by rw [hpoll, hwait.waitSeq]; exact hne),
    hget]
  dsimp only
  rw [hhandle]

include hsize in
/-- The answer does not arrive. -/
theorem rear_unanswered (h : LinkAt env source n i (w + 1) pre s)
    (hwait : s.Waiting w pre count) (hw : 32 * (w + 1) ≤ dataFrames source) {frameType : FrameType}
    (hf : frameType = .ongoine ∨ frameType = .last) (harrives : env.arrives index = false) :
    ∃ s', sendOneFrameRear env frameType (s.poll env index) =
        (if frameType ≠ .last ∧ count + 1 ≤ waitFrameAckTimeoutCount then .ok else .err, s') ∧
      NoneAccepted s'.handled ∧
      (frameType ≠ .last ∧ count + 1 ≤ waitFrameAckTimeoutCount →
        LinkAt env source n i (w + 1) pre s' ∧ s'.Waiting w pre (count + 1)) := by
  have hpoll : s.poll env index = s := by
    unfold poll
    rw [harrives]
    rfl
  have hne := ofNat_window_ne_zero hsize hw
  have hget : getPendingPacketData s.info.waitSeq false s = (.timout, none, s) := by
    simp [getPendingPacketData, hwait.pending, hwait.waitSeq]
  rw [hpoll]
  unfold sendOneFrameRear
  rw [if_neg (not_not.2 h.sending.crc), if_neg (by rcases hf with rfl | rfl <;> simp),
    if_neg (by rcases hf with rfl | rfl <;> simp), if_neg (by rw [hwait.waitSeq]; exact hne), hget]
  dsimp only
  rw [hwait.waitTimeoutCount]
  split
  · next hgo =>
    refine ⟨_, rfl, h.noneAccepted, fun _ => ⟨⟨?_, h.recv, h.noneAccepted⟩, hwait.pending, hwait.replies,
      hwait.waitSeq, rfl⟩⟩
    exact { h.sending with }
  · next hstop => exact ⟨_, rfl, h.noneAccepted, fun hgo => absurd hgo hstop⟩

end Rear

/-! ## A transfer that has failed -/

/-- Only a start frame brings a file back that the receiver has given up. -/
theorem Link.keeps_gone (env : LinkEnv) :
    Link.Keeps env false fun s => Gone env.peerSession s.recv where
  same h hsame := hsame.recv ▸ h
  send := by
    intro s h t frame hf _
    unfold send
    split
    · exact h
    · show Gone env.peerSession (processRecvFileFrameData _ _ _ frame s.recv).2
      rw [h.frame_eq (by simpa using hf)]
      exact h

/-- The receiver has given the file up. -/
structure Link.Dead (env : LinkEnv) (s : Link) : Prop where
  gone : Gone env.peerSession s.recv
  noneAccepted : NoneAccepted s.handled

/-- Nothing that the sender does for the file brings it back. -/
theorem Link.keeps_dead (env : LinkEnv) : Link.Keeps env false (Link.Dead env) where
  same h hsame := ⟨hsame.recv ▸ h.gone, hsame.handled ▸ h.noneAccepted⟩
  send := by
    intro s h t frame hf hlist
    refine ⟨(keeps_gone env).send h.gone t hf hlist, ?_⟩
    unfold send
    split
    · exact h.noneAccepted
    · exact h.noneAccepted.concat h.gone.checkSum_ne_ok

/-! ## One frame -/

section Step
variable {i : ℕ} {pre : UInt32} {s : Link}
include hl hsize in
/-- The next frame reaches the receiver or is lost. -/
theorem LinkAt.send (h : LinkAt env source n i w pre s) (hi : i < dataFrames source) (hlo : 32 * w ≤ i)
    (hhi : i < 32 * w + 32)
    (hpre : env.lostFrame (i + 1) = false →
      PreFull pre ∨ w = 0 ∨ i + 1 < min (32 * w + 24) (dataFrames source)) :
    ∃ recv handled, s.send env (.frame (i + 1)) (dataFrame source i) = s.received recv handled ∧
      LinkAt env source n (i + 1) w pre (s.received recv handled) := by
  cases hlost : env.lostFrame (i + 1) with
  | true =>
    refine ⟨s.recv, s.handled, ?_, h.sending, h.recv.lose hlost, h.noneAccepted⟩
    unfold Link.send
    rw [show env.lost (.frame (i + 1)) = true from hlost]
    rfl
  | false =>
    obtain ⟨recv, hproc, hat, hsent⟩ := h.recv.deliver env.peerChannel hsize hi hlo hhi
      (hl.fullWrites s.handled.length) hlost (hpre hlost)
    have hsend := send_eq hlost hproc
    rw [hsent, append_nil] at hsend
    exact ⟨recv, _, hsend, h.sending, hat, h.noneAccepted.dataFrame source i _⟩

include hsize in
/-- The next frame comes too late. -/
theorem LinkAt.send_late (h : LinkAt env source n i w pre s)
    (hi : i < dataFrames source) (hlo : 32 * w ≤ i) (hhi : i < 32 * w + 32)
    (hkept : env.lostFrame (i + 1) = false) (hpre : ¬ PreFull pre) (hw : 1 ≤ w)
    (hlate : min (32 * w + 24) (dataFrames source) ≤ i + 1) :
    (s.send env (.frame (i + 1)) (dataFrame source i)).Dead env := by
  rw [send_eq hkept rfl]
  exact ⟨h.recv.giveUp env.peerChannel hsize hi hlo hhi hpre hw hlate, h.noneAccepted.dataFrame source i _⟩

include hsize in
/-- Frames that do not end a window are not acknowledged, and the last frame of the file
    is not either. -/
theorem middle_none (hi : i < dataFrames source)
    (h : Sending source (i + 1) s.info) (hno : (i + 1) % 32 ≠ 0 ∨ i + 1 = dataFrames source) :
    sendOneFrameMiddle env (dataFrame source i).frameType s = (.ok, s) := by
  unfold sendOneFrameMiddle
  rw [if_neg (not_not.2 h.crc), frameType_dataFrame_eq]
  by_cases hlast : i + 1 = dataFrames source
  · rw [if_pos hlast]
    split <;> simp
  · have hmod : s.info.seq % 32 ≠ 0 := by
      have hseq := toNat_ofNat_frame hsize hi
      rw [h.seq, ← UInt32.toNat_inj.ne, UInt32.toNat_mod, hseq]
      exact hno.resolve_right hlast
    rw [if_neg hlast, if_pos rfl]
    rw [if_pos hmod]

/-- The sender as it asks for an acknowledgement. -/
def Link.requesting (s : Link) (seq : UInt32) : Link :=
  { s with
    pending := [⟨seq, false, none⟩]
    info := { s.info with waitSeq := seq, waitTimeoutCount := 0 } }

include hl hsize in
/-- The request at the end of a window. -/
theorem middle_request (hw : 32 * (w + 1) < dataFrames source)
    (h : LinkAt env source (32 * (w + 1)) (32 * (w + 1)) w pre s) (hquiet : s.Quiet) :
    ∃ s' report, sendOneFrameMiddle env .ongoine s = (.ok, s') ∧ Report env.lostFrame w report ∧
      LinkAt env source (32 * (w + 1)) (32 * (w + 1)) (w + 1) report s' ∧ s'.Waiting w report 0 := by
  have hn := dataFrames_le hsize
  have hseq : (UInt32.ofNat (32 * (w + 1))).toNat = 32 * (w + 1) :=
    UInt32.toNat_ofNat_of_lt' (show 32 * (w + 1) < 2 ^ 32 by omega)
  have hstart : UInt32.ofNat (32 * (w + 1)) - 32 + 1 = .ofNat (32 * w + 1) := by
    rw [show 32 * (w + 1) = 32 * w + 32 by omega, UInt32.ofNat_add, UInt32.ofNat_add,
      show UInt32.ofNat 32 = 32 from rfl, UInt32.add_sub_cancel]
    rfl
  have hstart' : (UInt32.ofNat (32 * w + 1)).toNat = 32 * w + 1 :=
    UInt32.toNat_ofNat_of_lt' (show 32 * w + 1 < 2 ^ 32 by omega)
  have hmod : ¬ s.info.seq % 32 ≠ 0 := by
    rw [not_not, h.sending.seq, ← UInt32.toNat_inj, UInt32.toNat_mod, hseq]
    exact Nat.mul_mod_right 32 (w + 1)
  have hpending : createPendingPacket s.info.seq s =
      (.ok, { s with pending := [⟨s.info.seq, false, none⟩] }) := by
    unfold createPendingPacket
    rw [hquiet.pending]
    rfl
  obtain ⟨report, recv, hreport, hproc, hat, hsent⟩ := h.recv.acknowledge env.peerChannel hsize hw.le
    hstart'
  have hsend := send_eq (s := s.requesting (.ofNat (32 * (w + 1))))
    (hl.ackRequest (.ofNat (32 * (w + 1)))) hproc
  have hmiddle : sendOneFrameMiddle env .ongoine s = (.ok,
      (s.requesting (.ofNat (32 * (w + 1)))).send env (.ackRequest (.ofNat (32 * (w + 1))))
        ⟨.ackRequestSent, packAckReqAndResData (.ofNat (32 * w + 1)) (.ofNat (32 * (w + 1)))⟩) := by
    unfold sendOneFrameMiddle
    rw [if_neg (not_not.2 h.sending.crc)]
    rw [if_neg hmod, hpending]
    show (SoftBusErr.ok, (s.requesting s.info.seq).send env _ _) = _
    rw [h.sending.seq, hstart]
  rw [hsend] at hmiddle
  refine ⟨_, report, hmiddle, hreport, ⟨h.sending.wait 0, hat, ?_⟩, ?_⟩
  · exact h.noneAccepted.concat fun hc => by simp at hc
  · refine ⟨rfl, ?_, rfl, rfl⟩
    show s.replies ++ sentFrames (recv.trace.drop s.recv.trace.length) = _
    rw [hquiet.replies, hsent]
    rfl

theorem dataFrame_ne_first (source : List UInt8) (i : ℕ) : (dataFrame source i).frameType ≠ .first :=
  frameIndexToType_ne_first (n := i + 1) (by omega)

theorem front_dataFrame : sendOneFrameFront (dataFrame source i).frameType s = (.ok, s) := by
  have hne := dataFrame_ne_first source i
  unfold sendOneFrameFront
  split
  · rfl
  · rfl

/-- A data frame is sent, then perhaps a request; then the sender waits. -/
theorem sendOneFrame_ok
    (hmid : sendOneFrameMiddle env (dataFrame source i).frameType (s.send env (.frame (i + 1)) (dataFrame source i)) = (.ok, s₁))
    (hrear : sendOneFrameRear env (dataFrame source i).frameType (s₁.poll env (i + 1)) = (.ok, s₂))
    (hresult : s₂.info.result = SoftBusErr.ok.code) :
    sendOneFrame env (i + 1) (dataFrame source i) s = (.ok, s₂) := by
  unfold sendOneFrame
  rw [front_dataFrame]
  dsimp only
  rw [hmid]
  dsimp only
  rw [hrear]
  dsimp only
  rw [if_neg (not_not.2 hresult)]

theorem sendOneFrame_err
    (hmid : sendOneFrameMiddle env (dataFrame source i).frameType (s.send env (.frame (i + 1)) (dataFrame source i)) = (.ok, s₁))
    (hrear : sendOneFrameRear env (dataFrame source i).frameType (s₁.poll env (i + 1)) = (.err, s₂)) :
    sendOneFrame env (i + 1) (dataFrame source i) s = (.err, s₂) := by
  unfold sendOneFrame
  rw [front_dataFrame]
  dsimp only
  rw [hmid]
  dsimp only
  rw [hrear]

/-- The last frame with which the answer for window `w` may come. -/
def deadline (source : List UInt8) (w : ℕ) : ℕ := min (32 * (w + 1) + 24) (dataFrames source)

/-- After frame `i` the sender waits for nothing. -/
structure QuietAt (env : LinkEnv) (source : List UInt8) (i : ℕ) (s : Link) : Prop where
  quiet : s.Quiet
  linkAt : ∃ pre, LinkAt env source i i (min i (dataFrames source - 1) / 32) pre s ∧
    (min i (dataFrames source - 1) / 32 = 0 ∨ PreFull pre)

/-- After frame `i` the sender waits for the answer for window `w`. -/
structure WaitingAt (env : LinkEnv) (source : List UInt8) (i w : ℕ) (s : Link) : Prop where
  le : 32 * (w + 1) ≤ i
  lt : i < deadline source w
  linkAt : ∃ report, Report env.lostFrame w report ∧ LinkAt env source i i (w + 1) report s ∧
    s.Waiting w report (i - 32 * (w + 1) + 1)

/-- The link when the sender has made the next frame. -/
def Link.next (source : List UInt8) (i : ℕ) (s : Link) : Link :=
  { s with info := nextInfo source i s.info }

theorem LinkAt.next (h : LinkAt env source i i w pre s) :
    LinkAt env source (i + 1) i w pre (s.next source i) :=
  ⟨h.sending.next, h.recv, h.noneAccepted⟩

include hl hsize in
theorem QuietAt.step (h : QuietAt env source i s) (hi : i < dataFrames source) :
    ∃ s', sendOneFrame env (i + 1) (dataFrame source i) (s.next source i) = (.ok, s') ∧
      if (i + 1) % 32 = 0 ∧ i + 1 < dataFrames source ∧ env.arrives (i + 1) = false then
        WaitingAt env source (i + 1) (i / 32) s'
      else QuietAt env source (i + 1) s' := by
  obtain ⟨pre, hat, hpre⟩ := h.linkAt
  rw [Nat.min_eq_left (by omega)] at hat hpre
  obtain ⟨recv, handled, hsend, hat'⟩ := hat.next.send hl hsize hi (by omega) (by omega)
    fun _ => hpre.elim (.inr ∘ .inl) .inl
  have hquiet : ((s.next source i).received recv handled).Quiet :=
    ⟨h.quiet.pending, h.quiet.replies, h.quiet.waitSeq⟩
  have htype := dataFrame_ne_first source i
  by_cases hreq : (i + 1) % 32 = 0 ∧ i + 1 < dataFrames source
  · -- the window ends
    have hw : 32 * (i / 32 + 1) = i + 1 := by omega
    have hongoine : (dataFrame source i).frameType = .ongoine := by
      rw [frameType_dataFrame_eq, if_neg (by omega)]
    obtain ⟨s₁, report, hmid, hreport, hat₁, hwait⟩ := middle_request hl hsize (by omega)
      (hw.symm ▸ hat') hquiet
    rw [← hongoine, ← hsend] at hmid
    rw [hw] at hat₁
    cases harrives : env.arrives (i + 1) with
    | true =>
      obtain ⟨s₂, pre₂, hrear, hat₂, hquiet₂, hfull⟩ := rear_answered hl hsize hat₁ hwait (by omega)
        (.inl hongoine) harrives
      refine ⟨s₂, sendOneFrame_ok hmid hrear hat₂.sending.result, ?_⟩
      rw [if_neg (by simp)]
      have hdiv : min (i + 1) (dataFrames source - 1) / 32 = i / 32 + 1 := by omega
      exact ⟨hquiet₂, pre₂, hdiv ▸ hat₂, .inr hfull⟩
    | false =>
      obtain ⟨s₂, hrear, -, hgo⟩ := rear_unanswered hsize hat₁ hwait (by omega) (.inl hongoine) harrives
      have hcount : (dataFrame source i).frameType ≠ .last ∧ 0 + 1 ≤ waitFrameAckTimeoutCount :=
        ⟨by simp [hongoine], by decide⟩
      rw [if_pos hcount] at hrear
      obtain ⟨hat₂, hwait₂⟩ := hgo hcount
      refine ⟨s₂, sendOneFrame_ok hmid hrear hat₂.sending.result, ?_⟩
      rw [if_pos ⟨hreq.1, hreq.2, rfl⟩]
      refine ⟨by omega, ?_, report, hreport, hat₂, ?_⟩
      · unfold deadline
        omega
      · rw [hw, Nat.sub_self]
        exact hwait₂
  · -- nothing is asked
    have hmid : sendOneFrameMiddle env (dataFrame source i).frameType
        ((s.next source i).send env (.frame (i + 1)) (dataFrame source i)) =
        (.ok, (s.next source i).received recv handled) := by
      rw [hsend]
      exact middle_none hsize hi hat'.sending (by omega)
    refine ⟨_, sendOneFrame_ok hmid (by rw [poll_eq_self _ _ hquiet.replies]; exact hquiet.rear htype)
      hat'.sending.result, ?_⟩
    rw [if_neg fun hwait => hreq ⟨hwait.1, hwait.2.1⟩]
    have hdiv : min (i + 1) (dataFrames source - 1) / 32 = i / 32 := by omega
    refine ⟨hquiet, pre, ?_, ?_⟩
    · rw [hdiv]
      exact hat'
    · rw [hdiv]
      exact hpre

/-- Window `w` is reported complete: no frame of it is lost, or the last frame of the
    window before is not. -/
def ReportedFull (env : LinkEnv) (w : ℕ) : Prop :=
  (1 ≤ w ∧ env.lostFrame (32 * w) = false) ∨ ∀ b < 32, env.lostFrame (32 * w + 1 + b) = false

/-- The next frame is the last with which the answer may come, and it reaches the receiver
    before the missing frames do. -/
def TooLate (env : LinkEnv) (source : List UInt8) (i w : ℕ) : Prop :=
  i = deadline source w ∧ env.lostFrame i = false ∧ ¬ ReportedFull env w

section
variable (h : WaitingAt env source i w s)
include h

include hsize in
theorem WaitingAt.late (hlate : TooLate env source (i + 1) w) :
    (sendOneFrame env (i + 1) (dataFrame source i) (s.next source i)).2.Dead env := by
  obtain ⟨report, hreport, hat, -⟩ := h.linkAt
  obtain ⟨hdead, hkept, hfull⟩ := hlate
  have hle := h.le
  have hlt := h.lt
  unfold deadline at hdead hlt
  have hsend := hat.next.send_late hsize (by omega) (by omega) (by omega) hkept
    (fun hpre => hfull (hreport.preFull_iff.1 hpre)) (by omega) (by omega)
  unfold sendOneFrame
  rw [front_dataFrame]
  exact (keeps_dead env).afterSend hsend (i + 1) _

include hl hsize in
/-- The next frame while the sender waits, up to where it looks for the answer. -/
theorem WaitingAt.middle (hlate : ¬ TooLate env source (i + 1) w) :
    ∃ s₁ report, sendOneFrameMiddle env (dataFrame source i).frameType
        ((s.next source i).send env (.frame (i + 1)) (dataFrame source i)) = (.ok, s₁) ∧
      Report env.lostFrame w report ∧ LinkAt env source (i + 1) (i + 1) (w + 1) report s₁ ∧
      s₁.Waiting w report (i - 32 * (w + 1) + 1) := by
  obtain ⟨report, hreport, hat, hwait⟩ := h.linkAt
  have hle := h.le
  have hlt := h.lt
  unfold deadline at hlt
  have hi : i < dataFrames source := by omega
  obtain ⟨recv, handled, hsend, hat'⟩ := hat.next.send hl hsize hi (by omega) (by omega) (by
    intro hkept
    by_cases hfull : ReportedFull env w
    · exact .inl (hreport.preFull_iff.2 hfull)
    · by_cases hdead : i + 1 = deadline source w
      · exact absurd ⟨hdead, hkept, hfull⟩ hlate
      · unfold deadline at hdead
        exact .inr (.inr (by omega)))
  rw [hsend]
  refine ⟨_, report, middle_none hsize hi hat'.sending (by omega), hreport, hat', ?_⟩
  exact { hwait with }

theorem WaitingAt.frameType :
    (dataFrame source i).frameType = .ongoine ∨ (dataFrame source i).frameType = .last := by
  have hle := h.le
  rw [frameType_dataFrame_eq]
  split
  · rw [if_neg (by omega)]
    exact .inr rfl
  · exact .inl rfl

include hl hsize in
theorem WaitingAt.answered (hlate : ¬ TooLate env source (i + 1) w)
    (harrives : env.arrives (i + 1) = true) :
    ∃ s', sendOneFrame env (i + 1) (dataFrame source i) (s.next source i) = (.ok, s') ∧
      QuietAt env source (i + 1) s' := by
  obtain ⟨s₁, report, hmid, -, hat₁, hwait₁⟩ := h.middle hl hsize hlate
  have hle := h.le
  have hlt := h.lt
  unfold deadline at hlt
  obtain ⟨s₂, pre, hrear, hat₂, hquiet, hfull⟩ := rear_answered hl hsize hat₁ hwait₁ (by omega)
    h.frameType harrives
  refine ⟨s₂, sendOneFrame_ok hmid hrear hat₂.sending.result, hquiet, pre, ?_, .inr hfull⟩
  rwa [show min (i + 1) (dataFrames source - 1) / 32 = w + 1 by omega]

include hl hsize in
theorem WaitingAt.unanswered (hlate : ¬ TooLate env source (i + 1) w)
    (harrives : env.arrives (i + 1) = false) :
    if i + 1 = deadline source w then
      ∃ s', sendOneFrame env (i + 1) (dataFrame source i) (s.next source i) = (.err, s') ∧
        NoneAccepted s'.handled
    else ∃ s', sendOneFrame env (i + 1) (dataFrame source i) (s.next source i) = (.ok, s') ∧
        WaitingAt env source (i + 1) w s' := by
  obtain ⟨s₁, report, hmid, hreport, hat₁, hwait₁⟩ := h.middle hl hsize hlate
  have hle := h.le
  have hlt := h.lt
  obtain ⟨s₂, hrear, hnone, hgo⟩ := rear_unanswered hsize hat₁ hwait₁ (by unfold deadline at hlt; omega)
    h.frameType harrives
  -- the sender goes on as long as the next frame is neither the last nor one too many
  have hcount : ((dataFrame source i).frameType ≠ .last ∧
      i - 32 * (w + 1) + 1 + 1 ≤ waitFrameAckTimeoutCount) ↔ i + 1 ≠ deadline source w := by
    have htype : (dataFrame source i).frameType ≠ .last ↔ i + 1 ≠ dataFrames source := by
      rw [frameType_dataFrame_eq]
      split
      · next hlast => simp [hlast, show i ≠ 0 by omega]
      · next hlast => simp [hlast]
    rw [htype, show waitFrameAckTimeoutCount = 24 from rfl]
    unfold deadline at hlt ⊢
    omega
  split
  · next hdead =>
    rw [if_neg (fun hc => hcount.1 hc hdead)] at hrear
    exact ⟨s₂, sendOneFrame_err hmid hrear, hnone⟩
  · next hdead =>
    rw [if_pos (hcount.2 hdead)] at hrear
    obtain ⟨hat₂, hwait₂⟩ := hgo (hcount.2 hdead)
    refine ⟨s₂, sendOneFrame_ok hmid hrear hat₂.sending.result, by omega, by omega, report, hreport,
      hat₂, ?_⟩
    rwa [show i + 1 - 32 * (w + 1) + 1 = i - 32 * (w + 1) + 1 + 1 by omega]

end
end Step

/-! ## The whole file -/

/-- The checksum frame of the file was accepted. -/
def Accepted (source : List UInt8) (s : Link) : Prop := (checkSumFrame source, .ok) ∈ s.handled

/-- All lost frames have checksum 0. -/
def LostZero (env : LinkEnv) (source : List UInt8) : Prop :=
  ∀ k < dataFrames source, env.lostFrame (k + 1) = true → frameCrc source k = 0

/-- The answer for window `w` comes in time, at frame `a` or later. -/
def InTime (env : LinkEnv) (source : List UInt8) (w a : ℕ) : Prop :=
  ∃ j, a ≤ j ∧ j ≤ deadline source w ∧ env.arrives j = true ∧ ¬ TooLate env source j w

theorem inTime_of_arrives (ha : a ≤ deadline source w) (harrives : env.arrives a = true)
    (hlate : ¬ TooLate env source a w) :
    InTime env source w a :=
  ⟨a, Nat.le_refl a, ha, harrives, hlate⟩

theorem inTime_succ (h : env.arrives a = false) :
    InTime env source w a ↔ InTime env source w (a + 1) := by
  constructor
  · rintro ⟨j, haj, hj, harrives, hlate⟩
    have hne : a ≠ j := by
      rintro rfl
      simp [h] at harrives
    exact ⟨j, by omega, hj, harrives, hlate⟩
  · rintro ⟨j, haj, hj⟩
    exact ⟨j, by omega, hj⟩

/-- What is left of `FileToFrame` after its loop. -/
def finish (env : LinkEnv) : SoftBusErr × Link → Link
  | (.ok, s) => (sendFileCrcCheckSum env s).2
  | (_, s) => s

theorem Link.Dead.finish {x : SoftBusErr × Link} (h : x.2.Dead env) : (finish env x).Dead env := by
  obtain ⟨ret, s⟩ := x
  cases ret with
  | ok => exact (keeps_dead env).sendFileCrcCheckSum h
  | _ => exact h

theorem NoneAccepted.not_accepted {s : Link} (h : NoneAccepted s.handled) :
    ¬ Accepted source s := fun hmem => h _ hmem rfl rfl

theorem fileToFrame_eq (s : Link) : (fileToFrame env destFile s).2 =
      finish env (fileToFrameLoop env destFile s.info.frameNum 0 0 s.info.fileSize s) := by
  unfold fileToFrame
  generalize fileToFrameLoop env destFile s.info.frameNum 0 0 s.info.fileSize s = sent
  obtain ⟨ret, s'⟩ := sent
  cases ret with
  | ok =>
    unfold finish
    dsimp only
    generalize sendFileCrcCheckSum env s' = checked
    obtain ⟨ret', s''⟩ := checked
    cases ret' <;> rfl
  | _ => rfl

section Loop
variable {i : ℕ} {s : Link}
include hl hsize in
theorem QuietAt.checkSum (h : QuietAt env source (dataFrames source) s) :
    Accepted source (sendFileCrcCheckSum env s).2 ↔ LostZero env source := by
  obtain ⟨pre, hat, -⟩ := h.linkAt
  have hseq : s.info.seq + 1 = .ofNat (dataFrames source + 1) := by
    rw [hat.sending.seq, UInt32.ofNat_add]
    rfl
  have hframe : FileFrame.mk .crcCheck
      (packFileCrcCheckSum (.ofNat (dataFrames source + 1)) s.info.checkSumCRC) =
      checkSumFrame source := by
    rw [hat.sending.checkSumCRC]
    rfl
  have hcode := hat.recv.checkSum env.peerChannel hsize (hl.ipcSend s.handled.length)
  have hhandled : (sendFileCrcCheckSum env s).2.handled = s.handled ++ [(checkSumFrame source,
      (processRecvFileFrameData (env.recv s.handled.length) env.peerSession env.peerChannel
        (checkSumFrame source) s.recv).1)] := by
    have hpending : createPendingPacket (s.info.seq + 1) s =
        (.ok, { s with pending := [⟨s.info.seq + 1, false, none⟩] }) := by
      unfold createPendingPacket
      rw [h.quiet.pending]
      rfl
    unfold sendFileCrcCheckSum
    rw [if_neg (not_not.2 hat.sending.crc)]
    dsimp only
    rw [hpending]
    rw [(sameChannel_getPendingPacketData _ _ _).handled, (sameChannel_poll env _ _).handled, hseq,
      hframe, handled_send hl.checkSum]
  unfold Accepted LostZero
  rw [hhandled, ← hcode, mem_append, mem_singleton, Prod.mk.injEq]
  constructor
  · rintro (hmem | ⟨-, hok⟩)
    · exact absurd rfl (hat.noneAccepted _ hmem rfl)
    · exact hok.symm
  · intro hok
    exact .inr ⟨rfl, hok.symm⟩

/-- The loop of `FileToFrame` after frame `i`. -/
def loopFrom (env : LinkEnv) (source : List UInt8) (destFile : Path) (i : ℕ) (s : Link) :
    SoftBusErr × Link :=
  fileToFrameLoop env destFile (dataFrames source - i) (i + 1)
    (min (crcFrameDataSize * i) source.length)
    (source.length - min (crcFrameDataSize * i) source.length) s

theorem Link.Dead.loopFrom (h : s.Dead env) (source : List UInt8) (destFile : Path) (i : ℕ) :
    (loopFrom env source destFile i s).2.Dead env :=
  (keeps_dead env).fileToFrameLoop h destFile _ (fun hi => absurd hi (Nat.succ_ne_zero i)) _ _

theorem loopFrom_end : loopFrom env source destFile (dataFrames source) s = (.ok, s) := by
  unfold loopFrom
  rw [Nat.sub_self]
  rfl

theorem loopFrom_next (h : Sending source i s.info) (hi : i < dataFrames source) :
    loopFrom env source destFile i s =
      match sendOneFrame env (i + 1) (dataFrame source i) (s.next source i) with
      | (.ok, s') => loopFrom env source destFile (i + 1) s'
      | (_, s') => (.err, s') := by
  have hlen : (s.info.pread (readLength source i) (crcFrameDataSize * i)).length =
      (chunk crcFrameDataSize source i).length := by
    rw [h.pread_eq]
    rfl
  have hlt := (lt_count crcFrameDataSize_pos).1 hi
  have hend := chunk_end crcFrameDataSize_pos hi
  have hread : (if source.length - crcFrameDataSize * i < frameDataSize s.info.crc then
      source.length - crcFrameDataSize * i else frameDataSize s.info.crc) = readLength source i := by
    rw [h.crc]
    rfl
  have hrest : source.length - crcFrameDataSize * i - (chunk crcFrameDataSize source i).length =
      source.length - min (crcFrameDataSize * (i + 1)) source.length := by
    omega
  unfold loopFrom
  rw [show dataFrames source - i = dataFrames source - (i + 1) + 1 by omega, fileToFrameLoop,
    Nat.min_eq_left hlt.le]
  dsimp only
  rw [hread, h.packReadFileData_eq hi]
  rw [hlen, hend, h.frameNum, hrest]
  rfl

include hl hsize in
/-- What decides whether the checksum frame is accepted, after frame `i`. -/
theorem accepted_iff (left : ℕ) :
    ∀ i s, i + left = dataFrames source → (QuietAt env source i s →
        (Accepted source (finish env (loopFrom env source destFile i s)) ↔
          LostZero env source ∧ ∀ w, i < 32 * (w + 1) → 32 * (w + 1) < dataFrames source →
            InTime env source w (32 * (w + 1)))) ∧
      ∀ w, WaitingAt env source i w s →
        (Accepted source (finish env (loopFrom env source destFile i s)) ↔
          LostZero env source ∧ InTime env source w (i + 1) ∧
            ∀ w', w < w' → 32 * (w' + 1) < dataFrames source →
              InTime env source w' (32 * (w' + 1))) := by
  induction left with
  | zero =>
    intro i s hi
    obtain rfl : i = dataFrames source := by omega
    constructor
    · intro h
      rw [loopFrom_end]
      refine (h.checkSum hl hsize).trans ⟨fun hz => ⟨hz, fun w hlt hw => ?_⟩, fun hz => hz.1⟩
      omega
    · intro w h
      have hlt := h.lt
      unfold deadline at hlt
      omega
  | succ left ih =>
    intro i s hi
    have hi' : i < dataFrames source := by omega
    constructor
    · intro h
      obtain ⟨pre, hat, -⟩ := h.linkAt
      obtain ⟨s', hsend, hnext⟩ := h.step hl hsize hi'
      rw [loopFrom_next hat.sending hi', hsend]
      obtain ⟨ihq, ihw⟩ := ih (i + 1) s' (by omega)
      split at hnext
      · next hwait =>
        -- the window that ends here is the first that is not answered yet
        rw [ihw _ hnext, ← inTime_succ hwait.2.2]
        refine and_congr_right fun _ => ⟨fun hin w hlt hw => ?_, fun hin => ⟨?_, fun w' hlt hw => ?_⟩⟩
        · rcases Nat.lt_or_eq_of_le (show i / 32 ≤ w by omega) with hlt' | rfl
          · exact hin.2 w hlt' hw
          · rw [show 32 * (i / 32 + 1) = i + 1 by omega]
            exact hin.1
        · have hin' := hin (i / 32) (by omega) (by omega)
          rwa [show 32 * (i / 32 + 1) = i + 1 by omega] at hin'
        · exact hin w' (by omega) hw
      · next hwait =>
        rw [ihq hnext]
        refine and_congr_right fun _ => ⟨fun hin w hlt hw => ?_, fun hin w hlt hw => hin w (by omega) hw⟩
        rcases Nat.lt_or_eq_of_le (show i + 1 ≤ 32 * (w + 1) from hlt) with hlt' | heq
        · exact hin w hlt' hw
        · -- the window that ends here is answered at once
          have harrives : env.arrives (i + 1) = true := by
            by_contra hno
            exact hwait ⟨by omega, by omega, by simpa using hno⟩
          rw [← heq]
          refine inTime_of_arrives ?_ harrives fun hlate => ?_
          · unfold deadline
            omega
          · have hdead := hlate.1
            unfold deadline at hdead
            omega
    · intro w h
      obtain ⟨report, -, hat, -⟩ := h.linkAt
      have hle := h.le
      have hlt := h.lt
      rw [loopFrom_next hat.sending hi']
      by_cases hlate : TooLate env source (i + 1) w
      · have hdead : (finish env (match sendOneFrame env (i + 1) (dataFrame source i)
            (s.next source i) with
            | (.ok, s') => loopFrom env source destFile (i + 1) s'
            | (_, s') => (.err, s'))).Dead env :=
          (Link.Keeps.andThen (h.late hsize hlate)
            fun s' hs' => hs'.loopFrom source destFile (i + 1)).finish
        refine iff_of_false hdead.noneAccepted.not_accepted ?_
        rintro ⟨-, ⟨j, hij, hj, -, hjlate⟩, -⟩
        obtain rfl : j = i + 1 := by
          have := hlate.1
          omega
        exact hjlate hlate
      cases harrives : env.arrives (i + 1) with
      | true =>
        obtain ⟨s', hsend, hnext⟩ := h.answered hl hsize hlate harrives
        rw [hsend]
        rw [(ih (i + 1) s' (by omega)).1 hnext]
        have hin : InTime env source w (i + 1) := inTime_of_arrives (by omega) harrives hlate
        unfold deadline at hlt
        refine and_congr_right fun _ => ⟨fun hall => ⟨hin, fun w' hw' hw => ?_⟩, fun hall w' hw' hw => ?_⟩
        · exact hall w' (by omega) hw
        · exact hall.2 w' (by omega) hw
      | false =>
        have hstep := h.unanswered hl hsize hlate harrives
        split at hstep
        · next hdead =>
          obtain ⟨s', hsend, hnone⟩ := hstep
          rw [hsend]
          refine iff_of_false hnone.not_accepted ?_
          rintro ⟨-, ⟨j, hij, hj, hjarrives, -⟩, -⟩
          obtain rfl : j = i + 1 := by omega
          simp [harrives] at hjarrives
        · obtain ⟨s', hsend, hnext⟩ := hstep
          rw [hsend]
          rw [(ih (i + 1) s' (by omega)).2 w hnext, ← inTime_succ harrives]

end Loop
end

/-! ## From the start frame on -/

/-- A transfer of `source` as `FileToFrame` begins it. -/
def transferLink (channelId sessionId : Int32) (source : List UInt8) (recv : RecvWorld) : Link where
  info := { createSendListenerInfo channelId sessionId appInfoFileFeaturesSupport with
    source := source, fileSize := source.length, frameNum := dataFrames source + 1 }
  pending := []
  recv := recv
  replies := []
  handled := []

section
variable (hl : LossyLink env source) (sessionId : Int32) (hp : PacksStart channelId destFile source data)
  (ht : TakesStart (env.recv 0) env.peerSession env.peerChannel data recv)
  (harrives : env.arrives 0 = true)
include hl hp ht harrives

/-- The start frame is answered, and the sender goes on with the data. -/
theorem fileToFrameLoop_start :
    ∃ s, QuietAt env source 0 s ∧ fileToFrameLoop env destFile (dataFrames source + 1) 0 0 source.length
        (transferLink channelId sessionId source recv) = loopFrom env source destFile 0 s := by
  have hstart : RecvAt source env.lostFrame env.peerSession 0 0 0 _ ∧ _ := RecvAt.start hp ht
  obtain ⟨hat, hsent⟩ := hstart
  have hok := ht.ok
  generalize hproc : processRecvFileFrameData (env.recv 0) env.peerSession env.peerChannel
    ⟨.first, data⟩ recv = res at hok hat hsent
  obtain ⟨code, recv'⟩ := res
  obtain rfl : code = .ok := hok
  -- the sender and the receiver after the answer
  let s₀ := transferLink channelId sessionId source recv
  let s₁ : Link := { s₀ with pending := [⟨0, false, none⟩] }
  let s₂ : Link := { s₁ with
    recv := recv'
    replies := [⟨.result, packFileTransResult 0 .ok isRecvResult⟩]
    handled := [(⟨.first, data⟩, .ok)] }
  let s₃ : Link := { s₂ with replies := [], pending := [⟨0, true, none⟩] }
  let s₄ : Link := { s₃ with pending := [] }
  have hfront : sendOneFrameFront .first s₀ = (.ok, s₁) := rfl
  have hsend : s₁.send env (.frame 0) ⟨.first, data⟩ = s₂ := by
    rw [send_eq (s := s₁) hl.start hproc]
    show _ = s₂
    unfold s₂
    rw [← hsent]
    rfl
  have hpoll : s₂.poll env 0 = s₃ := by
    have hunpack := unpackFileTransResultFrame_pack env.beyond .result 0 isRecvResult .ok
    unfold poll
    rw [if_pos harrives]
    simp only [s₂, foldl_cons, foldl_nil, processReply, hunpack, if_true]
    rfl
  have hframe : sendOneFrame env 0 ⟨.first, data⟩ s₀ = (.ok, s₄) := by
    unfold sendOneFrame
    rw [hfront]
    dsimp only
    rw [hsend]
    show (match sendOneFrameRear env .first (s₂.poll env 0) with
      | (.ok, s) => if s.info.result ≠ SoftBusErr.ok.code then (SoftBusErr.err, s) else (.ok, s)
      | (_, s) => (.err, s)) = _
    rw [hpoll]
    rfl
  refine ⟨s₄, ⟨⟨rfl, rfl, rfl⟩, 0, ⟨?_, ?_, ?_⟩, .inl ?_⟩, ?_⟩
  · exact ⟨rfl, rfl, rfl, rfl, rfl, rfl, rfl⟩
  · simpa using hat
  · intro p hp hcheck
    rw [mem_singleton.1 hp] at hcheck
    simp at hcheck
  · simp
  · rw [fileToFrameLoop]
    have hpack' : packFileTransStartInfo s₀.info.crc s₀.info.channelId destFile s₀.info.fileSize =
        some data := hp.pack
    rw [hpack']
    have hframe' : sendOneFrame env 0 ⟨frameIndexToType 0 s₀.info.frameNum, data⟩ s₀ = (.ok, s₄) :=
      hframe
    dsimp only
    rw [hframe']
    unfold loopFrom
    simp

/-- What decides whether the checksum frame is accepted. -/
theorem accepted_fileToFrame_iff :
    Accepted source (fileToFrame env destFile (transferLink channelId sessionId source recv)).2 ↔
      LostZero env source ∧ ∀ w, 32 * (w + 1) < dataFrames source →
        InTime env source w (32 * (w + 1)) := by
  obtain ⟨s, hquiet, hloop⟩ := fileToFrameLoop_start hl sessionId hp ht harrives
  rw [fileToFrame_eq]
  refine (iff_of_eq (congrArg (fun x => Accepted source (finish env x)) hloop)).trans ?_
  refine ((accepted_iff hl hp.size (dataFrames source) 0 s (by omega)).1 hquiet).trans ?_
  exact and_congr_right fun _ => ⟨fun h w hw => h w (by omega) hw, fun h w _ hw => h w hw⟩

end

/-- With some data frames of full windows lost and the missing ones sent again, the checksum
    frame is accepted exactly when all lost frames have checksum 0 and the answer for every
    window comes in time.  The receiver may have received anything before the file. -/
theorem checkSum_accepted_iff (hl : LossyLink env source)
    (hsize : source.length ≤ maxFileSize) (hname : 0 ∉ destFile)
    (hshort : destFile.length < maxFilePathNameLen) (sessionId : Int32)
    (hpack : packFileTransStartInfo appInfoFileFeaturesSupport channelId destFile source.length =
      some data) (before : List RecvInput)
    (hrecv : recv = before.foldl RecvWorld.step .init)
    (hok : (processRecvFileFrameData (env.recv 0) env.peerSession env.peerChannel ⟨.first, data⟩
      recv).1 = .ok)
    (hcrc : ∀ r, (processRecvFileFrameData (env.recv 0) env.peerSession env.peerChannel
      ⟨.first, data⟩ recv).2.recipient env.peerSession = some r → r.crc = appInfoFileFeaturesSupport)
    (harrives : env.arrives 0 = true) :
    Accepted source (fileToFrame env destFile (transferLink channelId sessionId source recv)).2 ↔
      LostZero env source ∧ ∀ w, 32 * (w + 1) < dataFrames source →
        InTime env source w (32 * (w + 1)) := by
  subst hrecv
  exact accepted_fileToFrame_iff hl sessionId ⟨hname, hshort, hsize, hpack⟩ ⟨settled_run before, hok, hcrc⟩
    harrives

/-! ## A frame that is sent again -/

/-- A zero byte does not clear the checksum. -/
theorem crcState_step_zero {c : CrcState} (h : ¬ (c.uchCRCHi = 0 ∧ c.uchCRCLo = 0)) :
    ¬ ((c.step 0).uchCRCHi = 0 ∧ (c.step 0).uchCRCLo = 0) := by
  have hindex : ∀ n : Fin 256, auchCRCLo.getD n 0 = 0 → n = 0 := by decide +kernel
  rintro ⟨hhi, hlo⟩
  have hhi' : auchCRCLo.getD c.uchCRCLo.toNat 0 = 0 := by
    simpa [CrcState.step] using hhi
  have hzero : c.uchCRCLo = 0 := by
    have hn := hindex ⟨c.uchCRCLo.toNat, c.uchCRCLo.toNat_lt⟩ hhi'
    exact UInt8.toNat_inj.1 (congrArg Fin.val hn)
  have hfirst : auchCRCHi.getD 0 0 = 0 := by decide +kernel
  refine h ⟨?_, hzero⟩
  simpa only [CrcState.step, hzero, UInt8.xor_zero, UInt8.toNat_zero, hfirst] using hlo

/-- The checksum of zeros is not 0. -/
theorem rtuCrc_replicate_zero : rtuCrc (List.replicate n 0) ≠ 0 := by
  have hfold : ∀ (n : ℕ) (c : CrcState), ¬ (c.uchCRCHi = 0 ∧ c.uchCRCLo = 0) →
      ¬ (((replicate n 0).foldl CrcState.step c).uchCRCHi = 0 ∧
        ((replicate n 0).foldl CrcState.step c).uchCRCLo = 0) := by
    intro n
    induction n with
    | zero => exact fun c hc => hc
    | succ n ih =>
      intro c hc
      rw [replicate_succ, foldl_cons]
      exact ih _ (crcState_step_zero hc)
  intro hcrc
  apply hfold n ⟨0xFF, 0xFF⟩ (by decide)
  unfold rtuCrc at hcrc
  generalize (replicate n 0).foldl CrcState.step ⟨0xFF, 0xFF⟩ = c at hcrc ⊢
  have hnat := congrArg UInt16.toNat hcrc
  rw [UInt16.toNat_or, UInt16.toNat_shiftLeft, UInt8.toNat_toUInt16] at hnat
  obtain ⟨hhi, hlo⟩ := Nat.or_eq_zero_iff.1 hnat
  refine ⟨UInt8.toNat_inj.1 ?_, UInt8.toNat_inj.1 hlo⟩
  have hlt := c.uchCRCHi.toNat_lt
  rw [show (8 : UInt16).toNat % 16 = 8 from rfl] at hhi
  show c.uchCRCHi.toNat = 0
  omega

/-- A link to a receiver whose calls all succeed; its answers come at once. -/
def goodLink (lost : Transmission → Bool) : LinkEnv where
  recv := fun _ => goodEnv appInfoFileFeaturesSupport
  peerSession := 1
  peerChannel := 1
  lost := lost
  arrives := fun _ => true
  beyond := fun _ => 0
  realPath := some
  contents := fun _ => none
  openFile := fun _ => 3
  fcntl := fun _ => true

theorem lossyLink_goodLink {lost : Transmission → Bool}
    (h : ∀ t, lost t = true → t = .frame 1 ∧ 32 < dataFrames source) :
    LossyLink (goodLink lost) source := by
  have hkept : ∀ t, t ≠ .frame 1 → lost t = false := by
    intro t ht
    by_contra hlost
    exact ht (h t (by simpa using hlost)).1
  refine ⟨fun _ _ _ => rfl, fun _ => rfl, hkept _ (by simp), fun k hk hlost => ?_,
    fun seq => hkept _ (by simp), fun seq => hkept _ (by simp), hkept _ (by simp)⟩
  obtain ⟨hk, hn⟩ := h _ hlost
  simp only [Transmission.frame.injEq, Nat.add_eq_right] at hk
  omega

/-- A file of one byte without loss. -/
theorem checkSum_accepted_one_byte :
    Accepted [7] (fileToFrame (goodLink fun _ => false) [97] (transferLink 1 1 [7] .init)).2 := by
  have hl : LossyLink (goodLink fun _ => false) [7] := lossyLink_goodLink fun _ h => by simp at h
  have hpack : packFileTransStartInfo appInfoFileFeaturesSupport 1 [97] 1 =
      some (startFrameA 1).data := by decide +kernel
  have hsize : ([7] : List UInt8).length ≤ maxFileSize := by decide
  have hok : (processRecvFileFrameData ((goodLink fun _ => false).recv 0) 1 1
      ⟨.first, (startFrameA 1).data⟩ .init).1 = .ok := by decide +kernel
  have hcrc : (((processRecvFileFrameData ((goodLink fun _ => false).recv 0) 1 1
      ⟨.first, (startFrameA 1).data⟩ .init).2.recipient 1).map crc) =
      some appInfoFileFeaturesSupport := by decide +kernel
  have hn : dataFrames [7] = 1 := by decide
  refine (checkSum_accepted_iff hl hsize (by decide) (by decide) 1 hpack [] rfl hok ?_ rfl).2 ⟨?_, ?_⟩
  · intro r hr
    exact Option.some.inj ((congrArg (Option.map crc) hr).symm.trans hcrc)
  · intro k _ hlost
    simp [LinkEnv.lostFrame, goodLink] at hlost
  · intro w hw
    omega

/-- 33 frames of zeros, of which the first is lost and sent again: the checksum frame is
    rejected. -/
theorem checkSum_rejected_after_retrans :
    let env := goodLink (fun t => decide (t = .frame 1))
    let source : List UInt8 := List.replicate 30657 0
    LossyLink env source ∧ source.length ≤ maxFileSize ∧
      (processRecvFileFrameData (env.recv 0) 1 1 (startFrameA 30657) .init).1 = .ok ∧
      (∀ w, 32 * (w + 1) < dataFrames source → InTime env source w (32 * (w + 1))) ∧
      ¬ Accepted source (fileToFrame env [97] (transferLink 1 1 source .init)).2 := by
  intro env source
  have hlen : source.length = 30657 := length_replicate
  have hn : dataFrames source = 33 := by
    unfold dataFrames Chunks.count
    rw [hlen]
    rfl
  have hl : LossyLink env source := by
    refine lossyLink_goodLink fun t ht => ⟨by simpa using ht, ?_⟩
    omega
  have hsize : source.length ≤ maxFileSize := by
    rw [hlen]
    decide
  have hpack : packFileTransStartInfo appInfoFileFeaturesSupport 1 [97] source.length =
      some (startFrameA 30657).data := by
    decide +kernel
  have hok : (processRecvFileFrameData (env.recv 0) 1 1 ⟨.first, (startFrameA 30657).data⟩ .init).1 =
      .ok := by decide +kernel
  have hcrc : (((processRecvFileFrameData (env.recv 0) 1 1 ⟨.first, (startFrameA 30657).data⟩
      .init).2.recipient 1).map crc) = some appInfoFileFeaturesSupport := by
    decide +kernel
  refine ⟨hl, hsize, hok, fun w hw => ?_, fun haccepted => ?_⟩
  · refine ⟨32 * (w + 1), Nat.le_refl _, ?_, rfl, fun hlate => ?_⟩
    · unfold deadline
      omega
    · have hdead := hlate.1
      unfold deadline at hdead
      omega
  · have hzero := ((accepted_fileToFrame_iff hl 1 ⟨by decide, by decide, hsize, hpack⟩ ⟨settled_run [],
      hok, fun r hr => Option.some.inj ((congrArg (Option.map crc) hr).symm.trans hcrc)⟩ rfl).1 haccepted).1
    have hcrc0 : (rtuCrc (frameData source 0)).toNat = 0 := hzero 0 (by omega) rfl
    have hdata : frameData source 0 = replicate 958 0 := by
      show ((replicate 30657 0).drop (crcFrameDataSize * 0)).take crcFrameDataSize = _
      rw [Nat.mul_zero, drop_zero, take_replicate]
      rfl
    rw [hdata] at hcrc0
    exact rtuCrc_replicate_zero (UInt16.toNat_inj.1 hcrc0)

end SoftBus.Native
