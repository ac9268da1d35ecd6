import SoftBus.ForStd.Bits
import SoftBus.ForStd.Run
import SoftBus.Spec.ProxyRecv
import SoftBus.Spec.ProxyWrite

/-!
# What the receiver acknowledges

The receiver keeps a bitmap of the current window of 32 frames and sends it in answer to
an acknowledgement request, which also opens the next window.  `RecvLog` runs the
receiver with a log of the frames that it accepted, and `WindowOk` says what the bitmap
is in terms of the log: bit 31 of a window is or-ed in as a negative `int`, so the frame
that ends a window also sets every bit of the next one.
-/

namespace SoftBus.Native
open Function UInt32
variable {data : FileData} {s : RecvLog} {s' : WriteState} {env : RecvEnv} {channelId sessionId : Int32}
  {frame : FileFrame} {r r' : FileRecipientInfo} {w : RecvWorld} {i : RecvInput} {startSeq : UInt32}

/-! ## Bits -/

theorem toNat_windowBit (seq : UInt32) : (windowBit seq).toNat = (seq.toNat + 31) % 32 := by
  unfold windowBit
  have hmod : (seq % 32).toNat = seq.toNat % 32 := by rfl
  split
  · next h =>
    rw [h] at hmod
    have : (0 : UInt32).toNat = 0 := rfl
    show 31 = _
    omega
  · next h =>
    have hne : seq.toNat % 32 ≠ 0 := fun h0 => h (UInt32.toNat_inj.1 (by rw [hmod, h0]; rfl))
    have hle : (1 : UInt32) ≤ seq % 32 := by
      rw [le_iff_toNat_le]
      show 1 ≤ _
      omega
    rw [UInt32.toNat_sub_of_le _ _ hle]
    show seq.toNat % 32 - 1 = _
    omega

/-- Bit 31 fills the upper half. -/
theorem testBit_intBit {bit : UInt32} (hbit : bit.toNat < 32) {i : ℕ} (hi : i < 64) :
    (intBit bit).toNat.testBit i = decide (i = bit.toNat ∨ bit.toNat = 31 ∧ 32 ≤ i) := by
  have hall : ∀ b : Fin 32, ∀ i : Fin 64, (intBit (ofNat b)).toNat.testBit i =
      decide (i.val = b.val ∨ b.val = 31 ∧ 32 ≤ i.val) := by decide +kernel
  have h := hall ⟨bit.toNat, hbit⟩ ⟨i, hi⟩
  simpa using h

/-! ## The bitmap of a window -/

/-- A data frame that was accepted, and whether its window was the current one. -/
structure AcceptedFrame where
  seq : UInt32
  inWindow : Bool
deriving Repr, DecidableEq

/-- The bitmap of a file after the frames of its log. -/
structure WindowOk (file : SingleFileInfo) (accepted : List AcceptedFrame) : Prop where
  startSeq_mod : file.startSeq.toNat % 32 = 1
  accepted_lt : ∀ a ∈ accepted, a.seq.toNat < file.startSeq.toNat + 32
  low : ∀ i < 32, file.seqResult.toNat.testBit i = true ↔
    (∃ a ∈ accepted, a.inWindow = true ∧ a.seq.toNat + 1 = file.startSeq.toNat) ∨
      ∃ a ∈ accepted, a.seq.toNat = file.startSeq.toNat + i
  high : ∀ i < 32, file.seqResult.toNat.testBit (32 + i) = true ↔
    ∃ a ∈ accepted, a.inWindow = true ∧ a.seq.toNat = file.startSeq.toNat + 31

namespace WindowOk
variable {file file' : SingleFileInfo} {accepted : List AcceptedFrame}

theorem congr (h : WindowOk file accepted) (hstart : file'.startSeq = file.startSeq)
    (hresult : file'.seqResult = file.seqResult) : WindowOk file' accepted := by
  obtain ⟨h1, h2, h3, h4⟩ := h
  rw [← hstart] at h1 h2 h3 h4
  rw [← hresult] at h3 h4
  exact ⟨h1, h2, h3, h4⟩

theorem start (hstart : file.startSeq = 1) (hresult : file.seqResult = 0) : WindowOk file [] where
  startSeq_mod := by rw [hstart]; rfl
  accepted_lt := by simp
  low := by simp [hresult]
  high := by simp [hresult]

/-- A frame of the window sets its bit. -/
theorem accept_inWindow {frameType : FrameType} {s : WriteState} (h : WindowOk s.fileInfo accepted)
    (ha : AcceptedInWindow frameType data s s') :
    WindowOk s'.fileInfo (⟨data.seq, true⟩ :: accepted) := by
  have hle := le_iff_toNat_le.1 ha.startSeq_le
  have hlt := lt_iff_toNat_lt.1 ha.lt_startSeq
  rw [UInt32.toNat_add, show (32 : UInt32).toNat = 32 from rfl] at hlt
  have hbit := toNat_windowBit data.seq
  have hmod := h.startSeq_mod
  -- the position of the frame in its window
  rw [ha.fileInfo]
  refine ⟨h.startSeq_mod, ?_, fun i hi => ?_, fun i hi => ?_⟩
  · rintro a (_ | ⟨_, hmem⟩)
    · show data.seq.toNat < s.fileInfo.startSeq.toNat + 32
      omega
    · exact h.accepted_lt a hmem
  · rw [UInt64.testBit_or, Bool.or_eq_true, h.low i hi, testBit_intBit (by omega) (by omega)]
    simp only [List.exists_mem_cons_iff, decide_eq_true_eq]
    constructor
    · rintro ((hold | hold) | hnew)
      · exact .inl (.inr hold)
      · exact .inr (.inr hold)
      · exact .inr (.inl (by omega))
    · rintro ((⟨-, hnew⟩ | hold) | (hnew | hold))
      · omega
      · exact .inl (.inl hold)
      · exact .inr (.inl (by omega))
      · exact .inl (.inr hold)
  · rw [UInt64.testBit_or, Bool.or_eq_true, h.high i hi, testBit_intBit (by omega) (by omega)]
    simp only [List.exists_mem_cons_iff, decide_eq_true_eq]
    constructor
    · rintro (hold | hnew)
      · exact .inr hold
      · exact .inl ⟨trivial, by omega⟩
    · rintro (⟨-, hnew⟩ | hold)
      · exact .inr (.inr ⟨by omega, by omega⟩)
      · exact .inl hold

/-- A frame of an earlier window leaves the bitmap as it is. -/
theorem accept_before {s : WriteState} (h : WindowOk s.fileInfo accepted) (ha : AcceptedBefore data s s') :
    WindowOk s'.fileInfo (⟨data.seq, false⟩ :: accepted) := by
  have hlt := lt_iff_toNat_lt.1 ha.lt_startSeq
  rw [ha.fileInfo]
  refine ⟨h.startSeq_mod, ?_, fun i hi => ?_, fun i hi => ?_⟩
  · rintro a (_ | ⟨_, hmem⟩)
    · show data.seq.toNat < s.fileInfo.startSeq.toNat + 32
      omega
    · exact h.accepted_lt a hmem
  · rw [h.low i hi]
    simp only [List.exists_mem_cons_iff, Bool.false_eq_true, false_and, false_or]
    constructor
    · rintro (hold | hold)
      · exact .inl hold
      · exact .inr (.inr hold)
    · rintro (hold | (hnew | hold))
      · exact .inl hold
      · omega
      · exact .inr hold
  · rw [h.high i hi]
    simp

/-- The next window starts with what the last one left in the upper half. -/
theorem slide (h : WindowOk file accepted) (hno : file.startSeq.toNat + 32 < 2 ^ 32) :
    WindowOk (slideWindow file) accepted := by
  have hstart : (slideWindow file).startSeq.toNat = file.startSeq.toNat + 32 := by
    show (file.startSeq + 32).toNat = _
    rw [UInt32.toNat_add, show (32 : UInt32).toNat = 32 from rfl, Nat.mod_eq_of_lt hno]
  have hresult : ∀ i, (slideWindow file).seqResult.toNat.testBit i =
      file.seqResult.toNat.testBit (32 + i) := by
    intro i
    show (file.seqResult >>> 32).toNat.testBit i = _
    rw [UInt64.toNat_shiftRight, show (32 : UInt64).toNat % 64 = 32 from rfl, Nat.testBit_shiftRight]
  have hmod := h.startSeq_mod
  refine ⟨by omega, ?_, fun i hi => ?_, fun i hi => ?_⟩
  · intro a ha
    have := h.accepted_lt a ha
    omega
  · rw [hresult, h.high i hi]
    constructor
    · rintro ⟨a, ha, hwin, hseq⟩
      exact .inl ⟨a, ha, hwin, by omega⟩
    · rintro (⟨a, ha, hwin, hseq⟩ | ⟨a, ha, hseq⟩)
      · exact ⟨a, ha, hwin, by omega⟩
      · have := h.accepted_lt a ha
        omega
  · -- the upper half is empty: no frame of the new window has been accepted
    have hlt : file.seqResult.toNat < 2 ^ (32 + (32 + i)) := by
      refine Nat.lt_of_lt_of_le file.seqResult.toNat_lt ?_
      exact Nat.pow_le_pow_right (by omega) (by omega)
    rw [hresult, Nat.testBit_lt_two_pow hlt]
    simp only [Bool.false_eq_true, false_iff, not_exists, not_and]
    intro a ha _ hseq
    have := h.accepted_lt a ha
    omega

end WindowOk

/-! ## The receiver with its log -/

/-- The receiver, and the data frames that it accepted for each session since the file
    of the session was started. -/
structure RecvLog where
  world : RecvWorld
  accepted : Int32 → List AcceptedFrame

/-- The data frame that a frame is for the recipient of its session. -/
def acceptedFrame (env : RecvEnv) (sessionId : Int32) (frame : FileFrame) (w : RecvWorld) :
    Option AcceptedFrame :=
  match getRecipientInProcessRef sessionId w with
  | none => none
  | some r =>
    match unpackFileDataFrame r.crc env.beyond frame with
    | .error _ => none
    | .ok data => some ⟨data.seq, decide (r.recvFileInfo.startSeq ≤ data.seq)⟩

/-- The log after a frame whose handler returned `code`. -/
def logFrame (env : RecvEnv) (sessionId : Int32) (frame : FileFrame) (code : SoftBusErr)
    (s : RecvLog) : List AcceptedFrame :=
  if code ≠ .ok then
    s.accepted sessionId
  else
    match frame.frameType with
    | .first => []
    | .ongoine | .onlyone | .last =>
      (acceptedFrame env sessionId frame s.world).toList ++ s.accepted sessionId
    | _ => s.accepted sessionId

namespace RecvLog

def init : RecvLog := ⟨.init, fun _ => []⟩

def step (s : RecvLog) (i : RecvInput) : RecvLog where
  world := s.world.step i
  accepted :=
    match i with
    | .tick _ => s.accepted
    | .frame env sessionId channelId oneFrame =>
      update s.accepted sessionId (logFrame env sessionId oneFrame
        (processRecvFileFrameData env sessionId channelId oneFrame s.world).1 s)

/-- The log does not change what the receiver does. -/
theorem world_foldl (inputs : List RecvInput) (s : RecvLog) :
    (inputs.foldl step s).world = inputs.foldl RecvWorld.step s.world := by
  induction inputs generalizing s with
  | nil => rfl
  | cons i inputs ih => exact ih (s.step i)

section
variable (s)

/-- The recipient that answers an acknowledgement request. -/
def answering : RecvInput → Option FileRecipientInfo
  | .tick _ => none
  | .frame env sessionId _ oneFrame =>
    if oneFrame.frameLength ≤ proxyMaxPacketSize ∧ oneFrame.frameType = .ackRequestSent then
      (getRecipientInProcessRef sessionId s.world).filter fun r =>
        match unpackAckReqAndResData env.beyond oneFrame with
        | .error _ => false
        | .ok request => decide (request.startSeq = r.recvFileInfo.startSeq)
    else none

/-- The bitmap of an answer has exactly the bits of the accepted frames. -/
def AckExact : RecvInput → Prop
  | .tick _ => True
  | .frame env sessionId channelId oneFrame =>
    oneFrame.frameType = .ackRequestSent → ∀ channel startSeq seqResult,
      .sent channel ⟨.ackResponseSent, packAckReqAndResData startSeq seqResult⟩ ∈
          (s.world.step (.frame env sessionId channelId oneFrame)).trace.drop s.world.trace.length →
        ∀ i < 32, seqResult.toNat.testBit i = true ↔
          ∃ a ∈ s.accepted sessionId, a.seq = startSeq + UInt32.ofNat i

/-- Answers come from sessions that number their frames, and the numbers do not wrap. -/
def Windowed (i : RecvInput) : Prop :=
  ∀ r ∈ s.answering i, r.crc = appInfoFileFeaturesSupport ∧ r.recvFileInfo.startSeq.toNat + 32 < 2 ^ 32

/-- The frame before the window was not accepted in its own window, or all frames of the
    window have been accepted. -/
def AckSafe (i : RecvInput) : Prop :=
  ∀ r ∈ s.answering i, (∀ a ∈ s.accepted r.sessionId,
        a.inWindow = true → a.seq.toNat + 1 ≠ r.recvFileInfo.startSeq.toNat) ∨
      ∀ i < 32, ∃ a ∈ s.accepted r.sessionId, a.seq.toNat = r.recvFileInfo.startSeq.toNat + i

end

/-- Every file that is received in a session with checksums has the bitmap of its log. -/
structure Ok (s : RecvLog) : Prop where
  settled : s.world.Settled
  window : ∀ sessionId r, s.world.recipient sessionId = some r → r.recvState ≠ .idle →
    r.crc = appInfoFileFeaturesSupport → WindowOk r.recvFileInfo (s.accepted sessionId)

end RecvLog

/-! ## One frame -/

/-- A started file has an empty bitmap. -/
theorem windowOk_startOutcome (hcrc : r'.crc = appInfoFileFeaturesSupport)
    (h : (startOutcome env channelId frame r w).recipient = some r') :
    (startOutcome env channelId frame r w).code = .ok ∧ WindowOk r'.recvFileInfo [] := by
  rcases startOutcome_cases env channelId frame r w with ⟨-, hnone⟩ | ⟨file, hfile, hcode, hsome, -⟩
  · simp [hnone] at h
  · rw [hsome] at h
    cases h
    obtain ⟨start, hstart, heq⟩ := getFileInfoByStartFrame_ok hfile
    refine ⟨hcode, .start ?_ ?_⟩
    · rw [heq]
      exact (unpackFileTransStartInfo_crc hcrc hstart).2.1
    · rw [heq]
      rfl

/-- A data frame that is accepted is in the bitmap of its window. -/
theorem windowOk_dataOutcome {accepted : List AcceptedFrame} (hget : getRecipientInProcessRef sessionId w = some r)
    (hcrc : r'.crc = appInfoFileFeaturesSupport)
    (hwin : r.crc = appInfoFileFeaturesSupport → WindowOk r.recvFileInfo accepted)
    (h : (dataOutcome env frame r w.files).recipient = some r') :
    (dataOutcome env frame r w.files).code = .ok ∧
      WindowOk r'.recvFileInfo ((acceptedFrame env sessionId frame w).toList ++ accepted) := by
  rcases dataOutcome_cases env frame r w.files with
    ⟨-, hnone⟩ | ⟨data, s, hdata, hs, hcode, -, hsome⟩
  · simp [hnone] at h
  rw [hsome] at h
  refine ⟨hcode, ?_⟩
  have hcrc' : r.crc = appInfoFileFeaturesSupport := by
    cases h
    split at hcrc <;> exact hcrc
  rw [if_neg (fun hne => hne.1 hcrc')] at h
  cases h
  have hframe : acceptedFrame env sessionId frame w =
      some ⟨data.seq, decide (r.recvFileInfo.startSeq ≤ data.seq)⟩ := by
    simp only [acceptedFrame, hget, hdata]
  rw [hframe]
  rcases processOneFrame_crc_ok hcrc' hs with ha | ha
  · rw [decide_eq_true ha.startSeq_le]
    exact ((hwin hcrc').accept_inWindow ha).congr rfl rfl
  · rw [decide_eq_false (UInt32.not_le.2 ha.lt_startSeq)]
    exact ((hwin hcrc').accept_before ha).congr rfl rfl

theorem mem_answering_iff :
    r ∈ s.answering (.frame env sessionId channelId frame) ↔
      frame.frameLength ≤ proxyMaxPacketSize ∧ frame.frameType = .ackRequestSent ∧
        getRecipientInProcessRef sessionId s.world = some r ∧
        ∃ request, unpackAckReqAndResData env.beyond frame = .ok request ∧
          request.startSeq = r.recvFileInfo.startSeq := by
  simp only [RecvLog.answering]
  split
  · next hf =>
    cases hu : unpackAckReqAndResData env.beyond frame with
    | error e => simp
    | ok request => simp [hf]
  · next hf =>
    simp only [Option.mem_def, reduceCtorEq, false_iff]
    exact fun h => hf ⟨h.1, h.2.1⟩

namespace RecvLog

theorem Ok.tick (h : s.Ok) : (s.step (.tick env)).Ok where
  settled := settled_step h.settled _
  window := by
    intro sessionId r' hr' hidle hcrc
    obtain ⟨r, hr, htime⟩ := Option.bind_eq_some_iff.1 ((recipient_tick sessionId).symm.trans hr')
    obtain ⟨timeOut, rfl⟩ := timeOutRecipient_eq_some htime
    exact (h.window sessionId r hr hidle hcrc).congr rfl rfl

/-- The log of a frame that changes nothing. -/
theorem logFrame_of_none (h : s.Ok) (ho : frameOutcome env sessionId channelId frame s.world = none) :
    logFrame env sessionId frame
        (processRecvFileFrameData env sessionId channelId frame s.world).1 s =
      s.accepted sessionId := by
  unfold logFrame
  split
  · rfl
  · next hcode =>
    have hfile : frame.frameType.isFileFrame ≠ true := by
      intro hf
      obtain ⟨o, hsome, -⟩ := (processRecvFileFrameData_code h.settled hf).1 (not_not.1 hcode)
      simp [ho] at hsome
    cases hf : frame.frameType <;> simp [hf, FrameType.isFileFrame] at hfile <;> rfl

/-- What a frame does to the window of its session. -/
theorem Ok.window_frame (h : s.Ok) (hi : s.Windowed (.frame env sessionId channelId frame)) {o : Outcome}
    (ho : frameOutcome env sessionId channelId frame s.world = some o) (hr' : o.recipient = some r')
    (hidle : r'.recvState ≠ .idle) (hcrc : r'.crc = appInfoFileFeaturesSupport) :
    WindowOk r'.recvFileInfo (logFrame env sessionId frame
      (processRecvFileFrameData env sessionId channelId frame s.world).1 s) := by
  have hheld : ∀ {r}, getRecipientInProcessRef sessionId s.world = some r →
      r.crc = appInfoFileFeaturesSupport → WindowOk r.recvFileInfo (s.accepted sessionId) := by
    intro r hget hc
    obtain ⟨r₀, hr₀, hne, rfl⟩ := getRecipientInProcessRef_eq_some h.settled hget
    exact h.window sessionId r₀ hr₀ hne hc
  have hcode : frame.frameType.isFileFrame = true → o.code = .ok →
      (processRecvFileFrameData env sessionId channelId frame s.world).1 = .ok :=
    fun hf hc => (processRecvFileFrameData_code h.settled hf).2 ⟨o, ho, hc⟩
  have hlen : ¬ frame.frameLength > proxyMaxPacketSize := by
    intro hlen
    simp [frameOutcome, hlen] at ho
  cases handled_of_frameOutcome ho with
  | start hf _ =>
    obtain ⟨hc, hwin⟩ := windowOk_startOutcome hcrc hr'
    simpa [logFrame, hf, hcode (by rw [hf]; rfl) hc] using hwin
  | data hf hget =>
    obtain ⟨hc, hwin⟩ := windowOk_dataOutcome hget hcrc (hheld hget) hr'
    obtain hf | hf | hf := hf <;> simpa [logFrame, hf, hcode (by rw [hf]; rfl) hc] using hwin
  | checkSum _ hget =>
    -- the file is finished: the recipient is idle or gone
    unfold checkSumOutcome at hr'
    dsimp only at hr'
    split at hr'
    · simp at hr'
    · rw [setRecipientRecvState_idle (held_getRecipientInProcessRef h.settled hget).recvState] at hr'
      cases hr'
      simp at hidle
  | @ack r hf hget =>
    have hlog : logFrame env sessionId frame
        (processRecvFileFrameData env sessionId channelId frame s.world).1 s =
        s.accepted sessionId := by
      simp [logFrame, hf]
    rw [hlog]
    unfold ackOutcome at hr'
    split at hr'
    · cases hr'
      exact hheld hget hcrc
    · next request hreq =>
      split at hr'
      · cases hr'
        exact hheld hget hcrc
      · next heq =>
        cases hr'
        have hans : r ∈ s.answering (.frame env sessionId channelId frame) :=
          mem_answering_iff.2 ⟨not_lt.1 hlen, hf, hget, request, hreq, not_not.1 heq⟩
        exact (hheld hget hcrc).slide (hi r hans).2
  | list =>
    unfold listOutcome at hr'
    dsimp only at hr'
    split at hr' <;> simp at hr'
  | @result r _ hf hr =>
    have hlog : logFrame env sessionId frame
        (processRecvFileFrameData env sessionId channelId frame s.world).1 s =
        s.accepted sessionId := by
      simp [logFrame, hf]
    rw [hlog]
    cases hr'
    exact h.window sessionId r hr hidle hcrc

theorem Ok.step (h : s.Ok) (hi : s.Windowed i) : (s.step i).Ok := by
  cases i with
  | tick env => exact h.tick
  | frame env sessionId channelId frame =>
    refine ⟨settled_step h.settled _, fun sessionId' r' hr' hidle hcrc => ?_⟩
    by_cases hk : sessionId' = sessionId
    · subst hk
      have hacc : (s.step (.frame env sessionId' channelId frame)).accepted sessionId' =
          logFrame env sessionId' frame
            (processRecvFileFrameData env sessionId' channelId frame s.world).1 s :=
        update_self ..
      have hstep : (s.step (.frame env sessionId' channelId frame)).world =
          (processRecvFileFrameData env sessionId' channelId frame s.world).2 := rfl
      rw [hacc]
      rw [hstep, processRecvFileFrameData_eq h.settled] at hr'
      cases ho : frameOutcome env sessionId' channelId frame s.world with
      | none =>
        rw [ho] at hr'
        rw [logFrame_of_none h ho]
        exact h.window sessionId' r' hr' hidle hcrc
      | some o =>
        simp only [ho] at hr'
        rw [recipient_settle_self (valid_frameOutcome h.settled ho), Option.map_eq_some_iff] at hr'
        obtain ⟨r, hr, rfl⟩ := hr'
        have hwin := h.window_frame hi ho hr hidle hcrc
        exact hwin
    · have hacc : (s.step (.frame env sessionId channelId frame)).accepted sessionId' =
          s.accepted sessionId' := update_of_ne hk ..
      have hstep : (s.step (.frame env sessionId channelId frame)).world.recipient sessionId' =
          s.world.recipient sessionId' := recipient_step_ne h.settled hk
      rw [hacc]
      rw [hstep] at hr'
      exact h.window sessionId' r' hr' hidle hcrc

/-! ## Answers -/

theorem packAckReqAndResData_inj {startSeq' value value' : UInt32}
    (h : packAckReqAndResData startSeq value = packAckReqAndResData startSeq' value') :
    startSeq = startSeq' ∧ value = value' := by
  have hword : ∀ {v v' : UInt32}, Bytes.toLE 4 v.toNat = Bytes.toLE 4 v'.toNat → v = v' := by
    intro v v' hv
    have hof := congrArg Bytes.ofLE hv
    rwa [Bytes.ofLE_toLE_of_lt v.toNat_lt, Bytes.ofLE_toLE_of_lt v'.toNat_lt, UInt32.toNat_inj]
      at hof
  obtain ⟨hstart, hvalue⟩ := List.append_inj (List.append_cancel_left h) (by simp)
  exact ⟨hword hstart, hword hvalue⟩

/-- The answers of a step. -/
theorem mem_answers_iff (hs : s.world.Settled) (hf : frame.frameType = .ackRequestSent) {channel : Int32}
    {seqResult : UInt32} :
    .sent channel ⟨.ackResponseSent, packAckReqAndResData startSeq seqResult⟩ ∈
        (s.world.step (.frame env sessionId channelId frame)).trace.drop s.world.trace.length ↔
      ∃ r ∈ s.answering (.frame env sessionId channelId frame), channel = r.channelId ∧
        startSeq = r.recvFileInfo.startSeq ∧ seqResult = r.recvFileInfo.seqResult.toUInt32 := by
  simp only [mem_answering_iff]
  rw [RecvWorld.step, processRecvFileFrameData_eq hs]
  by_cases hlen : frame.frameLength > proxyMaxPacketSize
  · simp [frameOutcome, hlen, not_le.2 hlen]
  simp only [frameOutcome, if_neg hlen, hf]
  cases hget : getRecipientInProcessRef sessionId s.world with
  | none => simp
  | some r =>
    simp only [Option.map_some, RecvWorld.settle, List.drop_left]
    unfold ackOutcome
    cases hreq : unpackAckReqAndResData env.beyond frame with
    | error e => simp
    | ok request =>
      dsimp only
      split
      · next hne => simp [hne]
      · next heq =>
        simp only [List.mem_singleton, RecvEvent.sent.injEq, FileFrame.mk.injEq, true_and]
        constructor
        · rintro ⟨hch, hpack⟩
          exact ⟨r, ⟨not_lt.1 hlen, rfl, request, rfl, not_not.1 heq⟩, hch,
            packAckReqAndResData_inj hpack⟩
        · rintro ⟨r', ⟨-, hr', -⟩, hch, hstart, hresult⟩
          cases hr'
          exact ⟨hch, by rw [hstart, hresult]⟩

theorem Ok.ackExact_iff (h : s.Ok) (hi : s.Windowed i) : s.AckExact i ↔ s.AckSafe i := by
  cases i with
  | tick env => exact iff_of_true trivial fun r hr => absurd hr (by simp [answering])
  | frame env sessionId channelId frame =>
    have hwin : ∀ r ∈ s.answering (.frame env sessionId channelId frame),
        r.sessionId = sessionId ∧ WindowOk r.recvFileInfo (s.accepted sessionId) := by
      intro r hr
      obtain ⟨-, -, hget, -⟩ := mem_answering_iff.1 hr
      obtain ⟨r₀, hr₀, hne, rfl⟩ := getRecipientInProcessRef_eq_some h.settled hget
      exact ⟨(held_held hr₀).sessionId, h.window sessionId r₀ hr₀ hne (hi _ hr).1⟩
    have hbit : ∀ r ∈ s.answering (.frame env sessionId channelId frame), ∀ i < 32,
        (r.recvFileInfo.seqResult.toUInt32.toNat.testBit i =
          r.recvFileInfo.seqResult.toNat.testBit i) ∧ ∀ a : AcceptedFrame,
          (a.seq = r.recvFileInfo.startSeq + ofNat i ↔
            a.seq.toNat = r.recvFileInfo.startSeq.toNat + i) := by
      intro r hr i hi32
      have hno := (hi r hr).2
      refine ⟨?_, fun a => ?_⟩
      · rw [UInt64.toNat_toUInt32, Nat.testBit_mod_two_pow, decide_eq_true hi32, Bool.true_and]
      · rw [← UInt32.toNat_inj, UInt32.toNat_add, UInt32.toNat_ofNat_of_lt' (by
          show i < 2 ^ 32
          omega), Nat.mod_eq_of_lt (by omega)]
    constructor
    · intro hexact r hr
      obtain ⟨hsess, hok⟩ := hwin r hr
      rw [hsess]
      by_cases hspill : ∃ a ∈ s.accepted sessionId,
          a.inWindow = true ∧ a.seq.toNat + 1 = r.recvFileInfo.startSeq.toNat
      · right
        intro i hi32
        obtain ⟨hb, ha⟩ := hbit r hr i hi32
        have hans := (mem_answers_iff h.settled (mem_answering_iff.1 hr).2.1).2 ⟨r, hr, rfl, rfl, rfl⟩
        have hset := (hexact (mem_answering_iff.1 hr).2.1 _ _ _ hans i hi32).1
          (by rw [hb]; exact (hok.low i hi32).2 (.inl hspill))
        obtain ⟨a, hmem, hseq⟩ := hset
        exact ⟨a, hmem, (ha a).1 hseq⟩
      · left
        intro a hmem hw hseq
        exact hspill ⟨a, hmem, hw, hseq⟩
    · intro hsafe hf channel startSeq seqResult hans i hi32
      obtain ⟨r, hr, -, rfl, rfl⟩ := (mem_answers_iff h.settled hf).1 hans
      obtain ⟨hsess, hok⟩ := hwin r hr
      obtain ⟨hb, ha⟩ := hbit r hr i hi32
      rw [hb, hok.low i hi32]
      simp only [ha]
      constructor
      · rintro (⟨a, hmem, hw, hseq⟩ | hacc)
        · rcases hsafe r hr with hno | hall
          · exact absurd hseq (hno a (hsess ▸ hmem) hw)
          · exact hsess ▸ hall i hi32
        · exact hacc
      · exact .inr

theorem ok_init : init.Ok where
  settled := settled_run []
  window := by
    intro sessionId r hr
    have : RecvWorld.init.recipient sessionId = none := rfl
    simp [init, this] at hr

end RecvLog

open Run (AllSteps)

/-- In a run whose answers are for numbered frames, every bitmap that is sent is exact
    exactly when no window with a frame missing follows one whose last frame was accepted
    in time. -/
theorem ackExact_run_iff (inputs : List RecvInput)
    (hwin : AllSteps RecvLog.step RecvLog.Windowed .init inputs) :
    AllSteps RecvLog.step RecvLog.AckExact .init inputs ↔
      AllSteps RecvLog.step RecvLog.AckSafe .init inputs :=
  hwin.congr_inv (fun _ _ hs hi => ⟨hs.step hi, hs.ackExact_iff hi⟩) RecvLog.ok_init

instance (s : RecvLog) (i : RecvInput) : Decidable (s.Windowed i) :=
  inferInstanceAs (Decidable (∀ r ∈ s.answering i, _))

instance (s : RecvLog) (i : RecvInput) : Decidable (s.AckSafe i) :=
  inferInstanceAs (Decidable (∀ r ∈ s.answering i, _))

/-- A file is started, its first 32 frames are received, and their window is
    acknowledged. -/
def fullWindow : List RecvInput :=
  let env := goodEnv appInfoFileFeaturesSupport
  [.frame env 1 1 (startFrameA 32)] ++
    (List.range 32).map (fun k => .frame env 1 1 ⟨.ongoine, packCrcData (.ofNat (k + 1)) [0]⟩) ++
    [.frame env 1 1 ⟨.ackRequestSent, packAckReqAndResData 1 32⟩]

theorem ackExact_fullWindow :
    AllSteps RecvLog.step RecvLog.Windowed .init fullWindow ∧
      AllSteps RecvLog.step RecvLog.AckExact .init fullWindow := by
  have hwin : AllSteps RecvLog.step RecvLog.Windowed .init fullWindow := by decide +kernel
  have hsafe : AllSteps RecvLog.step RecvLog.AckSafe .init fullWindow := by decide +kernel
  exact ⟨hwin, (ackExact_run_iff fullWindow hwin).2 hsafe⟩

/-- The next window is reported complete although none of its frames came. -/
theorem ackExact_run_fails :
    ¬ AllSteps RecvLog.step RecvLog.AckExact .init (fullWindow ++
      [.frame (goodEnv appInfoFileFeaturesSupport) 1 1
        ⟨.ackRequestSent, packAckReqAndResData 33 64⟩]) := by
  intro h
  have hlast := Run.allSteps_iff_forall_pre.1 h _ _ (List.prefix_refl _)
  have hsent : .sent 1 ⟨.ackResponseSent, packAckReqAndResData 33 0xFFFFFFFF⟩ ∈
      ((fullWindow.foldl RecvLog.step .init).world.step
        (.frame (goodEnv appInfoFileFeaturesSupport) 1 1
          ⟨.ackRequestSent, packAckReqAndResData 33 64⟩)).trace.drop
        (fullWindow.foldl RecvLog.step .init).world.trace.length := by decide +kernel
  have hnone : ¬ ∃ a ∈ (fullWindow.foldl RecvLog.step .init).accepted 1,
      a.seq = 33 + ofNat 0 := by decide +kernel
  exact hnone ((hlast rfl 1 33 0xFFFFFFFF hsent 0 (by decide)).1 (by decide))

end SoftBus.Native
