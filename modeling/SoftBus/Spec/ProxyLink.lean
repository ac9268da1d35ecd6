import SoftBus.Native.ProxyFileSend

/-!
# The two sides of a transfer

What the sender does besides sending concerns only what it knows itself, and it sends
frames of few types.  A property of the receiver that such frames keep (`Link.Keeps`) is
therefore kept by everything the sender does.
-/

namespace SoftBus.Native
variable {env : LinkEnv} {t : Transmission} {frame : FileFrame} {frameNum : ℕ} {destFile : Path}

/-- A frame that reaches the receiver. -/
theorem Link.send_eq (hkept : env.lost t = false) {s : Link} {code : SoftBusErr} {recv : RecvWorld}
    (h : processRecvFileFrameData (env.recv s.handled.length) env.peerSession env.peerChannel frame s.recv = (code, recv)) :
    s.send env t frame = { s with
      recv := recv
      replies := s.replies ++ sentFrames (recv.trace.drop s.recv.trace.length)
      handled := s.handled ++ [(frame, code)] } := by
  unfold Link.send
  rw [hkept]
  simp only [Bool.false_eq_true, if_false, h]

theorem Link.info_send (env : LinkEnv) (t : Transmission) (frame : FileFrame) (s : Link) :
    (s.send env t frame).info = s.info := by
  unfold Link.send
  split
  · rfl
  · rfl

theorem Link.pending_send (env : LinkEnv) (t : Transmission) (frame : FileFrame) (s : Link) :
    (s.send env t frame).pending = s.pending := by
  unfold Link.send
  split
  · rfl
  · rfl

theorem Link.recv_send (hkept : env.lost t = false) (frame : FileFrame) (s : Link) :
    (s.send env t frame).recv = (processRecvFileFrameData (env.recv s.handled.length)
      env.peerSession env.peerChannel frame s.recv).2 := by
  unfold Link.send
  rw [hkept]
  rfl

theorem Link.replies_send (hkept : env.lost t = false) (frame : FileFrame) (s : Link) :
    (s.send env t frame).replies = s.replies ++
      sentFrames ((processRecvFileFrameData (env.recv s.handled.length) env.peerSession
        env.peerChannel frame s.recv).2.trace.drop s.recv.trace.length) := by
  unfold Link.send
  rw [hkept]
  rfl

theorem Link.handled_send (hkept : env.lost t = false) (s : Link) :
    (s.send env t frame).handled = s.handled ++ [(frame, (processRecvFileFrameData
      (env.recv s.handled.length) env.peerSession env.peerChannel frame s.recv).1)] := by
  unfold Link.send
  rw [hkept]
  rfl

/-! ## What the receiver does not see -/

/-- The two transfers differ in what the sender knows of the file. -/
structure Link.SameChannel (s s' : Link) : Prop where
  recv : s'.recv = s.recv
  handled : s'.handled = s.handled
  crc : s'.info.crc = s.info.crc

section SameChannel
variable (env : LinkEnv) (s : Link)

theorem sameChannel_createPendingPacket (seq : UInt32) :
    s.SameChannel (createPendingPacket seq s).2 := by
  unfold createPendingPacket
  split
  · exact ⟨rfl, rfl, rfl⟩
  · exact ⟨rfl, rfl, rfl⟩

theorem sameChannel_getPendingPacketData (seq : UInt32) (isDelete : Bool) :
    s.SameChannel (getPendingPacketData seq isDelete s).2.2 := by
  unfold getPendingPacketData
  split
  · exact ⟨rfl, rfl, rfl⟩
  · split
    · exact ⟨rfl, rfl, rfl⟩
    · split
      · exact ⟨rfl, rfl, rfl⟩
      · exact ⟨rfl, rfl, rfl⟩

/-- A reply concerns the result and the pending packets. -/
theorem processReply_eq (frame : FileFrame) : ∃ result pending,
    processReply env s frame = { s with info := { s.info with result := result }, pending := pending } := by
  unfold processReply
  split
  · split
    · exact ⟨_, _, rfl⟩
    · split
      · exact ⟨_, _, rfl⟩
      · exact ⟨_, _, rfl⟩
  · unfold processFileAckResponse
    split
    · exact ⟨_, _, rfl⟩
    · split
      · exact ⟨_, _, rfl⟩
      · exact ⟨_, _, rfl⟩
  · exact ⟨_, _, rfl⟩

theorem foldl_processReply_eq (replies : List FileFrame) : ∃ result pending,
    replies.foldl (processReply env) s =
      { s with info := { s.info with result := result }, pending := pending } := by
  induction replies generalizing s with
  | nil => exact ⟨_, _, rfl⟩
  | cons frame replies ih =>
    obtain ⟨result, pending, heq⟩ := processReply_eq env s frame
    rw [List.foldl_cons, heq]
    exact ih _

theorem sameChannel_poll (index : ℕ) : s.SameChannel (s.poll env index) := by
  unfold Link.poll
  split
  · obtain ⟨result, pending, heq⟩ := foldl_processReply_eq env { s with replies := [] } s.replies
    rw [heq]
    exact ⟨rfl, rfl, rfl⟩
  · exact ⟨rfl, rfl, rfl⟩

variable {s} in
theorem Link.poll_eq_self (index : ℕ) (h : s.replies = []) : s.poll env index = s := by
  unfold poll
  split
  · rw [h, List.foldl_nil, ← h]
  · rfl

theorem crc_packReadFileData {readLength fileOffset : ℕ} {info info' : SendListenerInfo}
    {data : List UInt8} (h : packReadFileData readLength fileOffset info = some (data, info')) :
    info'.crc = info.crc := by
  unfold packReadFileData at h
  dsimp only at h
  split at h
  · simp at h
  split at h
  · split at h
    · simp at h
    · cases h
      rfl
  · split at h
    · simp at h
    · cases h
      rfl

end SameChannel

/-! ## What the sender keeps -/

/-- Only the frame with index 0 starts a file. -/
theorem frameIndexToType_ne_first {n : ℕ} (h : n ≠ 0) : frameIndexToType n frameNum ≠ .first := by
  unfold frameIndexToType
  rw [if_neg h]
  split
  · simp
  split
  · simp
  · simp

theorem frameIndexToType_ne_allFileSent (n : ℕ) : frameIndexToType n frameNum ≠ .allFileSent := by
  unfold frameIndexToType
  split
  · simp
  split
  · simp
  split
  · simp
  · simp

/-- A property of the receiving side that the frames of files keep; those that start a
    file only when `starts`. -/
structure Link.Keeps (env : LinkEnv) (starts : Bool) (P : Link → Prop) : Prop where
  same : ∀ {s s' : Link}, P s → s.SameChannel s' → P s'
  send : ∀ {s : Link}, P s → ∀ (t : Transmission) {frame : FileFrame},
    (frame.frameType = .first → starts = true) → frame.frameType ≠ .allFileSent → P (s.send env t frame)

namespace Link.Keeps
variable {starts : Bool} {P : Link → Prop} {s : Link}

/-- A call that may fail, and what is done when it succeeds. -/
theorem andThen {x : SoftBusErr × Link} (hx : P x.2) {f : Link → SoftBusErr × Link}
    (hf : ∀ s', P s' → P (f s').2) :
    P (match x with
      | (.ok, s) => f s
      | (_, s) => (.err, s)).2 := by
  obtain ⟨ret, s'⟩ := x
  cases ret with
  | ok => exact hf s' hx
  | _ => exact hx

section
variable (hk : Keeps env starts P) (h : P s)
include hk h

theorem packReadFileRetransData {seq : Int32} (hseq : 0 < seq)
    (len off : ℕ) : P (packReadFileRetransData env seq len off s).2 := by
  have hne : seq.toInt.toNat ≠ 0 := by
    have hlt := Int32.lt_iff_toInt_lt.1 hseq
    rw [Int32.toInt_zero] at hlt
    omega
  unfold SoftBus.Native.packReadFileRetransData
  dsimp only
  split
  · exact h
  split
  · exact h
  · -- frame 0, which starts the file, is never sent again
    exact hk.send h _ (fun hf => absurd hf (frameIndexToType_ne_first hne))
      (frameIndexToType_ne_allFileSent _)

theorem retransFileFrameBySeq (seq : Int32) : P (retransFileFrameBySeq env seq s).2 := by
  unfold SoftBus.Native.retransFileFrameBySeq
  split
  · exact h
  split
  · exact h
  next hseq =>
  dsimp only
  split
  · exact h
  · exact andThen (hk.packReadFileRetransData h (Int32.not_le.1 hseq) _ _) fun s' hs' => hs'

theorem ackResponseLoop (resData : AckResponseData)
    (bits : List ℕ) : P (ackResponseLoop env resData bits s).2 := by
  induction bits generalizing s with
  | nil => exact h
  | cons b bits ih =>
    unfold SoftBus.Native.ackResponseLoop
    split
    · exact ih h
    · exact andThen (hk.retransFileFrameBySeq h _) fun s' hs' => ih hs'

theorem ackResponseDataHandle (data : Option AckResponseData) :
    P (ackResponseDataHandle env data s).2 := by
  unfold SoftBus.Native.ackResponseDataHandle
  split
  · exact h
  · split
    · exact hk.ackResponseLoop h _ _
    · exact h

section
variable (frameType : FrameType)

theorem sendOneFrameFront : P (sendOneFrameFront frameType s).2 := by
  unfold SoftBus.Native.sendOneFrameFront
  split
  · exact h
  split
  · exact andThen (hk.same h (sameChannel_createPendingPacket s _))
      fun s' hs' => hk.same hs' ⟨rfl, rfl, rfl⟩
  · exact h

theorem sendOneFrameMiddle : P (sendOneFrameMiddle env frameType s).2 := by
  unfold SoftBus.Native.sendOneFrameMiddle
  split
  · exact h
  split
  · dsimp only
    split
    · exact h
    · apply andThen (hk.same h (sameChannel_createPendingPacket s _))
      intro s' hs'
      dsimp only
      refine hk.send (hk.same hs' ?_) _ ?_ ?_
      · exact ⟨rfl, rfl, rfl⟩
      · nofun
      · nofun
  · exact h

theorem sendOneFrameRear : P (sendOneFrameRear env frameType s).2 := by
  unfold SoftBus.Native.sendOneFrameRear
  split
  · exact h
  split
  · exact h
  split
  · have hget := hk.same h (sameChannel_getPendingPacketData s 0 true)
    split
    · next heq =>
      rw [heq] at hget
      exact hget
    · next heq =>
      rw [heq] at hget
      exact hget
  split
  · exact h
  · have hget := hk.same h (sameChannel_getPendingPacketData s s.info.waitSeq false)
    split
    · next data s' heq =>
      rw [heq] at hget
      exact hk.same (hk.ackResponseDataHandle hget data) ⟨rfl, rfl, rfl⟩
    · next s' heq =>
      rw [heq] at hget
      dsimp only
      split
      · exact hk.same hget ⟨rfl, rfl, rfl⟩
      · exact hk.same hget ⟨rfl, rfl, rfl⟩
    · next s' heq =>
      rw [heq] at hget
      exact hk.same hget ⟨rfl, rfl, rfl⟩

end

/-- What is done with a frame that is sent. -/
theorem afterSend (index : ℕ) (frameType : FrameType) :
    P (match SoftBus.Native.sendOneFrameMiddle env frameType s with
      | (.ok, s) =>
        match SoftBus.Native.sendOneFrameRear env frameType (s.poll env index) with
        | (.ok, s) => if s.info.result ≠ SoftBusErr.ok.code then (SoftBusErr.err, s) else (.ok, s)
        | (_, s) => (.err, s)
      | (_, s) => (.err, s)).2 := by
  apply andThen (hk.sendOneFrameMiddle h _)
  intro s₁ h₁
  apply andThen (hk.sendOneFrameRear (hk.same h₁ (sameChannel_poll env s₁ index)) _)
  intro s₂ h₂
  split
  · exact h₂
  · exact h₂

theorem sendOneFrame (index : ℕ)
    (hfirst : frame.frameType = .first → starts = true) (hlist : frame.frameType ≠ .allFileSent) :
    P (sendOneFrame env index frame s).2 := by
  apply andThen (hk.sendOneFrameFront h _)
  intro s₁ h₁
  exact hk.afterSend (hk.send h₁ _ hfirst hlist) index _

theorem fileToFrameLoop (destFile : Path) (left : ℕ) {index : ℕ}
    (hindex : index = 0 → starts = true) (fileOffset remained : ℕ) :
    P (fileToFrameLoop env destFile left index fileOffset remained s).2 := by
  have hfirst : frameIndexToType index s.info.frameNum = .first → starts = true := fun hf =>
    hindex (by_contra fun hne => frameIndexToType_ne_first hne hf)
  induction left generalizing index fileOffset remained s with
  | zero => exact h
  | succ left ih =>
    unfold SoftBus.Native.fileToFrameLoop
    dsimp only
    -- the index of the next frame is not 0
    have hnext : ∀ s' : Link, P s' → ∀ off rem,
        P (SoftBus.Native.fileToFrameLoop env destFile left (index + 1) off rem s').2 :=
      fun s' hs' off rem => ih hs' (by omega) off rem
        fun hf => absurd hf (frameIndexToType_ne_first (by omega))
    split
    · split
      · exact h
      · exact andThen (hk.sendOneFrame h index hfirst (frameIndexToType_ne_allFileSent _))
          fun s' hs' => hnext s' hs' _ _
    · split
      · exact h
      · next data info heq =>
        have hinfo : P { s with info := info } := hk.same h ⟨rfl, rfl, crc_packReadFileData heq⟩
        exact andThen (hk.sendOneFrame hinfo index hfirst (frameIndexToType_ne_allFileSent _))
          fun s' hs' => hnext s' hs' _ _

theorem sendFileCrcCheckSum : P (sendFileCrcCheckSum env s).2 := by
  unfold SoftBus.Native.sendFileCrcCheckSum
  split
  · exact h
  · apply andThen (hk.same h (sameChannel_createPendingPacket s _))
    intro s' hs'
    have hsent : P (s'.send env .checkSum ⟨.crcCheck, packFileCrcCheckSum (s.info.seq + 1)
        s'.info.checkSumCRC⟩) := hk.send hs' .checkSum nofun nofun
    exact hk.same (hk.same hsent (sameChannel_poll env _ _))
      (sameChannel_getPendingPacketData _ _ true)

end

/-! A whole list of files starts files. -/

section
variable (hk : Keeps env true P) (h : P s)
include hk h

theorem fileToFrame : P (fileToFrame env destFile s).2 := by
  apply andThen (hk.fileToFrameLoop h destFile _ (fun _ => rfl) _ _)
  intro s' hs'
  exact andThen (hk.sendFileCrcCheckSum hs') fun s'' hs'' => hs''

theorem fileToFrameAndSendFile (sourceFile : Path) :
    P (fileToFrameAndSendFile env sourceFile destFile s).2 := by
  unfold SoftBus.Native.fileToFrameAndSendFile
  split
  · exact h
  split
  · exact h
  split
  · exact h
  dsimp only
  split
  · exact h
  split
  · exact h
  · apply hk.fileToFrame
    exact hk.same h ⟨rfl, rfl, rfl⟩

theorem sendSingleFile (sourceFile destFile : Path) : P (sendSingleFile env sourceFile destFile s).2 :=
  hk.same (hk.fileToFrameAndSendFile h sourceFile) ⟨rfl, rfl, rfl⟩

theorem sendFiles (files : List (Path × Path)) : P (sendFiles env files s).2 := by
  induction files generalizing s with
  | nil => exact h
  | cons file files ih =>
    exact andThen (hk.sendSingleFile h file.1 file.2) fun s' hs' => ih hs'

end
end Link.Keeps
end SoftBus.Native
