import SoftBus.Spec.ProxyFinish
import SoftBus.Spec.ProxyRetrans

/-!
# The windows of sender and receiver

Over a link that loses nothing, the answers to the acknowledgement requests may come as
late as they like: the receiver opens its next window with the request, so every data
frame that the sender is still permitted to send finds its window open and no frame
missing before it.  `Unbroken` says so of everything that reached the receiver, and each
operation of the sender keeps it.
-/

namespace SoftBus.Native
open List Link
variable {env : RecvEnv} {sender sessionId : Int32} {frame : FileFrame} {w : RecvWorld} {s s₀ : Link}
  {x : SoftBusErr × Link} {data : List UInt8} {file : Path × Path}

/-! ## Frames that are missing -/

/-- `ProcessOneFrameCRC` refuses a frame because frames before it are missing: it is
    beyond the window, the gap before it cannot be filled, or the window before is
    incomplete when it has to be complete. -/
def missingFrames (env : RecvEnv) (frameType : FrameType) (data : FileData) (s : WriteState) : Bool :=
  if data.seq ≥ s.fileInfo.startSeq + 32 then
    true
  else if data.seq ≥ s.fileInfo.startSeq then
    match writeEmptyFrame env (data.seq - s.fileInfo.seq - 1).toInt32 s with
    | (.ok, s) => frameLoss frameType data.seq s.fileInfo
    | (_, _) => true
  else
    false

/-- The receiver gives the file of the session up at this frame because frames are missing. -/
def AbortsForMissing (env : RecvEnv) (sessionId : Int32) (frame : FileFrame) (w : RecvWorld) : Prop :=
  ∃ r data, getRecipientInProcessRef sessionId w = some r ∧ r.crc = appInfoFileFeaturesSupport ∧
    (frame.frameType = .ongoine ∨ frame.frameType = .onlyone ∨ frame.frameType = .last) ∧
    unpackFileDataFrame r.crc env.beyond frame = .ok data ∧
    missingFrames env frame.frameType data
      ⟨r.recvFileInfo, w.files r.recvFileInfo.fileFd, 0⟩ = true

theorem Gone.not_abortsForMissing (h : Gone sessionId w) : ¬ AbortsForMissing env sessionId frame w := by
  rintro ⟨r, data, hget, -⟩
  rw [getRecipientInProcessRef_eq_none (by simp [h.recipient])] at hget
  simp at hget

/-- A frame that is not of a file. -/
theorem not_abortsForMissing_of_type
    (h : frame.frameType ≠ .ongoine ∧ frame.frameType ≠ .onlyone ∧ frame.frameType ≠ .last) :
    ¬ AbortsForMissing env sessionId frame w := by
  rintro ⟨r, data, -, -, htype, -⟩
  rcases htype with ht | ht | ht
  · exact h.1 ht
  · exact h.2.1 ht
  · exact h.2.2 ht

section
variable {source : List UInt8} {i w : ℕ} {pre : UInt32} {world : RecvWorld}

/-- The receiver has got all frames so far. -/
theorem Receiving.seq_eq {file : SingleFileInfo} {content : List UInt8}
    {accepted : List AcceptedFrame}
    (h : Receiving source (fun _ => false) i w file content accepted) : file.seq.toNat = i := by
  have hle := h.seq_le
  cases i with
  | zero => omega
  | succ i =>
    have hmem := (h.inWindow i).2 ⟨by omega, rfl⟩
    have hlt := h.copy.lt_seq i hmem
    omega

/-- The next frame finds no frame missing. -/
theorem RecvAt.not_abortsForMissing
    (h : RecvAt source (fun _ => false) sessionId i w pre world)
    (hsize : source.length ≤ maxFileSize) (hi : i < dataFrames source) (hlo : 32 * w ≤ i)
    (hhi : i < 32 * w + 32) (hpre : w = 0 ∨ PreFull pre) (env : RecvEnv) :
    ¬ AbortsForMissing env sessionId (dataFrame source i) world := by
  obtain ⟨r, accepted, hr, hidle, hcrc, rfl, hrecv⟩ := h.recipient
  rintro ⟨r', data, hget, -, -, hdata, hmissing⟩
  rw [getRecipientInProcessRef_eq hr (settled_iff.1 h.settled _ r hr) hidle] at hget
  cases hget
  rw [show r.held.crc = _ from hcrc, unpackFileDataFrame_dataFrame env.beyond hi] at hdata
  cases hdata
  obtain ⟨hle, hlt⟩ := hrecv.seq_inWindow hsize hi hlo hhi
  have hseq := hrecv.seq_eq
  have hnew : r.recvFileInfo.seq < .ofNat (i + 1) := by
    rw [UInt32.lt_iff_toNat_lt, toNat_ofNat_frame hsize hi]
    omega
  -- there is no gap to fill
  have hgap : ¬ (UInt32.ofNat (i + 1) - r.recvFileInfo.seq - 1).toInt32 > 0 := by
    have hskip : skipped (.ofNat (i + 1)) r.recvFileInfo = 0 := by
      rw [CopyOk.skipped_eq hsize hi hnew, hseq, Nat.sub_self]
    unfold skipped at hskip
    rw [gt_iff_lt, Int32.lt_iff_toInt_lt, Int32.toInt_zero]
    omega
  have hloss : frameLoss (dataFrame source i).frameType (.ofNat (i + 1)) r.recvFileInfo = false := by
    rw [← Bool.not_eq_true, hrecv.frameLoss_iff hsize hi hlo hhi]
    rintro ⟨hw, -, hfull⟩
    rcases hpre with hpre | hpre
    · omega
    · exact hfull hpre
  rw [show r.held.recvFileInfo = r.recvFileInfo from rfl] at hmissing
  unfold missingFrames writeEmptyFrame at hmissing
  rw [if_neg (UInt32.not_le.2 hlt), if_pos hle, if_neg hgap] at hmissing
  dsimp only at hmissing
  rw [hloss] at hmissing
  exact Bool.false_ne_true hmissing

end

/-! ## What reached the receiver -/

/-- The receiver after frames that reach it when it has had `n` others. -/
def replay (env : LinkEnv) (n : ℕ) (w : RecvWorld) : List (FileFrame × SoftBusErr) → RecvWorld
  | [] => w
  | p :: rest => replay env (n + 1)
      (processRecvFileFrameData (env.recv n) env.peerSession env.peerChannel p.1 w).2 rest

theorem replay_append (env : LinkEnv) (n : ℕ) (l l' : List (FileFrame × SoftBusErr)) :
    replay env n w (l ++ l') = replay env (n + l.length) (replay env n w l) l' := by
  induction l generalizing n w with
  | nil => rfl
  | cons p l ih =>
    rw [cons_append, replay, ih, length_cons]
    congr 1
    omega

/-- Of the frames that reached the receiver since `s₀`, none made it give a file up because
    of missing frames. -/
def Unbroken (env : LinkEnv) (s₀ s : Link) : Prop :=
  ∃ new, s.handled = s₀.handled ++ new ∧ s.recv = replay env s₀.handled.length s₀.recv new ∧
    ∀ before p after, new = before ++ p :: after →
      ¬ AbortsForMissing (env.recv (s₀.handled.length + before.length)) env.peerSession p.1
        (replay env s₀.handled.length s₀.recv before)

namespace Unbroken
variable {env : LinkEnv} {s' : Link}

theorem refl (env : LinkEnv) (s₀ : Link) : Unbroken env s₀ s₀ :=
  ⟨[], (append_nil _).symm, rfl, fun before p after h => by simp at h⟩

theorem same (h : Unbroken env s₀ s) (hsame : s.SameChannel s') : Unbroken env s₀ s' := by
  obtain ⟨new, hhandled, hrecv, hno⟩ := h
  exact ⟨new, hsame.handled.trans hhandled, hsame.recv.trans hrecv, hno⟩

theorem send (h : Unbroken env s₀ s) (t : Transmission)
    (hframe : ¬ AbortsForMissing (env.recv s.handled.length) env.peerSession frame s.recv) :
    Unbroken env s₀ (s.send env t frame) := by
  cases hlost : env.lost t with
  | true =>
    unfold Link.send
    rw [hlost]
    exact h
  | false =>
    obtain ⟨new, hhandled, hrecv, hno⟩ := h
    have hlen : s.handled.length = s₀.handled.length + new.length := by
      rw [hhandled, length_append]
    obtain ⟨code, hsent⟩ : ∃ code, (s.send env t frame).handled = s.handled ++ [(frame, code)] :=
      ⟨_, handled_send hlost s⟩
    refine ⟨new ++ [(frame, code)], ?_, ?_, ?_⟩
    · rw [hsent, ← append_assoc, ← hhandled]
    · rw [recv_send hlost, replay_append, ← hrecv, ← hlen]
      rfl
    · intro before p after hsplit
      -- the new frame is the last one, or the split is one of the frames before
      rcases eq_nil_or_concat after with rfl | ⟨after', q, rfl⟩
      · obtain ⟨rfl, hp⟩ := append_inj' hsplit rfl
        obtain rfl := cons.inj hp |>.1
        rw [← hrecv, ← hlen]
        exact hframe
      · have hconcat : new ++ [(frame, code)] = (before ++ p :: after') ++ [q] := by
          rw [hsplit, concat_eq_append, append_assoc, cons_append]
        exact hno before p after' (append_inj' hconcat rfl).1

end Unbroken

/-- A transfer that the receiver has given up stays unbroken. -/
theorem keeps_gone_unbroken (env : LinkEnv) (s₀ : Link) :
    Link.Keeps env false fun s => Gone env.peerSession s.recv ∧ Unbroken env s₀ s where
  same h hsame := ⟨(keeps_gone env).same h.1 hsame, h.2.same hsame⟩
  send h t _ hf hlist := ⟨(keeps_gone env).send h.1 t hf hlist, h.2.send t h.1.not_abortsForMissing⟩

/-- A call after which the transfer is unbroken, and `Q` holds if it succeeds. -/
def Leads (env : LinkEnv) (s₀ : Link) (Q : Link → Prop) (x : SoftBusErr × Link) : Prop :=
  Unbroken env s₀ x.2 ∧ (x.1 = .ok → Q x.2)

theorem Leads.andThen {env : LinkEnv} {Q R : Link → Prop} {f : Link → SoftBusErr × Link} :
    Leads env s₀ Q x → (∀ s, Unbroken env s₀ s → Q s → Leads env s₀ R (f s)) →
      Leads env s₀ R (match x with
        | (.ok, s) => f s
        | (_, s) => (.err, s)) := by
  intro hx hf
  obtain ⟨ret, s⟩ := x
  cases ret with
  | ok => exact hf s hx.1 (hx.2 rfl)
  | _ => exact ⟨hx.1, by simp⟩

/-! ## Sender and receiver in step -/

/-- What a receiver that misses nothing replies. -/
def GoodReply (frame : FileFrame) : Prop :=
  (∃ seq, frame = ⟨.result, packFileTransResult seq .ok isRecvResult⟩) ∨
    ∃ startSeq, frame = ⟨.ackResponseSent, packAckReqAndResData startSeq fileSendAckResultSuccess⟩

/-- The sender has made `n` data frames; the receiver has got the first `i`, all of them
    reported when it was asked. -/
structure Synced (env : LinkEnv) (source : List UInt8) (n i w : ℕ) (s : Link) : Prop where
  sending : Sending source n s.info
  recv : ∃ pre, RecvAt source (fun _ => false) env.peerSession i w pre s.recv ∧ (w = 0 ∨ PreFull pre)
  replies : ∀ frame ∈ s.replies, GoodReply frame
  pending : s.info.waitSeq ≠ 0 → ∀ p ∈ s.pending, p.seq = s.info.waitSeq →
    ∀ data, p.data = some data → data.seqResult = fileSendAckResultSuccess

namespace Synced
variable {env : LinkEnv} {source : List UInt8} {n i w : ℕ} {s' : Link}

section
variable (h : Synced env source n i w s)
include h

/-- A good reply does not disturb the sender. -/
theorem processReply (hf : GoodReply frame) : Synced env source n i w (processReply env s frame) := by
  rcases hf with ⟨seq, rfl⟩ | ⟨startSeq, rfl⟩
  · have hunpack := unpackFileTransResultFrame_pack env.beyond .result seq isRecvResult .ok
    unfold SoftBus.Native.processReply
    rw [hunpack]
    refine ⟨{ h.sending with result := rfl }, h.recv, h.replies, ?_⟩
    intro hwait p hp hseq data hdata
    obtain ⟨p₀, hp₀, rfl⟩ := mem_map.1 hp
    apply h.pending hwait p₀ hp₀ _ data
    · rw [← hdata]
      split
      · rfl
      · rfl
    · rw [← show _ = s.info.waitSeq from hseq]
      split
      · rfl
      · rfl
  · have hunpack := unpackAckReqAndResData_pack env.beyond .ackResponseSent startSeq
    unfold SoftBus.Native.processReply processFileAckResponse
    rw [hunpack]
    refine { h with pending := ?_ }
    intro hwait p hp hseq data hdata
    obtain ⟨p₀, hp₀, rfl⟩ := mem_map.1 hp
    split at hdata
    · rw [← Option.some.inj hdata]
    · next hne =>
      rw [if_neg hne] at hseq
      exact absurd hseq hne

theorem poll (index : ℕ) : Synced env source n i w (s.poll env index) := by
  have hfold : ∀ (replies : List FileFrame) (s : Link), (∀ frame ∈ replies, GoodReply frame) →
      Synced env source n i w s → Synced env source n i w (replies.foldl (SoftBus.Native.processReply env) s) := by
    intro replies
    induction replies with
    | nil => exact fun s _ hs => hs
    | cons frame replies ih =>
      intro s hgood hs
      exact ih _ (fun f hf => hgood f (mem_cons_of_mem _ hf))
        (hs.processReply (hgood frame mem_cons_self))
  unfold Link.poll
  split
  · apply hfold s.replies _ h.replies
    exact ⟨h.sending, h.recv, by simp, h.pending⟩
  · exact h

/-- The sender may stop waiting. -/
theorem stopWaiting : Synced env source n i w s.stopWaiting :=
  ⟨h.sending.wait 0, h.recv, h.replies, fun hwait => absurd rfl hwait⟩

theorem deletePendingPacket (seq : UInt32) : Synced env source n i w (deletePendingPacket seq s) :=
  { h with pending := fun hwait p hp => h.pending hwait p (mem_of_mem_eraseP hp) }

theorem getPendingPacketData (seq : UInt32) (isDelete : Bool) :
    Synced env source n i w (getPendingPacketData seq isDelete s).2.2 := by
  unfold SoftBus.Native.getPendingPacketData
  split
  · exact h
  · split
    · exact h.deletePendingPacket seq
    · split
      · exact h.deletePendingPacket seq
      · exact h

/-- What the sender gets when it looks for the answer to its request. -/
theorem getPendingPacketData_waitSeq (hwait : s.info.waitSeq ≠ 0)
    {isDelete : Bool} {data : AckResponseData}
    (hdata : (SoftBus.Native.getPendingPacketData s.info.waitSeq isDelete s).2.1 = some data) :
    data.seqResult = fileSendAckResultSuccess := by
  unfold SoftBus.Native.getPendingPacketData at hdata
  split at hdata
  · simp at hdata
  · next p hp =>
    split at hdata
    · have hseq : p.seq = s.info.waitSeq := by simpa using find?_some hp
      exact h.pending hwait p (mem_of_find?_eq_some hp) hseq data hdata
    · simp at hdata

/-- The sender looks for the answer to its request; it has nothing to send again. -/
theorem rear (hu : Unbroken env s₀ s) {frameType : FrameType}
    (hf : frameType ≠ .first) :
    Leads env s₀ (Synced env source n i w) (sendOneFrameRear env frameType s) := by
  unfold sendOneFrameRear
  rw [if_neg (not_not.2 h.sending.crc)]
  split
  · exact ⟨hu, fun _ => h⟩
  split
  · exact ⟨hu, fun _ => h⟩
  next hwait =>
  have hget := h.getPendingPacketData s.info.waitSeq false
  have hdata : ∀ data, (SoftBus.Native.getPendingPacketData s.info.waitSeq false s).2.1 = some data →
      data.seqResult = fileSendAckResultSuccess := fun _ => h.getPendingPacketData_waitSeq hwait
  have hsame := sameChannel_getPendingPacketData s s.info.waitSeq false
  generalize SoftBus.Native.getPendingPacketData s.info.waitSeq false s = x at hget hdata hsame
  obtain ⟨ret, data, s'⟩ := x
  have hu' := hu.same hsame
  cases ret with
  | ok =>
    -- the answer reports the whole window
    have hhandle : ackResponseDataHandle env data s' = (.ok, s') := by
      unfold ackResponseDataHandle
      split
      · rfl
      · next resData => rw [if_neg (not_not.2 (hdata resData rfl))]
    dsimp only
    rw [hhandle]
    exact ⟨hu'.same ⟨rfl, rfl, rfl⟩, fun _ => hget.stopWaiting⟩
  | timout =>
    dsimp only
    split
    · exact ⟨hu'.same ⟨rfl, rfl, rfl⟩,
        fun _ => ⟨hget.sending.wait _, hget.recv, hget.replies, hget.pending⟩⟩
    · exact ⟨hu'.same ⟨rfl, rfl, rfl⟩, by simp⟩
  | _ => exact ⟨hu'.same ⟨rfl, rfl, rfl⟩, by simp⟩

/-- The request for a window opens the next one and is answered with the whole window. -/
theorem request (hkept : ∀ t, env.lost t = false) (hsize : source.length ≤ maxFileSize)
    (hu : Unbroken env s₀ s) (hw : 32 * (w + 1) = i) (hle : i ≤ dataFrames source)
    {startSeq seq : UInt32} (hstart : startSeq.toNat = 32 * w + 1) :
    Leads env s₀ (Synced env source n i (w + 1)) (.ok, s.send env (.ackRequest seq)
      ⟨.ackRequestSent, packAckReqAndResData startSeq seq⟩) := by
  subst hw
  obtain ⟨pre, hat, -⟩ := h.recv
  obtain ⟨report, recv, hreport, hproc, hat', hsent⟩ :=
    hat.acknowledge env.peerChannel hsize hle hstart
  have hfull : PreFull report := hreport.preFull_iff.2 (.inr fun _ _ => rfl)
  have hsend := send_eq (hkept (.ackRequest seq)) hproc
  refine ⟨hu.send _ (not_abortsForMissing_of_type (by simp)), fun _ => ?_⟩
  rw [hsend]
  refine ⟨h.sending, ⟨report, hat', .inr hfull⟩, fun frame hframe => ?_, h.pending⟩
  rw [hsent] at hframe
  rcases mem_append.1 hframe with hframe | hframe
  · exact h.replies frame hframe
  · rw [mem_singleton.1 hframe, show report = fileSendAckResultSuccess from hfull]
    exact .inr ⟨startSeq, rfl⟩

end

section
variable (hkept : ∀ t, env.lost t = false) (hsize : source.length ≤ maxFileSize)
  (hu : Unbroken env s₀ s) (hi : i < dataFrames source)
include hkept hsize hu hi

/-- The request at the end of a window, if the frame ends one. -/
theorem middle (h : Synced env source (i + 1) (i + 1) w s) (hlo : 32 * w ≤ i) (hhi : i < 32 * w + 32) :
    Leads env s₀ (Synced env source (i + 1) (i + 1) (min (i + 1) (dataFrames source - 1) / 32))
      (sendOneFrameMiddle env (dataFrame source i).frameType s) := by
  have hn := dataFrames_le hsize
  by_cases hreq : (i + 1) % 32 = 0 ∧ i + 1 < dataFrames source
  swap
  · rw [middle_none hsize hi h.sending (by omega)]
    have hdiv : min (i + 1) (dataFrames source - 1) / 32 = w := by omega
    exact ⟨hu, fun _ => hdiv ▸ h⟩
  have hw : 32 * (w + 1) = i + 1 := by omega
  have hdiv : min (i + 1) (dataFrames source - 1) / 32 = w + 1 := by omega
  have hongoine : (dataFrame source i).frameType = .ongoine := by
    rw [frameType_dataFrame_eq, if_neg (by omega)]
  have hseq := toNat_ofNat_frame hsize hi
  have hmod : ¬ s.info.seq % 32 ≠ 0 := by
    rw [not_not, h.sending.seq, ← UInt32.toNat_inj, UInt32.toNat_mod, hseq]
    exact hreq.1
  have hstart : (s.info.seq - 32 + 1).toNat = 32 * w + 1 := by
    have hle : (32 : UInt32) ≤ .ofNat (i + 1) := by
      rw [UInt32.le_iff_toNat_le, hseq]
      show 32 ≤ i + 1
      omega
    rw [h.sending.seq, UInt32.toNat_add, UInt32.toNat_sub_of_le _ _ hle, hseq,
      show (32 : UInt32).toNat = 32 from rfl, UInt32.toNat_one]
    omega
  have hcreate : Leads env s₀ (fun s' => Synced env source (i + 1) (i + 1) w
        { s' with info := { s'.info with waitSeq := s.info.seq, waitTimeoutCount := 0 } })
      (createPendingPacket s.info.seq s) := by
    refine ⟨hu.same (sameChannel_createPendingPacket s s.info.seq), ?_⟩
    unfold createPendingPacket
    split
    · simp
    · next hany =>
      refine fun _ => ⟨h.sending.wait _, h.recv, h.replies, fun _ p hp hseq data hdata => ?_⟩
      rcases mem_append.1 hp with hp | hp
      · exact absurd (any_eq_true.2 ⟨p, hp, decide_eq_true hseq⟩) hany
      · rw [mem_singleton.1 hp] at hdata
        simp at hdata
  rw [hdiv, hongoine]
  unfold sendOneFrameMiddle
  rw [if_neg (not_not.2 h.sending.crc)]
  rw [if_neg hmod]
  apply hcreate.andThen
  intro s₁ hu₁ h₁
  exact h₁.request hkept hsize (hu₁.same ⟨rfl, rfl, rfl⟩) hw (by omega) hstart

/-- After frame `i` the sender has asked for all windows that it has filled. -/
theorem step (h : Synced env source i i (min i (dataFrames source - 1) / 32) s) :
    Leads env s₀ (fun s' => (Gone env.peerSession s'.recv ∧ Unbroken env s₀ s') ∨
        Synced env source (i + 1) (i + 1) (min (i + 1) (dataFrames source - 1) / 32) s')
      (sendOneFrame env (i + 1) (dataFrame source i) (s.next source i)) := by
  rw [Nat.min_eq_left (by omega)] at h
  obtain ⟨pre, hat, hpre⟩ := h.recv
  have hno := hat.not_abortsForMissing hsize hi (by omega) (by omega) hpre
    (env.recv (s.next source i).handled.length)
  have hu₀ : Unbroken env s₀ (s.next source i) := hu.same ⟨rfl, rfl, rfl⟩
  have hu₁ := hu₀.send (.frame (i + 1)) hno
  unfold sendOneFrame
  rw [front_dataFrame]
  rcases hat.deliver_or_gone env.peerChannel hsize hi (by omega) (by omega) rfl with
    ⟨recv, hproc, hat', hsent⟩ | hgone
  · -- the frame is accepted
    have hsend := send_eq (s := s.next source i) (hkept (.frame (i + 1))) hproc
    have h₁ : Synced env source (i + 1) (i + 1) (i / 32)
        ((s.next source i).send env (.frame (i + 1)) (dataFrame source i)) := by
      rw [hsend]
      refine ⟨h.sending.next, ⟨pre, hat', hpre⟩, ?_, h.pending⟩
      show ∀ frame ∈ s.replies ++ sentFrames (recv.trace.drop s.recv.trace.length), GoodReply frame
      rw [hsent, append_nil]
      exact h.replies
    apply (h₁.middle hkept hsize hu₁ hi (by omega) (by omega)).andThen
    intro s₂ hu₂ h₂
    apply ((h₂.poll (i + 1)).rear (hu₂.same (sameChannel_poll env s₂ _))
      (dataFrame_ne_first source i)).andThen
    intro s₃ hu₃ h₃
    rw [if_neg (not_not.2 h₃.sending.result)]
    exact ⟨hu₃, fun _ => .inr h₃⟩
  · -- the receiver gives the file up for another reason
    have hdead : Gone env.peerSession
        ((s.next source i).send env (.frame (i + 1)) (dataFrame source i)).recv := by
      rw [recv_send (hkept _)]
      exact hgone
    have hafter := (keeps_gone_unbroken env s₀).afterSend ⟨hdead, hu₁⟩ (i + 1)
      (dataFrame source i).frameType
    exact ⟨hafter.2, fun _ => .inl hafter⟩

end
end Synced

/-! ## A whole file -/

section
variable {env : LinkEnv} {source : List UInt8} {destFile : Path}

theorem unbroken_loopFrom_gone (h : Gone env.peerSession s.recv ∧ Unbroken env s₀ s) (i : ℕ) :
    Unbroken env s₀ (loopFrom env source destFile i s).2 := by
  have hloop := (keeps_gone_unbroken env s₀).fileToFrameLoop h destFile (dataFrames source - i)
    (fun hi => absurd hi (Nat.succ_ne_zero i)) (min (crcFrameDataSize * i) source.length)
    (source.length - min (crcFrameDataSize * i) source.length)
  exact hloop.2

/-- The data frames of a file. -/
theorem Synced.loopFrom (hkept : ∀ t, env.lost t = false) (hsize : source.length ≤ maxFileSize) {i : ℕ}
    (h : Synced env source i i (min i (dataFrames source - 1) / 32) s) (hu : Unbroken env s₀ s)
    (hi : i ≤ dataFrames source) :
    Unbroken env s₀ (loopFrom env source destFile i s).2 := by
  -- on the number of frames that are left
  induction hleft : dataFrames source - i generalizing i s with
  | zero =>
    obtain rfl : i = dataFrames source := by omega
    rw [loopFrom_end]
    exact hu
  | succ left ih =>
    have hlt : i < dataFrames source := by omega
    obtain ⟨hu', hok⟩ := h.step hkept hsize hu hlt
    rw [loopFrom_next h.sending hlt]
    generalize sendOneFrame env (i + 1) (dataFrame source i) (s.next source i) = x at hu' hok ⊢
    obtain ⟨ret, s'⟩ := x
    cases ret with
    | ok =>
      rcases hok rfl with hgone | hnext
      · exact unbroken_loopFrom_gone hgone (i + 1)
      · exact ih hnext hu' (by omega) (by omega)
    | _ => exact hu'

/-- What a start frame does to a receiver: the file is started and the start answered, or the
    session has no file, or the frame is not answered. -/
theorem start_cases (sessionId channelId : Int32) (hp : PacksStart sender destFile source data)
    {recv : RecvWorld} (hw : recv.Settled) (env : RecvEnv) :
    let r := processRecvFileFrameData env sessionId channelId ⟨.first, data⟩ recv
    (RecvAt source (fun _ => false) sessionId 0 0 0 r.2 ∧ sentFrames (r.2.trace.drop recv.trace.length) =
        [⟨.result, packFileTransResult 0 .ok isRecvResult⟩]) ∨
      Gone sessionId r.2 ∨ sentFrames (r.2.trace.drop recv.trace.length) = [] := by
  intro r
  have hworld : r.2 = _ := processRecvFileFrameData_eq hw
  have hcode : r.1 = .ok ↔ _ := processRecvFileFrameData_code hw rfl
  cases ho : frameOutcome env sessionId channelId ⟨.first, data⟩ recv with
  | none =>
    rw [ho] at hworld
    refine .inr (.inr ?_)
    rw [hworld, drop_length]
    rfl
  | some o =>
    rw [ho] at hworld hcode
    have hvalid := valid_frameOutcome hw ho
    unfold frameOutcome at ho
    split at ho
    · simp at ho
    obtain ⟨r, hr, rfl⟩ := Option.map_eq_some_iff.1 ho
    by_cases hcrc : r.crc = appInfoFileFeaturesSupport
    · rcases startOutcome_cases env channelId ⟨.first, data⟩ r recv with
        ⟨-, hnone⟩ | ⟨file, -, hok, hsome, -⟩
      · refine .inr (.inl ⟨?_, ?_⟩)
        · rw [hworld]
          exact settled_settle hw hvalid
        · rw [hworld, recipient_settle_self hvalid, hnone]
          rfl
      · refine .inl (RecvAt.start hp ⟨hw, hcode.2 ⟨_, rfl, hok⟩, ?_⟩)
        intro r' hr'
        rw [hworld, recipient_settle_self hvalid, hsome] at hr'
        rw [← Option.some.inj hr']
        exact hcrc
    · refine .inr (.inr ?_)
      rw [hworld]
      dsimp only [RecvWorld.settle]
      rw [drop_left]
      exact (ignores_sent hcrc).startOutcome

/-- A sender at the start of a file. -/
structure FileStart (source : List UInt8) (s : Link) : Prop where
  sending : Sending source 0 s.info
  replies : s.replies = []
  settled : s.recv.Settled

/-- The sender waits for the answer to its start frame. -/
structure Starting (source : List UInt8) (s : Link) : Prop extends FileStart source s where
  waitSeq : s.info.waitSeq = 0
  unanswered : s.pending.find? (·.seq = 0) = some ⟨0, false, none⟩

theorem FileStart.front (h : FileStart source s) (hu : Unbroken env s₀ s) :
    Leads env s₀ (Starting source) (sendOneFrameFront .first s) := by
  unfold sendOneFrameFront
  rw [if_neg (not_not.2 h.sending.crc)]
  unfold createPendingPacket
  by_cases hany : s.pending.any (·.seq = 0) = true
  · -- a packet of an earlier file is still pending
    rw [if_pos hany]
    exact ⟨hu, by simp⟩
  · rw [if_neg hany]
    refine ⟨hu.same ⟨rfl, rfl, rfl⟩, fun _ => ⟨⟨h.sending.wait 0, h.replies, h.settled⟩, rfl, ?_⟩⟩
    have hnone : s.pending.find? (·.seq = 0) = none :=
      find?_eq_none.2 fun p hp hseq => hany (any_eq_true.2 ⟨p, hp, hseq⟩)
    show find? _ (s.pending ++ [_]) = _
    rw [find?_append, hnone]
    rfl

/-- The checksum frame is not a data frame. -/
theorem Unbroken.finish (h : Unbroken env s₀ x.2) : Unbroken env s₀ (finish env x) := by
  obtain ⟨ret, s⟩ := x
  cases ret with
  | ok =>
    show Unbroken env s₀ (sendFileCrcCheckSum env s).2
    unfold sendFileCrcCheckSum
    split
    · exact h
    · have hpending := h.same (sameChannel_createPendingPacket s (s.info.seq + 1))
      dsimp only
      generalize createPendingPacket (s.info.seq + 1) s = y at hpending
      obtain ⟨ret', s'⟩ := y
      cases ret' with
      | ok =>
        apply Unbroken.same _ (sameChannel_getPendingPacketData _ _ _)
        apply Unbroken.same _ (sameChannel_poll env _ _)
        exact hpending.send _ (not_abortsForMissing_of_type (by simp))
      | _ => exact hpending
  | _ => exact h

section
variable (hkept : ∀ t, env.lost t = false) (hu : Unbroken env s₀ s)
include hkept hu

section
variable (hp : PacksStart sender destFile source data)
include hp

/-- The sender goes on after its start frame only when it has been answered. -/
theorem Starting.rear (h : Starting source s) :
    Leads env s₀ (fun s' => (Gone env.peerSession s'.recv ∧ Unbroken env s₀ s') ∨
        Synced env source 0 0 0 s')
      (sendOneFrameRear env .first ((s.send env (.frame 0) ⟨.first, data⟩).poll env 0)) := by
  have hu₁ : Unbroken env s₀ (s.send env (.frame 0) ⟨.first, data⟩) :=
    hu.send _ (not_abortsForMissing_of_type (by simp))
  have hinfo := info_send env (.frame 0) ⟨.first, data⟩ s
  have hrecv := recv_send (hkept (.frame 0)) ⟨.first, data⟩ s
  have hreplies := replies_send (hkept (.frame 0)) ⟨.first, data⟩ s
  have hpending := pending_send env (.frame 0) ⟨.first, data⟩ s
  have hcases := start_cases env.peerSession env.peerChannel hp h.settled
    (env.recv s.handled.length)
  simp only [← hrecv] at hcases hreplies
  rw [h.replies] at hreplies
  generalize s.send env (.frame 0) ⟨.first, data⟩ = s₁ at hu₁ hinfo hrecv hreplies hpending hcases ⊢
  have hu₂ := hu₁.same (sameChannel_poll env s₁ 0)
  rcases hcases with ⟨hat, hsent⟩ | hgone | hsilent
  · have hsync : Synced env source 0 0 0 s₁ := by
      refine ⟨hinfo ▸ h.sending, ⟨0, hat, .inl rfl⟩, fun frame hframe => ?_, ?_⟩
      · rw [hreplies, hsent] at hframe
        exact .inl ⟨0, mem_singleton.1 hframe⟩
      · rw [hinfo]
        exact fun hne => absurd h.waitSeq hne
    have hget := (hsync.poll 0).getPendingPacketData 0 true
    have hsame := sameChannel_getPendingPacketData (s₁.poll env 0) 0 true
    unfold sendOneFrameRear
    rw [if_neg (not_not.2 (hsync.poll 0).sending.crc)]
    generalize getPendingPacketData 0 true (s₁.poll env 0) = x at hget hsame
    obtain ⟨ret, data', s₂⟩ := x
    cases ret with
    | ok => exact ⟨hu₂.same hsame, fun _ => .inr hget⟩
    | _ => exact ⟨hu₂.same hsame, by simp⟩
  · have hrear := (keeps_gone_unbroken env s₀).sendOneFrameRear
      ((keeps_gone_unbroken env s₀).same ⟨hgone, hu₁⟩ (sameChannel_poll env s₁ 0)) .first
    exact ⟨hrear.2, fun _ => .inl hrear⟩
  · -- nothing arrives, so the wait for the answer times out
    have hget : getPendingPacketData 0 true s₁ = (.timout, none, deletePendingPacket 0 s₁) := by
      unfold getPendingPacketData
      rw [hpending, h.unanswered]
      rfl
    rw [poll_eq_self env 0 (hreplies.trans hsilent)]
    unfold sendOneFrameRear
    rw [hinfo, if_neg (not_not.2 h.sending.crc), hget]
    exact ⟨hu₁.same ⟨rfl, rfl, rfl⟩, by simp⟩

theorem FileStart.sendOneFrame (h : FileStart source s) :
    Leads env s₀ (fun s' => (Gone env.peerSession s'.recv ∧ Unbroken env s₀ s') ∨
      Synced env source 0 0 0 s') (sendOneFrame env 0 ⟨.first, data⟩ s) := by
  have hmiddle : ∀ s, sendOneFrameMiddle env .first s = (.ok, s) := by
    intro s
    unfold sendOneFrameMiddle
    simp
  apply (h.front hu).andThen
  intro s₁ hu₁ h₁
  rw [hmiddle]
  apply (h₁.rear hkept hu₁ hp).andThen
  intro s₂ hu₂ h₂
  split
  · exact ⟨hu₂, by simp⟩
  · exact ⟨hu₂, fun _ => h₂⟩

end

variable (hsize : source.length ≤ maxFileSize) (hname : 0 ∉ destFile)
  (hshort : destFile.length < maxFilePathNameLen)
include hsize hname hshort

/-- The frames of a file. -/
theorem FileStart.fileToFrameLoop (h : FileStart source s) :
    Unbroken env s₀ (fileToFrameLoop env destFile (dataFrames source + 1) 0 0 source.length s).2 := by
  unfold SoftBus.Native.fileToFrameLoop
  rw [if_pos rfl, h.sending.crc, h.sending.fileSize]
  split
  · exact hu
  · next data hpack =>
    have hstart := h.sendOneFrame hkept hu ⟨hname, hshort, hsize, hpack⟩
    rw [show frameIndexToType 0 s.info.frameNum = .first from rfl]
    generalize SoftBus.Native.sendOneFrame env 0 ⟨.first, data⟩ s = x at hstart
    obtain ⟨ret, s'⟩ := x
    cases ret with
    | ok =>
      rcases hstart.2 rfl with hgone | hsync
      · exact unbroken_loopFrom_gone hgone 0
      · exact Synced.loopFrom hkept hsize (by simpa using hsync) hstart.1 (Nat.zero_le _)
    | _ => exact hstart.1

theorem FileStart.fileToFrame (h : FileStart source s) : Unbroken env s₀ (fileToFrame env destFile s).2 := by
  rw [fileToFrame_eq, h.sending.frameNum, h.sending.fileSize]
  exact (h.fileToFrameLoop hkept hu hsize hname hshort).finish

end
end

/-! ## The files of a transfer -/

section
variable {env : LinkEnv}

/-- What does not change from file to file. -/
theorem keeps_settled (env : LinkEnv) : Link.Keeps env true fun s =>
    s.info.crc = appInfoFileFeaturesSupport ∧ s.recv.Settled where
  same h hsame := ⟨hsame.crc.trans h.1, hsame.recv ▸ h.2⟩
  send := by
    intro s h t frame _ _
    rw [info_send]
    refine ⟨h.1, ?_⟩
    cases hlost : env.lost t with
    | true =>
      unfold send
      rw [hlost]
      exact h.2
    | false =>
      rw [recv_send hlost]
      exact settled_step h.2 (.frame _ env.peerSession env.peerChannel frame)

theorem replies_getPendingPacketData (seq : UInt32) (isDelete : Bool) :
    (getPendingPacketData seq isDelete s).2.2.replies = s.replies := by
  unfold getPendingPacketData
  split
  · rfl
  · split
    · rfl
    · split
      · rfl
      · rfl

theorem replies_poll {index : ℕ} (h : env.arrives index = true) : (s.poll env index).replies = [] := by
  unfold poll
  obtain ⟨result, pending, heq⟩ := foldl_processReply_eq env { s with replies := [] } s.replies
  rw [if_pos h, heq]

/-- When the sum has been answered, all replies have come. -/
theorem replies_sendFileCrcCheckSum (hcrc : s.info.crc = appInfoFileFeaturesSupport)
    (hok : (sendFileCrcCheckSum env s).1 = .ok) : (sendFileCrcCheckSum env s).2.replies = [] := by
  unfold sendFileCrcCheckSum createPendingPacket at hok ⊢
  rw [if_neg (not_not.2 hcrc)] at hok ⊢
  by_cases hany : s.pending.any (·.seq = s.info.seq + 1) = true
  · simp [hany] at hok
  have hnone : s.pending.find? (·.seq = s.info.seq + 1) = none :=
    find?_eq_none.2 fun p hp hseq => hany (any_eq_true.2 ⟨p, hp, hseq⟩)
  dsimp only at hok ⊢
  rw [if_neg hany] at hok ⊢
  dsimp only at hok ⊢
  generalize hs₁ : ({ s with pending := s.pending ++ [⟨s.info.seq + 1, false, none⟩] } : Link) = s₁
    at hok ⊢
  have hpending := pending_send env .checkSum
    ⟨.crcCheck, packFileCrcCheckSum (s.info.seq + 1) s.info.checkSumCRC⟩ s₁
  generalize s₁.send env .checkSum
    ⟨.crcCheck, packFileCrcCheckSum (s.info.seq + 1) s.info.checkSumCRC⟩ = s₂ at hok hpending ⊢
  rw [replies_getPendingPacketData]
  cases harr : env.arrives s₂.info.frameNum with
  | true => exact replies_poll harr
  | false =>
    -- no reply comes, and the wait for the answer times out
    have hpoll : s₂.poll env s₂.info.frameNum = s₂ := by
      unfold poll
      rw [harr]
      rfl
    have hfind : s₂.pending.find? (·.seq = s.info.seq + 1) = some ⟨s.info.seq + 1, false, none⟩ := by
      rw [hpending, ← hs₁]
      show find? _ (s.pending ++ [_]) = _
      rw [find?_append, hnone]
      simp
    unfold getPendingPacketData at hok
    rw [hpoll, hfind] at hok
    simp at hok

/-- A sender between two files. -/
structure BetweenFiles (s : Link) : Prop where
  crc : s.info.crc = appInfoFileFeaturesSupport
  seq : s.info.seq = 0
  checkSumCRC : s.info.checkSumCRC = 0
  result : s.info.result = SoftBusErr.ok.code
  replies : s.replies = []
  settled : s.recv.Settled

theorem replies_fileToFrame {destFile : Path} (hcrc : s.info.crc = appInfoFileFeaturesSupport)
    (hsettled : s.recv.Settled) (hok : (fileToFrame env destFile s).1 = .ok) :
    (fileToFrame env destFile s).2.replies = [] := by
  have hloop : ∀ x, x = fileToFrameLoop env destFile s.info.frameNum 0 0 s.info.fileSize s →
      x.2.info.crc = appInfoFileFeaturesSupport ∧ x.2.recv.Settled := by
    rintro _ rfl
    exact (keeps_settled env).fileToFrameLoop ⟨hcrc, hsettled⟩ destFile _ (fun _ => rfl) 0 _
  unfold fileToFrame at hok ⊢
  generalize fileToFrameLoop env destFile s.info.frameNum 0 0 s.info.fileSize s = x at hok hloop ⊢
  have hcrc' := (hloop x rfl).1
  obtain ⟨ret, s'⟩ := x
  cases ret with
  | ok =>
    have hsum : (sendFileCrcCheckSum env s').1 = .ok → _ := replies_sendFileCrcCheckSum hcrc'
    dsimp only at hok ⊢
    generalize sendFileCrcCheckSum env s' = y at hok hsum ⊢
    obtain ⟨ret', s''⟩ := y
    cases ret' with
    | ok => exact hsum rfl
    | _ => simp at hok
  | _ => simp at hok

/-- The size of a file and the number of its frames, with checksums. -/
theorem getAndCheckFileSize_eq {contents : Path → Option (List UInt8)} {path : Path}
    {fileSize frameNum : ℕ}
    (h : getAndCheckFileSize contents path appInfoFileFeaturesSupport = .ok (fileSize, frameNum)) :
    ∃ source, contents path = some source ∧ source.length ≤ maxFileSize ∧
      fileSize = source.length ∧ frameNum = dataFrames source + 1 := by
  unfold getAndCheckFileSize at h
  split at h
  · simp at h
  next source hsource =>
  dsimp only at h
  split at h
  · simp at h
  next hmax =>
  obtain ⟨hsize, hframes⟩ := Prod.mk.inj (Except.ok.inj h)
  refine ⟨source, hsource, Nat.not_lt.1 hmax, hsize.symm, ?_⟩
  have hn : frameDataSize appInfoFileFeaturesSupport = 958 := rfl
  rw [← hframes, hn, dataFrames, Chunks.count, show crcFrameDataSize = 958 from rfl]
  split
  · omega
  · omega

section
variable (h : BetweenFiles s) (hkept : ∀ t, env.lost t = false) (hu : Unbroken env s₀ s)
include h hkept hu

theorem BetweenFiles.fileToFrameAndSendFile (hname : 0 ∉ file.2)
    (hshort : file.2.length < maxFilePathNameLen) :
    Leads env s₀ (fun s' => s'.replies = []) (fileToFrameAndSendFile env file.1 file.2 s) := by
  unfold SoftBus.Native.fileToFrameAndSendFile
  split
  · exact ⟨hu, by simp⟩
  split
  · exact ⟨hu, by simp⟩
  next path hpath =>
  rw [h.crc]
  split
  · exact ⟨hu, by simp⟩
  next fileSize frameNum hframes =>
  dsimp only
  split
  · exact ⟨hu, by simp⟩
  split
  · exact ⟨hu, by simp⟩
  obtain ⟨source, hsource, hmax, rfl, rfl⟩ := getAndCheckFileSize_eq hframes
  rw [hsource]
  have hstart : FileStart source { s with info := { s.info with
      source := source, fileSize := source.length, frameNum := dataFrames source + 1 } } :=
    ⟨⟨rfl, rfl, rfl, h.crc, h.seq, h.checkSumCRC, h.result⟩, h.replies, h.settled⟩
  exact ⟨hstart.fileToFrame hkept (hu.same ⟨rfl, rfl, rfl⟩) hmax hname hshort,
    fun hok => replies_fileToFrame hstart.sending.crc hstart.settled hok⟩

theorem BetweenFiles.sendSingleFile (hname : 0 ∉ file.2) (hshort : file.2.length < maxFilePathNameLen) :
    Leads env s₀ BetweenFiles (sendSingleFile env file.1 file.2 s) := by
  obtain ⟨hu', hok⟩ := h.fileToFrameAndSendFile hkept hu hname hshort
  obtain ⟨hcrc, hsettled⟩ := (keeps_settled env).fileToFrameAndSendFile ⟨h.crc, h.settled⟩ file.1
  exact ⟨hu'.same ⟨rfl, rfl, rfl⟩, fun hret => ⟨hcrc, rfl, rfl, rfl, hok hret, hsettled⟩⟩

theorem BetweenFiles.sendFiles {files : List (Path × Path)}
    (hfiles : ∀ file ∈ files, 0 ∉ file.2 ∧ file.2.length < maxFilePathNameLen) :
    Leads env s₀ BetweenFiles (sendFiles env files s) := by
  induction files generalizing s with
  | nil => exact ⟨hu, fun _ => h⟩
  | cons file files ih =>
    obtain ⟨hname, hshort⟩ := hfiles file mem_cons_self
    apply (h.sendSingleFile hkept hu hname hshort).andThen
    intro s' hu' h'
    exact ih h' hu' fun f hf => hfiles f (mem_cons_of_mem _ hf)

end
end

/-- In a transfer over a link that loses nothing, the receiver gives no file up because of
    missing frames, however late the answers to the requests come: not after any frame
    that the sender sends.  The receiver may have received anything before. -/
theorem unbroken_proxyChannelSendFile {env : LinkEnv} (hkept : ∀ t, env.lost t = false)
    (channelId sessionId : Int32) {files : List (Path × Path)} (hnames : ∀ file ∈ files, 0 ∉ file.2)
    (before : List RecvInput) {recv : RecvWorld} (hrecv : recv = before.foldl RecvWorld.step .init) :
    Unbroken env (startLink channelId sessionId appInfoFileFeaturesSupport recv)
      (proxyChannelSendFile env channelId sessionId appInfoFileFeaturesSupport files recv).2 := by
  have hstart : BetweenFiles (startLink channelId sessionId appInfoFileFeaturesSupport recv) :=
    ⟨rfl, rfl, rfl, rfl, rfl, hrecv ▸ settled_run before⟩
  unfold proxyChannelSendFile
  split
  · exact .refl env _
  split
  · exact .refl env _
  next hvalid =>
  have hfiles : ∀ file ∈ files, 0 ∉ file.2 ∧ file.2.length < maxFilePathNameLen := by
    intro file hfile
    simp only [isValidFileString, Bool.or_eq_true, Bool.not_eq_true', not_or, Bool.not_eq_false,
      Bool.and_eq_true, all_eq_true, decide_eq_true_eq] at hvalid
    exact ⟨hnames file hfile, (hvalid.2.2 file.2 (mem_map_of_mem hfile)).2⟩
  have hsent := hstart.sendFiles hkept (.refl env _) hfiles
  have hall : Unbroken env (startLink channelId sessionId appInfoFileFeaturesSupport recv)
      (proxyStartSendFile env files
        (startLink channelId sessionId appInfoFileFeaturesSupport recv)).2 := by
    unfold proxyStartSendFile
    generalize sendFiles env files _ = x at hsent ⊢
    obtain ⟨ret, s⟩ := x
    cases ret with
    | ok =>
      -- the list of the files is no data frame
      unfold sendFileList
      cases fileListToBuffer (files.map Prod.snd) with
      | none => exact hsent.1
      | some buffer =>
        have hlist : Unbroken env _ (s.send env .fileList ⟨.allFileSent, buffer⟩) :=
          hsent.1.send _ (not_abortsForMissing_of_type (by simp))
        dsimp only
        split
        · exact hlist
        · exact hlist
    | _ => exact hsent.1
  change Unbroken env _ (match proxyStartSendFile env files
    (startLink channelId sessionId appInfoFileFeaturesSupport recv) with
    | (.ok, s) => (SoftBusErr.ok, s)
    | (_, s) => (.err, deletePendingPacket s.info.waitSeq s)).2
  generalize proxyStartSendFile env files _ = x at hall ⊢
  obtain ⟨ret, s⟩ := x
  cases ret with
  | ok => exact hall
  | _ => exact hall.same ⟨rfl, rfl, rfl⟩

/-- A file of one byte, from its start to the list of the files. -/
theorem unbroken_one_byte :
    (proxyChannelSendFile (listLink appInfoFileFeaturesSupport [1]) 1 1 appInfoFileFeaturesSupport
        [([97], [97])] .init).2.handled.map (fun p => p.1.frameType) =
          [.first, .onlyone, .crcCheck, .allFileSent] ∧
      Unbroken (listLink appInfoFileFeaturesSupport [1])
        (startLink 1 1 appInfoFileFeaturesSupport .init)
        (proxyChannelSendFile (listLink appInfoFileFeaturesSupport [1]) 1 1
          appInfoFileFeaturesSupport [([97], [97])] .init).2 :=
  ⟨by decide +kernel, unbroken_proxyChannelSendFile (fun _ => rfl) 1 1 (by decide) [] rfl⟩

end SoftBus.Native
