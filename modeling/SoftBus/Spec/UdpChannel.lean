import SoftBus.ForStd.Run
import SoftBus.Native.UdpChannel

/-!
# Which UDP channels a negotiation message touches

## Main results

- `spares_of_own`: messages that name, by sequence number or channel id, no channel of another
  device leave the channels of all other devices as they are.
-/

namespace SoftBus.Native.UdpWorld
open List Run
variable {s : UdpWorld} {msg : UdpMsg} {device : String} {id : Int32} {info : UdpAppInfo}

/-- The channels of the other devices. -/
def others (device : String) (s : UdpWorld) : List UdpChannelInfo :=
  s.channels.filter (·.info.deviceId ≠ device)

/-- The sequence number of a reply and the ids that go with it, the id that an open request gets and
    the id that a close request names are not those of a channel of another device. -/
def Own (s : UdpWorld) (msg : UdpMsg) : Prop :=
  if msg.isReply then
    ∀ c ∈ s.others msg.device, c.seq ≠ msg.seq ∧
      ∀ d ∈ s.channels, d.seq = msg.seq → c.info.channelId ≠ d.info.channelId.toInt32.toInt64
  else
    ∀ c ∈ s.others msg.device, c.info.channelId ≠
      if msg.channelType = typeOpen then s.generateUdpChannelId.1.toInt64
      else (msg.peerChannelId.getD 0).toInt32.toInt64

instance : DecidableRel Own := fun s msg => by unfold Own; infer_instance

/-- Deleting by an id that no other device's channel has. -/
theorem others_transDelUdpChannel (h : ∀ c ∈ s.others device, c.info.channelId ≠ id.toInt64) :
    (s.transDelUdpChannel id).2.others device = s.others device := by
  unfold transDelUdpChannel
  split
  · refine filter_eraseP_of_not fun c hc hid => ?_
    by_contra hne
    exact h c (mem_filter.2 ⟨hc, by simpa using hne⟩) (by simpa [hasId] using hid)
  · rfl

/-- Changing, for this device, the channel with a sequence number that no other device's has. -/
theorem others_modifyFirst {seq : Int64} {f : UdpChannelInfo → UdpChannelInfo}
    (h : ∀ c ∈ s.others device, c.seq ≠ seq)
    (hf : ∀ c, c.info.deviceId = device → (f c).info.deviceId = device) :
    { s with channels := s.channels.modifyFirst (hasSeq seq) f }.others device = s.others device := by
  refine filter_modifyFirst_of_not fun c hc hseq => ?_
  have hdevice : c.info.deviceId = device := by
    by_contra hne
    exact h c (mem_filter.2 ⟨hc, by simpa using hne⟩) (by simpa [hasSeq] using hseq)
  simp [hdevice, hf c hdevice]

theorem channels_generateUdpChannelId : s.generateUdpChannelId.2.channels = s.channels := by
  unfold generateUdpChannelId
  split <;> rfl

theorem others_acceptUdpChannelAsServer (hdevice : info.deviceId = device)
    (h : ∀ c ∈ s.others device, c.info.channelId ≠ s.generateUdpChannelId.1.toInt64) :
    (s.acceptUdpChannelAsServer msg info).others device = s.others device := by
  have hgen := channels_generateUdpChannelId (s := s)
  unfold acceptUdpChannelAsServer
  generalize s.generateUdpChannelId = g at h hgen
  obtain ⟨id, s₁⟩ := g
  -- a state with these channels, or with one more of this device, whatever its ids
  have hdel : ∀ s' : UdpWorld, s'.others device = s.others device →
      (s'.transDelUdpChannel id).2.others device = s.others device :=
    fun s' hs' => (others_transDelUdpChannel (hs' ▸ h)).trans hs'
  have hsame : s₁.others device = s.others device := congrArg (filter _) hgen
  simp only [Int32.toInt32_toInt64]
  split
  · exact hsame
  split
  · exact hdel _ hsame
  · next s₂ hadd =>
    have hnew : s₂.others device = s.others device := by
      unfold transAddUdpChannel at hadd
      split at hadd
      · cases hadd
      · obtain rfl := Option.some.inj hadd
        exact (filter_cons_of_neg (by simp [hdevice])).trans hsame
    split
    · exact hnew
    · exact hdel _ hnew

theorem others_onRequest (h : s.Own msg) (hreq : msg.isReply = false) :
    (s.onRequest msg).others msg.device = s.others msg.device := by
  simp only [Own, hreq, Bool.false_eq_true, if_false] at h
  unfold onRequest
  split
  · rfl
  split
  · next hopen =>
    rw [if_pos hopen] at h
    exact others_acceptUdpChannelAsServer rfl h
  · next hopen =>
    rw [if_neg hopen] at h
    split
    · exact others_transDelUdpChannel h
    · rfl

theorem transUnpackReplyUdpInfo_same (msg : UdpMsg) (info : UdpAppInfo) :
    (transUnpackReplyUdpInfo msg info).deviceId = info.deviceId ∧
      (transUnpackReplyUdpInfo msg info).channelId = info.channelId := by
  unfold transUnpackReplyUdpInfo
  split <;> exact ⟨rfl, rfl⟩

theorem others_onReply (h : s.Own msg) (hreply : msg.isReply = true) :
    (s.onReply msg).others msg.device = s.others msg.device := by
  simp only [Own, hreply, if_true] at h
  unfold onReply
  split
  · rfl
  next c hc =>
  obtain ⟨hmem, hseq⟩ : c ∈ s.channels ∧ c.seq = msg.seq :=
    ⟨mem_of_find?_eq_some hc, by simpa [hasSeq] using find?_some hc⟩
  obtain ⟨hdevice', hid⟩ := transUnpackReplyUdpInfo_same msg c.info
  have hdevice : c.info.deviceId = msg.device := by
    by_contra hne
    exact (h c (mem_filter.2 ⟨hmem, by simpa using hne⟩)).1 hseq
  have hmark : (s.transSetUdpChannelStatus msg.seq .done).others msg.device = s.others msg.device :=
    others_modifyFirst (fun d hd => (h d hd).1) fun _ hd => hd
  have hdel : ((s.transSetUdpChannelStatus msg.seq .done).transDelUdpChannel
      (transUnpackReplyUdpInfo msg c.info).channelId.toInt32).2.others msg.device = s.others msg.device := by
    refine (others_transDelUdpChannel fun d hd => ?_).trans hmark
    rw [hid]
    exact (h d (hmark ▸ hd)).2 c hmem hseq
  -- the channel that gets the information is one of this device's again
  have hupdate : ∀ s' : UdpWorld, s'.others msg.device = s.others msg.device →
      (s'.transUpdateUdpChannelInfo msg.seq (transUnpackReplyUdpInfo msg c.info)).others msg.device =
        s.others msg.device :=
    fun s' hs' => (others_modifyFirst (fun d hd => (h d (hs' ▸ hd)).1)
      fun _ _ => hdevice'.trans hdevice).trans hs'
  simp only
  split
  · exact hdel
  split
  · exact hupdate _ hdel
  · exact hupdate _ hmark

/-- In a run of messages that name no channel of another device, each message leaves the channels
    of all devices but its own as they are. -/
theorem spares_of_own {msgs : List UdpMsg} (h : AllSteps transOnExchangeUdpInfo Own s msgs) :
    AllSteps transOnExchangeUdpInfo (fun s msg =>
      (s.transOnExchangeUdpInfo msg).others msg.device = s.others msg.device) s msgs := by
  induction msgs generalizing s with
  | nil => trivial
  | cons msg msgs ih =>
    refine ⟨?_, ih h.2⟩
    simp only [transOnExchangeUdpInfo]
    split
    · next hreply => exact others_onReply h.1 hreply
    · next hreq => exact others_onRequest h.1 (by simpa using hreq)

/-- A channel that `alice` opened. -/
def aliceChannel : UdpWorld := ⟨[⟨⟨0, typeOpen, "alice", 0, 0, ""⟩, 2, .neging⟩], fun i => i = 0, 2⟩

/-- A request or reply with the fields that matter to the runs below. -/
def udpMsg (device : String) (isReply : Bool) (seq : Int64) (channelType : Int32) : UdpMsg :=
  ⟨device, isReply, seq, channelType, none, some 0, some 7, none, true, 1, true, true⟩

/-- `bob` opens a channel beside it. -/
theorem spares_open :
    let s := aliceChannel.transOnExchangeUdpInfo (udpMsg "bob" false 9 typeOpen)
    s.channels.length = 2 ∧ s.others "bob" = aliceChannel.others "bob" :=
  ⟨by decide +kernel, (spares_of_own
    (by decide +kernel : AllSteps _ Own aliceChannel [udpMsg "bob" false 9 typeOpen])).1⟩

/-- `bob` closes the channel by its id, and answers for it by its sequence number. -/
theorem not_spares :
    (aliceChannel.transOnExchangeUdpInfo (udpMsg "bob" false 9 typeClose)).channels = [] ∧
      (aliceChannel.transOnExchangeUdpInfo (udpMsg "bob" true 2 typeOpen)).channels =
        [⟨⟨0, typeOpen, "alice", 0, 7, ""⟩, 2, .done⟩] := by
  decide +kernel

end SoftBus.Native.UdpWorld
