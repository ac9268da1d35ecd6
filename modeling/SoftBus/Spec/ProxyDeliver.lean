import SoftBus.Native.ProxyManager

/-!
# Where the payloads of proxy messages go

A normal message carries the id of its channel on this device and on the peer, and is
handed to the first channel of the list that has *one* of the two, whatever its status.
Ids are given out by each device for itself, so channels to different peers can have the
same id on their peers: a payload then goes to another channel than the one it was sent on.
-/

namespace SoftBus.Native
open ProxyWorld

namespace ProxyChannelInfo

/-- The channel that a message with these ids is meant for: both are its ids, and its
    handshake is over. -/
structure IsDestination (myId peerId : Int16) (chan : ProxyChannelInfo) : Prop where
  myId_eq : chan.myId = myId
  peerId_eq : chan.peerId = peerId
  ready : chan.status = .completed ∨ chan.status = .keepliveing

/-- A message keeps the ids, the status and the instance of its channel. -/
theorem touch_fields (chan : ProxyChannelInfo) :
    chan.touch.myId = chan.myId ∧ chan.touch.peerId = chan.peerId ∧
      chan.touch.status = chan.status ∧ chan.touch.uid = chan.uid := by
  unfold touch
  split
  · exact ⟨rfl, rfl, rfl, rfl⟩
  · exact ⟨rfl, rfl, rfl, rfl⟩

theorem isDestination_touch {myId peerId : Int16} {chan : ProxyChannelInfo} :
    chan.touch.IsDestination myId peerId ↔ chan.IsDestination myId peerId := by
  obtain ⟨hmy, hpeer, hstatus, -⟩ := chan.touch_fields
  constructor
  · intro h
    exact ⟨hmy ▸ h.myId_eq, hpeer ▸ h.peerId_eq, hstatus ▸ h.ready⟩
  · intro h
    exact ⟨hmy.trans h.myId_eq, hpeer.trans h.peerId_eq, hstatus.symm ▸ h.ready⟩

end ProxyChannelInfo

/-- Every channel that has one of the ids of the message without being its destination
    stands in the list behind one that is. -/
def Shielded (myId peerId : Int16) (channels : List ProxyChannelInfo) : Prop :=
  ∀ before chan after, channels = before ++ chan :: after →
    chan.myId = myId ∨ chan.peerId = peerId → ¬ chan.IsDestination myId peerId →
      ∃ d ∈ before, d.IsDestination myId peerId

/-- Whatever is selected is the destination, exactly if the list is `Shielded`. -/
theorem selected_isDestination_iff {myId peerId : Int16} {channels : List ProxyChannelInfo} :
    (∀ chan rest, transProxyGetRecvMsgChanInfo myId peerId channels = some (chan, rest) →
      chan.IsDestination myId peerId) ↔ Shielded myId peerId channels := by
  have hiff := List.find?_forall_iff (l := channels)
    (p := fun item => decide (item.myId = myId ∨ item.peerId = peerId))
    (q := fun item => item.IsDestination myId peerId)
    fun item h => by simp [h.myId_eq]
  simp only [decide_eq_true_eq] at hiff
  rw [Shielded, ← hiff]
  constructor
  · intro h item hitem
    rw [← ProxyChannelInfo.isDestination_touch]
    apply h item.touch
    rw [transProxyGetRecvMsgChanInfo, List.updateFirst, hitem, Option.map_some]
  · intro h chan rest hsel
    obtain ⟨before, item, after, hm, hr⟩ := List.updateFirst_eq_some hsel
    rw [(Prod.mk.inj hr).1, ProxyChannelInfo.isDestination_touch]
    exact h item hm.find?_eq

/-- A normal message is handed to the channel that is selected for it, and to no other. -/
theorem mem_issued_normal {w : ProxyWorld} {msg : ProxyMessage} {env : MsgEnv}
    (htype : msg.msgHead.type = .normal) {uid : ℕ} {channelId : Int32} {data : List UInt8}
    (h : .msgReceived uid channelId data ∈ w.issued (.received msg env)) :
    ∃ chan rest, transProxyGetRecvMsgChanInfo msg.msgHead.myId msg.msgHead.peerId w.channels =
      some (chan, rest) ∧ chan.uid = uid := by
  simp only [issued, step, transProxyOnDataReceived, transProxyOnMessageReceived, htype] at h
  split at h
  · unfold transProxyProcessDataRecv at h
    split at h
    · simp at h
    · next chan rest hsel =>
      simp only [emit, List.drop_left, onProxyChannelMsgReceived] at h
      split at h
      · simp only [List.mem_singleton, ProxyEvent.msgReceived.injEq] at h
        exact ⟨chan, rest, hsel, h.1.symm⟩
      · simp at h
  · simp at h

/-- In every list of channels, a normal message selects only its destination, and its
    payload is handed only to its destination, exactly if no channel that has one of its
    ids without being the destination stands before all that are. -/
theorem delivered_to_destination_iff (w : ProxyWorld) (msg : ProxyMessage) (env : MsgEnv)
    (htype : msg.msgHead.type = .normal) :
    ((∀ chan rest, transProxyGetRecvMsgChanInfo msg.msgHead.myId msg.msgHead.peerId w.channels =
        some (chan, rest) → chan.IsDestination msg.msgHead.myId msg.msgHead.peerId) ∧
      ∀ uid channelId data, .msgReceived uid channelId data ∈ w.issued (.received msg env) →
        ∃ chan ∈ w.channels, chan.uid = uid ∧ chan.IsDestination msg.msgHead.myId msg.msgHead.peerId) ↔
      Shielded msg.msgHead.myId msg.msgHead.peerId w.channels := by
  rw [← selected_isDestination_iff]
  constructor
  · exact And.left
  · intro h
    apply And.intro h
    intro uid channelId data hmem
    obtain ⟨chan, rest, hsel, huid⟩ := mem_issued_normal htype hmem
    -- the copy that is handed on and the item of the list differ in the idle time only
    obtain ⟨before, item, after, hm, hr⟩ := List.updateFirst_eq_some hsel
    have hdest := h chan rest hsel
    rw [(Prod.mk.inj hr).1] at hdest huid
    exact ⟨item, hm.mem, item.touch_fields.2.2.2 ▸ huid, ProxyChannelInfo.isDestination_touch.1 hdest⟩

/-! ## Two peers that use the same channel id -/

/-- The application of the channels in the examples. -/
def sampleApp : AppInfo :=
  let data : AppInfoData := ⟨"device", "package", "session"⟩
  ⟨.auth, data, data, 0, 0, 0⟩

/-- Everything that a message needs is there. -/
def MsgEnv.good : MsgEnv :=
  ⟨true, some "package", some "device", some ⟨1, .br, [], 0⟩, ⟨true, true⟩, true⟩

/-- The peer of the connection `connId` opens a channel that has the id `peerId` there. -/
def incomingHandshake (connId : UInt32) (peerId : Int16) : ProxyInput :=
  .received ⟨connId, ⟨.handshake, 0, invalidChannelId, peerId⟩, [], some ("identity", sampleApp)⟩ .good

/-- A normal message. -/
def normalMessage (connId : UInt32) (myId peerId : Int16) (data : List UInt8) : ProxyMessage :=
  ⟨connId, ⟨.normal, 0, myId, peerId⟩, data, none⟩

/-- Two peers have opened a channel, and both have given it the id 256. -/
def twoPeers : ProxyWorld :=
  [incomingHandshake 0x20001 256, incomingHandshake 0x20002 256].foldl .step (.init true)

/-- The payload of the first peer is handed to the channel of the second one. -/
theorem payload_to_other_peer :
    twoPeers.channels.map (fun chan => (chan.uid, chan.connId, chan.myId, chan.peerId, chan.status)) =
        [(1, 0x20002, 768, 256, .completed), (0, 0x20001, 512, 256, .completed)] ∧
      twoPeers.issued (.received (normalMessage 0x20001 512 256 [7]) .good) =
        [.msgReceived 1 768 [7]] := by
  decide +kernel

/-- The payload of the second peer is handed to its own channel. -/
theorem payload_to_own_channel :
    ∃ chan ∈ twoPeers.channels, chan.uid = 1 ∧ chan.IsDestination 768 256 := by
  have hsel : ∀ chan rest, transProxyGetRecvMsgChanInfo 768 256 twoPeers.channels =
      some (chan, rest) → chan.IsDestination 768 256 := by
    intro chan rest h
    have hmap : (transProxyGetRecvMsgChanInfo 768 256 twoPeers.channels).map
        (fun r => (r.1.myId, r.1.peerId, r.1.status)) = some (768, 256, .completed) := by
      decide +kernel
    rw [h, Option.map_some, Option.some.injEq, Prod.mk.injEq, Prod.mk.injEq] at hmap
    exact ⟨hmap.1, hmap.2.1, .inl hmap.2.2⟩
  exact ((delivered_to_destination_iff twoPeers (normalMessage 0x20002 768 256 [7]) .good rfl).2
    (selected_isDestination_iff.1 hsel)).2 1 768 [7] (by decide +kernel)

end SoftBus.Native
