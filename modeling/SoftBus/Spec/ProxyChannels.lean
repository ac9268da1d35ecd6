import SoftBus.ForStd.Evolve
import SoftBus.Native.ProxyManager

/-!
# What a step does to the lists

Three inputs of the proxy channel manager are special: the second half of an open call and
a handshake add a channel, and the result of a connect request binds the channels that wait
for it.  Every other input is *quiet*: it takes channels out or changes their status, takes
connection items out or changes their `ref`, and leaves the counters and the open calls
alone (`Quiet`).
-/

namespace SoftBus.Native
variable {a b : ProxyChannelInfo} {channels : List ProxyChannelInfo} {msg : ProxyMessage}

/-! ## Channels that stay -/

/-- `b` is the channel `a` at a later time: its status has not changed, or it is complete. -/
structure ProxyChannelInfo.Follows (a b : ProxyChannelInfo) : Prop where
  uid : b.uid = a.uid
  channelId : b.channelId = a.channelId
  myId : b.myId = a.myId
  option : b.option = a.option
  reqId : b.reqId = a.reqId
  connId : b.connId = a.connId
  status : b.status = a.status ∨ b.status = .completed

namespace ProxyChannelInfo

theorem Follows.refl (a : ProxyChannelInfo) : a.Follows a := ⟨rfl, rfl, rfl, rfl, rfl, rfl, .inl rfl⟩

theorem Follows.trans {c : ProxyChannelInfo} (hab : a.Follows b) (hbc : b.Follows c) :
    a.Follows c where
  uid := hbc.uid.trans hab.uid
  channelId := hbc.channelId.trans hab.channelId
  myId := hbc.myId.trans hab.myId
  option := hbc.option.trans hab.option
  reqId := hbc.reqId.trans hab.reqId
  connId := hbc.connId.trans hab.connId
  status := by
    cases hbc.status with
    | inl h => rw [h]; exact hab.status
    | inr h => exact .inr h

theorem follows_touch (a : ProxyChannelInfo) : a.Follows a.touch := by
  unfold touch
  split
  · exact ⟨rfl, rfl, rfl, rfl, rfl, rfl, .inl rfl⟩
  · exact .refl a

/-- A tick changes the idle time only. -/
theorem tick_fst : a.tick.1 = { a with timeout := a.timeout + 1 } := by
  unfold tick
  cases a.status <;> rfl

theorem follows_stays (h : a.stays = some b) : a.Follows b := by
  unfold stays at h
  split at h
  · rw [← Option.some.inj h, tick_fst]
    exact ⟨rfl, rfl, rfl, rfl, rfl, rfl, .inl rfl⟩
  · exact absurd h (by simp)

end ProxyChannelInfo

/-! ## Connection items that stay -/

/-- `b` is the connection item `a` at a later time: only `ref` may differ. -/
structure ProxyConnInfo.SameItem (a b : ProxyConnInfo) : Prop where
  requestId : b.requestId = a.requestId
  connInfo : b.connInfo = a.connInfo
  connId : b.connId = a.connId
  state : b.state = a.state

theorem ProxyConnInfo.SameItem.refl (a : ProxyConnInfo) : a.SameItem a := ⟨rfl, rfl, rfl, rfl⟩

theorem ProxyConnInfo.SameItem.trans {a b c : ProxyConnInfo} (hab : a.SameItem b)
    (hbc : b.SameItem c) : a.SameItem c :=
  ⟨hbc.requestId.trans hab.requestId, hbc.connInfo.trans hab.connInfo,
    hbc.connId.trans hab.connId, hbc.state.trans hab.state⟩

theorem evolves_addConnRef (connId : UInt32) (conns : List ProxyConnInfo) :
    conns.Evolves ProxyConnInfo.SameItem (transAddConnRefByConnId connId conns) :=
  .of_modifyFirst .refl fun _ => ⟨rfl, rfl, rfl, rfl⟩

theorem evolves_decConnRef (connId : UInt32) (conns : List ProxyConnInfo) :
    conns.Evolves ProxyConnInfo.SameItem (transDecConnRefByConnId connId conns).2 := by
  unfold transDecConnRefByConnId
  split
  · exact .refl .refl
  · split
    · exact .of_sublist .refl List.eraseP_sublist
    · exact .of_modifyFirst .refl fun _ => ⟨rfl, rfl, rfl, rfl⟩

/-! ## Steps that add and bind nothing -/

namespace ProxyWorld

/-- The counters and the open calls are left alone, and channels and connection items stay
    or go. -/
structure Quiet (w w' : ProxyWorld) : Prop where
  littleEndian : w'.littleEndian = w.littleEndian
  calls : w'.calls = w.calls
  myId : w'.myId = w.myId
  reqId : w'.reqId = w.reqId
  nextUid : w'.nextUid = w.nextUid
  channels : w.channels.Evolves ProxyChannelInfo.Follows w'.channels
  conns : w.conns.Evolves ProxyConnInfo.SameItem w'.conns

namespace Quiet
variable {w w' w'' : ProxyWorld}

theorem refl (w : ProxyWorld) : Quiet w w := ⟨rfl, rfl, rfl, rfl, rfl, .refl .refl, .refl .refl⟩

theorem trans (h : Quiet w w') (h' : Quiet w' w'') : Quiet w w'' where
  littleEndian := h'.littleEndian.trans h.littleEndian
  calls := h'.calls.trans h.calls
  myId := h'.myId.trans h.myId
  reqId := h'.reqId.trans h.reqId
  nextUid := h'.nextUid.trans h.nextUid
  channels := h.channels.trans (fun _ _ _ => .trans) h'.channels
  conns := h.conns.trans (fun _ _ _ => .trans) h'.conns

/-- Only the two lists, the loop and the events differ. -/
theorem of_lists {conns : List ProxyConnInfo} (hchannels : w.channels.Evolves ProxyChannelInfo.Follows channels)
    (hconns : w.conns.Evolves ProxyConnInfo.SameItem conns) (loop : List LoopMsg) (events : List ProxyEvent) :
    Quiet w { w with channels := channels, conns := conns, loop := loop, events := events } :=
  ⟨rfl, rfl, rfl, rfl, rfl, hchannels, hconns⟩

/-- Only the channels, the loop and the events differ. -/
theorem of_channels (h : w.channels.Evolves ProxyChannelInfo.Follows channels) (loop : List LoopMsg)
    (events : List ProxyEvent) :
    Quiet w { w with channels := channels, loop := loop, events := events } :=
  of_lists h (.refl .refl) loop events

end Quiet

/-- What `TransProxyCloseConnChannelReset` changes. -/
theorem closeConnChannelReset_eq (c : UInt32) (isDisconnect : Bool) (w : ProxyWorld) :
    w.transProxyCloseConnChannelReset c isDisconnect = { w with
        conns := (transDecConnRefByConnId c w.conns).2
        events := w.events ++
          if (transDecConnRefByConnId c w.conns).1 = .ok ∧ isDisconnect then [.disconnectDevice c]
          else [] } := by
  unfold transProxyCloseConnChannelReset
  simp only
  split
  · rfl
  · simp

theorem quiet_closeConnChannelReset (connId : UInt32) (isDisconnect : Bool) (w : ProxyWorld) :
    Quiet w (w.transProxyCloseConnChannelReset connId isDisconnect) := by
  rw [closeConnChannelReset_eq]
  exact .of_lists (.refl .refl) (evolves_decConnRef _ _) ..

/-- A channel whose handshake fails is taken out as it was before. -/
theorem delChan_handshake (info : ProxyChannelInfo) (env : LoopEnv) (w : ProxyWorld) :
    transProxyDelChanByChanId info.channelId (w.transProxyHandshake info env).2.channels =
      transProxyDelChanByChanId info.channelId w.channels := by
  unfold transProxyHandshake
  split
  · rfl
  · next chiper _ =>
    have hset : transProxyDelChanByChanId info.channelId (if info.appInfo.appType = .auth then w
        else { w with channels := transProxySetChiper info.channelId chiper w.channels }).channels =
        transProxyDelChanByChanId info.channelId w.channels := by
      split
      · rfl
      · exact List.eraseP_modifyFirst fun _ => rfl
    simp only
    split
    · exact hset
    · exact hset

theorem follows_ack (peerId : Int16) (info : AppInfo) (a : ProxyChannelInfo) :
    a.Follows { a with
      peerId := peerId, status := .completed, timeout := 0
      appInfo := { a.appInfo with
        encrypt := info.encrypt, algorithm := info.algorithm, crc := info.crc
        peerData := info.peerData } } :=
  ⟨rfl, rfl, rfl, rfl, rfl, rfl, .inr rfl⟩

theorem quiet_handshakeAck (env : MsgEnv) (w : ProxyWorld) :
    Quiet w (w.transProxyProcessHandshakeAckMsg msg env) := by
  unfold transProxyProcessHandshakeAckMsg
  split
  · exact .refl w
  · next info _ =>
    split
    · exact .refl w
    · next h => exact .of_channels (.of_updateFirst .refl (follows_ack _ info) h) ..

/-! ## Steps that add a channel -/

/-- A handshake is dropped unless everything about the peer is known. -/
theorem received_handshake {P : ProxyWorld → Prop} {env : MsgEnv} {w : ProxyWorld} (h : msg.msgHead.type = .handshake)
    (hw : P w) (haccept : ∀ identity appInfo info, P (w.acceptHandshake msg env identity appInfo info)) :
    P (w.transProxyOnDataReceived msg env) := by
  unfold transProxyOnDataReceived
  split
  · simp only [transProxyOnMessageReceived, h]
    unfold transProxyProcessHandshakeMsg
    split
    · exact hw
    · split
      · exact haccept ..
      · exact hw
  · exact hw

section
variable (msg)

/-- The channel of a handshake, with the id and the `uid` that it would get now. -/
def handshakeChannel (identity : String) (appInfo : AppInfo)
    (info : ConnectionInfo) (w : ProxyWorld) : ProxyChannelInfo :=
  serverChannel msg identity appInfo info
    (transProxyGetNewMyId w.littleEndian w.channels w.myId).1 w.nextUid

/-- The channel is added if the listener takes it and the answer is sent. -/
theorem channels_acceptHandshake (env : MsgEnv) (identity : String)
    (appInfo : AppInfo) (info : ConnectionInfo) (w : ProxyWorld) :
    (w.acceptHandshake msg env identity appInfo info).channels =
      if (onProxyChannelOpened (w.handshakeChannel msg identity appInfo info) env.opened).1 ∧ env.sent
      then w.handshakeChannel msg identity appInfo info :: w.channels
      else w.channels := by
  unfold acceptHandshake
  simp only [← handshakeChannel.eq_1]
  by_cases hopened :
      (onProxyChannelOpened (w.handshakeChannel msg identity appInfo info) env.opened).1 = true
  · rw [if_pos hopened]
    by_cases hsent : env.sent = true
    · rw [if_pos hsent, if_pos ⟨hopened, hsent⟩]
      rfl
    · rw [if_neg hsent, if_neg fun h => hsent h.2]
      -- the channel that was just added is the first with its id
      exact List.eraseP_cons_of_pos (by simp [hasChannelId])
  · rw [if_neg hopened, if_neg fun h => hopened h.1]
    rw [transProxyCloseConnChannel, closeConnChannelReset_eq]
    rfl

theorem frame_acceptHandshake (env : MsgEnv) (identity : String)
    (appInfo : AppInfo) (info : ConnectionInfo) (w : ProxyWorld) :
    (w.acceptHandshake msg env identity appInfo info).littleEndian = w.littleEndian ∧
      (w.acceptHandshake msg env identity appInfo info).calls = w.calls ∧
      (w.acceptHandshake msg env identity appInfo info).reqId = w.reqId ∧
      (w.acceptHandshake msg env identity appInfo info).nextUid = w.nextUid + 1 := by
  unfold acceptHandshake
  simp only
  split
  · split
    · exact ⟨rfl, rfl, rfl, rfl⟩
    · exact ⟨rfl, rfl, rfl, rfl⟩
  · have hclose := quiet_closeConnChannelReset msg.connId true
    exact ⟨(hclose _).littleEndian, (hclose _).calls, (hclose _).reqId, (hclose _).nextUid⟩

end

/-- What the second half of an open call leaves alone. -/
theorem frame_openFinish {n : ℕ} {call : OpenCall} {w : ProxyWorld} (h : w.calls[n]? = some call)
    (identity : Option String) (connected : Bool) :
    (w.openFinish n identity connected).littleEndian = w.littleEndian ∧
      (w.openFinish n identity connected).calls = w.calls.eraseIdx n := by
  unfold openFinish
  rw [h]
  cases identity with
  | none => exact ⟨rfl, rfl⟩
  | some identity =>
    cases hconn : call.conn with
    | some conn =>
      simp only [hconn]
      unfold transProxyConnExistProc
      split
      · exact ⟨rfl, rfl⟩
      · exact ⟨rfl, rfl⟩
    | none =>
      simp only [hconn]
      unfold transProxyOpenNewConnChannel
      simp only
      split
      · split
        · exact ⟨rfl, rfl⟩
        · exact ⟨rfl, rfl⟩
      · split
        · exact ⟨rfl, rfl⟩
        · exact ⟨rfl, rfl⟩

end ProxyWorld
end SoftBus.Native
