import SoftBus.Spec.ProxyChannels

/-!
# The moves of the handlers

The handlers that add and bind nothing are made of a few moves: channels are changed or taken out, events are issued,
messages are posted to the loop, and references are given back.  `Moves` says which of them may follow each other: the end
of a channel is reported only after it was taken out, and the references that a handler gives back are those of the channels
that it has taken out.  Every such handler is shown once to be a sequence of moves (`Moves.step`), and what holds after
every sequence of moves is shown move by move.
-/

namespace SoftBus.Native
open List ProxyChannelInfo
variable {gone : List ℕ} {chan : ProxyChannelInfo} {channels : List ProxyChannelInfo} {p : ProxyChannelInfo → Bool} {msg : ProxyMessage}
  {f : ProxyChannelInfo → ProxyChannelInfo} {r : ProxyChannelInfo × List ProxyChannelInfo} {events : List ProxyEvent}
  {w : ProxyWorld} {info : ProxyChannelInfo} {input : ProxyInput}

/-! ## Reports -/

/-- The channel that is reported open. -/
def ProxyEvent.opens? : ProxyEvent → Option ℕ
  | .channelOpened uid _ _ => some uid
  | _ => none

/-- The channel that is reported failed or closed. -/
def ProxyEvent.ends? : ProxyEvent → Option ℕ
  | .channelOpenFailed uid _ | .channelClosed uid _ => some uid
  | _ => none

/-- The channel that the loop is going to report failed or closed. -/
def LoopMsg.ends? : LoopMsg → Option ℕ
  | .openFail chan | .openClose chan => some chan.uid
  | _ => none

/-- The connection of a `LOOP_DISCONNECT_MSG`. -/
def LoopMsg.disconnects? : LoopMsg → Option UInt32
  | .disconnect connId => some connId
  | _ => none

/-- The event reports no channel open, closes no connection, and reports only the end of the channels `gone`. -/
def ProxyEvent.Ends (gone : List ℕ) (e : ProxyEvent) : Prop :=
  e.opens? = none ∧ (∀ c, e ≠ .disconnectDevice c) ∧ ∀ uid ∈ e.ends?, uid ∈ gone

theorem ends_openFailed (h : chan.uid ∈ gone) : ∀ e ∈ onProxyChannelOpenFailed chan, e.Ends gone := by
  unfold onProxyChannelOpenFailed
  split <;> simp [ProxyEvent.Ends, ProxyEvent.opens?, ProxyEvent.ends?, h]

theorem ends_closed (h : chan.uid ∈ gone) : ∀ e ∈ onProxyChannelClosed chan, e.Ends gone := by
  unfold onProxyChannelClosed
  split <;> simp [ProxyEvent.Ends, ProxyEvent.opens?, ProxyEvent.ends?, h]

theorem ends_post {connId : UInt32} {head : ProxyMessageHead} :
    ∀ e ∈ [ProxyEvent.post connId head], e.Ends gone := by
  simp [ProxyEvent.Ends, ProxyEvent.opens?, ProxyEvent.ends?]

theorem ends_sendControl {type : MsgType} {connId : UInt32} {sent : Bool} :
    ∀ e ∈ chan.sendControl type connId sent, e.Ends gone := by
  unfold sendControl
  split
  · exact ends_post
  · exact fun _ h => absurd h not_mem_nil

namespace ProxyWorld

def uids (w : ProxyWorld) : List ℕ := w.channels.map (·.uid)

/-- The connections of the channels. -/
def boundIds (w : ProxyWorld) : List UInt32 := w.channels.map (·.connId)

/-! ## The moves -/

/-- Since `w₀` the channels with the `uid`s `gone` have been taken out, and references of the connections `owed` are to be
    given back.  What matters for the references only is asked for if `strict`. -/
inductive Moves (strict : Prop) (w₀ : ProxyWorld) : List ℕ → List UInt32 → ProxyWorld → Prop where
  | start : Moves strict w₀ [] [] w₀
  | pop {msg : LoopMsg} {loop : List LoopMsg} (hloop : w₀.loop = msg :: loop) :
      Moves strict w₀ msg.ends?.toList msg.disconnects?.toList { w₀ with loop := loop }
  | emit {gone : List ℕ} {owed : List UInt32} {w : ProxyWorld} (h : Moves strict w₀ gone owed w) (events : List ProxyEvent)
      (hevents : ∀ e ∈ events, e.Ends gone) : Moves strict w₀ gone owed (w.emit events)
  | post {gone : List ℕ} {owed : List UInt32} {w : ProxyWorld} (h : Moves strict w₀ gone owed w) (msgs : List LoopMsg)
      (hmsgs : ∀ msg ∈ msgs, ∀ uid ∈ msg.ends?, uid ∈ gone)
      (howed : (msgs.filterMap LoopMsg.disconnects?).Perm owed) : Moves strict w₀ gone [] (w.postLoop msgs)
  | take {gone : List ℕ} {owed : List UInt32} {w : ProxyWorld} {channels : List ProxyChannelInfo}
      (h : Moves strict w₀ gone owed w) (out : List ProxyChannelInfo) (hstay : w.channels.Evolves Follows channels)
      (hout : (w.channels.map fun a => (a.uid, a.connId)).Perm ((out ++ channels).map fun a => (a.uid, a.connId)))
      (hstatus : strict → ∀ b ∈ channels, ∃ a ∈ w.channels, a.connId = b.connId ∧
        (a.status = .pyhConnecting ↔ b.status = .pyhConnecting)) :
      Moves strict w₀ (out.map (·.uid) ++ gone) (out.map (·.connId) ++ owed) { w with channels := channels }
  | giveBack {gone : List ℕ} {owed : List UInt32} {w : ProxyWorld} {c : UInt32} (h : Moves strict w₀ gone (c :: owed) w)
      (isDisconnect : Bool) : Moves strict w₀ gone owed (w.transProxyCloseConnChannelReset c isDisconnect)
  | reckon {gone : List ℕ} {owed : List UInt32} {w : ProxyWorld} (h : Moves strict w₀ gone owed w) (owed' : List UInt32)
      (howed : strict → ∀ c, c ≠ 0 → owed'.count c = owed.count c) : Moves strict w₀ gone owed' w
  | dropConn {gone : List ℕ} {owed : List UInt32} {w : ProxyWorld} {connId : UInt32} (h : Moves strict w₀ gone owed w)
      (hnone : connId ∉ w.boundIds) :
      Moves strict w₀ gone owed { w with conns := transDelConnByConnId connId w.conns }
  | dropWaiting {gone : List ℕ} {owed : List UInt32} {w : ProxyWorld} (h : Moves strict w₀ gone owed w) (reqId : UInt32) :
      Moves strict w₀ gone owed { w with conns := transDelConnByReqId reqId w.conns }

/-- A sequence of moves adds and binds nothing. -/
theorem Moves.quiet {strict : Prop} {w₀ : ProxyWorld} {owed : List UInt32}
    (h : Moves strict w₀ gone owed w) : Quiet w₀ w := by
  induction h with
  | start => exact .refl _
  | pop => exact .of_channels (.refl .refl) ..
  | emit h events hevents ih => exact ih.trans (.of_channels (.refl .refl) ..)
  | post h msgs hmsgs howed ih => exact ih.trans (.of_channels (.refl .refl) ..)
  | take h out hstay hout hstatus ih => exact ih.trans (.of_channels hstay ..)
  | giveBack h isDisconnect ih => exact ih.trans (quiet_closeConnChannelReset ..)
  | reckon h owed' howed ih => exact ih
  | dropConn h hnone ih => exact ih.trans (.of_lists (.refl .refl) (.of_sublist .refl eraseP_sublist) ..)
  | dropWaiting h reqId ih => exact ih.trans (.of_lists (.refl .refl) (.of_sublist .refl eraseP_sublist) ..)

namespace Moves
variable {strict : Prop} {w₀ w : ProxyWorld} {owed : List UInt32}

section
variable (h : Moves strict w₀ gone owed w)
include h

/-- The first channel that meets a test changes. -/
theorem modify (hf : ∀ a, Follows a (f a))
    (hstatus : strict → ∀ a, w.channels.find? p = some a → ((f a).status = .pyhConnecting ↔ a.status = .pyhConnecting)) :
    Moves strict w₀ gone owed { w with channels := w.channels.modifyFirst p f } := by
  refine h.take [] (.of_modifyFirst .refl hf) (.of_eq ?_) fun hs b hb => ?_
  · refine (map_modifyFirst fun a _ => ?_).symm
    rw [(hf a).uid, (hf a).connId]
  · have hmap : (w.channels.modifyFirst p f).map (fun a => (a.connId, decide (a.status = .pyhConnecting))) =
        w.channels.map fun a => (a.connId, decide (a.status = .pyhConnecting)) := map_modifyFirst fun a ha => by
      rw [(hf a).connId, decide_eq_decide.2 (hstatus hs a ha)]
    obtain ⟨a, ha, heq⟩ := mem_map.1 (hmap ▸ mem_map_of_mem hb)
    obtain ⟨hconnId, hiff⟩ := Prod.mk.inj heq
    exact ⟨a, ha, hconnId, by simpa using hiff⟩

theorem update (hr : w.channels.updateFirst p f = some r) (hf : ∀ a, Follows a (f a))
    (hstatus : strict → ∀ a, w.channels.find? p = some a → ((f a).status = .pyhConnecting ↔ a.status = .pyhConnecting)) :
    Moves strict w₀ gone owed { w with channels := r.2 } := by
  obtain ⟨a, _, hr⟩ := Option.map_eq_some_iff.1 hr
  rw [← hr]
  exact h.modify hf hstatus

/-- Channels are taken out, and the others stay as they are. -/
theorem takeOut (out : List ProxyChannelInfo) (hsub : channels.Sublist w.channels)
    (hout : w.channels.Perm (out ++ channels)) :
    Moves strict w₀ (out.map (·.uid) ++ gone) (out.map (·.connId) ++ owed) { w with channels := channels } :=
  h.take out (.of_sublist .refl hsub) (hout.map _) fun _ b hb => ⟨b, hsub.subset hb, rfl, Iff.rfl⟩

theorem takeEraseP (hfind : w.channels.find? p = some chan) :
    Moves strict w₀ (chan.uid :: gone) (chan.connId :: owed) { w with channels := w.channels.eraseP p } := by
  obtain ⟨_, _, hm⟩ := exists_firstMatch hfind
  refine h.takeOut [chan] eraseP_sublist ?_
  rw [hm.eraseP_eq]
  exact hm.perm_cons

theorem takeFirst (htake : w.channels.takeFirst p = some (chan, channels)) :
    Moves strict w₀ (chan.uid :: gone) (chan.connId :: owed) { w with channels := channels } := by
  obtain ⟨a, hfind, heq⟩ := Option.map_eq_some_iff.1 htake
  obtain ⟨rfl, rfl⟩ := Prod.mk.inj heq
  exact h.takeEraseP hfind

theorem takeFilter (p : ProxyChannelInfo → Bool) :
    Moves strict w₀ ((w.channels.filter p).map (·.uid) ++ gone) ((w.channels.filter p).map (·.connId) ++ owed)
      { w with channels := w.channels.filter (!p ·) } :=
  h.takeOut _ filter_sublist (filter_append_perm p w.channels).symm

/-! ## The loop -/

theorem handshake (info : ProxyChannelInfo) (env : LoopEnv) :
    Moves strict w₀ gone owed (w.transProxyHandshake info env).2 := by
  unfold transProxyHandshake
  split
  · exact h
  · next chiper _ =>
    -- the cipher flags are kept in the channel
    have hset : Moves strict w₀ gone owed (if info.appInfo.appType = .auth then w
        else { w with channels := transProxySetChiper info.channelId chiper w.channels }) := by
      split
      · exact h
      · exact h.modify (fun _ => ⟨rfl, rfl, rfl, rfl, rfl, rfl, .inl rfl⟩) fun _ _ _ => Iff.rfl
    simp only
    split
    · exact hset.emit _ ends_post
    · exact hset

end

/-- A handshake that is not sent changes the cipher flags of the channel at most. -/
theorem handshake_eq_of_not_sent {env : LoopEnv} (h : (w.transProxyHandshake info env).1 = false) :
    (w.transProxyHandshake info env).2 =
      { w with channels := (w.transProxyHandshake info env).2.channels } := by
  unfold transProxyHandshake at h ⊢
  split
  · rfl
  · next hchiper =>
    simp only [hchiper] at h ⊢
    split
    · next hsent => simp [hsent] at h
    · split
      · rfl
      · rfl

theorem openProxyChannelSuccess (h : Moves strict w₀ gone [] w) (chanId : Int32) (env : LoopEnv) :
    ∃ gone, Moves strict w₀ gone [] (w.transProxyOpenProxyChannelSuccess chanId env) := by
  unfold transProxyOpenProxyChannelSuccess
  split
  · exact ⟨gone, (h.reckon [0] fun _ c hc => count_cons_of_ne hc.symm).giveBack true⟩
  · next chan hfind =>
    simp only
    split
    · exact ⟨gone, h.handshake chan env⟩
    · next hsent =>
      have hchanId : chan.channelId = chanId := by simpa [hasChannelId] using find?_some hfind
      -- the channel whose connection is closed is the one that is taken out
      have hclosed := ((h.takeEraseP hfind).giveBack true).emit _ (ends_openFailed mem_cons_self)
      have herased := delChan_handshake chan env w
      rw [hchanId] at herased
      rw [handshake_eq_of_not_sent (Bool.eq_false_iff.2 hsent)]
      refine ⟨chan.uid :: gone, ?_⟩
      simp only [transProxyCloseConnChannel, closeConnChannelReset_eq] at hclosed ⊢
      simp only [ProxyWorld.emit, herased]
      exact hclosed

theorem loop (env : LoopEnv) (w : ProxyWorld) : ∃ gone, Moves strict w gone [] (w.transProxyLoopMsgHandler env) := by
  unfold transProxyLoopMsgHandler
  split
  · exact ⟨[], .start⟩
  · next msg rest hloop =>
    have hpop : Moves strict w msg.ends?.toList msg.disconnects?.toList { w with loop := rest } := .pop hloop
    cases msg with
    | handshake chanId => exact openProxyChannelSuccess hpop chanId env
    | disconnect connId => exact ⟨_, hpop.giveBack true⟩
    | openFail chan => exact ⟨_, hpop.emit _ (ends_openFailed mem_cons_self)⟩
    | openClose chan => exact ⟨_, hpop.emit _ (ends_closed mem_cons_self)⟩
    | keepAlive chan | resetPeer chan => exact ⟨_, hpop.emit _ ends_sendControl⟩

/-! ## Closing -/

theorem disconnects_closeOtherRes (out : List ProxyChannelInfo) :
    (out.flatMap transProxyCloseProxyOtherRes).filterMap LoopMsg.disconnects? = out.map (·.connId) := by
  induction out with
  | nil => rfl
  | cons chan out ih =>
    rw [flatMap_cons, filterMap_append, ih]
    rfl

/-- What is posted for a channel that is closed is no report. -/
theorem ends?_closeProxyOtherRes {msg : LoopMsg}
    (h : msg ∈ transProxyCloseProxyOtherRes info) : msg.ends? = none := by
  simp only [transProxyCloseProxyOtherRes, mem_cons, not_mem_nil, or_false] at h
  rcases h with rfl | rfl <;> rfl

theorem close (channelId : Int32) (w : ProxyWorld) :
    ∃ gone, Moves strict w gone [] (w.transProxyCloseProxyChannel channelId).2 := by
  unfold transProxyCloseProxyChannel
  split
  · exact ⟨[], .start⟩
  · next info channels htake =>
    refine ⟨_, (start.takeFirst htake).post _ (fun msg hmsg uid huid => ?_) (.refl _)⟩
    rw [ends?_closeProxyOtherRes hmsg] at huid
    cases huid

/-- The channels of a connection go, and then its item. -/
theorem disconnected (connId : UInt32) (w : ProxyWorld) :
    ∃ gone, Moves strict w gone [] (w.transProxyOnDisConnect connId) := by
  have hstart : Moves strict w [] [] w := .start
  have htaken := hstart.takeFilter (fun chan => chan.connId = connId)
  have hreported := htaken.emit ((w.channels.filter (·.connId = connId)).reverse.flatMap reportReleased) <| by
    intro e he
    obtain ⟨a, ha, he⟩ := mem_flatMap.1 he
    have huid := mem_append_left [] (mem_map_of_mem (f := (·.uid)) (mem_reverse.1 ha))
    unfold reportReleased at he
    split at he
    · exact ends_openFailed huid e he
    · exact ends_closed huid e he
  have hposted := hreported.post ((w.channels.filter (·.connId = connId)).reverse.flatMap
      transProxyCloseProxyOtherRes) (fun msg hmsg uid huid => by
    obtain ⟨a, -, hmsg⟩ := mem_flatMap.1 hmsg
    rw [ends?_closeProxyOtherRes hmsg] at huid
    cases huid) <| by
      rw [disconnects_closeOtherRes, append_nil]
      exact (reverse_perm _).map _
  simp only [← decide_not] at hposted
  refine ⟨_, hposted.dropConn fun hmem => ?_⟩
  obtain ⟨chan, hchan, hconnId⟩ := mem_map.1 hmem
  exact absurd hconnId (by simpa using (mem_filter.1 hchan).2)

theorem connectFailed (reqId : UInt32) (w : ProxyWorld)
    (hwait : strict → ∀ chan ∈ w.channels, chan.status = .pyhConnecting → chan.connId = 0) :
    ∃ gone, Moves strict w gone [] (w.transOnConnectFailed reqId) := by
  have hstart : Moves strict w [] [] w := .start
  have htaken := hstart.takeFilter (·.waitsFor reqId)
  -- channels without a connection have no references
  have hnone := htaken.reckon [] fun hs c hc => by
    refine (count_eq_zero.2 fun hmem => ?_).symm
    rw [append_nil] at hmem
    obtain ⟨chan, hchan, rfl⟩ := mem_map.1 hmem
    obtain ⟨hchan, hwaits⟩ := mem_filter.1 hchan
    simp only [waitsFor, decide_eq_true_eq] at hwaits
    exact hc (hwait hs chan hchan hwaits.2)
  refine ⟨_, (hnone.post ((w.channels.filter (·.waitsFor reqId)).map .openFail) ?_ ?_).dropWaiting reqId⟩
  · intro msg hmsg uid huid
    obtain ⟨a, ha, rfl⟩ := mem_map.1 hmsg
    rw [← Option.some.inj huid]
    exact mem_append_left _ (mem_map_of_mem ha)
  · rw [filterMap_map]
    exact .of_eq (filterMap_eq_nil_iff.2 fun _ _ => rfl)

/-- The dead channels give back their references one after the other. -/
theorem foldl_closeDead (sent : Bool) (dead : List ProxyChannelInfo)
    (h : Moves strict w₀ gone (dead.map (·.connId)) w) : Moves strict w₀ gone [] (dead.foldl (closeDead sent) w) := by
  induction dead generalizing w with
  | nil => exact h
  | cons item dead ih =>
    have hitem : Moves strict w₀ gone (dead.map (·.connId)) (w.closeDead sent item) :=
      (h.emit _ ends_sendControl).giveBack true
    exact ih hitem

/-- Closing connections and taking channels out do not depend on each other. -/
theorem foldl_closeDead_channels (sent : Bool) (dead channels : List ProxyChannelInfo) (w : ProxyWorld) :
    dead.foldl (closeDead sent) { w with channels := channels } =
      { dead.foldl (closeDead sent) w with channels := channels } := by
  induction dead generalizing w with
  | nil => rfl
  | cons item dead ih =>
    rw [foldl_cons, foldl_cons, ← ih]
    simp only [closeDead, transProxyCloseConnChannel, closeConnChannelReset_eq]
    rfl

theorem death (pkgName : String) (sent : Bool) (w : ProxyWorld) :
    ∃ gone, Moves strict w gone [] (w.transProxyDeathCallback pkgName sent) := by
  have hstart : Moves strict w [] [] w := .start
  have htaken := hstart.takeFilter (·.appInfo.myData.pkgName = pkgName)
  rw [append_nil, append_nil] at htaken
  simp only [← decide_not] at htaken
  have hclosed := foldl_closeDead sent _ htaken
  rw [foldl_closeDead_channels] at hclosed
  have hchannels : ∀ l : List ProxyChannelInfo, (l.foldl (closeDead sent) w).channels = w.channels := by
    intro l
    have heq := congrArg ProxyWorld.channels (foldl_closeDead_channels sent l w.channels w)
    exact heq
  unfold transProxyDeathCallback
  simp only [hchannels]
  exact ⟨_, hclosed⟩

/-! ## The timer -/

/-- A channel that times out posts one message for its connection, and reports only itself. -/
theorem timerItemMsgs_timesOut {out : ProxyChannelInfo} (h : chan.timesOut = some out) :
    out.uid = chan.uid ∧ out.connId = chan.connId ∧
      (timerItemMsgs out).filterMap LoopMsg.disconnects? = [out.connId] ∧
      ∀ msg ∈ timerItemMsgs out, ∀ uid ∈ msg.ends?, uid = out.uid := by
  obtain ⟨status, htick, rfl⟩ := Option.map_eq_some_iff.1 h
  have hstatus : status = .timeout ∨ status = .handshakeTimeout := by
    unfold ProxyChannelInfo.tick at htick
    cases hs : chan.status <;> simp only [hs] at htick <;> grind
  refine ⟨by rw [tick_fst], by rw [tick_fst], ?_⟩
  rcases hstatus with rfl | rfl <;> exact ⟨rfl, by simp [timerItemMsgs, LoopMsg.ends?]⟩

/-- A tick splits the channels into those that stay and those that time out. -/
theorem perm_tick : (channels.map fun a => (a.uid, a.connId)).Perm
      ((channels.filterMap (·.timesOut) ++ channels.filterMap (·.stays)).map fun a => (a.uid, a.connId)) := by
  induction channels with
  | nil => exact .refl _
  | cons chan channels ih =>
    cases htick : chan.tick.2 with
    | none =>
      have hout : chan.timesOut = none := by simp [timesOut, htick]
      have hstays : chan.stays = some chan.tick.1 := by simp [stays, htick]
      rw [filterMap_cons_none hout, filterMap_cons_some hstays, tick_fst]
      refine (ih.cons _).trans ?_
      rw [map_append, map_append]
      exact perm_middle.symm
    | some status =>
      have hout : chan.timesOut = some { chan.tick.1 with status := status } := by
        simp [timesOut, htick]
      have hstays : chan.stays = none := by simp [stays, htick]
      obtain ⟨huid, hconnId, -⟩ := timerItemMsgs_timesOut hout
      rw [filterMap_cons_some hout, filterMap_cons_none hstays, cons_append, map_cons, map_cons, huid, hconnId]
      exact ih.cons _

theorem tick : ∃ gone, Moves strict w gone [] w.transProxyTimerProc := by
  have hstart : Moves strict w [] [] w := .start
  have htaken := hstart.take _ (.of_filterMap fun _ _ => follows_stays)
    perm_tick fun _ b hb => by
      obtain ⟨a, ha, hstays⟩ := mem_filterMap.1 hb
      refine ⟨a, ha, (follows_stays hstays).connId.symm, ?_⟩
      unfold stays at hstays
      split at hstays
      · rw [← Option.some.inj hstays, tick_fst]
      · exact absurd hstays (by simp)
  refine ⟨_, htaken.post _ (fun msg hmsg uid huid => ?_) ?_⟩
  · obtain ⟨out, hout, hmsg⟩ := mem_flatMap.1 hmsg
    obtain ⟨a, -, htimesOut⟩ := mem_filterMap.1 (mem_reverse.1 hout)
    rw [(timerItemMsgs_timesOut htimesOut).2.2.2 msg hmsg uid huid]
    exact mem_append_left _ (mem_map_of_mem (mem_reverse.1 hout))
  · rw [filterMap_flatMap, append_nil]
    have heq : ((w.channels.filterMap (·.timesOut)).reverse.flatMap fun out =>
        (timerItemMsgs out).filterMap LoopMsg.disconnects?) =
          (w.channels.filterMap (·.timesOut)).reverse.map (·.connId) := by
      rw [map_eq_flatMap]
      refine flatMap_congr fun out hout => ?_
      obtain ⟨a, -, htimesOut⟩ := mem_filterMap.1 (mem_reverse.1 hout)
      exact (timerItemMsgs_timesOut htimesOut).2.2.1
    rw [heq]
    exact (reverse_perm _).map _

/-! ## Messages -/

theorem reset
    (hreset : strict → ∀ u ∈ msg.unpacked, ∀ r ∈ transProxyResetChan msg.msgHead.myId msg.msgHead.peerId u.1 w.channels, r.1.connId = msg.connId) :
    ∃ gone, Moves strict w gone [] (w.transProxyProcessResetMsg msg) := by
  unfold transProxyProcessResetMsg
  split
  · exact ⟨[], .start⟩
  · next identity _ hunpacked =>
    split
    · exact ⟨[], .start⟩
    · next info channels htake =>
      have htaken : Moves strict w [info.uid] [msg.connId] { w with channels := channels } :=
        (start.takeFirst htake).reckon _ fun hs c _ => by rw [← hreset hs _ hunpacked _ htake]
      split
      · exact ⟨_, (htaken.emit _ (ends_openFailed mem_cons_self)).giveBack _⟩
      · exact ⟨_, (htaken.emit _ (ends_closed mem_cons_self)).giveBack _⟩

theorem keepAlvieChan {myId peerId : Int16} {identity : String}
    (hr : transProxyKeepAlvieChan myId peerId identity w.channels = some r) :
    Moves strict w [] [] { w with channels := r.2 } := by
  refine start.update hr (fun a => ?_) fun _ a _ => ?_
  · split
    · exact ⟨rfl, rfl, rfl, rfl, rfl, rfl, .inr rfl⟩
    · exact .refl a
  · split
    · next hstatus => rcases hstatus with hs | hs <;> simp [hs]
    · exact Iff.rfl

theorem keepAlive (env : MsgEnv) : Moves strict w [] [] (w.transProxyProcessKeepAlive msg env) := by
  unfold transProxyProcessKeepAlive
  split
  · exact .start
  · split
    · exact .start
    · next hr => exact (keepAlvieChan hr).emit _ ends_sendControl

theorem keepAliveAck : Moves strict w [] [] (w.transProxyProcessKeepAliveAck msg) := by
  unfold transProxyProcessKeepAliveAck
  split
  · exact .start
  · split
    · exact .start
    · next hr => exact keepAlvieChan hr

theorem touch_status : chan.touch.status = chan.status := by
  unfold touch
  split
  · rfl
  · rfl

theorem dataRecv : Moves strict w [] [] (w.transProxyProcessDataRecv msg) := by
  unfold transProxyProcessDataRecv
  split
  · exact .start
  · next hr =>
    refine (start.update hr follows_touch fun _ a _ => by rw [touch_status]).emit _ fun e he => ?_
    unfold onProxyChannelMsgReceived at he
    split at he
    · rw [mem_singleton.1 he]
      simp [ProxyEvent.Ends, ProxyEvent.opens?, ProxyEvent.ends?]
    · exact absurd he not_mem_nil

theorem send (channelId : Int32) (ret : TransErr) (w : ProxyWorld) :
    Moves strict w [] [] (w.transProxySendMsg channelId ret).2 := by
  unfold transProxySendMsg
  split
  · exact .start
  · next hr =>
    have hstart : Moves strict w [] [] w := .start
    have htouched := hstart.update hr follows_touch fun _ a _ => by rw [touch_status]
    split
    · exact htouched
    · split
      · exact htouched.emit _ ends_post
      · exact htouched

end Moves
end ProxyWorld

/-- The input adds no channel, binds none and reports none open. -/
def ProxyInput.IsMoves : ProxyInput → Prop
  | .openLookup .. | .openFinish .. | .connectSuccessed .. => False
  | .received msg _ => msg.msgHead.type ≠ .handshake ∧ msg.msgHead.type ≠ .handshakeAck
  | _ => True

/-- A reset message comes on the connection of its channel. -/
def ProxyWorld.ResetsOwn (w : ProxyWorld) : ProxyInput → Prop
  | .received msg _ => msg.msgHead.type = .reset → ∀ u ∈ msg.unpacked,
      ∀ r ∈ transProxyResetChan msg.msgHead.myId msg.msgHead.peerId u.1 w.channels, r.1.connId = msg.connId
  | _ => True

/-- Every handler that adds and binds nothing and reports no channel open is a sequence of moves. -/
theorem ProxyWorld.Moves.step {strict : Prop} (h : input.IsMoves)
    (hwait : strict → ∀ chan ∈ w.channels, chan.status = .pyhConnecting → chan.connId = 0)
    (hreset : strict → w.ResetsOwn input) : ∃ gone, Moves strict w gone [] (w.step input) := by
  cases input with
  | openLookup | openFinish | connectSuccessed => exact h.elim
  | connectFailed requestId => exact connectFailed requestId w hwait
  | disconnected connId => exact disconnected connId w
  | received msg env =>
    simp only [ProxyWorld.step, transProxyOnDataReceived]
    split
    · unfold transProxyOnMessageReceived
      cases htype : msg.msgHead.type with
      | handshake => exact absurd htype h.1
      | handshakeAck => exact absurd htype h.2
      | reset => exact reset fun hs => hreset hs htype
      | keepalive => exact ⟨[], keepAlive env⟩
      | keepaliveAck => exact ⟨[], keepAliveAck⟩
      | normal => exact ⟨[], dataRecv⟩
    · exact ⟨[], .start⟩
  | send channelId ret => exact ⟨[], send channelId ret w⟩
  | close channelId => exact close channelId w
  | death pkgName sent => exact death pkgName sent w
  | tick => exact tick
  | loop env => exact loop env w

/-- The input adds no channel and binds none. -/
def ProxyInput.IsQuiet : ProxyInput → Prop
  | .openLookup .. | .openFinish .. | .connectSuccessed .. => False
  | .received msg _ => msg.msgHead.type ≠ .handshake
  | _ => True

theorem ProxyWorld.quiet_step (h : input.IsQuiet) : Quiet w (w.step input) := by
  by_cases hmoves : input.IsMoves
  · obtain ⟨gone, hm⟩ : ∃ gone, Moves False w gone [] (w.step input) := Moves.step hmoves False.elim False.elim
    exact hm.quiet
  · cases input with
    | openLookup | openFinish | connectSuccessed => exact h.elim
    | received msg env =>
      have htype : msg.msgHead.type = .handshakeAck := Decidable.byContradiction fun hne => hmoves ⟨h, hne⟩
      simp only [ProxyWorld.step, transProxyOnDataReceived, transProxyOnMessageReceived, htype]
      split
      · exact quiet_handshakeAck env w
      · exact .refl w
    | _ => exact absurd trivial hmoves

/-- The machine does not change. -/
theorem ProxyWorld.littleEndian_step (w : ProxyWorld) (input : ProxyInput) :
    (w.step input).littleEndian = w.littleEndian := by
  cases input with
  | openLookup | connectSuccessed => rfl
  | openFinish n identity connected =>
    cases hcall : w.calls[n]? with
    | none => simp [step, openFinish, hcall]
    | some call => exact (frame_openFinish hcall identity connected).1
  | received msg env =>
    by_cases htype : msg.msgHead.type = .handshake
    · exact received_handshake (P := (·.littleEndian = w.littleEndian)) htype rfl fun identity appInfo info =>
        (w.frame_acceptHandshake msg env identity appInfo info).1
    · exact Quiet.littleEndian (quiet_step htype)
  | connectFailed | disconnected | send | close | death | tick | loop => exact Quiet.littleEndian (quiet_step trivial)

end SoftBus.Native
