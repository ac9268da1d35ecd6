import SoftBus.ForStd.Journal
import SoftBus.Spec.ProxyIds

/-!
# How often a channel is reported open

A channel is reported open when the answer to its handshake arrives, and failed or closed
when it has been taken out of the list.  `TransProxyUpdateAckInfo` looks for the channel by
its id and its identity only, so a second answer reports it open a second time.  As long as
every answer that finds a channel finds it in its handshake, a channel is reported open at
most once, and never after it has been reported failed or closed.
-/

namespace SoftBus.Native
open List ProxyChannelInfo ProxyWorld
variable {chan a b : ProxyChannelInfo} {e : ProxyEvent} {msg : ProxyMessage} {w : ProxyWorld}
  {events : List ProxyEvent} {uid : ℕ} {channels : List ProxyChannelInfo} {keeps : ProxyChannelInfo → Bool}
  {gone : List ℕ} {owed : List UInt32} {input : ProxyInput} {call : OpenCall} {identity : String}
  {connected : Bool}

/-! ## Reports -/

/-- Every channel is reported open at most once, and not after its end. -/
def OpenedOnce (events : List ProxyEvent) : Prop :=
  Journal.Always (fun before e => ∀ uid, e.opens? = some uid →
    ∀ e' ∈ before, e'.opens? ≠ some uid ∧ e'.ends? ≠ some uid) events

/-- There is one report, or none. -/
theorem onProxyChannelOpened_cases (chan : ProxyChannelInfo) (env : OpenedEnv) :
    (onProxyChannelOpened chan env).2 = [] ∨ (onProxyChannelOpened chan env).2 =
        [.channelOpened chan.uid chan.channelId chan.isServer] := by
  unfold onProxyChannelOpened
  cases chan.appInfo.appType with
  | normal =>
    simp only
    split
    · exact .inr rfl
    · exact .inl rfl
  | auth | inner => exact .inr rfl
  | notCare => exact .inl rfl

/-! ## Steps that report no channel open -/

namespace ProxyWorld

/-- The channels that have been reported failed or closed, or are going to be. -/
def ended (w : ProxyWorld) : List ℕ := w.events.filterMap (·.ends?) ++ w.loop.filterMap (·.ends?)

theorem ended_emitOpened (env : OpenedEnv) (w : ProxyWorld) :
    (w.emit (onProxyChannelOpened chan env).2).ended = w.ended := by
  cases onProxyChannelOpened_cases chan env with
  | inl hnil => simp [ended, emit, hnil]
  | inr hone => simp [ended, emit, hone, ProxyEvent.ends?]

/-- Nothing is reported open, and the channels that have come to their end are not in the
    list any more. -/
structure Retires (w w' : ProxyWorld) : Prop where
  quiet : w.Quiet w'
  events : ∃ new, w'.events = w.events ++ new ∧ ∀ e ∈ new, e.opens? = none
  ended : ∀ uid ∈ w'.ended, uid ∈ w.ended ∨ uid ∈ w.uids ∧ uid ∉ w'.uids

theorem Quiet.uids_sublist {w' : ProxyWorld} (h : w.Quiet w') : w'.uids.Sublist w.uids :=
  h.channels.map_sublist fun _ _ hab => hab.uid

namespace Retires
variable {w' w'' : ProxyWorld}

theorem refl (w : ProxyWorld) : Retires w w :=
  ⟨.refl w, ⟨[], (append_nil _).symm, fun _ h => absurd h not_mem_nil⟩, fun _ h => .inl h⟩

/-- Events are issued and messages posted that report the end of channels which are gone only. -/
theorem append {loop : List LoopMsg} (h : Retires w w')
    (hgone : ∀ uid ∈ gone, uid ∈ w.ended ∨ uid ∈ w.uids ∧ uid ∉ w'.uids) (hquiet : w.Quiet w'')
    (huids : w''.uids = w'.uids) (hE : w''.events = w'.events ++ events) (hL : w''.loop = w'.loop ++ loop)
    (hevents : ∀ e ∈ events, e.opens? = none ∧ ∀ uid ∈ e.ends?, uid ∈ gone)
    (hloop : ∀ msg ∈ loop, ∀ uid ∈ msg.ends?, uid ∈ gone) :
    Retires w w'' ∧ ∀ uid ∈ gone, uid ∈ w.ended ∨ uid ∈ w.uids ∧ uid ∉ w''.uids := by
  rw [huids]
  refine ⟨⟨hquiet, ?_, fun uid huid => ?_⟩, hgone⟩
  · obtain ⟨new, heq, hnew⟩ := h.events
    refine ⟨new ++ events, by rw [hE, heq, append_assoc], fun e he => ?_⟩
    cases mem_append.1 he with
    | inl he => exact hnew e he
    | inr he => exact (hevents e he).1
  · rw [huids]
    simp only [ProxyWorld.ended, hE, hL, filterMap_append, mem_append, mem_filterMap] at huid
    rcases huid with (huid | ⟨e, he, hend⟩) | huid | ⟨msg, hmsg, hend⟩
    · exact h.ended uid (mem_append_left _ (mem_filterMap.2 huid))
    · exact hgone uid ((hevents e he).2 uid hend)
    · exact h.ended uid (mem_append_right _ (mem_filterMap.2 huid))
    · exact hgone uid (hloop msg hmsg uid hend)

/-- After a sequence of moves only channels that are not in the list any more have come to their end. -/
theorem of_moves {strict : Prop} (h : Moves strict w gone owed w')
    (hn : w.uids.Nodup) : Retires w w' ∧ ∀ uid ∈ gone, uid ∈ w.ended ∨ uid ∈ w.uids ∧ uid ∉ w'.uids := by
  induction h with
  | start => exact ⟨.refl w, fun _ h => absurd h not_mem_nil⟩
  | @pop msg loop hloop =>
    -- what the message is going to report has come to its end before
    have hended : w.ended = w.events.filterMap (·.ends?) ++ (msg.ends?.toList ++ loop.filterMap (·.ends?)) := by
      rw [ProxyWorld.ended, hloop, filterMap_cons]
      cases msg.ends? <;> rfl
    refine ⟨⟨(show Moves strict w _ _ _ from .pop hloop).quiet, ⟨[], (append_nil _).symm, fun _ h => absurd h not_mem_nil⟩,
      fun uid huid => .inl ?_⟩, fun uid huid => .inl ?_⟩
    · rw [hended]
      rcases mem_append.1 huid with huid | huid
      · exact mem_append_left _ huid
      · exact mem_append_right _ (mem_append_right _ huid)
    · rw [hended]
      exact mem_append_right _ (mem_append_left _ huid)
  | emit h events hevents ih =>
    exact ih.1.append ih.2 (h.emit events hevents).quiet rfl rfl (append_nil _).symm
      (fun e he => ⟨(hevents e he).1, (hevents e he).2.2⟩) fun _ h => absurd h not_mem_nil
  | post h msgs hmsgs howed ih =>
    exact ih.1.append ih.2 (h.post msgs hmsgs howed).quiet rfl (append_nil _).symm rfl (fun _ h => absurd h not_mem_nil) hmsgs
  | giveBack h isDisconnect ih =>
    refine ih.1.append ih.2 (h.giveBack isDisconnect).quiet ?_ (by rw [closeConnChannelReset_eq])
      (by rw [closeConnChannelReset_eq]; exact (append_nil _).symm) (fun e he => ?_) fun _ h => absurd h not_mem_nil
    · rw [closeConnChannelReset_eq]
      rfl
    · split at he
      · rw [mem_singleton.1 he]
        simp [ProxyEvent.opens?, ProxyEvent.ends?]
      · exact absurd he not_mem_nil
  | @take gone owed w₁ channels h out hstay hout hstatus ih =>
    obtain ⟨hr, hgone⟩ := ih
    have hquiet := (h.take out hstay hout hstatus).quiet
    have huids : w₁.uids.Perm (out.map (·.uid) ++ channels.map (·.uid)) := by
      simpa [uids, Function.comp_def] using hout.map Prod.fst
    have hnodup := huids.nodup_iff.1 (hn.sublist hr.quiet.uids_sublist)
    have hkeep : ∀ uid, uid ∉ w₁.uids → uid ∉ channels.map (·.uid) := fun uid hnot hmem =>
      hnot (huids.mem_iff.2 (mem_append_right _ hmem))
    refine ⟨⟨hquiet, hr.events, fun uid huid => ?_⟩, fun uid huid => ?_⟩
    · exact (hr.ended uid huid).imp_right fun hu => ⟨hu.1, hkeep uid hu.2⟩
    · rcases mem_append.1 huid with huid | huid
      · have hmem : uid ∈ w.uids := hr.quiet.uids_sublist.subset (huids.mem_iff.2 (mem_append_left _ huid))
        exact .inr ⟨hmem, fun hstays => (nodup_append.1 hnodup).2.2 uid huid uid hstays rfl⟩
      · exact (hgone uid huid).imp_right fun hu => ⟨hu.1, hkeep uid hu.2⟩
  | reckon h owed' howed ih => exact ih
  | dropConn h hnone ih => exact ⟨⟨(h.dropConn hnone).quiet, ih.1.events, ih.1.ended⟩, ih.2⟩
  | dropWaiting h reqId ih => exact ⟨⟨(h.dropWaiting reqId).quiet, ih.1.events, ih.1.ended⟩, ih.2⟩

end Retires
end ProxyWorld

/-! ## The invariant -/

/-- The answer to the channel's handshake has not come yet. -/
def ProxyChannelInfo.InHandshake (chan : ProxyChannelInfo) : Prop :=
  chan.status = .pyhConnecting ∨ chan.status = .handshakeing

instance (chan : ProxyChannelInfo) : Decidable chan.InHandshake :=
  inferInstanceAs (Decidable (_ ∨ _))

theorem ProxyChannelInfo.Follows.inHandshake (h : a.Follows b) (hb : b.InHandshake) : a.InHandshake := by
  unfold InHandshake at hb ⊢
  cases h.status with
  | inl hstatus => rw [← hstatus]; exact hb
  | inr hstatus => rw [hstatus] at hb; exact absurd hb (by simp)

/-- Channels in the list have not come to their end, those in their handshake have not been
    reported open, and no channel has been reported open twice or after its end. -/
structure ReportsOk (w : ProxyWorld) : Prop where
  nodup : w.uids.Nodup
  uid_lt : ∀ uid ∈ w.uids, uid < w.nextUid
  ended_lt : ∀ uid ∈ w.ended, uid < w.nextUid
  opened_lt : ∀ e ∈ w.events, ∀ uid, e.opens? = some uid → uid < w.nextUid
  live : ∀ uid ∈ w.uids, uid ∉ w.ended
  unopened : ∀ chan ∈ w.channels, chan.InHandshake → ∀ e ∈ w.events, e.opens? ≠ some chan.uid
  once : OpenedOnce w.events

theorem reportsOk_init (littleEndian : Bool) : ReportsOk (.init littleEndian) where
  nodup := nodup_nil
  uid_lt := fun _ h => absurd h not_mem_nil
  ended_lt := fun _ h => absurd h not_mem_nil
  opened_lt := fun _ h => absurd h not_mem_nil
  live := fun _ h => absurd h not_mem_nil
  unopened := fun _ h => absurd h not_mem_nil
  once := Journal.always_nil

namespace ReportsOk
variable {w' : ProxyWorld}

section
variable (h : ReportsOk w)
include h

theorem retires (hr : w.Retires w') : ReportsOk w' := by
  obtain ⟨new, hevents, hnew⟩ := hr.events
  have hsub := hr.quiet.uids_sublist
  have hnext := hr.quiet.nextUid
  -- an event that reports a channel open is an old one
  have hold : ∀ e ∈ w'.events, ∀ uid, e.opens? = some uid → e ∈ w.events := by
    intro e he uid hopen
    rw [hevents] at he
    cases mem_append.1 he with
    | inl he => exact he
    | inr he => rw [hnew e he] at hopen; exact absurd hopen (by simp)
  refine ⟨h.nodup.sublist hsub, ?_, ?_, ?_, ?_, ?_, ?_⟩
  · intro uid huid
    rw [hnext]
    exact h.uid_lt uid (hsub.subset huid)
  · intro uid huid
    rw [hnext]
    cases hr.ended uid huid with
    | inl huid => exact h.ended_lt uid huid
    | inr huid => exact h.uid_lt uid huid.1
  · intro e he uid hopen
    rw [hnext]
    exact h.opened_lt e (hold e he uid hopen) uid hopen
  · intro uid huid hended
    cases hr.ended uid hended with
    | inl hended => exact h.live uid (hsub.subset huid) hended
    | inr hended => exact hended.2 huid
  · intro b hb hshake e he hopen
    obtain ⟨a, ha, hab⟩ := hr.quiet.channels.exists_of_mem hb
    apply h.unopened a ha (hab.inHandshake hshake) e (hold e he _ hopen)
    rw [hopen, hab.uid]
  · rw [OpenedOnce, hevents, Journal.always_append]
    apply And.intro h.once
    apply Journal.Always.of_forall
    intro before e he uid hopen
    rw [hnew e he] at hopen
    exact absurd hopen (by simp)

theorem moves (hm : Moves False w gone owed w') : ReportsOk w' :=
  h.retires (Retires.of_moves hm h.nodup).1

theorem moves_step (hmoves : input.IsMoves) : ReportsOk (w.step input) := by
  obtain ⟨gone, hm⟩ := Moves.step hmoves False.elim False.elim
  exact h.moves hm

/-- The connections, the calls and the counters do not matter, as long as no `uid` is used again. -/
theorem congr (hchannels : w'.channels = w.channels)
    (hevents : w'.events = w.events) (hloop : w'.loop = w.loop) (hnext : w.nextUid ≤ w'.nextUid) :
    ReportsOk w' := by
  have huids : w'.uids = w.uids := by rw [uids, hchannels]; rfl
  have hended : w'.ended = w.ended := by rw [ProxyWorld.ended, hevents, hloop]; rfl
  refine ⟨huids ▸ h.nodup, fun uid huid => ?_, fun uid huid => ?_, fun e he uid hopen => ?_,
    fun uid huid => ?_, ?_, hevents ▸ h.once⟩
  · exact Nat.lt_of_lt_of_le (h.uid_lt uid (huids ▸ huid)) hnext
  · exact Nat.lt_of_lt_of_le (h.ended_lt uid (hended ▸ huid)) hnext
  · exact Nat.lt_of_lt_of_le (h.opened_lt e (hevents ▸ he) uid hopen) hnext
  · rw [hended]
    exact h.live uid (huids ▸ huid)
  · rw [hchannels, hevents]
    exact h.unopened

/-- A channel whose `uid` is new to the reports. -/
theorem cons (chan : ProxyChannelInfo) (hlt : chan.uid < w.nextUid)
    (huid : chan.uid ∉ w.uids) (hended : chan.uid ∉ w.ended)
    (hopened : chan.InHandshake → ∀ e ∈ w.events, e.opens? ≠ some chan.uid) :
    ReportsOk { w with channels := chan :: w.channels } := by
  refine ⟨nodup_cons.2 ⟨huid, h.nodup⟩, ?_, h.ended_lt, h.opened_lt, ?_, ?_, h.once⟩
  · intro uid hmem
    cases hmem with
    | head => exact hlt
    | tail _ hmem => exact h.uid_lt uid hmem
  · intro uid hmem
    cases hmem with
    | head => exact hended
    | tail _ hmem => exact h.live uid hmem
  · intro b hb
    cases hb with
    | head => exact hopened
    | tail _ hb => exact h.unopened b hb

/-- A channel is reported open for the first time. -/
theorem emitOpened (env : OpenedEnv) (hlt : chan.uid < w.nextUid) (hended : chan.uid ∉ w.ended)
    (hopened : ∀ e ∈ w.events, e.opens? ≠ some chan.uid) (hshake : ∀ b ∈ w.channels, b.InHandshake → b.uid ≠ chan.uid) :
    ReportsOk (w.emit (onProxyChannelOpened chan env).2) := by
  cases onProxyChannelOpened_cases chan env with
  | inl hnil => rw [hnil]; exact h.congr rfl (append_nil _) rfl (Nat.le_refl _)
  | inr hone =>
    rw [hone]
    have hsame : (w.emit [.channelOpened chan.uid chan.channelId chan.isServer]).ended = w.ended :=
      hone ▸ w.ended_emitOpened env
    refine ⟨h.nodup, h.uid_lt, fun uid huid => h.ended_lt uid (hsame ▸ huid), ?_, ?_, ?_, ?_⟩
    · intro e he uid hopen
      cases mem_append.1 he with
      | inl he => exact h.opened_lt e he uid hopen
      | inr he =>
        rw [mem_singleton.1 he] at hopen
        rw [← Option.some.inj hopen]
        exact hlt
    · intro uid huid
      rw [hsame]
      exact h.live uid huid
    · intro b hb hb' e he hopen
      cases mem_append.1 he with
      | inl he => exact h.unopened b hb hb' e he hopen
      | inr he =>
        rw [mem_singleton.1 he] at hopen
        exact hshake b hb hb' (Option.some.inj hopen).symm
    · rw [OpenedOnce, ProxyWorld.emit, Journal.always_append_singleton]
      apply And.intro h.once
      intro uid hopen e' he'
      rw [← Option.some.inj hopen]
      apply And.intro (hopened e' he')
      intro hend
      exact hended (mem_append_left _ (mem_filterMap.2 ⟨e', he', hend⟩))

/-! ## Steps that report a channel open -/

/-- The channel that an answer to a handshake finds. -/
theorem ack (env : MsgEnv)
    (hok : ∀ u ∈ msg.unpacked, ∀ chan ∈ w.channels.find? fun item => item.myId = msg.msgHead.myId ∧ item.identity = u.1, chan.InHandshake) :
    ReportsOk (w.transProxyProcessHandshakeAckMsg msg env) := by
  unfold ProxyWorld.transProxyProcessHandshakeAckMsg
  split
  · exact h
  · next identity info hunpacked =>
    split
    · exact h
    · next chan channels hack =>
      have hupdated : ReportsOk { w with channels := channels } :=
        h.moves (Moves.start.update hack (follows_ack _ info) False.elim)
      obtain ⟨before, a, after, hm, hr⟩ := updateFirst_eq_some hack
      obtain ⟨hchan, hchannels⟩ := Prod.mk.inj hr
      have hshake : a.InHandshake := hok (identity, info) hunpacked a hm.find?_eq
      have huid : chan.uid = a.uid := by rw [hchan]
      have hmem : a.uid ∈ w.uids := mem_map_of_mem hm.mem
      apply hupdated.emitOpened
      · exact huid ▸ h.uid_lt a.uid hmem
      · exact huid ▸ h.live a.uid hmem
      · exact huid ▸ h.unopened a hm.mem hshake
      · -- the channel itself is complete now, and the others have other `uid`s
        intro b hb hb' heq
        have hnodup := hupdated.nodup
        simp only [uids, hchannels, map_append, map_cons] at hnodup
        rw [nodup_middle, nodup_cons, ← map_append] at hnodup
        simp only [hchannels, mem_append, mem_cons] at hb
        rcases hb with hb | rfl | hb
        · exact hnodup.1 (mem_map.2 ⟨b, mem_append_left _ hb, heq.trans huid⟩)
        · exact absurd hb' (by simp [ProxyChannelInfo.InHandshake])
        · exact hnodup.1 (mem_map.2 ⟨b, mem_append_right _ hb, heq.trans huid⟩)

/-- A `uid` that has not been used yet. -/
theorem fresh : w.nextUid ∉ w.uids ∧ w.nextUid ∉ w.ended ∧
    ∀ e ∈ w.events, e.opens? ≠ some w.nextUid := by
  refine ⟨fun hmem => ?_, fun hmem => ?_, fun e he hopen => ?_⟩
  · exact Nat.lt_irrefl _ (h.uid_lt _ hmem)
  · exact Nat.lt_irrefl _ (h.ended_lt _ hmem)
  · exact Nat.lt_irrefl _ (h.opened_lt e he _ hopen)

theorem acceptHandshake (msg : ProxyMessage) (env : MsgEnv) (identity : String)
    (appInfo : AppInfo) (info : ConnectionInfo) :
    ReportsOk (w.acceptHandshake msg env identity appInfo info) := by
  obtain ⟨huid, hended, hopened⟩ := h.fresh
  -- the report comes first
  have hreported : ∀ conns myId, ReportsOk
      ({ w with conns := conns, myId := myId, nextUid := w.nextUid + 1 }.emit
        (onProxyChannelOpened (w.handshakeChannel msg identity appInfo info) env.opened).2) := by
    intro conns myId
    have hnext : ReportsOk { w with conns := conns, myId := myId, nextUid := w.nextUid + 1 } :=
      h.congr rfl rfl rfl (Nat.le_succ _)
    apply hnext.emitOpened _ (Nat.lt_succ_self _) hended hopened
    intro b hb _ heq
    exact huid (mem_map.2 ⟨b, hb, heq⟩)
  have hadded : ∀ conns myId, ReportsOk
      { { w with conns := conns, myId := myId, nextUid := w.nextUid + 1 }.emit
          (onProxyChannelOpened (w.handshakeChannel msg identity appInfo info) env.opened).2 with
        channels := w.handshakeChannel msg identity appInfo info :: w.channels } := by
    intro conns myId
    apply (hreported conns myId).cons _ (Nat.lt_succ_self _) huid
    · rw [ended_emitOpened]
      exact hended
    · intro hshake
      exact absurd hshake (by simp [ProxyChannelInfo.InHandshake, handshakeChannel, serverChannel])
  unfold ProxyWorld.acceptHandshake
  simp only [← handshakeChannel.eq_1]
  split
  · split
    · exact (hadded _ _).moves (Moves.start.emit _ ends_sendControl)
    · -- the answer cannot be sent: the channel is reported closed and taken out
      have hfirst : (w.handshakeChannel msg identity appInfo info :: w.channels).find?
          (hasChannelId (w.handshakeChannel msg identity appInfo info).channelId) = some _ :=
        find?_cons_of_pos (by simp [hasChannelId])
      exact (hadded _ _).moves ((Moves.start.takeEraseP hfirst).emit _ (ends_closed mem_cons_self))
  · exact (hreported _ _).moves ((Moves.start.reckon [msg.connId] False.elim).giveBack true)

/-! ## Opening and binding -/

/-- The channels that wait for a connection get it: they go on with their handshake. -/
theorem chanProcessByReqId (reqId connId : UInt32) :
    ReportsOk (w.transProxyChanProcessByReqId reqId connId) := by
  have hbind : ∀ a : ProxyChannelInfo, (a.bind reqId connId).uid = a.uid ∧
      ((a.bind reqId connId).InHandshake → a.InHandshake) := by
    intro a
    unfold ProxyChannelInfo.bind
    split
    · next hwaits =>
      simp only [waitsFor, decide_eq_true_eq] at hwaits
      exact ⟨rfl, fun _ => .inl hwaits.2⟩
    · exact ⟨rfl, id⟩
  have huids : (w.transProxyChanProcessByReqId reqId connId).uids = w.uids := by
    simp only [uids, transProxyChanProcessByReqId, map_map]
    exact map_congr_left fun a _ => (hbind a).1
  have hended : (w.transProxyChanProcessByReqId reqId connId).ended = w.ended := by
    have hnil : ((w.channels.filter (·.waitsFor reqId)).map fun item =>
        LoopMsg.handshake item.channelId).filterMap (·.ends?) = [] := by
      rw [filterMap_map, filterMap_eq_nil_iff]
      intro a _
      rfl
    simp only [ProxyWorld.ended, transProxyChanProcessByReqId, filterMap_append]
    rw [hnil, append_nil]
  refine ⟨huids ▸ h.nodup, fun uid huid => h.uid_lt uid (huids ▸ huid),
    fun uid huid => h.ended_lt uid (hended ▸ huid), h.opened_lt, fun uid huid => ?_, ?_, h.once⟩
  · rw [hended]
    exact h.live uid (huids ▸ huid)
  · intro b hb hshake
    obtain ⟨a, ha, rfl⟩ := mem_map.1 hb
    rw [(hbind a).1]
    exact h.unopened a ha ((hbind a).2 hshake)

/-- A channel that is being opened. -/
theorem addChanItem (chan : ProxyChannelInfo) (huid : chan.uid = w.nextUid) :
    ReportsOk (w.transProxyAddChanItem chan) := by
  obtain ⟨hnew, hended, hopened⟩ := h.fresh
  have hnext : ReportsOk { w with nextUid := w.nextUid + 1 } := h.congr rfl rfl rfl (Nat.le_succ _)
  rw [← huid] at hnew hended hopened
  exact hnext.cons chan (huid ▸ Nat.lt_succ_self _) hnew hended fun _ => hopened

theorem connExistProc (conn : ProxyConnInfo) : ReportsOk (w.transProxyConnExistProc conn call identity) := by
  unfold ProxyWorld.transProxyConnExistProc
  split
  · exact h.addChanItem _ rfl
  · have hadded := h.addChanItem
      { newChannel call identity w.nextUid with
        connId := conn.connId, status := .handshakeing } rfl
    have href : ReportsOk { transProxyAddChanItem _ w with conns := transAddConnRefByConnId conn.connId w.conns } :=
      hadded.congr rfl rfl rfl (Nat.le_refl _)
    exact href.moves (Moves.start.post [.handshake call.chanNewId] (by simp [LoopMsg.ends?]) (.refl _))

theorem openNewConnChannel : ReportsOk (w.transProxyOpenNewConnChannel call identity connected) := by
  unfold ProxyWorld.transProxyOpenNewConnChannel
  simp only
  have hreq : ReportsOk { w with reqId := connGetNewRequestId w.reqId } :=
    h.congr rfl rfl rfl (Nat.le_refl _)
  have hadded := hreq.addChanItem
    { newChannel call identity w.nextUid with
      reqId := connGetNewRequestId w.reqId, status := .pyhConnecting
      type := call.option.type } rfl
  split
  · split
    · exact hadded.chanProcessByReqId _ _
    · exact hadded
  · have hitem : ∀ item, ReportsOk { transProxyAddChanItem
        { newChannel call identity w.nextUid with
          reqId := connGetNewRequestId w.reqId, status := .pyhConnecting
          type := call.option.type }
        { w with reqId := connGetNewRequestId w.reqId } with conns := item :: w.conns } :=
      fun _ => hadded.congr rfl rfl rfl (Nat.le_refl _)
    split
    · exact hitem _
    · exact (hitem _).moves ((Moves.start.takeEraseP (find?_cons_of_pos (by simp [hasChannelId, newChannel]))).dropWaiting _)

theorem openFinish (n : ℕ) (identity : Option String) : ReportsOk (w.openFinish n identity connected) := by
  unfold ProxyWorld.openFinish
  split
  · exact h
  · exact h.congr rfl rfl rfl (Nat.le_refl _)
  · next call identity _ =>
    have hcalls : ReportsOk { w with calls := w.calls.eraseIdx n } :=
      h.congr rfl rfl rfl (Nat.le_refl _)
    split
    · next conn _ => exact hcalls.connExistProc conn
    · exact hcalls.openNewConnChannel

end
end ReportsOk

/-! ## Runs -/

/-- An answer to a handshake that finds a channel finds it in its handshake. -/
def AckExpected (w : ProxyWorld) : ProxyInput → Prop
  | .received msg _ => msg.msgHead.type = .handshakeAck →
    ∀ u ∈ msg.unpacked,
      ∀ chan ∈ w.channels.find? fun item => item.myId = msg.msgHead.myId ∧ item.identity = u.1,
        chan.InHandshake
  | _ => True

instance (w : ProxyWorld) (input : ProxyInput) : Decidable (AckExpected w input) := by
  unfold AckExpected
  induction input using ProxyInput.casesOn <;> infer_instance

theorem ReportsOk.received (h : ReportsOk w) {env : MsgEnv} (hok : AckExpected w (.received msg env)) :
    ReportsOk (w.transProxyOnDataReceived msg env) := by
  by_cases hshake : msg.msgHead.type = .handshake
  · exact received_handshake hshake h (h.acceptHandshake msg env)
  · by_cases hack : msg.msgHead.type = .handshakeAck
    · unfold ProxyWorld.transProxyOnDataReceived
      split
      · simp only [transProxyOnMessageReceived, hack]
        exact h.ack env (hok hack)
      · exact h
    · have hstep : ReportsOk (w.step (.received msg env)) := h.moves_step ⟨hshake, hack⟩
      exact hstep

theorem ReportsOk.step (h : ReportsOk w) (hok : AckExpected w input) : ReportsOk (w.step input) := by
  cases input with
  | openLookup appInfo option => exact h.congr rfl rfl rfl (Nat.le_refl _)
  | openFinish n identity connected => exact h.openFinish n identity
  | connectSuccessed requestId connectionId =>
    have hset : ReportsOk { w with
        conns := transSetConnStateByReqId requestId connectionId .pyhConnected w.conns } :=
      h.congr rfl rfl rfl (Nat.le_refl _)
    exact hset.chanProcessByReqId requestId connectionId
  | received msg env => exact h.received hok
  | connectFailed | disconnected | send | close | death | tick | loop =>
    exact h.moves_step trivial

/-- In every run in which each answer to a handshake that finds a channel finds it in its
    handshake, every channel is reported open at most once, and never after it has been
    reported failed or closed. -/
theorem opened_at_most_once (littleEndian : Bool) (inputs : List ProxyInput)
    (h : Run.AllSteps ProxyWorld.step AckExpected (.init littleEndian) inputs) :
    OpenedOnce (inputs.foldl ProxyWorld.step (.init littleEndian)).events :=
  (h.foldl_inv (fun _ _ hw hok => ReportsOk.step hw hok) (reportsOk_init littleEndian)).once

/-- The answer to the handshake of a channel with the id `myId`. -/
def handshakeAnswer (connId : UInt32) (myId peerId : Int16) : ProxyInput :=
  .received ⟨connId, ⟨.handshakeAck, 0, myId, peerId⟩, [], some ("identity", sampleApp)⟩ .good

/-- A channel is opened, its connection is made and its handshake is sent. -/
def shakingHands : List ProxyInput :=
  openCall sampleApp sampleOption ++ [.connectSuccessed 3 0x20001, .loop ⟨some 0, true⟩]

/-- The answer comes twice, and the channel is reported open twice. -/
theorem opened_twice :
    ((shakingHands ++ [handshakeAnswer 0x20001 512 256, handshakeAnswer 0x20001 512 256]).foldl
        ProxyWorld.step (.init true)).events.filterMap (·.opens?) = [0, 0] := by
  decide +kernel

/-- The answer comes once. -/
theorem opened_once :
    OpenedOnce ((shakingHands ++ [handshakeAnswer 0x20001 512 256]).foldl
      ProxyWorld.step (.init true)).events := by
  apply opened_at_most_once
  decide +kernel

end SoftBus.Native
