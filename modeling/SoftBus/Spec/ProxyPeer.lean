import SoftBus.Spec.ProxyIds

/-!
# Channels and the peers they were opened for

A channel is opened for a connection option: a type, an address and, for TCP, a port and a
protocol.  It is attached to a connection item while it waits for the item's request, and
when it has the item's connection id.  `TransGetConn` compares the whole option, but
`TransAddConnItem` compares only the strings at the start of the unions, so a channel can
be attached to an item that differs in its type, port or protocol.  Under the condition
that no such item is in the list, and that request and connection ids are not used again
while something refers to them, a channel is only ever attached to items of its peer.
-/

namespace SoftBus.Native
open List ProxyWorld
variable {option : ConnectOption} {conns : List ProxyConnInfo} {item : ProxyConnInfo} {connId reqId : UInt32}
  {call : OpenCall} {w : ProxyWorld} {identity : String}

/-! ## Options and items -/

/-- The item's connection leads where the option asks for. -/
structure ConnectOption.SamePeer (option item : ConnectOption) : Prop where
  type : item.type = option.type
  addr : item.addr = option.addr
  socket : option.type = .tcp → item.port = option.port ∧ item.protocol = option.protocol

instance (option item : ConnectOption) : Decidable (option.SamePeer item) :=
  decidable_of_iff (item.type = option.type ∧ item.addr = option.addr ∧
      (option.type = .tcp → item.port = option.port ∧ item.protocol = option.protocol))
    ⟨fun h => ⟨h.1, h.2.1, h.2.2⟩, fun h => ⟨h.type, h.addr, h.socket⟩⟩

theorem ConnectOption.SamePeer.refl (option : ConnectOption) : option.SamePeer option :=
  ⟨rfl, rfl, fun _ => ⟨rfl, rfl⟩⟩

/-- `TransGetConn` compares all that matters. -/
theorem ConnectOption.SamePeer.of_sameConn {item : ConnectOption} (h : option.sameConn item = true) :
    option.SamePeer item := by
  unfold ConnectOption.sameConn at h
  split at h
  · exact absurd h (by simp)
  · next htype =>
    have htype : item.type = option.type := by simpa using htype
    cases hoption : option.type with
    | tcp =>
      simp only [hoption, decide_eq_true_eq] at h
      exact ⟨htype, h.2.1.symm, fun _ => ⟨h.2.2.symm, h.1.symm⟩⟩
    | br | ble =>
      simp only [hoption, decide_eq_true_eq] at h
      exact ⟨htype, h.symm, fun htcp => absurd (hoption.symm.trans htcp) (by simp)⟩
    | p2p | invalid => simp [hoption] at h

/-- What the two searches for an option find. -/
theorem samePeer_of_transGetConn (h : transGetConn option conns = some item) :
    item ∈ conns ∧ option.SamePeer item.connInfo := by
  exact ⟨mem_of_find?_eq_some h, .of_sameConn (by simpa using find?_some h)⟩

theorem sameAddr_of_transFindSameAddr (h : transFindSameAddr option conns = some item) :
    item ∈ conns ∧ item.connInfo.addr = option.addr := by
  exact ⟨mem_of_find?_eq_some h, by simpa using find?_some h⟩

/-- An item is connecting and has no connection id, or it is connected and has one. -/
inductive ProxyConnInfo.Ok (item : ProxyConnInfo) : Prop where
  | connecting (hstate : item.state = .pyhConnecting) (hconnId : item.connId = 0)
  | connected (hstate : item.state = .pyhConnected) (hreq : item.requestId = 0)
      (hconnId : item.connId ≠ 0)

theorem ProxyConnInfo.SameItem.ok {a b : ProxyConnInfo} (h : a.SameItem b) (ha : a.Ok) : b.Ok := by
  cases ha with
  | connecting hstate hconnId =>
    exact .connecting (h.state.trans hstate) (h.connId.trans hconnId)
  | connected hstate hreq hconnId =>
    exact .connected (h.state.trans hstate) (h.requestId.trans hreq) (h.connId ▸ hconnId)

/-- What a channel is attached by. -/
def ProxyConnInfo.ids (item : ProxyConnInfo) : ProxyChannelStatus × UInt32 × UInt32 :=
  (item.state, item.requestId, item.connId)

/-- The channel waits for the item's request, or has its connection. -/
inductive ProxyChannelInfo.AttachedTo (chan : ProxyChannelInfo) (item : ProxyConnInfo) : Prop where
  | waiting (hstatus : chan.status = .pyhConnecting) (hstate : item.state = .pyhConnecting)
      (hreq : chan.reqId = item.requestId)
  | bound (hstatus : chan.status ≠ .pyhConnecting) (hstate : item.state = .pyhConnected)
      (hconn : chan.connId = item.connId)

/-! ## The invariant -/

/-- Channels are attached to items of their peers only. -/
structure PeerOk (w : ProxyWorld) : Prop where
  item : ∀ item ∈ w.conns, item.Ok
  same : ∀ a ∈ w.conns, ∀ b ∈ w.conns, a.state = .pyhConnected → b.state = .pyhConnected →
    a.connId = b.connId → a.connInfo = b.connInfo
  chan : ∀ chan ∈ w.channels, chan.status = .pyhConnecting → chan.connId = 0
  call : ∀ call ∈ w.calls, ∀ conn ∈ call.conn, conn.Ok ∧ call.option.SamePeer conn.connInfo
  attached : ∀ chan ∈ w.channels, ∀ option ∈ chan.option, ∀ item ∈ w.conns,
    chan.AttachedTo item → option.SamePeer item.connInfo

theorem peerOk_init (littleEndian : Bool) : PeerOk (.init littleEndian) where
  item := fun _ h => absurd h not_mem_nil
  same := fun _ h => absurd h not_mem_nil
  chan := fun _ h => absurd h not_mem_nil
  call := fun _ h => absurd h not_mem_nil
  attached := fun _ h => absurd h not_mem_nil

namespace PeerOk
variable {w' : ProxyWorld}

section
variable (h : PeerOk w)
include h

/-- Channels, items and calls that stay. -/
theorem evolve (hchannels : w.channels.Evolves ProxyChannelInfo.Follows w'.channels)
    (hconns : w.conns.Evolves ProxyConnInfo.SameItem w'.conns)
    (hcalls : ∀ call ∈ w'.calls, call ∈ w.calls) : PeerOk w' where
  item := by
    intro item hitem
    obtain ⟨a, ha, hsame⟩ := hconns.exists_of_mem hitem
    exact hsame.ok (h.item a ha)
  same := by
    intro a ha b hb hstate hstate' hconnId
    obtain ⟨a', ha', hsame⟩ := hconns.exists_of_mem ha
    obtain ⟨b', hb', hsame'⟩ := hconns.exists_of_mem hb
    rw [hsame.connInfo, hsame'.connInfo]
    apply h.same a' ha' b' hb'
    · rw [← hsame.state, hstate]
    · rw [← hsame'.state, hstate']
    · rw [← hsame.connId, ← hsame'.connId, hconnId]
  chan := by
    intro b hb hstatus
    obtain ⟨a, ha, hab⟩ := hchannels.exists_of_mem hb
    rw [hab.connId]
    apply h.chan a ha
    cases hab.status with
    | inl heq => rw [← heq, hstatus]
    | inr heq => rw [heq] at hstatus; exact absurd hstatus (by simp)
  call := fun call hcall => h.call call (hcalls call hcall)
  attached := by
    intro b hb option hoption item hitem hatt
    obtain ⟨a, ha, hab⟩ := hchannels.exists_of_mem hb
    obtain ⟨item', hitem', hsame⟩ := hconns.exists_of_mem hitem
    rw [hsame.connInfo]
    rw [hab.option] at hoption
    apply h.attached a ha option hoption item' hitem'
    cases hatt with
    | waiting hstatus hstate hreq =>
      refine .waiting ?_ (hsame.state ▸ hstate) (hab.reqId ▸ hsame.requestId ▸ hreq)
      cases hab.status with
      | inl heq => rw [← heq, hstatus]
      | inr heq => rw [heq] at hstatus; exact absurd hstatus (by simp)
    | bound hstatus hstate hconn =>
      have hstate' : item'.state = .pyhConnected := hsame.state ▸ hstate
      have hconn' : a.connId = item'.connId := hab.connId ▸ hsame.connId ▸ hconn
      refine .bound (fun hwait => ?_) hstate' hconn'
      -- a channel that was not bound has no connection id, a connected item has one
      cases h.item item' hitem' with
      | connecting hconnecting _ => rw [hstate'] at hconnecting; exact absurd hconnecting (by simp)
      | connected _ _ hconnId => exact hconnId (hconn'.symm.trans (h.chan a ha hwait))

theorem quiet (hq : w.Quiet w') : PeerOk w' :=
  h.evolve hq.channels hq.conns fun _ hcall => hq.calls ▸ hcall

/-- The order of the items does not matter. -/
theorem conns_subset (hconns : ∀ a ∈ conns, a ∈ w.conns) : PeerOk { w with conns := conns } where
  __ := h
  item := fun a ha => h.item a (hconns a ha)
  same := fun a ha b hb => h.same a (hconns a ha) b (hconns b hb)
  attached := fun chan hchan option hoption a ha =>
    h.attached chan hchan option hoption a (hconns a ha)

/-- One more channel. -/
theorem addChannel {chan : ProxyChannelInfo}
    (hchan : chan.status = .pyhConnecting → chan.connId = 0)
    (hatt : ∀ option ∈ chan.option, ∀ item ∈ w.conns, chan.AttachedTo item →
      option.SamePeer item.connInfo)
    (hchannels : w'.channels = chan :: w.channels) (hconns : w'.conns = w.conns)
    (hcalls : w'.calls = w.calls) : PeerOk w' where
  item := hconns ▸ h.item
  same := hconns ▸ h.same
  chan := by
    intro b hb
    rw [hchannels] at hb
    cases hb with
    | head => exact hchan
    | tail _ hb => exact h.chan b hb
  call := hcalls ▸ h.call
  attached := by
    intro b hb
    rw [hchannels] at hb
    rw [hconns]
    cases hb with
    | head => exact hatt
    | tail _ hb => exact h.attached b hb

/-- One more item to which no channel of another peer is attached. -/
theorem addItem (item : ProxyConnInfo) (hitem : item.Ok)
    (hsame : item.state = .pyhConnected → ∀ a ∈ w.conns, a.connId ≠ item.connId)
    (hatt : ∀ chan ∈ w.channels, ∀ option ∈ chan.option, chan.AttachedTo item →
      option.SamePeer item.connInfo) :
    PeerOk { w with conns := item :: w.conns } where
  __ := h
  item := by
    intro a ha
    cases ha with
    | head => exact hitem
    | tail _ ha => exact h.item a ha
  same := by
    intro a ha b hb hstate hstate' hconnId
    cases ha with
    | head =>
      cases hb with
      | head => rfl
      | tail _ hb => exact absurd hconnId.symm (hsame hstate b hb)
    | tail _ ha =>
      cases hb with
      | head => exact absurd hconnId (hsame hstate' a ha)
      | tail _ hb => exact h.same a ha b hb hstate hstate' hconnId
  attached := by
    intro chan hchan option hoption a ha
    cases ha with
    | head => exact hatt chan hchan option hoption
    | tail _ ha => exact h.attached chan hchan option hoption a ha

end

/-! ## Binding -/

theorem evolves_foldl_addConnRef {α : Type*} (connId : UInt32) (l : List α)
    (conns : List ProxyConnInfo) : conns.Evolves ProxyConnInfo.SameItem
      (l.foldl (fun conns _ => transAddConnRefByConnId connId conns) conns) := by
  induction l generalizing conns with
  | nil => exact .refl .refl
  | cons a l ih => exact (evolves_addConnRef connId conns).trans (fun _ _ _ => .trans) (ih _)

section
variable (h : PeerOk w)
include h

/-- The channels that wait for a request are bound to a connection of their peer. -/
theorem chanProcessByReqId (hpeer : ∀ chan ∈ w.channels, chan.waitsFor reqId → ∀ option ∈ chan.option, ∀ item ∈ w.conns, item.state = .pyhConnected → item.connId = connId → option.SamePeer item.connInfo) :
    PeerOk (w.transProxyChanProcessByReqId reqId connId) := by
  have hbound : PeerOk { w with channels := w.channels.map (·.bind reqId connId) } := by
    refine ⟨h.item, h.same, ?_, h.call, ?_⟩
    · intro b hb hstatus
      obtain ⟨a, ha, rfl⟩ := mem_map.1 hb
      by_cases hwaits : a.waitsFor reqId = true
      · simp [ProxyChannelInfo.bind, hwaits] at hstatus
      · simp only [ProxyChannelInfo.bind, hwaits] at hstatus ⊢
        exact h.chan a ha hstatus
    · intro b hb option hoption item hitem hatt
      obtain ⟨a, ha, rfl⟩ := mem_map.1 hb
      by_cases hwaits : a.waitsFor reqId = true
      · simp only [ProxyChannelInfo.bind, hwaits, if_true] at hoption hatt
        cases hatt with
        | waiting hstatus => exact absurd hstatus (by simp)
        | bound _ hstate hconn => exact hpeer a ha hwaits option hoption item hitem hstate hconn.symm
      · simp only [ProxyChannelInfo.bind, hwaits] at hoption hatt
        exact h.attached a ha option hoption item hitem hatt
  exact hbound.evolve (.refl .refl) (evolves_foldl_addConnRef connId _ w.conns) fun _ hcall => hcall

section
variable (hpos : connId ≠ 0) (hitems : ∀ item ∈ w.conns, item.connId ≠ connId)
  (hchannels : ∀ chan ∈ w.channels, chan.connId ≠ connId)
include hpos hitems hchannels

/-- The item of a request gets a connection id that is new. -/
theorem setConnState :
    PeerOk { w with conns := transSetConnStateByReqId reqId connId .pyhConnected w.conns } := by
  unfold transSetConnStateByReqId
  cases hfind : w.conns.find? (·.waitsFor reqId) with
  | none => rw [modifyFirst_of_none hfind]; exact h
  | some item =>
    obtain ⟨before, after, hm⟩ := exists_firstMatch hfind
    rw [hm.modifyFirst_eq]
    -- the other items are in the list, too
    have hothers : ∀ a ∈ before ++ after, a ∈ w.conns := by
      intro a ha
      rw [← hm.eraseP_eq] at ha
      exact mem_of_mem_eraseP ha
    have hcons := (h.conns_subset hothers).addItem
      { item with state := .pyhConnected, connId := connId, requestId := 0 }
      (.connected rfl rfl hpos) (fun _ a ha => hitems a (hothers a ha)) (by
        intro chan hchan option _ hatt
        cases hatt with
        | waiting _ hstate => exact absurd hstate (by simp)
        | bound _ _ hconn => exact absurd hconn (hchannels chan hchan))
    apply hcons.conns_subset
    intro a ha
    exact perm_middle.mem_iff.1 ha

/-- The result of a request, on a connection whose id is new. -/
theorem connectSuccessed : PeerOk (w.transOnConnectSuccessed reqId connId) := by
  apply (h.setConnState hpos hitems hchannels).chanProcessByReqId
  intro chan hchan hwaits option hoption item hitem _ hconnId
  simp only [transSetConnStateByReqId] at hitem
  cases hfind : w.conns.find? (·.waitsFor reqId) with
  | none =>
    rw [modifyFirst_of_none hfind] at hitem
    exact absurd hconnId (hitems item hitem)
  | some a =>
    obtain ⟨_, _, hm⟩ := exists_firstMatch hfind
    rw [hm.modifyFirst_eq, mem_append, mem_cons] at hitem
    rcases hitem with hitem | rfl | hitem
    · have hmem : item ∈ w.conns := hm.eq ▸ mem_append_left _ hitem
      exact absurd hconnId (hitems item hmem)
    · -- the item for which the channel has waited
      apply h.attached chan hchan option hoption a hm.mem
      have hwaits' := hm.hit
      simp only [ProxyConnInfo.waitsFor, ProxyChannelInfo.waitsFor, decide_eq_true_eq] at hwaits hwaits'
      exact .waiting hwaits.2 hwaits'.2 (hwaits.1.trans hwaits'.1.symm)
    · have hmem : item ∈ w.conns :=
        hm.eq ▸ mem_append_right _ (mem_cons_of_mem _ hitem)
      exact absurd hconnId (hitems item hmem)

end

/-! ## Handshakes -/

theorem createConn (hpos : connId ≠ 0) (info : ConnectionInfo)
    (hnew : (∃ item ∈ w.conns, item.connId = connId) ∨ ∀ chan ∈ w.channels, chan.connId ≠ connId) :
    PeerOk { w with conns := transCreateConnByConnId w.littleEndian connId info w.conns } := by
  unfold transCreateConnByConnId
  split
  · exact h.evolve (.refl .refl) (evolves_addConnRef connId w.conns) fun _ hcall => hcall
  · next hnone =>
    have hitems : ∀ item ∈ w.conns, item.connId ≠ connId := by
      intro item hitem
      simpa [ProxyConnInfo.hasConnId] using find?_eq_none_cases hnone item hitem
    apply h.addItem _ (.connected rfl rfl hpos) fun _ => hitems
    intro chan hchan option _ hatt
    cases hatt with
    | waiting _ hstate => exact absurd hstate (by simp)
    | bound _ _ hconn =>
      cases hnew with
      | inl hold =>
        obtain ⟨item, hitem, hconnId⟩ := hold
        exact absurd hconnId (hitems item hitem)
      | inr hnew => exact absurd hconn (hnew chan hchan)

theorem acceptHandshake {msg : ProxyMessage} (hpos : msg.connId ≠ 0)
    (hnew : (∃ item ∈ w.conns, item.connId = msg.connId) ∨
      ∀ chan ∈ w.channels, chan.connId ≠ msg.connId)
    (env : MsgEnv) (identity : String) (appInfo : AppInfo) (info : ConnectionInfo) :
    PeerOk (w.acceptHandshake msg env identity appInfo info) := by
  have hcreated := h.createConn hpos info hnew
  -- the channel of the peer was not opened for an option
  have hadded : PeerOk { w with
      conns := transCreateConnByConnId w.littleEndian msg.connId info w.conns
      channels := w.handshakeChannel msg identity appInfo info :: w.channels } := by
    refine hcreated.addChannel (fun hstatus => ?_) (fun option hoption => ?_) rfl rfl rfl
    · exact absurd hstatus (by simp [handshakeChannel, serverChannel])
    · exact absurd hoption (by simp [handshakeChannel, serverChannel])
  unfold ProxyWorld.acceptHandshake
  simp only [← handshakeChannel.eq_1]
  split
  · split
    · exact hadded.evolve (.refl .refl) (.refl .refl) fun _ hcall => hcall
    · exact hadded.evolve (.of_sublist .refl eraseP_sublist) (.refl .refl) fun _ hcall => hcall
  · have hclose := quiet_closeConnChannelReset msg.connId true
    refine PeerOk.quiet ?_ (hclose _)
    exact hcreated.evolve (.refl .refl) (.refl .refl) fun _ hcall => hcall

/-! ## Opening -/

theorem openLookup (appInfo : AppInfo) : PeerOk (w.openLookup appInfo option) := by
  refine { h with call := ?_ }
  intro call hcall conn hconn
  cases mem_append.1 hcall with
  | inl hcall => exact h.call call hcall conn hconn
  | inr hcall =>
    rw [mem_singleton.1 hcall] at hconn ⊢
    obtain ⟨hmem, hpeer⟩ := samePeer_of_transGetConn hconn
    exact ⟨h.item conn hmem, hpeer⟩

/-- The call acts on its copy of an item. -/
theorem connExistProc {conn : ProxyConnInfo} (hconn : conn.Ok) (hpeer : call.option.SamePeer conn.connInfo)
    (hcurrent : ∀ item ∈ w.conns, item.ids = conn.ids → item.connInfo = conn.connInfo) :
    PeerOk (w.transProxyConnExistProc conn call identity) := by
  unfold transProxyConnExistProc
  split
  · next hstate =>
    refine h.addChannel (fun _ => rfl) (fun option hoption item hitem hatt => ?_) rfl rfl rfl
    obtain rfl : call.option = option := Option.some.inj hoption
    cases hatt with
    | waiting _ hstate' hreq =>
      have hids : item.ids = conn.ids := by
        cases h.item item hitem with
        | connected hbad => rw [hstate'] at hbad; exact absurd hbad (by simp)
        | connecting _ hzero =>
          cases hconn with
          | connected hbad => rw [hstate] at hbad; exact absurd hbad (by simp)
          | connecting _ hzero' =>
            rw [ProxyConnInfo.ids, ProxyConnInfo.ids, hstate, hstate', hzero, hzero', ← hreq]
      rw [hcurrent item hitem hids]
      exact hpeer
    | bound hstatus => exact absurd rfl hstatus
  · next hstate =>
    cases hconn with
    | connecting hbad => exact absurd hbad hstate
    | connected hstate' hreq hconnId =>
      have hadded : PeerOk (w.transProxyAddChanItem
          { newChannel call identity w.nextUid with
            connId := conn.connId, status := .handshakeing }) := by
        refine h.addChannel (fun hbad => absurd hbad (by simp))
          (fun option hoption item hitem hatt => ?_) rfl rfl rfl
        obtain rfl : call.option = option := Option.some.inj hoption
        cases hatt with
        | waiting hbad => exact absurd hbad (by simp)
        | bound _ hitemState hitemConn =>
          have hids : item.ids = conn.ids := by
            cases h.item item hitem with
            | connecting hbad => rw [hitemState] at hbad; exact absurd hbad (by simp)
            | connected _ hreq' _ =>
              rw [ProxyConnInfo.ids, ProxyConnInfo.ids, hstate', hitemState, hreq, hreq', ← hitemConn]
          rw [hcurrent item hitem hids]
          exact hpeer
      exact hadded.evolve (.refl .refl) (evolves_addConnRef _ _) fun _ hcall => hcall

/-- The call found no item and makes one, unless there is one with its address. -/
theorem openNewConnChannel (haddr : ∀ item ∈ w.conns, item.connInfo.addr = call.option.addr → call.option.SamePeer item.connInfo)
    (hchannels : ∀ chan ∈ w.channels, ¬ chan.waitsFor (connGetNewRequestId w.reqId))
    (hitems : ∀ item ∈ w.conns, ¬ item.waitsFor (connGetNewRequestId w.reqId)) (connected : Bool) :
    PeerOk (w.transProxyOpenNewConnChannel call identity connected) := by
  unfold transProxyOpenNewConnChannel
  simp only
  generalize hreq : connGetNewRequestId w.reqId = reqId at hchannels hitems ⊢
  generalize hnew : ({ newChannel call identity w.nextUid with
    reqId := reqId, status := .pyhConnecting, type := call.option.type } : ProxyChannelInfo) = chan
  have hstatus : chan.status = .pyhConnecting := by rw [← hnew]
  have hconnId : chan.connId = 0 := by rw [← hnew]; rfl
  have hreqId : chan.reqId = reqId := by rw [← hnew]
  have hoption : chan.option = some call.option := by rw [← hnew]; rfl
  -- nobody else waits for the request
  have honly : ∀ b ∈ chan :: w.channels, b.waitsFor reqId → b = chan := by
    intro b hb hwaits
    cases hb with
    | head => rfl
    | tail _ hb => exact absurd hwaits (hchannels b hb)
  have hadded : PeerOk (transProxyAddChanItem chan { w with reqId := reqId }) := by
    refine h.addChannel (fun _ => hconnId) (fun option _ item hitem hatt => ?_) rfl rfl rfl
    cases hatt with
    | waiting _ hstate hreq' =>
      apply absurd _ (hitems item hitem)
      simp [ProxyConnInfo.waitsFor, hstate, ← hreq', hreqId]
    | bound hbad => exact absurd hstatus hbad
  split
  · next item hfind =>
    obtain ⟨hitem, hsame⟩ := sameAddr_of_transFindSameAddr hfind
    have hpeer := haddr item hitem hsame
    split
    · next hstate =>
      apply hadded.chanProcessByReqId
      intro b hb hwaits option hoption' item' hitem' hstate' hconnId'
      rw [honly b hb hwaits, hoption] at hoption'
      obtain rfl : call.option = option := Option.some.inj hoption'
      rw [h.same item' hitem' item hitem hstate' hstate hconnId']
      exact hpeer
    · exact hadded
  · have hmade := hadded.addItem ⟨reqId, call.option, 0, 0, .pyhConnecting⟩ (.connecting rfl rfl)
      (fun hbad => absurd hbad (by simp)) (by
        intro b hb option hoption' hatt
        cases hatt with
        | waiting hstatus' _ hreq' =>
          have hwaits : b.waitsFor reqId := by
            simp only [ProxyChannelInfo.waitsFor, hstatus', and_true, decide_eq_true_eq]
            exact hreq'
          rw [honly b hb hwaits, hoption] at hoption'
          obtain rfl : call.option = option := Option.some.inj hoption'
          exact .refl _
        | bound _ hbad => exact absurd hbad (by simp))
    split
    · exact hmade
    · exact hmade.evolve (.of_sublist .refl eraseP_sublist)
        (.of_sublist .refl eraseP_sublist) fun _ hcall => hcall

end
end PeerOk

/-! ## Runs -/

/-- What the second half of an open call needs. -/
def CallKeepsPeer (w : ProxyWorld) (call : OpenCall) : Prop :=
  match call.conn with
  | some conn =>
    -- the ids that the call has copied have not been given to another connection
    ∀ item ∈ w.conns, item.ids = conn.ids → item.connInfo = conn.connInfo
  | none =>
    -- items with the address of the option agree with it, and the request id is new
    (∀ item ∈ w.conns, item.connInfo.addr = call.option.addr → call.option.SamePeer item.connInfo) ∧
      (∀ chan ∈ w.channels, ¬ chan.waitsFor (ProxyWorld.connGetNewRequestId w.reqId)) ∧
      ∀ item ∈ w.conns, ¬ item.waitsFor (ProxyWorld.connGetNewRequestId w.reqId)

instance (w : ProxyWorld) (call : OpenCall) : Decidable (CallKeepsPeer w call) := by
  unfold CallKeepsPeer
  split <;> infer_instance

/-- The condition on the steps: see `CallKeepsPeer` for open calls; a new connection has an
    id that no item and no channel has. -/
def KeepsPeer (w : ProxyWorld) : ProxyInput → Prop
  | .openFinish n _ _ => ∀ call ∈ w.calls[n]?, CallKeepsPeer w call
  | .connectSuccessed _ connId => connId ≠ 0 ∧ (∀ item ∈ w.conns, item.connId ≠ connId) ∧
      ∀ chan ∈ w.channels, chan.connId ≠ connId
  | .received msg _ => msg.msgHead.type = .handshake → msg.connId ≠ 0 ∧
      ((∃ item ∈ w.conns, item.connId = msg.connId) ∨ ∀ chan ∈ w.channels, chan.connId ≠ msg.connId)
  | _ => True

theorem PeerOk.openFinish (h : PeerOk w) {n : ℕ} {identity : Option String} {connected : Bool}
    (hok : KeepsPeer w (.openFinish n identity connected)) :
    PeerOk (w.openFinish n identity connected) := by
  have herased : PeerOk { w with calls := w.calls.eraseIdx n } :=
    h.evolve (.refl .refl) (.refl .refl) fun _ hcall => eraseIdx_subset hcall
  unfold ProxyWorld.openFinish
  split
  · exact h
  · exact herased.evolve (.refl .refl) (.refl .refl) fun _ hcall => hcall
  · next call identity hcall =>
    have hkeeps : CallKeepsPeer w call := hok call hcall
    unfold CallKeepsPeer at hkeeps
    split
    · next conn hconn =>
      rw [hconn] at hkeeps
      obtain ⟨hconnOk, hpeer⟩ := h.call call (mem_of_getElem? hcall) conn hconn
      exact herased.connExistProc hconnOk hpeer hkeeps
    · next hconn =>
      rw [hconn] at hkeeps
      exact herased.openNewConnChannel hkeeps.1 hkeeps.2.1 hkeeps.2.2 connected

theorem PeerOk.step (h : PeerOk w) {input : ProxyInput} (hok : KeepsPeer w input) :
    PeerOk (w.step input) := by
  cases input with
  | openLookup appInfo option => exact h.openLookup appInfo
  | openFinish n identity connected => exact h.openFinish hok
  | connectSuccessed requestId connectionId => exact h.connectSuccessed hok.1 hok.2.1 hok.2.2
  | received msg env =>
    by_cases htype : msg.msgHead.type = .handshake
    · exact received_handshake htype h (h.acceptHandshake (hok htype).1 (hok htype).2 env)
    · exact h.quiet (quiet_step htype)
  | connectFailed | disconnected | send | close | death | tick | loop => exact h.quiet (quiet_step trivial)

/-- In every run whose steps meet `KeepsPeer`, a channel that was opened for an option is
    attached only to items of the same type and address and, for TCP, of the same port and
    protocol. -/
theorem attached_to_requested_peer (littleEndian : Bool) (inputs : List ProxyInput)
    (h : Run.AllSteps ProxyWorld.step KeepsPeer (.init littleEndian) inputs)
    (pre : List ProxyInput) (hpre : pre <+: inputs) :
    let w := pre.foldl ProxyWorld.step (.init littleEndian)
    ∀ chan ∈ w.channels, ∀ option ∈ chan.option, ∀ item ∈ w.conns, chan.AttachedTo item →
      option.SamePeer item.connInfo :=
  ((h.of_prefix hpre).foldl_inv (fun _ _ hw hok => PeerOk.step hw hok)
    (peerOk_init littleEndian)).attached

instance (w : ProxyWorld) (input : ProxyInput) : Decidable (KeepsPeer w input) := by
  unfold KeepsPeer
  induction input using ProxyInput.casesOn <;> infer_instance

/-- One address, different ports. -/
def tcpOption (port : Int32) : ConnectOption := ⟨.tcp, [0x31, 0x30], port, 4⟩

/-- A channel is opened to one port and its connection comes up; then one is opened to `port`. -/
def openBoth (port : Int32) : List ProxyInput :=
  openCall sampleApp (tcpOption 7001) ++ [ProxyInput.connectSuccessed 3 0x10005] ++
    openCall sampleApp (tcpOption port)

/-- The channel for port 7002 gets the connection to port 7001. -/
theorem attached_to_other_port :
    let w : ProxyWorld := (openBoth 7002).foldl ProxyWorld.step (.init true)
    w.channels.map (fun chan => (chan.option, chan.status, chan.connId)) =
        [(some (tcpOption 7002), .handshakeing, 0x10005),
          (some (tcpOption 7001), .handshakeing, 0x10005)] ∧
      w.conns.map (fun item => (item.connInfo, item.state, item.connId)) =
        [(tcpOption 7001, .pyhConnected, 0x10005)] := by
  decide +kernel

/-- Two channels to one port share its connection. -/
theorem attached_to_same_port :
    let w : ProxyWorld := (openBoth 7001).foldl ProxyWorld.step (.init true)
    ∀ chan ∈ w.channels, ∀ option ∈ chan.option, ∀ item ∈ w.conns, chan.AttachedTo item →
      option.SamePeer item.connInfo := by
  apply attached_to_requested_peer true _ _ _ (prefix_refl _)
  decide +kernel

end SoftBus.Native
