import SoftBus.Spec.ProxyPeer

/-!
# The reference counts of connections

The `ref` of a connection item should be the number of channels that use the connection.
A channel that is closed leaves the list at once, but its reference is only given back when
the loop comes to its `LOOP_DISCONNECT_MSG`, so the books are: `ref` is the number of
channels on the connection and of such messages in the queue.  They are upset by handlers
that give back a reference of the wrong item (all items that are still connecting share
the id 0), by channels that are bound when their item is gone, and by a handshake whose
answer cannot be sent.  As long as nothing of this kind happens, a connection is closed
only when no channel is on it, and no item keeps a count that nothing will take down.
-/

namespace SoftBus.Native
open List ProxyWorld ProxyChannelInfo ProxyConnInfo
variable {n : ℕ} {item : ProxyConnInfo} {c reqId connId : UInt32} {channels : List ProxyChannelInfo}
  {p : ProxyChannelInfo → Bool} {f : ProxyChannelInfo → ProxyChannelInfo}
  {r : ProxyChannelInfo × List ProxyChannelInfo} {chan : ProxyChannelInfo} {msg : ProxyMessage} {env : MsgEnv}
  {input : ProxyInput} {msgs : List LoopMsg} {call : OpenCall} {identity : String}

/-! ## The books of one connection -/

/-- `items` are the items of one connection, `bound` the number of its channels and `queued`
    that of the messages that will give back a reference. -/
inductive Accounted (items : List ProxyConnInfo) (bound queued : ℕ) : Prop where
  | used (item : ProxyConnInfo) (hitems : items = [item]) (href : item.ref = bound + queued)
  | unused (hitems : items = []) (hbound : bound = 0)

/-- Channels that are closed leave their references to the queue. -/
theorem Accounted.move {items : List ProxyConnInfo} {bound queued : ℕ} (h : Accounted items (n + bound) queued) :
    Accounted items bound (n + queued) := by
  cases h with
  | used item hitems href => exact .used item hitems (by omega)
  | unused hitems hbound => exact .unused hitems (by omega)

/-- An item waits for its connection, without an id and without references, or it has an id. -/
inductive ProxyConnInfo.Counted (item : ProxyConnInfo) : Prop where
  | connecting (hstate : item.state = .pyhConnecting) (hconnId : item.connId = 0)
      (href : item.ref = 0)
  | connected (hstate : item.state ≠ .pyhConnecting) (hconnId : item.connId ≠ 0)

theorem ProxyConnInfo.Counted.connId_ne (h : item.Counted) (hstate : item.state ≠ .pyhConnecting) :
    item.connId ≠ 0 := by
  cases h with
  | connecting hbad => exact absurd hbad hstate
  | connected _ hconnId => exact hconnId

/-- A change of `ref` of an item that has an id. -/
theorem ProxyConnInfo.Counted.setRef (h : item.Counted) (hconnId : item.connId ≠ 0) (ref : Int) :
    { item with ref := ref }.Counted := by
  cases h with
  | connecting _ hbad => exact absurd hbad hconnId
  | connected hstate _ => exact .connected hstate hconnId

/-! ## The books of all connections -/

/-- `ids` are the connections of the channels, `queue` those of the queued messages. -/
structure Books (conns : List ProxyConnInfo) (ids queue : List UInt32) : Prop where
  item : ∀ item ∈ conns, item.Counted
  accounted : ∀ c, c ≠ 0 → Accounted (conns.filter (·.hasConnId c)) (ids.count c) (queue.count c)

theorem hasConnId_iff : item.hasConnId c = true ↔ item.connId = c := by
  simp [hasConnId]

theorem hasConnId_eq_false : item.hasConnId c = false ↔ item.connId ≠ c := by
  simp [hasConnId]

theorem filter_hasConnId_eq_nil {conns : List ProxyConnInfo} (h : ∀ item ∈ conns, item.connId ≠ c) :
    conns.filter (·.hasConnId c) = [] :=
  filter_eq_nil_iff.2 fun item hitem => by simp [hasConnId_eq_false.2 (h item hitem)]

/-- An operation on the first item with an id does not concern the items of another id. -/
theorem not_hasConnId_of_ne {x : UInt32} (hne : x ≠ c) (h : item.hasConnId c = true) : item.hasConnId x = false := by
  rw [hasConnId_iff] at h
  rw [hasConnId_eq_false, h]
  exact hne.symm

namespace Books
variable {conns : List ProxyConnInfo} {ids ids' queue queue' : List UInt32}

/-- The books are about the numbers of channels and messages of each connection. -/
theorem congr (h : Books conns ids queue) (hids : ∀ c, c ≠ 0 → ids'.count c = ids.count c)
    (hqueue : ∀ c, c ≠ 0 → queue'.count c = queue.count c) : Books conns ids' queue' where
  item := h.item
  accounted := by
    intro c hc
    rw [hids c hc, hqueue c hc]
    exact h.accounted c hc

theorem move (gone : List UInt32) (h : Books conns (gone ++ ids) queue) :
    Books conns ids (gone ++ queue) where
  item := h.item
  accounted := by
    intro c hc
    rw [count_append]
    apply Accounted.move
    rw [← count_append]
    exact h.accounted c hc

section
variable (h : Books conns ids queue)
include h

/-- The first item of a connection is the only one. -/
theorem firstMatch (hc : c ≠ 0) {before after : List ProxyConnInfo}
    (hm : List.FirstMatch (·.hasConnId c) conns before item after) :
    after.filter (·.hasConnId c) = [] ∧ item.ref = ids.count c + queue.count c := by
  cases h.accounted c hc with
  | used item' hitems href =>
    rw [hm.filter_eq] at hitems
    obtain ⟨rfl, hafter⟩ := cons.inj hitems
    exact ⟨hafter, href⟩
  | unused hitems _ =>
    rw [hm.filter_eq] at hitems
    exact absurd hitems (by simp)

/-- A connection without an item has no channel. -/
theorem notMem_of_no_item (hc : c ≠ 0)
    (hnone : ∀ item ∈ conns, item.connId ≠ c) : c ∉ ids := by
  cases h.accounted c hc with
  | used item hitems _ =>
    have hmem : item ∈ conns.filter (·.hasConnId c) := by rw [hitems]; exact mem_singleton_self _
    obtain ⟨hitem, hconnId⟩ := mem_filter.1 hmem
    exact absurd (hasConnId_iff.1 hconnId) (hnone item hitem)
  | unused _ hbound => exact count_eq_zero.1 hbound

/-! ## References given back and taken -/

/-- Taking out an item that has no id. -/
theorem eraseP_zero {p : ProxyConnInfo → Bool}
    (hp : ∀ item ∈ conns, p item = true → item.connId = 0) : Books (conns.eraseP p) ids queue where
  item := fun item hitem => h.item item (mem_of_mem_eraseP hitem)
  accounted := by
    intro x hx
    rw [filter_eraseP_of_not]
    · exact h.accounted x hx
    · intro item hitem hpi
      rw [hasConnId_eq_false, hp item hitem hpi]
      exact hx.symm

/-- Taking out the item of a connection without channels; its messages do not matter then. -/
theorem eraseP (hids : c ≠ 0 → c ∉ ids)
    (hqueue : ∀ x, x ≠ c → queue'.count x = queue.count x) :
    Books (conns.eraseP (·.hasConnId c)) ids queue' where
  item := fun item hitem => h.item item (mem_of_mem_eraseP hitem)
  accounted := by
    intro x hx
    by_cases hxc : x = c
    · subst hxc
      apply Accounted.unused _ (count_eq_zero.2 (hids hx))
      cases hfind : conns.find? (·.hasConnId x) with
      | none =>
        rw [eraseP_of_none hfind]
        exact filter_hasConnId_eq_nil fun item hitem =>
          hasConnId_eq_false.1 (find?_eq_none_cases hfind item hitem)
      | some item =>
        obtain ⟨_, _, hm⟩ := exists_firstMatch hfind
        rw [hm.eraseP_eq, filter_append, (h.firstMatch hx hm).1, append_nil]
        exact filter_hasConnId_eq_nil fun item hitem => hasConnId_eq_false.1 (hm.skip item hitem)
    · rw [filter_eraseP_of_not fun item _ hitem => not_hasConnId_of_ne hxc hitem, hqueue x hxc]
      exact h.accounted x hx

/-- A change of the count of a connection together with that of its channels and messages. -/
theorem modify (hc : c ≠ 0) (hfind : conns.find? (·.hasConnId c) = some item)
    (f : Int → Int) (href : f item.ref = ids'.count c + queue'.count c)
    (hids : ∀ x, x ≠ c → ids'.count x = ids.count x) (hqueue : ∀ x, x ≠ c → queue'.count x = queue.count x) :
    Books (conns.modifyFirst (·.hasConnId c) fun item => { item with ref := f item.ref }) ids'
      queue' := by
  obtain ⟨before, after, hm⟩ := exists_firstMatch hfind
  constructor
  · intro a ha
    rw [hm.modifyFirst_eq, mem_append, mem_cons] at ha
    rcases ha with ha | rfl | ha
    · exact h.item a (hm.eq ▸ mem_append_left _ ha)
    · exact (h.item item hm.mem).setRef (hasConnId_iff.1 hm.hit ▸ hc) _
    · exact h.item a (hm.eq ▸ mem_append_right _ (mem_cons_of_mem _ ha))
  · intro x hx
    by_cases hxc : x = c
    · subst hxc
      have hm' : List.FirstMatch (·.hasConnId x)
          (conns.modifyFirst (·.hasConnId x) fun item => { item with ref := f item.ref })
          before { item with ref := f item.ref } after :=
        ⟨hm.modifyFirst_eq, hm.skip, hm.hit⟩
      apply Accounted.used { item with ref := f item.ref } _ href
      rw [hm'.filter_eq, (h.firstMatch hx hm).1]
    · rw [filter_modifyFirst_of_not, hids x hxc, hqueue x hxc]
      · exact h.accounted x hx
      · intro a _ ha
        exact ⟨not_hasConnId_of_ne hxc ha, not_hasConnId_of_ne hxc ha⟩

end

/-- A reference is given back: `SOFTBUS_OK` means that no channel is on the connection. -/
theorem settle (h : Books conns ids (c :: queue)) :
    Books (transDecConnRefByConnId c conns).2 ids queue ∧
      ((transDecConnRefByConnId c conns).1 = .ok → c ≠ 0 → c ∉ ids) := by
  -- only the messages of this connection change
  have hqueue : ∀ x, x ≠ c → queue.count x = (c :: queue).count x := by
    intro x hx
    rw [count_cons_of_ne hx.symm]
  unfold transDecConnRefByConnId
  split
  · next hnone =>
    have hids : c ≠ 0 → c ∉ ids := fun hc => h.notMem_of_no_item hc fun item hitem =>
      hasConnId_eq_false.1 (find?_eq_none_cases hnone item hitem)
    have herased := h.eraseP hids hqueue
    rw [eraseP_of_none hnone] at herased
    exact ⟨herased, fun _ => hids⟩
  · next item hfind =>
    obtain ⟨_, _, hm⟩ := exists_firstMatch hfind
    have href : c ≠ 0 → item.ref = ids.count c + (queue.count c + 1 : ℕ) := by
      intro hc
      rw [(h.firstMatch hc hm).2, count_cons_self]
    split
    · next hzero =>
      have hids : c ≠ 0 → c ∉ ids := by
        intro hc
        have := href hc
        exact count_eq_zero.1 (by omega)
      exact ⟨h.eraseP hids hqueue, fun _ => hids⟩
    · next hpos =>
      by_cases hc : c = 0
      · -- an item without an id has no references
        cases h.item item hm.mem with
        | connecting _ _ hzero => omega
        | connected _ hbad => exact absurd (hasConnId_iff.1 hm.hit) (hc ▸ hbad)
      · refine ⟨h.modify hc hfind (· - 1) ?_ (fun _ _ => rfl) hqueue, ?_⟩
        · have := href hc
          omega
        · intro hbad
          exact absurd hbad (by simp)

section
variable (h : Books conns ids queue)
include h

/-- A channel takes a reference of an item that is in the list. -/
theorem attach (hc : c ≠ 0) (hitem : ∃ item ∈ conns, item.connId = c) :
    Books (transAddConnRefByConnId c conns) (c :: ids) queue := by
  obtain ⟨item, hmem, hconnId⟩ := hitem
  obtain ⟨first, hfind⟩ := find?_isSome_of_mem hmem (hasConnId_iff.2 hconnId)
  obtain ⟨_, _, hm⟩ := exists_firstMatch hfind
  refine h.modify hc hfind (· + 1) ?_ (fun x hx => ?_) fun _ _ => rfl
  · rw [(h.firstMatch hc hm).2, count_cons_self]
    omega
  · exact count_cons_of_ne hx.symm

/-- One channel after the other takes a reference. -/
theorem attachAll {α : Type*} (waiting : List α) (hc : c ≠ 0)
    (hitem : waiting ≠ [] → ∃ item ∈ conns, item.connId = c) :
    Books (waiting.foldl (fun conns _ => transAddConnRefByConnId c conns) conns)
      (replicate waiting.length c ++ ids) queue := by
  induction waiting generalizing conns ids with
  | nil => exact h
  | cons a waiting ih =>
    have hitem := hitem (cons_ne_nil _ _)
    -- the item stays in the list
    have hstays : ∃ item ∈ transAddConnRefByConnId c conns, item.connId = c := by
      obtain ⟨item, hmem, hconnId⟩ := hitem
      have hmap : (transAddConnRefByConnId c conns).map (·.connId) = conns.map (·.connId) :=
        map_modifyFirst fun _ _ => rfl
      have hin : c ∈ (transAddConnRefByConnId c conns).map (·.connId) := by
        rw [hmap, ← hconnId]
        exact mem_map_of_mem hmem
      obtain ⟨item', hmem', hconnId'⟩ := mem_map.1 hin
      exact ⟨item', hmem', hconnId'⟩
    apply (ih (h.attach hc hitem) fun _ => hstays).congr
    · intro x _
      exact List.Perm.count_eq perm_middle.symm x
    · exact fun _ _ => rfl

/-- A channel that comes with a handshake takes a reference, of a new item if there is none. -/
theorem create (hc : c ≠ 0)
    (hqueue : (∃ item ∈ conns, item.connId = c) ∨ c ∉ queue) (littleEndian : Bool)
    (info : ConnectionInfo) :
    Books (transCreateConnByConnId littleEndian c info conns) (c :: ids) queue := by
  unfold transCreateConnByConnId
  split
  · next item hfind =>
    have hmem := mem_of_find?_eq_some hfind
    exact h.attach hc ⟨item, hmem, hasConnId_iff.1 (by simpa using find?_some hfind)⟩
  · next hnone =>
    have hnone : ∀ item ∈ conns, item.connId ≠ c := fun item hitem =>
      hasConnId_eq_false.1 (find?_eq_none_cases hnone item hitem)
    have hqueue : c ∉ queue := by
      cases hqueue with
      | inl hitem =>
        obtain ⟨item, hmem, hconnId⟩ := hitem
        exact absurd hconnId (hnone item hmem)
      | inr hqueue => exact hqueue
    have hids := h.notMem_of_no_item hc hnone
    constructor
    · intro item hitem
      cases hitem with
      | head => exact .connected (by simp) hc
      | tail _ hitem => exact h.item item hitem
    · intro x hx
      by_cases hxc : x = c
      · subst hxc
        apply Accounted.used ⟨0, info.copied littleEndian, x, 1, .pyhConnected⟩
        · simpa [hasConnId] using hnone
        · simp [count_eq_zero.2 hids, count_eq_zero.2 hqueue]
      · rw [filter_cons_of_neg, count_cons_of_ne (Ne.symm hxc)]
        · exact h.accounted x hx
        · rw [hasConnId_iff]
          exact Ne.symm hxc

/-- A new item for a request. -/
theorem addConnecting (reqId : UInt32) (option : ConnectOption) :
    Books (⟨reqId, option, 0, 0, .pyhConnecting⟩ :: conns) ids queue := by
  constructor
  · intro item hitem
    cases hitem with
    | head => exact .connecting rfl rfl rfl
    | tail _ hitem => exact h.item item hitem
  · intro x hx
    rw [filter_cons_of_neg]
    · exact h.accounted x hx
    · rw [hasConnId_iff]
      exact hx.symm

/-- The items of a request have no id. -/
theorem connId_of_waitsFor (hitem : item ∈ conns) (hwaits : item.waitsFor reqId = true) :
    item.connId = 0 ∧ item.ref = 0 := by
  have hstate : item.state = .pyhConnecting := by
    simp only [ProxyConnInfo.waitsFor, decide_eq_true_eq] at hwaits
    exact hwaits.2
  cases h.item item hitem with
  | connecting _ hconnId href => exact ⟨hconnId, href⟩
  | connected hbad => exact absurd hstate hbad

/-- The item of a request gets an id that nothing has. -/
theorem setConnState (hc : c ≠ 0)
    (hnone : ∀ item ∈ conns, item.connId ≠ c) (hqueue : c ∉ queue) (reqId : UInt32) :
    Books (transSetConnStateByReqId reqId c .pyhConnected conns) ids queue := by
  unfold transSetConnStateByReqId
  cases hfind : conns.find? (·.waitsFor reqId) with
  | none => rw [modifyFirst_of_none hfind]; exact h
  | some item =>
    obtain ⟨before, after, hm⟩ := exists_firstMatch hfind
    have hids := h.notMem_of_no_item hc hnone
    have hbefore : ∀ a ∈ before, a ∈ conns := fun a ha => hm.eq ▸ mem_append_left _ ha
    have hafter : ∀ a ∈ after, a ∈ conns := fun a ha =>
      hm.eq ▸ mem_append_right _ (mem_cons_of_mem _ ha)
    constructor
    · intro a ha
      rw [hm.modifyFirst_eq, mem_append, mem_cons] at ha
      rcases ha with ha | rfl | ha
      · exact h.item a (hbefore a ha)
      · exact .connected (by simp) hc
      · exact h.item a (hafter a ha)
    · intro x hx
      by_cases hxc : x = c
      · subst hxc
        apply Accounted.used { item with state := .pyhConnected, connId := x, requestId := 0 }
        · rw [hm.modifyFirst_eq, filter_append,
            filter_hasConnId_eq_nil fun a ha => hnone a (hbefore a ha)]
          simpa [hasConnId] using fun a ha => hnone a (hafter a ha)
        · simp [count_eq_zero.2 hids, count_eq_zero.2 hqueue, (h.connId_of_waitsFor hm.mem hm.hit).2]
      · rw [filter_modifyFirst_of_not]
        · exact h.accounted x hx
        · intro a ha hwaits
          rw [hasConnId_eq_false, hasConnId_eq_false, (h.connId_of_waitsFor ha hwaits).1]
          exact ⟨hx.symm, Ne.symm hxc⟩

end
end Books

/-! ## The books of the manager -/

/-- The connections of which the queue will give back a reference. -/
def ProxyWorld.queued (w : ProxyWorld) : List UInt32 := w.loop.filterMap LoopMsg.disconnects?

/-- The books are right up to references `pending` that the handler has still to give back,
    and since `events` only connections without channels have been closed. -/
structure Accounts (events : List ProxyEvent) (pending : List UInt32) (w : ProxyWorld) : Prop where
  books : Books w.conns w.boundIds (pending ++ w.queued)
  chan : ∀ chan ∈ w.channels, chan.connId = 0 ↔ chan.status = .pyhConnecting
  call : ∀ call ∈ w.calls, ∀ conn ∈ call.conn, conn.Counted
  issued : ∃ new, w.events = events ++ new ∧
    ∀ c, c ≠ 0 → ProxyEvent.disconnectDevice c ∈ new → c ∉ w.boundIds

/-- Nothing of the list closes a connection. -/
def Silent (events : List ProxyEvent) : Prop := ∀ c, ProxyEvent.disconnectDevice c ∉ events

namespace Accounts
variable {w : ProxyWorld} {events : List ProxyEvent} {pending : List UInt32}

/-- The books while no connection has been closed. -/
theorem of_books (hevents : w.events = events)
    (hbooks : Books w.conns w.boundIds (pending ++ w.queued))
    (hchan : ∀ chan ∈ w.channels, chan.connId = 0 ↔ chan.status = .pyhConnecting)
    (hcall : ∀ call ∈ w.calls, ∀ conn ∈ call.conn, conn.Counted) : Accounts events pending w :=
  ⟨hbooks, hchan, hcall, [], hevents.trans (append_nil _).symm, fun _ _ hbad => absurd hbad not_mem_nil⟩

section
variable (h : Accounts events pending w)
include h

theorem start : Accounts w.events pending w := of_books rfl h.books h.chan h.call

theorem congr {pending' : List UInt32} (hpending : ∀ c, c ≠ 0 → pending'.count c = pending.count c) : Accounts events pending' w where
  __ := h
  books := h.books.congr (fun _ _ => rfl) fun c hc => by
    rw [count_append, count_append, hpending c hc]

theorem emit {new : List ProxyEvent} (hnew : Silent new) :
    Accounts events pending (w.emit new) where
  __ := h
  issued := by
    obtain ⟨old, heq, hold⟩ := h.issued
    refine ⟨old ++ new, ?_, fun c hc hmem => ?_⟩
    · rw [← append_assoc, ← heq]
      rfl
    · cases mem_append.1 hmem with
      | inl hmem => exact hold c hc hmem
      | inr hbad => exact absurd hbad (hnew c)

/-- The references that are pending are left to the queue. -/
theorem postLoop (hmsgs : (msgs.filterMap LoopMsg.disconnects?).Perm pending) :
    Accounts events [] (w.postLoop msgs) where
  __ := h
  books := by
    apply h.books.congr fun _ _ => rfl
    intro c _
    simp only [ProxyWorld.queued, ProxyWorld.postLoop, List.filterMap_append, List.nil_append,
      List.count_append, hmsgs.count_eq]
    omega

/-- Channels are taken out, and their references are to be given back. -/
theorem take (gone : List UInt32)
    (hids : w.boundIds.Perm (gone ++ channels.map (·.connId)))
    (hchan : ∀ chan ∈ channels, chan.connId = 0 ↔ chan.status = .pyhConnecting) :
    Accounts events (gone ++ pending) { w with channels := channels } where
  books := by
    rw [append_assoc]
    exact (h.books.congr (fun c _ => hids.symm.count_eq c) fun _ _ => rfl).move gone
  chan := hchan
  call := h.call
  issued := by
    obtain ⟨new, heq, hnew⟩ := h.issued
    refine ⟨new, heq, fun c hc hmem hbound => hnew c hc hmem ?_⟩
    exact hids.mem_iff.2 (mem_append_right _ hbound)

end

/-- A reference is given back, and the connection closed if it was the last. -/
theorem closeReset (h : Accounts events (c :: pending) w) (isDisconnect : Bool) :
    Accounts events pending (w.transProxyCloseConnChannelReset c isDisconnect) := by
  rw [closeConnChannelReset_eq]
  obtain ⟨hbooks, hok⟩ := h.books.settle
  refine ⟨hbooks, h.chan, h.call, ?_⟩
  obtain ⟨old, heq, hold⟩ := h.issued
  refine ⟨old ++ _, by rw [← append_assoc, ← heq], fun x hx hmem => ?_⟩
  cases mem_append.1 hmem with
  | inl hmem => exact hold x hx hmem
  | inr hmem =>
    split at hmem
    · next hlast =>
      obtain rfl : x = c := by simpa using hmem
      exact hok hlast.1 hx
    · exact absurd hmem not_mem_nil

/-! ## Moves -/

/-- After a sequence of moves the books are right up to the references that are owed. -/
theorem of_moves {gone : List ℕ} {owed : List UInt32} {w₀ : ProxyWorld} (h : Moves True w₀ gone owed w)
    (hw : Accounts events [] w₀) : Accounts events owed w := by
  induction h with
  | start => exact hw
  | @pop msg loop hloop =>
    -- a message that is taken from the queue leaves its reference to the handler
    refine ⟨hw.books.congr (fun _ _ => rfl) fun c _ => ?_, hw.chan, hw.call, hw.issued⟩
    rw [queued, queued, hloop, filterMap_cons]
    cases msg.disconnects? with
    | none => rfl
    | some connId => rfl
  | emit h events hevents ih => exact ih.emit fun c hmem => (hevents _ hmem).2.1 c rfl
  | post h msgs hmsgs howed ih => exact ih.postLoop howed
  | take h out hstay hout hstatus ih =>
    refine ih.take (out.map (·.connId)) ?_ fun b hb => ?_
    · simpa [boundIds, Function.comp_def] using hout.map Prod.snd
    · obtain ⟨a, ha, hconnId, hiff⟩ := hstatus trivial b hb
      rw [← hconnId, ← hiff]
      exact ih.chan a ha
  | giveBack h isDisconnect ih => exact ih.closeReset isDisconnect
  | reckon h owed' howed ih => exact ih.congr (howed trivial)
  | dropConn h hnone ih => exact ⟨ih.books.eraseP (fun _ => hnone) (fun _ _ => rfl), ih.chan, ih.call, ih.issued⟩
  | dropWaiting h reqId ih =>
    refine ⟨ih.books.eraseP_zero fun item hitem hwaits => ?_, ih.chan, ih.call, ih.issued⟩
    exact (ih.books.connId_of_waitsFor hitem hwaits).1

theorem connId_of_waitsFor (h : Accounts events pending w) (hchan : chan ∈ w.channels)
    (hwaits : chan.waitsFor reqId = true) : chan.connId = 0 := by
  rw [h.chan chan hchan]
  simp only [ProxyChannelInfo.waitsFor, decide_eq_true_eq] at hwaits
  exact hwaits.2

theorem silent_sendControl (type : MsgType) (sent : Bool) : Silent (chan.sendControl type connId sent) := by
  intro c
  unfold sendControl
  split <;> simp

theorem silent_opened (env : OpenedEnv) : Silent (onProxyChannelOpened chan env).2 := by
  intro c
  unfold onProxyChannelOpened
  split
  · split <;> simp
  · simp
  · simp
  · simp

theorem handshakeAck (h : Accounts events [] w) (env : MsgEnv)
    (hack : ∀ u ∈ msg.unpacked, ∀ chan ∈ w.channels.find? fun item => item.myId = msg.msgHead.myId ∧ item.identity = u.1, chan.status ≠ .pyhConnecting) :
    Accounts events [] (w.transProxyProcessHandshakeAckMsg msg env) := by
  unfold transProxyProcessHandshakeAckMsg
  split
  · exact h
  · next identity info hunpacked =>
    split
    · exact h
    · next hupdate =>
      refine (of_moves (Moves.start.update hupdate (follows_ack _ info) fun _ a ha => ?_) h).emit (silent_opened _)
      have hstatus := hack _ hunpacked a ha
      simp [hstatus]

/-! ## Handshakes -/

theorem acceptHandshake (h : Accounts w.events [] w) (hpos : msg.connId ≠ 0)
    (hqueue : (∃ item ∈ w.conns, item.connId = msg.connId) ∨ msg.connId ∉ w.queued) (hsent : env.sent = true)
    (identity : String) (appInfo : AppInfo) (info : ConnectionInfo) :
    Accounts w.events [] (w.acceptHandshake msg env identity appInfo info) := by
  have hcreated := h.books.create hpos hqueue w.littleEndian info
  unfold ProxyWorld.acceptHandshake
  simp only [← handshakeChannel.eq_1]
  split
  · -- the new channel has the reference
    have hadded : Accounts w.events [] { w with
        conns := transCreateConnByConnId w.littleEndian msg.connId info w.conns
        myId := (transProxyGetNewMyId w.littleEndian w.channels w.myId).2
        channels := w.handshakeChannel msg identity appInfo info :: w.channels
        nextUid := w.nextUid + 1 } := by
      refine of_books rfl hcreated (fun chan hchan => ?_) h.call
      cases hchan with
      | head => simp [handshakeChannel, serverChannel, hpos]
      | tail _ hchan => exact h.chan chan hchan
    exact (hadded.emit (silent_opened env.opened)).emit (silent_sendControl _ true)
  · -- the reference is given back at once
    have hpending : Accounts w.events [msg.connId] { w with
        conns := transCreateConnByConnId w.littleEndian msg.connId info w.conns
        myId := (transProxyGetNewMyId w.littleEndian w.channels w.myId).2
        nextUid := w.nextUid + 1 } :=
      of_books rfl (hcreated.move [msg.connId]) h.chan h.call
    exact (hpending.emit (silent_opened env.opened)).closeReset true

/-! ## Binding -/

/-- The connections of the channels when those that wait for a request are bound. -/
theorem count_bind (h : ∀ chan ∈ channels, chan.waitsFor reqId → chan.connId = 0) (hc : c ≠ 0) :
    ((channels.map (·.bind reqId connId)).map (·.connId)).count c =
      (replicate (channels.filter (·.waitsFor reqId)).length connId ++
        channels.map (·.connId)).count c := by
  induction channels with
  | nil => rfl
  | cons chan channels ih =>
    have ih := ih fun a ha => h a (mem_cons_of_mem _ ha)
    rw [count_append] at ih
    by_cases hwaits : chan.waitsFor reqId = true
    · have hzero := h chan mem_cons_self hwaits
      have hbind : (chan.bind reqId connId).connId = connId := by
        simp [ProxyChannelInfo.bind, hwaits]
      rw [filter_cons_of_pos hwaits, length_cons, replicate_succ, map_cons,
        map_cons, map_cons, hbind, hzero, cons_append, count_cons, count_cons,
        count_append, count_cons_of_ne hc.symm, ih]
    · have hbind : chan.bind reqId connId = chan := by
        simp [ProxyChannelInfo.bind, hwaits]
      rw [filter_cons_of_neg (p := fun a : ProxyChannelInfo => a.waitsFor reqId) hwaits, map_cons, map_cons, map_cons, hbind,
        count_append, count_cons, count_cons]
      omega

section
variable (h : Accounts w.events [] w)
include h

theorem chanProcessByReqId (hpos : connId ≠ 0)
    (hitem : (∃ chan ∈ w.channels, chan.waitsFor reqId) → ∃ item ∈ w.conns, item.connId = connId) :
    Accounts w.events [] (w.transProxyChanProcessByReqId reqId connId) := by
  have hattached := h.books.attachAll (w.channels.filter (·.waitsFor reqId)) hpos (by
    intro hne
    obtain ⟨chan, hchan⟩ := exists_mem_of_ne_nil _ hne
    obtain ⟨hchan, hwaits⟩ := mem_filter.1 hchan
    exact hitem ⟨chan, hchan, hwaits⟩)
  refine of_books rfl ?_ ?_ h.call
  · apply hattached.congr
    · exact fun c hc => count_bind (fun _ => h.connId_of_waitsFor) hc
    · intro c _
      have hnone : ((w.channels.filter (·.waitsFor reqId)).map
          fun item => LoopMsg.handshake item.channelId).filterMap LoopMsg.disconnects? = [] := by
        rw [filterMap_map]
        exact filterMap_eq_nil_iff.2 fun _ _ => rfl
      simp only [queued, transProxyChanProcessByReqId, filterMap_append, hnone, append_nil]
  · intro b hb
    obtain ⟨a, ha, rfl⟩ := mem_map.1 hb
    by_cases hwaits : a.waitsFor reqId = true
    · simp [ProxyChannelInfo.bind, hwaits, hpos]
    · simp only [ProxyChannelInfo.bind, hwaits]
      exact h.chan a ha

theorem connectSuccessed (hpos : connId ≠ 0)
    (hnone : ∀ item ∈ w.conns, item.connId ≠ connId) (hqueue : connId ∉ w.queued)
    (hitem : (∃ item ∈ w.conns, item.waitsFor reqId) ∨ ∀ chan ∈ w.channels, ¬ chan.waitsFor reqId) :
    Accounts w.events [] (w.transOnConnectSuccessed reqId connId) := by
  have hset : Accounts w.events [] { w with
      conns := transSetConnStateByReqId reqId connId .pyhConnected w.conns } :=
    ⟨h.books.setConnState hpos hnone hqueue reqId, h.chan, h.call, h.issued⟩
  apply hset.start.chanProcessByReqId hpos
  intro hwaiting
  obtain ⟨chan, hchan, hwaits⟩ := hwaiting
  cases hitem with
  | inr hbad => exact absurd hwaits (hbad chan hchan)
  | inl hitem =>
    -- the item of the request has got the id
    obtain ⟨item, hmem, hitemWaits⟩ := hitem
    obtain ⟨first, hfind⟩ := find?_isSome_of_mem hmem hitemWaits
    obtain ⟨_, _, hm⟩ := exists_firstMatch hfind
    refine ⟨{ first with state := .pyhConnected, connId := connId, requestId := 0 }, ?_, rfl⟩
    simp only [transSetConnStateByReqId, hm.modifyFirst_eq]
    exact mem_append_right _ mem_cons_self

/-! ## Opening -/

theorem openLookup (appInfo : AppInfo) (option : ConnectOption) :
    Accounts w.events [] (w.openLookup appInfo option) := by
  refine ⟨h.books, h.chan, fun call hcall conn hconn => ?_, h.issued⟩
  cases mem_append.1 hcall with
  | inl hcall => exact h.call call hcall conn hconn
  | inr hcall =>
    rw [mem_singleton.1 hcall] at hconn
    exact h.books.item conn (samePeer_of_transGetConn hconn).1

/-- One more channel that waits. -/
theorem addWaiting (hconnId : chan.connId = 0) (hstatus : chan.status = .pyhConnecting) :
    Accounts w.events [] (w.transProxyAddChanItem chan) := by
  refine of_books rfl (h.books.congr (fun c hc => ?_) fun _ _ => rfl) (fun a ha => ?_) h.call
  · simp only [boundIds, transProxyAddChanItem, map_cons, hconnId]
    exact count_cons_of_ne hc.symm
  · cases ha with
    | head => simp [hconnId, hstatus]
    | tail _ ha => exact h.chan a ha

theorem connExistProc {conn : ProxyConnInfo} (hconn : conn.Counted)
    (hitem : conn.state ≠ .pyhConnecting → ∃ item ∈ w.conns, item.connId = conn.connId) :
    Accounts w.events [] (w.transProxyConnExistProc conn call identity) := by
  unfold transProxyConnExistProc
  split
  · exact h.addWaiting rfl rfl
  · next hstate =>
    have hpos := hconn.connId_ne hstate
    have hadded : Accounts w.events [] { w with
        conns := transAddConnRefByConnId conn.connId w.conns
        channels := { newChannel call identity w.nextUid with
          connId := conn.connId, status := .handshakeing } :: w.channels
        nextUid := w.nextUid + 1 } := by
      refine of_books rfl (h.books.attach hpos (hitem hstate)) (fun chan hchan => ?_) h.call
      cases hchan with
      | head => simp [hpos]
      | tail _ hchan => exact h.chan chan hchan
    exact hadded.postLoop (.refl _)

theorem openNewConnChannel (connected : Bool) :
    Accounts w.events [] (w.transProxyOpenNewConnChannel call identity connected) := by
  unfold transProxyOpenNewConnChannel
  simp only
  generalize connGetNewRequestId w.reqId = reqId
  generalize hchan : ({ newChannel call identity w.nextUid with
    reqId := reqId, status := .pyhConnecting, type := call.option.type } : ProxyChannelInfo) = chan
  have hconnId : chan.connId = 0 := by rw [← hchan]; rfl
  have hstatus : chan.status = .pyhConnecting := by rw [← hchan]
  have hchanId : hasChannelId call.chanNewId chan = true := by
    rw [← hchan]
    simp [hasChannelId, newChannel]
  have hreq : Accounts w.events [] { w with reqId := reqId } := of_books rfl h.books h.chan h.call
  have hadded := hreq.start.addWaiting hconnId hstatus
  split
  · next item hfind =>
    split
    · next hstate =>
      have hitem := (sameAddr_of_transFindSameAddr hfind).1
      have hpos := (h.books.item item hitem).connId_ne (by rw [hstate]; simp)
      exact hadded.chanProcessByReqId hpos fun _ => ⟨item, hitem, rfl⟩
    · exact hadded
  · have hbooks := hadded.books.addConnecting reqId call.option
    have hmade : Accounts w.events [] { transProxyAddChanItem chan { w with reqId := reqId } with
        conns := ⟨reqId, call.option, 0, 0, .pyhConnecting⟩ :: w.conns } :=
      of_books rfl hbooks hadded.chan hadded.call
    split
    · exact hmade
    · -- the item and the channel that were just added are taken out again
      have hfirst : (chan :: w.channels).find? (hasChannelId call.chanNewId) = some chan :=
        find?_cons_of_pos hchanId
      refine of_moves (((Moves.start.takeEraseP hfirst).reckon [] fun _ c hc => ?_).dropWaiting reqId) hmade
      simp [hconnId, hc.symm]

end
end Accounts

/-! ## Runs -/

/-- The channel is on the connection. -/
def ProxyChannelInfo.BoundTo (chan : ProxyChannelInfo) (connId : UInt32) : Prop :=
  chan.status ≠ .pyhConnecting ∧ chan.connId = connId

instance (chan : ProxyChannelInfo) (connId : UInt32) : Decidable (chan.BoundTo connId) :=
  inferInstanceAs (Decidable (_ ∧ _))

/-- A message whose handling keeps the books: see `CountsRefs`. -/
def MessageCounts (w : ProxyWorld) (msg : ProxyMessage) (env : MsgEnv) : Prop :=
  match msg.msgHead.type with
  | .handshake =>
    -- the connection has an id, no message of an earlier use of the id is in the queue, and
    -- the answer is sent
    msg.connId ≠ 0 ∧
      ((∃ item ∈ w.conns, item.connId = msg.connId) ∨ msg.connId ∉ w.queued) ∧ env.sent = true
  | .handshakeAck =>
    -- the channel has its connection
    ∀ u ∈ msg.unpacked,
      ∀ chan ∈ w.channels.find? fun item => item.myId = msg.msgHead.myId ∧ item.identity = u.1,
        chan.status ≠ .pyhConnecting
  | .reset =>
    -- the message comes on the connection of the channel
    ∀ u ∈ msg.unpacked, ∀ r ∈ transProxyResetChan msg.msgHead.myId msg.msgHead.peerId u.1 w.channels,
        r.1.connId = msg.connId
  | _ => True

instance (w : ProxyWorld) (msg : ProxyMessage) (env : MsgEnv) : Decidable (MessageCounts w msg env) := by
  unfold MessageCounts
  split <;> infer_instance

/-- The condition on the steps: an open call finds the item it has copied; a request is
    answered with a new connection, while its item is in the list or nobody waits for it; and
    messages keep the books. -/
def CountsRefs (w : ProxyWorld) : ProxyInput → Prop
  | .openFinish n _ _ => ∀ call ∈ w.calls[n]?, ∀ conn ∈ call.conn, conn.state ≠ .pyhConnecting →
      ∃ item ∈ w.conns, item.connId = conn.connId
  | .connectSuccessed reqId connId => connId ≠ 0 ∧ (∀ item ∈ w.conns, item.connId ≠ connId) ∧
      connId ∉ w.queued ∧
      ((∃ item ∈ w.conns, item.waitsFor reqId) ∨ ∀ chan ∈ w.channels, ¬ chan.waitsFor reqId)
  | .received msg env => MessageCounts w msg env
  | _ => True

instance (w : ProxyWorld) (input : ProxyInput) : Decidable (CountsRefs w input) := by
  unfold CountsRefs
  induction input using ProxyInput.casesOn <;> infer_instance

namespace Accounts
variable {w : ProxyWorld} (h : Accounts w.events [] w)
include h in
theorem openFinish {identity : Option String} {connected : Bool}
    (hok : CountsRefs w (.openFinish n identity connected)) :
    Accounts w.events [] (w.openFinish n identity connected) := by
  have herased : Accounts w.events [] { w with calls := w.calls.eraseIdx n } :=
    of_books rfl h.books h.chan fun call hcall => h.call call (eraseIdx_subset hcall)
  unfold ProxyWorld.openFinish
  split
  · exact h
  · exact of_books rfl herased.books herased.chan herased.call
  · next call identity hcall =>
    split
    · next conn hconn =>
      have hcounted := h.call call (mem_of_getElem? hcall) conn hconn
      exact herased.start.connExistProc hcounted (hok call hcall conn hconn)
    · exact herased.start.openNewConnChannel connected

include h in
theorem moves (hmoves : input.IsMoves) (hreset : w.ResetsOwn input) :
    Accounts w.events [] (w.step input) := by
  obtain ⟨gone, hm⟩ : ∃ gone, Moves True w gone [] (w.step input) :=
    Moves.step hmoves (fun _ chan hchan => (h.chan chan hchan).2) fun _ => hreset
  exact of_moves hm h

include h in
theorem received (hok : MessageCounts w msg env) :
    Accounts w.events [] (w.transProxyOnDataReceived msg env) := by
  unfold MessageCounts at hok
  cases htype : msg.msgHead.type with
  | handshake =>
    rw [htype] at hok
    exact received_handshake (P := Accounts w.events []) htype h (h.acceptHandshake hok.1 hok.2.1 hok.2.2)
  | handshakeAck =>
    rw [htype] at hok
    simp only [transProxyOnDataReceived, transProxyOnMessageReceived, htype]
    split
    · exact h.handshakeAck env hok
    · exact h
  | reset | keepalive | keepaliveAck | normal =>
    have hstep : Accounts w.events [] (w.step (.received msg env)) :=
      h.moves (by simp [ProxyInput.IsMoves, htype]) fun hreset => by simpa [hreset] using hok
    exact hstep

theorem step (h : Accounts w.events [] w) (hok : CountsRefs w input) :
    Accounts w.events [] (w.step input) := by
  cases input with
  | openLookup appInfo option => exact h.openLookup appInfo option
  | openFinish n identity connected => exact h.openFinish hok
  | connectSuccessed requestId connectionId =>
    obtain ⟨hpos, hnone, hqueue, hitem⟩ := hok
    exact h.connectSuccessed hpos hnone hqueue hitem
  | received msg env => exact h.received hok
  | connectFailed | disconnected | send | close | death | tick | loop =>
    exact h.moves trivial trivial

theorem init (littleEndian : Bool) : Accounts (init littleEndian).events [] (.init littleEndian) := by
  refine of_books rfl ⟨fun _ hbad => absurd hbad not_mem_nil, fun _ _ => .unused rfl rfl⟩ ?_ ?_
  · exact fun _ hbad => absurd hbad not_mem_nil
  · exact fun _ hbad => absurd hbad not_mem_nil

theorem run {littleEndian : Bool} {inputs : List ProxyInput}
    (h : Run.AllSteps ProxyWorld.step CountsRefs (.init littleEndian) inputs) :
    Accounts (inputs.foldl ProxyWorld.step (.init littleEndian)).events []
      (inputs.foldl ProxyWorld.step (.init littleEndian)) :=
  h.foldl_inv (P := fun w => Accounts w.events [] w) (fun _ _ hw hok => (hw.step hok).start)
    (init littleEndian)

include h in
/-- A connection that a step closes has no channel. -/
theorem not_boundTo_of_issued (hok : CountsRefs w input)
    (hissued : .disconnectDevice connId ∈ w.issued input) :
    ∀ chan ∈ (w.step input).channels, ¬ chan.BoundTo connId := by
  have hstep := h.step hok
  obtain ⟨new, hevents, hnew⟩ := hstep.issued
  rw [ProxyWorld.issued, hevents, List.drop_left] at hissued
  intro chan hchan hbound
  by_cases hzero : connId = 0
  · -- a channel without a connection waits for one
    exact hbound.1 ((hstep.chan chan hchan).1 (hbound.2.trans hzero))
  · apply hnew connId hzero hissued
    rw [← hbound.2]
    exact mem_map_of_mem hchan

/-- The messages of the queue for a connection. -/
theorem count_queued : w.queued.count connId = w.loop.count (.disconnect connId) := by
  unfold queued
  induction w.loop with
  | nil => rfl
  | cons msg rest ih =>
    cases msg with
    | disconnect c =>
      simp only [filterMap_cons, LoopMsg.disconnects?, count_cons, ih]
      simp
    | _ =>
      simp only [filterMap_cons, LoopMsg.disconnects?]
      rw [count_cons_of_ne (by simp), ih]

include h in
/-- An item without channels has the references of the queue. -/
theorem ref_le_of_not_boundTo (hitem : item ∈ w.conns)
    (hnone : ∀ chan ∈ w.channels, ¬ chan.BoundTo item.connId) :
    item.ref ≤ w.loop.count (.disconnect item.connId) := by
  cases h.books.item item hitem with
  | connecting _ _ href => omega
  | connected _ hpos =>
    have hmem : item ∈ w.conns.filter (·.hasConnId item.connId) :=
      mem_filter.2 ⟨hitem, hasConnId_iff.2 rfl⟩
    have hunbound : item.connId ∉ w.boundIds := by
      intro hbound
      obtain ⟨chan, hchan, hconnId⟩ := mem_map.1 hbound
      refine hnone chan hchan ⟨fun hstatus => hpos ?_, hconnId⟩
      rw [← hconnId]
      exact (h.chan chan hchan).2 hstatus
    cases h.books.accounted item.connId hpos with
    | used item' hitems href =>
      rw [hitems] at hmem
      obtain rfl := mem_singleton.1 hmem
      rw [count_eq_zero.2 hunbound, nil_append, count_queued] at href
      omega
    | unused hitems _ =>
      rw [hitems] at hmem
      exact absurd hmem not_mem_nil

end Accounts

/-- In every run whose steps meet `CountsRefs`, a step closes a connection only if no channel
    is on it afterwards, and an item without channels has no more references than messages in
    the queue that give one back. -/
theorem refs_of_channels (littleEndian : Bool) (inputs : List ProxyInput)
    (h : Run.AllSteps ProxyWorld.step CountsRefs (.init littleEndian) inputs)
    (pre : List ProxyInput) :
    (∀ input, pre ++ [input] <+: inputs →
      let w := pre.foldl ProxyWorld.step (.init littleEndian)
      ∀ connId, .disconnectDevice connId ∈ w.issued input →
        ∀ chan ∈ (w.step input).channels, ¬ chan.BoundTo connId) ∧
    (pre <+: inputs →
      let w := pre.foldl ProxyWorld.step (.init littleEndian)
      ∀ item ∈ w.conns, (∀ chan ∈ w.channels, ¬ chan.BoundTo item.connId) →
        item.ref ≤ w.loop.count (.disconnect item.connId)) := by
  constructor
  · intro input hpre w connId hissued
    obtain ⟨hsteps, hok, _⟩ := Run.allSteps_append.1 (h.of_prefix hpre)
    exact (Accounts.run hsteps).not_boundTo_of_issued hok hissued
  · intro hpre w item hitem hnone
    exact (Accounts.run (h.of_prefix hpre)).ref_le_of_not_boundTo hitem hnone

/-- The loop handles a message, and everything is sent. -/
def loopInput : ProxyInput := .loop ⟨none, true⟩

/-- Two channels wait for one peer and a third for another one.  The third is closed, and the
    message for its connection 0 takes out the item of the first peer, so that the two
    channels are bound to a connection without an item.  Then one of them is closed. -/
def closedWhileConnecting : List ProxyInput :=
  openCall sampleApp ⟨.br, [0x42], 0, 0⟩ ++ openCall sampleApp sampleOption ++
    openCall sampleApp sampleOption ++ [.close 512, loopInput, loopInput] ++
    [.connectSuccessed 5 0x20001, loopInput, loopInput] ++ [.close 768, loopInput]

/-- A handshake whose answer cannot be sent. -/
def unansweredHandshake : ProxyInput :=
  .received ⟨0x20001, ⟨.handshake, 0, invalidChannelId, 256⟩, [], some ("identity", sampleApp)⟩
    { MsgEnv.good with sent := false }

/-- The connection is closed while a channel is on it; and a handshake that cannot be
    answered leaves an item that nobody uses. -/
theorem refs_lost :
    let w : ProxyWorld := closedWhileConnecting.foldl ProxyWorld.step (.init true)
    let w' : ProxyWorld := (ProxyWorld.init true).step unansweredHandshake
    w.issued loopInput = [.disconnectDevice 0x20001] ∧
      (w.step loopInput).channels.map (fun chan => (chan.channelId, chan.status, chan.connId)) =
        [(1024, .handshakeing, 0x20001)] ∧
      w'.channels = [] ∧ w'.loop = [] ∧
      w'.conns.map (fun item => (item.connId, item.ref)) = [(0x20001, 1)] := by
  decide +kernel

/-- Two channels share a connection, and both are closed. -/
def sharedAndClosed : List ProxyInput :=
  openCall sampleApp sampleOption ++ [.connectSuccessed 3 0x20001] ++
    openCall sampleApp sampleOption ++ [loopInput, loopInput, .close 512, loopInput, loopInput] ++
    [.close 768, loopInput]

/-- The last message closes the connection, on which no channel is any more. -/
theorem refs_shared :
    let w : ProxyWorld := sharedAndClosed.foldl ProxyWorld.step (.init true)
    .disconnectDevice 0x20001 ∈ w.issued loopInput ∧
      (∀ chan ∈ (w.step loopInput).channels, ¬ chan.BoundTo 0x20001) ∧
      ∀ item ∈ w.conns, (∀ chan ∈ w.channels, ¬ chan.BoundTo item.connId) →
        item.ref ≤ w.loop.count (.disconnect item.connId) := by
  have hissued : .disconnectDevice 0x20001 ∈
      (sharedAndClosed.foldl step (.init true)).issued loopInput := by
    decide +kernel
  have hsteps : Run.AllSteps step CountsRefs (.init true)
      (sharedAndClosed ++ [loopInput]) := by
    decide +kernel
  obtain ⟨hclosed, hrefs⟩ := refs_of_channels true _ hsteps sharedAndClosed
  exact ⟨hissued, hclosed loopInput (prefix_refl _) _ hissued, hrefs (prefix_append _ _)⟩

end SoftBus.Native
