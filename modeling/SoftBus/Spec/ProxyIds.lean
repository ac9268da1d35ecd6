import Mathlib
import SoftBus.ForStd.Run
import SoftBus.Spec.ProxyMoves
import SoftBus.Spec.ProxyDeliver

/-!
# The ids of the proxy channels

`TransProxyGetNewMyId` tries the next hundred numbers of a 16-bit counter and takes the
first whose id no channel of the list has.  If there is none it answers -1, which neither
of its callers looks at; and the id of an open call that has not added its channel yet is
not in the list, so it can be given out a second time.  As long as neither happens, all
channels have different ids.
-/

namespace SoftBus.Native
open List ProxyWorld

/-! ## The numbers behind the ids -/

/-- The id of a number from 1 to 100; its bytes are swapped on a little-endian machine. -/
def IsMyId (littleEndian : Bool) (id : Int16) : Prop :=
  ∃ n, 1 ≤ n ∧ n ≤ myIdMaxNum ∧ id = (endianSwap16 littleEndian (UInt16.ofNat n)).toInt16

theorem isMyId_ofCounter (littleEndian : Bool) (counter : UInt16) :
    IsMyId littleEndian (myIdOfCounter littleEndian counter) := by
  refine ⟨counter.toNat % 100 + 1, by omega, by unfold myIdMaxNum; omega, ?_⟩
  have hnum : counter % 100 + 1 = UInt16.ofNat (counter.toNat % 100 + 1) := by
    apply UInt16.toNat_inj.1
    rfl
  rw [myIdOfCounter, hnum]

private theorem swapped_ids : ∀ littleEndian : Bool, ∀ n : Fin 101, 1 ≤ n.val →
    endianSwap16 littleEndian (endianSwap16 littleEndian (UInt16.ofNat n)).toInt16.toUInt16 =
        UInt16.ofNat n ∧
      0 ≤ (endianSwap16 littleEndian (UInt16.ofNat n)).toInt16.toInt32 := by
  decide +kernel

/-- Swapping the bytes of an id again gives its number, and as a channel id it is not negative. -/
theorem IsMyId.bounds {littleEndian : Bool} {id : Int16} (h : IsMyId littleEndian id) :
    0 ≤ id.toInt32 ∧ 1 ≤ (endianSwap16 littleEndian id.toUInt16).toNat ∧
      (endianSwap16 littleEndian id.toUInt16).toNat ≤ myIdMaxNum := by
  obtain ⟨n, hpos, hmax, rfl⟩ := h
  have hn : n < 101 := by unfold myIdMaxNum at hmax; omega
  obtain ⟨hswap, hnonneg⟩ := swapped_ids littleEndian ⟨n, hn⟩ hpos
  rw [hswap, UInt16.toNat_ofNat', Nat.mod_eq_of_lt (by omega)]
  exact ⟨hnonneg, hpos, hmax⟩

/-! ## Allocation -/

/-- One of the next `cnt` numbers of the counter stands for an id that no channel has, and
    the first of them is not held by an open call that has yet to add its channel. -/
def IdFreeWithin (cnt : ℕ) (counter : UInt16) (w : ProxyWorld) : Prop :=
  match cnt with
  | 0 => False
  | cnt + 1 =>
    let id := myIdOfCounter w.littleEndian (counter + 1)
    if myIdIsValid id w.channels then ∀ call ∈ w.calls, call.chanNewId ≠ id.toInt32
    else IdFreeWithin cnt (counter + 1) w

instance (cnt : ℕ) (counter : UInt16) (w : ProxyWorld) : Decidable (IdFreeWithin cnt counter w) := by
  induction cnt generalizing counter with
  | zero => exact .isFalse id
  | succ cnt ih =>
    unfold IdFreeWithin
    simp only
    split
    · infer_instance
    · exact ih _

/-- An id can be given out. -/
def IdFree (w : ProxyWorld) : Prop := IdFreeWithin myIdMaxNum w.myId w

instance (w : ProxyWorld) : Decidable (IdFree w) :=
  inferInstanceAs (Decidable (IdFreeWithin _ _ _))

theorem getNewMyIdLoop_spec {w : ProxyWorld} {cnt : ℕ} {counter : UInt16}
    (h : IdFreeWithin cnt counter w) :
    let id := (getNewMyIdLoop w.littleEndian w.channels cnt counter).1
    IsMyId w.littleEndian id ∧ (∀ chan ∈ w.channels, chan.myId ≠ id) ∧
      ∀ call ∈ w.calls, call.chanNewId ≠ id.toInt32 := by
  induction cnt generalizing counter with
  | zero => exact h.elim
  | succ cnt ih =>
    unfold getNewMyIdLoop
    unfold IdFreeWithin at h
    simp only at h
    split at h
    · next hvalid =>
      rw [if_pos hvalid]
      simp only [myIdIsValid, all_eq_true, decide_eq_true_eq] at hvalid
      exact ⟨isMyId_ofCounter _ _, hvalid, h⟩
    · next hinvalid =>
      rw [if_neg hinvalid]
      exact ih h

/-! ## What a step does to the ids -/

/-- The channel keeps its ids. -/
structure ProxyChannelInfo.SameIds (a b : ProxyChannelInfo) : Prop where
  channelId : b.channelId = a.channelId
  myId : b.myId = a.myId

namespace ProxyChannelInfo

theorem SameIds.refl (a : ProxyChannelInfo) : a.SameIds a := ⟨rfl, rfl⟩

theorem SameIds.trans {a b c : ProxyChannelInfo} (hab : a.SameIds b) (hbc : b.SameIds c) :
    a.SameIds c := ⟨hbc.channelId.trans hab.channelId, hbc.myId.trans hab.myId⟩

theorem Follows.sameIds {a b : ProxyChannelInfo} (h : a.Follows b) : a.SameIds b :=
  ⟨h.channelId, h.myId⟩

theorem sameIds_bind (reqId connId : UInt32) (a : ProxyChannelInfo) : a.SameIds (a.bind reqId connId) := by
  unfold bind
  split
  · exact ⟨rfl, rfl⟩
  · exact .refl a

end ProxyChannelInfo

/-- The second half of an open call adds at most the channel with the id of the call. -/
theorem evolves_openFinish {n : ℕ} {call : OpenCall} {w : ProxyWorld} (h : w.calls[n]? = some call)
    (identity : Option String) (connected : Bool) :
    ∃ chan : ProxyChannelInfo, chan.channelId = call.chanNewId ∧
      chan.myId = call.chanNewId.toInt16 ∧ (chan :: w.channels).Evolves
        ProxyChannelInfo.SameIds (w.openFinish n identity connected).channels := by
  refine ⟨newChannel call (identity.getD "") w.nextUid, rfl, rfl, ?_⟩
  unfold openFinish
  rw [h]
  cases identity with
  | none => exact .of_sublist .refl (sublist_cons_self ..)
  | some identity =>
    -- the channel that is added, whatever its status and connection
    have hcons : ∀ chan : ProxyChannelInfo, chan.channelId = call.chanNewId →
        chan.myId = call.chanNewId.toInt16 →
        (newChannel call identity w.nextUid :: w.channels).Evolves
          ProxyChannelInfo.SameIds (chan :: w.channels) := fun chan hid hmy =>
      .cons ⟨hid, hmy⟩ (.refl .refl)
    cases hconn : call.conn with
    | some conn =>
      simp only [hconn]
      unfold transProxyConnExistProc
      split
      · exact hcons _ rfl rfl
      · exact hcons _ rfl rfl
    | none =>
      simp only [hconn]
      unfold transProxyOpenNewConnChannel
      simp only
      split
      · next item _ =>
        split
        · exact (hcons _ rfl rfl).trans (fun _ _ _ => .trans)
            (.of_map (ProxyChannelInfo.sameIds_bind _ _))
        · exact hcons _ rfl rfl
      · split
        · exact hcons _ rfl rfl
        · -- the request cannot be made: the channel is taken out again
          exact (hcons _ rfl rfl).trans (fun _ _ _ => .trans)
            (.of_sublist .refl eraseP_sublist)

/-! ## The invariant -/

/-- The ids of the channels and of the open calls are different ids of the numbers 1 to 100. -/
structure IdsUnique (w : ProxyWorld) : Prop where
  nodup : (w.calls.map (·.chanNewId) ++ w.channels.map (·.channelId)).Nodup
  channel : ∀ chan ∈ w.channels, IsMyId w.littleEndian chan.myId ∧ chan.channelId = chan.myId.toInt32
  call : ∀ call ∈ w.calls, ∃ id, IsMyId w.littleEndian id ∧ call.chanNewId = id.toInt32

/-- Steps that allocate an id find a free one. -/
def IdAvailable (w : ProxyWorld) : ProxyInput → Prop
  | .openLookup _ _ => IdFree w
  | .received msg _ => msg.msgHead.type = .handshake → IdFree w
  | _ => True

theorem idsUnique_init (littleEndian : Bool) : IdsUnique (.init littleEndian) := by
  refine ⟨nodup_nil, ?_, ?_⟩
  · intro chan h
    exact absurd h not_mem_nil
  · intro call h
    exact absurd h not_mem_nil

namespace IdsUnique
variable {w w' : ProxyWorld}

section
variable (h : IdsUnique w)
include h

/-- Channels that stay keep their ids. -/
theorem evolve (hle : w'.littleEndian = w.littleEndian) (hcalls : w'.calls = w.calls)
    (hchannels : w.channels.Evolves ProxyChannelInfo.SameIds w'.channels) : IdsUnique w' where
  nodup := by
    rw [hcalls]
    have hsub : (w'.channels.map (·.channelId)).Sublist (w.channels.map (·.channelId)) :=
      hchannels.map_sublist fun a b hab => hab.channelId
    exact h.nodup.sublist (hsub.append_left _)
  channel := by
    intro b hb
    obtain ⟨a, ha, hab⟩ := hchannels.exists_of_mem hb
    rw [hle, hab.myId, hab.channelId]
    exact h.channel a ha
  call := by
    rw [hcalls, hle]
    exact h.call

theorem quiet (hq : w.Quiet w') : IdsUnique w' :=
  h.evolve hq.littleEndian hq.calls (hq.channels.mono fun _ _ hab => hab.sameIds)

/-- An id that is free is new. -/
theorem fresh (hfree : IdFree w) :
    let id := (transProxyGetNewMyId w.littleEndian w.channels w.myId).1
    IsMyId w.littleEndian id ∧
      id.toInt32 ∉ w.calls.map (·.chanNewId) ++ w.channels.map (·.channelId) := by
  obtain ⟨hid, hchannels, hcalls⟩ := getNewMyIdLoop_spec hfree
  refine ⟨hid, ?_⟩
  rw [mem_append, mem_map, mem_map]
  intro hmem
  cases hmem with
  | inl hmem =>
    obtain ⟨call, hcall, heq⟩ := hmem
    exact hcalls call hcall heq
  | inr hmem =>
    obtain ⟨chan, hchan, heq⟩ := hmem
    -- the channel id is the extended `myId`
    rw [(h.channel chan hchan).2] at heq
    apply hchannels chan hchan
    rw [← Int16.toInt16_toInt32 chan.myId, heq, Int16.toInt16_toInt32]
    rfl

theorem openLookup (hfree : IdFree w) (appInfo : AppInfo) (option : ConnectOption) :
    IdsUnique (w.openLookup appInfo option) := by
  obtain ⟨hid, hnew⟩ := h.fresh hfree
  refine ⟨?_, h.channel, ?_⟩
  · simp only [ProxyWorld.openLookup, List.map_append, List.map_cons, List.map_nil]
    rw [append_assoc, singleton_append, nodup_middle, nodup_cons]
    exact ⟨hnew, h.nodup⟩
  · intro call hcall
    simp only [ProxyWorld.openLookup, List.mem_append, List.mem_singleton] at hcall
    cases hcall with
    | inl hcall => exact h.call call hcall
    | inr hcall => exact ⟨_, hid, by rw [hcall]⟩

/-- One more channel with an id that nobody has. -/
theorem add {chan : ProxyChannelInfo} (hid : IsMyId w.littleEndian chan.myId)
    (hchan : chan.channelId = chan.myId.toInt32)
    (hnew : chan.channelId ∉ w.calls.map (·.chanNewId) ++ w.channels.map (·.channelId))
    (hle : w'.littleEndian = w.littleEndian) (hcalls : w'.calls = w.calls)
    (hchannels : w'.channels = chan :: w.channels) : IdsUnique w' where
  nodup := by
    rw [hcalls, hchannels, map_cons, nodup_middle, nodup_cons]
    exact ⟨hnew, h.nodup⟩
  channel := by
    intro b hb
    rw [hchannels] at hb
    rw [hle]
    cases hb with
    | head => exact ⟨hid, hchan⟩
    | tail _ hb => exact h.channel b hb
  call := by
    rw [hcalls, hle]
    exact h.call

theorem handshake (hfree : IdFree w) {msg : ProxyMessage} (env : MsgEnv)
    (htype : msg.msgHead.type = .handshake) : IdsUnique (w.transProxyOnDataReceived msg env) := by
  obtain ⟨hid, hnew⟩ := h.fresh hfree
  apply received_handshake htype h
  intro identity appInfo info
  obtain ⟨hle, hcalls, -, -⟩ := w.frame_acceptHandshake msg env identity appInfo info
  have hchannels := w.channels_acceptHandshake msg env identity appInfo info
  split at hchannels
  · exact h.add hid rfl hnew hle hcalls hchannels
  · refine h.evolve hle hcalls ?_
    rw [hchannels]
    exact .refl .refl

/-- The id of an open call goes over to its channel. -/
theorem openFinish (n : ℕ) (identity : Option String) (connected : Bool) :
    IdsUnique (w.openFinish n identity connected) := by
  cases hcall : w.calls[n]? with
  | none =>
    unfold ProxyWorld.openFinish
    rw [hcall]
    exact h
  | some call =>
    obtain ⟨hn, hget⟩ := List.getElem?_eq_some_iff.1 hcall
    obtain ⟨chan, hid, hmy, hchannels⟩ := evolves_openFinish hcall identity connected
    obtain ⟨hle, hcalls⟩ := frame_openFinish hcall identity connected
    obtain ⟨id, hisId, hidEq⟩ := h.call call (hget ▸ getElem_mem hn)
    -- the state in which the channel has been added under the id of the call
    have hmid : IdsUnique { w with calls := w.calls.eraseIdx n, channels := chan :: w.channels } := by
      refine ⟨?_, ?_, ?_⟩
      · have hperm : ((w.calls.eraseIdx n).map (·.chanNewId) ++
            (chan :: w.channels).map (·.channelId)).Perm
            (w.calls.map (·.chanNewId) ++ w.channels.map (·.channelId)) := by
          have hcallPerm := (getElem_cons_eraseIdx_perm hn).map (·.chanNewId)
          rw [hget] at hcallPerm
          rw [map_cons, hid]
          exact perm_middle.trans (hcallPerm.append_right _)
        exact hperm.nodup_iff.2 h.nodup
      · intro b hb
        cases hb with
        | head =>
          rw [hmy, hid, hidEq, Int16.toInt16_toInt32]
          exact ⟨hisId, rfl⟩
        | tail _ hb => exact h.channel b hb
      · intro c hc
        exact h.call c (eraseIdx_subset hc)
    exact hmid.evolve hle hcalls hchannels

theorem step {input : ProxyInput} (hok : IdAvailable w input) : IdsUnique (w.step input) := by
  cases input with
  | openLookup appInfo option => exact h.openLookup hok appInfo option
  | openFinish n identity connected => exact h.openFinish n identity connected
  | connectSuccessed requestId connectionId =>
    exact h.evolve rfl rfl (.of_map (ProxyChannelInfo.sameIds_bind _ _))
  | received msg env =>
    by_cases htype : msg.msgHead.type = .handshake
    · exact h.handshake (hok htype) env htype
    · exact h.quiet (quiet_step htype)
  | connectFailed | disconnected | send | close | death | tick | loop => exact h.quiet (quiet_step trivial)

/-- Different channel ids are different ids on the wire. -/
theorem nodup_myId : (w.channels.map (·.myId)).Nodup := by
  have heq : w.channels.map (·.channelId) = (w.channels.map (·.myId)).map Int16.toInt32 := by
    rw [map_map]
    exact map_congr_left fun chan hchan => (h.channel chan hchan).2
  have hnodup := (nodup_append.1 h.nodup).2.1
  rw [heq] at hnodup
  exact .of_map _ hnodup

end
end IdsUnique

/-! ## Runs -/

/-- The two steps of a call that opens a channel. -/
def openCall (appInfo : AppInfo) (option : ConnectOption) : List ProxyInput :=
  [.openLookup appInfo option, .openFinish 0 (some "identity") true]

instance (w : ProxyWorld) (input : ProxyInput) : Decidable (IdAvailable w input) := by
  unfold IdAvailable
  cases input <;> infer_instance

/-- A peer that is reached over BR. -/
def sampleOption : ConnectOption := ⟨.br, [0x41], 0, 0⟩

end SoftBus.Native
