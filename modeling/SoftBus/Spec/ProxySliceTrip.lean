import SoftBus.ForStd.Chunks
import SoftBus.Spec.ProxySlots

/-!
# The slices of a packet on their way

The slices that `TransProxyTransAppNormalMsg` sends for a packet come to the slot of their
channel and priority in order, with anything for other slots between them.  The receiver
refuses a message with a slice of 16 bytes or less, so a packet whose last slice is that
short is never put together; `Deliverable` says which packets are.
-/

namespace SoftBus.Native
open List Bytes Chunks SliceWorld
variable {data payLoad : List UInt8} {k : ℕ} {c : Int32} {i : ProxyChannelPriority} {w w' : SliceWorld}
  {head : SliceHead} {p' : SliceProcessor} {events : List SliceEvent} {flag : ProxyPacketType}
  {channelId : Int32} {index : ProxyChannelPriority}

/-! ## Heads -/

/-- A word is read back from where it was written. -/
theorem wordAt_packWord (before after : List UInt8) (v : Int32) :
    wordAt (before ++ (packWord v ++ after)) before.length = v := by
  have hlen : (packWord v).length = 4 := length_toLE 4 _
  have hlt : v.toUInt32.toNat < 256 ^ 4 := v.toUInt32.toNat_lt
  rw [wordAt, drop_left, take_left' hlen, packWord, ofLE_toLE_of_lt hlt,
    UInt32.ofNat_toNat, Int32.toInt32_toUInt32]

theorem length_packWord (v : Int32) : (packWord v).length = 4 := length_toLE 4 _

section
variable (head)

theorem length_packSliceHead : (packSliceHead head).length = sliceHeadLen := by
  simp [packSliceHead, length_packWord, sliceHeadLen]

theorem unPackSliceHead_packSliceHead : unPackSliceHead (packSliceHead head ++ data) = head := by
  obtain ⟨priority, sliceNum, sliceSeq, reserved⟩ := head
  have h0 := wordAt_packWord []
  have h1 := wordAt_packWord (packWord priority) (packWord sliceSeq ++ (packWord reserved ++ data))
  have h2 := wordAt_packWord (packWord priority ++ packWord sliceNum) (packWord reserved ++ data)
  have h3 := wordAt_packWord (packWord priority ++ (packWord sliceNum ++ packWord sliceSeq)) data
  simp only [length_append, length_packWord, append_assoc, nil_append,
    length_nil, Nat.reduceAdd] at h0 h1 h2 h3
  simp only [unPackSliceHead, packSliceHead, append_assoc, h0, h1, h2, h3]

theorem drop_packSliceHead : (packSliceHead head ++ data).drop sliceHeadLen = data :=
  drop_left' (length_packSliceHead head)

end

/-- An id is read back from where it was written. -/
theorem idAt_packed (before after : List UInt8) (id : Int16) :
    idAt (before ++ (toLE 2 id.toUInt16.toNat ++ after)) before.length = id := by
  have hlt : id.toUInt16.toNat < 256 ^ 2 := id.toUInt16.toNat_lt
  rw [idAt, drop_left, take_left' (length_toLE 2 _), ofLE_toLE_of_lt hlt,
    UInt16.ofNat_toNat, Int16.toInt16_toUInt16]

/-- The receiver reads the type and both ids of a message, with the ids in its own order. -/
theorem parseMessageHead_packed (myId peerId : Int16) (hdata : data ≠ []) :
    transProxyParseMessageHead
        (packProxyMessageHead (.mkType .normal 0 myId peerId) ++ data) =
      some (⟨.normal, 0, peerId, myId⟩, data) := by
  have hpos := length_pos_iff.2 hdata
  generalize hhead : packProxyMessageHead (.mkType .normal 0 myId peerId) = head
  have hlen : head.length = proxyChannelHeadLen := by simp [← hhead, packProxyMessageHead, proxyChannelHeadLen]
  have hmy : idAt (head ++ data) 2 = myId := hhead ▸ idAt_packed [16, 0] _ myId
  have hpeer : idAt (head ++ data) 4 = peerId := by
    have hid := idAt_packed ([16, 0] ++ toLE 2 myId.toUInt16.toNat)
      (toLE 2 (0 : Int16).toUInt16.toNat ++ data) peerId
    rw [length_append] at hid
    exact hhead ▸ hid
  have hfirst : (head ++ data).getD 0 0 = 16 := hhead ▸ rfl
  have hchiper : (head ++ data).getD 1 0 = 0 := hhead ▸ rfl
  have htype : MsgType.ofCode (16 &&& fourBitMask) = some .normal := by decide
  unfold transProxyParseMessageHead
  rw [if_neg (by rw [length_append]; omega), hfirst]
  rw [if_neg (by decide), htype, hmy, hpeer, hchiper, drop_left' hlen]

/-! ## Sending -/

/-- The number of slices of a packet. -/
def sliceCount (payLoad : List UInt8) : ℕ := Chunks.count maxSendLength payLoad

/-- Slice `k` of a packet. -/
def sliceAt (payLoad : List UInt8) (k : ℕ) : List UInt8 := Chunks.chunk maxSendLength payLoad k

theorem sliceAt_ne_nil (hk : k < sliceCount payLoad) : sliceAt payLoad k ≠ [] :=
  chunk_ne_nil (by decide) hk

theorem length_sliceAt_of_lt (hk : k + 1 < sliceCount payLoad) :
    (sliceAt payLoad k).length = maxSendLength :=
  length_chunk_of_lt (by decide) hk

theorem flatten_sliceAt : ((range k).map (sliceAt payLoad)).flatten = payLoad.take (maxSendLength * k) :=
  flatten_chunks maxSendLength k payLoad

theorem length_le_sliceCount (payLoad : List UInt8) :
    payLoad.length ≤ maxSendLength * sliceCount payLoad :=
  length_le_count (by decide) payLoad

/-- The slices together are the packet. -/
theorem flatten_slices (payLoad : List UInt8) :
    ((range (sliceCount payLoad)).map (sliceAt payLoad)).flatten = payLoad := by
  rw [flatten_sliceAt, take_of_length_le (length_le_sliceCount payLoad)]

theorem sliceData_eq (hk : k < sliceCount payLoad) :
    sliceData payLoad (sliceCount payLoad) k = sliceAt payLoad k := by
  unfold sliceData sliceAt chunk
  split
  · rw [Nat.mul_comm k]
    split
    · next hlast =>
      have hend := length_le_sliceCount payLoad
      rw [show sliceCount payLoad = k + 1 by omega, Nat.mul_succ] at hend
      rw [take_of_length_le (Nat.le_of_eq length_drop), take_of_length_le]
      rw [length_drop]
      omega
    · rfl
  · next hone =>
    have hend : ¬maxSendLength * 1 < payLoad.length := fun h =>
      hone ((lt_count (by decide)).2 h)
    obtain rfl : k = 0 := by omega
    rw [Nat.mul_zero, drop_zero, take_of_length_le (by omega)]

/-- The head of slice `k`. -/
def sliceHeadAt (index : ProxyChannelPriority) (payLoad : List UInt8) (k : ℕ) : SliceHead :=
  ⟨.ofNat index, .ofNat (sliceCount payLoad), .ofNat k, 0⟩

/-- Slice `k` behind its head. -/
def slicePacket (index : ProxyChannelPriority) (payLoad : List UInt8) (k : ℕ) : List UInt8 :=
  packSliceHead (sliceHeadAt index payLoad k) ++ sliceAt payLoad k

theorem transAppNormalLoop_ok (msgHead : ProxyMessageHead) {left i : ℕ} (h : i + left = sliceCount payLoad) :
    transAppNormalLoop msgHead payLoad flag (fun _ => .ok) (sliceCount payLoad) left i =
      (.ok, (range' i left).map fun k =>
        packProxyMessageHead msgHead ++ slicePacket (proxyTypeToProxyIndex flag) payLoad k) := by
  induction left generalizing i with
  | zero => rfl
  | succ left ih =>
    rw [transAppNormalLoop, ih (by omega)]
    simp only [range'_succ, map_cons, slicePacket, sliceHeadAt, transProxyPackAppNormalMsg,
      sliceData_eq (show i < sliceCount payLoad by omega)]

/-- What the receiving channel gets of the messages that were sent. -/
def receivedData (sent : List (List UInt8)) : List (List UInt8) :=
  sent.filterMap fun msg => (transProxyParseMessageHead msg).map Prod.snd

theorem receivedData_transAppNormalMsg (myId peerId : Int16) :
    receivedData (transProxyTransAppNormalMsg myId peerId payLoad flag fun _ => .ok).2 =
      (range (sliceCount payLoad)).map (slicePacket (proxyTypeToProxyIndex flag) payLoad) := by
  unfold transProxyTransAppNormalMsg
  rw [show (payLoad.length + maxSendLength - 1) / maxSendLength = sliceCount payLoad from rfl]
  rw [transAppNormalLoop_ok _ (Nat.zero_add _), receivedData, filterMap_map,
    ← range_eq_range', ← filterMap_eq_map]
  apply filterMap_congr
  intro k hk
  have hne : slicePacket (proxyTypeToProxyIndex flag) payLoad k ≠ [] := by
    intro he
    have hlen := congrArg length he
    rw [slicePacket, length_append, length_packSliceHead, sliceHeadLen, length_nil] at hlen
    omega
  rw [Function.comp_apply, parseMessageHead_packed myId peerId hne]
  rfl

/-! ## Receiving a slice -/

/-- The packet that an event hands on from a slot. -/
def SliceEvent.handed? (channelId : Int32) (index : ProxyChannelPriority) :
    SliceEvent → Option (List UInt8)
  | .noSubPacket c i _ data => if c = channelId ∧ i = index then some data else none
  | _ => none

/-- The packets that were handed on from a slot. -/
def handedTo (channelId : Int32) (index : ProxyChannelPriority) (trace : List SliceEvent) :
    List (List UInt8) :=
  trace.filterMap (SliceEvent.handed? channelId index)

theorem handedTo_append (trace : List SliceEvent) : handedTo channelId index (trace ++ events) =
      handedTo channelId index trace ++ handedTo channelId index events :=
  filterMap_append

@[simp] theorem handedTo_noSubPacket (assembled : Bool) :
    handedTo channelId index (.noSubPacket channelId index assembled data :: events) =
      data :: handedTo channelId index events := by
  simp [handedTo, SliceEvent.handed?]

theorem handedTo_noSubPacket_other (hne : (channelId, index) ≠ (c, i)) (assembled : Bool) :
    handedTo channelId index (.noSubPacket c i assembled data :: events) =
      handedTo channelId index events := by
  have hnone : SliceEvent.handed? channelId index (.noSubPacket c i assembled data) = none :=
    if_neg fun he => hne (by rw [he.1, he.2])
  rw [handedTo, filterMap_cons_none hnone, ← handedTo]

@[simp] theorem handedTo_slice (sliceNum sliceSeq : Int32) :
    handedTo channelId index (.slice c i sliceNum sliceSeq data :: events) =
      handedTo channelId index events := rfl

theorem handed?_of_ofSession {e : SliceEvent} (h : e.ofSession = true) : e.handed? channelId index = none := by
  cases e with
  | noSubPacket => simp [SliceEvent.ofSession] at h
  | _ => rfl

theorem handedTo_session {session : List SliceEvent} (h : ∀ e ∈ session, e.ofSession = true) : handedTo channelId index session = [] :=
  filterMap_eq_nil_iff.2 fun e he => handed?_of_ofSession (h e he)

theorem handedTo_noSubPacketProc (env : SliceEnv) :
    handedTo channelId index (transProxyNoSubPacketProc env c data).2 = [] :=
  handedTo_session (fun _ => ofSession_transProxyNoSubPacketProc)

section
variable {env : SliceEnv} {channelId : Int32} {index : ProxyChannelPriority} (hlen : payLoad.length < 2 ^ 31)
  (hk : k < sliceCount payLoad)
include hlen in
/-- The numbers of slices are small. -/
theorem sliceCount_lt : sliceCount payLoad < 2 ^ 22 := by
  unfold sliceCount Chunks.count maxSendLength
  omega

section
include hlen hk

theorem toInt_sliceHeadAt :
    (sliceHeadAt index payLoad k).sliceNum.toInt = sliceCount payLoad ∧
      (sliceHeadAt index payLoad k).sliceSeq.toInt = k := by
  have hcount := sliceCount_lt hlen
  exact ⟨Int32.toInt_ofNat_of_lt (by omega), Int32.toInt_ofNat_of_lt (by omega)⟩

theorem sliceSeq_ne_zero (index : ProxyChannelPriority)
    (hpos : 0 < k) : (sliceHeadAt index payLoad k).sliceSeq ≠ 0 := by
  rw [Ne, ← Int32.toInt_inj, (toInt_sliceHeadAt hlen hk).2]
  change ¬(k : ℤ) = 0
  omega

/-- The last slice is known by its place. -/
theorem sliceNum_eq_succ (index : ProxyChannelPriority) :
    (sliceHeadAt index payLoad k).sliceNum = (sliceHeadAt index payLoad k).sliceSeq + 1 ↔
      k + 1 = sliceCount payLoad := by
  have hcount := sliceCount_lt hlen
  have hsucc : (sliceHeadAt index payLoad k).sliceSeq + 1 = .ofNat (k + 1) := (Int32.ofNat_add k 1).symm
  rw [hsucc, ← Int32.toInt_inj, (toInt_sliceHeadAt hlen hk).1, Int32.toInt_ofNat_of_lt (by omega)]
  omega

theorem check_sliceHeadAt : transProxyCheckSliceHead (sliceHeadAt index payLoad k) = .ok := by
  have hall : ∀ i : ProxyChannelPriority, ¬(Int32.ofNat i < 0 ∨ Int32.ofNat i ≥ 3) := by decide
  have hpri : ¬((sliceHeadAt index payLoad k).priority < 0 ∨
      (sliceHeadAt index payLoad k).priority ≥ 3) := hall index
  have hseq : ¬((sliceHeadAt index payLoad k).sliceNum ≠ 1 ∧
      (sliceHeadAt index payLoad k).sliceSeq ≥ (sliceHeadAt index payLoad k).sliceNum) := by
    intro h
    have hle := Int32.le_iff_toInt_le.1 h.2
    rw [(toInt_sliceHeadAt hlen hk).1, (toInt_sliceHeadAt hlen hk).2] at hle
    omega
  unfold transProxyCheckSliceHead
  rw [if_neg hpri, if_neg hseq]

/-- What the receiver does with a slice. -/
theorem received_slicePacket : (transOnNormalMsgReceived env channelId (slicePacket index payLoad k) w).2 =
      if (sliceAt payLoad k).length ≤ 16 then w else if sliceCount payLoad = 1 then
        { w with trace := w.trace ++ .noSubPacket channelId index false (sliceAt payLoad k) ::
            (transProxyNoSubPacketProc env channelId (sliceAt payLoad k)).2 }
      else (transProxySubPacketProc env channelId index (sliceHeadAt index payLoad k)
        (sliceAt payLoad k) w).2 := by
  have hshort : (slicePacket index payLoad k).length ≤ packetHeadLen + sliceHeadLen ↔
      (sliceAt payLoad k).length ≤ 16 := by
    rw [slicePacket, length_append, length_packSliceHead, packetHeadLen]
    omega
  have hindex : (sliceHeadAt index payLoad k).index = index := by
    have hall : ∀ i : ProxyChannelPriority, Fin.ofNat 3 (Int32.ofNat i).toNatClampNeg = i := by decide
    exact hall index
  have hone : (sliceHeadAt index payLoad k).sliceNum = 1 ↔ sliceCount payLoad = 1 := by
    rw [← Int32.toInt_inj, (toInt_sliceHeadAt hlen hk).1]
    change (sliceCount payLoad : ℤ) = 1 ↔ _
    omega
  unfold transOnNormalMsgReceived
  by_cases hle : (sliceAt payLoad k).length ≤ 16
  · rw [if_pos (hshort.2 hle), if_pos hle]
  rw [if_neg (mt hshort.1 hle), if_neg hle]
  dsimp only
  rw [slicePacket, unPackSliceHead_packSliceHead, drop_packSliceHead, check_sliceHeadAt hlen hk,
    if_neg (by simp), hindex]
  by_cases hn : sliceCount payLoad = 1
  · rw [if_pos (hone.2 hn), if_pos hn]
  · rw [if_neg (mt hone.1 hn), if_neg hn]

end

/-- What the slot holds after `k` slices of the packet: all of them, as long as they fit. -/
structure SlotPhase (channelId : Int32) (index : ProxyChannelPriority) (payLoad : List UInt8) (k : ℕ)
    (w : SliceWorld) : Prop where
  fits : 0 < k → k < sliceCount payLoad → maxSendLength * k ≤ slotMaxLen index →
    ∃ timeout, w.slot channelId index = assembling index (.ofNat (sliceCount payLoad))
      ((List.range k).map (sliceAt payLoad)) timeout
  clear : 0 < k → k < sliceCount payLoad → slotMaxLen index < maxSendLength * k →
    w.slot channelId index = .clear

variable (hw : SlotPhase channelId index payLoad k w)

theorem slotPhase_of_le (hk : sliceCount payLoad ≤ k) :
    SlotPhase channelId index payLoad k w where
  fits _ hlt := absurd hlt (Nat.not_lt.2 hk)
  clear _ hlt := absurd hlt (Nat.not_lt.2 hk)

/-- The packets that the receiver puts together. -/
def Deliverable (index : ProxyChannelPriority) (len : ℕ) : Prop :=
  0 < len ∧ len ≤ slotMaxLen index ∧ (len % maxSendLength = 0 ∨ 16 < len % maxSendLength)

instance (index : ProxyChannelPriority) (len : ℕ) : Decidable (Deliverable index len) :=
  inferInstanceAs (Decidable (_ ∧ _))

/-- The last slice is long enough exactly if its packet is not a few bytes longer than full
    slices. -/
theorem lt_length_last (hk : k + 1 = sliceCount payLoad) :
    16 < (sliceAt payLoad k).length ↔
      payLoad.length % maxSendLength = 0 ∨ 16 < payLoad.length % maxSendLength := by
  have hstart : maxSendLength * k < payLoad.length :=
    (lt_count (by decide)).1 (show k < sliceCount payLoad by omega)
  have hend : payLoad.length ≤ maxSendLength * (k + 1) := by
    rw [hk]
    exact length_le_sliceCount payLoad
  rw [sliceAt, length_chunk]
  unfold maxSendLength at hstart hend ⊢
  omega

/-- The slot and the journal after a slice of several. -/
theorem subPacket_slot (hw' : (transProxySubPacketProc env channelId index head data w).2 = w')
    (hdata : data ≠ []) {ret : TransErr}
    (hproc : (w.slot channelId index).proc env channelId index head data = (ret, p', events)) :
    w'.slot channelId index = p' ∧ w'.trace = w.trace ++ events := by
  obtain ⟨w'', heq, htrace, hslot⟩ := slot_transProxySubPacketProc head hdata hproc
  rw [← hw', heq, hslot, if_pos rfl]
  exact ⟨rfl, htrace⟩

/-- A slice that its slot refuses hands nothing on. -/
theorem subPacket_refused (hw' : (transProxySubPacketProc env channelId index head data w).2 = w')
    (hdata : data ≠ []) (hseq : head.sliceSeq ≠ 0)
    (hchk : transProxySliceProcessChkPkgIsValid (w.slot channelId index) head data ≠ .ok ∨ (w.slot channelId index).append data = none) :
    w'.slot channelId index = .clear ∧ handedTo channelId index w'.trace = handedTo channelId index w.trace := by
  obtain ⟨ret, -, heq⟩ := proc_refused env channelId index hseq hchk
  obtain ⟨hslot, htrace⟩ := subPacket_slot hw' hdata heq
  refine ⟨hslot, ?_⟩
  rw [htrace, handedTo_append]
  exact append_nil _

section

/-- The first of several slices starts the packet. -/
theorem subPacket_first (hn : 1 < sliceCount payLoad) (hw' : (transProxySubPacketProc env channelId index
      (sliceHeadAt index payLoad 0) (sliceAt payLoad 0) w).2 = w') :
    SlotPhase channelId index payLoad 1 w' ∧ handedTo channelId index w'.trace = handedTo channelId index w.trace := by
  have hmin : ∀ i : ProxyChannelPriority, maxSendLength ≤ slotMaxLen i := by decide
  have hpri : (sliceHeadAt index payLoad 0).priority = .ofNat index := rfl
  have hproc := proc_first env channelId hpri rfl (sliceAt payLoad 0) (w.slot channelId index)
  rw [if_pos (by rw [length_sliceAt_of_lt hn]; exact hmin index)] at hproc
  obtain ⟨hslot, htrace⟩ := subPacket_slot hw' (sliceAt_ne_nil (by omega)) hproc
  have hmul : maxSendLength * 1 ≤ slotMaxLen index := by
    exact hmin index
  refine ⟨⟨fun _ _ _ => ⟨0, hslot⟩, fun _ _ hlt => absurd hlt (Nat.not_lt.2 hmul)⟩, ?_⟩
  rw [htrace, handedTo_append]
  exact append_nil _

theorem length_flatten_sliceAt (hk : k < sliceCount payLoad) :
    ((range k).map (sliceAt payLoad)).flatten.length = maxSendLength * k := by
  have hstart : maxSendLength * k < payLoad.length := (lt_count (by decide)).1 hk
  rw [flatten_sliceAt, length_take]
  omega

variable (hw' : (transProxySubPacketProc env channelId index (sliceHeadAt index payLoad k) (sliceAt payLoad k) w).2 = w')
include hlen hk hw hw' in
/-- A slice that does not fit behind those that came, or comes to a slot that was cleared
    because an earlier one did not fit, is refused. -/
theorem subPacket_too_long (hpos : 0 < k)
    (hlong : slotMaxLen index < maxSendLength * k + (sliceAt payLoad k).length) :
    w'.slot channelId index = .clear ∧ handedTo channelId index w'.trace = handedTo channelId index w.trace := by
  have hseq := sliceSeq_ne_zero hlen hk index hpos
  apply subPacket_refused hw' (sliceAt_ne_nil hk) hseq
  by_cases hfit : maxSendLength * k ≤ slotMaxLen index
  · obtain ⟨timeout, hslot⟩ := hw.fits hpos hk hfit
    rw [hslot, append_assembling _ _ (by rwa [length_flatten_sliceAt hk]) (sliceAt_ne_nil hk),
      length_flatten_sliceAt hk, if_neg (by omega)]
    exact .inr rfl
  · rw [hw.clear hpos hk (Nat.not_le.1 hfit), chk_clear hseq]
    exact .inl (by simp)

include hlen hk hw hw' in
/-- A slice that fits is appended, and the last one hands the packet on. -/
theorem subPacket_fits (hpos : 0 < k)
    (hfit : maxSendLength * k + (sliceAt payLoad k).length ≤ slotMaxLen index) :
    SlotPhase channelId index payLoad (k + 1) w' ∧ handedTo channelId index w'.trace =
        handedTo channelId index w.trace ++ if k + 1 = sliceCount payLoad then [payLoad] else [] := by
  have hseq := sliceSeq_ne_zero hlen hk index hpos
  have hdata := sliceAt_ne_nil hk
  obtain ⟨timeout, hslot⟩ := hw.fits hpos hk (by omega)
  have hroom : ((range k).map (sliceAt payLoad)).flatten.length + (sliceAt payLoad k).length ≤
      slotMaxLen index := by rwa [length_flatten_sliceAt hk]
  have hparts : (range k).map (sliceAt payLoad) ++ [sliceAt payLoad k] =
      (range (k + 1)).map (sliceAt payLoad) := by
    rw [range_succ, map_append]
    rfl
  have hchk : transProxySliceProcessChkPkgIsValid (w.slot channelId index)
      (sliceHeadAt index payLoad k) (sliceAt payLoad k) = .ok := by
    rw [hslot]
    apply chk_assembling_next timeout rfl _ hroom
    rw [length_map, length_range]
    rfl
  have happend := append_assembling (.ofNat (sliceCount payLoad)) timeout
    (Nat.le_of_add_right_le hroom) hdata
  rw [if_pos hroom, ← hslot, hparts] at happend
  by_cases hlast : k + 1 = sliceCount payLoad
  · obtain ⟨ret, session, hsession, heq⟩ := proc_last env channelId index hseq
      ((sliceNum_eq_succ hlen hk index).2 hlast) hchk happend
    obtain ⟨-, htrace⟩ := subPacket_slot hw' hdata heq
    refine ⟨slotPhase_of_le (Nat.le_of_eq hlast.symm), ?_⟩
    have hwhole : ((range (k + 1)).map (sliceAt payLoad)).flatten = payLoad := by
      rw [hlast, flatten_slices]
    have hevents : handedTo channelId index (session ++ [.cleared channelId index]) = [] := by
      rw [handedTo_append, handedTo_session hsession]
      rfl
    rw [htrace, handedTo_append, handedTo_slice, handedTo_noSubPacket, hevents, if_pos hlast]
    exact congrArg (fun packet => _ ++ [packet]) hwhole
  · have heq := proc_append env channelId index hseq
      (mt (sliceNum_eq_succ hlen hk index).1 hlast) hchk happend
    obtain ⟨hslot', htrace⟩ := subPacket_slot hw' hdata heq
    rw [htrace, handedTo_append, if_neg hlast]
    refine ⟨⟨fun _ _ _ => ⟨0, hslot'⟩, fun _ hlt hlong => ?_⟩, rfl⟩
    rw [length_sliceAt_of_lt hlt] at hfit
    exact absurd hlong (Nat.not_lt.2 hfit)

include hlen hk hw in
/-- One slice more: the slot goes on, and the packet is handed on with the last slice if it is
    deliverable. -/
theorem received_slice (env : SliceEnv) :
    SlotPhase channelId index payLoad (k + 1)
        (transOnNormalMsgReceived env channelId (slicePacket index payLoad k) w).2 ∧
      handedTo channelId index
          (transOnNormalMsgReceived env channelId (slicePacket index payLoad k) w).2.trace =
        handedTo channelId index w.trace ++
          if k + 1 = sliceCount payLoad ∧ Deliverable index payLoad.length then [payLoad] else [] := by
  have hend : maxSendLength * k + (sliceAt payLoad k).length =
      min (maxSendLength * (k + 1)) payLoad.length := chunk_end (by decide) hk
  have hmin : ∀ i : ProxyChannelPriority, maxSendLength ≤ slotMaxLen i := by decide
  rw [received_slicePacket hlen hk]
  by_cases hshort : (sliceAt payLoad k).length ≤ 16
  · -- only the last slice is ever that short
    have hlast : k + 1 = sliceCount payLoad := by
      by_contra hne
      rw [length_sliceAt_of_lt (show k + 1 < sliceCount payLoad by omega)] at hshort
      exact absurd hshort (by decide)
    rw [if_pos hshort, if_neg, append_nil]
    · exact ⟨slotPhase_of_le (Nat.le_of_eq hlast.symm), rfl⟩
    · intro h
      exact absurd ((lt_length_last hlast).2 h.2.2.2) (by omega)
  rw [if_neg hshort]
  by_cases hone : sliceCount payLoad = 1
  · -- the only slice is the packet
    obtain rfl : k = 0 := by omega
    have hwhole : sliceAt payLoad 0 = payLoad := by
      have hflat := flatten_slices payLoad
      rw [hone] at hflat
      simpa using hflat
    have hle := length_le_sliceCount payLoad
    rw [hone] at hle
    have hdeliver : Deliverable index payLoad.length :=
      ⟨by omega, Nat.le_trans hle (hmin index), (lt_length_last hone.symm).1 (by omega)⟩
    rw [if_pos hone, if_pos ⟨hone.symm, hdeliver⟩]
    refine ⟨slotPhase_of_le (Nat.le_of_eq hone), ?_⟩
    rw [handedTo_append, handedTo_noSubPacket, handedTo_noSubPacketProc, hwhole]
  rw [if_neg hone]
  by_cases hpos : k = 0
  · subst hpos
    obtain ⟨hphase, hhanded⟩ := subPacket_first (show 1 < sliceCount payLoad by omega) rfl
    refine ⟨hphase, ?_⟩
    rw [hhanded, if_neg (fun h => by omega), append_nil]
  · by_cases hfit : maxSendLength * k + (sliceAt payLoad k).length ≤ slotMaxLen index
    · obtain ⟨hphase, hhanded⟩ := subPacket_fits hlen hk hw rfl (by omega) hfit
      refine ⟨hphase, ?_⟩
      rw [hhanded]
      by_cases hlast : k + 1 = sliceCount payLoad
      · have hle := length_le_sliceCount payLoad
        rw [← hlast] at hle
        have hdeliver : Deliverable index payLoad.length :=
          ⟨by omega, by omega, (lt_length_last hlast).1 (by omega)⟩
        rw [if_pos hlast, if_pos ⟨hlast, hdeliver⟩]
      · rw [if_neg hlast, if_neg fun h => hlast h.1]
    · obtain ⟨hslot, hhanded⟩ := subPacket_too_long hlen hk hw rfl (by omega) (by omega)
      refine ⟨⟨fun _ hlt hle => ?_, fun _ _ _ => hslot⟩, ?_⟩
      · rw [length_sliceAt_of_lt hlt] at hfit
        exact absurd hle hfit
      · rw [hhanded, if_neg, append_nil]
        intro h
        have hle := h.2.2.1
        omega

end
end

/-! ## Other inputs -/

/-- What an input brings for a slot: a message of its channel and priority. -/
def SliceInput.addressedTo (channelId : Int32) (index : ProxyChannelPriority) :
    SliceInput → Option (List UInt8)
  | .received _ c packet =>
    if c = channelId ∧ (unPackSliceHead packet.1).priority = .ofNat index then some packet.1 else none
  | _ => none

/-- The slot does not run out of time, and its channel stays. -/
def Calm (channelId : Int32) (index : ProxyChannelPriority) (w : SliceWorld) : SliceInput → Prop
  | .received .. => True
  | .tick => (w.slot channelId index).tick.2 = false
  | .delete c => c ≠ channelId

section
variable {channelId : Int32} {index : ProxyChannelPriority}

/-- A phase is a matter of the slot, whatever its timer. -/
theorem SlotPhase.congr (hw : SlotPhase channelId index payLoad k w)
    (hslot : w'.slot channelId index = w.slot channelId index) : SlotPhase channelId index payLoad k w' where
  fits := by
    rw [hslot]
    exact hw.fits
  clear := by
    rw [hslot]
    exact hw.clear

theorem SlotPhase.tick (hw : SlotPhase channelId index payLoad k w)
    (hcalm : (w.slot channelId index).tick.2 = false) :
    SlotPhase channelId index payLoad k (transProxySliceTimerProc w) where
  fits hpos hk hfit := by
    obtain ⟨timeout, hslot⟩ := hw.fits hpos hk hfit
    rw [slot_sliceTimerProc]
    rw [hslot, tick_assembling] at hcalm ⊢
    split at hcalm
    · simp at hcalm
    · next htimeout =>
      rw [if_neg htimeout]
      exact ⟨timeout + 1, rfl⟩
  clear hpos hk hlong := by
    rw [slot_sliceTimerProc, hw.clear hpos hk hlong]
    rfl

/-- The events of another slot hand nothing on from this one. -/
theorem SlotStep.handedTo_other {log : List SliceEntry} (h : SlotStep c i head data log p' events)
    (hne : (channelId, index) ≠ (c, i)) :
    handedTo channelId index events = [] := by
  cases h with
  | started hseq hfits => rfl
  | refused first hfirst =>
    rcases hfirst with rfl | rfl
    · rfl
    · rfl
  | appended parts hlog hseq hfits => rfl
  | completed parts session hlog hseq hnum hsession =>
    rw [handedTo_slice, handedTo_noSubPacket_other hne, handedTo_append, handedTo_session hsession]
    rfl

/-- A message for another slot leaves this one as it is. -/
theorem received_other (hok : SlotsOk w) (env : SliceEnv)
    (hother : ¬(c = channelId ∧ (unPackSliceHead data).priority = .ofNat index)) :
    (transOnNormalMsgReceived env c data w).2.slot channelId index = w.slot channelId index ∧
      handedTo channelId index (transOnNormalMsgReceived env c data w).2.trace =
        handedTo channelId index w.trace := by
  unfold transOnNormalMsgReceived
  split
  · exact ⟨rfl, rfl⟩
  next hlen =>
  dsimp only
  split
  · exact ⟨rfl, rfl⟩
  next hcheck =>
  rw [not_not] at hcheck
  have hpri := priority_eq_index hcheck
  have hne : (channelId, index) ≠ (c, (unPackSliceHead data).index) := by
    intro he
    obtain ⟨hc, hi⟩ := Prod.mk.inj he
    exact hother ⟨hc.symm, by rw [hpri, hi]⟩
  split
  · refine ⟨rfl, ?_⟩
    rw [handedTo_append, handedTo_noSubPacket_other hne, handedTo_noSubPacketProc, append_nil]
  · next hnum =>
    have hdata : data.drop sliceHeadLen ≠ [] := by
      rw [← length_pos_iff, length_drop]
      omega
    obtain ⟨ret, p', events, hproc, hstep⟩ :=
      slotStep_proc ⟨hcheck, hpri, hnum⟩ hdata (hok.slot c _)
    obtain ⟨w', hw', htrace, hslot⟩ :=
      slot_transProxySubPacketProc (unPackSliceHead data) hdata hproc
    rw [hw', hslot, if_neg hne, htrace, handedTo_append, hstep.handedTo_other hne, append_nil]
    exact ⟨rfl, rfl⟩

/-- An input that brings nothing for the slot. -/
theorem step_other (hok : SlotsOk w) {input : SliceInput}
    (hinput : input.addressedTo channelId index = none) (hcalm : Calm channelId index w input)
    (hw : SlotPhase channelId index payLoad k w) :
    SlotPhase channelId index payLoad k (w.step input) ∧
      handedTo channelId index (w.step input).trace = handedTo channelId index w.trace := by
  cases input with
  | received env c packet =>
    have hother : ¬(c = channelId ∧ (unPackSliceHead packet.1).priority = .ofNat index) := by
      intro he
      rw [SliceInput.addressedTo, if_pos he] at hinput
      simp at hinput
    obtain ⟨hslot, hhanded⟩ := received_other hok env hother
    exact ⟨hw.congr hslot, hhanded⟩
  | tick =>
    refine ⟨hw.tick hcalm, ?_⟩
    have hevents : handedTo channelId index
        (w.processors.toList.flatMap ChannelSliceProcessor.tickEvents) = [] := by
      apply filterMap_eq_nil_iff.2
      intro e he
      obtain ⟨node, -, he⟩ := mem_flatMap.1 he
      obtain ⟨i, -, rfl⟩ := mem_map.1 he
      rfl
    rw [step, transProxySliceTimerProc, handedTo_append, hevents, append_nil]
  | delete c =>
    rw [step]
    unfold transProxyDelSliceProcessorByChannelId
    split
    · exact ⟨hw, rfl⟩
    · refine ⟨hw.congr ?_, ?_⟩
      · rw [slot, KeyedList.find_erase_ne (Ne.symm hcalm)]
        rfl
      · rw [handedTo_append]
        exact append_nil _

/-- The slices from `k` on, with other inputs between them. -/
theorem run_slices (hlen : payLoad.length < 2 ^ 31) {inputs : List SliceInput}
    (hk : k ≤ sliceCount payLoad) (hok : SlotsOk w) (hw : SlotPhase channelId index payLoad k w)
    (hcalm : Run.AllSteps step (Calm channelId index) w inputs)
    (hinputs : inputs.filterMap (SliceInput.addressedTo channelId index) =
      (range' k (sliceCount payLoad - k)).map (slicePacket index payLoad)) :
    handedTo channelId index (inputs.foldl step w).trace = handedTo channelId index w.trace ++
        if k < sliceCount payLoad ∧ Deliverable index payLoad.length then [payLoad] else [] := by
  -- by induction on the inputs: each is the next slice or nothing for the slot
  induction inputs generalizing k w with
  | nil =>
    have hdone : sliceCount payLoad - k = 0 := by simpa using (congrArg length hinputs).symm
    rw [if_neg fun h => by omega, append_nil]
    rfl
  | cons input inputs ih =>
    obtain ⟨hinput, hcalm⟩ := hcalm
    rw [foldl_cons]
    cases haddr : input.addressedTo channelId index with
    | none =>
      rw [filterMap_cons_none haddr] at hinputs
      obtain ⟨hw', hhanded⟩ := step_other hok haddr hinput hw
      rw [ih hk (hok.step input) hw' hcalm hinputs, hhanded]
    | some data =>
      rw [filterMap_cons_some haddr] at hinputs
      obtain ⟨left, hleft⟩ : ∃ left, sliceCount payLoad - k = left + 1 := by
        cases hsub : sliceCount payLoad - k with
        | zero => simp [hsub] at hinputs
        | succ left => exact ⟨left, rfl⟩
      rw [hleft, range'_succ] at hinputs
      obtain ⟨rfl, hrest⟩ := cons.inj hinputs
      cases input with
      | received env c packet =>
        rw [SliceInput.addressedTo] at haddr
        split at haddr
        · next he =>
          have hstep : w.step (.received env c packet) = (transOnNormalMsgReceived env channelId
              (slicePacket index payLoad k) w).2 := by
            rw [step, Option.some.inj haddr, he.1]
          obtain ⟨hw', hhanded⟩ := received_slice hlen (show k < sliceCount payLoad by omega) hw env
          rw [← hstep] at hw' hhanded
          rw [ih (by omega) (hok.step _) hw' hcalm (by rw [hrest]; congr 2; omega), hhanded,
            append_assoc]
          -- the packet is handed on with its last slice or later, but not both
          by_cases hdeliver : Deliverable index payLoad.length
          · simp only [hdeliver, and_true]
            by_cases hlast : k + 1 = sliceCount payLoad
            · rw [if_pos hlast, if_neg (by omega), if_pos (by omega), append_nil]
            · rw [if_neg hlast, if_pos (by omega), if_pos (by omega), nil_append]
          · simp [hdeliver]
        · simp at haddr
      | tick | delete => simp [SliceInput.addressedTo] at haddr

end

/-! ## The trip -/

/-- The slices of a packet that come to their slot in order, with anything for other slots
    between them, hand on the packet, once, exactly if it is deliverable. -/
theorem handed_once_iff_deliverable (earlier : List SliceInput) (channelId : Int32)
    (myId peerId : Int16) (flag : ProxyPacketType) (payLoad : List UInt8)
    (hlen : payLoad.length < 2 ^ 31) (inputs : List SliceInput)
    (hcalm : Run.AllSteps SliceWorld.step (Calm channelId (proxyTypeToProxyIndex flag))
      (earlier.foldl SliceWorld.step .init) inputs)
    (hinputs : inputs.filterMap (SliceInput.addressedTo channelId (proxyTypeToProxyIndex flag)) =
      receivedData (transProxyTransAppNormalMsg myId peerId payLoad flag fun _ => .ok).2) :
    handedTo channelId (proxyTypeToProxyIndex flag)
          ((earlier ++ inputs).foldl SliceWorld.step .init).trace =
        handedTo channelId (proxyTypeToProxyIndex flag)
          (earlier.foldl SliceWorld.step .init).trace ++ [payLoad] ↔
      Deliverable (proxyTypeToProxyIndex flag) payLoad.length := by
  rw [receivedData_transAppNormalMsg, range_eq_range', ← Nat.sub_zero (sliceCount payLoad)]
    at hinputs
  have hstart : SlotPhase channelId (proxyTypeToProxyIndex flag) payLoad 0
      (earlier.foldl step .init) :=
    ⟨fun h => absurd h (Nat.lt_irrefl 0), fun h => absurd h (Nat.lt_irrefl 0)⟩
  have hrun := run_slices hlen (Nat.zero_le _) (slotsOk_init.run earlier) hstart hcalm hinputs
  rw [foldl_append, hrun]
  by_cases hdeliver : Deliverable (proxyTypeToProxyIndex flag) payLoad.length
  · have hpos : 0 < sliceCount payLoad := by
      apply (lt_count (by decide)).2
      exact hdeliver.1
    rw [if_pos ⟨hpos, hdeliver⟩]
    exact iff_of_true rfl hdeliver
  · rw [if_neg fun h => hdeliver h.2]
    refine iff_of_false (fun h => ?_) hdeliver
    simp at h

/-- The messages of a packet as they come to a channel, with nothing between them and
    surroundings that decrypt nothing. -/
def arrivals (channelId : Int32) (data : List (List UInt8)) : List SliceInput :=
  data.filterMap fun packet =>
    if h : packet.length < 2 ^ 32 then
      some (.received ⟨fun _ _ _ => none, fun _ => 0, .ok, .ok⟩ channelId ⟨packet, h⟩)
    else none

theorem calm_arrivals (data : List (List UInt8)) :
    Run.AllSteps step (Calm channelId index) w (arrivals c data) := by
  apply Run.AllSteps.of_forall
  intro w input hinput
  obtain ⟨packet, -, hpacket⟩ := mem_filterMap.1 hinput
  split at hpacket
  · rw [← Option.some.inj hpacket]
    trivial
  · simp at hpacket

/-- The packet for `n` bytes of a message, with an encryption that only adds the overhead. -/
def packedMessage (n : ℕ) : List UInt8 :=
  (transProxyPackBytes (fun _ inData => some (List.replicate overheadLen 0 ++ inData)) 1
    (List.replicate n 7) .message).toOption.getD []

/-- A message of 981 bytes makes a packet of 1025 bytes, whose second slice has one byte: it is
    never handed on. -/
theorem packet_of_1025_bytes_lost :
    (packedMessage 981).length = 1025 ∧
      (transProxyTransAppNormalMsg 3 4 (packedMessage 981) .message fun _ => .ok).1 = .ok ∧
      handedTo 7 (proxyTypeToProxyIndex .message) ((arrivals 7 (receivedData
        (transProxyTransAppNormalMsg 3 4 (packedMessage 981) .message fun _ => .ok).2)).foldl
          SliceWorld.step .init).trace = [] := by
  decide +kernel

/-- A message of 997 bytes makes a packet with a second slice of 17 bytes. -/
theorem packet_of_1041_bytes_handed :
    handedTo 7 (proxyTypeToProxyIndex .message) (([] ++ arrivals 7 (receivedData
        (transProxyTransAppNormalMsg 3 4 (packedMessage 997) .message fun _ => .ok).2)).foldl
          SliceWorld.step .init).trace = [] ++ [packedMessage 997] := by
  -- stated for every packet first, so that the concrete one is evaluated by the kernel only
  have hall (payLoad : List UInt8) (hlen : payLoad.length < 2 ^ 31)
      (hinputs : (arrivals 7 (receivedData
          (transProxyTransAppNormalMsg 3 4 payLoad .message fun _ => .ok).2)).filterMap
            (SliceInput.addressedTo 7 (proxyTypeToProxyIndex .message)) =
          receivedData (transProxyTransAppNormalMsg 3 4 payLoad .message fun _ => .ok).2)
      (hdeliver : Deliverable (proxyTypeToProxyIndex .message) payLoad.length) :
      handedTo 7 (proxyTypeToProxyIndex .message) (([] ++ arrivals 7 (receivedData
          (transProxyTransAppNormalMsg 3 4 payLoad .message fun _ => .ok).2)).foldl
            step .init).trace = [] ++ [payLoad] :=
    (handed_once_iff_deliverable [] 7 3 4 .message payLoad hlen _ (calm_arrivals _)
      hinputs).2 hdeliver
  exact hall (packedMessage 997) (by decide +kernel) (by decide +kernel) (by decide +kernel)

end SoftBus.Native
