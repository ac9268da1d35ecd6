import SoftBus.ForStd.Journal
import SoftBus.ForStd.Run
import SoftBus.Native.ProxySlice

/-!
# What the slots hold

A slot of the receiver is clear, or it holds the slices `0, …, k - 1` of one packet in the
order in which they came since it was cleared.  `SlotOk` says so of a slot and the slices
that the journal has for it; every message, tick and deletion keeps it for all slots, and a
packet is handed on only when its last slice has come.
-/

namespace SoftBus.Native
open Function List KeyedList SliceWorld SliceEvent Journal
variable {parts : List (List UInt8)} {sliceNum channelId : Int32} {index : ProxyChannelPriority} {data : List UInt8}
  {head : SliceHead} {env : SliceEnv} {e : SliceEvent} {n : ℕ} {p p' : SliceProcessor} {log : List SliceEntry}
  {w : SliceWorld} {events : List SliceEvent} {before : List SliceEvent} {c : Int32}
  {i : ProxyChannelPriority}

/-! ## The journal of a slot -/

/-- A slice as the journal has it: the number of slices, its place, its data. -/
abbrev SliceEntry := Int32 × Int32 × List UInt8

section
variable (channelId) (index)

def SliceEvent.clears : SliceEvent → Bool
  | .cleared c i => decide (c = channelId ∧ i = index)
  | _ => false

def SliceEvent.slice? : SliceEvent → Option SliceEntry
  | .slice c i sliceNum sliceSeq data =>
    if c = channelId ∧ i = index then some (sliceNum, sliceSeq, data) else none
  | _ => none

/-- The slices that came to a slot since it was cleared. -/
def slicesSince (trace : List SliceEvent) : List SliceEntry :=
  Journal.since (SliceEvent.clears channelId index) (SliceEvent.slice? channelId index) trace

/-- More events for a slot. -/
def addSlices (log : List SliceEntry) (events : List SliceEvent) : List SliceEntry :=
  events.foldl (Journal.add (SliceEvent.clears channelId index) (SliceEvent.slice? channelId index)) log

end

theorem slicesSince_append (trace : List SliceEvent) : slicesSince channelId index (trace ++ events) =
      addSlices channelId index (slicesSince channelId index trace) events :=
  since_append

/-- The first slices of a packet of `sliceNum` slices. -/
def slicesOf (sliceNum : Int32) (parts : List (List UInt8)) : List SliceEntry :=
  parts.mapIdx fun k data => (sliceNum, Int32.ofNat k, data)

theorem slicesOf_concat : slicesOf sliceNum (parts ++ [data]) =
      slicesOf sliceNum parts ++ [(sliceNum, .ofNat parts.length, data)] :=
  mapIdx_concat

/-! ## One slot -/

section
variable (index)

/-- The size of the buffer of a slot. -/
def slotMaxLen : ℕ := sliceMaxLen (.ofNat index)

theorem slotMaxLen_le : slotMaxLen index ≤ 8220 := by
  revert index
  decide

theorem slotMaxLen_pos : 0 < slotMaxLen index := by
  revert index
  decide

/-- A slot that holds the first slices of a packet. -/
def assembling (sliceNum : Int32) (parts : List (List UInt8)) (timeout : ℕ) : SliceProcessor where
  active := true
  timeout := timeout
  sliceNumber := sliceNum
  expectedSeq := .ofNat parts.length
  dataLen := .ofNat parts.flatten.length
  bufLen := .ofNat (slotMaxLen index)
  data := some parts.flatten

end

/-- The parts fit the buffer, and there are more to come. -/
structure Fits (index : ProxyChannelPriority) (sliceNum : Int32) (parts : List (List UInt8)) :
    Prop where
  ne_nil : parts ≠ []
  lt : (parts.length : ℤ) < sliceNum.toInt
  nonempty : ∀ data ∈ parts, data ≠ []
  le : parts.flatten.length ≤ slotMaxLen index

/-- A slot is clear or holds the slices that came to it since it was cleared. -/
def SlotOk (index : ProxyChannelPriority) (p : SliceProcessor) (log : List SliceEntry) : Prop :=
  (p = .clear ∧ log = []) ∨ ∃ sliceNum parts timeout, p = assembling index sliceNum parts timeout ∧
      log = slicesOf sliceNum parts ∧ Fits index sliceNum parts

theorem slotOk_clear : SlotOk index .clear [] := .inl ⟨rfl, rfl⟩

theorem length_le_length_flatten (h : ∀ data ∈ parts, data ≠ []) :
    parts.length ≤ parts.flatten.length := by
  induction parts with
  | nil => simp
  | cons data parts ih =>
    have hdata := length_pos_iff.2 (h data mem_cons_self)
    have hparts := ih fun d hd => h d (mem_cons_of_mem _ hd)
    rw [length_cons, flatten_cons, length_append]
    omega

theorem Fits.length_le (h : Fits index sliceNum parts) : parts.length ≤ 8220 := by
  have hflat := length_le_length_flatten h.nonempty
  have hle := h.le
  have hmax := slotMaxLen_le index
  omega

theorem memcpyS_iff {destMax : ℕ} {src : List UInt8} (h : destMax ≤ 0x7fffffff) :
    memcpyS destMax src = true ↔ 0 < destMax ∧ src.length ≤ destMax := by
  simp [memcpyS, h]

theorem sliceLen_eq : sliceLen data = .ofNat data.length := rfl

/-- The room that is left in a buffer. -/
theorem toNat_room {size used : ℕ} (h : used ≤ size) (hsize : size ≤ 8220) :
    (Int32.ofNat size - Int32.ofNat used).toUInt32.toNat = size - used := by
  have hlt : size - used < UInt32.size := by
    have : UInt32.size = 4294967296 := rfl
    omega
  rw [← Int32.ofNat_sub _ _ h]
  exact UInt32.toNat_ofNat_of_lt' hlt

/-- The copy behind what the buffer holds succeeds if there is room. -/
theorem append_assembling (sliceNum : Int32) (timeout : ℕ) (hle : parts.flatten.length ≤ slotMaxLen index)
    (hdata : data ≠ []) :
    (assembling index sliceNum parts timeout).append data =
      if parts.flatten.length + data.length ≤ slotMaxLen index then
        some (assembling index sliceNum (parts ++ [data]) timeout)
      else none := by
  have hmax := slotMaxLen_le index
  have hpos := length_pos_iff.2 hdata
  simp only [SliceProcessor.append, assembling, toNat_room hle hmax]
  by_cases hfit : parts.flatten.length + data.length ≤ slotMaxLen index
  · rw [if_pos hfit, if_pos ((memcpyS_iff (by omega)).2 ⟨by omega, by omega⟩)]
    simp only [sliceLen_eq, Option.map_some, flatten_append, flatten_cons,
      flatten_nil, append_nil, length_append, length_cons, length_nil,
      Int32.ofNat_add]
    rfl
  · rw [if_neg hfit, if_neg]
    intro hcopy
    have := ((memcpyS_iff (by omega)).1 hcopy).2
    omega

/-- A slice that is taken is the next one of its packet. -/
theorem chk_assembling {timeout : ℕ}
    (h : transProxySliceProcessChkPkgIsValid (assembling index sliceNum parts timeout) head data = .ok) :
    head.sliceNum = sliceNum ∧ head.sliceSeq = .ofNat parts.length := by
  unfold transProxySliceProcessChkPkgIsValid at h
  split at h
  · simp at h
  · next hne =>
    rw [not_or, not_not, not_not] at hne
    exact hne

/-- The next slice of the packet is taken if there is room for it. -/
theorem chk_assembling_next (timeout : ℕ) (hnum : head.sliceNum = sliceNum)
    (hseq : head.sliceSeq = .ofNat parts.length) (hle : parts.flatten.length + data.length ≤ slotMaxLen index) :
    transProxySliceProcessChkPkgIsValid (assembling index sliceNum parts timeout) head data = .ok := by
  have hmax := slotMaxLen_le index
  have hplace : ¬(head.sliceNum ≠ sliceNum ∨ head.sliceSeq ≠ .ofNat parts.length) :=
    not_or.2 ⟨not_not.2 hnum, not_not.2 hseq⟩
  have hroom : ¬sliceLen data + .ofNat parts.flatten.length > .ofNat (slotMaxLen index) := by
    intro hgt
    have hlt := Int32.lt_iff_toInt_lt.1 hgt
    rw [sliceLen_eq, ← Int32.ofNat_add, Int32.toInt_ofNat_of_lt (by omega),
      Int32.toInt_ofNat_of_lt (by omega)] at hlt
    omega
  unfold transProxySliceProcessChkPkgIsValid assembling
  rw [if_neg hplace, if_neg hroom, if_neg nofun]

/-- A clear slot takes no slice but a first one. -/
theorem chk_clear (hseq : head.sliceSeq ≠ 0) :
    transProxySliceProcessChkPkgIsValid .clear head data = .proxyAssemblePackNoInvalid := by
  unfold transProxySliceProcessChkPkgIsValid
  rw [if_pos (.inr hseq)]

/-! ## What a slice does to its slot -/

/-- The events of a session. -/
def SliceEvent.ofSession : SliceEvent → Bool
  | .msgReceived .. | .sendSessionAck .. | .setPendingPacket .. => true
  | _ => false

theorem ofSession_transProxyNotifySession {seq : Int32} {flags : ProxyPacketType}
    (h : e ∈ (transProxyNotifySession env channelId flags seq data).2) : e.ofSession = true := by
  unfold transProxyNotifySession at h
  split at h
  · rcases mem_pair.1 h with rfl | rfl
    · rfl
    · rfl
  · unfold transProxyProcSendMsgAck at h
    split at h
    · simp at h
    · rw [mem_singleton.1 h]
      rfl
  · simp at h
  · rw [mem_singleton.1 h]
    rfl

/-- The bytes that `TransProxyProcessSessionData` decrypts, if it comes to that; `beyond` are
    those behind the packet. -/
def decryptedOf (beyond : ℕ → UInt8) (packet : List UInt8) : Option (List UInt8) :=
  let head := unPackPacketHead packet
  if head.magicNumber = magicNumber.toInt32 ∧ .ofNat overheadLen < head.dataLen then
    some (Bytes.load (packet.drop packetHeadLen) beyond 0 head.dataLen.toNatClampNeg)
  else
    none

/-- Nothing else of a packet goes to the session. -/
theorem noSubPacketProc_eq (packet : List UInt8) : transProxyNoSubPacketProc env channelId packet =
      match (decryptedOf env.beyond packet).bind (env.decrypt channelId (unPackPacketHead packet).seq) with
      | none => (.err, [])
      | some outData => let type := ProxyPacketType.ofCode (unPackPacketHead packet).flags
        if transProxySessionDataLenCheck outData.length type ≠ .ok then (.err, [])
        else
          let r := transProxyNotifySession env channelId type (unPackPacketHead packet).seq outData
          (if r.1 = .ok then .ok else .err, r.2) := by
  unfold transProxyNoSubPacketProc decryptedOf transProxyProcessSessionData
  dsimp only
  by_cases hmagic : (unPackPacketHead packet).magicNumber = magicNumber.toInt32
  · by_cases hlen : Int32.ofNat overheadLen < (unPackPacketHead packet).dataLen
    · have hpos : ¬(unPackPacketHead packet).dataLen ≤ 0 :=
        Int32.not_le.2 (Int32.lt_trans (by decide) hlen)
      rw [if_neg (not_not.2 hmagic), if_neg hpos, if_neg (Int32.not_le.2 hlen), if_pos ⟨hmagic, hlen⟩,
        Option.bind_some]
      cases env.decrypt channelId (unPackPacketHead packet).seq
          (Bytes.load (packet.drop packetHeadLen) env.beyond 0 (unPackPacketHead packet).dataLen.toNatClampNeg) with
      | none => rfl
      | some outData =>
        dsimp only
        generalize transProxyNotifySession env channelId _ _ outData = r
        by_cases hcheck : transProxySessionDataLenCheck outData.length
            (ProxyPacketType.ofCode (unPackPacketHead packet).flags) ≠ .ok
        · rw [if_pos hcheck, if_pos hcheck]
        · obtain ⟨ret, events⟩ := r
          rw [if_neg hcheck, if_neg hcheck]
          cases ret <;> rfl
    · rw [if_neg (not_not.2 hmagic), if_pos (Int32.not_lt.1 hlen), ite_self,
        if_neg fun h : _ ∧ _ => hlen h.2]
      rfl
  · rw [if_pos hmagic, if_neg fun h : _ ∧ _ => hmagic h.1]
    rfl

theorem ofSession_transProxyNoSubPacketProc (h : e ∈ (transProxyNoSubPacketProc env channelId data).2) :
    e.ofSession = true := by
  rw [noSubPacketProc_eq] at h
  split at h
  · simp at h
  dsimp only at h
  split at h
  · simp at h
  · exact ofSession_transProxyNotifySession h

/-- What a slice can do to a slot to which the slices `log` came: start a packet, be refused,
    be appended, or complete the packet, which is then handed on. -/
inductive SlotStep (channelId : Int32) (index : ProxyChannelPriority) (head : SliceHead)
    (data : List UInt8) (log : List SliceEntry) : SliceProcessor → List SliceEvent → Prop where
  | started (hseq : head.sliceSeq = 0) (hfits : Fits index head.sliceNum [data]) :
      SlotStep channelId index head data log (assembling index head.sliceNum [data] 0)
        [.cleared channelId index, .slice channelId index head.sliceNum head.sliceSeq data]
  | refused (first : List SliceEvent) (hfirst : first = [] ∨ first = [.cleared channelId index]) :
      SlotStep channelId index head data log .clear
        (first ++ [.slice channelId index head.sliceNum head.sliceSeq data, .cleared channelId index])
  | appended (parts : List (List UInt8)) (hlog : log = slicesOf head.sliceNum parts)
      (hseq : head.sliceSeq = .ofNat parts.length) (hfits : Fits index head.sliceNum (parts ++ [data])) :
      SlotStep channelId index head data log (assembling index head.sliceNum (parts ++ [data]) 0)
        [.slice channelId index head.sliceNum head.sliceSeq data]
  | completed (parts : List (List UInt8)) (session : List SliceEvent)
      (hlog : log = slicesOf head.sliceNum parts) (hseq : head.sliceSeq = .ofNat parts.length)
      (hnum : head.sliceNum.toInt = parts.length + 1)
      (hsession : ∀ e ∈ session, e.ofSession = true) :
      SlotStep channelId index head data log .clear
        (.slice channelId index head.sliceNum head.sliceSeq data ::
          .noSubPacket channelId index true (parts ++ [data]).flatten ::
            (session ++ [.cleared channelId index]))

section

/-- A head that is accepted for more than one slice. -/
structure SliceHead.Ok (head : SliceHead) (index : ProxyChannelPriority) : Prop where
  check : transProxyCheckSliceHead head = .ok
  priority : head.priority = .ofNat index
  sliceNum : head.sliceNum ≠ 1

theorem SliceHead.Ok.sliceSeq_lt (h : head.Ok index) : head.sliceSeq < head.sliceNum := by
  have hcheck := h.check
  unfold transProxyCheckSliceHead at hcheck
  split at hcheck
  · simp at hcheck
  split at hcheck
  · simp at hcheck
  next hseq =>
  rw [not_and] at hseq
  exact Int32.not_le.1 (hseq h.sliceNum)

theorem toInt_ofNat_small (h : n ≤ 8221) : (Int32.ofNat n).toInt = n :=
  Int32.toInt_ofNat_of_lt (by omega)

theorem toInt_ofNat_succ (h : n ≤ 8220) : (Int32.ofNat n + 1).toInt = n + 1 := by
  rw [show Int32.ofNat n + 1 = .ofNat (n + 1) from (Int32.ofNat_add _ _).symm,
    toInt_ofNat_small (by omega)]
  rfl

theorem transProxyFirstSliceProcess_eq (hpri : head.priority = .ofNat index) (data : List UInt8) :
    ∃ failed, transProxyFirstSliceProcess head data =
      if data.length ≤ slotMaxLen index then (.ok, assembling index head.sliceNum [data] 0)
      else (.sliceError, failed) := by
  have hmax := slotMaxLen_le index
  have hpos := slotMaxLen_pos index
  have hlen : sliceMaxLen head.priority = slotMaxLen index := by rw [hpri, slotMaxLen]
  refine ⟨{ SliceProcessor.clear with data := some [], bufLen := .ofNat (slotMaxLen index) }, ?_⟩
  unfold transProxyFirstSliceProcess
  rw [hlen]
  by_cases hfit : data.length ≤ slotMaxLen index
  · rw [if_pos hfit, if_pos ((memcpyS_iff (by omega)).2 ⟨hpos, hfit⟩)]
    simp [assembling, sliceLen_eq]
  · rw [if_neg hfit, if_neg fun hcopy => hfit ((memcpyS_iff (by omega)).1 hcopy).2]

section
variable (env : SliceEnv) (channelId : Int32)

/-- A first slice starts its packet if it fits the buffer. -/
theorem proc_first (hpri : head.priority = .ofNat index) (hseq : head.sliceSeq = 0)
    (data : List UInt8) (p : SliceProcessor) :
    p.proc env channelId index head data =
      if data.length ≤ slotMaxLen index then
        (.ok, assembling index head.sliceNum [data] 0,
          [.cleared channelId index, .slice channelId index head.sliceNum head.sliceSeq data])
      else (.sliceError, .clear, [.cleared channelId index,
        .slice channelId index head.sliceNum head.sliceSeq data, .cleared channelId index]) := by
  obtain ⟨failed, hfirst⟩ := transProxyFirstSliceProcess_eq hpri data
  unfold SliceProcessor.proc
  dsimp only
  rw [if_pos hseq, hfirst]
  by_cases hfit : data.length ≤ slotMaxLen index
  · rw [if_pos hfit, if_pos hfit]
    rfl
  · rw [if_neg hfit, if_neg hfit]
    rfl

variable (index : ProxyChannelPriority)

/-- A slice that is not the one the slot waits for clears it. -/
theorem proc_refused (hseq : head.sliceSeq ≠ 0)
    (hchk : transProxySliceProcessChkPkgIsValid p head data ≠ .ok ∨ p.append data = none) :
    ∃ ret, ret ≠ .ok ∧ p.proc env channelId index head data = (ret, .clear,
      [.slice channelId index head.sliceNum head.sliceSeq data, .cleared channelId index]) := by
  obtain ⟨ret, hret, hnormal, hlast⟩ : ∃ ret, ret ≠ .ok ∧ transProxyNormalSliceProcess p head data = (ret, p) ∧
      transProxyLastSliceProcess env channelId index p head data = (ret, p, []) := by
    unfold transProxyNormalSliceProcess transProxyLastSliceProcess
    cases hok : transProxySliceProcessChkPkgIsValid p head data with
    | ok =>
      rw [hchk.resolve_left (not_not.2 hok)]
      exact ⟨.memErr, by simp, rfl, rfl⟩
    | _ => exact ⟨_, by simp, rfl, rfl⟩
  refine ⟨ret, hret, ?_⟩
  unfold SliceProcessor.proc
  dsimp only
  rw [if_neg hseq, hnormal, hlast]
  split
  · rfl
  · rfl

/-- The next slice of a packet that has more to come. -/
theorem proc_append (hseq : head.sliceSeq ≠ 0)
    (hnum : head.sliceNum ≠ head.sliceSeq + 1) (hchk : transProxySliceProcessChkPkgIsValid p head data = .ok)
    (happend : p.append data = some p') :
    p.proc env channelId index head data = (.ok, { p' with timeout := 0 },
      [.slice channelId index head.sliceNum head.sliceSeq data]) := by
  unfold SliceProcessor.proc
  dsimp only
  rw [if_neg hseq, if_neg hnum]
  unfold transProxyNormalSliceProcess
  rw [hchk, happend]
  rfl

/-- The last slice of a packet: whatever the session makes of it, the slot is cleared. -/
theorem proc_last (hseq : head.sliceSeq ≠ 0)
    (hnum : head.sliceNum = head.sliceSeq + 1) (hchk : transProxySliceProcessChkPkgIsValid p head data = .ok)
    (happend : p.append data = some p') :
    ∃ ret session, (∀ e ∈ session, e.ofSession = true) ∧
      p.proc env channelId index head data = (ret, .clear,
        .slice channelId index head.sliceNum head.sliceSeq data ::
          .noSubPacket channelId index true (p'.data.getD []) ::
            (session ++ [.cleared channelId index])) := by
  have hlast : ∃ ret session, (∀ e ∈ session, e.ofSession = true) ∧
      (transProxyLastSliceProcess env channelId index p head data =
          (.ok, .clear, .noSubPacket channelId index true (p'.data.getD []) ::
            (session ++ [.cleared channelId index])) ∨
        ret ≠ .ok ∧ transProxyLastSliceProcess env channelId index p head data =
          (ret, p', .noSubPacket channelId index true (p'.data.getD []) :: session)) := by
    have hsession : ∀ e ∈ (transProxyNoSubPacketProc env channelId (p'.data.getD [])).2,
        e.ofSession = true := fun _ => ofSession_transProxyNoSubPacketProc
    unfold transProxyLastSliceProcess
    rw [hchk, happend]
    dsimp only
    generalize transProxyNoSubPacketProc env channelId (p'.data.getD []) = x at hsession
    obtain ⟨ret, session⟩ := x
    refine ⟨ret, session, hsession, ?_⟩
    cases ret with
    | ok => exact .inl rfl
    | _ => exact .inr ⟨by simp, rfl⟩
  obtain ⟨ret, session, hsession, hlast⟩ := hlast
  unfold SliceProcessor.proc
  dsimp only
  rw [if_neg hseq, if_pos hnum]
  rcases hlast with heq | ⟨hret, heq⟩
  -- the session took the packet: the slot was cleared with the last slice
  · rw [heq]
    exact ⟨.ok, session, hsession, rfl⟩
  -- the session refused it: the failure of the last slice clears the slot
  · rw [heq]
    exact ⟨ret, session, hsession, if_pos hret⟩

end

/-- Two slices at least: the first one leaves more to come. -/
theorem SliceHead.Ok.fits_first (h : head.Ok index) (hseq : head.sliceSeq = 0) (hdata : data ≠ [])
    (hle : data.length ≤ slotMaxLen index) : Fits index head.sliceNum [data] where
  ne_nil := by simp
  lt := by
    have hlt := Int32.lt_iff_toInt_lt.1 h.sliceSeq_lt
    have hne : head.sliceNum.toInt ≠ 1 := fun he => h.sliceNum (Int32.toInt_inj.1 he)
    rw [hseq, Int32.toInt_zero] at hlt
    rw [length_singleton]
    omega
  nonempty := by simpa using hdata
  le := by simpa using hle

theorem Fits.concat (h : Fits index sliceNum parts) (hnum : sliceNum ≠ .ofNat parts.length + 1) (hdata : data ≠ [])
    (hle : parts.flatten.length + data.length ≤ slotMaxLen index) :
    Fits index sliceNum (parts ++ [data]) where
  ne_nil := by simp
  lt := by
    have hlt := h.lt
    have hlen := h.length_le
    have hne : sliceNum.toInt ≠ (parts.length : ℤ) + 1 := by
      intro he
      apply hnum
      rw [← Int32.toInt_inj, he, toInt_ofNat_succ hlen]
    rw [length_append, length_singleton]
    omega
  nonempty := by
    intro d hd
    rcases mem_append.1 hd with hd | hd
    · exact h.nonempty d hd
    · rw [mem_singleton.1 hd]
      exact hdata
  le := by simpa using hle

/-- A slice starts a packet, is refused, is appended or completes the packet. -/
theorem slotStep_proc (hhead : head.Ok index) (hdata : data ≠ []) (hp : SlotOk index p log) :
    ∃ ret p' events, p.proc env channelId index head data = (ret, p', events) ∧
      SlotStep channelId index head data log p' events := by
  by_cases hseq : head.sliceSeq = 0
  · rw [proc_first env channelId hhead.priority hseq]
    by_cases hle : data.length ≤ slotMaxLen index
    · rw [if_pos hle]
      exact ⟨_, _, _, rfl, .started hseq (hhead.fits_first hseq hdata hle)⟩
    · rw [if_neg hle]
      exact ⟨_, _, _, rfl, .refused [.cleared channelId index] (.inr rfl)⟩
  -- what the slot refuses is followed by its clearing
  have hrefused (hchk : transProxySliceProcessChkPkgIsValid p head data ≠ .ok ∨ p.append data = none) :
      ∃ ret p' events, p.proc env channelId index head data = (ret, p', events) ∧
        SlotStep channelId index head data log p' events := by
    obtain ⟨ret, -, heq⟩ := proc_refused env channelId index hseq hchk
    exact ⟨ret, _, _, heq, .refused [] (.inl rfl)⟩
  rcases hp with ⟨rfl, -⟩ | ⟨sliceNum, parts, timeout, rfl, hlog, hfits⟩
  · apply hrefused
    rw [chk_clear hseq]
    exact .inl (by simp)
  by_cases hchk : transProxySliceProcessChkPkgIsValid (assembling index sliceNum parts timeout) head
      data = .ok
  · obtain ⟨rfl, hplace⟩ := chk_assembling hchk
    have happend := append_assembling head.sliceNum timeout hfits.le hdata
    by_cases hle : parts.flatten.length + data.length ≤ slotMaxLen index
    · rw [if_pos hle] at happend
      by_cases hnum : head.sliceNum = head.sliceSeq + 1
      · obtain ⟨ret, session, hsession, heq⟩ := proc_last env channelId index hseq hnum hchk
          happend
        refine ⟨ret, _, _, heq, .completed parts session hlog hplace ?_ hsession⟩
        rw [hnum, hplace, toInt_ofNat_succ hfits.length_le]
      · refine ⟨_, _, _, proc_append env channelId index hseq hnum hchk happend, .appended parts hlog hplace ?_⟩
        exact hfits.concat (hplace ▸ hnum) hdata hle
    · rw [if_neg hle] at happend
      exact hrefused (.inr happend)
  · exact hrefused (.inl hchk)

/-! ## The journal of a step -/

/-- A packet is handed on from a slot only if its slices came there, all of them and in their
    order, since the slot was cleared. -/
def HandedOk (before : List SliceEvent) : SliceEvent → Prop
  | .noSubPacket channelId index true packet =>
    ∃ sliceNum parts, slicesSince channelId index before = slicesOf sliceNum parts ∧
      (parts.length : ℤ) = sliceNum.toInt ∧ packet = parts.flatten
  | _ => True

@[simp] theorem handedOk_cleared : HandedOk before (.cleared c i) := trivial

@[simp] theorem handedOk_slice
    (sliceSeq : Int32) : HandedOk before (.slice c i sliceNum sliceSeq data) := trivial

theorem handedOk_of_ofSession (h : e.ofSession = true) : HandedOk before e := by
  cases e with
  | noSubPacket channelId index assembled packet => simp [ofSession] at h
  | _ => trivial

theorem slice?_of_ofSession (h : e.ofSession = true) : e.slice? c i = none ∧ e.clears c i = false := by
  cases e with
  | cleared => simp [ofSession] at h
  | slice => simp [ofSession] at h
  | _ => exact ⟨rfl, rfl⟩

@[simp] theorem addSlices_nil : addSlices channelId index log [] = log := rfl

@[simp] theorem addSlices_cleared : addSlices channelId index log (.cleared channelId index :: events) =
      addSlices channelId index [] events := by
  simp [addSlices, add, clears]

@[simp] theorem addSlices_slice (sliceSeq : Int32) :
    addSlices channelId index log (.slice channelId index sliceNum sliceSeq data :: events) =
      addSlices channelId index (log ++ [(sliceNum, sliceSeq, data)]) events := by
  simp [addSlices, add, clears, slice?]

@[simp] theorem addSlices_noSubPacket (assembled : Bool) :
    addSlices channelId index log (.noSubPacket c i assembled data :: events) =
      addSlices channelId index log events := by
  simp [addSlices, add, clears, slice?]

theorem addSlices_append (events' : List SliceEvent) : addSlices channelId index log (events ++ events') =
      addSlices channelId index (addSlices channelId index log events) events' :=
  foldl_append

section

/-- A slot holds what came to it, also after a step. -/
theorem SlotStep.slotOk (h : SlotStep channelId index head data log p' events) :
    SlotOk index p' (addSlices channelId index log events) := by
  cases h with
  | started hseq hfits =>
    refine .inr ⟨head.sliceNum, [data], 0, rfl, ?_, hfits⟩
    simp [slicesOf, hseq]
  | refused first hfirst =>
    rw [addSlices_append, addSlices_slice, addSlices_cleared]
    exact slotOk_clear
  | appended parts hlog hseq hfits =>
    refine .inr ⟨head.sliceNum, parts ++ [data], 0, rfl, ?_, hfits⟩
    rw [addSlices_slice, addSlices_nil, slicesOf_concat, hlog, hseq]
  | completed parts session hlog hseq hnum hsession =>
    rw [addSlices_slice, addSlices_noSubPacket, addSlices_append, addSlices_cleared]
    exact slotOk_clear

/-- The events of a step concern its slot alone. -/
theorem SlotStep.addSlices_other (h : SlotStep channelId index head data log p' events)
    (hne : (c, i) ≠ (channelId, index)) (other : List SliceEntry) : addSlices c i other events = other := by
  have hcleared : slice? c i (.cleared channelId index) = none ∧
      clears c i (.cleared channelId index) = false := by
    refine ⟨rfl, decide_eq_false fun he => hne ?_⟩
    rw [he.1, he.2]
  have hslice : slice? c i (.slice channelId index head.sliceNum head.sliceSeq data) = none ∧
      clears c i (.slice channelId index head.sliceNum head.sliceSeq data) = false := by
    refine ⟨if_neg fun he => hne ?_, rfl⟩
    rw [he.1, he.2]
  apply foldl_add_of_other
  cases h with
  | started hseq hfits => simpa using ⟨hcleared, hslice⟩
  | refused first hfirst =>
    rcases hfirst with rfl | rfl
    · simpa using ⟨hslice, hcleared⟩
    · simpa using ⟨hcleared, hslice, hcleared⟩
  | appended parts hlog hseq hfits => simpa using hslice
  | completed parts session hlog hseq hnum hsession =>
    intro e he
    rw [mem_cons, mem_cons, mem_append, mem_singleton] at he
    rcases he with rfl | rfl | he | rfl
    · exact hslice
    · exact ⟨rfl, rfl⟩
    · exact slice?_of_ofSession (hsession e he)
    · exact hcleared

/-- A step hands on only a packet whose last slice it has. -/
theorem SlotStep.handedOk {trace : List SliceEvent}
    (h : SlotStep channelId index head data (slicesSince channelId index trace) p' events) :
    Journal.Always (fun before => HandedOk (trace ++ before)) events := by
  cases h with
  | started hseq hfits => simp [always_cons]
  | refused first hfirst =>
    rcases hfirst with rfl | rfl
    · simp [always_cons]
    · simp [always_cons]
  | appended parts hlog hseq hfits => simp [always_cons]
  | completed parts session hlog hseq hnum hsession =>
    rw [always_cons, always_cons]
    refine ⟨trivial, ⟨head.sliceNum, parts ++ [data], ?_, ?_, rfl⟩, ?_⟩
    · rw [slicesSince_append, addSlices_slice, addSlices_nil, hlog, slicesOf_concat, hseq]
    · rw [hnum, length_append]
      rfl
    · refine Journal.Always.of_forall fun before e he => ?_
      rw [mem_append, mem_singleton] at he
      rcases he with he | rfl
      · exact handedOk_of_ofSession (hsession e he)
      · trivial

end
end

/-! ## All slots -/

/-- The slot of a channel and priority; a channel without slots gets clear ones. -/
def SliceWorld.slot (w : SliceWorld) (channelId : Int32) (index : ProxyChannelPriority) :
    SliceProcessor :=
  ((w.processors.find channelId).map (·.processor index)).getD .clear

theorem SliceWorld.slot_of_find {node : ChannelSliceProcessor} (h : w.processors.find channelId = some node) :
    w.slot channelId index = node.processor index := by
  rw [slot, h]
  rfl

/-- Every slot holds what came to it, and every packet that was handed on was complete. -/
structure SlotsOk (w : SliceWorld) : Prop where
  slot : ∀ channelId index, SlotOk index (w.slot channelId index) (slicesSince channelId index w.trace)
  handed : Journal.Always HandedOk w.trace

theorem slotsOk_init : SlotsOk .init where
  slot _ _ := slotOk_clear
  handed := always_nil

/-- Events that leave the slots alone. -/
theorem SlotsOk.append (h : SlotsOk w) (hother : ∀ c i, ∀ e ∈ events, e.slice? c i = none ∧ e.clears c i = false)
    (hhanded : ∀ before, ∀ e ∈ events, HandedOk before e) :
    SlotsOk { w with trace := w.trace ++ events } where
  slot c i := by
    rw [slicesSince_append, addSlices, foldl_add_of_other (hother c i)]
    exact h.slot c i
  handed := always_append.2 ⟨h.handed, .of_forall fun _ => hhanded _⟩

/-- The slots that a channel gets are clear, as they were. -/
theorem slot_getChannelSliceProcessor (channelId : Int32) (w : SliceWorld) :
    ∃ node, (transProxyGetChannelSliceProcessor channelId w).1 = node ∧ node.channelId = channelId ∧
      (transProxyGetChannelSliceProcessor channelId w).2.processors.find channelId = some node ∧
      (transProxyGetChannelSliceProcessor channelId w).2.trace = w.trace ∧
      ∀ c i, (transProxyGetChannelSliceProcessor channelId w).2.slot c i = w.slot c i := by
  unfold transProxyGetChannelSliceProcessor
  cases h : w.processors.find channelId with
  | some node => exact ⟨node, rfl, key_of_find h, h, rfl, fun _ _ => rfl⟩
  | none =>
    have hself := find_push_self (a := (⟨channelId, fun _ => .clear⟩ : ChannelSliceProcessor)) h
    refine ⟨_, rfl, rfl, hself, rfl, fun c i => ?_⟩
    by_cases hc : c = channelId
    · subst hc
      rw [slot_of_find hself, slot, h]
      rfl
    · simp only [slot]
      rw [find_push_ne hc]

/-- A slice changes its slot as `SliceProcessor.proc` says, and no other one. -/
theorem slot_transProxySubPacketProc (head : SliceHead) (hdata : data ≠ []) {ret : TransErr}
    (hproc : (w.slot channelId index).proc env channelId index head data = (ret, p', events)) :
    ∃ w', transProxySubPacketProc env channelId index head data w = (ret, w') ∧ w'.trace = w.trace ++ events ∧
      ∀ c i, w'.slot c i = if (c, i) = (channelId, index) then p' else w.slot c i := by
  obtain ⟨node, hnode, hid, hfind, htrace, hslot⟩ := slot_getChannelSliceProcessor channelId w
  have hold : w.slot channelId index = node.processor index := by
    rw [← hslot, slot_of_find hfind]
  unfold transProxySubPacketProc
  rw [if_neg (by simpa using hdata)]
  generalize transProxyGetChannelSliceProcessor channelId w = x at hnode hfind htrace hslot
  obtain ⟨node', w'⟩ := x
  dsimp only at hnode hfind htrace hslot ⊢
  subst hnode
  rw [← hold, hproc]
  refine ⟨_, rfl, by rw [htrace], fun c i => ?_⟩
  by_cases hc : c = channelId
  · subst hc hid
    rw [slot_of_find (find_set_self
      (a := { node' with processor := update node'.processor index p' }) hfind)]
    dsimp only
    by_cases hi : i = index
    · subst hi
      rw [if_pos rfl, update_self]
    · rw [if_neg (by simp [hi]), update_of_ne hi, ← hslot, slot_of_find hfind]
  · rw [if_neg (by simp [hc]), ← hslot]
    simp only [slot]
    rw [find_set_ne _ (by simpa [hid] using hc)]

theorem SlotsOk.subPacketProc (h : SlotsOk w) (hhead : head.Ok index)
    (hdata : data ≠ []) : SlotsOk (transProxySubPacketProc env channelId index head data w).2 := by
  obtain ⟨ret, p', events, hproc, hstep⟩ :=
    slotStep_proc hhead hdata (h.slot channelId index)
  obtain ⟨w', hw', htrace, hslot⟩ := slot_transProxySubPacketProc head hdata hproc
  rw [hw']
  constructor
  · intro c i
    rw [hslot, htrace, slicesSince_append]
    split
    · next he =>
      obtain ⟨rfl, rfl⟩ := Prod.mk.inj he
      exact hstep.slotOk
    · next hne =>
      rw [hstep.addSlices_other hne]
      exact h.slot c i
  · rw [htrace]
    exact always_append.2 ⟨h.handed, hstep.handedOk⟩

/-- The slot that a head names is the one of its priority. -/
theorem priority_eq_index (h : transProxyCheckSliceHead head = .ok) :
    head.priority = .ofNat head.index := by
  unfold transProxyCheckSliceHead at h
  split at h
  · simp at h
  next hpri =>
  rw [not_or, Int32.not_lt, Int32.not_le] at hpri
  have hpos := Int32.le_iff_toInt_le.1 hpri.1
  have hlt := Int32.lt_iff_toInt_lt.1 hpri.2
  rw [Int32.toInt_zero] at hpos
  have hcases : head.priority.toInt = (0 : Int32).toInt ∨ head.priority.toInt = (1 : Int32).toInt ∨
      head.priority.toInt = (2 : Int32).toInt := by
    change head.priority.toInt < 3 at hlt
    change _ = (0 : ℤ) ∨ _ = (1 : ℤ) ∨ _ = (2 : ℤ)
    omega
  rw [Int32.toInt_inj, Int32.toInt_inj, Int32.toInt_inj] at hcases
  change head.priority = Int32.ofNat (head.priority.toNatClampNeg % 3)
  rcases hcases with h | h | h
  · rw [h]
    decide
  · rw [h]
    decide
  · rw [h]
    decide

theorem SlotsOk.received (h : SlotsOk w) : SlotsOk (transOnNormalMsgReceived env channelId data w).2 := by
  unfold transOnNormalMsgReceived
  split
  · exact h
  next hlen =>
  dsimp only
  split
  · exact h
  next hcheck =>
  rw [not_not] at hcheck
  split
  · -- the only slice of its packet goes past the slots
    have hsession : ∀ e ∈ (transProxyNoSubPacketProc env channelId (data.drop sliceHeadLen)).2,
        e.ofSession = true := fun _ => ofSession_transProxyNoSubPacketProc
    apply h.append
    · intro c i e he
      rcases mem_cons.1 he with rfl | he
      · exact ⟨rfl, rfl⟩
      · exact slice?_of_ofSession (hsession e he)
    · intro before e he
      rcases mem_cons.1 he with rfl | he
      · trivial
      · exact handedOk_of_ofSession (hsession e he)
  · next hnum =>
    apply h.subPacketProc ⟨hcheck, priority_eq_index hcheck, hnum⟩
    rw [← length_pos_iff, length_drop]
    omega

/-! ## Ticks and deletions -/

theorem tick_assembling (timeout : ℕ) : (assembling index sliceNum parts timeout).tick =
      if timeout + 1 ≥ slicePacketTimeout then (.clear, true)
      else (assembling index sliceNum parts (timeout + 1), false) := rfl

theorem slotOk_tick (h : SlotOk index p log) : SlotOk index p.tick.1 (if p.tick.2 then [] else log) := by
  rcases h with ⟨rfl, rfl⟩ | ⟨sliceNum, parts, timeout, rfl, rfl, hfits⟩
  · exact slotOk_clear
  · rw [tick_assembling]
    by_cases htimeout : timeout + 1 ≥ slicePacketTimeout
    · rw [if_pos htimeout]
      exact slotOk_clear
    · rw [if_neg htimeout]
      exact .inr ⟨sliceNum, parts, timeout + 1, rfl, rfl, hfits⟩

/-- A tick clears exactly the slots that have run out of time. -/
theorem any_clears_tickEvents :
    (w.processors.toList.flatMap ChannelSliceProcessor.tickEvents).any (clears c i) =
      (w.slot c i).tick.2 := by
  rw [Bool.eq_iff_iff, any_eq_true]
  constructor
  · intro ⟨e, he, hclears⟩
    obtain ⟨node, hnode, he⟩ := mem_flatMap.1 he
    obtain ⟨i', hi', rfl⟩ := mem_map.1 he
    obtain ⟨rfl, rfl⟩ := of_decide_eq_true hclears
    rw [slot_of_find (find_of_mem hnode)]
    exact (mem_filter.1 hi').2
  · intro htick
    cases hfind : w.processors.find c with
    | none =>
      rw [slot, hfind] at htick
      exact absurd htick Bool.false_ne_true
    | some node =>
      rw [slot_of_find hfind] at htick
      refine ⟨.cleared c i, mem_flatMap.2 ⟨node, mem_of_find hfind, ?_⟩, by
        simp [clears]⟩
      rw [← key_of_find hfind]
      exact mem_map_of_mem (mem_filter.2 ⟨mem_finRange i, htick⟩)

theorem slot_sliceTimerProc : (transProxySliceTimerProc w).slot c i = (w.slot c i).tick.1 := by
  simp only [slot, transProxySliceTimerProc]
  rw [find_update]
  cases w.processors.find c with
  | none => rfl
  | some node => rfl

theorem SlotsOk.tick (h : SlotsOk w) : SlotsOk (transProxySliceTimerProc w) := by
  have hcleared : ∀ e ∈ w.processors.toList.flatMap ChannelSliceProcessor.tickEvents,
      ∃ c i, e = .cleared c i := by
    intro e he
    obtain ⟨node, -, he⟩ := mem_flatMap.1 he
    obtain ⟨i, -, rfl⟩ := mem_map.1 he
    exact ⟨node.channelId, i, rfl⟩
  constructor
  · intro c i
    rw [slot_sliceTimerProc]
    unfold transProxySliceTimerProc
    rw [slicesSince_append, addSlices, foldl_add_of_pick_none, any_clears_tickEvents]
    · exact slotOk_tick (h.slot c i)
    · intro e he
      obtain ⟨c', i', rfl⟩ := hcleared e he
      rfl
  · refine always_append.2 ⟨h.handed, .of_forall fun before e he => ?_⟩
    obtain ⟨c', i', rfl⟩ := hcleared e he
    trivial

theorem SlotsOk.delete (h : SlotsOk w) : SlotsOk (transProxyDelSliceProcessorByChannelId channelId w) := by
  unfold transProxyDelSliceProcessorByChannelId
  split
  · exact h
  constructor
  · intro c i
    rw [slicesSince_append, addSlices, foldl_add_of_pick_none]
    · by_cases hc : c = channelId
      · subst hc
        rw [if_pos, SliceWorld.slot, KeyedList.find_erase_self]
        · exact slotOk_clear
        · simp [clears]
      · rw [if_neg, SliceWorld.slot, KeyedList.find_erase_ne hc]
        · exact h.slot c i
        · simp [clears, Ne.symm hc]
    · intro e he
      obtain ⟨i', -, rfl⟩ := mem_map.1 he
      rfl
  · refine always_append.2 ⟨h.handed, .of_forall fun before e he => ?_⟩
    obtain ⟨i', -, rfl⟩ := mem_map.1 he
    trivial

/-! ## Runs -/

theorem SlotsOk.step (h : SlotsOk w) (input : SliceInput) : SlotsOk (w.step input) := by
  cases input with
  | received env channelId packet => exact h.received
  | tick => exact h.tick
  | delete channelId => exact h.delete

theorem SlotsOk.run (h : SlotsOk w) (inputs : List SliceInput) :
    SlotsOk (inputs.foldl SliceWorld.step w) := by
  induction inputs generalizing w with
  | nil => exact h
  | cons input inputs ih => exact ih (h.step input)

/-- The buffer of an active slot holds `dataLen` bytes, and has room for them. -/
theorem SlotOk.dataLen_le (h : SlotOk index p log) (hactive : p.active = true) :
    ∃ bytes, p.data = some bytes ∧ p.dataLen.toInt = bytes.length ∧ p.dataLen ≤ p.bufLen := by
  rcases h with ⟨rfl, -⟩ | ⟨sliceNum, parts, timeout, rfl, -, hfits⟩
  · exact absurd hactive (by decide)
  have hle := hfits.le
  have hmax := slotMaxLen_le index
  refine ⟨parts.flatten, rfl, toInt_ofNat_small (by omega), ?_⟩
  rw [Int32.le_iff_toInt_le]
  simp only [assembling]
  rw [toInt_ofNat_small (by omega), toInt_ofNat_small (by omega)]
  omega

/-- Whatever comes, a packet that is handed on after reassembly is made of the slices
    `0, …, n - 1` with the number `n`, which came to its slot in that order and with nothing
    between them since the slot was cleared; and no slot holds more than its buffer. -/
theorem handed_packets_are_whole (inputs : List SliceInput) :
    (∀ before channelId index packet after, (inputs.foldl SliceWorld.step .init).trace =
          before ++ .noSubPacket channelId index true packet :: after →
        ∃ sliceNum parts, slicesSince channelId index before = slicesOf sliceNum parts ∧
          (parts.length : ℤ) = sliceNum.toInt ∧ packet = parts.flatten) ∧
    ∀ channelId index, ((inputs.foldl SliceWorld.step .init).slot channelId index).active = true →
        ∃ bytes, ((inputs.foldl SliceWorld.step .init).slot channelId index).data = some bytes ∧
          ((inputs.foldl SliceWorld.step .init).slot channelId index).dataLen.toInt = bytes.length ∧
          ((inputs.foldl SliceWorld.step .init).slot channelId index).dataLen ≤
            ((inputs.foldl SliceWorld.step .init).slot channelId index).bufLen := by
  have hok := slotsOk_init.run inputs
  constructor
  · intro before channelId index packet after htrace
    exact hok.handed before _ after htrace
  · intro channelId index
    exact (hok.slot channelId index).dataLen_le

/-- A packet of 34 bytes in two slices, with surroundings that decrypt nothing. -/
def twoSlices : List SliceInput :=
  let env : SliceEnv := ⟨fun _ _ _ => none, fun _ => 0, .ok, .ok⟩
  let packet (sliceSeq : Int32) : Packet :=
    ⟨packSliceHead ⟨1, 2, sliceSeq, 0⟩ ++ List.replicate 17 5, by
      simp [packSliceHead, packWord, Bytes.length_toLE]⟩
  [.received env 7 (packet 0), .received env 7 (packet 1)]

theorem whole_twoSlices :
    (twoSlices.foldl SliceWorld.step .init).trace =
        [.cleared 7 1, .slice 7 1 2 0 (List.replicate 17 5), .slice 7 1 2 1 (List.replicate 17 5)] ++
          .noSubPacket 7 1 true (List.replicate 34 5) :: [.cleared 7 1] ∧
      ∃ sliceNum parts, slicesSince 7 1 [.cleared 7 1, .slice 7 1 2 0 (List.replicate 17 5),
            .slice 7 1 2 1 (List.replicate 17 5)] = slicesOf sliceNum parts ∧
          (parts.length : ℤ) = sliceNum.toInt ∧ List.replicate 34 5 = parts.flatten :=
  have htrace : (twoSlices.foldl step .init).trace = _ := by decide +kernel
  ⟨htrace, (handed_packets_are_whole twoSlices).1 _ _ _ _ _ htrace⟩

end SoftBus.Native
