import SoftBus.ForStd.Framing
import SoftBus.Native.TdcMessage

/-!
# The packets that come out of a TCP direct channel

On a host with the low byte first, a channel processes the packets that were sent to it, each
once and in their order, however `recv` splits the stream, as long as the session accepts
them.  The buffer may grow while a packet is waited for; no byte is lost then, and there is
always space for the next `recv`.  On the other hosts the head of a packet that does not come
at once is converted twice, and the channel is closed.
-/

namespace SoftBus.Native
open Framing List Bytes UInt32
variable {cipher : TdcCipher} {maxLen : UInt32} {ch : TdcChannel} {enough : Prop}
  {done : List (List UInt8 × TdcPacket)}

/-! ## Packets -/

/-- A packet on the way: its bytes are good, and `packet` is what is to be processed. -/
structure TdcFrame (cipher : TdcCipher) (maxLen : UInt32) (frame : List UInt8) (packet : TdcPacket) :
    Prop where
  magic : hostWordAt true frame 0 = magicNumber
  seq : (hostWordAt true frame 4).toInt32 = packet.seq
  flag : hostWordAt true frame 8 = packet.flag
  len : (hostWordAt true frame 12).toNat + dcDataHeadSize = frame.length
  lt : dcDataHeadSize + overheadLen < frame.length
  fits : frame.length ≤ maxLen.toNat
  malloc : frame.length ≤ maxMallocSize
  plain : cipher.decrypt (frame.drop dcDataHeadSize) = some packet.plain
  known : packet.flag = TdcFlag.ack.code ∨
    packet.flag = TdcFlag.bytes.code ∨ packet.flag = TdcFlag.message.code

/-- What `TransTdcPackData` is called with, on a host of the given byte order. -/
structure TdcSent where
  littleEndian : Bool
  sequence : Int32
  data : List UInt8
  flag : TdcFlag

namespace TdcSent

def frame (cipher : TdcCipher) (sent : TdcSent) : Option (List UInt8) :=
  transTdcPackData cipher sent.littleEndian sent.sequence sent.data sent.flag

/-- What is to be processed of it. -/
def packet (sent : TdcSent) : TdcPacket :=
  let final := tdcFinal sent.littleEndian sent.sequence sent.data sent.flag
  ⟨sent.flag.code, final.1, final.2⟩

/-- The packet is within the limit of the receiver; an acknowledgement is for a number. -/
structure Fits (maxLen : UInt32) (sent : TdcSent) : Prop where
  len : dcDataHeadSize + (sent.data.length + overheadLen) ≤ maxLen.toNat
  ack : sent.flag = .ack → sent.data.length = 4

end TdcSent

/-- The words of a head. -/
theorem hostWordAt_toLE (before after : List UInt8) (v : UInt32) :
    hostWordAt true (before ++ (toLE 4 v.toNat ++ after)) before.length = v := by
  unfold hostWordAt
  dsimp only
  rw [if_pos rfl, drop_left, take_left' (length_toLE 4 _),
    ofLE_toLE_of_lt (by exact v.toNat_lt), UInt32.ofNat_toNat]

theorem length_packTcpDataPacketHead (seq : Int32) (flag : TdcFlag) (dataLen : UInt32) :
    (packTcpDataPacketHead seq flag dataLen).length = dcDataHeadSize := by
  simp [packTcpDataPacketHead, dcDataHeadSize]

/-- Four words in a row. -/
theorem hostWordAt_four (a b c d : UInt32) (rest : List UInt8) :
    let bytes := toLE 4 a.toNat ++ (toLE 4 b.toNat ++ (toLE 4 c.toNat ++ (toLE 4 d.toNat ++ rest)))
    hostWordAt true bytes 0 = a ∧ hostWordAt true bytes 4 = b ∧ hostWordAt true bytes 8 = c ∧
      hostWordAt true bytes 12 = d := by
  have hb := hostWordAt_toLE (toLE 4 a.toNat)
  have hc := hostWordAt_toLE (toLE 4 a.toNat ++ toLE 4 b.toNat)
  have hd := hostWordAt_toLE (toLE 4 a.toNat ++ (toLE 4 b.toNat ++ toLE 4 c.toNat))
  exact ⟨hostWordAt_toLE [] _ a, hb _ b, hc _ c, hd _ d⟩

theorem tdcFrame_of_pack {sent : TdcSent} (hfits : sent.Fits maxLen) {frame : List UInt8}
    (h : sent.frame cipher = some frame) :
    TdcFrame cipher maxLen frame sent.packet := by
  obtain ⟨littleEndian, sequence, data, flag⟩ := sent
  obtain ⟨hlen, hack⟩ := hfits
  simp only [TdcSent.frame, transTdcPackData] at h
  split at h
  · exact absurd h nofun
  next hmalloc =>
  split at h
  · exact absurd h nofun
  next hdata =>
  unfold dcDataHeadSize overheadLen at hlen
  dsimp only at hlen hack hdata
  have hmax := maxLen.toNat_lt
  -- the length is not cut by its type
  have hdataLen : (ofNat data.length + 28).toNat = data.length + 28 := by
    change (data.length % 2 ^ 32 + 28) % 2 ^ 32 = _
    omega
  have hfinal : (tdcFinal littleEndian sequence data flag).2.length = data.length := by
    cases flag with
    | ack => rw [hack rfl]; exact length_toBE 4 _
    | bytes | message => rfl
  unfold TdcSent.packet
  generalize tdcFinal littleEndian sequence data flag = final at h hfinal ⊢
  have hframe := Option.some.inj h
  obtain ⟨hmagic, hseq, hflag, hword⟩ := hostWordAt_four magicNumber final.1.toUInt32 flag.code
    (ofNat data.length + 28) (cipher.encrypt final.1 final.2)
  have hbytes : frame = toLE 4 magicNumber.toNat ++ (toLE 4 final.1.toUInt32.toNat ++
      (toLE 4 flag.code.toNat ++ (toLE 4 (ofNat data.length + 28).toNat ++ cipher.encrypt final.1 final.2))) := by
    rw [← hframe]
    simp only [packTcpDataPacketHead, append_assoc]
  have hlength : frame.length = 16 + (data.length + 28) := by
    rw [← hframe, length_append, cipher.length_encrypt, hfinal]
    rfl
  rw [← hbytes] at hmagic hseq hflag hword
  refine ⟨hmagic, by rw [hseq]; rfl, hflag, ?_, ?_, ?_, ?_, ?_, ?_⟩
  · rw [hword, hdataLen, hlength]
    exact Nat.add_comm _ _
  · unfold dcDataHeadSize overheadLen
    omega
  · omega
  · have hle : (ofNat data.length + 28 + 16).toNat ≤ maxMallocSize := by
      simpa [softBusMalloc] using hmalloc
    rw [UInt32.toNat_add, hdataLen] at hle
    change (data.length + 28 + 16) % 2 ^ 32 ≤ _ at hle
    omega
  · rw [← hframe, drop_left' (length_packTcpDataPacketHead _ _ _), cipher.decrypt_encrypt]
  · cases flag with
    | ack => exact .inl rfl
    | bytes => exact .inr (.inl rfl)
    | message => exact .inr (.inr rfl)

/-! ## One round -/

section LittleEndian
variable {size : UInt32} {accepts : ℕ → Bool} {buf pending frame : List UInt8} {packet : TdcPacket}
  {processed : List TdcPacket} {sizes : List ℤ}

/-- An open channel with `buf` in its buffer. -/
def tdcOpen (maxLen : UInt32) (accepts : ℕ → Bool) (size : UInt32) (buf : List UInt8)
    (processed : List TdcPacket) (sizes : List ℤ) : TdcChannel :=
  ⟨true, maxLen, accepts, some ⟨size, buf⟩, processed, sizes⟩

/-- The length of a packet is not cut by its type. -/
theorem TdcFrame.toNat_length (hframe : TdcFrame cipher maxLen frame packet) :
    (UInt32.ofNat frame.length).toNat = frame.length :=
  toNat_ofNat_of_lt' (Nat.lt_of_le_of_lt hframe.fits maxLen.toNat_lt)

/-- The head of the packet is not in the buffer. -/
theorem procRound_head (hlt : buf.length < dcDataHeadSize) :
    (tdcOpen maxLen accepts size buf processed sizes).transTdcProcRound cipher =
      (some .dataNotEnough, tdcOpen maxLen accepts size buf processed sizes) := by
  exact if_pos hlt

section
variable (hframe : TdcFrame cipher maxLen frame packet) (hhead : dcDataHeadSize ≤ buf.length)
  (htake : buf.take dcDataHeadSize = frame.take dcDataHeadSize)
include hframe hhead htake

/-- The head of the packet is in the buffer. -/
theorem procRound_eq :
    (tdcOpen maxLen accepts size buf processed sizes).transTdcProcRound cipher =
      if size.toNat < frame.length then
        let r := (tdcOpen maxLen accepts size buf processed sizes).transResizeDataBuffer ⟨size, buf⟩
          (.ofNat frame.length)
        (some r.1, r.2)
      else if buf.length < frame.length then
        (some .dataNotEnough, tdcOpen maxLen accepts size buf processed sizes)
      else
        let r := (tdcOpen maxLen accepts size buf processed sizes).transTdcProcessData cipher ⟨size, buf⟩
        if r.1 then (none, r.2) else (some .err, r.2) := by
  have hmagic : hostWordAt true buf 0 = magicNumber := (hostWordAt_eq_of_take (by decide) htake).trans hframe.magic
  have hlen := hframe.len
  have hfits := hframe.fits
  have hpkg : hostWordAt true buf 12 + 16 = ofNat frame.length := by
    rw [hostWordAt_eq_of_take (by decide) htake, ← hlen, UInt32.ofNat_add, UInt32.ofNat_toNat]
    rfl
  have hnat := hframe.toNat_length
  have hfit : ¬ (ofNat frame.length > maxLen) := by
    rw [gt_iff_lt, lt_iff_toNat_lt]
    omega
  have hgrow : (ofNat frame.length > size) = (size.toNat < frame.length) := by
    rw [gt_iff_lt, lt_iff_toNat_lt, hnat]
  unfold TdcChannel.transTdcProcRound tdcOpen
  simp only [Nat.not_lt.2 hhead, if_false, procFields_true, TdcChannel.setNode, hmagic, hpkg, hnat, hfit,
    hgrow, ne_eq, not_true_eq_false]

/-- The buffer grows to the size of the packet. -/
theorem procRound_resize (hbuf : buf.length ≤ size.toNat) (hsize : size.toNat < frame.length) :
    (tdcOpen maxLen accepts size buf processed sizes).transTdcProcRound cipher =
      (some .ok, tdcOpen maxLen accepts (.ofNat frame.length) buf processed sizes) := by
  have hmalloc := hframe.malloc
  have hnat := hframe.toNat_length
  have hcalloc : softBusCalloc (ofNat frame.length) = true := by
    have hne : ofNat frame.length ≠ 0 := by
      intro hzero
      rw [hzero, UInt32.toNat_zero] at hnat
      omega
    simp [softBusCalloc, hnat, hmalloc, hne]
  have hcopy : memcpyS frame.length buf = true := by
    unfold memcpyS
    unfold maxMallocSize at hmalloc
    rw [decide_eq_true_eq]
    omega
  rw [procRound_eq hframe hhead htake, if_pos hsize]
  simp only [TdcChannel.transResizeDataBuffer, hcalloc, hnat, hcopy, Bool.not_true, Bool.false_eq_true,
    if_false, if_true, TdcChannel.setNode, tdcOpen]

/-- The packet is waited for. -/
theorem procRound_part (hsize : frame.length ≤ size.toNat) (hlt : buf.length < frame.length) :
    (tdcOpen maxLen accepts size buf processed sizes).transTdcProcRound cipher =
      (some .dataNotEnough, tdcOpen maxLen accepts size buf processed sizes) := by
  rw [procRound_eq hframe hhead htake, if_neg (Nat.not_lt.2 hsize), if_pos hlt]

end

/-- The packet is processed and taken out of the buffer. -/
theorem procRound_whole (haccepts : ∀ n, accepts n = true) (hframe : TdcFrame cipher maxLen frame packet)
    (hwhole : buf.take frame.length = frame) (hsize : frame.length ≤ size.toNat)
    (hle : frame.length ≤ buf.length) :
    (tdcOpen maxLen accepts size buf processed sizes).transTdcProcRound cipher =
      (none, tdcOpen maxLen accepts size (buf.drop frame.length) (processed ++ [packet]) sizes) := by
  have hlen := hframe.len
  have hlt := hframe.lt
  have hhead : dcDataHeadSize ≤ frame.length := by omega
  have htake : buf.take dcDataHeadSize = frame.take dcDataHeadSize := by
    rw [← hwhole, take_take, Nat.min_eq_left hhead]
  rw [procRound_eq hframe (Nat.le_trans hhead hle) htake, if_neg (Nat.not_lt.2 hsize), if_neg (Nat.not_lt.2 hle)]
  have hwords : ∀ {i}, i + 4 ≤ dcDataHeadSize → hostWordAt true buf i = hostWordAt true frame i :=
    fun hi => hostWordAt_eq_of_take hi htake
  rw [← hwords (by decide)] at hlen
  have hcalloc : softBusCalloc (hostWordAt true buf 12 - 28) = true := by
    unfold overheadLen at hlt
    have hsub : (hostWordAt true buf 12 - 28).toNat = (hostWordAt true buf 12).toNat - 28 := by
      apply UInt32.toNat_sub_of_le
      rw [UInt32.le_iff_toNat_le]
      change 28 ≤ _
      omega
    have hne : hostWordAt true buf 12 - 28 ≠ 0 := by
      intro hzero
      rw [hzero, UInt32.toNat_zero] at hsub
      omega
    have hmalloc := hframe.malloc
    unfold softBusCalloc
    rw [decide_eq_true_eq]
    exact ⟨by omega, hne⟩
  have hcipher : (buf.drop dcDataHeadSize).take (hostWordAt true buf 12).toNat = frame.drop dcDataHeadSize := by
    rw [← hwhole, drop_take]
    congr 1
    omega
  have hknown : packet.flag = TdcFlag.ack.code ∨
      (packet.flag = TdcFlag.bytes.code ∨ packet.flag = TdcFlag.message.code) ∧
        accepts processed.length = true := by
    have := hframe.known
    tauto
  have hflag : hostWordAt true buf 8 = packet.flag := (hwords (by decide)).trans hframe.flag
  have hseq : (hostWordAt true buf 4).toInt32 = packet.seq := by
    rw [hwords (by decide)]
    exact hframe.seq
  simp only [TdcChannel.transTdcProcessData, tdcOpen, hcalloc, Bool.not_true, Bool.false_eq_true, if_false,
    hcipher, hframe.plain, TdcChannel.setNode, TdcChannel.transTdcProcessDataByFlag, hflag, hseq, hknown,
    decide_true, if_true]
  rw [Nat.add_comm dcDataHeadSize, hlen]

/-! ## All rounds -/

/-- The channel has processed the packets of `done`; of those of `rest` it has `buf`, which is
    less than a packet and than its buffer. -/
structure TdcWaiting (cipher : TdcCipher) (maxLen : UInt32) (accepts : ℕ → Bool) (sizes : List ℤ)
    (processed : List TdcPacket) (pending : List UInt8) (rest : List (List UInt8 × TdcPacket))
    (ch : TdcChannel) : Prop where
  exists_open : ∃ size buf, ch = tdcOpen maxLen accepts size buf processed sizes ∧
    dcDataHeadSize ≤ size.toNat ∧ buf.length < size.toNat ∧ Splits buf pending (rest.map Prod.fst) ∧
    ∀ frame ∈ rest.head?, buf.length < frame.1.length
  good : ∀ frame ∈ rest, TdcFrame cipher maxLen frame.1 frame.2

variable {rest : List (List UInt8 × TdcPacket)}

theorem procAllData (processed : List TdcPacket) (sizes : List ℤ) (haccepts : ∀ n, accepts n = true)
    (hrest : ∀ frame ∈ rest, TdcFrame cipher maxLen frame.1 frame.2) (hsize : dcDataHeadSize ≤ size.toNat)
    (hbuf : buf.length ≤ size.toNat) (h : Splits buf pending (rest.map Prod.fst)) {fuel : ℕ}
    (hfuel : buf.length < fuel) :
    let r := (tdcOpen maxLen accepts size buf processed sizes).transTdcProcAllData cipher fuel
    (r.1 = .ok ∨ r.1 = .dataNotEnough) ∧ ∃ done rest', rest = done ++ rest' ∧
        TdcWaiting cipher maxLen accepts sizes (processed ++ done.map Prod.snd) pending rest' r.2 := by
  induction fuel generalizing buf processed rest with
  | zero => exact absurd hfuel (Nat.not_lt_zero _)
  | succ fuel ih =>
    intro r
    -- a round that ends the loop with all packets still to be processed
    have hends : ∀ {ret : TdcRet} {size' : UInt32}, (ret = .ok ∨ ret = .dataNotEnough) →
        (tdcOpen maxLen accepts size buf processed sizes).transTdcProcRound cipher =
          (some ret, tdcOpen maxLen accepts size' buf processed sizes) →
        dcDataHeadSize ≤ size'.toNat → buf.length < size'.toNat →
        (∀ frame ∈ rest.head?, buf.length < frame.1.length) →
        (r.1 = .ok ∨ r.1 = .dataNotEnough) ∧ ∃ done rest', rest = done ++ rest' ∧
          TdcWaiting cipher maxLen accepts sizes (processed ++ done.map Prod.snd) pending rest' r.2 := by
      intro ret size' hret hround hsize' hbuf' hlt
      have hr : r = (ret, tdcOpen maxLen accepts size' buf processed sizes) := by
        simp only [r, TdcChannel.transTdcProcAllData, hround]
      rw [hr]
      refine ⟨hret, [], rest, rfl, ⟨⟨size', buf, ?_, hsize', hbuf', h, hlt⟩, hrest⟩⟩
      rw [map_nil, append_nil]
    cases rest with
    | nil =>
      obtain ⟨rfl, _⟩ := h.nil
      exact hends (.inr rfl) (procRound_head (by decide)) hsize (by
        exact Nat.lt_of_lt_of_le (by decide) hsize) nofun
    | cons head rest =>
      obtain ⟨frame, packet⟩ := head
      have hframe := hrest (frame, packet) mem_cons_self
      have hlt := hframe.lt
      dsimp only at hframe hlt
      rw [map_cons] at h
      dsimp only at h
      have hpart : buf.length < frame.length →
          ∀ head ∈ ((frame, packet) :: rest).head?, buf.length < head.1.length := by
        intro hlt head hhead
        cases hhead
        exact hlt
      by_cases hhead : dcDataHeadSize ≤ buf.length
      · have htake := h.take_eq hhead (by omega)
        by_cases hgrow : size.toNat < frame.length
        · refine hends (.inl rfl) (procRound_resize hframe hhead htake hbuf hgrow) ?_ ?_ (hpart (by omega))
          · rw [hframe.toNat_length]
            omega
          · rw [hframe.toNat_length]
            omega
        · by_cases hle : frame.length ≤ buf.length
          · -- the packet is processed, and the next round has less in its buffer
            obtain ⟨hwhole, hnext⟩ := h.next hle
            have hlen : (buf.drop frame.length).length = buf.length - frame.length := length_drop
            have hr : r = (tdcOpen maxLen accepts size (buf.drop frame.length) (processed ++ [packet])
                sizes).transTdcProcAllData cipher fuel := by
              simp only [r, TdcChannel.transTdcProcAllData,
                procRound_whole haccepts hframe hwhole (Nat.not_lt.1 hgrow) hle]
            rw [hr]
            obtain ⟨hret, done, rest', hsplit, hwait⟩ := ih (processed ++ [packet])
              (fun frame' hframe' => hrest frame' (mem_cons_of_mem _ hframe'))
              (by omega) hnext (by omega)
            refine ⟨hret, (frame, packet) :: done, rest', by rw [hsplit]; rfl, ?_⟩
            rw [append_assoc] at hwait
            exact hwait
          · exact hends (.inr rfl) (procRound_part hframe hhead htake (Nat.not_lt.1 hgrow)
              (Nat.not_le.1 hle)) hsize (by omega) (hpart (Nat.not_le.1 hle))
      · exact hends (.inr rfl) (procRound_head (Nat.not_le.1 hhead)) hsize (by omega) (hpart (by omega))

/-! ## Events -/

/-- What the channel has done with the packets that were sent: those it has processed come first
    and in their order; nothing of the others is lost, and each `recv` had space. -/
structure TdcDelivers (enough : Prop) (sent : List (List UInt8 × TdcPacket))
    (r : List UInt8 × TdcChannel) : Prop where
  exists_rest : ∃ done rest node, sent = done ++ rest ∧ r.2.processed = done.map Prod.snd ∧
    r.2.node = some node ∧ node.data ++ r.1 = (rest.map Prod.fst).flatten ∧
    ∀ frame ∈ rest.head?, node.data.length < frame.1.length
  recv_pos : ∀ size ∈ r.2.recvSizes, 0 < size
  complete : enough → r.2.processed = sent.map Prod.snd

theorem TdcWaiting.onDataEvent (haccepts : ∀ n, accepts n = true)
    (h : TdcWaiting cipher maxLen accepts sizes processed pending rest ch) {len : ℕ} (hlen : 0 < len)
    (hpending : pending ≠ []) :
    ∃ n done rest' size, 0 < n ∧ 0 < size ∧ rest = done ++ rest' ∧
      (ch.clientTdcOnDataEvent cipher len pending).1 = pending.drop n ∧
      TdcWaiting cipher maxLen accepts (sizes ++ [size]) (processed ++ done.map Prod.snd)
        (pending.drop n) rest' (ch.clientTdcOnDataEvent cipher len pending).2 := by
  obtain ⟨⟨size, buf, rfl, hsize, hbuf, hsplits, hlt⟩, hgood⟩ := h
  have hspace : (0 : ℤ) < (size.toNat : ℤ) - buf.length := by omega
  have hmin : 0 < min len ((size.toNat : ℤ) - buf.length).toNat := Nat.lt_min.2 ⟨hlen, by omega⟩
  have hle : min len ((size.toNat : ℤ) - buf.length).toNat ≤ size.toNat - buf.length := by
    omega
  obtain ⟨n, hn⟩ : ∃ n, n = min len ((size.toNat : ℤ) - buf.length).toNat := ⟨_, rfl⟩
  rw [← hn] at hmin hle
  have htake : pending.take n ≠ [] := by
    simp [hpending, Nat.pos_iff_ne_zero.1 hmin]
  have hbuf' : (buf ++ pending.take n).length ≤ size.toNat := by
    rw [length_append, length_take]
    omega
  have hproc := procAllData processed (sizes ++ [(size.toNat : ℤ) - buf.length]) haccepts hgood hsize hbuf'
    (hsplits.read n) (Nat.lt_succ_self _)
  obtain ⟨hret, done, rest', hsplit, hwait⟩ := hproc
  have hevent : (tdcOpen maxLen accepts size buf processed sizes).clientTdcOnDataEvent cipher len pending =
      (pending.drop n, ((tdcOpen maxLen accepts size (buf ++ pending.take n) processed
        (sizes ++ [(size.toNat : ℤ) - buf.length])).transTdcProcAllData cipher
          ((buf ++ pending.take n).length + 1)).2) := by
    simp only [TdcChannel.clientTdcOnDataEvent, tdcOpen, TdcChannel.setNode, ← hn, htake, if_false]
    unfold tdcOpen at hret
    rcases hret with hret | hret
    · rw [hret]
    · rw [hret]
  rw [hevent]
  exact ⟨n, done, rest', _, hmin, hspace, hsplit, rfl, hwait⟩

/-- Nothing more comes. -/
theorem TdcWaiting.delivers (h : TdcWaiting cipher maxLen accepts sizes (done.map Prod.snd) pending rest ch)
    (hsizes : ∀ size ∈ sizes, 0 < size) (hall : enough → pending = []) :
    TdcDelivers enough (done ++ rest) (pending, ch) := by
  obtain ⟨⟨size, buf, rfl, hsize, hbuf, hsplits, hlt⟩, _⟩ := h
  refine ⟨⟨done, rest, ⟨size, buf⟩, rfl, rfl, rfl, hsplits, hlt⟩, hsizes, fun he => ?_⟩
  cases rest with
  | nil => rw [append_nil]; rfl
  | cons frame rest =>
    -- the rest of the stream is in the buffer, so a whole packet is
    rw [hall he] at hsplits
    exact absurd hsplits.length_le (Nat.not_le.2 (hlt frame rfl))

theorem TdcWaiting.receiveAll (haccepts : ∀ n, accepts n = true) {lens : List ℕ} (hlens : ∀ len ∈ lens, 0 < len)
    (h : TdcWaiting cipher maxLen accepts sizes (done.map Prod.snd) pending rest ch)
    (hsizes : ∀ size ∈ sizes, 0 < size) (henough : enough → pending.length ≤ lens.length) :
    TdcDelivers enough (done ++ rest) (ch.receiveAll cipher lens pending) := by
  induction lens generalizing ch done pending rest sizes with
  | nil =>
    apply h.delivers hsizes
    exact fun he => eq_nil_of_length_eq_zero (Nat.le_zero.1 (henough he))
  | cons len lens ih =>
    rw [TdcChannel.receiveAll]
    split
    · next hnil => exact h.delivers hsizes fun _ => hnil
    · next hne =>
      obtain ⟨n, done', rest', size, hn, hsize, hsplit, hbytes, hwait⟩ :=
        h.onDataEvent haccepts (hlens len mem_cons_self) hne
      rw [← map_append] at hwait
      rw [hsplit, ← append_assoc]
      dsimp only
      rw [hbytes]
      apply ih (fun len' hlen' => hlens len' (mem_cons_of_mem _ hlen')) hwait
      · simpa [or_imp, forall_and, hsize] using hsizes
      · intro he
        have hle := henough he
        rw [length_cons] at hle
        rw [length_drop]
        omega

end LittleEndian

/-! ## Hosts -/

/-- The bytes of the packets that were sent, with what is to be processed. -/
theorem tdcFrame_of_mem_zip {sent : List TdcSent} {frames : List (List UInt8)} (hfits : ∀ s ∈ sent, s.Fits maxLen)
    (hframes : sent.map (·.frame cipher) = frames.map some) :
    ∀ frame ∈ frames.zip (sent.map (·.packet)), TdcFrame cipher maxLen frame.1 frame.2 := by
  induction sent generalizing frames with
  | nil => simp
  | cons s sent ih =>
    cases frames with
    | nil => simp
    | cons frame frames =>
      rw [map_cons, map_cons, cons.injEq] at hframes
      rw [map_cons, zip_cons_cons, forall_mem_cons]
      refine ⟨tdcFrame_of_pack (hfits s mem_cons_self) hframes.1, ?_⟩
      exact ih (fun s' hs' => hfits s' (mem_cons_of_mem _ hs')) hframes.2

/-- A cipher that hides nothing. -/
def plainCipher : TdcCipher where
  encrypt _ data := List.replicate overheadLen 0 ++ data
  decrypt bytes := some (bytes.drop overheadLen)
  decrypt_encrypt _ data := by rw [List.drop_left' List.length_replicate]
  length_encrypt _ data := by rw [List.length_append, List.length_replicate, Nat.add_comm]

/-- One byte that is sent from a host with the low byte first. -/
def oneByteSent : TdcSent := ⟨true, 1, [7], .bytes⟩

/-- On a host with the high byte first, a packet whose head comes before the rest closes the
    channel and is not processed. -/
theorem split_packet_lost :
    let frame := (oneByteSent.frame plainCipher).getD []
    let r := (TdcChannel.new false 4096 fun _ => true).receiveAll plainCipher [16, 29] frame
    frame.length = 45 ∧ r.1 = [] ∧ r.2.node = none ∧ r.2.processed = [] := by
  decide +kernel

/-- For every cipher, every sequence of packets that were packed on any hosts and fit, and every
    way in which `recv` splits their bytes, a channel whose session accepts the packets
    delivers them.  This is so on the hosts with the low byte first, and only there. -/
theorem tdcDelivers_iff (littleEndian : Bool) :
    (∀ (cipher : TdcCipher) (maxLen : UInt32) (accepts : ℕ → Bool) (sent : List TdcSent)
        (frames : List (List UInt8)) (lens : List ℕ), (∀ n, accepts n = true) →
          (∀ s ∈ sent, s.Fits maxLen) → sent.map (·.frame cipher) = frames.map some →
            (∀ len ∈ lens, 0 < len) →
              TdcDelivers (frames.flatten.length ≤ lens.length) (frames.zip (sent.map (·.packet)))
                ((TdcChannel.new littleEndian maxLen accepts).receiveAll cipher lens frames.flatten)) ↔
      littleEndian = true := by
  constructor
  · intro h
    by_contra hbig
    obtain rfl : littleEndian = false := by simpa using hbig
    -- the head of the packet comes first, and the channel is closed
    have hdelivers := h plainCipher 4096 (fun _ => true) [oneByteSent]
      [(oneByteSent.frame plainCipher).getD []] [16, 29] (fun _ => rfl) (by
        intro s hs
        rw [mem_singleton.1 hs]
        exact ⟨by decide, nofun⟩) (by decide +kernel) (by decide)
    obtain ⟨done, rest, node, _, _, hnode, _⟩ := hdelivers.exists_rest
    exact absurd hnode nofun
  · rintro rfl cipher maxLen accepts sent frames lens haccepts hfits hframes hlens
    have hlength : frames.length ≤ (sent.map (·.packet)).length := by
      have := congrArg length hframes
      simp only [length_map] at this ⊢
      omega
    have hfst : (frames.zip (sent.map (·.packet))).map Prod.fst = frames := map_fst_zip hlength
    have hgood := tdcFrame_of_mem_zip hfits hframes
    have hwaiting : TdcWaiting cipher maxLen accepts [] (([] : List (List UInt8 × TdcPacket)).map Prod.snd)
        frames.flatten (frames.zip (sent.map (·.packet))) (TdcChannel.new true maxLen accepts) := by
      refine ⟨⟨minBufLen, [], rfl, by decide, by decide, ?_, fun frame hframe => ?_⟩, hgood⟩
      · exact (nil_append _).trans (congrArg flatten hfst.symm)
      · exact Nat.lt_of_le_of_lt (Nat.zero_le _) (hgood frame (mem_of_mem_head? hframe)).lt
    exact hwaiting.receiveAll haccepts hlens (by simp) id

/-! ## Streams of any bytes -/

/-- Only a length within the limit can be allocated for the plain text: the length of the packet
    has not wrapped around. -/
theorem toNat_of_softBusCalloc {dataLen : UInt32} (h : softBusCalloc (dataLen - 28) = true) :
    overheadLen ≤ dataLen.toNat ∧ (dataLen + 16).toNat = dcDataHeadSize + dataLen.toNat := by
  have hlt := dataLen.toNat_lt
  simp only [softBusCalloc, maxMallocSize, decide_eq_true_eq, UInt32.toNat_sub] at h
  have h28 : UInt32.toNat 28 = 28 := rfl
  have h16 : UInt32.toNat 16 = 16 := rfl
  rw [UInt32.toNat_add]
  unfold overheadLen dcDataHeadSize
  omega

/-- Whatever is in the buffer, a round either decrypts, processes and consumes nothing; or the
    packet at the begin of the buffer is there as a whole, it is not shorter than what encryption
    adds, and just its bytes are decrypted, and consumed if they can be. -/
theorem procRound_in_bounds (ch : TdcChannel) (node : ClientDataBuf) :
    let bytes := procFields ch.littleEndian [4, 4, 4, 4] node.data
    let dataLen := (hostWordAt ch.littleEndian bytes 12).toNat
    (∃ ret ch' node', (∀ cipher, (ch.setNode node).transTdcProcRound cipher = (some ret, ch')) ∧
        ch'.processed = ch.processed ∧ ch'.node = some node' ∧ node'.data.length = node.data.length) ∨
      overheadLen ≤ dataLen ∧ dcDataHeadSize + dataLen ≤ node.data.length ∧
        ∀ cipher : TdcCipher,
          let r := (ch.setNode node).transTdcProcRound cipher
          match cipher.decrypt ((bytes.drop dcDataHeadSize).take dataLen) with
          | none => r = (some .err, ch.setNode { node with data := bytes })
          | some plain => ∃ flag seq, r.2.processed = ch.processed ++ [⟨flag, seq, plain⟩] ∧
            r.2.node = some { node with data := bytes.drop (dcDataHeadSize + dataLen) } := by
  intro bytes dataLen
  have hbytes : bytes.length = node.data.length := length_procFields ..
  have hnode : (ch.setNode node).node = some node := rfl
  simp only [TdcChannel.transTdcProcRound, hnode]
  split
  · exact .inl ⟨_, _, _, fun _ => rfl, rfl, rfl, rfl⟩
  split
  · exact .inl ⟨_, _, _, fun _ => rfl, rfl, rfl, hbytes⟩
  split
  · exact .inl ⟨_, _, _, fun _ => rfl, rfl, rfl, hbytes⟩
  split
  · -- the buffer grows, if it can
    simp only [TdcChannel.transResizeDataBuffer]
    split
    · exact .inl ⟨_, _, _, fun _ => rfl, rfl, rfl, hbytes⟩
    · split
      · exact .inl ⟨_, _, _, fun _ => rfl, rfl, rfl, hbytes⟩
      · exact .inl ⟨_, _, _, fun _ => rfl, rfl, rfl, hbytes⟩
  split
  · exact .inl ⟨_, _, _, fun _ => rfl, rfl, rfl, hbytes⟩
  next hwhole =>
  simp only [TdcChannel.transTdcProcessData]
  split
  · exact .inl ⟨_, _, _, fun _ => rfl, rfl, rfl, hbytes⟩
  next hcalloc =>
  obtain ⟨hmin, hpkg⟩ := toNat_of_softBusCalloc (by simpa using hcalloc)
  rw [hpkg, not_lt] at hwhole
  refine .inr ⟨hmin, hbytes ▸ hwhole, fun cipher => ?_⟩
  split
  · next hnone =>
    simp only [dataLen, bytes] at hnone
    simp only [TdcChannel.setNode, hnone, Bool.false_eq_true, if_false, bytes]
  · next plain hplain =>
    simp only [dataLen, bytes] at hplain
    simp only [TdcChannel.setNode, hplain, TdcChannel.transTdcProcessDataByFlag]
    split
    · exact ⟨_, _, rfl, rfl⟩
    · exact ⟨_, _, rfl, rfl⟩

end SoftBus.Native
