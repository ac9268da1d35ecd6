import Mathlib
import SoftBus.ForStd.Chunks
import SoftBus.Native.BleTrans

/-!
# The fragments of a message on a BLE connection

The fragments that `BleTransSend` makes of a message may come in any order, with fragments
of two other sequence numbers between them: the three caches of the connection are enough
for the three sequence numbers, and the message is complete with its last fragment, whichever
that is.
-/

namespace SoftBus.Native
open Function List Bytes Chunks
variable {n fuel m : ℕ} {i : Fin 3} {mtu : Int32} {seq a b s : UInt32} {value message : List UInt8}
  {halSend : ℕ → TransErr} {c c' : RecvCaches} {pre rest : List ℕ} {values : List (List UInt8)}

/-! ## Heads -/

theorem bigWordAt_packed (before after : List UInt8) (v : UInt32) :
    bigWordAt (before ++ (toBE 4 v.toNat ++ after)) before.length = v := by
  have hlt : v.toNat < 256 ^ 4 := v.toNat_lt
  rw [bigWordAt, drop_left, take_left' (length_toBE 4 _), ofBE_toBE_of_lt hlt, UInt32.ofNat_toNat]

theorem length_packBleTransHeader (header : BleTransHeader) :
    (packBleTransHeader header).length = bleTransHeaderLen.toNat := by
  simp [packBleTransHeader, bleTransHeaderLen]

/-- A head is read back. -/
theorem readBleTransHeader_packed (header : BleTransHeader) (data : List UInt8) :
    readBleTransHeader (packBleTransHeader header ++ data) = header := by
  obtain ⟨seq, size, offset, total⟩ := header
  have h0 := bigWordAt_packed [] (toBE 4 size.toNat ++ (toBE 4 offset.toNat ++
    (toBE 4 total.toNat ++ data))) seq
  have h1 := bigWordAt_packed (toBE 4 seq.toNat) (toBE 4 offset.toNat ++
    (toBE 4 total.toNat ++ data)) size
  have h2 := bigWordAt_packed (toBE 4 seq.toNat ++ toBE 4 size.toNat)
  have h3 := bigWordAt_packed (toBE 4 seq.toNat ++ (toBE 4 size.toNat ++
    toBE 4 offset.toNat)) data total
  simp only [length_append, length_toBE, append_assoc, nil_append,
    length_nil, Nat.reduceAdd] at h0 h1 h2 h3
  simp only [readBleTransHeader, packBleTransHeader, append_assoc, h0, h1, h2, h3]

/-! ## Sending -/

/-- Fragment `k` of a message, with `n` bytes in a fragment. -/
def bleFragment (seq : UInt32) (n : ℕ) (message : List UInt8) (k : ℕ) : List UInt8 :=
  packBleTransHeader ⟨seq, .ofNat (Chunks.chunk n message k).length, .ofNat (n * k),
    .ofNat message.length⟩ ++ Chunks.chunk n message k

/-- The loop from fragment `i` on. -/
theorem bleTransSendLoop_ok (seq : UInt32) (hn : 0 < n) (hlen : message.length ≤ 4096) {i : ℕ}
    (hfuel : count n message ≤ i + fuel) :
    bleTransSendLoop seq (.ofNat message.length) n (fun _ => .ok) fuel i (message.drop (n * i))
        (min (n * i) message.length) =
      (.ok, (range' i (count n message - i)).map (bleFragment seq n message)) := by
  induction fuel generalizing i with
  | zero =>
    rw [show count n message - i = 0 by omega]
    rfl
  | succ fuel ih =>
    unfold bleTransSendLoop
    by_cases hi : i < count n message
    · have hstart := (lt_count hn).1 hi
      have hend := chunk_end hn hi
      have hmin : min (message.drop (n * i)).length n = (chunk n message i).length := by
        rw [length_chunk, length_drop, Nat.min_comm]
      have hcopy : memcpyS (chunk n message i).length (chunk n message i) = true :=
        decide_eq_true ⟨by rw [length_chunk]; omega, by rw [length_chunk]; omega, le_rfl⟩
      have htake : (message.drop (n * i)).take (chunk n message i).length = chunk n message i := by
        exact take_eq_take_iff.2 (by omega)
      have hdrop : (message.drop (n * i)).drop (chunk n message i).length =
          message.drop (n * (i + 1)) := by
        rw [drop_drop, hend]
        by_cases hle : n * (i + 1) ≤ message.length
        · rw [Nat.min_eq_left hle]
        · rw [Nat.min_eq_right (by omega), drop_length, drop_eq_nil_of_le (by omega)]
      rw [if_neg (by rw [length_drop]; omega)]
      simp only [hmin, htake, hdrop, Nat.min_eq_left (Nat.le_of_lt hstart), hend, if_pos hcopy]
      rw [ih (by omega), show count n message - i = count n message - (i + 1) + 1 by omega, range'_succ]
      rfl
    · have hstop : ¬n * i < message.length := mt (lt_count hn).2 hi
      rw [if_pos (by rw [length_drop]; omega), show count n message - i = 0 by omega]
      rfl

/-- The bytes of a message in one fragment. -/
def fragmentLen (mtu : Int32) : ℕ := (mtu.toUInt32 - mtuHeaderSize - bleTransHeaderLen).toNat

theorem bleTransSend_ok (hmtu : 0 < fragmentLen mtu) (hlen : message.length ≤ 4096) (seq : Int32) :
    bleTransSend mtu message seq (fun _ => .ok) = (.ok, (range (count (fragmentLen mtu) message)).map
        (bleFragment seq.toUInt32 (fragmentLen mtu) message)) := by
  have hfuel : count (fragmentLen mtu) message ≤ 0 + message.length := by
    rw [Nat.zero_add]
    by_contra hlt
    have hlast := (lt_count hmtu).1 (Nat.lt_of_not_le hlt)
    have hmul := Nat.le_mul_of_pos_left message.length hmtu
    omega
  have hloop := bleTransSendLoop_ok seq.toUInt32 hmtu hlen hfuel
  rw [Nat.mul_zero, ← range_eq_range'] at hloop
  exact hloop

theorem bigWordAt_of_mem_loop {len : UInt32} {i offset : ℕ} {sendData : List UInt8}
    (h : value ∈ (bleTransSendLoop seq len n halSend fuel i sendData offset).2) :
    bigWordAt value 0 = seq := by
  induction fuel generalizing i sendData offset with
  | zero => simp [bleTransSendLoop] at h
  | succ fuel ih =>
    unfold bleTransSendLoop at h
    split at h
    · simp at h
    dsimp only at h
    split at h
    · split at h
      · rcases mem_cons.1 h with rfl | h
        · exact congrArg BleTransHeader.seq (readBleTransHeader_packed _ _)
        · exact ih h
      · simp at h
    · simp at h

/-- The packets of a message carry its sequence number. -/
theorem bigWordAt_of_mem_bleTransSend {seq : Int32} (h : value ∈ (bleTransSend mtu message seq halSend).2) :
    bigWordAt value 0 = seq.toUInt32 :=
  bigWordAt_of_mem_loop h

theorem fragmentLen_add (h : 19 ≤ mtu) : (fragmentLen mtu : ℤ) + 19 = mtu.toInt := by
  have hle : (19 : ℤ) ≤ mtu.toInt := Int32.le_iff_toInt_le.1 h
  have hmax := mtu.toInt_lt
  have hpos : 0 ≤ mtu := by
    rw [Int32.le_iff_toInt_le, Int32.toInt_zero]
    omega
  have hnat : mtu.toUInt32.toNat = mtu.toInt.toNat := Int32.toNat_toUInt32_of_le hpos
  have h3 : UInt32.toNat 3 = 3 := rfl
  have h16 : UInt32.toNat 16 = 16 := rfl
  simp only [fragmentLen, UInt32.toNat_sub, mtuHeaderSize, bleTransHeaderLen, hnat]
  omega

theorem fragmentLen_pos (h : 19 < mtu) : 0 < fragmentLen mtu := by
  have hadd := fragmentLen_add (Int32.le_of_lt h)
  have hlt : (19 : ℤ) < mtu.toInt := Int32.lt_iff_toInt_lt.1 h
  omega

/-- What the loop sends; rounds beyond the number of bytes change nothing. -/
theorem bleTransSendLoop_spec (seq len : UInt32) (n : ℕ) (halSend : ℕ → TransErr) (i offset : ℕ) (sendData : List UInt8) :
    ∃ ret sent, (∀ rounds, sendData.length ≤ rounds →
        bleTransSendLoop seq len n halSend rounds i sendData offset = (ret, sent)) ∧
      (ret = .ok → (sent.map (drop bleTransHeaderLen.toNat)).flatten = sendData) ∧
      ∀ packet ∈ sent, packet.length ≤ bleTransHeaderLen.toNat + n := by
  induction hl : sendData.length using Nat.strong_induction_on generalizing i offset sendData with
  | _ l ih =>
  subst hl
  by_cases hnil : sendData = []
  · subst hnil
    exact ⟨.ok, [], fun rounds _ => by cases rounds <;> rfl, fun _ => rfl, by simp⟩
  have hpos := length_pos_iff.2 hnil
  have hround : ∀ rounds, sendData.length ≤ rounds → ∃ m, rounds = m + 1 := fun rounds hle => ⟨rounds - 1, by omega⟩
  generalize hsize : min sendData.length n = size
  by_cases hcopy : memcpyS size (sendData.take size) = true
  swap
  · refine ⟨.erange, [], fun rounds hle => ?_, by simp, by simp⟩
    obtain ⟨m, rfl⟩ := hround rounds hle
    simp [bleTransSendLoop, hnil, hsize, hcopy]
  -- a copy that succeeds has taken a byte at least
  have hsome : 0 < size := (of_decide_eq_true hcopy).1
  obtain ⟨ret, sent, hloop, hall, hlen⟩ := ih _ (by rw [length_drop]; omega) (i + 1) (offset + size)
    (sendData.drop size) rfl
  by_cases hsend : halSend i = .ok
  · refine ⟨ret, (packBleTransHeader ⟨seq, .ofNat size, .ofNat offset, len⟩ ++ sendData.take size) :: sent,
      fun rounds hle => ?_, fun hok => ?_, forall_mem_cons.2 ⟨?_, hlen⟩⟩
    · obtain ⟨m, rfl⟩ := hround rounds hle
      simp only [bleTransSendLoop, if_neg hpos.ne', hsize, if_pos hcopy, hsend]
      rw [hloop m (by rw [length_drop]; omega)]
    · rw [map_cons, flatten_cons, drop_left' (length_packBleTransHeader _), hall hok, take_append_drop]
    · rw [length_append, length_packBleTransHeader, length_take]
      omega
  · refine ⟨halSend i, [], fun rounds hle => ?_, fun hok => absurd hok hsend, by simp⟩
    obtain ⟨m, rfl⟩ := hround rounds hle
    simp only [bleTransSendLoop, if_neg hpos.ne', hsize, if_pos hcopy]

/-- The caches that are used are for three sequence numbers, with one cache for each. -/
structure CachesOk (a b seq : UInt32) (c : RecvCaches) : Prop where
  seq_mem : ∀ i, (c i).isUsed = true → (c i).seq = a ∨ (c i).seq = b ∨ (c i).seq = seq
  inj : ∀ i j, (c i).isUsed = true → (c j).isUsed = true → (c i).seq = (c j).seq → i = j

/-- The cache that is found is the one of the sequence number, or it is taken for it. -/
inductive CacheFound (c : RecvCaches) (seq : UInt32) : Fin 3 → RecvCaches → Prop where
  | old (i : Fin 3) (hused : (c i).isUsed = true) (hseq : (c i).seq = seq) : CacheFound c seq i c
  | new (i : Fin 3) (buf : List UInt8) (hunused : (c i).isUsed = false)
      (hnone : ∀ j, (c j).isUsed = true → (c j).seq ≠ seq) :
      CacheFound c seq i (update c i ⟨true, seq, 0, some buf⟩)

theorem cacheFound_of_find (h : findAvailableCacheIndex c seq = some (i, c')) : CacheFound c seq i c' := by
  unfold findAvailableCacheIndex at h
  split at h
  · next j hfind =>
    obtain ⟨rfl, rfl⟩ := Prod.mk.inj (Option.some.inj h)
    have hj : (c j).isUsed = true ∧ (c j).seq = seq := by simpa using find?_some hfind
    exact .old j hj.1 hj.2
  · next hnone =>
    split at h
    · simp at h
    · next j hfind =>
      obtain ⟨rfl, rfl⟩ := Prod.mk.inj (Option.some.inj h)
      refine .new j _ (by simpa using find?_some hfind) fun k hused hseq => ?_
      have hk := find?_eq_none.1 hnone k (mem_finRange k)
      simp [hused, hseq] at hk

/-- There is a cache for a sequence number of the three. -/
theorem CachesOk.find (h : CachesOk a b seq c) :
    ∃ i c', findAvailableCacheIndex c seq = some (i, c') := by
  unfold findAvailableCacheIndex
  split
  · exact ⟨_, _, rfl⟩
  next hnone =>
  split
  · next hall =>
    -- three caches for two sequence numbers: two of them are the same
    have hused : ∀ i, (c i).isUsed = true := by
      intro i
      simpa using find?_eq_none.1 hall i (mem_finRange i)
    have hab : ∀ i, (c i).seq = a ∨ (c i).seq = b := by
      intro i
      have hi := find?_eq_none.1 hnone i (mem_finRange i)
      have hne : (c i).seq ≠ seq := fun hseq => by simp [hused i, hseq] at hi
      rcases h.seq_mem i (hused i) with ha | hb | hseq
      · exact .inl ha
      · exact .inr hb
      · exact absurd hseq hne
    have hinj : ∀ i j, (c i).seq = (c j).seq → i = j := fun i j => h.inj i j (hused i) (hused j)
    have h0 := hab 0
    have h1 := hab 1
    have h2 := hab 2
    grind
  · exact ⟨_, _, rfl⟩

/-- What a packet does to the caches: nothing, or it changes the cache of its sequence number. -/
inductive CacheStep (c : RecvCaches) (seq : UInt32) : RecvCaches → Prop where
  | same : CacheStep c seq c
  | changed (i : Fin 3) (node : BleRecvCache) (hnode : node.isUsed = true → node.seq = seq)
      (hold : (c i).isUsed = true → (c i).seq = seq)
      (hnone : ∀ j, j ≠ i → (c j).isUsed = true → (c j).seq ≠ seq) :
      CacheStep c seq (update c i node)

theorem CacheFound.cacheStep (hok : CachesOk a b seq c) (h : CacheFound c s i c') {node : BleRecvCache}
    (hnode : node.isUsed = true → node.seq = s) : CacheStep c s (update c' i node) := by
  cases h with
  | old hused hseq =>
    refine .changed i node hnode (fun _ => hseq) fun j hj hused' hseq' => ?_
    exact hj (hok.inj j i hused' hused (hseq'.trans hseq.symm))
  | new buf hunused hnone =>
    rw [update_idem]
    refine .changed i node hnode (fun hused => ?_) fun j _ => hnone j
    simp [hunused] at hused

theorem CacheFound.seq_eq (h : CacheFound c s i c') : (c' i).seq = s := by
  cases h with
  | old hused hseq => exact hseq
  | new buf hunused hnone => rw [update_self]

/-- A packet that is part of a message, with the cache that was found for it. -/
theorem bleOnReceive_part {header : BleTransHeader} (hheader : getTransHeader value = some header)
    (hpart : header.size ≠ header.total) (hfind : findAvailableCacheIndex c header.seq = some (i, c')) :
    bleOnReceive c value =
      if memcpyS (maxDataLen - header.offset).toNat (value.drop bleTransHeaderLen.toNat) then
        if (c' i).currentSize + header.size = header.total then
          (some ((PosFile.pwrite 0 ((c' i).cache.getD []) header.offset.toNat
              (value.drop bleTransHeaderLen.toNat)).take header.total.toNat),
            update c' i { c' i with
              isUsed := false, cache := none, currentSize := (c' i).currentSize + header.size })
        else
          (none, update c' i { c' i with
            cache := some (PosFile.pwrite 0 ((c' i).cache.getD []) header.offset.toNat
              (value.drop bleTransHeaderLen.toNat))
            currentSize := (c' i).currentSize + header.size })
      else
        (none, update c' i { c' i with isUsed := false }) := by
  unfold bleOnReceive bleTransRecv
  simp only [hheader, if_neg hpart, hfind]
  by_cases hcopy : memcpyS (maxDataLen - header.offset).toNat (value.drop bleTransHeaderLen.toNat) = true
  · by_cases htotal : (c' i).currentSize + header.size = header.total
    · simp only [if_pos hcopy, if_pos htotal, bleTransCacheFree, update_idem, update_self]
    · simp only [if_pos hcopy, if_neg htotal]
  · simp only [if_neg hcopy]

/-- Every packet changes the cache of its sequence number at most. -/
theorem cacheStep_bleOnReceive (hok : CachesOk a b seq c) (value : List UInt8) :
    CacheStep c (bigWordAt value 0) (bleOnReceive c value).2 := by
  cases hheader : getTransHeader value with
  | none =>
    unfold bleOnReceive bleTransRecv
    rw [hheader]
    exact .same
  | some header =>
    have hseq : header.seq = bigWordAt value 0 := by
      unfold getTransHeader at hheader
      dsimp only at hheader
      split at hheader
      · simp at hheader
      · rw [← Option.some.inj hheader]
        rfl
    rw [← hseq]
    by_cases hpart : header.size = header.total
    · unfold bleOnReceive bleTransRecv
      simp only [hheader, if_pos hpart]
      exact .same
    cases hfind : findAvailableCacheIndex c header.seq with
    | none =>
      unfold bleOnReceive bleTransRecv
      simp only [hheader, if_neg hpart, hfind]
      exact .same
    | some found =>
      have hfound := cacheFound_of_find hfind
      rw [bleOnReceive_part hheader hpart hfind]
      split
      · split
        · exact hfound.cacheStep hok fun hused => absurd hused (by simp)
        · exact hfound.cacheStep hok fun _ => hfound.seq_eq
      · exact hfound.cacheStep hok fun hused => absurd hused (by simp)

theorem CacheStep.cachesOk (hok : CachesOk a b seq c) (hs : s = a ∨ s = b ∨ s = seq) (h : CacheStep c s c') :
    CachesOk a b seq c' := by
  cases h with
  | same => exact hok
  | changed i node hnode hold hnone =>
    constructor
    · intro j hused
      by_cases hj : j = i
      · subst hj
        rw [update_self] at hused ⊢
        rwa [hnode hused]
      · rw [update_of_ne hj] at hused ⊢
        exact hok.seq_mem j hused
    · intro j k hused hused' hseq
      by_cases hj : j = i
      · subst hj
        by_cases hk : k = j
        · exact hk.symm
        · rw [update_self] at hused hseq
          rw [update_of_ne hk] at hused' hseq
          exact absurd (hseq.symm.trans (hnode hused)) (hnone k hk hused')
      · by_cases hk : k = i
        · subst hk
          rw [update_self] at hused' hseq
          rw [update_of_ne hj] at hused hseq
          exact absurd (hseq.trans (hnode hused')) (hnone j hj hused)
        · rw [update_of_ne hj] at hused hseq
          rw [update_of_ne hk] at hused' hseq
          exact hok.inj j k hused hused' hseq

/-! ## Collecting a message -/

/-- What the caches hold of a message: nothing yet, or the fragments `pre`. -/
inductive Collecting (seq : UInt32) (n : ℕ) (message : List UInt8) (c : RecvCaches) :
    List ℕ → Prop where
  | nothing (hnone : ∀ i, (c i).isUsed = true → (c i).seq ≠ seq) : Collecting seq n message c []
  | some (pre : List ℕ) (i : Fin 3) (buf : List UInt8) (hused : (c i).isUsed = true)
      (hseq : (c i).seq = seq)
      (hsize : (c i).currentSize = .ofNat (pre.map fun k => (Chunks.chunk n message k).length).sum)
      (hcache : (c i).cache = .some buf) (hpre : ∀ k ∈ pre, Chunks.HasChunk n message buf k) :
      Collecting seq n message c pre

/-- Packets of other sequence numbers leave the cache of the message alone. -/
theorem Collecting.other (h : Collecting seq n message c pre) (hstep : CacheStep c s c') (hs : s ≠ seq) :
    Collecting seq n message c' pre := by
  cases hstep with
  | same => exact h
  | changed i node hnode hold hnone =>
    cases h with
    | nothing hnothing =>
      refine .nothing fun j hused hseq => ?_
      by_cases hj : j = i
      · subst hj
        rw [update_self] at hused hseq
        exact hs ((hnode hused).symm.trans hseq)
      · rw [update_of_ne hj] at hused hseq
        exact hnothing j hused hseq
    | some pre j buf hused hseq hsize hcache hpre =>
      have hj : j ≠ i := by
        intro hj
        subst hj
        exact hs ((hold hused).symm.trans hseq)
      have hsame : update c i node j = c j := update_of_ne hj node c
      exact .some pre j buf (hsame ▸ hused) (hsame ▸ hseq) (hsame ▸ hsize) (hsame ▸ hcache) hpre

section
variable {k : ℕ}

/-- Where a fragment lies in its message. -/
theorem fragment_bounds (hn : 0 < n) (hk : k < count n message) :
    n * k + (chunk n message k).length ≤ message.length ∧ n * k < message.length ∧
      0 < (chunk n message k).length := by
  have hend := chunk_end hn hk
  have hpos := length_pos_iff.2 (chunk_ne_nil hn hk)
  omega

theorem drop_bleFragment :
    (bleFragment seq n message k).drop bleTransHeaderLen.toNat = chunk n message k :=
  drop_left' (length_packBleTransHeader _)

theorem toNat_ofNat_small (h : m ≤ 8192) : (UInt32.ofNat m).toNat = m :=
  UInt32.toNat_ofNat_of_lt' (Nat.lt_of_le_of_lt h (by decide))

theorem ofNat_inj_small {m' : ℕ} (h : m ≤ 8192) (h' : m' ≤ 8192) :
    UInt32.ofNat m = UInt32.ofNat m' ↔ m = m' := by
  rw [← UInt32.toNat_inj, toNat_ofNat_small h, toNat_ofNat_small h']

/-- The receiver accepts the head of a fragment. -/
theorem getTransHeader_bleFragment (hn : 0 < n) (hlen : message.length ≤ 4096)
    (hk : k < count n message) :
    getTransHeader (bleFragment seq n message k) =
      some ⟨seq, .ofNat (chunk n message k).length, .ofNat (n * k), .ofNat message.length⟩ := by
  have hbounds := fragment_bounds hn hk
  have hvalue : UInt32.ofNat (bleFragment seq n message k).length - bleTransHeaderLen =
      .ofNat (chunk n message k).length := by
    have h16 : bleTransHeaderLen = .ofNat 16 := rfl
    rw [bleFragment, length_append, length_packBleTransHeader,
      show bleTransHeaderLen.toNat = 16 from rfl, UInt32.ofNat_add, h16, UInt32.add_comm,
      UInt32.add_sub_cancel]
  have htotal : ¬UInt32.ofNat message.length <
      UInt32.ofNat (chunk n message k).length + .ofNat (n * k) := by
    rw [← UInt32.ofNat_add, UInt32.lt_iff_toNat_lt, toNat_ofNat_small (by omega),
      toNat_ofNat_small (by omega)]
    omega
  have hmax : ¬UInt32.ofNat message.length > maxDataLen := by
    rw [gt_iff_lt, UInt32.lt_iff_toNat_lt, toNat_ofNat_small (by omega),
      show maxDataLen.toNat = 4096 from rfl]
    omega
  unfold getTransHeader
  rw [show readBleTransHeader (bleFragment seq n message k) = _ from readBleTransHeader_packed _ _]
  rw [if_neg]
  rw [not_or, not_or, not_not]
  exact ⟨hvalue.symm, htotal, hmax⟩

/-- The copy into the cache succeeds. -/
theorem memcpyS_bleFragment (hn : 0 < n) (hlen : message.length ≤ 4096)
    (hk : k < count n message) :
    memcpyS (maxDataLen - .ofNat (n * k)).toNat (chunk n message k) = true := by
  have hbounds := fragment_bounds hn hk
  have hroom : (maxDataLen - UInt32.ofNat (n * k)).toNat = 4096 - n * k := by
    rw [UInt32.toNat_sub, toNat_ofNat_small (by omega), show maxDataLen.toNat = 4096 from rfl]
    omega
  exact decide_eq_true ⟨by omega, by omega, by omega⟩

/-- The cache that is found for a fragment holds what came before. -/
theorem Collecting.found (h : Collecting seq n message c pre) (hok : CachesOk a b seq c)
    (hfound : CacheFound c seq i c') :
    (c' i).isUsed = true ∧
      (c' i).currentSize = .ofNat (pre.map fun k => (chunk n message k).length).sum ∧
      ∀ k ∈ pre, Chunks.HasChunk n message ((c' i).cache.getD []) k := by
  cases h with
  | nothing hnone =>
    cases hfound with
    | old hused hseq => exact absurd hseq (hnone i hused)
    | new buf hunused _ =>
      rw [update_self]
      exact ⟨rfl, rfl, by simp⟩
  | some pre j buf hused hseq hsize hcache hpre =>
    cases hfound with
    | old hused' hseq' =>
      obtain rfl := hok.inj i j hused' hused (hseq'.trans hseq.symm)
      refine ⟨hused, hsize, ?_⟩
      rw [hcache]
      exact hpre
    | new buf' hunused hnone => exact absurd hseq (hnone j hused)

/-- A fragment that leaves others to come is kept, and the last one completes the message. -/
theorem bleOnReceive_bleFragment (hn : 0 < n) (hlen : message.length ≤ 4096) (hcount : 1 < count n message)
    (hok : CachesOk a b seq c) (h : Collecting seq n message c pre)
    (hperm : (pre ++ k :: rest).Perm (range (count n message))) :
    (bleOnReceive c (bleFragment seq n message k)).1 = (if rest = [] then some message else none) ∧
      (rest ≠ [] → Collecting seq n message (bleOnReceive c (bleFragment seq n message k)).2
        (pre ++ [k])) := by
  have hlt : ∀ j ∈ pre ++ k :: rest, j < count n message := fun j hj =>
    mem_range.1 (hperm.subset hj)
  have hk : k < count n message := hlt k (by simp)
  have hbounds := fragment_bounds hn hk
  -- the lengths of what came, of this fragment and of what is to come add up to the message
  have hsum := (hperm.map fun j => (chunk n message j).length).sum_eq
  rw [sum_length_chunks hn, map_append, sum_append, map_cons, sum_cons]
    at hsum
  have hrest : (rest.map fun j => (chunk n message j).length).sum = 0 ↔ rest = [] := by
    cases rest with
    | nil => simp
    | cons j rest =>
      have hj := (fragment_bounds hn (hlt j (by simp))).2.2
      rw [map_cons, sum_cons]
      exact iff_of_false (by omega) (by simp)
  have hsmall : (chunk n message k).length ≠ message.length := by
    have hlong := (lt_count hn).1 hcount
    rw [length_chunk]
    omega
  obtain ⟨i, c', hfind⟩ := hok.find
  have hfound := cacheFound_of_find hfind
  obtain ⟨hused, hsize, hchunks⟩ := h.found hok hfound
  have hcomplete : (c' i).currentSize + .ofNat (chunk n message k).length =
      .ofNat message.length ↔ rest = [] := by
    rw [hsize, ← UInt32.ofNat_add, ofNat_inj_small (by omega) (by omega), ← hrest]
    omega
  have hpart : UInt32.ofNat (chunk n message k).length ≠ .ofNat message.length :=
    mt (ofNat_inj_small (by omega) (by omega)).1 hsmall
  -- the cache has the chunks that came before, and this one
  have hcache : ∀ j ∈ pre ++ [k], Chunks.HasChunk n message
      (PosFile.pwrite 0 ((c' i).cache.getD []) (n * k) (chunk n message k)) j := by
    intro j hj
    rcases mem_append.1 hj with hj | hj
    · exact (hchunks j hj).pwrite_chunk
    · rw [mem_singleton.1 hj]
      exact hasChunk_pwrite_self 0
  rw [bleOnReceive_part (getTransHeader_bleFragment hn hlen hk) hpart hfind, drop_bleFragment,
    if_pos (memcpyS_bleFragment hn hlen hk)]
  rw [toNat_ofNat_small (show n * k ≤ 8192 by omega),
    toNat_ofNat_small (show message.length ≤ 8192 by omega)]
  by_cases hdone : rest = []
  · subst hdone
    rw [if_pos (hcomplete.2 rfl), take_eq_of_hasChunk hn]
    · exact ⟨rfl, fun hne => absurd rfl hne⟩
    · intro j hj
      exact hcache j (hperm.symm.subset (mem_range.2 hj))
  · rw [if_neg (mt hcomplete.1 hdone), if_neg hdone]
    dsimp only
    refine ⟨rfl, fun _ => .some _ i _ ?_ ?_ ?_ ?_ hcache⟩
    · rw [update_self]
      exact hused
    · rw [update_self]
      exact hfound.seq_eq
    · rw [update_self, map_append, sum_append, UInt32.ofNat_add, hsize]
      rfl
    · rw [update_self]

/-! ## Runs -/

section
variable (seq)

/-- The packet has the sequence number. -/
def hasSeq (value : List UInt8) : Bool := bigWordAt value 0 = seq

/-- What the packets of a sequence number complete, in their order. -/
def completions (c : RecvCaches) (values : List (List UInt8)) : List (Option (List UInt8)) :=
  ((bleOnReceiveAll c values).filter fun received => hasSeq seq received.1).map Prod.snd

theorem completions_cons (c : RecvCaches) (value : List UInt8) (values : List (List UInt8)) :
    completions seq c (value :: values) =
      (if hasSeq seq value then [(bleOnReceive c value).1] else []) ++
        completions seq (bleOnReceive c value).2 values := by
  unfold completions
  rw [bleOnReceiveAll]
  cases hseq : hasSeq seq value with
  | true => simp [hseq]
  | false => simp [hseq]

theorem completions_of_none (c : RecvCaches) (h : values.filter (hasSeq seq) = []) :
    completions seq c values = [] := by
  induction values generalizing c with
  | nil => rfl
  | cons value values ih =>
    by_cases hseq : hasSeq seq value = true
    · simp [hseq] at h
    · rw [filter_cons_of_neg hseq] at h
      rw [completions_cons, if_neg hseq, ih _ h, append_nil]

end

/-- The rest of the fragments, in any order and with packets of two other sequence numbers
    between them. -/
theorem completions_rest (hn : 0 < n) (hlen : message.length ≤ 4096) (hcount : 1 < count n message)
    (hok : CachesOk a b seq c) (h : Collecting seq n message c pre)
    (hperm : (pre ++ rest).Perm (range (count n message))) (hrest : rest ≠ [])
    (hmine : values.filter (hasSeq seq) = rest.map (bleFragment seq n message))
    (hothers : ∀ value ∈ values, hasSeq seq value = false → bigWordAt value 0 = a ∨ bigWordAt value 0 = b) :
    completions seq c values = replicate (rest.length - 1) none ++ [some message] := by
  induction values generalizing c pre rest with
  | nil => exact absurd (by simpa using hmine) hrest
  | cons value values ih =>
    have hothers' := fun v hv => hothers v (mem_cons_of_mem _ hv)
    rw [completions_cons]
    by_cases hseq : hasSeq seq value = true
    · rw [filter_cons_of_pos hseq] at hmine
      obtain ⟨k, rest, rfl⟩ := exists_cons_of_ne_nil hrest
      obtain ⟨rfl, htail⟩ := cons.inj hmine
      obtain ⟨hresult, hnext⟩ := bleOnReceive_bleFragment hn hlen hcount hok h hperm
      rw [if_pos hseq, hresult]
      cases rest with
      | nil =>
        rw [completions_of_none seq _ htail]
        rfl
      | cons k' rest =>
        have hok' := (cacheStep_bleOnReceive hok (bleFragment seq n message k)).cachesOk hok
          (.inr (.inr (of_decide_eq_true hseq)))
        rw [ih hok' (hnext (by simp)) (by simpa using hperm) (by simp) htail hothers']
        rfl
    · rw [filter_cons_of_neg hseq] at hmine
      have hstep := cacheStep_bleOnReceive hok value
      have hs := hothers value mem_cons_self (by simpa using hseq)
      have hne : bigWordAt value 0 ≠ seq := fun he => hseq (decide_eq_true he)
      rw [if_neg hseq]
      exact ih (hstep.cachesOk hok (hs.imp id .inl)) (h.other hstep hne) hperm hrest hmine hothers'

/-- A message that fits one fragment does not need a cache. -/
theorem completions_single (hn : 0 < n) (hlen : message.length ≤ 4096) (hcount : count n message = 1)
    (c : RecvCaches) (hmine : values.filter (hasSeq seq) = [bleFragment seq n message 0]) :
    completions seq c values = [some message] := by
  have hk : 0 < count n message := by omega
  have hwhole : chunk n message 0 = message := by
    have hle := length_le_count hn message
    rw [hcount, Nat.mul_one] at hle
    rw [chunk, Nat.mul_zero, drop_zero, take_of_length_le hle]
  have hfull : ∀ c, (bleOnReceive c (bleFragment seq n message 0)).1 = some message := by
    intro c
    unfold bleOnReceive bleTransRecv
    simp only [getTransHeader_bleFragment hn hlen hk, drop_bleFragment, hwhole, if_true]
  induction values generalizing c with
  | nil => simp at hmine
  | cons value values ih =>
    rw [completions_cons]
    by_cases hseq : hasSeq seq value = true
    · rw [filter_cons_of_pos hseq] at hmine
      obtain ⟨rfl, htail⟩ := cons.inj hmine
      rw [if_pos hseq, hfull, completions_of_none seq _ htail]
      rfl
    · rw [filter_cons_of_neg hseq] at hmine
      rw [if_neg hseq]
      exact ih _ hmine

end

/-- The caches that are used are for the two sequence numbers, with one cache for each. -/
def CachesFor (a b : UInt32) (c : RecvCaches) : Prop :=
  (∀ i, (c i).isUsed = true → (c i).seq = a ∨ (c i).seq = b) ∧
    ∀ i j, (c i).isUsed = true → (c j).isUsed = true → (c i).seq = (c j).seq → i = j

/-- The fragments of a message of up to 4096 bytes come in any order, each once, with packets
    of messages of two other sequence numbers between them: the message is complete with the
    last of its fragments, and with no other one. -/
theorem completions_message (a b seq mtu : Int32) (c : RecvCaches) (message : List UInt8)
    (values : List (List UInt8)) (ha : seq ≠ a) (hb : seq ≠ b)
    (hc : CachesFor a.toUInt32 b.toUInt32 c) (hmtu : 19 < mtu)
    (hpos : 1 ≤ message.length) (hlen : message.length ≤ 4096)
    (hmine : (values.filter (hasSeq seq.toUInt32)).Perm
      (bleTransSend mtu message seq fun _ => .ok).2)
    (hothers : ∀ value ∈ values, hasSeq seq.toUInt32 value = false → ∃ mtu data halSend,
      value ∈ (bleTransSend mtu data a halSend).2 ∨ value ∈ (bleTransSend mtu data b halSend).2) :
    completions seq.toUInt32 c values =
      List.replicate ((bleTransSend mtu message seq fun _ => .ok).2.length - 1) none ++
        [some message] := by
  have hn := fragmentLen_pos hmtu
  rw [bleTransSend_ok hn hlen] at hmine ⊢
  rw [length_map, length_range]
  obtain ⟨ks, hks, hperm⟩ : ∃ ks : List ℕ, values.filter (hasSeq seq.toUInt32) =
      ks.map (bleFragment seq.toUInt32 (fragmentLen mtu) message) ∧
        ks.Perm (range (count (fragmentLen mtu) message)) := by
    have hcomp := congrFun (congrFun (eq_map_comp_perm
      (bleFragment seq.toUInt32 (fragmentLen mtu) message)) (values.filter (hasSeq seq.toUInt32)))
        (range (count (fragmentLen mtu) message))
    exact hcomp.mpr hmine
  have hcount : 0 < count (fragmentLen mtu) message := by
    rw [lt_count hn]
    omega
  have hnum : ∀ {x : Int32}, seq ≠ x → x.toUInt32 ≠ seq.toUInt32 := by
    intro x hne he
    have hx := congrArg UInt32.toInt32 he
    exact hne hx.symm
  by_cases hone : count (fragmentLen mtu) message = 1
  · rw [hone] at hperm ⊢
    rw [perm_singleton.1 hperm] at hks
    exact completions_single hn hlen hone c hks
  · have hok : CachesOk a.toUInt32 b.toUInt32 seq.toUInt32 c :=
      ⟨fun i hused => (hc.1 i hused).imp id .inl, hc.2⟩
    have hnothing : Collecting seq.toUInt32 (fragmentLen mtu) message c [] := by
      refine .nothing fun i hused => ?_
      rcases hc.1 i hused with hi | hi
      · rw [hi]
        exact hnum ha
      · rw [hi]
        exact hnum hb
    have hne : ks ≠ [] := by
      intro he
      rw [he, nil_perm, range_eq_nil] at hperm
      omega
    rw [← length_range (n := count (fragmentLen mtu) message), ← hperm.length_eq]
    refine completions_rest hn hlen (by omega) hok hnothing hperm hne hks fun value hvalue hseq => ?_
    obtain ⟨mtu', data, halSend, hmem | hmem⟩ := hothers value hvalue hseq
    · exact .inl (bigWordAt_of_mem_bleTransSend hmem)
    · exact .inr (bigWordAt_of_mem_bleTransSend hmem)

/-- Two fragments in the wrong order, with a fragment of another message between them. -/
theorem completions_swapped :
    completions (5 : Int32).toUInt32 (fun _ => ⟨false, 0, 0, none⟩)
        [bleFragment 5 1 [8, 9] 1, bleFragment 6 1 [3, 4] 0, bleFragment 5 1 [8, 9] 0] =
      [none, some [8, 9]] :=
  completions_message 6 7 5 20 _ [8, 9] _ (by decide) (by decide)
    ⟨fun i hused => absurd hused (by simp), fun i j hused => absurd hused (by simp)⟩
    (by decide) (by decide) (by decide) (by decide +kernel)
    (by
      intro value hvalue hseq
      refine ⟨20, [3, 4], fun _ => .ok, .inl ?_⟩
      revert value
      decide +kernel)

end SoftBus.Native
