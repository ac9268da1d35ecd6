import Mathlib
import SoftBus.ForStd.Serial
import SoftBus.Native.FillpRecv
import SoftBus.Spec.SkipList

/-!
# FillP delivers a prefix of the stream

A byte stream is cut into segments, and each packet that arrives holds one of them.  Segments may
be lost, repeated and reordered.  The positions of the segments in the stream, which the sequence numbers
wrap, order the items of `recvList`; `Held` says which segments those are.

## Main results

- `Held.fillpDataToStack`: what one packet changes
- `fillp_delivers_stream`: what has been given to the receiver after any sequence of packets
-/

namespace SoftBus.Native
open List UInt32

/-- How a byte stream is cut into the data of packets. -/
structure Segmentation where
  seg : ℕ → List UInt8
  pos : ∀ k, 0 < (seg k).length
  lt : ∀ k, (seg k).length < 2 ^ 16

namespace Segmentation
variable (S : Segmentation) (base : UInt32) {pktNum : UInt32}

/-- The position in the stream at which a segment starts. -/
def start : ℕ → ℕ
  | 0 => 0
  | k + 1 => start k + (S.seg k).length

/-- The item for the `k`-th segment, in the packet that is the `num`-th to arrive. -/
def item (k num : ℕ) (pktNum : UInt32) : RecvItem where
  num := num
  seqNum := base + UInt32.ofNat (S.start (k + 1))
  pktNum := pktNum
  dataLen := UInt16.ofNat (S.seg k).length
  data := S.seg k

/-- What an item of the `k`-th segment says: where the segment ends, and its data. -/
def content (k : ℕ) : UInt32 × List UInt8 := (base + UInt32.ofNat (S.start (k + 1)), S.seg k)

theorem start_lt_succ (k : ℕ) : S.start k < S.start (k + 1) := Nat.lt_add_of_pos_right (S.pos k)

theorem start_strictMono : StrictMono S.start := strictMono_nat_of_lt_succ S.start_lt_succ

/-- An item starts where its segment does. -/
theorem seqNum_sub_dataLen (k num : ℕ) :
    (S.item base k num pktNum).seqNum - (S.item base k num pktNum).dataLen.toUInt32 =
      base + UInt32.ofNat (S.start k) := by
  have hlen : (UInt16.ofNat (S.seg k).length).toUInt32 = ofNat (S.seg k).length := by
    rw [← UInt32.toNat_inj, UInt16.toNat_toUInt32, UInt16.toNat_ofNat_of_lt' (S.lt k),
      toNat_ofNat_of_lt' ((S.lt k).trans (by decide))]
  show base + ofNat (S.start k + (S.seg k).length) - _ = _
  rw [show (S.item base k num pktNum).dataLen = UInt16.ofNat (S.seg k).length from rfl, hlen, ofNat_add,
    ← UInt32.add_assoc, UInt32.add_sub_cancel]

end Segmentation

/-- The segments before `p` have all been received, and `p` has not. -/
structure LongestPrefix (received : List ℕ) (p : ℕ) : Prop where
  mem : ∀ k < p, k ∈ received
  notMem : p ∉ received

theorem LongestPrefix.unique {received : List ℕ} {p q : ℕ} (hp : LongestPrefix received p)
    (hq : LongestPrefix received q) : p = q := by
  rcases lt_trichotomy p q with h | h | h
  · exact absurd (hq.mem p h) hp.notMem
  · exact h
  · exact absurd (hp.mem q h) hq.notMem

/-- `p` segments have left `recvList`, and the items `l` wait there.  `idx` says which segment the `n`-th packet
    holds. -/
structure Held (S : Segmentation) (base : UInt32) (idx : ℕ → ℕ) (received : List ℕ) (p : ℕ) (l : List RecvItem)
    (pcb : FillpRecvPcb) : Prop where
  repr : pcb.recvList.Repr l
  item : ∀ a ∈ l, a = S.item base (idx a.num) a.num a.pktNum
  window : ∀ a ∈ l, p ≤ idx a.num ∧ S.start (idx a.num + 1) < S.start p + 2 ^ 31
  sorted : l.Pairwise (idx ·.num < idx ·.num)
  seqNum : pcb.seqNum = base + UInt32.ofNat (S.start p)
  recvBytes : pcb.recvBytes = UInt64.ofNat (l.map (·.dataLen.toNat)).sum
  mem : ∀ k < p, k ∈ received
  waiting : ∀ k, p ≤ k → (k ∈ received ↔ ∃ a ∈ l, idx a.num = k)

/-- The first `p` segments have been given to the receiver, one after the other. -/
def Delivered (S : Segmentation) (base : UInt32) (p : ℕ) (pcb : FillpRecvPcb) : Prop :=
  pcb.uploaded.flatten.map (fun a => (a.seqNum, a.data)) = (List.range p).map (S.content base)

variable {S : Segmentation} {base : UInt32} {idx : ℕ → ℕ} {received : List ℕ} {p : ℕ} {l : List RecvItem}
  {pcb : FillpRecvPcb} {a : RecvItem}

namespace Held

section
variable (h : Held S base idx received p l pcb)
include h

theorem setPktNum : Held S base idx received p l { pcb with pktNum := pktNum } :=
  { h with }

/-- The items hold different segments, none of them empty, and all within the window. -/
theorem length_lt : l.length < 2 ^ 32 := by
  have hnodup : (l.map fun a => idx a.num).Nodup :=
    pairwise_map.2 (h.sorted.imp fun hlt => Nat.ne_of_lt hlt)
  have hsub : (l.map fun a => idx a.num) ⊆ range' p (2 ^ 31) := by
    intro k hk
    obtain ⟨a, ha, rfl⟩ := mem_map.1 hk
    have hwin := h.window a ha
    have hle := S.start_strictMono.add_le_nat (idx a.num + 1 - p) p
    rw [Nat.sub_add_cancel (by omega)] at hle
    exact mem_range'_1.2 (by omega)
  have hlen := (subperm_of_subset hnodup hsub).length_le
  rw [length_map, length_range'] at hlen
  omega

/-- The first item holds the next segment, or that segment has not been received. -/
theorem notMem_of_head (hhead : ∀ a, l.head? = some a → idx a.num ≠ p) : p ∉ received := by
  intro hp
  obtain ⟨a, ha, hidx⟩ := (h.waiting p (Nat.le_refl p)).1 hp
  obtain _ | ⟨b, l⟩ := l
  · exact absurd ha not_mem_nil
  · have hb := hhead b rfl
    have hle := (h.window b mem_cons_self).1
    rcases mem_cons.1 ha with rfl | ha
    · exact hb hidx
    · have := (pairwise_cons.1 h.sorted).1 a ha
      omega

/-- An item is the next one exactly when it starts at the receiver's number. -/
theorem start_eq_iff (ha : a ∈ l) : a.seqNum - a.dataLen.toUInt32 = pcb.seqNum ↔ idx a.num = p := by
  have hwin := h.window a ha
  have hle := S.start_strictMono.monotone hwin.1
  have hlt := S.start_lt_succ (idx a.num)
  rw [h.item a ha, S.seqNum_sub_dataLen, h.seqNum, add_ofNat_inj _ (by omega) (by omega)]
  exact S.start_strictMono.injective.eq_iff

end

/-! ## Giving items to the receiver -/

theorem pop (h : Held S base idx received p (a :: l) pcb) (ha : idx a.num = p) :
    Held S base idx received (p + 1) l
      { pcb with
        seqNum := a.seqNum
        recvBytes := pcb.recvBytes - a.dataLen.toUInt64
        recvList := pcb.recvList.skipListPopValue.2 } where
  repr := h.repr.popValue_cons.2
  item b hb := h.item b (mem_cons_of_mem a hb)
  window b hb := by
    have hlt := (pairwise_cons.1 h.sorted).1 b hb
    have hwin := (h.window b (mem_cons_of_mem a hb)).2
    have hstart := S.start_lt_succ p
    exact ⟨by omega, by omega⟩
  sorted := (pairwise_cons.1 h.sorted).2
  seqNum := by
    rw [h.item a mem_cons_self, ha]
    rfl
  recvBytes := by
    show pcb.recvBytes - a.dataLen.toUInt64 = _
    rw [h.recvBytes, map_cons, sum_cons, UInt64.ofNat_add, UInt64.add_comm]
    have hlen : UInt64.ofNat a.dataLen.toNat = a.dataLen.toUInt64 := by simp
    rw [hlen, UInt64.add_sub_cancel]
  mem k hk := by
    rcases Nat.lt_or_ge k p with hlt | hge
    · exact h.mem k hlt
    · exact (h.waiting k hge).2 ⟨a, mem_cons_self, by omega⟩
  waiting k hk := by
    rw [h.waiting k (by omega)]
    constructor
    · rintro ⟨b, hb, rfl⟩
      rcases mem_cons.1 hb with rfl | hb
      · omega
      · exact ⟨b, hb, rfl⟩
    · rintro ⟨b, hb, rfl⟩
      exact ⟨b, mem_cons_of_mem a hb, rfl⟩

section
variable (h : Held S base idx received p l pcb)
include h

theorem getPop_eq : pcb.recvList.skipListGetPop = l.head? := h.repr.head

/-- A batch holds the next segments.  It ends early only when the next one is missing. -/
theorem uploadBatch (room : ℕ) :
    ∃ l', l = (pcb.uploadBatch room).1 ++ l' ∧
      Held S base idx received (p + (pcb.uploadBatch room).1.length) l' (pcb.uploadBatch room).2 ∧
      (pcb.uploadBatch room).1.map (fun a => (a.seqNum, a.data)) =
        (List.range' p (pcb.uploadBatch room).1.length).map (S.content base) ∧
      (pcb.uploadBatch room).2.uploaded = pcb.uploaded ∧
      ((pcb.uploadBatch room).1.length < room → p + (pcb.uploadBatch room).1.length ∉ received) := by
  induction room generalizing p l pcb with
  | zero => exact ⟨l, rfl, h, rfl, rfl, fun hlt => absurd hlt (Nat.lt_irrefl 0)⟩
  | succ room ih =>
    rw [FillpRecvPcb.uploadBatch, h.getPop_eq]
    cases l with
    | nil => exact ⟨[], rfl, h, rfl, rfl, fun _ => h.notMem_of_head (by simp)⟩
    | cons a l =>
      simp only [head?_cons]
      split
      next hne =>
        refine ⟨a :: l, rfl, h, rfl, rfl, fun _ => h.notMem_of_head ?_⟩
        rintro b ⟨⟩
        exact fun hidx => hne ((h.start_eq_iff mem_cons_self).2 hidx)
      next heq =>
        have hidx := (h.start_eq_iff mem_cons_self).1 (not_not.1 heq)
        obtain ⟨l', hl', hheld, hdata, huploaded, hend⟩ := ih (h.pop hidx)
        have hlen : ∀ n, p + (n + 1) = p + 1 + n := by omega
        have ha : (a.seqNum, a.data) = S.content base p := by
          rw [h.item a mem_cons_self, hidx]
          rfl
        refine ⟨l', congrArg (a :: ·) hl', ?_, ?_, huploaded, ?_⟩
        · rw [length_cons, hlen]
          exact hheld
        · rw [map_cons, hdata, ha]
          rfl
        · intro hlt
          rw [length_cons, hlen]
          exact hend (Nat.lt_of_succ_lt_succ hlt)

/-- With a round left for each item, the loop ends at a segment that is missing. -/
theorem uploadLoop {rounds : ℕ} (hdel : Delivered S base p pcb)
    (hrounds : l.length < rounds) :
    ∃ q l', Held S base idx received q l' (pcb.uploadLoop rounds) ∧ Delivered S base q (pcb.uploadLoop rounds) ∧
      q ∉ received ∧ l' ⊆ l := by
  induction rounds generalizing p l pcb with
  | zero => exact absurd hrounds (Nat.not_lt_zero _)
  | succ rounds ih =>
    obtain ⟨l', hl', hheld, hdata, huploaded, hend⟩ := h.uploadBatch fillpDefaultRecvboxBrust
    rw [FillpRecvPcb.uploadLoop]
    generalize pcb.uploadBatch fillpDefaultRecvboxBrust = r at *
    have hdel' : r.2.uploaded.flatten.map (fun a => (a.seqNum, a.data)) ++ r.1.map (fun a => (a.seqNum, a.data)) =
        (range (p + r.1.length)).map (S.content base) := by
      rw [huploaded, hdata, hdel, ← map_append, range_eq_range', range_eq_range']
      exact congrArg (map (S.content base)) (by simpa using range'_append_1 (s := 0) (m := p))
    have hsub : l' ⊆ l := hl' ▸ subset_append_right _ _
    split
    next hlen =>
      refine ⟨_, l', hheld, ?_, hend (hlen ▸ by decide), hsub⟩
      rwa [length_eq_zero_iff.1 hlen, map_nil, append_nil, ← length_eq_zero_iff.1 hlen] at hdel'
    next hlen =>
      have hrounds' : l'.length < rounds := by
        rw [hl', length_append] at hrounds
        omega
      have hheld' : Held S base idx received (p + r.1.length) l' { r.2 with uploaded := r.2.uploaded ++ [r.1] } :=
        { hheld with }
      obtain ⟨q, l'', hq, hdelq, hnot, hsub'⟩ := ih hheld' (by simpa [Delivered] using hdel') hrounds'
      exact ⟨q, l'', hq, hdelq, hnot, fun a ha => hsub (hsub' ha)⟩

theorem fillpUploadRecvBox (hdel : Delivered S base p pcb) :
    ∃ q l', Held S base idx received q l' pcb.fillpUploadRecvBox ∧ Delivered S base q pcb.fillpUploadRecvBox ∧
      q ∉ received ∧ l' ⊆ l := by
  refine h.uploadLoop hdel ?_
  rw [h.repr.nodeNum, toNat_ofNat_of_lt' h.length_lt]
  exact Nat.lt_succ_self _

/-! ## One packet -/

/-- A segment has been received a second time, or before the window. -/
theorem again {k : ℕ} (hk : k < p ∨ k ∈ received) : Held S base idx (received ++ [k]) p l pcb :=
  { h with
    mem := fun i hi => mem_append_left _ (h.mem i hi)
    waiting := by
      intro i hi
      rw [← h.waiting i hi, mem_append, mem_singleton, or_iff_left_of_imp]
      rintro rfl
      exact hk.resolve_left (Nat.not_lt.2 hi) }

end
end Held

theorem fillpSkiplistCmp_pos {a b : UInt32} : fillpSkiplistCmp a b > 0 ↔ (a - b).toInt32.toInt > 0 := by
  unfold fillpSkiplistCmp
  split
  next heq => simp [heq]
  next => split <;> simp_all

theorem fillpSkiplistCmp_eq_zero {a b : UInt32} (h : a ≠ b → (a - b).toInt32.toInt > 0) :
    fillpSkiplistCmp a b = 0 ↔ a = b := by
  unfold fillpSkiplistCmp
  split
  next heq => simp [heq]
  next hne => simp only [if_pos (h hne), hne, one_ne_zero]

/-- Sequence numbers within half the number space are in the order of the segments. -/
theorem Segmentation.isbigger_iff {i j : ℕ} (h : S.start i < S.start j + 2 ^ 31)
    (h' : S.start j < S.start i + 2 ^ 31) :
    (base + UInt32.ofNat (S.start i) - (base + UInt32.ofNat (S.start j))).toInt32.toInt > 0 ↔ j < i := by
  rw [toInt_sub_ofNat base h h', ← S.start_strictMono.lt_iff_lt]
  omega

section
variable {n : ℕ} (h : Held S base idx received p l pcb) (hwin : S.start (idx n + 1) < S.start p + 2 ^ 31)
include h hwin

/-- The comparison of items that wait, or may be added to them. -/
theorem Held.compares {pktNum : UInt32} (hp : p ≤ idx n) :
    SkipList.Compares (fun a b : RecvItem => fillpSkiplistCmp a.seqNum b.seqNum) (fun b => idx b.num)
      (S.item base (idx n) n pktNum) l := by
  have hx : S.start p < S.start (idx n + 1) := S.start_strictMono (Nat.lt_succ_of_le hp)
  have ha : ∀ a ∈ l, a.seqNum = base + ofNat (S.start (idx a.num + 1)) ∧ S.start p < S.start (idx a.num + 1) ∧
      S.start (idx a.num + 1) < S.start p + 2 ^ 31 := by
    intro a ha
    obtain ⟨hle, hlt⟩ := h.window a ha
    refine ⟨?_, S.start_strictMono (Nat.lt_succ_of_le hle), hlt⟩
    rw [h.item a ha]
    rfl
  constructor
  · intro a hal
    obtain ⟨hseq, hgt, hlt⟩ := ha a hal
    rw [fillpSkiplistCmp_pos, hseq]
    exact (S.isbigger_iff (by omega) (by omega)).trans Nat.succ_lt_succ_iff
  · intro a hal
    obtain ⟨hseq, hgt, hlt⟩ := ha a hal
    rw [fillpSkiplistCmp_pos, hseq]
    exact (S.isbigger_iff (by omega) (by omega)).trans Nat.succ_lt_succ_iff
  · intro a hal hle
    obtain ⟨hseq, hgt, hlt⟩ := ha a hal
    have heq : a.seqNum = (S.item base (idx n) n pktNum).seqNum ↔ idx a.num = idx n := by
      rw [hseq]
      refine (add_ofNat_inj base (by omega) (by omega)).trans ?_
      rw [S.start_strictMono.injective.eq_iff, Nat.succ_inj]
    refine (fillpSkiplistCmp_eq_zero fun hne => ?_).trans heq
    rw [hseq]
    refine (S.isbigger_iff (by omega) (by omega)).2 ?_
    exact Nat.succ_lt_succ (lt_of_le_of_ne hle fun h => hne (heq.2 h.symm))

/-- A new segment is put in its place among the items. -/
theorem Held.insert {pktNum : UInt32} (hp : p ≤ idx n) (hnew : idx n ∉ received) {recvList : SkipList RecvItem}
    {l' : List RecvItem} (hl' : l' = l.orderedInsert (fun a b => idx a.num ≤ idx b.num) (S.item base (idx n) n pktNum))
    (hrepr : recvList.Repr l') :
    Held S base idx (received ++ [idx n]) p l'
      { pcb with
        recvList := recvList
        recvBytes := pcb.recvBytes + (S.item base (idx n) n pktNum).dataLen.toUInt64 } := by
  have hperm : l'.Perm (S.item base (idx n) n pktNum :: l) := hl' ▸ perm_orderedInsert ..
  have hall : ∀ {P : RecvItem → Prop}, P (S.item base (idx n) n pktNum) → (∀ a ∈ l, P a) → ∀ a ∈ l', P a := by
    intro P hx hl a ha
    rcases mem_cons.1 (hperm.mem_iff.1 ha) with rfl | ha
    · exact hx
    · exact hl a ha
  -- No item that waits holds the same segment.
  have hne : ∀ a ∈ l, idx n ≠ idx a.num := fun a ha heq => hnew ((h.waiting _ hp).2 ⟨a, ha, heq.symm⟩)
  exact {
    repr := hrepr
    item := hall rfl h.item
    window := hall ⟨hp, hwin⟩ h.window
    sorted := by
      have hle : l'.Pairwise (idx ·.num ≤ idx ·.num) := hl' ▸ (h.sorted.imp Nat.le_of_lt).orderedInsert _ _
      have hnodup : l'.Pairwise (idx ·.num ≠ idx ·.num) :=
        (hperm.pairwise_iff Ne.symm).2 (pairwise_cons.2 ⟨hne, h.sorted.imp Nat.ne_of_lt⟩)
      exact (hle.and hnodup).imp fun h => lt_of_le_of_ne h.1 h.2
    seqNum := h.seqNum
    recvBytes := by
      show pcb.recvBytes + _ = _
      rw [(hperm.map _).sum_nat, map_cons, sum_cons, UInt64.ofNat_add, h.recvBytes, UInt64.add_comm]
      simp
    mem := fun k hk => mem_append_left _ (h.mem k hk)
    waiting := by
      intro k hk
      simp only [hperm.mem_iff, exists_mem_cons_iff, mem_append, mem_singleton, h.waiting k hk]
      exact Or.comm.trans (or_congr_left eq_comm) }

/-- A segment that has not been given to the receiver: if data can be given to it now, all that can be is. -/
theorem Held.storeItem (hdel : Delivered S base p pcb) (hlong : p ∉ received) (hn : ∀ a ∈ l, a.num < n)
    (hp : p ≤ idx n) (pktNum : UInt32) :
    ∃ q l', Held S base idx (received ++ [idx n]) q l' (pcb.storeItem (S.item base (idx n) n pktNum)) ∧
      Delivered S base q (pcb.storeItem (S.item base (idx n) n pktNum)) ∧ q ∉ received ++ [idx n] ∧
        ∀ a ∈ l', a.num < n + 1 := by
  have hx : S.item base (idx n) n pktNum ∉ l := fun hx => Nat.lt_irrefl n (hn _ hx)
  have hins := h.repr.insert hx (h.sorted.imp Nat.le_of_lt) (h.compares hwin hp) true
  rw [FillpRecvPcb.storeItem]
  cases hret : pcb.recvList.skipListInsert (fun a b => fillpSkiplistCmp a.seqNum b.seqNum)
    (S.item base (idx n) n pktNum) true with
  | mk ret recvList =>
    rw [hret] at hins
    by_cases hrec : idx n ∈ received
    · rw [if_pos ⟨rfl, (h.waiting _ hp).1 hrec⟩] at hins
      obtain ⟨rfl, hrepr⟩ := hins
      refine ⟨p, l, Held.again ?_ (.inr hrec), hdel, ?_, fun a ha => Nat.lt_succ_of_lt (hn a ha)⟩
      · exact { h with repr := hrepr }
      · simp only [mem_append, mem_singleton, hlong, false_or]
        exact fun heq => hlong (heq ▸ hrec)
    · rw [if_neg fun hex => hrec ((h.waiting _ hp).2 hex.2)] at hins
      obtain ⟨rfl, hrepr⟩ := hins
      obtain ⟨q, l', hq, hdelq, hnot, hsub⟩ := (h.insert hwin hp hrec rfl hrepr).fillpUploadRecvBox hdel
      refine ⟨q, l', hq, hdelq, hnot, fun a ha => ?_⟩
      rcases (mem_orderedInsert _).1 (hsub ha) with rfl | ha
      · exact Nat.lt_succ_self n
      · exact Nat.lt_succ_of_lt (hn a ha)

/-- One packet: its segment is added to the ones received. -/
theorem Held.fillpDataToStack (hdel : Delivered S base p pcb) (hlong : p ∉ received) (hn : ∀ a ∈ l, a.num < n)
    (hwin' : S.start p < S.start (idx n + 1) + 2 ^ 31) (enableNackDelay : Bool) (pktNum : UInt32) :
    ∃ q l', Held S base idx (received ++ [idx n]) q l'
        (pcb.fillpDataToStack enableNackDelay (S.item base (idx n) n pktNum)) ∧
      Delivered S base q (pcb.fillpDataToStack enableNackDelay (S.item base (idx n) n pktNum)) ∧
      q ∉ received ++ [idx n] ∧ ∀ a ∈ l', a.num < n + 1 := by
  generalize hpcb' : (if fillpNumIsbigger pktNum pcb.pktNum then { pcb with pktNum := pktNum } else pcb) = pcb'
  have h' : Held S base idx received p l pcb' := by
    rw [← hpcb']
    split
    · exact h.setPktNum
    · exact h
  have hdel' : Delivered S base p pcb' := by
    rw [← hpcb']
    split <;> exact hdel
  have hbigger : fillpNumIsbigger (S.item base (idx n) n pktNum).seqNum pcb'.seqNum = decide (p ≤ idx n) := by
    rw [h'.seqNum]
    exact decide_eq_decide.2 ((S.isbigger_iff hwin hwin').trans Nat.lt_succ_iff)
  simp only [FillpRecvPcb.fillpDataToStack, show (S.item base (idx n) n pktNum).pktNum = pktNum from rfl, hpcb',
    hbigger]
  by_cases hp : p ≤ idx n
  · simp only [hp, decide_true, Bool.not_true, Bool.and_false, Bool.false_eq_true, if_false]
    exact h'.storeItem hwin hdel' hlong hn hp pktNum
  · simp only [hp, decide_false, Bool.not_false, if_true, ite_self]
    refine ⟨p, l, h'.again (.inl (Nat.lt_of_not_le hp)), hdel', ?_, fun a ha => Nat.lt_succ_of_lt (hn a ha)⟩
    simp only [mem_append, mem_singleton, hlong, false_or]
    exact fun heq => hp heq.le

end

/-! ## All packets -/

/-- A packet that holds the segment `seg`. -/
structure Arrival where
  seg : ℕ
  pktNum : UInt32

/-- The receiver after the packets `arrivals`, whose sequence numbers count from `base`. -/
def receive (S : Segmentation) (base : UInt32) (enableNackDelay : Bool) (randomLev : ℕ → Bool) (pktNum : UInt32)
    (arrivals : List Arrival) : FillpRecvPcb :=
  arrivals.zipIdx.foldl
    (fun pcb a => pcb.fillpDataToStack enableNackDelay (S.item base a.1.seg a.2 a.1.pktNum))
    (.init randomLev base pktNum)

/-- Each packet's data ends less than `2 ^ 31` bytes from what has been received without a gap before it. -/
def LiveWindow (S : Segmentation) (arrivals : List Arrival) : Prop :=
  ∀ pre a, pre ++ [a] <+: arrivals → ∀ p, LongestPrefix (pre.map (·.seg)) p →
    S.start (a.seg + 1) < S.start p + 2 ^ 31 ∧ S.start p < S.start (a.seg + 1) + 2 ^ 31

theorem held_receive (enableNackDelay : Bool) (randomLev : ℕ → Bool)
    {arrivals : List Arrival} (hwin : LiveWindow S arrivals) {pre : List Arrival} (hpre : pre <+: arrivals) :
    ∃ p l, Held S base (fun n => (arrivals.map (·.seg)).getD n 0) (pre.map (·.seg)) p l
        (receive S base enableNackDelay randomLev pktNum pre) ∧
      Delivered S base p (receive S base enableNackDelay randomLev pktNum pre) ∧
      p ∉ pre.map (·.seg) ∧ ∀ a ∈ l, a.num < pre.length := by
  induction pre using reverseRecOn with
  | nil =>
    refine ⟨0, [], ?_, rfl, not_mem_nil, fun a ha => absurd ha not_mem_nil⟩
    constructor
    · exact SkipList.Repr.init
    all_goals simp [receive, FillpRecvPcb.init, Segmentation.start]
  | append_singleton pre a ih =>
    obtain ⟨p, l, hheld, hdel, hnot, hlt⟩ := ih ((prefix_append pre [a]).trans hpre)
    obtain ⟨hw, hw'⟩ := hwin pre a hpre p ⟨hheld.mem, hnot⟩
    have hidx : (arrivals.map (·.seg)).getD pre.length 0 = a.seg := by
      obtain ⟨t, rfl⟩ := hpre
      simp
    have hstep := hheld.fillpDataToStack (hidx.symm ▸ hw) hdel hnot hlt (hidx.symm ▸ hw') enableNackDelay a.pktNum
    simp only [hidx] at hstep
    have hrun : receive S base enableNackDelay randomLev pktNum (pre ++ [a]) =
        (receive S base enableNackDelay randomLev pktNum pre).fillpDataToStack enableNackDelay
          (S.item base a.seg pre.length a.pktNum) := by
      simp [receive, zipIdx_append, foldl_append]
    rw [hrun, map_append, length_append]
    exact hstep

/-- FillP delivers the stream: after any sequence of packets, the receiver has been given the longest prefix of the
    segments that have all arrived, in order and once each. -/
theorem fillp_delivers_stream (S : Segmentation) (base : UInt32) (enableNackDelay : Bool)
    (randomLev : ℕ → Bool) (pktNum : UInt32) (arrivals : List Arrival) (hwin : LiveWindow S arrivals) (p : ℕ)
    (hp : LongestPrefix (arrivals.map (·.seg)) p) :
    let pcb := receive S base enableNackDelay randomLev pktNum arrivals
    pcb.uploaded.flatten.map (fun a => (a.seqNum, a.data)) = (List.range p).map (S.content base) ∧
      pcb.seqNum = base + UInt32.ofNat (S.start p) ∧
      pcb.recvBytes.toNat = (pcb.recvList.items.map (·.dataLen.toNat)).sum := by
  obtain ⟨q, l, hheld, hdel, hnot, -⟩ :=
    held_receive enableNackDelay randomLev hwin (prefix_refl arrivals)
  obtain rfl := hp.unique ⟨hheld.mem, hnot⟩
  refine ⟨hdel, hheld.seqNum, ?_⟩
  have hsum : (l.map (·.dataLen.toNat)).sum < 2 ^ 64 := by
    have hle := sum_le_card_nsmul (l.map (·.dataLen.toNat)) (2 ^ 16) fun n hn => by
      obtain ⟨a, -, rfl⟩ := mem_map.1 hn
      exact a.dataLen.toNat_lt.le
    rw [length_map, smul_eq_mul] at hle
    have := hheld.length_lt
    omega
  rw [hheld.repr.items_eq, hheld.recvBytes, UInt64.toNat_ofNat_of_lt' hsum]

/-- A stream of segments of one byte. -/
def oneByte : Segmentation := ⟨fun k => [UInt8.ofNat k], fun _ => Nat.one_pos, fun _ => Nat.one_lt_two_pow (by decide)⟩

theorem start_oneByte (k : ℕ) : oneByte.start k = k := by
  induction k with
  | zero => rfl
  | succ k ih => rw [Segmentation.start, ih]; rfl

/-- The sequence numbers wrap between the second and the third of these segments; the first arrives last and the third
    twice. -/
theorem three_segments_delivered :
    let arrivals : List Arrival := [⟨2, 3⟩, ⟨1, 2⟩, ⟨2, 5⟩, ⟨0, 4⟩]
    LiveWindow oneByte arrivals ∧ LongestPrefix (arrivals.map (·.seg)) 3 ∧
      (receive oneByte 0xFFFFFFFD false (fun _ => true) 0 arrivals).uploaded.flatten.map (fun a => (a.seqNum, a.data)) =
        [(0xFFFFFFFE, [0]), (0xFFFFFFFF, [1]), (0, [2])] := by
  intro arrivals
  have hseg : ∀ pre, pre <+: arrivals → ∀ k ∈ pre.map (·.seg), k < 3 := by
    have hall : ∀ k ∈ arrivals.map (·.seg), k < 3 := by decide
    exact fun pre hpre k hk => hall k (map_subset _ hpre.subset hk)
  have hwin : LiveWindow oneByte arrivals := by
    intro pre a hpre p hp
    have ha : a.seg < 3 := hseg _ hpre _ (by simp)
    have hle : p ≤ 3 := Nat.le_of_not_lt fun hlt =>
      absurd (hseg pre ((prefix_append pre [a]).trans hpre) 3 (hp.mem 3 hlt)) (Nat.lt_irrefl 3)
    rw [start_oneByte, start_oneByte]
    omega
  have hp : LongestPrefix (arrivals.map (·.seg)) 3 := ⟨by decide, by decide⟩
  exact ⟨hwin, hp, (fillp_delivers_stream oneByte _ _ _ _ arrivals hwin 3 hp).1⟩

end SoftBus.Native
