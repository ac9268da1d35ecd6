import SoftBus.Spec.FillpBooks

/-!
# NACKs and the position in the stream

A NACK names packets that the receiver misses, and the sequence number up to which it has the data.  The sender
looks the packets up in the map of packet numbers and moves their items to `unrecvList`, except those up to
that sequence number.  All numbers are compared by their difference modulo `2 ^ 32`, but this last comparison is one of
plain numbers.  So the outcome depends on the position in the stream when an item and the number lie on both sides of
a multiple of `2 ^ 32`.

## Main results

- `Wf.visits`: which items the loop moves
- `nack_shift_iff`: when the outcome moves along with the numbers, and when it is the right one
- `nack_misses_wrapped_item`: an item after the number that is not sent again
-/

namespace SoftBus.Native
open Function List FillpSendPcb SendCore UInt32
variable {cfg : SendConfig} {s t : FillpSendPcb} {b k : UInt32} {v : SendList → List ℕ} {i : ℕ} {nack : NackInput}
  {x : UInt32}

/-! ## The loop -/

namespace FillpSendPcb

theorem mem_scan {endPktNum q : UInt32} {n : ℕ} {pktIndex : UInt32} (h : (endPktNum - pktIndex).toNat < 2 ^ 31) :
    q ∈ scan endPktNum n pktIndex ↔ (q - pktIndex).toNat < n ∧ q - pktIndex < endPktNum - pktIndex := by
  induction n generalizing pktIndex with
  | zero => simp [scan]
  | succ n ih =>
    have hq : q - (pktIndex + 1) = q - pktIndex - 1 := by grind
    have hend : endPktNum - (pktIndex + 1) = endPktNum - pktIndex - 1 := by grind
    have hpos : fillpNumIsbigger endPktNum pktIndex = true ↔ 0 < (endPktNum - pktIndex).toNat := by
      rw [fillpNumIsbigger, decide_eq_true_eq, toInt_pos_iff]
      exact and_iff_left h
    have heq : q = pktIndex ↔ (q - pktIndex).toNat = 0 := by
      rw [← UInt32.toNat_sub_inj pktIndex, UInt32.sub_self]
      rfl
    rw [scan]
    -- The next packet number is one nearer to both.
    by_cases hzero : (endPktNum - pktIndex).toNat = 0
    · rw [if_neg fun hb => Nat.ne_of_gt (hpos.1 hb) hzero, lt_iff_toNat_lt, hzero]
      simp
    · have hpred : ∀ x : UInt32, x.toNat ≠ 0 → (x - 1).toNat = x.toNat - 1 := fun x hx =>
        UInt32.toNat_sub_of_le _ _ (UInt32.le_iff_toNat_le.2 (Nat.pos_of_ne_zero hx))
      have hless : (endPktNum - (pktIndex + 1)).toNat < 2 ^ 31 := by
        rw [hend, hpred _ hzero]
        omega
      rw [if_pos (hpos.2 (Nat.pos_of_ne_zero hzero)), mem_cons, ih hless, hq, hend, heq]
      simp only [lt_iff_toNat_lt]
      by_cases hself : (q - pktIndex).toNat = 0
      · omega
      · rw [hpred _ hself, hpred _ hzero]
        omega

end FillpSendPcb

/-- A packet number is strictly between the two of a NACK, and at most `mpSendSize` behind the first that can be. -/
def NackInput.InScan (cfg : SendConfig) (nack : NackInput) (pktNum : UInt32) : Prop :=
  fillpNumIsbigger nack.endPktNum (nack.beginPktNum + 1) = true ∧
    pktNum - (nack.beginPktNum + 1) < nack.endPktNum - (nack.beginPktNum + 1) ∧
    pktNum - (nack.beginPktNum + 1) ≤ cfg.mpSendSize

theorem NackInput.mem_scanned {q : UInt32} : q ∈ nack.scanned cfg ↔ nack.InScan cfg q := by
  rw [NackInput.InScan, NackInput.scanned]
  by_cases h : fillpNumIsbigger nack.endPktNum (nack.beginPktNum + 1) = true
  · have hgap : (nack.endPktNum - (nack.beginPktNum + 1)).toNat < 2 ^ 31 := ((toInt_pos_iff _).1 (of_decide_eq_true h)).2
    rw [mem_scan hgap, and_iff_right h, lt_iff_toNat_lt, le_iff_toNat_le]
    generalize nack.endPktNum - (nack.beginPktNum + 1) = gap
    have hmin : (min gap cfg.mpSendSize).toNat = min gap.toNat cfg.mpSendSize.toNat := by
      by_cases hle : gap ≤ cfg.mpSendSize
      · rw [show min gap cfg.mpSendSize = _ from if_pos hle, Nat.min_eq_left (le_iff_toNat_le.1 hle)]
      · rw [show min gap cfg.mpSendSize = _ from if_neg hle,
          Nat.min_eq_right (Nat.le_of_not_le fun hle' => hle (le_iff_toNat_le.2 hle'))]
    omega
  · simp [scan, h]

/-- The items with the property `P` are moved from the table to `unrecvList`, and the lists are in order again. -/
structure Moves (cfg : SendConfig) (b : UInt32) (P : ℕ → Prop) (s s' : FillpSendPcb) : Prop where
  wf : ∃ v, Wf cfg (s'.core.since b) [] v
  item : ∀ a, (s'.item a).seqNum = (s.item a).seqNum ∧ (s'.item a).pktNum = (s.item a).pktNum ∧
    (s'.item a).lastSendTimestamp = (s.item a).lastSendTimestamp
  unack : ∀ a, a ∈ s'.unackItems ↔ a ∈ s.unackItems ∧ ¬ P a
  unrecv : ∀ a, a ∈ (s'.list .unrecvList).items ↔ a ∈ (s.list .unrecvList).items ∨ a ∈ s.unackItems ∧ P a

namespace Moves
variable {P Q R : ℕ → Prop} {s' s'' : FillpSendPcb}

theorem none (h : Wf cfg (s.core.since b) [] v) (hP : ∀ a ∈ s.unackItems, ¬ P a) : Moves cfg b P s s where
  wf := ⟨v, h⟩
  item _ := ⟨rfl, rfl, rfl⟩
  unack a := (and_iff_left_of_imp (hP a)).symm
  unrecv a := (or_iff_left fun ha => hP a ha.1 ha.2).symm

theorem trans (h : Moves cfg b P s s') (h' : Moves cfg b Q s' s'') (hR : ∀ a ∈ s.unackItems, R a ↔ P a ∨ Q a) :
    Moves cfg b R s s'' where
  wf := h'.wf
  item a := by
    obtain ⟨hseq, hpkt, htime⟩ := h'.item a
    rw [hseq, hpkt, htime]
    exact h.item a
  unack a := by
    rw [h'.unack, h.unack, and_assoc]
    exact and_congr_right fun ha => by rw [hR a ha, not_or]
  unrecv a := by
    rw [h'.unrecv, h.unrecv, h.unack, or_assoc]
    refine or_congr_right ?_
    by_cases ha : a ∈ s.unackItems
    · rw [hR a ha]
      by_cases hP : P a <;> simp [ha, hP]
    · simp [ha]

end Moves

/-- An item leaves the table and is put into `unrecvList`. -/
theorem Wf.moveItem (h : Wf cfg (s.core.since b) [] v) (hi : i ∈ s.unackItems) (isFromPack : Bool) :
    Moves cfg b (· = i) s (s.moveItem isFromPack i) := by
  have hperm := h.unackItems_hlistDelNode hi
  have htake := h.takeUnack hperm (fun j => erase_sublist) (fun j => erase_sublist) (h.notMem_hlistDelNode i)
    fun j a ha hne => (mem_erase_of_ne hne).2 ha
  have hcore : (s.takeReported isFromPack i).core = { s.core with
      unackList := hlistDelNode s.unackList i
      pktSeqMap := hlistDelNode s.pktSeqMap i } := by
    rw [takeReported]
    split
    · exact core_setItem rfl rfl rfl
    · rfl
  have hwf' : ∃ v', Wf cfg ((s.moveItem isFromPack i).core.since b) [] v' ∧
      ∀ a, a ∈ v' .unrecvList ↔ a = i ∨ a ∈ v .unrecvList := by
    rw [FillpSendPcb.moveItem]
    generalize s.takeReported isFromPack i = s' at hcore ⊢
    have hhand : Wf cfg (s'.core.since b) [i] v := by
      rw [hcore]
      exact htake
    obtain ⟨hok, hins⟩ := hhand.insert
    obtain ⟨list, hret, hlist⟩ : ∃ list, s'.insert .unrecvList i = (.ok, s'.setList .unrecvList list) ∧
        Wf cfg ((s'.setList .unrecvList list).core.since b) []
          (update v .unrecvList ((v .unrecvList).orderedInsert
            ((s'.core.since b).dist · ≤ (s'.core.since b).dist ·) i)) := ⟨_, Prod.ext hok rfl, hins⟩
    rw [hret]
    have hfinal := core_countLost (s'.setList .unrecvList list) i
    refine ⟨_, hfinal.symm ▸ hlist, fun a => ?_⟩
    rw [update_self, mem_orderedInsert]
  obtain ⟨v', hwf', hunrecv⟩ := hwf'
  have hitems : ∀ {s : FillpSendPcb} {v : SendList → List ℕ}, Wf cfg (s.core.since b) [] v →
      (s.list .unrecvList).items = v .unrecvList := fun hwf => SkipList.Repr.items_eq (hwf.repr .unrecvList)
  refine ⟨⟨v', hwf'⟩, fun a => ⟨?_, ?_, ?_⟩, fun a => ?_, fun a => ?_⟩
  · exact item_moveItem SendItem.seqNum (fun _ _ => rfl) (fun _ _ => rfl) ..
  · exact item_moveItem SendItem.pktNum (fun _ _ => rfl) (fun _ _ => rfl) ..
  · exact item_moveItem SendItem.lastSendTimestamp (fun _ _ => rfl) (fun _ _ => rfl) ..
  · have hmem : a ∈ s.unackItems ↔ a = i ∨ a ∈ (s.moveItem isFromPack i).unackItems := by
      rw [FillpSendPcb.unackItems, FillpSendPcb.unackItems, unackList_moveItem]
      exact hperm.mem_iff.trans mem_cons
    have hi' : i ∉ (s.moveItem isFromPack i).unackItems := by
      have hnodup := hperm.nodup_iff.1 (nodup_append.1 (nodup_append.1 h.nodup_live).1).2.1
      rw [FillpSendPcb.unackItems, unackList_moveItem]
      exact (nodup_cons.1 hnodup).1
    rw [hmem]
    exact ⟨fun ha => ⟨.inr ha, ne_of_mem_of_not_mem ha hi'⟩, fun ha => ha.1.resolve_left ha.2⟩
  · rw [hitems hwf', hitems h, hunrecv, or_comm]
    exact or_congr_right ⟨fun ha => ⟨ha ▸ hi, ha⟩, And.right⟩

/-- The items that a scan of the packet numbers `ps` moves. -/
def FillpSendPcb.Hit (s : FillpSendPcb) (nack : NackInput) (ps : List UInt32) (i : ℕ) : Prop :=
  i ∈ s.unackItems ∧ (s.item i).pktNum ∈ ps ∧ nack.beginSeqNum < (s.item i).seqNum

/-- The item with a packet number is moved, unless the plain value of its sequence number is too small. -/
theorem Wf.visit (h : Wf cfg (s.core.since b) [] v) (nack : NackInput) (p : UInt32) :
    Moves cfg b (s.Hit nack [p]) s (s.visit cfg nack p) := by
  -- Which items have the packet number is said by the search.
  have hfind : ∀ a, s.fillpGetSeqFromPktSeqHash cfg p = some a ↔ _ := fun a => h.fillpGetSeqFromPktSeqHash
  have hhit : ∀ a, s.Hit nack [p] a ↔
      s.fillpGetSeqFromPktSeqHash cfg p = some a ∧ nack.beginSeqNum < (s.item a).seqNum := by
    intro a
    rw [FillpSendPcb.Hit, mem_singleton, hfind, and_assoc]
  rw [FillpSendPcb.visit]
  cases hget : s.fillpGetSeqFromPktSeqHash cfg p with
  | none => exact .none h fun a _ => by simp [hhit, hget]
  | some i =>
    simp only [hget, Option.some_inj] at hhit
    by_cases hle : (s.item i).seqNum ≤ nack.beginSeqNum
    · simp only [if_pos hle]
      refine .none h fun a _ ha => ?_
      obtain ⟨rfl, hlt⟩ := (hhit a).1 ha
      exact absurd hlt (UInt32.not_lt.2 hle)
    · simp only [if_neg hle]
      have hself : s.Hit nack [p] = (· = i) := by
        funext a
        rw [hhit, eq_iff_iff]
        exact ⟨fun ha => ha.1.symm, by rintro rfl; exact ⟨rfl, UInt32.not_le.1 hle⟩⟩
      rw [hself]
      exact h.moveItem ((hfind i).1 hget).1 true

/-- A scan moves the items with the packet numbers that it goes through. -/
theorem Wf.visits (h : Wf cfg (s.core.since b) [] v) (nack : NackInput) (ps : List UInt32) :
    Moves cfg b (s.Hit nack ps) s (ps.foldl (FillpSendPcb.visit cfg nack) s) := by
  induction ps generalizing s v with
  | nil => exact .none h fun a _ ha => not_mem_nil ha.2.1
  | cons p ps ih =>
    have hfirst := h.visit nack p
    obtain ⟨v₁, hwf₁⟩ := hfirst.wf
    refine hfirst.trans (ih hwf₁) fun a ha => ?_
    -- An item that is hit later is one that was not hit before.
    obtain ⟨hseq, hpkt, -⟩ := hfirst.item a
    rw [FillpSendPcb.Hit, FillpSendPcb.Hit, FillpSendPcb.Hit, hfirst.unack, hseq, hpkt, FillpSendPcb.Hit]
    by_cases hp : (s.item a).pktNum = p <;> simp [ha, hp]

/-! ## Shifted states -/

namespace FillpSendPcb

def shiftItem (k : UInt32) (item : SendItem) : SendItem := { item with seqNum := item.seqNum + k }

/-- All sequence numbers are `k` further on.  The lists of the table are then other ones. -/
def shift (s : FillpSendPcb) (k : UInt32) (unackList : UInt32 → List ℕ) : FillpSendPcb :=
  { s with
    item := fun i => shiftItem k (s.item i)
    unackList := unackList
    seqNum := s.seqNum + k
    ackSeqNum := s.ackSeqNum + k
    maxAckNumFromReceiver := s.maxAckNumFromReceiver + k
    lastPackAckSeq := s.lastPackAckSeq + k }

end FillpSendPcb

/-- `t` is `s` with all sequence numbers `k` further on, and its table has the same items, each in the list for its
    number, in order. -/
structure IsShift (k : UInt32) (s t : FillpSendPcb) : Prop where
  eq : t = s.shift k t.unackList
  items : t.unackItems.Perm s.unackItems
  home : ∀ j, ∀ i ∈ t.unackList j, fillpUnacklistHashindex (t.item i).seqNum = j
  order : ∀ j, (t.unackList j).Pairwise fun a b => fillpNumIsbigger (t.item b).seqNum (t.item a).seqNum = true

def NackInput.shift (nack : NackInput) (k : UInt32) : NackInput := { nack with beginSeqNum := nack.beginSeqNum + k }

theorem fillpNumIsbigger_add (x y k : UInt32) : fillpNumIsbigger (x + k) (y + k) = fillpNumIsbigger x y := by
  rw [fillpNumIsbigger, fillpNumIsbigger, show x + k - (y + k) = x - y by grind]

theorem fillpSkiplistCmp_add (y : UInt32) : fillpSkiplistCmp (x + k) (y + k) = fillpSkiplistCmp x y := by
  rw [fillpSkiplistCmp, fillpSkiplistCmp, show x + k - (y + k) = x - y by grind]
  simp only [UInt32.add_left_inj]

namespace FillpSendPcb
variable {U : UInt32 → List ℕ}

theorem shift_insert (L : SendList) :
    (s.shift k U).insert L i = ((s.insert L i).1, (s.insert L i).2.shift k U) := by
  have hcmp : (fun a b => fillpSkiplistCmp ((s.shift k U).item a).seqNum ((s.shift k U).item b).seqNum) =
      fun a b => fillpSkiplistCmp (s.item a).seqNum (s.item b).seqNum := by
    funext a b
    exact fillpSkiplistCmp_add ..
  rw [insert, hcmp]
  rfl

theorem shift_setItem (s : FillpSendPcb) (i : ℕ) (f : SendItem → SendItem)
    (hf : ∀ item, f (shiftItem k item) = shiftItem k (f item)) :
    (s.shift k U).setItem i f = (s.setItem i f).shift k U := by
  have hitem : update (fun j => shiftItem k (s.item j)) i (f (shiftItem k (s.item i))) =
      fun j => shiftItem k (update s.item i (f (s.item i)) j) := by
    rw [hf]
    exact (funext fun j => Function.apply_update (fun _ => shiftItem k) s.item i (f (s.item i)) j).symm
  exact congrArg (fun item => ({ s.shift k U with item := item } : FillpSendPcb)) hitem

theorem shift_countLost (ret : SkipRet) :
    countLost i (ret, s.shift k U) = (countLost i (ret, s)).shift k U := by
  cases ret with
  | comm => rfl
  | ok =>
    exact shift_setItem { s with unrecvRedunListBytes := s.unrecvRedunListBytes + (s.item i).dataLen.toUInt64 } i
      (fun item => { item with sendCount := item.sendCount + 1 }) fun _ => rfl

theorem shift_nackItem (s : FillpSendPcb) (i : ℕ) :
    (s.shift k U).nackItem i = (s.nackItem i).shift k (hlistDelNode U i) := by
  have hshift := shift_setItem (k := k) (U := hlistDelNode U i) { s.takeOut i with
    inSendBytes := s.inSendBytes - (s.item i).dataLen.toUInt64 } i
      (fun item => { item with infCount := item.infCount - 1 }) fun _ => rfl
  show (s.shift k U).moveItem true i = (s.moveItem true i).shift k _
  rw [moveItem, moveItem, ← shift_countLost, ← shift_insert]
  exact congrArg (fun s' => countLost i (insert s' .unrecvList i)) hshift

end FillpSendPcb

namespace IsShift

theorem item (h : IsShift k s t) (i : ℕ) : t.item i = shiftItem k (s.item i) := by
  rw [h.eq]
  rfl

section
variable (h : IsShift k s t) (hs : Wf cfg (s.core.since b) [] v)
include h hs

/-- The shifted state is in order as well, counted from the shifted number. -/
theorem wf : Wf cfg (t.core.since (b + k)) [] v := by
  -- but for the numbers and the table the states are the same
  obtain ⟨U, rfl⟩ : ∃ U, t = s.shift k U := ⟨_, h.eq⟩
  have hdist : ((s.shift k U).core.since (b + k)).dist = (s.core.since b).dist := by
    funext i
    show ((s.item i).seqNum + k - (b + k)).toNat = ((s.item i).seqNum - b).toNat
    exact congrArg toNat (by grind)
  have hspan : ((s.shift k U).core.since (b + k)).span = (s.core.since b).span := by
    show (s.seqNum + k - (b + k)).toNat = (s.seqNum - b).toNat
    exact congrArg toNat (by grind)
  have hmax : s.maxAckNumFromReceiver + k - (b + k) = s.maxAckNumFromReceiver - b := by grind
  have hitems : ((s.shift k U).core.since (b + k)).unackItems.Perm (s.core.since b).unackItems := h.items
  have hlive : (((s.shift k U).core.since (b + k)).live [] v).Perm ((s.core.since b).live [] v) := by
    exact (hitems.append_left []).append_right _
  have hlt : ∀ j, ∀ a ∈ U j, (s.core.since b).dist a < 2 ^ 31 := by
    intro j a ha
    have hmem : a ∈ ((s.shift k U).core.since (b + k)).unackItems := by
      rw [unackItems_eq]
      exact mem_flatMap.2 ⟨j, h.home j a ha ▸ hashindex_mem _, ha⟩
    exact (hs.window a (mem_live.2 (.inr (.inl (hitems.mem_iff.1 hmem))))).2.trans_lt hs.span_lt
  exact { hs with
    sorted := fun L => by
      rw [hdist]
      exact hs.sorted L
    distinct := by
      rw [hdist]
      exact (hlive.pairwise_iff Ne.symm).2 hs.distinct
    window := fun i hi => by
      rw [hdist, hspan]
      exact hs.window i (hlive.mem_iff.1 hi)
    span_lt := hspan ▸ hs.span_lt
    maxAck := by
      rw [hspan]
      exact (congrArg toNat hmax).trans_le hs.maxAck
    home := h.home
    bucket := fun j => by
      rw [hdist]
      refine (h.order j).imp_of_mem fun {x y} hx hy hbig => ?_
      have hbig' : fillpNumIsbigger (s.item y).seqNum (s.item x).seqNum = true := by
        rwa [← fillpNumIsbigger_add _ _ k]
      exact (toInt_sub_pos_iff b (hlt j y hy) (hlt j x hx)).1 (of_decide_eq_true hbig')
    mapped := fun j i hi => ⟨(hs.mapped j i hi).1, hitems.mem_iff.2 (hs.mapped j i hi).2⟩
    mapAll := fun i hi => hs.mapAll i (hitems.mem_iff.1 hi)
    pkt := fun i hi => hs.pkt i (hitems.mem_iff.1 hi)
    unsent := { hs.unsent with
      old := fun i hi => hs.unsent.old i (hlive.mem_iff.1 hi)
      notMem := fun i hi hmem => hs.unsent.notMem i hi (hlive.mem_iff.1 hmem) } }

/-- Both states move an item. -/
theorem nackItem (hi : i ∈ s.unackItems) : IsShift k (s.nackItem i) (t.nackItem i) := by
  have ht := h.wf hs
  have hi' : i ∈ t.unackItems := h.items.mem_iff.2 hi
  have hmove := hs.moveItem hi true
  have hmove' := ht.moveItem hi' true
  obtain ⟨v₁, hs₁⟩ := hmove.wf
  obtain ⟨v₂, ht₂⟩ := hmove'.wf
  have heq : t.nackItem i = (s.nackItem i).shift k (hlistDelNode t.unackList i) := by
    have hnack := s.shift_nackItem (k := k) (U := t.unackList) i
    rwa [← h.eq] at hnack
  have hlist : (t.nackItem i).unackList = hlistDelNode t.unackList i := by rw [heq]; rfl
  have hitem : ∀ a, ((t.nackItem i).item a).seqNum = (t.item a).seqNum := fun a => (hmove'.item a).1
  refine ⟨by rw [hlist]; exact heq, ?_, fun j a ha => ?_, fun j => ?_⟩
  · -- Both tables have the same items, and none of them twice.
    have hnodup := fun {s : FillpSendPcb} {b : UInt32} {v : SendList → List ℕ} (hwf : Wf cfg (s.core.since b) [] v) =>
      (nodup_append.1 (nodup_append.1 hwf.nodup_live).1).2.1
    refine (perm_ext_iff_of_nodup (hnodup ht₂) (hnodup hs₁)).2 fun a => ?_
    exact (hmove'.unack a).trans ((and_congr_left' h.items.mem_iff).trans (hmove.unack a).symm)
  · rw [hlist] at ha
    rw [hitem]
    exact h.home j a (mem_of_mem_erase ha)
  · rw [hlist]
    simp only [hitem]
    exact (h.order j).sublist erase_sublist

/-- Both states do the same for a packet number, if the comparisons of plain numbers agree. -/
theorem visit {p : UInt32} (hagree : ∀ i ∈ s.unackItems, (s.item i).pktNum = p →
      ((s.item i).seqNum ≤ nack.beginSeqNum ↔ (t.item i).seqNum ≤ (nack.shift k).beginSeqNum)) :
    IsShift k (s.visit cfg nack p) (t.visit cfg (nack.shift k) p) := by
  have hget : t.fillpGetSeqFromPktSeqHash cfg p = s.fillpGetSeqFromPktSeqHash cfg p := by
    have hpkt : ∀ a, (t.item a).pktNum = (s.item a).pktNum := fun a => by rw [h.item]; rfl
    rw [fillpGetSeqFromPktSeqHash, findPkt_congr hpkt, show t.pktSeqMap = s.pktSeqMap by rw [h.eq]; rfl]
    rfl
  rw [FillpSendPcb.visit, FillpSendPcb.visit, hget]
  cases hfind : s.fillpGetSeqFromPktSeqHash cfg p with
  | none => exact h
  | some i =>
    obtain ⟨hi, hp⟩ := hs.fillpGetSeqFromPktSeqHash.1 hfind
    simp only [← hagree i hi hp]
    split
    · exact h
    · exact h.nackItem hs hi

theorem visits {ps : List UInt32}
    (hagree : ∀ i ∈ s.unackItems, (s.item i).pktNum ∈ ps →
      ((s.item i).seqNum ≤ nack.beginSeqNum ↔ (t.item i).seqNum ≤ (nack.shift k).beginSeqNum)) :
    IsShift k (ps.foldl (FillpSendPcb.visit cfg nack) s) (ps.foldl (FillpSendPcb.visit cfg (nack.shift k)) t) := by
  induction ps generalizing s t v with
  | nil => exact h
  | cons p ps ih =>
    have hstep := h.visit hs fun i hi hp => hagree i hi (hp ▸ mem_cons_self)
    have hmove := hs.visit nack p
    obtain ⟨v₁, hs₁⟩ := hmove.wf
    refine ih hstep hs₁ fun a ha hpa => ?_
    -- The numbers of the items stay.
    obtain ⟨hseq, hpkt, -⟩ := hmove.item a
    rw [hseq, (((h.wf hs).visit (nack.shift k) p).item a).1]
    exact hagree a ((hmove.unack a).1 ha).1 (mem_cons_of_mem p (hpkt ▸ hpa))

end
end IsShift

/-! ## NACKs -/

section
variable (cfg) (s)

/-- The lists of the sender are in order. -/
def SendOrdered : Prop := ∃ b v, Wf cfg (s.core.since b) [] v

/-- The items that a NACK moves to `unrecvList` are those of the table with a packet number in the gap and a sequence
    number after that of the NACK. -/
def MovesExactly (nack : NackInput) : Prop :=
  ∀ i, i ∈ ((s.fillpNackInput cfg nack).list .unrecvList).items ∧ i ∉ (s.list .unrecvList).items ↔
    i ∈ s.unackItems ∧ nack.InScan cfg (s.item i).pktNum ∧ fillpNumIsbigger (s.item i).seqNum nack.beginSeqNum = true

/-- For the items that a NACK finds, the plain comparison with its sequence number is the one that is meant. -/
def PlainAgrees (nack : NackInput) : Prop :=
  ∀ i ∈ s.unackItems, nack.InScan cfg (s.item i).pktNum →
    (nack.beginSeqNum < (s.item i).seqNum ↔ fillpNumIsbigger (s.item i).seqNum nack.beginSeqNum = true)

end

/-- What an accepted NACK does. -/
theorem Wf.fillpNackInput (h : Wf cfg (s.core.since b) [] v) (hcheck : s.fillpCheckNackSeq cfg nack = true) :
    (∀ a, a ∈ (s.fillpNackInput cfg nack).unackItems ↔ a ∈ s.unackItems ∧
      ¬ (nack.InScan cfg (s.item a).pktNum ∧ nack.beginSeqNum < (s.item a).seqNum)) ∧
    ∀ a, a ∈ ((s.fillpNackInput cfg nack).list .unrecvList).items ↔ a ∈ (s.list .unrecvList).items ∨
      (a ∈ s.unackItems ∧ nack.InScan cfg (s.item a).pktNum ∧ nack.beginSeqNum < (s.item a).seqNum) := by
  obtain ⟨-, -, hunack', hunrecv'⟩ := Wf.visits (s := s.noteNack nack) h nack (nack.scanned cfg)
  have hhit : ∀ a, (s.noteNack nack).Hit nack (nack.scanned cfg) a ↔
      a ∈ s.unackItems ∧ nack.InScan cfg (s.item a).pktNum ∧ nack.beginSeqNum < (s.item a).seqNum :=
    fun a => and_congr_right' (and_congr_left' NackInput.mem_scanned)
  rw [fillpNackInput_eq, if_pos hcheck]
  split
  · simp only [hhit] at hunack' hunrecv'
    generalize foldl (FillpSendPcb.visit cfg nack) _ _ = s' at hunack' hunrecv' ⊢
    have hraise : (s'.raiseMaxAck nack.beginSeqNum).unackItems = s'.unackItems ∧
        (s'.raiseMaxAck nack.beginSeqNum).list = s'.list := by
      rw [raiseMaxAck]
      split <;> exact ⟨rfl, rfl⟩
    rw [hraise.1, hraise.2]
    refine ⟨fun a => (hunack' a).trans (and_congr_right fun ha => not_congr (and_iff_right ha)), fun a => ?_⟩
    exact (hunrecv' a).trans (or_congr_right (and_iff_right_of_imp And.left))
  · next hgap =>
    have hnone : ∀ pktNum, ¬ nack.InScan cfg pktNum := fun pktNum hscan => hgap hscan.1
    exact ⟨fun a => (and_iff_left fun hscan => hnone _ hscan.1).symm, fun a => (or_iff_left fun hscan => hnone _ hscan.2.1).symm⟩

/-- The outcome of a NACK depends on its acceptance only through the check, which is about differences. -/
theorem IsShift.fillpCheckNackSeq (h : IsShift k s t) :
    t.fillpCheckNackSeq cfg (nack.shift k) = s.fillpCheckNackSeq cfg nack := by
  have hseq : t.seqNum = s.seqNum + k := by rw [h.eq]; rfl
  have hstart : t.nackPktStartNum = s.nackPktStartNum := by rw [h.eq]; rfl
  have hend : t.nackPktEndNum = s.nackPktEndNum := by rw [h.eq]; rfl
  rw [FillpSendPcb.fillpCheckNackSeq, hseq, hstart, hend]
  show (if fillpNumIsbigger (nack.beginSeqNum + k) (s.seqNum + k) ||
    fillpNumIsbigger (s.seqNum + k) (nack.beginSeqNum + k + cfg.pktSendCache) then _ else _) = _
  rw [show nack.beginSeqNum + k + cfg.pktSendCache = nack.beginSeqNum + cfg.pktSendCache + k by grind,
    fillpNumIsbigger_add, fillpNumIsbigger_add]
  rfl

theorem IsShift.raiseMaxAck (h : IsShift k s t) : IsShift k (s.raiseMaxAck x) (t.raiseMaxAck (x + k)) := by
  have hmax : t.maxAckNumFromReceiver = s.maxAckNumFromReceiver + k := by rw [h.eq]; rfl
  rw [FillpSendPcb.raiseMaxAck, FillpSendPcb.raiseMaxAck, hmax, fillpNumIsbigger_add]
  split
  · refine ⟨?_, h.items, h.home, h.order⟩
    exact congrArg (fun t => ({ t with maxAckNumFromReceiver := x + k } : FillpSendPcb)) h.eq
  · exact h

theorem IsShift.fillpNackInput (h : IsShift k s t) (hs : Wf cfg (s.core.since b) [] v)
    (hagree : ∀ i ∈ s.unackItems, nack.InScan cfg (s.item i).pktNum →
      ((s.item i).seqNum ≤ nack.beginSeqNum ↔ (t.item i).seqNum ≤ (nack.shift k).beginSeqNum)) :
    IsShift k (s.fillpNackInput cfg nack) (t.fillpNackInput cfg (nack.shift k)) := by
  have h₀ : IsShift k (s.noteNack nack) (t.noteNack (nack.shift k)) :=
    ⟨congrArg (noteNack · (nack.shift k)) h.eq, h.items, h.home, h.order⟩
  rw [fillpNackInput_eq, fillpNackInput_eq, h.fillpCheckNackSeq]
  split
  · show IsShift k (if fillpNumIsbigger nack.endPktNum (nack.beginPktNum + 1) then _ else _)
      (if fillpNumIsbigger nack.endPktNum (nack.beginPktNum + 1) then _ else _)
    split
    · have hs₀ : Wf cfg ((s.noteNack nack).core.since b) [] v := hs
      refine IsShift.raiseMaxAck (h₀.visits hs₀ fun i hi hp => ?_)
      exact hagree i hi (NackInput.mem_scanned.1 hp)
    · exact h₀
  · exact h

/-- An accepted NACK shifts along with the numbers and moves the items that it should, exactly if the comparison of plain
    numbers is the one that is meant, in both positions. -/
theorem nack_shift_iff (cfg : SendConfig) (s t : FillpSendPcb) (nack : NackInput) (k : UInt32)
    (hs : SendOrdered cfg s) (h : IsShift k s t) (hcheck : s.fillpCheckNackSeq cfg nack = true) :
    IsShift k (s.fillpNackInput cfg nack) (t.fillpNackInput cfg (nack.shift k)) ∧ MovesExactly cfg s nack ↔
      PlainAgrees cfg s nack ∧ PlainAgrees cfg t (nack.shift k) := by
  obtain ⟨b, v, hwf⟩ := hs
  obtain ⟨hunack, hunrecv⟩ := hwf.fillpNackInput hcheck
  obtain ⟨hunack', -⟩ := (h.wf hwf).fillpNackInput (h.fillpCheckNackSeq.trans hcheck)
  -- The numbers of an item in the two states.
  have hscan : ∀ i, (nack.shift k).InScan cfg (t.item i).pktNum ↔ nack.InScan cfg (s.item i).pktNum := fun i => by
    rw [h.item]
    exact Iff.rfl
  have hbig : ∀ i, fillpNumIsbigger (t.item i).seqNum (nack.shift k).beginSeqNum =
      fillpNumIsbigger (s.item i).seqNum nack.beginSeqNum := fun i => by
    rw [h.item]
    exact fillpNumIsbigger_add ..
  have hnew : ∀ i ∈ s.unackItems, i ∉ (s.list .unrecvList).items := fun i hi hmem => by
    have hitems : (s.list .unrecvList).items = v .unrecvList :=
      SkipList.Repr.items_eq (hwf.repr .unrecvList)
    rw [hitems] at hmem
    have hne := (nodup_append.1 hwf.nodup_live).2.2 i (mem_append.2 (.inr hi)) i
    refine hne ?_ rfl
    simp only [listed, mem_append]
    exact .inl (.inl hmem)
  constructor
  · rintro ⟨hshift, hexact⟩
    have hs' : PlainAgrees cfg s nack := by
      intro i hi hp
      have hiff := hexact i
      rw [hunrecv, and_iff_left (hnew i hi), or_iff_right (hnew i hi)] at hiff
      exact ⟨fun hlt => (hiff.1 ⟨hi, hp, hlt⟩).2.2, fun hb => (hiff.2 ⟨hi, hp, hb⟩).2.2⟩
    refine ⟨hs', fun i hi hp => ?_⟩
    rw [hbig, ← hs' i (h.items.mem_iff.1 hi) ((hscan i).1 hp)]
    have hiff := hshift.items.mem_iff (a := i)
    rw [hunack', hunack, and_iff_right hi, and_iff_right (h.items.mem_iff.1 hi), and_iff_right hp,
      and_iff_right ((hscan i).1 hp)] at hiff
    exact not_iff_not.1 hiff
  · rintro ⟨hs', ht'⟩
    refine ⟨h.fillpNackInput hwf fun i hi hp => ?_, fun i => ?_⟩
    · rw [← not_iff_not, UInt32.not_le, UInt32.not_le, hs' i hi hp, ht' i (h.items.mem_iff.2 hi) ((hscan i).2 hp), hbig]
    · rw [hunrecv]
      constructor
      · rintro ⟨hold | ⟨hi, hp, hlt⟩, hnot⟩
        · exact absurd hold hnot
        · exact ⟨hi, hp, (hs' i hi hp).1 hlt⟩
      · rintro ⟨hi, hp, hb⟩
        exact ⟨.inr ⟨hi, hp, (hs' i hi hp).2 hb⟩, hnew i hi⟩

/-! ## Runs -/

open Run (AllSteps)

/-- In every run with room for the numbers the lists are in order. -/
theorem SendOrdered.run (randomLev : SendList → ℕ → Bool) (seqNum pktNum : UInt32) (es : List SendEvent)
    (h : AllSteps (step cfg) (fun s _ => s.WindowRoom) (.init randomLev seqNum pktNum) es) :
    SendOrdered cfg (es.foldl (step cfg) (.init randomLev seqNum pktNum)) := by
  have hinit : ∃ b, Sound cfg (fun _ => b) False (.init randomLev seqNum pktNum) [] 0 :=
    ⟨seqNum, Sound.init cfg False randomLev seqNum pktNum (by rw [UInt32.sub_self]; decide)⟩
  obtain ⟨b, v, hwf, -⟩ := h.foldl_inv (P := fun s => ∃ b, Sound cfg (fun _ => b) False s [] 0)
    (fun s e hs hroom => by
      obtain ⟨b, hs⟩ := hs
      obtain ⟨hs', hroom'⟩ := hs.rebase hroom
      exact ⟨_, hs'.step hroom' False.elim fun s₁ n hcall => (hs'.ackCall hcall).fillpAckSendPcb False.elim n⟩) hinit
  exact ⟨b, v, hwf⟩

/-- A shift that leaves the indices of the buckets as they are. -/
theorem SendOrdered.isShift (h : SendOrdered cfg s)
    (hhash : ∀ i ∈ s.unackItems, fillpUnacklistHashindex ((s.item i).seqNum + k) = fillpUnacklistHashindex (s.item i).seqNum) :
    IsShift k s (s.shift k s.unackList) := by
  obtain ⟨b, v, hwf⟩ := h
  refine ⟨rfl, .refl _, fun j i hi => ?_, fun j => ?_⟩
  · exact (hhash i (hwf.mem_unackItems_of_mem hi)).trans (hwf.home j i hi)
  · refine (hwf.bucket j).imp_of_mem fun {x y} hx hy hlt => ?_
    have hlive : ∀ i ∈ s.unackList j, i ∈ (s.core.since b).live [] v := fun i hi =>
      mem_live.2 (.inr (.inl (hwf.mem_unackItems_of_mem hi)))
    refine (fillpNumIsbigger_add (s.item y).seqNum (s.item x).seqNum k).trans ?_
    exact (hwf.isbigger_iff (hlive y hy) ((hwf.window x (hlive x hx)).2.trans_lt hwf.span_lt)).2 hlt

instance : Decidable (NackInput.InScan cfg nack q) := inferInstanceAs (Decidable (_ ∧ _ ∧ _))

instance : Decidable (PlainAgrees cfg s nack) := inferInstanceAs (Decidable (∀ _ ∈ _, _ → _))

/-- Three items of which the second is reported as lost, here and half a megabyte further on. -/
theorem nack_shift_of_three :
    let cfg : SendConfig := ⟨100000, 100, false, 2⟩
    let es := List.replicate 3 (SendEvent.write 1000) ++ List.replicate 3 (.sendRound ⟨0, 0⟩ true true)
    let s := es.foldl (FillpSendPcb.step cfg) (.init (fun _ _ => false) 0 0)
    let t := s.shift 0x80000 s.unackList
    let nack : NackInput := ⟨1000, 1, 3⟩
    IsShift 0x80000 s t ∧ ((s.fillpNackInput cfg nack).list .unrecvList).items = [1] ∧
      IsShift 0x80000 (s.fillpNackInput cfg nack) (t.fillpNackInput cfg (nack.shift 0x80000)) ∧ MovesExactly cfg s nack := by
  intro cfg es s t nack
  have hs : SendOrdered cfg s := SendOrdered.run _ 0 0 es (by decide +kernel)
  have h : IsShift 0x80000 s t := hs.isShift (by decide +kernel)
  exact ⟨h, by decide +kernel, (nack_shift_iff cfg s t nack 0x80000 hs h (by decide +kernel)).2
    ⟨by decide +kernel, by decide +kernel⟩⟩

/-- Three items at the end of the number space: the second one begins before a multiple of `2 ^ 32` and ends after it.  It
    is reported as lost, by a NACK whose sequence number is the end of the first, and is not sent again.  For the same
    items from 0 on it is. -/
theorem nack_misses_wrapped_item :
    let cfg : SendConfig := ⟨100000, 100, false, 2⟩
    let es := List.replicate 3 (SendEvent.write 1000) ++ List.replicate 3 (.sendRound ⟨0, 0⟩ true true)
    let s := es.foldl (FillpSendPcb.step cfg) (.init (fun _ _ => false) 0xfffffa24 0)
    let nack : NackInput := ⟨0xfffffe0c, 1, 3⟩
    let s₀ := es.foldl (FillpSendPcb.step cfg) (.init (fun _ _ => false) 0 0)
    let nack₀ : NackInput := ⟨1000, 1, 3⟩
    nack = nack₀.shift 0xfffffa24 ∧ SendOrdered cfg s ∧ s.fillpCheckNackSeq cfg nack = true ∧
      1 ∈ s.unackItems ∧ nack.InScan cfg (s.item 1).pktNum ∧ fillpNumIsbigger (s.item 1).seqNum nack.beginSeqNum = true ∧
      ((s.fillpNackInput cfg nack).list .unrecvList).items = [] ∧
      ((s₀.fillpNackInput cfg nack₀).list .unrecvList).items = [1] ∧ ¬ MovesExactly cfg s nack := by
  intro cfg es s nack s₀ nack₀
  have hitem : 1 ∈ s.unackItems ∧ nack.InScan cfg (s.item 1).pktNum ∧
      fillpNumIsbigger (s.item 1).seqNum nack.beginSeqNum = true := by decide +kernel
  have hnone : ((s.fillpNackInput cfg nack).list .unrecvList).items = [] := by decide +kernel
  refine ⟨by decide, SendOrdered.run _ _ 0 es (by decide +kernel), by decide +kernel, hitem.1, hitem.2.1, hitem.2.2,
    hnone, by decide +kernel, fun h => ?_⟩
  have hmem := ((h 1).2 hitem).1
  rw [hnone] at hmem
  cases hmem

end SoftBus.Native
