import SoftBus.Spec.FillpMoves

/-!
# What the FillP sender is told

What the sender does when items are reported as lost, and when items are acknowledged, in the moves of
`FillpMoves.lean`.  A NACK names items by their packet numbers, and the map of these numbers finds exactly the items of
the table; a PACK names them by their sequence numbers.

## Main results

- `Sound.fillpMoveUnackToUnrecv`, `Sound.fillpNackInput`: items reported as lost
- `Sound.fillpAckSendPcb`: items acknowledged
-/

namespace SoftBus.Native
open Function List FillpSendPcb SendCore UInt32
open Counter (Reads)
variable {l rest : List ℕ} {x pktNum j b : UInt32} {s' : FillpSendPcb} {L : SendList} {e : SendEvent}
  {isFromPack : Bool} {nack : NackInput} {clock : FillpSendPcb.Clock} {lostSeq ackSeq : UInt32}
  {pack : PackInput}
variable {cfg : SendConfig} {base : UInt32 → UInt32} {p : Prop} {s : FillpSendPcb} {hand : List ℕ}
  {v : SendList → List ℕ} {owed : ℤ} {i : ℕ}

/-! ## Items reported as lost -/

/-- The search for the packet number of an item finds the item. -/
theorem findPkt_eq (hsorted : l.Pairwise (s.core.pktDist · > s.core.pktDist ·))
    (hlt : ∀ a ∈ l, s.core.pktDist a < 2 ^ 31) (hi : i ∈ l) : s.findPkt (s.item i).pktNum l = some i := by
  induction l with
  | nil => exact absurd hi not_mem_nil
  | cons a l ih =>
    rw [pairwise_cons] at hsorted
    rw [findPkt]
    rcases mem_cons.1 hi with rfl | hi'
    · rw [if_pos rfl]
    · have hgt := hsorted.1 i hi'
      have hne : (s.item a).pktNum ≠ (s.item i).pktNum := fun heq => by
        exact Nat.ne_of_gt hgt (congrArg (fun x => (s.pktNum - x).toNat) heq)
      have hbig : ¬ fillpNumIsbigger (s.item a).pktNum (s.item i).pktNum = true := by
        intro hb
        have hlt' := (toInt_sub_pos_iff_behind s.pktNum (hlt a mem_cons_self) (hlt i hi)).1
          (of_decide_eq_true hb)
        exact Nat.lt_asymm hgt hlt'
      rw [if_neg hne, if_neg hbig]
      exact ih hsorted.2 (fun b hb => hlt b (mem_cons_of_mem a hb)) hi'

/-- What is found is in the list, and has the number. -/
theorem findPkt_mem (h : s.findPkt pktNum l = some i) : i ∈ l ∧ (s.item i).pktNum = pktNum := by
  induction l with
  | nil => cases h
  | cons a l ih =>
    rw [findPkt] at h
    split at h
    · next heq =>
      cases h
      exact ⟨mem_cons_self, heq⟩
    · split at h
      · cases h
      · exact (ih h).imp_left (mem_cons_of_mem a)

/-- The search depends on the packet numbers only. -/
theorem findPkt_congr (h : ∀ a, (s'.item a).pktNum = (s.item a).pktNum) :
    s'.findPkt pktNum l = s.findPkt pktNum l := by
  induction l with
  | nil => rfl
  | cons a l ih => rw [findPkt, findPkt, h, ih]

namespace Wf

section
variable (h : Wf cfg (s.core.since b) hand v)
include h

/-- The item with a packet number is found, if it is in the table. -/
theorem fillpGetSeqFromPktSeqHash :
    s.fillpGetSeqFromPktSeqHash cfg pktNum = some i ↔ i ∈ s.unackItems ∧ (s.item i).pktNum = pktNum := by
  constructor
  · intro hfind
    obtain ⟨hmem, hnum⟩ := findPkt_mem hfind
    exact ⟨(h.mapped _ i hmem).2, hnum⟩
  · rintro ⟨hi, rfl⟩
    exact findPkt_eq (h.mapSorted _) (fun a ha => h.pkt a (h.mapped _ a ha).2) (h.mapAll i hi)

/-- To take an item out by its packet number is to take out its node. -/
theorem fillpDelPktSeqHashItem (hi : i ∈ s.unackItems)
    (hmap : s'.pktSeqMap = s.pktSeqMap) (hpkt : ∀ a, (s'.item a).pktNum = (s.item a).pktNum) :
    s'.fillpDelPktSeqHashItem cfg (s'.item i).pktNum =
      { s' with pktSeqMap := hlistDelNode s.pktSeqMap i } := by
  have hfind : s'.findPkt (s'.item i).pktNum (s'.pktSeqMap (cfg.pktIndex (s'.item i).pktNum)) = some i := by
    rw [findPkt_congr hpkt, hmap, hpkt]
    exact h.fillpGetSeqFromPktSeqHash.2 ⟨hi, rfl⟩
  rw [FillpSendPcb.fillpDelPktSeqHashItem, hfind]
  refine congrArg (fun m => ({ s' with pktSeqMap := m } : FillpSendPcb)) (funext fun j => ?_)
  rw [hmap, hpkt, hlistDelNode]
  by_cases hj : j = cfg.pktIndex (s.item i).pktNum
  · rw [hj, update_self]
  · have hnot : i ∉ s.pktSeqMap j := fun hmem => hj (h.mapped j i hmem).1.symm
    rw [update_of_ne hj, erase_of_not_mem hnot]

/-- To take out the first item of a list of the table is to take out its node. -/
theorem update_unackList (hj : s.unackList j = i :: rest) :
    update s.unackList j rest = hlistDelNode s.unackList i := by
  funext k
  rw [hlistDelNode]
  by_cases hk : k = j
  · rw [hk, update_self, hj, erase_cons_head]
  · have hhome := h.home j i (show i ∈ s.unackList j from hj ▸ mem_cons_self)
    have hnot : i ∉ s.unackList k := fun hmem => hk ((h.home k i hmem).symm.trans hhome)
    rw [update_of_ne hk, erase_of_not_mem hnot]

end
end Wf

/-- What is inserted depends on the sequence numbers only. -/
theorem FillpSendPcb.insert_congr (hlist : s'.list = s.list) (hseq : ∀ a, (s'.item a).seqNum = (s.item a).seqNum)
    {ret : SkipRet} {list : SkipList ℕ} (h : s'.insert L i = (ret, s'.setList L list)) :
    s.insert L i = (ret, s.setList L list) := by
  have hcmp : (fun a b => fillpSkiplistCmp (s'.item a).seqNum (s'.item b).seqNum) =
      fun a b => fillpSkiplistCmp (s.item a).seqNum (s.item b).seqNum := by
    funext a b
    rw [hseq, hseq]
  have hret := congrArg Prod.fst h
  have hset := congrArg (fun r => r.2.list L) h
  rw [insert, hcmp, hlist] at hret hset
  have hset' : ((s.list L).skipListInsert (fun a b => fillpSkiplistCmp (s.item a).seqNum (s.item b).seqNum) i true).2 =
      list := by
    simpa [setList] using hset
  exact Prod.ext hret (congrArg (s.setList L) hset')

namespace FillpSendPcb

/-- What is done after an item has been inserted into `unrecvList`. -/
def countLost (i : ℕ) : SkipRet × FillpSendPcb → FillpSendPcb
  | (.comm, s) => s
  | (.ok, s) =>
    { s with unrecvRedunListBytes := s.unrecvRedunListBytes + (s.item i).dataLen.toUInt64 }.setItem i
      fun item => { item with sendCount := item.sendCount + 1 }

section
variable (s)

theorem core_countLost (i : ℕ) : (countLost i (.ok, s)).core = s.core := by
  rw [countLost]
  exact core_setItem rfl rfl rfl

/-- An item leaves the table, and one transmission of it is off the way if the receiver has reported it. -/
def takeReported (isFromPack : Bool) (i : ℕ) : FillpSendPcb :=
  if isFromPack then
    { s.takeOut i with inSendBytes := s.inSendBytes - (s.item i).dataLen.toUInt64 }.setItem i
      fun item => { item with infCount := item.infCount - 1 }
  else s.takeOut i

/-- An item goes from the table to `unrecvList`. -/
def moveItem (isFromPack : Bool) (i : ℕ) : FillpSendPcb :=
  countLost i ((s.takeReported isFromPack i).insert .unrecvList i)

end

theorem unackList_moveItem : (s.moveItem isFromPack i).unackList = hlistDelNode s.unackList i := by
  have htake : (s.takeReported isFromPack i).unackList = hlistDelNode s.unackList i := by
    cases isFromPack <;> rfl
  rw [moveItem, insert]
  cases ((s.takeReported isFromPack i).list .unrecvList |>.skipListInsert _ i true).1 <;> exact htake

/-- A field of the items that is not one of the two counters stays. -/
theorem item_moveItem {β : Type} (g : SendItem → β) (hinf : ∀ item n, g { item with infCount := n } = g item)
    (hsend : ∀ item n, g { item with sendCount := n } = g item) (a : ℕ) :
    g ((s.moveItem isFromPack i).item a) = g (s.item a) := by
  have hset : ∀ (s : FillpSendPcb) (f : SendItem → SendItem), (∀ item, g (f item) = g item) →
      g ((s.setItem i f).item a) = g (s.item a) := by
    intro s f hf
    by_cases ha : a = i
    · simp [setItem, ha, hf]
    · simp [setItem, ha]
  have htake : g ((s.takeReported isFromPack i).item a) = g (s.item a) := by
    cases isFromPack with
    | true => exact hset _ _ fun item => hinf item _
    | false => rfl
  rw [moveItem, insert]
  cases ((s.takeReported isFromPack i).list .unrecvList |>.skipListInsert _ i true).1 with
  | ok => exact (hset _ _ fun item => hsend item _).trans htake
  | comm => exact htake

/-- What `ProtectLongLoopRun` does for one packet number. -/
def visit (cfg : SendConfig) (nack : NackInput) (s : FillpSendPcb) (pktIndex : UInt32) : FillpSendPcb :=
  match s.fillpGetSeqFromPktSeqHash cfg pktIndex with
  | none => s
  | some i => if (s.item i).seqNum ≤ nack.beginSeqNum then s else s.nackItem i

/-- The packet numbers that the loop goes through. -/
def scan (endPktNum : UInt32) : ℕ → UInt32 → List UInt32
  | 0, _ => []
  | n + 1, pktIndex => if fillpNumIsbigger endPktNum pktIndex then pktIndex :: scan endPktNum n (pktIndex + 1) else []

theorem protectLongLoopRun_eq {nack : NackInput} (n : ℕ) (pktIndex : UInt32) :
    s.protectLongLoopRun cfg nack n pktIndex = (scan nack.endPktNum n pktIndex).foldl (visit cfg nack) s := by
  induction n generalizing pktIndex s with
  | zero => rfl
  | succ n ih =>
    rw [protectLongLoopRun, scan]
    cases fillpNumIsbigger nack.endPktNum pktIndex with
    | false => rfl
    | true => exact ih ..

/-- The packet numbers of a NACK are noted. -/
def noteNack (s : FillpSendPcb) (nack : NackInput) : FillpSendPcb :=
  { s with nackPktStartNum := nack.beginPktNum, nackPktEndNum := nack.endPktNum }

end FillpSendPcb

/-- The packet numbers that are gone through for a NACK. -/
def NackInput.scanned (cfg : SendConfig) (nack : NackInput) : List UInt32 :=
  scan nack.endPktNum ((min (nack.endPktNum - (nack.beginPktNum + 1)) cfg.mpSendSize).toNat + 1) (nack.beginPktNum + 1)

namespace FillpSendPcb

theorem fillpNackInput_eq : s.fillpNackInput cfg nack =
      if s.fillpCheckNackSeq cfg nack then if fillpNumIsbigger nack.endPktNum (nack.beginPktNum + 1) then
          ((nack.scanned cfg).foldl (visit cfg nack) (s.noteNack nack)).raiseMaxAck nack.beginSeqNum
        else s.noteNack nack else s := by
  rw [fillpNackInput, NackInput.scanned, ← protectLongLoopRun_eq]
  dsimp only
  cases s.fillpCheckNackSeq cfg nack <;> cases fillpNumIsbigger nack.endPktNum (nack.beginPktNum + 1) <;> rfl

end FillpSendPcb

namespace Sound

/-- An item that may be counted as lost. -/
def Losable (s : FillpSendPcb) (i : ℕ) : Prop :=
  (s.item i).infCount.toNat ≤ (s.item i).sendCount.toNat + 1 ∧ (s.item i).sendCount.toNat < 255

/-- An item in hand that was reported as lost goes to `unrecvList`. -/
theorem insertLost (h : Sound cfg base p s (i :: hand) owed) (hi : p → Losable s i) :
    ∃ list, s.insert .unrecvList i = (.ok, s.setList .unrecvList list) ∧
      Sound cfg base p (countLost i (.ok, s.setList .unrecvList list)) hand owed := by
  -- The counters may as well change before the item is inserted.
  have hs' : Sound cfg base p (countLost i (.ok, s)) (i :: hand) (owed - (s.item i).dataLen.toNat) := by
    refine h.setHand (f := fun item => { item with sendCount := item.sendCount + 1 }) rfl rfl rfl (fun _ n hn => ?_)
      fun _ n hn => ?_
    · rwa [sub_self, add_zero]
    · have hread := hn.add (s.item i).dataLen.toUInt64
      rwa [UInt16.toNat_toUInt64, ← sub_sub_cancel owed ((s.item i).dataLen.toNat : ℤ)] at hread
  generalize ht : countLost i (.ok, s) = t at hs'
  have hitem : t.item i = { s.item i with sendCount := (s.item i).sendCount + 1 } := by
    rw [← ht]
    exact update_self ..
  have hnum : p → ((s.item i).sendCount + 1).toNat = (s.item i).sendCount.toNat + 1 := by
    intro hp
    rw [UInt8.toNat_add]
    exact Nat.mod_eq_of_lt (by show _ + 1 < 2 ^ 8; have := (hi hp).2; omega)
  obtain ⟨list, hins, hdone⟩ := hs'.insert .unrecvList fun hp => by
    rw [hitem]
    show (s.item i).infCount.toNat ≤ ((s.item i).sendCount + 1).toNat
    rw [hnum hp]
    exact (hi hp).1
  refine ⟨list, insert_congr ?_ (fun a => ?_) hins, ?_⟩
  · rw [← ht]
    rfl
  · rw [← ht]
    exact congrFun (congrArg seqOf (core_countLost s i)) a
  · have hstate : t.setList .unrecvList list = countLost i (.ok, s.setList .unrecvList list) := by
      rw [← ht]
      rfl
    rw [hstate] at hdone
    refine hdone.owed_eq fun hp => ?_
    have hcounts : t.counts .unrecvList i = (s.item i).dataLen.toNat := by
      show (if 0 < (t.item i).sendCount then (t.item i).dataLen.toNat else 0) = _
      rw [hitem, if_pos]
      show 0 < ((s.item i).sendCount + 1).toNat
      rw [hnum hp]
      exact Nat.succ_pos _
    rw [hcounts]
    exact sub_add_cancel ..

/-- An item leaves the table, and one transmission of it is not on the way any more. -/
theorem takeLost (h : Sound cfg base p s hand owed) (hi : i ∈ s.unackItems) :
    Sound cfg base p (s.takeReported true i) (i :: hand) owed ∧ (p → Losable (s.takeReported true i) i) := by
  obtain ⟨htake, hinf⟩ := h.take hi
  have hnum : p → ((s.item i).infCount - 1).toNat + 1 = (s.item i).infCount.toNat := by
    intro hp
    have hone : (1 : UInt32) ≤ (s.item i).infCount := le_iff_toNat_le.2 (hinf hp).1
    rw [UInt32.toNat_sub_of_le _ _ hone]
    exact Nat.sub_add_cancel (hinf hp).1
  have hitem : (s.takeReported true i).item i = { s.item i with infCount := (s.item i).infCount - 1 } :=
    update_self ..
  refine ⟨?_, fun hp => ?_⟩
  · refine htake.setHand (f := fun item => { item with infCount := item.infCount - 1 }) rfl rfl rfl (fun hp n hn => ?_)
      fun _ n hn => by rwa [sub_self, add_zero]
    have hread := Reads.sub (u := s.inSendBytes) hn (s.item i).dataLen.toUInt64
    rw [UInt16.toNat_toUInt64] at hread
    show Reads _ (n + ((s.item i).dataLen.toNat * ((s.item i).infCount - 1).toNat -
      (s.item i).dataLen.toNat * (s.item i).infCount.toNat))
    rw [← hnum hp]
    convert hread using 1
    push_cast
    ring
  · rw [Losable, hitem]
    refine ⟨?_, (hinf hp).2.2⟩
    exact (Nat.le_of_lt (Nat.lt_of_succ_le (hnum hp).le)).trans (hinf hp).2.1

/-- Nothing of an item in hand is on the way any more, and it is released. -/
theorem landItem (h : Sound cfg base p s (i :: hand) owed) : Sound cfg base p (s.landItem i) hand owed := by
  have hland : Sound cfg base p (s.landItem i) (i :: hand) owed := by
    refine h.setHand (f := fun item => { item with infCount := 0 }) rfl rfl rfl (fun hp n hn => ?_)
      fun _ n hn => by rwa [sub_self, add_zero]
    have hread := hn.sub ((s.item i).dataLen.toUInt64 * (s.item i).infCount.toUInt64)
    have hmul : ((s.item i).dataLen.toUInt64 * (s.item i).infCount.toUInt64).toNat =
        (s.item i).dataLen.toNat * (s.item i).infCount.toNat := by
      have hlen := (s.item i).dataLen.toNat_lt
      have hinf := (s.item i).infCount.toNat_lt
      refine Nat.mod_eq_of_lt ?_
      calc (s.item i).dataLen.toNat * (s.item i).infCount.toNat
          ≤ 2 ^ 16 * 2 ^ 32 := Nat.mul_le_mul hlen.le hinf.le
        _ < 2 ^ 64 := by decide
    rw [hmul] at hread
    convert hread using 1
    simp
    ring
  refine hland.release fun _ => ?_
  show (update s.item i { s.item i with infCount := 0 } i).dataLen.toNat *
    (update s.item i { s.item i with infCount := 0 } i).infCount.toNat = 0
  rw [update_self]
  exact Nat.mul_zero _

section
variable (h : Sound cfg base p s hand owed)
include h

theorem mem_unackItems (hl : s.unackList j = i :: rest) : i ∈ s.unackItems := by
  obtain ⟨v, hwf, -⟩ := h
  exact hwf.mem_unackItems_of_mem (show i ∈ s.unackList j from hl ▸ mem_cons_self)

/-- An item of the table is moved to `unrecvList`, where there is none with its number. -/
theorem moveItem (hi : i ∈ s.unackItems) (isFromPack : Bool) :
    ((s.takeReported isFromPack i).insert .unrecvList i).1 = .ok ∧
      Sound cfg base p (s.moveItem isFromPack i) hand owed := by
  have htaken : Sound cfg base p (s.takeReported isFromPack i) (i :: hand) owed ∧
      (p → Losable (s.takeReported isFromPack i) i) := by
    cases isFromPack with
    | true => exact takeLost h hi
    | false =>
      obtain ⟨htake, hinf⟩ := h.take hi
      exact ⟨htake, fun hp => (hinf hp).2⟩
  obtain ⟨list, hins, hdone⟩ := htaken.1.insertLost htaken.2
  rw [FillpSendPcb.moveItem, hins]
  exact ⟨rfl, hdone⟩

/-- The first item of a list of the table is moved, unless it is after `lostSeq` or was sent too recently. -/
theorem fillpMoveOneNode_cons (hl : s.unackList j = i :: rest) (onePktOnly : Bool) :
    s.fillpMoveOneNode cfg clock lostSeq isFromPack onePktOnly j (i :: rest) =
      if fillpNumIsbigger (s.item i).seqNum lostSeq then (false, s)
      else if clock.curTime - (s.item i).lastSendTimestamp < if cfg.retransmitCmpTime then clock.retramistRto else 0 then
        (false, s) else if onePktOnly then (true, s.moveItem isFromPack i)
      else (s.moveItem isFromPack i).fillpMoveOneNode cfg clock lostSeq isFromPack onePktOnly j rest := by
  have hi := h.mem_unackItems hl
  have hok := (h.moveItem hi isFromPack).1
  obtain ⟨v, hwf, -⟩ := h
  rw [fillpMoveOneNode]
  dsimp only
  generalize hs₁ : decUnackCount { s with unackList := update s.unackList j rest } = s₁
  generalize hs₂ : (if isFromPack then
      setItem { s₁ with inSendBytes := s₁.inSendBytes - (s₁.item i).dataLen.toUInt64 } i
        (fun item => { item with infCount := item.infCount - 1 })
    else s₁) = s₂
  have hcore₂ : s₂.core = { s.core with unackList := update s.unackList j rest } := by
    rw [← hs₂, ← hs₁]
    split
    · exact core_setItem rfl rfl rfl
    · rfl
  have htaken : ({ s₂ with pktSeqMap := hlistDelNode s.pktSeqMap i } : FillpSendPcb) = s.takeReported isFromPack i := by
    rw [← hs₂, ← hs₁, takeReported, takeOut, ← hwf.update_unackList hl]
    cases isFromPack <;> rfl
  rw [hwf.fillpDelPktSeqHashItem hi (congrArg SendCore.pktSeqMap hcore₂) (congrFun (congrArg SendCore.pktOf hcore₂)),
    htaken, FillpSendPcb.moveItem]
  generalize (s.takeReported isFromPack i).insert .unrecvList i = r at hok ⊢
  obtain ⟨ret, s'⟩ := r
  cases hok
  rfl

/-- Items at the beginning of a list of the table are moved to `unrecvList`. -/
theorem fillpMoveOneNode (clock : FillpSendPcb.Clock) (lostSeq : UInt32) (isFromPack onePktOnly : Bool) (j : UInt32)
    (hl : s.unackList j = l) :
    Sound cfg base p (s.fillpMoveOneNode cfg clock lostSeq isFromPack onePktOnly j l).2 hand owed := by
  induction l generalizing s with
  | nil => exact h
  | cons i rest ih =>
    rw [h.fillpMoveOneNode_cons hl]
    generalize (if cfg.retransmitCmpTime = true then clock.retramistRto else 0) = gap
    have hmove := (h.moveItem (h.mem_unackItems hl) isFromPack).2
    split
    · exact h
    split
    · exact h
    split
    · exact hmove
    · refine ih hmove ?_
      obtain ⟨v, hwf, -⟩ := h
      rw [unackList_moveItem, ← hwf.update_unackList hl, update_self]

theorem moveLoop (clock : FillpSendPcb.Clock) (lostSeq : UInt32) (isFromPack onePktOnly : Bool) (js : List UInt32) :
    Sound cfg base p (s.moveLoop cfg clock lostSeq isFromPack onePktOnly js) hand owed := by
  induction js generalizing s with
  | nil => exact h
  | cons j js ih =>
    have hnode := h.fillpMoveOneNode clock lostSeq isFromPack onePktOnly j rfl
    rw [moveLoop]
    generalize s.fillpMoveOneNode cfg clock lostSeq isFromPack onePktOnly j (s.unackList j) = r at hnode ⊢
    obtain ⟨found, s'⟩ := r
    cases found with
    | true => exact hnode
    | false => exact ih hnode

theorem fillpMoveUnackToUnrecv : Sound cfg base p (s.fillpMoveUnackToUnrecv cfg clock ackSeq lostSeq isFromPack) hand owed := by
  rw [FillpSendPcb.fillpMoveUnackToUnrecv, FillpSendPcb.fillpMoveUnackToUnrecvAll]
  split
  · exact h
  · exact h.moveLoop clock lostSeq isFromPack false _

theorem nackItem (hi : i ∈ s.unackItems) : Sound cfg base p (s.nackItem i) hand owed := by
  exact (h.moveItem hi true).2

theorem visit (pktIndex : UInt32) : Sound cfg base p (s.visit cfg nack pktIndex) hand owed := by
  rw [FillpSendPcb.visit]
  cases hfind : s.fillpGetSeqFromPktSeqHash cfg pktIndex with
  | none => exact h
  | some i =>
    have hi : i ∈ s.unackItems := by
      obtain ⟨v, hwf, -⟩ := h
      exact (hwf.fillpGetSeqFromPktSeqHash.1 hfind).1
    simp only
    split
    · exact h
    · exact h.nackItem hi

/-- A number that is not after the last item is the greatest that the receiver has told. -/
theorem raiseMaxAck (hx : fillpNumIsbigger x s.seqNum = false) :
    Sound cfg base p (s.raiseMaxAck x) hand owed := by
  rw [FillpSendPcb.raiseMaxAck]
  split
  · next hbig =>
    obtain ⟨v, hwf, hcount⟩ := h
    refine ⟨v, { hwf with maxAck := ?_, unsent := ?_ }, fun hp => { hcount hp with }⟩
    · exact toNat_sub_le_of_between (base s.ackSeqNum) hwf.maxAck hwf.span_lt (of_decide_eq_true hbig)
        (of_decide_eq_false hx)
    · exact { hwf.unsent with }
  · exact h

end

theorem seqNum_nackItem : (s.nackItem i).seqNum = s.seqNum := by
  rw [FillpSendPcb.nackItem]
  generalize hs' : setItem _ i (fun item : SendItem => { item with infCount := item.infCount - 1 }) = s'
  have hseq : s'.seqNum = s.seqNum := by rw [← hs']; rfl
  have hins : (s'.insert .unrecvList i).2.seqNum = s.seqNum := hseq
  generalize s'.insert .unrecvList i = r at hins ⊢
  obtain ⟨ret, s''⟩ := r
  cases ret with
  | ok => exact hins
  | comm => exact hins

theorem seqNum_visit (nack : NackInput) (s : FillpSendPcb) (pktIndex : UInt32) :
    (s.visit cfg nack pktIndex).seqNum = s.seqNum := by
  rw [FillpSendPcb.visit]
  split
  · rfl
  · split
    · rfl
    · exact seqNum_nackItem

section
variable (h : Sound cfg base p s hand owed)
include h

theorem fillpNackInput : Sound cfg base p (s.fillpNackInput cfg nack) hand owed := by
  have hnote : Sound cfg base p (s.noteNack nack) hand owed := by
    obtain ⟨v, hwf, hcount⟩ := h
    exact ⟨v, hwf, fun hp => { hcount hp with }⟩
  rw [fillpNackInput_eq]
  split
  · next hcheck =>
    have hx : fillpNumIsbigger nack.beginSeqNum s.seqNum = false := by
      cases hb : fillpNumIsbigger nack.beginSeqNum s.seqNum with
      | false => rfl
      | true =>
        rw [fillpCheckNackSeq, hb] at hcheck
        cases hcheck
    split
    · -- The sequence number that the check has seen stays.
      obtain ⟨hs', hseq⟩ := (nack.scanned cfg).foldlRecOn
        (motive := fun s' => Sound cfg base p s' hand owed ∧ s'.seqNum = s.seqNum) (FillpSendPcb.visit cfg nack) ⟨hnote, rfl⟩
        fun s' hs' q _ => ⟨hs'.1.visit q, (seqNum_visit nack s' q).trans hs'.2⟩
      exact hs'.raiseMaxAck (by rwa [hseq])
    · exact hnote
  · exact h

theorem moveUnackToUnrecvByPackInfo (clock : FillpSendPcb.Clock) :
    Sound cfg base p (s.moveUnackToUnrecvByPackInfo cfg clock ackSeq lostSeq) hand owed := by
  have hnum : ∀ {s : FillpSendPcb} (x : UInt32) (n : UInt8), Sound cfg base p s hand owed →
      Sound cfg base p { s with lastPackAckSeq := x, packSameAckNum := n } hand owed := by
    rintro s x n ⟨v, hwf, hcount⟩
    exact ⟨v, hwf, fun hp => { hcount hp with }⟩
  rw [FillpSendPcb.moveUnackToUnrecvByPackInfo]
  split
  · exact h.fillpMoveUnackToUnrecv ..
  · split
    · dsimp only
      split
      · have hcount := hnum s.lastPackAckSeq (s.packSameAckNum + 1) h
        exact hnum _ 0 hcount.fillpMoveUnackToUnrecv
      · exact hnum s.lastPackAckSeq _ h
    · exact hnum _ 0 h

theorem fillpFcTailProtected : Sound cfg base p (s.fillpFcTailProtected cfg clock pack) hand owed := by
  rw [FillpSendPcb.fillpFcTailProtected]
  split
  · exact h.fillpMoveUnackToUnrecv ..
  · exact h

end
end Sound

/-! ## Items acknowledged -/

/-- The items of a list up to the number `x` have been sent before. -/
def FillpSendPcb.SentUpTo (s : FillpSendPcb) (L : SendList) (x : UInt32) : Prop :=
  ∀ i ∈ (s.list L).items, fillpNumIsbigger (s.item i).seqNum x = false → 0 < (s.item i).sendCount

/-- Of the lists only `L` changes, and of the items neither the numbers nor how often they were reported as lost. -/
structure AckFrame (L : SendList) (s s' : FillpSendPcb) : Prop where
  item : ∀ a, (s'.item a).seqNum = (s.item a).seqNum ∧ (s'.item a).sendCount = (s.item a).sendCount
  list : ∀ L', L' ≠ L → s'.list L' = s.list L'
  ackSeqNum : s'.ackSeqNum = s.ackSeqNum

namespace AckFrame
variable {s'' : FillpSendPcb}

theorem refl (L : SendList) (s : FillpSendPcb) : AckFrame L s s := ⟨fun _ => ⟨rfl, rfl⟩, fun _ _ => rfl, rfl⟩

theorem trans (h : AckFrame L s s') (h' : AckFrame L s' s'') : AckFrame L s s'' where
  item a := ⟨(h'.item a).1.trans (h.item a).1, (h'.item a).2.trans (h.item a).2⟩
  list L' hL := (h'.list L' hL).trans (h.list L' hL)
  ackSeqNum := h'.ackSeqNum.trans h.ackSeqNum

theorem sentUpTo (h : AckFrame L s s') {L' : SendList} (hL : L' ≠ L) (hsent : s.SentUpTo L' x) :
    s'.SentUpTo L' x := by
  intro i hi hle
  rw [(h.item i).2]
  rw [h.list L' hL] at hi
  rw [(h.item i).1] at hle
  exact hsent i hi hle

theorem landItem (L : SendList) (s : FillpSendPcb) (i : ℕ) : AckFrame L s (s.landItem i) where
  item a := by
    show (update s.item i { s.item i with infCount := 0 } a).seqNum = _ ∧
      (update s.item i { s.item i with infCount := 0 } a).sendCount = _
    by_cases ha : a = i
    · subst ha
      rw [update_self]
      exact ⟨rfl, rfl⟩
    · rw [update_of_ne ha]
      exact ⟨rfl, rfl⟩
  list _ _ := rfl
  ackSeqNum := rfl

end AckFrame

namespace Sound

section
variable (h : Sound cfg base p s hand owed)
include h

/-- One of the skip lists is emptied up to the first item after the number `x`. -/
theorem ackListLoop (n : ℕ) (hsent : p → L ≠ .itemWaitTokenLists → s.SentUpTo L x) :
    Sound cfg base p (ackListLoop L x n s).2 hand owed ∧ AckFrame L s (ackListLoop L x n s).2 := by
  induction n generalizing s with
  | zero => exact ⟨h, .refl L s⟩
  | succ n ih =>
    rw [ackListLoop]
    cases hget : (s.list L).skipListGetPop with
    | none => exact ⟨h, .refl L s⟩
    | some i =>
      simp only
      cases hbig : fillpNumIsbigger (s.item i).seqNum x with
      | true => exact ⟨h, .refl L s⟩
      | false =>
        have hfst : (s.pop L).1 = some i := by
          show (s.list L).skipListPopValue.1 = some i
          rw [SkipList.skipListPopValue, show (s.list L).head = some i from hget]
        obtain hpop | ⟨a, list, hpop, hs', -, hitems⟩ := h.pop L
        · rw [hpop] at hfst
          cases hfst
        · obtain rfl : a = i := by
            rw [hpop] at hfst
            exact Option.some.inj hfst
          rw [hpop]
          have hframe : AckFrame L s (s.setList L list) :=
            ⟨fun _ => ⟨rfl, rfl⟩, fun L' hL => update_of_ne hL .., rfl⟩
          -- What the item counted for is taken away, and nothing of it is on the way any more.
          generalize hs₁ : (if L = SendList.itemWaitTokenLists then s.setList L list
            else { s.setList L list with
              unrecvRedunListBytes := (s.setList L list).unrecvRedunListBytes -
                ((s.setList L list).item a).dataLen.toUInt64 }) = s₁
          have hs₁' : Sound cfg base p s₁ (a :: hand) owed ∧ AckFrame L (s.setList L list) s₁ ∧ s₁.list L = list := by
            rw [← hs₁]
            split
            · next hL =>
              refine ⟨hs'.owed_eq fun _ => ?_, .refl .., update_self ..⟩
              rw [counts, if_pos hL, Nat.cast_zero, sub_zero]
            · next hL =>
              refine ⟨hs'.setBytes fun hp n hn => ?_, ⟨fun _ => ⟨rfl, rfl⟩, fun _ _ => rfl, rfl⟩, update_self ..⟩
              have hpos := hsent hp hL a (hitems ▸ mem_cons_self) hbig
              have hread := hn.sub ((s.setList L list).item a).dataLen.toUInt64
              rw [counts, if_neg hL, sentLen, if_pos hpos]
              convert hread using 1
              show n + (owed - ((s.item a).dataLen.toNat : ℤ) - owed) = n - ((s.item a).dataLen.toNat : ℤ)
              ring
          have hland := hs₁'.1.landItem
          have hframe' := (hframe.trans hs₁'.2.1).trans (.landItem L s₁ a)
          obtain ⟨hdone, hframe''⟩ := ih hland fun hp hL b hb hle => by
            have hb' : b ∈ (s.list L).items := by
              rw [show (s₁.landItem a).list L = list from hs₁'.2.2] at hb
              exact hitems ▸ mem_cons_of_mem a hb
            rw [(hframe'.item b).2]
            exact hsent hp hL b hb' ((hframe'.item b).1 ▸ hle)
          exact ⟨hdone, hframe'.trans hframe''⟩

theorem ackList
    (hsent : p → fillpNumIsbigger x s.ackSeqNum = true → L ≠ .itemWaitTokenLists → s.SentUpTo L x) :
    Sound cfg base p (s.ackList L x).2 hand owed ∧ AckFrame L s (s.ackList L x).2 := by
  rw [FillpSendPcb.ackList]
  split
  · exact ⟨h, .refl L s⟩
  · next hbig => exact h.ackListLoop _ fun hp => hsent hp (by simpa using hbig)

/-- The first item of a list of the table is released. -/
theorem freeUnackList (hj : s.unackList j = i :: rest) :
    Sound cfg base p (s.freeUnackList j i rest) hand owed ∧ (s.freeUnackList j i rest).unackList j = rest := by
  refine ⟨?_, update_self ..⟩
  have hstate : s.freeUnackList j i rest = (s.takeOut i).landItem i := by
    obtain ⟨v, hwf, -⟩ := h
    rw [FillpSendPcb.freeUnackList, hwf.update_unackList hj]
    rfl
  rw [hstate]
  exact (h.take (h.mem_unackItems hj)).1.landItem

theorem ackBucket (curSeq : UInt32) (cntLimit : Int) (j : UInt32) (hl : s.unackList j = l) (count : ℕ) :
    Sound cfg base p (ackBucket curSeq cntLimit j l count s).2.2 hand owed := by
  induction l generalizing s count with
  | nil => exact h
  | cons i rest ih =>
    obtain ⟨hfree, hrest⟩ := h.freeUnackList hl
    rw [ackBucket]
    split
    · exact h
    · split
      · exact hfree
      · exact ih hfree hrest (count + 1)

theorem ackBuckets (curSeq : UInt32) (cntLimit : Int) (js : List UInt32) (count : ℕ) :
    Sound cfg base p (ackBuckets curSeq cntLimit js count s).2 hand owed := by
  induction js generalizing s count with
  | nil => exact h
  | cons j js ih =>
    have hbucket := h.ackBucket curSeq cntLimit j rfl count
    rw [ackBuckets]
    generalize FillpSendPcb.ackBucket curSeq cntLimit j (s.unackList j) count s = r at hbucket ⊢
    obtain ⟨stop, count', s'⟩ := r
    cases stop with
    | true => exact hbucket
    | false => exact ih hbucket count'

end

/-- Acknowledged items are released; whatever the ack point becomes, the distances may be counted from a number that
    does not move. -/
theorem fillpAckUnackList (h : Sound cfg (fun _ => b) p s hand owed)
    (hsent : p → fillpNumIsbigger x s.ackSeqNum = true → s.SentUpTo .unrecvList x ∧ s.SentUpTo .redunList x)
    (cntLimit : Int) : Sound cfg (fun _ => b) p (s.fillpAckUnackList cfg x cntLimit) hand owed := by
  rw [FillpSendPcb.fillpAckUnackList]
  split
  · exact h
  · next hbig =>
    have hbig' : fillpNumIsbigger x s.ackSeqNum = true := by simpa using hbig
    obtain ⟨h₁, hframe₁⟩ := h.ackList (L := .redunList) fun hp hb _ => (hsent hp hb).2
    obtain ⟨h₂, hframe₂⟩ := h₁.ackList (L := .itemWaitTokenLists) (x := x) fun _ _ hL => absurd rfl hL
    obtain ⟨h₃, -⟩ := h₂.ackList (L := .unrecvList) (x := x) fun hp _ _ =>
      hframe₂.sentUpTo (by decide) (hframe₁.sentUpTo (by decide) (hsent hp hbig').1)
    have hdone : ∀ {s : FillpSendPcb}, Sound cfg (fun _ => b) p s hand owed →
        Sound cfg (fun _ => b) p { s with ackSeqNum := x } hand owed := by
      rintro s ⟨v, hwf, hcount⟩
      exact ⟨v, hwf, fun hp => { hcount hp with }⟩
    replace h₃ : Sound cfg (fun _ => b) p
        (((s.fillpAckRedunlist x).fillpAckItemWaitTklist x).fillpAckUnrecvList x).2 hand owed := h₃
    dsimp only
    generalize fillpAckUnrecvList _ x = r at h₃ ⊢
    have hr : Sound cfg (fun _ => b) p (if limitReached cntLimit r.1 = true then r
        else FillpSendPcb.ackBuckets x cntLimit (FillpSendPcb.ackIndices r.2.ackSeqNum x) r.1 r.2).2 hand owed := by
      split
      · exact h₃
      · exact h₃.ackBuckets ..
    generalize (if limitReached cntLimit r.1 = true then r
      else FillpSendPcb.ackBuckets x cntLimit (FillpSendPcb.ackIndices r.2.ackSeqNum x) r.1 r.2) = r' at hr ⊢
    split
    · exact hdone hr
    · exact hr

/-- When no item is left, nothing is on the way. -/
theorem fillpAckSendPcb (h : Sound cfg (fun _ => b) p s [] owed)
    (hsent : p → fillpNumIsbigger s.maxAckNumFromReceiver s.ackSeqNum = true → s.SentUpTo .unrecvList s.maxAckNumFromReceiver ∧ s.SentUpTo .redunList s.maxAckNumFromReceiver)
    (cntLimit : Int) : Sound cfg (fun _ => b) p (s.fillpAckSendPcb cfg cntLimit) [] owed := by
  have hs' := h.fillpAckUnackList hsent cntLimit
  rw [FillpSendPcb.fillpAckSendPcb]
  generalize s.fillpAckUnackList cfg s.maxAckNumFromReceiver cntLimit = s' at hs' ⊢
  split
  · next hzero =>
    obtain ⟨v, hwf, hcount⟩ := hs'
    refine ⟨v, hwf, fun hp => ?_⟩
    have hc := hcount hp
    have hnum : ∀ L, (s'.list L).nodeNum = ofNat (v L).length := fun L => (hwf.repr L).nodeNum
    have hlen := hwf.length_live_lt
    have hempty : s'.core.live [] v = [] := by
      refine length_eq_zero_iff.1 ?_
      have hsum := congrArg toNat hzero.1
      rw [hnum, hnum, hnum, ← UInt32.ofNat_toNat (x := s'.unackCount), hc.count, ← UInt32.ofNat_add,
        ← ofNat_add, ← ofNat_add, toNat_ofNat'] at hsum
      have hlive : (s'.core.live [] v).length = s'.unackItems.length + (v .unrecvList).length +
          (v .itemWaitTokenLists).length + (v .redunList).length := by
        simp only [live, listed, length_append, length_nil]
        show 0 + s'.unackItems.length + _ = _
        omega
      replace hlen : (s'.core.live [] v).length < 2 ^ 31 := hlen
      rw [← hlive, Nat.mod_eq_of_lt (hlen.trans (by decide))] at hsum
      exact hsum
    refine { hc with inSend := ?_ }
    show Reads 0 (((s'.core.live [] v).map _).sum : ℕ)
    rw [hempty]
    exact .zero
  · exact hs'

end Sound

/-! ## Events -/

namespace FillpSendPcb

/-- The state in which an event calls `FillpAckUnackList`, for the number `maxAckNumFromReceiver`, and the limit of the
    call. -/
def ackCall (cfg : SendConfig) (s : FillpSendPcb) : SendEvent → Option (FillpSendPcb × Int)
  | .sendBegin sendPktNum =>
    if cfg.mpSendSize > 0 then some (s.fillpMoveRedundantItemToUnrecvList, (sendPktNum <<< 1).toInt32.toInt) else none
  | .pack _ pack =>
    if s.fillpCheckPackNumber cfg pack ∧ fillpNumIsbigger pack.ackSeqNum s.ackSeqNum then
      some (s.raiseMaxAck pack.ackSeqNum, 0)
    else none
  | .ack cntLimit => some (s, cntLimit)
  | _ => none

/-- The item that an event sends has been reported as lost less than 255 times. -/
def Countable (s : FillpSendPcb) : SendEvent → Prop
  | .sendRound .. => ∀ i ∈ s.fillpGetSendItem.1, (s.item i).sendCount.toNat < 255
  | .checkWait .. => ∀ i ∈ (s.pop .itemWaitTokenLists).1, (s.item i).sendCount.toNat < 255
  | _ => True

theorem isbigger_of_checkPack {pack : PackInput} (h : s.fillpCheckPackNumber cfg pack = true) :
    fillpNumIsbigger pack.ackSeqNum s.seqNum = false := by
  cases hb : fillpNumIsbigger pack.ackSeqNum s.seqNum with
  | false => rfl
  | true =>
    rw [fillpCheckPackNumber, hb] at h
    cases h

end FillpSendPcb

namespace Sound

section
variable (h : Sound cfg base p s [] owed)
include h

theorem ackCall {c : FillpSendPcb × Int} (hc : c ∈ s.ackCall cfg e) :
    Sound cfg base p c.1 [] owed := by
  cases e with
  | sendBegin sendPktNum =>
    rw [ackCall] at hc
    split at hc
    · cases hc
      exact h.moveRedundantLoop _
    · cases hc
  | pack clock pack =>
    rw [ackCall] at hc
    split at hc
    · next hcheck =>
      cases hc
      exact h.raiseMaxAck (isbigger_of_checkPack hcheck.1)
    · cases hc
  | ack cntLimit =>
    cases hc
    exact h
  | _ => cases hc

theorem fillpPackInput (hack : ∀ s' n, s.ackCall cfg (.pack clock pack) = some (s', n) →
      Sound cfg base p (s'.fillpAckSendPcb cfg n) [] owed) :
    Sound cfg base p (s.fillpPackInput cfg clock pack) [] owed := by
  rw [FillpSendPcb.fillpPackInput]
  cases hcheck : s.fillpCheckPackNumber cfg pack with
  | false => exact h
  | true =>
    have hs' : Sound cfg base p (s.fillpTryAckSendPcbByPackInfo cfg pack.ackSeqNum) [] owed := by
      rw [fillpTryAckSendPcbByPackInfo]
      split
      · next hbig => exact hack _ _ (if_pos ⟨hcheck, hbig⟩)
      · exact h
    rw [if_neg (by decide)]
    split
    · exact hs'
    · exact (hs'.moveUnackToUnrecvByPackInfo clock).fillpFcTailProtected

/-- An event keeps the lists in order and the counters right, if its call of `FillpAckUnackList` does. -/
theorem step (hroom : Room base s) (hsend : p → s.Countable e)
    (hack : ∀ s' n, s.ackCall cfg e = some (s', n) → Sound cfg base p (s'.fillpAckSendPcb cfg n) [] owed) :
    Sound cfg base p (s.step cfg e) [] owed := by
  cases e with
  | write dataLen =>
    rw [step]
    split
    · exact h
    · next hlen => exact h.write hlen
  | sendBegin sendPktNum =>
    rw [step, sendOneBegin]
    split
    · next hsize => exact hack _ _ (if_pos hsize)
    · exact h.moveRedundantLoop _
  | sendRound clock token sent => exact h.sendOneRound hroom hsend
  | checkWait clock sent => exact h.checkWaitRound hroom hsend
  | clearWait => exact h.clearWaitLoop _
  | pack clock pack => exact h.fillpPackInput hack
  | nack nack => exact h.fillpNackInput
  | ack cntLimit => exact hack _ _ rfl

end

theorem init (cfg : SendConfig) (p : Prop) (randomLev : SendList → ℕ → Bool)
    (seqNum pktNum : UInt32) (hbase : (seqNum - base seqNum).toNat < 2 ^ 31) :
    Sound cfg base p (.init randomLev seqNum pktNum) [] 0 := by
  let c := (FillpSendPcb.init randomLev seqNum pktNum).core
  have hitems : c.unackItems = [] := flatMap_eq_nil_iff.2 fun _ _ => rfl
  have hlive : c.live [] (fun _ => []) = [] := by
    rw [live, hitems]
    rfl
  have hnone : ∀ {q : ℕ → Prop}, ∀ i ∈ c.live [] (fun _ => []), q i := by
    rw [hlive]
    exact fun i hi => absurd hi not_mem_nil
  have hnoUnack : ∀ {q : ℕ → Prop}, ∀ i ∈ c.unackItems, q i := by
    rw [hitems]
    exact fun i hi => absurd hi not_mem_nil
  have hnil : ∀ {q : ℕ → Prop}, ∀ i ∈ ([] : List ℕ), q i := fun i hi => absurd hi not_mem_nil
  refine ⟨fun _ => [], ?_, fun _ => ?_⟩
  · exact {
      repr := fun L => SkipList.Repr.init
      sorted := fun L => .nil
      distinct := by
        show (c.live [] fun _ => []).Pairwise _
        rw [hlive]
        exact .nil
      window := hnone
      span_lt := hbase
      maxAck := le_rfl
      home := fun j => hnil
      bucket := fun j => .nil
      mapped := fun j => hnil
      mapAll := hnoUnack
      mapSorted := fun j => .nil
      pkt := hnoUnack
      unsent := ⟨hnone, .nil, hnil, hnil, hnil⟩ }
  · refine ⟨?_, ?_, .zero, hnoUnack, fun L => hnil⟩
    · rw [hlive]
      exact .zero
    · show 0 = c.unackItems.length
      rw [hitems]
      rfl

end Sound
end SoftBus.Native
