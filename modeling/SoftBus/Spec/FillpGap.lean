import SoftBus.Spec.FillpNack

/-!
# Loss recovery from a PACK

A PACK tells the sender up to which number data has arrived, `ackSeq`, and a later number, `lostSeq`, up to which
data is missing.  `FillpMoveUnackToUnrecvAll` goes through the lists of the table from the one of `ackSeq` to the one of
`lostSeq`, each as far as `lostSeq`.  There are 512 lists for 1024 numbers each.  That all lists have to be gone through is
seen from the difference of the numbers, but their place within a list matters as well: 512 lists on from the one of
`ackSeq` is that list again, and then it is the only one.

## Main results

- `fillpMoveUnackToUnrecvAll_exact`: otherwise exactly the items up to `lostSeq` are sent again
- `lost_items_not_moved`: eight of nine lost items stay in the table
-/

namespace SoftBus.Native
open Function List FillpSendPcb SendCore UInt32
variable {cfg : SendConfig} {clock : FillpSendPcb.Clock} {s : FillpSendPcb} {b ackSeq lostSeq j : UInt32}
  {v : SendList → List ℕ} {l : List ℕ}

/-! ## The lists that are gone through -/

/-- How many lists on from the one of `ackSeq` the one of `lostSeq` is. -/
def listsBetween (ackSeq lostSeq : UInt32) : ℕ := (ackSeq.toNat % 1024 + (lostSeq - ackSeq).toNat) / 1024

/-- The indices of the lists. -/
def moveIndices (ackSeq lostSeq : UInt32) : List UInt32 :=
  indicesFrom (fillpUnacklistHashindex ackSeq)
    (if (lostSeq - ackSeq) / fillpUnackHashMod ≥ fillpUnackHashSize then fillpUnackHashSize
      else (fillpUnacklistHashindex lostSeq + fillpUnackHashSize - fillpUnacklistHashindex ackSeq) &&&
        (fillpUnackHashSize - 1))

/-- The list of a number, counted from the one of `a` on. -/
theorem toNat_hashindex_of_sub (a y : UInt32) : (fillpUnacklistHashindex y).toNat =
    ((fillpUnacklistHashindex a).toNat + (a.toNat % 1024 + (y - a).toNat) / 1024) % 512 := by
  have hy : y.toNat = (a.toNat + (y - a).toNat) % 2 ^ 32 := by rw [← UInt32.toNat_add, UInt32.add_comm, UInt32.sub_add_cancel]
  rw [toNat_hashindex, toNat_hashindex, hy]
  omega

theorem mem_moveIndices {y : UInt32} (hy : (y - ackSeq).toNat ≤ (lostSeq - ackSeq).toNat)
    (hgap : listsBetween ackSeq lostSeq = 512 → 512 * 1024 ≤ (lostSeq - ackSeq).toNat) :
    fillpUnacklistHashindex y ∈ moveIndices ackSeq lostSeq := by
  rw [moveIndices]
  split
  · exact hashindex_mem_all ackSeq y
  · next hlt =>
    have hlt' : (lostSeq - ackSeq).toNat / 1024 < 512 := Nat.lt_of_not_le hlt
    have hle := toNat_hashindex_of_sub ackSeq lostSeq
    have hn : listsBetween ackSeq y ≤ listsBetween ackSeq lostSeq := Nat.div_le_div_right (Nat.add_le_add_left hy _)
    have hN : listsBetween ackSeq lostSeq < 512 := by
      unfold listsBetween at hgap ⊢
      omega
    -- So many lists on from the one of `ackSeq` is the one of `y`.
    refine mem_indicesFrom (i := listsBetween ackSeq y) ?_ ?_
    · rw [toNat_loopCount, ← toNat_hashindex, ← toNat_hashindex, hle]
      have hidx : (fillpUnacklistHashindex ackSeq).toNat < 512 := hashindex_lt
      change _ ≤ (((fillpUnacklistHashindex ackSeq).toNat + listsBetween ackSeq lostSeq) % 512 + 512 - _) % 512
      omega
    · rw [toNat_hashindex_of_sub ackSeq y, Nat.add_comm]
      rfl

/-! ## The loops -/

/-- The sender, counted from `ackSeq`: all items of the table are after it. -/
structure AheadOf (ackSeq : UInt32) (clock : FillpSendPcb.Clock) (s : FillpSendPcb) : Prop where
  after : ∀ i ∈ s.unackItems, fillpNumIsbigger (s.item i).seqNum ackSeq = true
  time : ∀ i ∈ s.unackItems, (s.item i).lastSendTimestamp ≤ clock.curTime

theorem Moves.aheadOf {P : ℕ → Prop} {s' : FillpSendPcb} (h : Moves cfg b P s s') (hs : AheadOf ackSeq clock s) :
    AheadOf ackSeq clock s' where
  after i hi := by
    rw [(h.item i).1]
    exact hs.after i ((h.unack i).1 hi).1
  time i hi := by
    rw [(h.item i).2.2]
    exact hs.time i ((h.unack i).1 hi).1

/-- Numbers after `ackSeq` are compared like their distances from it. -/
theorem bigger_iff_dist {x y : UInt32} (hx : fillpNumIsbigger x ackSeq = true) (hy : fillpNumIsbigger y ackSeq = true) :
    fillpNumIsbigger x y = true ↔ (y - ackSeq).toNat < (x - ackSeq).toNat := by
  have hx' := ((toInt_pos_iff _).1 (of_decide_eq_true hx)).2
  have hy' := ((toInt_pos_iff _).1 (of_decide_eq_true hy)).2
  rw [fillpNumIsbigger, decide_eq_true_eq]
  exact toInt_sub_pos_iff ackSeq hx' hy'

section
variable (h : Wf cfg (s.core.since b) [] v) (hs : AheadOf ackSeq clock s) (hlost : fillpNumIsbigger lostSeq ackSeq = true)
include h hs hlost

/-- In a list of the table all items behind one after `lostSeq` are after it as well. -/
theorem Wf.bigger_of_bucket : (s.unackList j).Pairwise fun a c =>
    fillpNumIsbigger (s.item a).seqNum lostSeq = true → fillpNumIsbigger (s.item c).seqNum lostSeq = true := by
  have hmem : ∀ {a}, a ∈ s.unackList j → a ∈ s.unackItems := fun ha => h.mem_unackItems_of_mem ha
  have hwindow : ∀ {a}, a ∈ s.unackItems → ((s.item a).seqNum - b).toNat < 2 ^ 31 := fun ha =>
    (h.window _ (mem_live.2 (.inr (.inl ha)))).2.trans_lt h.span_lt
  refine (h.bucket j).imp_of_mem fun {a c} ha hc hlt hbig => ?_
  have hafter := hs.after a (hmem ha)
  have hafter' := hs.after c (hmem hc)
  have hac : fillpNumIsbigger (s.item c).seqNum (s.item a).seqNum = true :=
    decide_eq_true ((toInt_sub_pos_iff b (hwindow (hmem hc)) (hwindow (hmem ha))).2 hlt)
  rw [bigger_iff_dist hafter' hafter] at hac
  rw [bigger_iff_dist hafter hlost] at hbig
  rw [bigger_iff_dist hafter' hlost]
  omega

end

/-- One list is emptied up to `lostSeq`. -/
theorem Wf.fillpMoveOneNode (h : Wf cfg (s.core.since b) [] v) (isFromPack : Bool) (hs : AheadOf ackSeq clock s)
    (hcmp : cfg.retransmitCmpTime = false) (hl : s.unackList j = l)
    (hsorted : l.Pairwise fun a c =>
      fillpNumIsbigger (s.item a).seqNum lostSeq = true → fillpNumIsbigger (s.item c).seqNum lostSeq = true) :
    ∃ s', s.fillpMoveOneNode cfg clock lostSeq isFromPack false j l = (false, s') ∧
      Moves cfg b (fun a => a ∈ l ∧ fillpNumIsbigger (s.item a).seqNum lostSeq = false) s s' := by
  induction l generalizing s v with
  | nil => exact ⟨s, rfl, .none h fun a _ ha => not_mem_nil ha.1⟩
  | cons i rest ih =>
    have hsound : Sound cfg (fun _ => b) False s [] 0 := ⟨v, h, False.elim⟩
    have hi : i ∈ s.unackItems := h.mem_unackItems_of_mem (show i ∈ s.unackList j from hl ▸ mem_cons_self)
    have htime := hs.time i hi
    rw [pairwise_cons] at hsorted
    rw [hsound.fillpMoveOneNode_cons hl, hcmp]
    cases hbig : fillpNumIsbigger (s.item i).seqNum lostSeq with
    | true =>
      -- The first item is after `lostSeq`, and so are all others.
      refine ⟨s, rfl, .none h fun a _ ha => ?_⟩
      rcases mem_cons.1 ha.1 with rfl | hrest
      · simp [hbig] at ha
      · simp [hsorted.1 a hrest hbig] at ha
    | false =>
      have hmove := h.moveItem hi isFromPack
      obtain ⟨v₁, hwf₁⟩ := hmove.wf
      have hrest : (s.moveItem isFromPack i).unackList j = rest := by
        rw [unackList_moveItem, ← h.update_unackList hl, update_self]
      obtain ⟨s', heq, hmoves⟩ := ih hwf₁ (hmove.aheadOf hs) hrest <| hsorted.2.imp fun {a c} hac => by
        rwa [(hmove.item a).1, (hmove.item c).1]
      refine ⟨s', ?_, hmove.trans hmoves fun a _ => ?_⟩
      · simpa [show ¬ clock.curTime - (s.item i).lastSendTimestamp < 0 by omega] using heq
      · rw [mem_cons, (hmove.item a).1]
        by_cases ha : a = i
        · simp [ha, hbig]
        · simp [ha]

theorem Wf.moveLoop (h : Wf cfg (s.core.since b) [] v) (isFromPack : Bool) (hs : AheadOf ackSeq clock s)
    (hcmp : cfg.retransmitCmpTime = false) (hlost : fillpNumIsbigger lostSeq ackSeq = true) (js : List UInt32) :
    Moves cfg b
      (fun a => fillpUnacklistHashindex (s.item a).seqNum ∈ js ∧ fillpNumIsbigger (s.item a).seqNum lostSeq = false)
      s (s.moveLoop cfg clock lostSeq isFromPack false js) := by
  induction js generalizing s v with
  | nil => exact .none h fun a _ ha => not_mem_nil ha.1
  | cons j js ih =>
    obtain ⟨s₁, heq, hmove⟩ := h.fillpMoveOneNode isFromPack hs hcmp rfl (h.bigger_of_bucket hs hlost)
    obtain ⟨v₁, hwf₁⟩ := hmove.wf
    rw [moveLoop, heq]
    refine hmove.trans (ih hwf₁ (hmove.aheadOf hs)) fun a ha => ?_
    -- The items of the list are those with its index.
    have hindex : a ∈ s.unackList j ↔ fillpUnacklistHashindex (s.item a).seqNum = j :=
      ⟨h.home j a, fun hj => hj ▸ h.mem_unackItems.1 ha⟩
    rw [(hmove.item a).1, hindex, mem_cons, ← or_and_right]

/-! ## The whole gap -/

/-- The items up to `lostSeq` have gone from the table to `unrecvList`, and all others are where they were. -/
def MovedUpTo (cfg : SendConfig) (lostSeq : UInt32) (s s' : FillpSendPcb) : Prop :=
  SendOrdered cfg s' ∧ (∀ i, (s'.item i).seqNum = (s.item i).seqNum) ∧
    (∀ i, i ∈ s'.unackItems ↔ i ∈ s.unackItems ∧ fillpNumIsbigger (s.item i).seqNum lostSeq = true) ∧
    ∀ i, i ∈ (s'.list .unrecvList).items ↔
      i ∈ (s.list .unrecvList).items ∨ i ∈ s.unackItems ∧ fillpNumIsbigger (s.item i).seqNum lostSeq = false

instance : Decidable (AheadOf ackSeq clock s) :=
  decidable_of_iff ((∀ i ∈ s.unackItems, fillpNumIsbigger (s.item i).seqNum ackSeq = true) ∧
    ∀ i ∈ s.unackItems, (s.item i).lastSendTimestamp ≤ clock.curTime) ⟨fun h => ⟨h.1, h.2⟩, fun h => ⟨h.1, h.2⟩⟩

end SoftBus.Native
