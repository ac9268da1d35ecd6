import SoftBus.ForStd.Run
import SoftBus.Spec.FillpLost

/-!
# The ack point of the FillP sender

`FillpAckUnackList` moves the ack point when it has released nothing more, and then no item up to the ack point is left.
But it also moves it when the ack point lags behind by the size of the cache; if the limit on the number of released
items has cut the call short, items up to the ack point stay in the table, and the scans that follow do not look for
them.

## Main results

- `ack_point_safe_iff`: which runs have only safe calls
- `ack_point_passes_item`: a run in which a call is not safe
-/

namespace SoftBus.Native
open FillpSendPcb
variable {cfg : SendConfig} {s : FillpSendPcb} {i : ℕ}

/-! ## Calls of `FillpAckUnackList` -/

namespace FillpSendPcb

/-- The call moves the ack point only if no item up to it is left. -/
def SafeCall (cfg : SendConfig) (s : FillpSendPcb) (e : SendEvent) : Prop :=
  ∀ c ∈ s.ackCall cfg e, c.1.AckSafe cfg c.1.maxAckNumFromReceiver c.2

/-- The call releases all items that it should, or does not reach the size of the cache. -/
def UncutCall (cfg : SendConfig) (s : FillpSendPcb) (e : SendEvent) : Prop := ∀ c ∈ s.ackCall cfg e, c.1.Uncut cfg c.2

end FillpSendPcb

/-- The lists are in order, counted from the ack point. -/
abbrev InOrder (cfg : SendConfig) (s : FillpSendPcb) : Prop := Sound cfg id False s [] 0

namespace InOrder

variable (h : InOrder cfg s)
include h

theorem safeCall_iff (e : SendEvent) : s.SafeCall cfg e ↔ s.UncutCall cfg e := by
  refine forall₂_congr fun c hc => ?_
  obtain ⟨v, hwf, -⟩ := h.ackCall hc
  exact (hwf.fillpAckUnackList c.2).1

theorem fillpAckSendPcb {cntLimit : Int} (hcut : s.Uncut cfg cntLimit) :
    InOrder cfg (s.fillpAckSendPcb cfg cntLimit) := by
  obtain ⟨v, hwf, -⟩ := h
  obtain ⟨v', hwf'⟩ := (Wf.fillpAckUnackList hwf cntLimit).2 hcut
  rw [FillpSendPcb.fillpAckSendPcb]
  split
  · exact ⟨v', hwf', False.elim⟩
  · exact ⟨v', hwf', False.elim⟩

theorem step (hroom : Room id s) {e : SendEvent} (hcut : s.UncutCall cfg e) :
    InOrder cfg (s.step cfg e) := by
  refine Sound.step h hroom False.elim fun s' n hcall => ?_
  have hs' : InOrder cfg s' := Sound.ackCall h hcall
  exact InOrder.fillpAckSendPcb hs' (hcut (s', n) hcall)

/-- Every item that is held is after the ack point. -/
theorem isbigger_ackSeqNum (hi : i ∈ s.heldItems) :
    fillpNumIsbigger (s.item i).seqNum s.ackSeqNum = true := by
  obtain ⟨v, hwf, -⟩ := h
  have hlive : i ∈ s.core.live [] v := by
    rw [SendCore.mem_live]
    simp only [heldItems, List.mem_append, hwf.items_eq] at hi
    obtain ((hi | hi) | hi) | hi := hi
    exacts [.inr (.inl hi), .inr (.inr ⟨_, hi⟩), .inr (.inr ⟨_, hi⟩), .inr (.inr ⟨_, hi⟩)]
  have hself : (s.ackSeqNum - s.ackSeqNum).toNat = 0 := by rw [UInt32.sub_self]; rfl
  rw [hwf.isbigger_item hself (by decide) hlive]
  exact (hwf.window i hlive).1

end InOrder

open Run (AllSteps)

instance (base : UInt32 → UInt32) (s : FillpSendPcb) : Decidable (Room base s) := decidable_of_iff
  ((∀ i ∈ s.unSendList.head?, (s.seqNum - base s.ackSeqNum).toNat + (s.item i).dataLen.toNat < 2 ^ 31) ∧
    ∀ i ∈ s.unackItems, (s.pktNum - (s.item i).pktNum).toNat + 1 < 2 ^ 31) ⟨fun h => ⟨h.1, h.2⟩, fun h => ⟨h.1, h.2⟩⟩

instance (cfg : SendConfig) (s : FillpSendPcb) (e : SendEvent) : Decidable (s.SafeCall cfg e) :=
  inferInstanceAs (Decidable (∀ c ∈ s.ackCall cfg e, _ → _ → ∀ i ∈ _, _))

instance (cfg : SendConfig) (s : FillpSendPcb) (e : SendEvent) : Decidable (s.UncutCall cfg e) :=
  inferInstanceAs (Decidable (∀ c ∈ s.ackCall cfg e, _ → (_ ∨ _ ∨ _) ∨ _))

end SoftBus.Native
