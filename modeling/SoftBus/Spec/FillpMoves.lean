import SoftBus.ForStd.Counter
import SoftBus.Spec.FillpAck

/-!
# What the FillP sender does to its lists and counters

Every function of the sender is a sequence of a few moves: an item is taken out of a list or of the table, its counters
change, and it is put into another list, into the table, or released.  `Sound` is kept by every function:
the lists are in order (`Wf`), and, in runs in which the counters are not misled, the three counters are what they
should be (`Counted`).  While an item is in hand `unrecvRedunListBytes` can be ahead of the lists or behind them; the
difference is owed.

## Main results

- `Sound.insert`, `Sound.pop`, `Sound.take`, `Sound.setHand`, `Sound.release`: the moves
- `Sound.moveRedundantLoop`, `Sound.clearWaitLoop`: items between the skip lists
- `Sound.sendOneRound`, `Sound.checkWaitRound`: sending
-/

namespace SoftBus.Native
open Function List FillpSendPcb SendCore
open Counter (Reads)
variable {l : List ℕ} {owed' : ℤ} {y x : UInt64} {unackList pktSeqMap : UInt32 → List ℕ} {b : UInt32}
  {list : SkipList ℕ} {token sent : Bool} {clock : FillpSendPcb.Clock}

namespace FillpSendPcb

variable (s : FillpSendPcb)

/-- The bytes of an item that are on the way, counted for each time it was sent and not reported as lost. -/
def flying (i : ℕ) : ℕ := (s.item i).dataLen.toNat * (s.item i).infCount.toNat

/-- The bytes of an item that was sent before. -/
def sentLen (i : ℕ) : ℕ := if 0 < (s.item i).sendCount then (s.item i).dataLen.toNat else 0

theorem countUnrecv_eq (i : ℕ) : s.countUnrecv i =
    { s with unrecvRedunListBytes := s.unrecvRedunListBytes + UInt64.ofNat (s.sentLen i) } := by
  rw [countUnrecv, sentLen]
  split
  · rw [← UInt16.toNat_toUInt64, UInt64.ofNat_toNat]
  · rw [show UInt64.ofNat 0 = 0 from rfl, UInt64.add_zero]

/-- What an item counts for in `unrecvRedunListBytes` when it is in the list `L`. -/
def counts (L : SendList) (i : ℕ) : ℕ := if L = .itemWaitTokenLists then 0 else s.sentLen i

/-- What the items of `unrecvList` and `redunList` count for. -/
def listedBytes (v : SendList → List ℕ) : ℕ := ((v .unrecvList ++ v .redunList).map s.sentLen).sum

/-- An item leaves the table and the map of packet numbers. -/
def takeOut (i : ℕ) : FillpSendPcb :=
  { s with pktSeqMap := hlistDelNode s.pktSeqMap i, unackList := hlistDelNode s.unackList i }.decUnackCount

theorem listedBytes_update {v : SendList → List ℕ} {L : SendList} {i : ℕ} {l' : List ℕ}
    (h : l.Perm (i :: l')) :
    s.listedBytes (update v L l) = s.listedBytes (update v L l') + s.counts L i := by
  have hsum : (l.map s.sentLen).sum = s.sentLen i + (l'.map s.sentLen).sum := by
    rw [(h.map _).sum_nat, map_cons, sum_cons]
  simp only [listedBytes, map_append, sum_append]
  cases L with
  | unrecvList | redunList => simp [hsum, counts]; omega
  | itemWaitTokenLists => simp [counts]

end FillpSendPcb

variable {cfg : SendConfig} {base : UInt32 → UInt32} {p : Prop} {s : FillpSendPcb} {hand : List ℕ}
  {v : SendList → List ℕ} {owed : ℤ} {i : ℕ}

/-- The counters of the sender are those of the items in hand and in its lists, except that `unrecvRedunListBytes` is
    owed some bytes.  No item has been sent more often than it was reported as lost, except once more if it is in
    the table. -/
structure Counted (s : FillpSendPcb) (hand : List ℕ) (v : SendList → List ℕ) (owed : ℤ) : Prop where
  inSend : Reads s.inSendBytes ((s.core.live hand v).map s.flying).sum
  count : s.unackCount.toNat = s.unackItems.length
  bytes : Reads s.unrecvRedunListBytes (s.listedBytes v - owed)
  table : ∀ i ∈ s.unackItems, 0 < (s.item i).infCount.toNat ∧
    (s.item i).infCount.toNat ≤ (s.item i).sendCount.toNat + 1 ∧ (s.item i).sendCount.toNat < 255
  lists : ∀ L, ∀ i ∈ v L, (s.item i).infCount.toNat ≤ (s.item i).sendCount.toNat

namespace Counted
variable {L : SendList}

theorem pop (h : Counted s hand v owed) (hv : v L = i :: l) :
    Counted (s.setList L list) (i :: hand) (update v L l) (owed - s.counts L i) where
  __ := h
  inSend := by
    have hperm := listed_update_perm (v := v) (L := L) (List.Perm.refl (i :: l))
    rw [← hv, update_eq_self] at hperm
    have hlive : (s.core.live hand v).Perm (s.core.live (i :: hand) (update v L l)) :=
      (hperm.append_left _).trans perm_middle
    have hsum := (hlive.map s.flying).sum_nat
    exact hsum ▸ h.inSend
  bytes := by
    have hsum := s.listedBytes_update (v := v) (L := L) (List.Perm.refl (i :: l))
    rw [← hv, update_eq_self] at hsum
    have heq : ((s.listedBytes (update v L l) : ℕ) : ℤ) - (owed - s.counts L i) = s.listedBytes v - owed := by
      rw [hsum]
      push_cast
      ring
    exact heq.symm ▸ h.bytes
  lists L' a ha := by
    by_cases hL : L' = L
    · subst hL
      rw [update_self] at ha
      exact h.lists L' a (hv ▸ mem_cons_of_mem i ha)
    · rw [update_of_ne hL] at ha
      exact h.lists L' a ha

theorem insert (h : Counted s (i :: hand) v owed) (hi : (s.item i).infCount.toNat ≤ (s.item i).sendCount.toNat)
    (hl : l.Perm (i :: v L)) : Counted (s.setList L list) hand (update v L l) (owed + s.counts L i) where
  __ := h
  inSend := by
    have hperm := listed_update_perm (v := v) (L := L) hl
    rw [update_eq_self] at hperm
    have hlive : (s.core.live hand (update v L l)).Perm (s.core.live (i :: hand) v) :=
      (hperm.append_left _).trans perm_middle
    have hsum := (hlive.map s.flying).sum_nat
    exact hsum ▸ h.inSend
  bytes := by
    have hsum := s.listedBytes_update (v := v) (L := L) hl
    rw [update_eq_self] at hsum
    have heq : ((s.listedBytes (update v L l) : ℕ) : ℤ) - (owed + s.counts L i) = s.listedBytes v - owed := by
      rw [hsum]
      push_cast
      ring
    exact heq.symm ▸ h.bytes
  lists L' a ha := by
    by_cases hL : L' = L
    · subst hL
      rw [update_self] at ha
      rcases mem_cons.1 (hl.mem_iff.1 ha) with rfl | ha
      · exact hi
      · exact h.lists L' a ha
    · rw [update_of_ne hL] at ha
      exact h.lists L' a ha

/-- The fields of an item outside the lists, and the counters, change. -/
theorem setItem {hand' : List ℕ} {item : SendItem} (h : Counted s hand v owed) (hi : ∀ a ∈ s.core.live [] v, a ≠ i)
    (hx : Reads x (((s.core.live hand' v).map ({ s with item := update s.item i item } : FillpSendPcb).flying).sum : ℕ))
    (hy : ∀ n, Reads s.unrecvRedunListBytes n → Reads y (n + (owed - owed'))) :
    Counted { s with item := update s.item i item, inSendBytes := x, unrecvRedunListBytes := y } hand' v
      owed' := by
  have hitem : ∀ a ∈ s.core.live [] v, update s.item i item a = s.item a :=
    fun a ha => update_of_ne (hi a ha) ..
  have hlisted : ∀ L, ∀ a ∈ v L, update s.item i item a = s.item a :=
    fun L a ha => hitem a (mem_live.2 (.inr (.inr ⟨L, ha⟩)))
  have htable : ∀ a ∈ s.unackItems, update s.item i item a = s.item a :=
    fun a ha => hitem a (mem_live.2 (.inr (.inl ha)))
  have hbytes : ({ s with
      item := update s.item i item, inSendBytes := x, unrecvRedunListBytes := y } : FillpSendPcb).listedBytes v =
        s.listedBytes v := by
    refine congrArg sum (map_congr_left fun a ha => ?_)
    simp only [sentLen]
    rcases mem_append.1 ha with ha | ha
    · rw [hlisted _ a ha]
    · rw [hlisted _ a ha]
  constructor
  · exact hx
  · exact h.count
  · rw [hbytes]
    have hread := hy _ h.bytes
    rwa [show (s.listedBytes v : ℤ) - owed + (owed - owed') = s.listedBytes v - owed' by ring] at hread
  · intro a ha
    simp only [htable a ha]
    exact h.table a ha
  · intro L a ha
    simp only [hlisted L a ha]
    exact h.lists L a ha

/-- The bytes on the way when the fields of one item are set, which is in nobody's hands or in the list. -/
theorem sum_flying_update (hi : i ∉ s.core.live hand v) (item : SendItem) :
    ((s.core.live (i :: hand) v).map ({ s with item := update s.item i item } : FillpSendPcb).flying).sum =
      item.dataLen.toNat * item.infCount.toNat + ((s.core.live hand v).map s.flying).sum := by
  show (map _ (i :: s.core.live hand v)).sum = _
  rw [map_cons, sum_cons]
  congr 1
  · simp [flying]
  · refine congrArg sum (map_congr_left fun a ha => ?_)
    simp only [flying, update_of_ne (ne_of_mem_of_not_mem ha hi)]

/-- An item in hand changes, and the counters with it. -/
theorem setHand (h : Counted s (i :: hand) v owed) (item : SendItem) (hi : i ∉ s.core.live hand v)
    (hlen : item.dataLen = (s.item i).dataLen)
    (hx : ∀ n, Reads s.inSendBytes n → Reads x (n + ((s.item i).dataLen.toNat * item.infCount.toNat - (s.item i).dataLen.toNat * (s.item i).infCount.toNat)))
    (hy : ∀ n, Reads s.unrecvRedunListBytes n → Reads y (n + (owed - owed'))) :
    Counted { s with item := update s.item i item, inSendBytes := x, unrecvRedunListBytes := y } (i :: hand) v
      owed' := by
  refine h.setItem (fun a ha => ne_of_mem_of_not_mem ?_ hi) ?_ hy
  · rw [mem_live] at ha ⊢
    exact .inr (ha.resolve_left not_mem_nil)
  · have hold : ((s.core.live (i :: hand) v).map s.flying).sum = s.flying i + ((s.core.live hand v).map s.flying).sum := rfl
    have hread := hx _ h.inSend
    rw [hold] at hread
    rw [sum_flying_update hi, hlen]
    convert hread using 1
    push_cast [flying]
    ring

/-- An item that is nowhere is taken in hand, with nothing on the way. -/
theorem newHand (h : Counted s hand v owed) (item : SendItem) (hi : i ∉ s.core.live hand v) (hinf : item.infCount = 0) :
    Counted { s with item := update s.item i item } (i :: hand) v owed := by
  refine h.setItem (fun a ha => ne_of_mem_of_not_mem ?_ hi) ?_ fun n hn => ?_
  · rw [mem_live] at ha ⊢
    exact .inr (ha.resolve_left not_mem_nil)
  · rw [sum_flying_update hi, hinf]
    simpa using h.inSend
  · rwa [sub_self, add_zero]

/-- An item with nothing on the way is released. -/
theorem release (h : Counted s (i :: hand) v owed) (hi : s.flying i = 0) : Counted s hand v owed where
  __ := h
  inSend := by
    have hsum : ((s.core.live (i :: hand) v).map s.flying).sum = s.flying i + ((s.core.live hand v).map s.flying).sum := rfl
    have hread := h.inSend
    rwa [hsum, hi, Nat.zero_add] at hread

/-- An item leaves the table. -/
theorem take (h : Counted s hand v owed)
    (hperm : s.core.unackItems.Perm (i :: ({ s.core with unackList := unackList } : SendCore).unackItems)) :
    Counted { s with pktSeqMap := pktSeqMap, unackList := unackList }.decUnackCount (i :: hand) v owed where
  __ := h
  inSend := by
    have hlive : (s.core.live hand v).Perm
        (({ s.core with unackList := unackList, pktSeqMap := pktSeqMap } : SendCore).live (i :: hand) v) :=
      ((hperm.append_left hand).trans perm_middle).append_right _
    have hsum := (hlive.map s.flying).sum_nat
    exact hsum ▸ h.inSend
  count := by
    have hlen : s.unackItems.length = ({ s.core with unackList := unackList } : SendCore).unackItems.length + 1 :=
      hperm.length_eq
    have hcount := h.count
    have hone : (1 : UInt32) ≤ s.unackCount := by
      rw [UInt32.le_iff_toNat_le, hcount, hlen]
      exact Nat.le_add_left 1 _
    have hpos : s.unackCount > 0 := UInt32.lt_of_lt_of_le (by decide) hone
    show (if s.unackCount > 0 then s.unackCount - 1 else s.unackCount).toNat =
      ({ s.core with unackList := unackList } : SendCore).unackItems.length
    rw [if_pos hpos, UInt32.toNat_sub_of_le _ _ hone, hcount, hlen]
    exact Nat.add_sub_cancel ..
  table a ha := h.table a (hperm.mem_iff.2 (mem_cons_of_mem i ha))

/-- An item is put into the table. -/
theorem put (h : Counted s (i :: hand) v owed)
    (hperm : ({ s.core with unackList := unackList } : SendCore).unackItems.Perm (i :: s.core.unackItems))
    (hlen : s.core.unackItems.length < 2 ^ 31)
    (hi : 0 < (s.item i).infCount.toNat ∧ (s.item i).infCount.toNat ≤ (s.item i).sendCount.toNat + 1 ∧ (s.item i).sendCount.toNat < 255) :
    Counted { s with unackList := unackList, unackCount := s.unackCount + 1, pktSeqMap := pktSeqMap } hand v owed where
  __ := h
  inSend := by
    have hlive : (({ s.core with unackList := unackList, pktSeqMap := pktSeqMap } : SendCore).live hand v).Perm
        (s.core.live (i :: hand) v) := ((hperm.append_left hand).trans perm_middle).append_right _
    have hsum := (hlive.map s.flying).sum_nat
    exact hsum ▸ h.inSend
  count := by
    have hitems := hperm.length_eq
    have hcount : s.unackCount.toNat = s.core.unackItems.length := h.count
    show (s.unackCount + 1).toNat = ({ s.core with unackList := unackList } : SendCore).unackItems.length
    rw [hitems, UInt32.toNat_add, hcount]
    exact Nat.mod_eq_of_lt (by show _ + 1 < _; omega)
  table a ha := by
    rcases mem_cons.1 (hperm.mem_iff.1 ha) with rfl | ha
    · exact hi
    · exact h.table a ha

end Counted

/-- The lists of the sender are in order, with some items in hand, and the counters are right if `p`.  The numbers are
    counted from `base`, which can depend on the ack point. -/
def Sound (cfg : SendConfig) (base : UInt32 → UInt32) (p : Prop) (s : FillpSendPcb) (hand : List ℕ) (owed : ℤ) : Prop :=
  ∃ v, Wf cfg (s.core.since (base s.ackSeqNum)) hand v ∧ (p → Counted s hand v owed)

namespace Sound
variable {L : SendList}

theorem owed_eq (h : Sound cfg base p s hand owed) (heq : p → owed = owed') :
    Sound cfg base p s hand owed' := by
  obtain ⟨v, hwf, hcount⟩ := h
  exact ⟨v, hwf, fun hp => heq hp ▸ hcount hp⟩

/-! ## The moves -/

/-- An item in hand is put into a skip list; there is never one with the same number. -/
theorem insert (h : Sound cfg base p s (i :: hand) owed) (L : SendList)
    (hi : p → (s.item i).infCount.toNat ≤ (s.item i).sendCount.toNat) :
    ∃ list, s.insert L i = (.ok, s.setList L list) ∧
      Sound cfg base p (s.setList L list) hand (owed + s.counts L i) := by
  obtain ⟨v, hwf, hcount⟩ := h
  obtain ⟨hok, hwf'⟩ := hwf.insert
  exact ⟨_, Prod.ext hok rfl, _, hwf', fun hp => (hcount hp).insert (hi hp) (perm_orderedInsert ..)⟩

/-- The first item of a skip list is taken in hand, if there is one. -/
theorem pop (h : Sound cfg base p s hand owed) (L : SendList) :
    s.pop L = (none, s) ∨ ∃ i list, s.pop L = (some i, s.setList L list) ∧
        Sound cfg base p (s.setList L list) (i :: hand) (owed - s.counts L i) ∧
        (p → (s.item i).infCount.toNat ≤ (s.item i).sendCount.toNat) ∧ (s.list L).items = i :: list.items := by
  obtain ⟨v, hwf, hcount⟩ := h
  cases hv : v L with
  | nil =>
    left
    rw [FillpSendPcb.pop, SkipList.Repr.popValue_nil (hv ▸ hwf.repr L : (s.list L).Repr [])]
    exact Prod.ext rfl (congrArg (fun list => ({ s with list := list } : FillpSendPcb)) (update_eq_self ..))
  | cons i l =>
    obtain ⟨hsome, hwf'⟩ := hwf.pop hv
    have hitems : (s.list L).items = i :: l := hv ▸ SkipList.Repr.items_eq (hwf.repr L)
    have hitems' : ((s.list L).skipListPopValue.2).items = l := by
      have heq := SkipList.Repr.items_eq (hwf'.repr L)
      simpa [since, core] using heq
    refine .inr ⟨i, _, Prod.ext hsome rfl, ⟨_, hwf', fun hp => (hcount hp).pop hv⟩, fun hp => ?_, ?_⟩
    · exact (hcount hp).lists L i (hv ▸ mem_cons_self)
    · rw [hitems, hitems']

/-- Counters of an item in hand change, and the sums with them. -/
theorem setHand {f : SendItem → SendItem} (h : Sound cfg base p s (i :: hand) owed)
    (hseq : (f (s.item i)).seqNum = (s.item i).seqNum) (hpkt : (f (s.item i)).pktNum = (s.item i).pktNum)
    (hlen : (f (s.item i)).dataLen = (s.item i).dataLen)
    (hx : p → ∀ n, Reads s.inSendBytes n → Reads x (n + ((s.item i).dataLen.toNat * (f (s.item i)).infCount.toNat - (s.item i).dataLen.toNat * (s.item i).infCount.toNat)))
    (hy : p → ∀ n, Reads s.unrecvRedunListBytes n → Reads y (n + (owed - owed'))) :
    Sound cfg base p ({ s with inSendBytes := x, unrecvRedunListBytes := y }.setItem i f) (i :: hand) owed' := by
  obtain ⟨v, hwf, hcount⟩ := h
  have hnot := (nodup_cons.1 hwf.nodup_live).1
  refine ⟨v, ?_, fun hp => (hcount hp).setHand _ hnot hlen (hx hp) (hy hp)⟩
  rw [core_setItem (s := { s with inSendBytes := x, unrecvRedunListBytes := y }) hseq hpkt hlen]
  exact hwf

/-- Only `unrecvRedunListBytes` changes. -/
theorem setBytes (h : Sound cfg base p s hand owed)
    (hy : p → ∀ n, Reads s.unrecvRedunListBytes n → Reads y (n + (owed - owed'))) :
    Sound cfg base p { s with unrecvRedunListBytes := y } hand owed' := by
  obtain ⟨v, hwf, hcount⟩ := h
  refine ⟨v, hwf, fun hp => ?_⟩
  have hc := hcount hp
  refine { hc with bytes := ?_ }
  have hread := hy hp _ hc.bytes
  rwa [show (s.listedBytes v : ℤ) - owed + (owed - owed') = s.listedBytes v - owed' by ring] at hread

theorem release (h : Sound cfg base p s (i :: hand) owed) (hi : p → s.flying i = 0) : Sound cfg base p s hand owed := by
  obtain ⟨v, hwf, hcount⟩ := h
  exact ⟨v, hwf.release, fun hp => (hcount hp).release (hi hp)⟩

section
variable (h : Sound cfg base p s hand owed)
include h

/-- An item leaves the table. -/
theorem take (hi : i ∈ s.unackItems) :
    Sound cfg base p (s.takeOut i) (i :: hand) owed ∧
      (p → 0 < (s.item i).infCount.toNat ∧ (s.item i).infCount.toNat ≤ (s.item i).sendCount.toNat + 1 ∧
        (s.item i).sendCount.toNat < 255) := by
  obtain ⟨v, hwf, hcount⟩ := h
  have hperm := hwf.unackItems_hlistDelNode hi
  refine ⟨⟨v, ?_, fun hp => (hcount hp).take hperm⟩, fun hp => (hcount hp).table i hi⟩
  exact hwf.takeUnack hperm (fun j => erase_sublist) (fun j => erase_sublist) (hwf.notMem_hlistDelNode i)
    fun j a ha hne => (mem_erase_of_ne hne).2 ha

/-- What an item in `unrecvList` counts for is added. -/
theorem countUnrecv (i : ℕ) : Sound cfg base p (s.countUnrecv i) hand (owed - s.sentLen i) := by
  rw [FillpSendPcb.countUnrecv, FillpSendPcb.sentLen]
  split
  · refine h.setBytes fun _ n hn => ?_
    have hread := hn.add (s.item i).dataLen.toUInt64
    rwa [UInt16.toNat_toUInt64, ← sub_sub_cancel owed ((s.item i).dataLen.toNat : ℤ)] at hread
  · exact h.owed_eq fun _ => (sub_zero owed).symm

/-- What an item of `unrecvList` counts for is taken away. -/
theorem fillpBeforeSendItem (i : ℕ) :
    Sound cfg base p (s.fillpBeforeSendItem i) hand (owed + s.sentLen i) := by
  rw [FillpSendPcb.fillpBeforeSendItem, FillpSendPcb.sentLen]
  split
  · refine h.setBytes fun _ n hn => ?_
    have hread := hn.sub (s.item i).dataLen.toUInt64
    rw [UInt16.toNat_toUInt64] at hread
    convert hread using 1
    ring
  · exact h.owed_eq fun _ => (add_zero owed).symm

/-! ## Moving items between the skip lists -/

theorem moveRedundantLoop (n : ℕ) : Sound cfg base p (moveRedundantLoop n s) hand owed := by
  induction n generalizing s with
  | zero => exact h
  | succ n ih =>
    rw [moveRedundantLoop]
    obtain hpop | ⟨i, list, hpop, hs', hi, -⟩ := h.pop .redunList
    · rw [hpop]
      exact h
    · -- The item counts for the same in both lists.
      obtain ⟨list', hins, hs''⟩ := hs'.insert .unrecvList hi
      rw [hpop]
      simp only [hins]
      exact ih (hs''.owed_eq fun _ => sub_add_cancel ..)

theorem clearWaitLoop (n : ℕ) : Sound cfg base p (clearWaitLoop n s) hand owed := by
  induction n generalizing s with
  | zero => exact h
  | succ n ih =>
    rw [clearWaitLoop]
    obtain hpop | ⟨i, list, hpop, hs', hi, -⟩ := h.pop .itemWaitTokenLists
    · rw [hpop]
      exact h
    · obtain ⟨list', hins, hs''⟩ := hs'.insert .unrecvList hi
      rw [hpop]
      simp only [hins]
      refine ih ((hs''.countUnrecv i).owed_eq fun _ => ?_)
      show owed - (0 : ℕ) + s.sentLen i - s.sentLen i = owed
      rw [Nat.cast_zero, sub_zero, add_sub_cancel_right]

/-! ## Sending -/

theorem write {dataLen : UInt16} (hlen : dataLen ≠ 0) :
    Sound cfg base p (s.write dataLen) hand owed := by
  obtain ⟨v, hwf, hcount⟩ := h
  have hnew : s.itemNum ∉ s.core.live hand v := fun hmem => Nat.lt_irrefl _ (hwf.unsent.old _ hmem)
  refine ⟨v, ?_, fun hp => ?_⟩
  · have hcore := s.core_update s.itemNum ⟨0, 0, dataLen, 0, 0, 0⟩
    have hcore' : (s.write dataLen).core =
        { ({ s with item := update s.item s.itemNum ⟨0, 0, dataLen, 0, 0, 0⟩ } : FillpSendPcb).core with
          itemNum := s.itemNum + 1, unSendList := s.unSendList ++ [s.itemNum] } := rfl
    rw [hcore', hcore]
    exact hwf.write hlen
  · have hcounted := ((hcount hp).newHand ⟨0, 0, dataLen, 0, 0, 0⟩ hnew rfl).release
      (by simp [flying])
    exact { hcounted with }

end
end Sound

/-- One more packet number keeps the packet numbers of the table within half the number space. -/
def PktRoom (c : SendCore) : Prop := ∀ i ∈ c.unackItems, c.pktDist i + 1 < 2 ^ 31

/-- There is room for one more item in the window of sequence numbers, and for one more packet in that of packet
    numbers. -/
structure Room (base : UInt32 → UInt32) (s : FillpSendPcb) : Prop where
  seq : ∀ i ∈ s.unSendList.head?, (s.seqNum - base s.ackSeqNum).toNat + (s.item i).dataLen.toNat < 2 ^ 31
  pkt : ∀ i ∈ s.unackItems, (s.pktNum - (s.item i).pktNum).toNat + 1 < 2 ^ 31

/-- The item may be sent once more. -/
def FillpSendPcb.Sendable (s : FillpSendPcb) (i : ℕ) : Prop :=
  (s.item i).infCount.toNat ≤ (s.item i).sendCount.toNat ∧ (s.item i).sendCount.toNat < 255

namespace Sound

/-- The item to be sent next is taken in hand. -/
theorem fillpGetSendItem (h : Sound cfg base p s hand owed) (hroom : Room base s)
    (hsend : p → ∀ i ∈ s.fillpGetSendItem.1, (s.item i).sendCount.toNat < 255) :
    (∃ s', s.fillpGetSendItem = (none, s') ∧ Sound cfg base p s' hand owed) ∨
      ∃ i s', s.fillpGetSendItem = (some i, s') ∧ Sound cfg base p s' (i :: hand) (owed - s'.sentLen i) ∧
        PktRoom s'.core ∧ (p → s'.Sendable i) := by
  have hpktRoom : PktRoom s.core := hroom.pkt
  rw [FillpSendPcb.fillpGetSendItem] at hsend ⊢
  obtain hpop | ⟨i, list, hpop, hs', hi, -⟩ := h.pop .unrecvList
  · rw [hpop] at hsend ⊢
    simp only at hsend ⊢
    cases hlist : s.unSendList with
    | nil => exact .inl ⟨s, rfl, h⟩
    | cons i rest =>
      obtain ⟨v, hwf, hcount⟩ := h
      have hseq := hroom.seq i (by rw [hlist]; rfl)
      have hnew : i ∉ s.core.live hand v := hwf.unsent.notMem i (show i ∈ s.unSendList from hlist ▸ mem_cons_self)
      generalize hitem : ({ s.item i with
        seqNum := s.seqNum + (s.item i).dataLen.toUInt32, sendCount := 0, infCount := 0 } : SendItem) = item
      have hcore : ({ s with
          unSendList := rest, seqNum := s.seqNum + (s.item i).dataLen.toUInt32
          item := update s.item i item } : FillpSendPcb).core = { s.core with
              unSendList := rest, seqNum := s.seqNum + (s.item i).dataLen.toUInt32
              seqOf := update s.core.seqOf i (s.seqNum + (s.item i).dataLen.toUInt32) } := by
        have hupdate := s.core_update i item
        rw [← hitem] at hupdate ⊢
        rw [show update s.core.pktOf i (s.item i).pktNum = s.core.pktOf from update_eq_self ..,
          show update s.core.lenOf i (s.item i).dataLen = s.core.lenOf from update_eq_self ..] at hupdate
        exact congrArg (fun c : SendCore => { c with
          unSendList := rest, seqNum := s.seqNum + (s.item i).dataLen.toUInt32 }) hupdate
      have hsent : ∀ s' : FillpSendPcb, s'.item = update s.item i item → s'.sentLen i = 0 ∧ s'.Sendable i := by
        intro s' hs'
        rw [sentLen, FillpSendPcb.Sendable, hs', update_self, ← hitem]
        exact ⟨rfl, Nat.le_refl 0, Nat.succ_pos 254⟩
      refine .inr ⟨i, { s with
        unSendList := rest, seqNum := s.seqNum + (s.item i).dataLen.toUInt32, item := update s.item i item },
        by rw [← hitem]; rfl, ⟨v, ?_, fun hp => ?_⟩, ?_, fun hp => (hsent _ rfl).2⟩
      · rw [hcore]
        exact hwf.sendNew hlist hseq
      · have hcounted := (hcount hp).newHand item hnew (by rw [← hitem])
        rw [(hsent _ rfl).1, Nat.cast_zero, sub_zero]
        exact { hcounted with }
      · rw [hcore]
        exact hpktRoom
  · rw [hpop] at hsend ⊢
    exact .inr ⟨i, _, rfl, hs', hpktRoom, fun hp => ⟨hi hp, hsend hp i rfl⟩⟩

end Sound

/-- The item goes behind the last one with a smaller number. -/
theorem addBackwards_spec (hsorted : l.Pairwise ((s.core.since b).dist · > (s.core.since b).dist ·))
    (hne : ∀ a ∈ l, (s.core.since b).dist a ≠ (s.core.since b).dist i)
    (hbig : ∀ a ∈ l, fillpNumIsbigger (s.item a).seqNum (s.item i).seqNum = true ↔ (s.core.since b).dist i < (s.core.since b).dist a) :
    ∃ l', s.addBackwards i l = some l' ∧ l'.Perm (i :: l) ∧
      l'.Pairwise ((s.core.since b).dist · > (s.core.since b).dist ·) := by
  induction l with
  | nil => exact ⟨[i], rfl, .refl _, pairwise_singleton ..⟩
  | cons pos before ih =>
    rw [forall_mem_cons] at hne hbig
    rw [pairwise_cons] at hsorted
    have hseq : (s.item pos).seqNum ≠ (s.item i).seqNum := fun heq => hne.1 ((Wf.seqOf_inj (s.core.since b)).1 heq)
    rw [addBackwards, if_neg hseq]
    by_cases hlt : (s.core.since b).dist i < (s.core.since b).dist pos
    · obtain ⟨l', hl', hperm, hsorted'⟩ := ih hsorted.2 hne.2 hbig.2
      rw [if_pos (hbig.1.2 hlt), hl']
      refine ⟨pos :: l', rfl, (hperm.cons pos).trans (.swap ..), pairwise_cons.2 ⟨fun a ha => ?_, hsorted'⟩⟩
      rcases mem_cons.1 (hperm.mem_iff.1 ha) with rfl | ha
      · exact hlt
      · exact hsorted.1 a ha
    · rw [if_neg fun hb => hlt (hbig.1.1 hb)]
      refine ⟨i :: pos :: before, rfl, .refl _, pairwise_cons.2 ⟨?_, pairwise_cons.2 hsorted⟩⟩
      have hpos := lt_of_le_of_ne (Nat.le_of_not_lt hlt) hne.1
      exact forall_mem_cons.2 ⟨hpos, fun a ha => (hsorted.1 a ha).trans hpos⟩

/-- An item in hand goes into its list of the table. -/
theorem Wf.fillpAddtoListBySeqNum (h : Wf cfg (s.core.since b) (i :: hand) v) :
    ∃ l, s.fillpAddtoListBySeqNum (s.unackList (fillpUnacklistHashindex (s.item i).seqNum)) i = some l ∧
      l.Perm (i :: s.unackList (fillpUnacklistHashindex (s.item i).seqNum)) ∧
      l.Pairwise ((s.core.since b).dist · < (s.core.since b).dist ·) := by
  have hmem : ∀ a ∈ s.unackList (fillpUnacklistHashindex (s.item i).seqNum), a ∈ s.core.unackItems :=
    fun a ha => h.mem_unackItems_of_mem ha
  have hi : (s.core.since b).dist i < 2 ^ 31 :=
    (h.window i (mem_live.2 (.inl mem_cons_self))).2.trans_lt h.span_lt
  obtain ⟨l, hl, hperm, hsorted⟩ := addBackwards_spec (s := s) (i := i)
    (pairwise_reverse.2 (h.bucket (fillpUnacklistHashindex (s.item i).seqNum)))
    (fun a ha => (h.dist_ne (.inl (hmem a (mem_reverse.1 ha)))).symm)
    (fun a ha => h.isbigger_iff (mem_live.2 (.inr (.inl (hmem a (mem_reverse.1 ha))))) hi)
  refine ⟨l.reverse, ?_, ?_, pairwise_reverse.2 hsorted⟩
  · exact congrArg (Option.map reverse) hl
  · exact (reverse_perm l).trans (hperm.trans ((reverse_perm _).cons i))

namespace Sound

/-- An item in hand that the network has taken goes into the table. -/
theorem fillpItemRetrans (h : Sound cfg base p s (i :: hand) owed) (hi : p → s.Sendable i) (hpkt : s.core.pktDist i = 0)
    (hpos : ∀ a ∈ s.core.unackItems, 0 < s.core.pktDist a) : Sound cfg base p (s.fillpItemRetrans cfg i) hand owed := by
  rw [FillpSendPcb.fillpItemRetrans]
  have hnum : p → ((s.item i).infCount + 1).toNat = (s.item i).infCount.toNat + 1 := by
    intro hp
    have hle := (hi hp).1
    have hlt := (hi hp).2
    rw [UInt32.toNat_add]
    exact Nat.mod_eq_of_lt (by show _ + 1 < 2 ^ 32; omega)
  have hs' : Sound cfg base p
      ({ s with inSendBytes := s.inSendBytes + (s.item i).dataLen.toUInt64 }.setItem i
        fun item => { item with infCount := item.infCount + 1 }) (i :: hand) owed := by
    refine h.setHand (f := fun item => { item with infCount := item.infCount + 1 }) rfl rfl rfl (fun hp n hn => ?_)
      fun _ n hn => by rwa [sub_self, add_zero]
    have hread := hn.add (s.item i).dataLen.toUInt64
    rw [UInt16.toNat_toUInt64] at hread
    rw [hnum hp]
    convert hread using 1
    push_cast
    ring
  generalize hs : setItem { s with inSendBytes := s.inSendBytes + (s.item i).dataLen.toUInt64 } i
    (fun item => { item with infCount := item.infCount + 1 }) = s' at hs' ⊢
  have hitem : s'.item i = { s.item i with infCount := (s.item i).infCount + 1 } := by
    rw [← hs]
    exact update_self ..
  have hcore : s'.core = s.core := by
    rw [← hs]
    exact core_setItem rfl rfl rfl
  rw [← hcore] at hpkt hpos
  obtain ⟨v, hwf, hcount⟩ := hs'
  obtain ⟨l, hl, hperm, hsorted⟩ := hwf.fillpAddtoListBySeqNum
  simp only [fillpAddToUnackList, hl]
  refine ⟨v, hwf.addUnack hperm hsorted hpkt hpos, fun hp => (hcount hp).put ?_ ?_ ?_⟩
  · exact unackItems_add (c := s'.core) hperm
  · have hlen := hwf.length_live_lt
    have hle : s'.core.unackItems.length ≤ ((s'.core.since (base s'.ackSeqNum)).live (i :: hand) v).length := by
      simp only [live, length_append]
      exact (Nat.le_add_left ..).trans (Nat.le_add_right ..)
    omega
  · rw [hitem]
    show 0 < ((s.item i).infCount + 1).toNat ∧ ((s.item i).infCount + 1).toNat ≤ (s.item i).sendCount.toNat + 1 ∧ _
    rw [hnum hp]
    exact ⟨Nat.succ_pos _, Nat.succ_le_succ (hi hp).1, (hi hp).2⟩

section
variable (h : Sound cfg base p s (i :: hand) owed) (hroom : PktRoom s.core) (hi : p → s.Sendable i)
  (clock : FillpSendPcb.Clock)
include h hroom hi

theorem fillpSendItem (sent : Bool) : Sound cfg base p (s.fillpSendItem cfg clock i sent) hand owed := by
  obtain ⟨v, hwf, hcount⟩ := h
  rw [FillpSendPcb.fillpSendItem]
  generalize hs' : setItem { s with pktNum := s.pktNum + 1 } i
    (fun item => { item with lastSendTimestamp := clock.curTime, pktNum := s.pktNum + 1 }) = s'
  have hcore : s'.core =
      { s.core with pktNum := s.pktNum + 1, pktOf := update s.core.pktOf i (s.pktNum + 1) } := by
    have hupdate := core_update { s with pktNum := s.pktNum + 1 } i
    rw [← hs', setItem, hupdate]
    exact congrArg₂ (fun seqOf lenOf => { s.core with
      seqOf := seqOf, pktNum := s.pktNum + 1, pktOf := update s.core.pktOf i (s.pktNum + 1), lenOf := lenOf })
      (update_eq_self ..) (update_eq_self ..)
  have hcount' : p → Counted s' (i :: hand) v owed := by
    intro hp
    have hnot := (nodup_cons.1 hwf.nodup_live).1
    have hc := (hcount hp).setHand { s.item i with
      lastSendTimestamp := clock.curTime, pktNum := s.pktNum + 1 } hnot rfl (x := s.inSendBytes)
      (y := s.unrecvRedunListBytes) (fun n hn => by rwa [sub_self, add_zero]) fun n hn => by rwa [sub_self, add_zero]
    rw [← hs']
    exact { hc with }
  have hi' : p → s'.Sendable i := by
    intro hp
    have hitem : s'.item i = { s.item i with lastSendTimestamp := clock.curTime, pktNum := s.pktNum + 1 } := by
      rw [← hs']
      exact update_self ..
    rw [FillpSendPcb.Sendable, hitem]
    exact hi hp
  cases sent with
  | true =>
    obtain ⟨hnext, hpos⟩ := hwf.nextPkt hroom
    have hwf' := hnext.setPkt (s.pktNum + 1)
    have hold : ∀ a ∈ s.core.unackItems, a ≠ i := fun a ha => ne_of_mem_of_not_mem ha hwf.notMem_unackItems
    refine fillpItemRetrans ⟨v, ?_, hcount'⟩ hi' ?_ ?_
    · rw [hcore, ← hs']
      exact hwf'
    · rw [hcore]
      show (s.pktNum + 1 - update s.core.pktOf i (s.pktNum + 1) i).toNat = 0
      rw [update_self, UInt32.sub_self]
      rfl
    · rw [hcore]
      intro a ha
      show 0 < (s.pktNum + 1 - update s.core.pktOf i (s.pktNum + 1) a).toNat
      rw [update_of_ne (hold a ha)]
      exact hpos a ha
  | false =>
    -- The packet number is taken back, so that it is as if only the number in the item had changed.
    have hback : Sound cfg base p { s' with pktNum := s.pktNum } (i :: hand) owed := by
      refine ⟨v, ?_, fun hp => { hcount' hp with }⟩
      have hcore' : ({ s' with pktNum := s.pktNum } : FillpSendPcb).core =
          { s.core with pktOf := update s.core.pktOf i (s.pktNum + 1) } :=
        congrArg (fun c => { c with pktNum := s.pktNum }) hcore
      rw [hcore', ← hs']
      exact hwf.setPkt (s.pktNum + 1)
    obtain ⟨list, hins, hs''⟩ := hback.insert .unrecvList fun hp => (hi' hp).1
    have hins' : s'.insert .unrecvList i = (.ok, s'.setList .unrecvList list) :=
      congrArg (fun r : SkipRet × FillpSendPcb => (r.1, ({ r.2 with pktNum := s'.pktNum } : FillpSendPcb))) hins
    have hsub : s'.pktNum - 1 = s.pktNum := by
      rw [← hs']
      exact UInt32.add_sub_cancel ..
    have hstate : ({ (s'.setList .unrecvList list).countUnrecv i with
        pktNum := ((s'.setList .unrecvList list).countUnrecv i).pktNum - 1 } : FillpSendPcb) =
          (setList { s' with pktNum := s.pktNum } .unrecvList list).countUnrecv i := by
      rw [← hsub, countUnrecv_eq, countUnrecv_eq]
      rfl
    simp only [Bool.false_eq_true, if_false, hins', hstate]
    exact (hs''.countUnrecv i).owed_eq fun _ => add_sub_cancel_right ..

theorem spungeItemRouteByToken :
    Sound cfg base p (s.spungeItemRouteByToken cfg clock i token sent) hand owed := by
  rw [FillpSendPcb.spungeItemRouteByToken]
  split
  · exact h.fillpSendItem hroom hi clock sent
  · obtain ⟨list, hins, hs'⟩ := h.insert .itemWaitTokenLists fun hp => (hi hp).1
    rw [hins]
    exact hs'.owed_eq fun _ => add_zero owed

end

theorem sendOneRound (h : Sound cfg base p s hand owed) (hroom : Room base s)
    (hsend : p → ∀ i ∈ s.fillpGetSendItem.1, (s.item i).sendCount.toNat < 255) : Sound cfg base p (s.sendOneRound cfg clock token sent) hand owed := by
  rw [FillpSendPcb.sendOneRound]
  obtain ⟨s', hget, hs'⟩ | ⟨i, s', hget, hs', hpkt, hi⟩ := h.fillpGetSendItem hroom hsend
  · rw [hget]
    exact hs'
  · rw [hget]
    have hbefore := (hs'.fillpBeforeSendItem i).owed_eq fun _ => sub_add_cancel ..
    have hsame : (s'.fillpBeforeSendItem i).core = s'.core ∧ (s'.fillpBeforeSendItem i).item = s'.item := by
      rw [FillpSendPcb.fillpBeforeSendItem]
      split <;> exact ⟨rfl, rfl⟩
    refine hbefore.spungeItemRouteByToken (hsame.1 ▸ hpkt) (fun hp => ?_) clock
    rw [FillpSendPcb.Sendable, hsame.2]
    exact hi hp

theorem checkWaitRound (h : Sound cfg base p s hand owed) (hroom : Room base s)
    (hsend : p → ∀ i ∈ (s.pop .itemWaitTokenLists).1, (s.item i).sendCount.toNat < 255) : Sound cfg base p (s.checkWaitRound cfg clock sent) hand owed := by
  have hpkt : PktRoom s.core := hroom.pkt
  rw [FillpSendPcb.checkWaitRound]
  obtain hpop | ⟨i, list, hpop, hs', hi, -⟩ := h.pop .itemWaitTokenLists
  · rw [hpop]
    exact h
  · rw [hpop] at hsend ⊢
    have hs'' := hs'.owed_eq fun _ => sub_zero owed
    exact hs''.fillpSendItem hpkt (fun hp => ⟨hi hp, hsend hp i rfl⟩) clock sent

end Sound
end SoftBus.Native
