import SoftBus.ForStd.Buckets
import SoftBus.Native.FillpInput
import SoftBus.Spec.FillpRecv

/-!
# The lists of the sender of FillP

What the sender's functions do to the lists is a sequence of a few moves: an item is taken out of a list, is in nobody's
hands but the function's, and is put into another list or released.  `Wf` says what holds between the moves, with
the items in hand: the lists are in the order of the sequence numbers, counted from the
acknowledged one, and these numbers are different.  It speaks about `SendCore`, the part of the state that is not about
counting bytes.

## Main results

- `Wf.pop`, `Wf.insert`, `Wf.takeUnack`, `Wf.addUnack`: an item leaves a list or is put into one
- `Wf.sendNew`: an item gets its sequence number
-/

namespace SoftBus.Native
open Function List UInt32
variable {j : ℕ} {list : SendList → SkipList ℕ} {unackList pktSeqMap : UInt32 → List ℕ} {hand' : List ℕ}
  {v' : SendList → List ℕ}

/-- The state of the sender without its counters. -/
structure SendCore where
  seqOf : ℕ → UInt32
  pktOf : ℕ → UInt32
  lenOf : ℕ → UInt16
  itemNum : ℕ
  unSendList : List ℕ
  list : SendList → SkipList ℕ
  unackList : UInt32 → List ℕ
  pktSeqMap : UInt32 → List ℕ
  seqNum : UInt32
  pktNum : UInt32
  ackSeqNum : UInt32
  maxAck : UInt32

def FillpSendPcb.core (s : FillpSendPcb) : SendCore where
  seqOf i := (s.item i).seqNum
  pktOf i := (s.item i).pktNum
  lenOf i := (s.item i).dataLen
  itemNum := s.itemNum
  unSendList := s.unSendList
  list := s.list
  unackList := s.unackList
  pktSeqMap := s.pktSeqMap
  seqNum := s.seqNum
  pktNum := s.pktNum
  ackSeqNum := s.ackSeqNum
  maxAck := s.maxAckNumFromReceiver

/-- The fields of one item change. -/
theorem FillpSendPcb.core_update (s : FillpSendPcb) (i : ℕ) (item : SendItem) :
    ({ s with item := update s.item i item } : FillpSendPcb).core = { s.core with
        seqOf := update s.core.seqOf i item.seqNum
        pktOf := update s.core.pktOf i item.pktNum
        lenOf := update s.core.lenOf i item.dataLen } := by
  have hupdate : ∀ {β : Type} (g : SendItem → β),
      (fun j => g (update s.item i item j)) = update (fun j => g (s.item j)) i (g item) :=
    fun g => funext fun j => Function.apply_update (fun _ => g) s.item i item j
  simp only [core, hupdate]

namespace SendCore
variable (c : SendCore)

/-- The numbers are counted from `base` on instead of from the acknowledged one. -/
def since (base : UInt32) : SendCore := { c with ackSeqNum := base }

/-- How far the end of an item is ahead of the acknowledged number. -/
def dist (i : ℕ) : ℕ := (c.seqOf i - c.ackSeqNum).toNat

/-- How far the number of the last item that was taken is ahead of the acknowledged number. -/
def span : ℕ := (c.seqNum - c.ackSeqNum).toNat

/-- How many packets have been sent since an item was. -/
def pktDist (i : ℕ) : ℕ := (c.pktNum - c.pktOf i).toNat

def unackItems : List ℕ := (List.range fillpUnackHashSize.toNat).flatMap fun j => c.unackList (UInt32.ofNat j)

/-- The items of the three skip lists. -/
def listed (v : SendList → List ℕ) : List ℕ := v .unrecvList ++ v .redunList ++ v .itemWaitTokenLists

/-- The items that have been taken from `unSendList` and not been released. -/
def live (hand : List ℕ) (v : SendList → List ℕ) : List ℕ := hand ++ c.unackItems ++ listed v

end SendCore

/-- Items that have no number yet are not among the items `l`, which have. -/
structure Unsent (c : SendCore) (l : List ℕ) : Prop where
  old : ∀ i ∈ l, i < c.itemNum
  nodup : c.unSendList.Nodup
  notMem : ∀ i ∈ c.unSendList, i ∉ l
  lt : ∀ i ∈ c.unSendList, i < c.itemNum
  pos : ∀ i ∈ c.unSendList, c.lenOf i ≠ 0

/-- The lists hold the items `v`, in order. -/
structure Wf (cfg : SendConfig) (c : SendCore) (hand : List ℕ) (v : SendList → List ℕ) : Prop where
  repr : ∀ L, (c.list L).Repr (v L)
  sorted : ∀ L, (v L).Pairwise (c.dist · < c.dist ·)
  distinct : (c.live hand v).Pairwise (c.dist · ≠ c.dist ·)
  window : ∀ i ∈ c.live hand v, 0 < c.dist i ∧ c.dist i ≤ c.span
  span_lt : c.span < 2 ^ 31
  maxAck : (c.maxAck - c.ackSeqNum).toNat ≤ c.span
  home : ∀ j, ∀ i ∈ c.unackList j, fillpUnacklistHashindex (c.seqOf i) = j
  bucket : ∀ j, (c.unackList j).Pairwise (c.dist · < c.dist ·)
  mapped : ∀ j, ∀ i ∈ c.pktSeqMap j, cfg.pktIndex (c.pktOf i) = j ∧ i ∈ c.unackItems
  mapAll : ∀ i ∈ c.unackItems, i ∈ c.pktSeqMap (cfg.pktIndex (c.pktOf i))
  mapSorted : ∀ j, (c.pktSeqMap j).Pairwise (c.pktDist · > c.pktDist ·)
  pkt : ∀ i ∈ c.unackItems, c.pktDist i < 2 ^ 31
  unsent : Unsent c (c.live hand v)

variable {cfg : SendConfig} {c : SendCore} {hand : List ℕ} {v : SendList → List ℕ} {L : SendList} {i : ℕ} {l : List ℕ}
  {x : UInt32}

namespace SendCore

/-! ## Where the items are -/

theorem listed_update_perm {l' : List ℕ} (h : l.Perm (i :: l')) :
    (listed (update v L l)).Perm (i :: listed (update v L l')) := by
  have hmid : ∀ a b : List ℕ, (a ++ l ++ b).Perm (i :: (a ++ l' ++ b)) := fun a b =>
    ((h.append_left a).trans perm_middle).append_right b
  cases L with
  | unrecvList =>
    have h' := hmid [] (v .redunList ++ v .itemWaitTokenLists)
    simpa [listed] using h'
  | redunList => simpa [listed] using hmid (v .unrecvList) (v .itemWaitTokenLists)
  | itemWaitTokenLists => simpa [listed] using hmid (v .unrecvList ++ v .redunList) []

theorem mem_live : i ∈ c.live hand v ↔ i ∈ hand ∨ i ∈ c.unackItems ∨ ∃ L, i ∈ v L := by
  have hlisted : i ∈ listed v ↔ ∃ L, i ∈ v L := by
    simp only [listed, mem_append]
    constructor
    · rintro ((h | h) | h)
      exacts [⟨_, h⟩, ⟨_, h⟩, ⟨_, h⟩]
    · rintro ⟨L, h⟩
      cases L <;> simp [h]
  rw [live, mem_append, mem_append, hlisted, or_assoc]

theorem hashindex_lt : (fillpUnacklistHashindex x).toNat < fillpUnackHashSize.toNat := by
  exact Nat.lt_succ_of_le Nat.and_le_right

theorem hashindex_mem (x : UInt32) : fillpUnacklistHashindex x ∈ (range fillpUnackHashSize.toNat).map UInt32.ofNat :=
  mem_map.2 ⟨_, mem_range.2 hashindex_lt, UInt32.ofNat_toNat⟩

theorem unackItems_eq (c : SendCore) :
    c.unackItems = ((range fillpUnackHashSize.toNat).map UInt32.ofNat).flatMap c.unackList :=
  (flatMap_map ..).symm

theorem nodup_indices : ((range fillpUnackHashSize.toNat).map UInt32.ofNat).Nodup := by
  refine nodup_range.map_on fun a ha b hb heq => ?_
  have hlt : ∀ a ∈ range fillpUnackHashSize.toNat, a < size :=
    fun a ha => (mem_range.1 ha).trans fillpUnackHashSize.toNat_lt
  rw [← UInt32.toNat_inj, UInt32.toNat_ofNat_of_lt' (hlt a ha), UInt32.toNat_ofNat_of_lt' (hlt b hb)] at heq
  exact heq

/-- The items of the table after one was put into its list. -/
theorem unackItems_add
    (hperm : l.Perm (i :: c.unackList (fillpUnacklistHashindex (c.seqOf i)))) :
    ({ c with
      unackList := update c.unackList (fillpUnacklistHashindex (c.seqOf i)) l } : SendCore).unackItems.Perm
        (i :: c.unackItems) := by
  rw [unackItems_eq, unackItems_eq]
  have hflat := Buckets.flatMap_update_perm (b := c.unackList) nodup_indices
    (hashindex_mem (c.seqOf i)) hperm
  rwa [update_eq_self] at hflat

end SendCore

namespace Wf

section
variable (h : Wf cfg c hand v)
include h

theorem mem_unackItems : i ∈ c.unackItems ↔ i ∈ c.unackList (fillpUnacklistHashindex (c.seqOf i)) := by
  rw [SendCore.unackItems_eq, mem_flatMap]
  constructor
  · rintro ⟨j, -, hi⟩
    rwa [h.home j i hi]
  · exact fun hi => ⟨_, SendCore.hashindex_mem _, hi⟩

theorem mem_unackItems_of_mem {j : UInt32} (hi : i ∈ c.unackList j) : i ∈ c.unackItems := by
  rw [h.mem_unackItems, h.home j i hi]
  exact hi

theorem live_of_unackList {j : UInt32} (hi : i ∈ c.unackList j) : i ∈ c.live hand v :=
  SendCore.mem_live.2 (.inr (.inl (h.mem_unackItems_of_mem hi)))

theorem nodup_live : (c.live hand v).Nodup := h.distinct.imp fun hne heq => hne (congrArg _ heq)

/-- There are fewer items than numbers in the window. -/
theorem length_live_lt : (c.live hand v).length < 2 ^ 31 := by
  have hnodup : ((c.live hand v).map c.dist).Nodup := pairwise_map.2 h.distinct
  have hsub : (c.live hand v).map c.dist ⊆ (range (2 ^ 31)).erase 0 := by
    intro d hd
    obtain ⟨i, hi, rfl⟩ := mem_map.1 hd
    have hwindow := h.window i hi
    have hspan := h.span_lt
    refine (mem_erase_of_ne (by omega)).2 (mem_range.2 (by omega))
  have hlen := (subperm_of_subset hnodup hsub).length_le
  rw [length_map, length_erase_of_mem (mem_range.2 (by decide)), length_range] at hlen
  omega

theorem length_lt : (v L).length < 2 ^ 32 := by
  have hle : (v L).length ≤ (c.live hand v).length := by
    simp only [SendCore.live, SendCore.listed, length_append]
    cases L <;> omega
  have hlt := h.length_live_lt
  omega

/-- Sequence numbers in the window are compared by how far they are ahead. -/
theorem isbigger_iff (hi : i ∈ c.live hand v) (hx : (x - c.ackSeqNum).toNat < 2 ^ 31) :
    fillpNumIsbigger (c.seqOf i) x = true ↔ (x - c.ackSeqNum).toNat < c.dist i := by
  rw [fillpNumIsbigger, decide_eq_true_eq]
  exact toInt_sub_pos_iff c.ackSeqNum ((h.window i hi).2.trans_lt h.span_lt) hx

end

theorem live_of_mem (hi : i ∈ v L) : i ∈ c.live hand v := SendCore.mem_live.2 (.inr (.inr ⟨L, hi⟩))

theorem seqOf_inj (c : SendCore) : c.seqOf i = c.seqOf j ↔ c.dist i = c.dist j :=
  (toNat_sub_inj c.ackSeqNum).symm

/-! ## Moves -/

/-- The lists change, but no item is added to them. -/
theorem move (h : Wf cfg c hand v)
    (hlive : List.Subperm (({ c with list := list, unackList := unackList, pktSeqMap := pktSeqMap } : SendCore).live hand' v') (c.live hand v))
    (hrepr : ∀ L, (list L).Repr (v' L)) (hsorted : ∀ L, (v' L).Pairwise (c.dist · < c.dist ·))
    (hhome : ∀ j, ∀ i ∈ unackList j, fillpUnacklistHashindex (c.seqOf i) = j)
    (hbucket : ∀ j, (unackList j).Pairwise (c.dist · < c.dist ·))
    (hmapped : ∀ j, ∀ i ∈ pktSeqMap j, cfg.pktIndex (c.pktOf i) = j ∧ i ∈ ({ c with unackList := unackList } : SendCore).unackItems)
    (hmapAll : ∀ i ∈ ({ c with unackList := unackList } : SendCore).unackItems, i ∈ pktSeqMap (cfg.pktIndex (c.pktOf i)))
    (hmapSorted : ∀ j, (pktSeqMap j).Pairwise (c.pktDist · > c.pktDist ·))
    (hpkt : ∀ i ∈ ({ c with unackList := unackList } : SendCore).unackItems, c.pktDist i < 2 ^ 31) :
    Wf cfg { c with list := list, unackList := unackList, pktSeqMap := pktSeqMap } hand' v' where
  repr := hrepr
  sorted := hsorted
  distinct := by
    obtain ⟨l, hperm, hsub⟩ := hlive
    exact (hperm.pairwise_iff Ne.symm).1 (h.distinct.sublist hsub)
  window i hi := h.window i (hlive.subset hi)
  span_lt := h.span_lt
  maxAck := h.maxAck
  home := hhome
  bucket := hbucket
  mapped := hmapped
  mapAll := hmapAll
  mapSorted := hmapSorted
  pkt := hpkt
  unsent :=
    { h.unsent with
      old := fun i hi => h.unsent.old i (hlive.subset hi)
      notMem := fun i hi hmem => h.unsent.notMem i hi (hlive.subset hmem) }

/-- Only the skip lists change. -/
theorem moveList (h : Wf cfg c hand v)
    (hlive : List.Subperm (hand' ++ SendCore.listed v') (hand ++ SendCore.listed v))
    (hrepr : ∀ L, (list L).Repr (v' L)) (hsorted : ∀ L, (v' L).Pairwise (c.dist · < c.dist ·)) :
    Wf cfg { c with list := list } hand' v' := by
  refine h.move ?_ hrepr hsorted h.home h.bucket h.mapped h.mapAll h.mapSorted h.pkt
  have hperm : ∀ (hand : List ℕ) (v : SendList → List ℕ),
      (c.live hand v).Perm (c.unackItems ++ (hand ++ SendCore.listed v)) := fun hand v => by
    rw [← append_assoc]
    exact perm_append_comm.append_right _
  exact ((hperm hand' v').subperm_right.2 ((subperm_append_left _).2 hlive)).trans (hperm hand v).symm.subperm

section
variable (h : Wf cfg c (i :: hand) v)
include h in
theorem release : Wf cfg c hand v := h.moveList (sublist_cons_self ..).subperm h.repr h.sorted

/-- One skip list changes. -/
theorem setList {new : SkipList ℕ} (h : Wf cfg c hand v)
    (hlive : List.Subperm (hand' ++ SendCore.listed (update v L l)) (hand ++ SendCore.listed v))
    (hrepr : new.Repr l) (hsorted : l.Pairwise (c.dist · < c.dist ·)) :
    Wf cfg { c with list := update c.list L new } hand' (update v L l) := by
  refine h.moveList hlive (fun L' => ?_) fun L' => ?_
  · by_cases hL : L' = L
    · subst hL
      rw [update_self, update_self]
      exact hrepr
    · rw [update_of_ne hL, update_of_ne hL]
      exact h.repr L'
  · by_cases hL : L' = L
    · subst hL
      rw [update_self]
      exact hsorted
    · rw [update_of_ne hL]
      exact h.sorted L'

theorem pop (h : Wf cfg c hand v) (hv : v L = i :: l) :
    (c.list L).skipListPopValue.1 = some i ∧
      Wf cfg { c with list := update c.list L (c.list L).skipListPopValue.2 } (i :: hand)
        (update v L l) := by
  have hpop := (hv ▸ h.repr L).popValue_cons
  refine ⟨hpop.1, h.setList ?_ hpop.2 (pairwise_cons.1 (hv ▸ h.sorted L)).2⟩
  have hperm := SendCore.listed_update_perm (v := v) (L := L) (List.Perm.refl (i :: l))
  rw [← hv, update_eq_self] at hperm
  exact ((perm_middle.symm.trans (hperm.symm.append_left hand))).subperm

include h in
/-- An item in hand is compared with the items of a list. -/
theorem compares :
    SkipList.Compares (fun a b => fillpSkiplistCmp (c.seqOf a) (c.seqOf b)) c.dist i (v L) := by
  have hi : i ∈ c.live (i :: hand) v := SendCore.mem_live.2 (.inl mem_cons_self)
  have hmem : ∀ a ∈ v L, a ∈ c.live (i :: hand) v := fun a ha => live_of_mem ha
  have hlt : ∀ a ∈ c.live (i :: hand) v, c.dist a < 2 ^ 31 := fun a ha => (h.window a ha).2.trans_lt h.span_lt
  have hpos : ∀ a ∈ c.live (i :: hand) v, ∀ b ∈ c.live (i :: hand) v,
      (c.seqOf a - c.seqOf b).toInt32.toInt > 0 ↔ c.dist b < c.dist a :=
    fun a ha b hb => toInt_sub_pos_iff c.ackSeqNum (hlt a ha) (hlt b hb)
  constructor
  · exact fun a ha => fillpSkiplistCmp_pos.trans (hpos i hi a (hmem a ha))
  · exact fun a ha => fillpSkiplistCmp_pos.trans (hpos a (hmem a ha) i hi)
  · intro a ha hle
    refine (fillpSkiplistCmp_eq_zero fun hne => ?_).trans (seqOf_inj c)
    exact (hpos a (hmem a ha) i hi).2 (lt_of_le_of_ne hle fun heq => hne ((seqOf_inj c).2 heq.symm))

include h in
/-- An item in hand has a number that no other item has. -/
theorem dist_ne (hj : j ∈ c.unackItems ∨ ∃ L, j ∈ v L) : c.dist i ≠ c.dist j := by
  refine (pairwise_cons.1 h.distinct).1 j ?_
  exact SendCore.mem_live.2 (.inr hj)

include h in
theorem insert :
    ((c.list L).skipListInsert (fun a b => fillpSkiplistCmp (c.seqOf a) (c.seqOf b)) i true).1 = .ok ∧
      Wf cfg
        { c with
          list := update c.list L
            ((c.list L).skipListInsert (fun a b => fillpSkiplistCmp (c.seqOf a) (c.seqOf b)) i true).2 }
        hand (update v L ((v L).orderedInsert (c.dist · ≤ c.dist ·) i)) := by
  have hne : ∀ a ∈ v L, c.dist i ≠ c.dist a := fun a ha => h.dist_ne (.inr ⟨L, ha⟩)
  have hins := (h.repr L).insert (fun hi => hne i hi rfl) ((h.sorted L).imp Nat.le_of_lt) h.compares true
  rw [if_neg (by rintro ⟨-, a, ha, heq⟩; exact hne a ha heq.symm)] at hins
  have hperm := perm_orderedInsert (c.dist · ≤ c.dist ·) i (v L)
  refine ⟨hins.1, h.setList ?_ hins.2 ?_⟩
  · have hlisted := SendCore.listed_update_perm (v := v) (L := L) hperm
    rw [update_eq_self] at hlisted
    exact ((hlisted.append_left hand).trans perm_middle).subperm
  · have hle := ((h.sorted L).imp Nat.le_of_lt).orderedInsert i (v L)
    have hdist : ((v L).orderedInsert (c.dist · ≤ c.dist ·) i).Pairwise (c.dist · ≠ c.dist ·) :=
      (hperm.pairwise_iff Ne.symm).2 (pairwise_cons.2 ⟨hne, (h.sorted L).imp Nat.ne_of_lt⟩)
    exact (hle.and hdist).imp fun h => lt_of_le_of_ne h.1 h.2

/-- An item leaves the table of the items that are not acknowledged. -/
theorem takeUnack (h : Wf cfg c hand v)
    (hperm : c.unackItems.Perm (i :: ({ c with unackList := unackList } : SendCore).unackItems))
    (hunack : ∀ j, (unackList j).Sublist (c.unackList j)) (hmap : ∀ j, (pktSeqMap j).Sublist (c.pktSeqMap j))
    (hi : ∀ j, i ∉ pktSeqMap j) (hkeep : ∀ j, ∀ a ∈ c.pktSeqMap j, a ≠ i → a ∈ pktSeqMap j) :
    Wf cfg { c with unackList := unackList, pktSeqMap := pktSeqMap } (i :: hand) v := by
  have hmem : ∀ {a}, a ∈ ({ c with unackList := unackList } : SendCore).unackItems → a ∈ c.unackItems :=
    fun ha => hperm.mem_iff.2 (mem_cons_of_mem _ ha)
  refine h.move ?_ h.repr h.sorted (fun j a ha => h.home j a ((hunack j).subset ha))
    (fun j => (h.bucket j).sublist (hunack j)) ?_ ?_ (fun j => (h.mapSorted j).sublist (hmap j)) fun a ha => h.pkt a (hmem ha)
  · have hlive : (c.live hand v).Perm
        (({ c with unackList := unackList, pktSeqMap := pktSeqMap } : SendCore).live (i :: hand) v) :=
      ((hperm.append_left hand).trans perm_middle).append_right _
    exact hlive.symm.subperm
  · intro j a ha
    obtain ⟨hidx, ha'⟩ := h.mapped j a ((hmap j).subset ha)
    exact ⟨hidx, (mem_cons.1 (hperm.mem_iff.1 ha')).resolve_left (ne_of_mem_of_not_mem ha (hi j))⟩
  · -- The table has no item twice, so that the one taken out is not left in it.
    intro a ha
    have hnodup : c.unackItems.Nodup := (nodup_append.1 (nodup_append.1 h.nodup_live).1).2.1
    have hne : a ≠ i := ne_of_mem_of_not_mem ha (nodup_cons.1 (hperm.nodup_iff.1 hnodup)).1
    exact hkeep _ a (h.mapAll a (hmem ha)) hne

include h in
/-- An item in hand that was sent just now is put into the table. -/
theorem addUnack
    (hperm : l.Perm (i :: c.unackList (fillpUnacklistHashindex (c.seqOf i)))) (hsorted : l.Pairwise (c.dist · < c.dist ·))
    (hi : c.pktDist i = 0) (hpkt : ∀ a ∈ c.unackItems, 0 < c.pktDist a) :
    Wf cfg
      { c with
        unackList := update c.unackList (fillpUnacklistHashindex (c.seqOf i)) l
        pktSeqMap := update c.pktSeqMap (cfg.pktIndex (c.pktOf i))
          (c.pktSeqMap (cfg.pktIndex (c.pktOf i)) ++ [i]) } hand v := by
  have hitems := SendCore.unackItems_add (c := c) hperm
  have hold : ∀ {a}, a ∈ c.unackItems → a ∈ ({ c with
      unackList := update c.unackList (fillpUnacklistHashindex (c.seqOf i)) l } : SendCore).unackItems :=
    fun ha => hitems.mem_iff.2 (mem_cons_of_mem _ ha)
  refine h.move ?_ h.repr h.sorted ?_ ?_ ?_ ?_ ?_ ?_
  · have hlive := ((hitems.append_left hand).trans perm_middle).append_right (SendCore.listed v)
    exact hlive.subperm
  · intro j a ha
    by_cases hj : j = fillpUnacklistHashindex (c.seqOf i)
    · subst hj
      rw [update_self] at ha
      rcases mem_cons.1 (hperm.mem_iff.1 ha) with rfl | ha
      · rfl
      · exact h.home _ a ha
    · rw [update_of_ne hj] at ha
      exact h.home j a ha
  · intro j
    by_cases hj : j = fillpUnacklistHashindex (c.seqOf i)
    · subst hj
      rw [update_self]
      exact hsorted
    · rw [update_of_ne hj]
      exact h.bucket j
  · intro j a ha
    by_cases hj : j = cfg.pktIndex (c.pktOf i)
    · subst hj
      rw [update_self] at ha
      rcases mem_append.1 ha with ha | ha
      · exact ⟨(h.mapped _ a ha).1, hold (h.mapped _ a ha).2⟩
      · obtain rfl := mem_singleton.1 ha
        exact ⟨rfl, hitems.mem_iff.2 mem_cons_self⟩
    · rw [update_of_ne hj] at ha
      exact ⟨(h.mapped j a ha).1, hold (h.mapped j a ha).2⟩
  · intro a ha
    by_cases hj : cfg.pktIndex (c.pktOf a) = cfg.pktIndex (c.pktOf i)
    · rw [hj, update_self, mem_append, mem_singleton]
      rcases mem_cons.1 (hitems.mem_iff.1 ha) with rfl | ha
      · exact .inr rfl
      · exact .inl (hj ▸ h.mapAll a ha)
    · rw [update_of_ne hj]
      rcases mem_cons.1 (hitems.mem_iff.1 ha) with rfl | ha
      · exact absurd rfl hj
      · exact h.mapAll a ha
  · intro j
    by_cases hj : j = cfg.pktIndex (c.pktOf i)
    · subst hj
      rw [update_self, pairwise_append]
      refine ⟨h.mapSorted _, pairwise_singleton .., fun a ha b hb => ?_⟩
      rw [mem_singleton.1 hb, hi]
      exact hpkt a (h.mapped _ a ha).2
    · rw [update_of_ne hj]
      exact h.mapSorted j
  · intro a ha
    rcases mem_cons.1 (hitems.mem_iff.1 ha) with rfl | ha
    · rw [hi]
      decide
    · exact h.pkt a ha

/-! ## Numbers -/

/-- Fields of items that are nowhere, or packet numbers of items that are not in the table. -/
theorem congr_of (h : Wf cfg c hand v) (seqOf pktOf : ℕ → UInt32) (hseq : ∀ a ∈ c.live hand v, seqOf a = c.seqOf a)
    (hpkt : ∀ a ∈ c.unackItems, pktOf a = c.pktOf a) :
    Wf cfg { c with seqOf := seqOf, pktOf := pktOf } hand v := by
  have hdist : ∀ a ∈ c.live hand v, ({ c with seqOf := seqOf, pktOf := pktOf } : SendCore).dist a = c.dist a :=
    fun a ha => congrArg (fun x => (x - c.ackSeqNum).toNat) (hseq a ha)
  have hpktDist : ∀ a ∈ c.unackItems, ({ c with seqOf := seqOf, pktOf := pktOf } : SendCore).pktDist a = c.pktDist a :=
    fun a ha => congrArg (fun x => (c.pktNum - x).toNat) (hpkt a ha)
  exact { h with
    sorted := fun L => (h.sorted L).imp_of_mem fun ha hb hlt => by
      rwa [hdist _ (live_of_mem ha), hdist _ (live_of_mem hb)]
    distinct := h.distinct.imp_of_mem fun ha hb hne => by rwa [hdist _ ha, hdist _ hb]
    window := fun a ha => by
      rw [hdist a ha]
      exact h.window a ha
    home := fun j a ha => (congrArg _ (hseq a (h.live_of_unackList ha))).trans (h.home j a ha)
    bucket := fun j => (h.bucket j).imp_of_mem fun ha hb hlt => by
      rwa [hdist _ (h.live_of_unackList ha), hdist _ (h.live_of_unackList hb)]
    mapped := fun j a ha => ⟨(congrArg _ (hpkt a (h.mapped j a ha).2)).trans (h.mapped j a ha).1, (h.mapped j a ha).2⟩
    mapAll := fun a ha => by
      rw [show cfg.pktIndex (pktOf a) = cfg.pktIndex (c.pktOf a) from congrArg _ (hpkt a ha)]
      exact h.mapAll a ha
    mapSorted := fun j => (h.mapSorted j).imp_of_mem fun ha hb hlt => by
      rwa [hpktDist _ (h.mapped j _ ha).2, hpktDist _ (h.mapped j _ hb).2]
    pkt := fun a ha => by
      rw [hpktDist a ha]
      exact h.pkt a ha
    unsent := { h.unsent with } }

include h in
/-- An item in hand is not in the table. -/
theorem notMem_unackItems : i ∉ c.unackItems := fun hi => h.dist_ne (.inl hi) rfl

include h in
theorem setPkt (pktNum : UInt32) : Wf cfg { c with pktOf := update c.pktOf i pktNum } (i :: hand) v :=
  h.congr_of c.seqOf _ (fun _ _ => rfl) fun _ ha => update_of_ne (ne_of_mem_of_not_mem ha h.notMem_unackItems) ..

end

section
variable (h : Wf cfg c hand v)
include h

/-- The next packet number. -/
theorem nextPkt (hroom : ∀ a ∈ c.unackItems, c.pktDist a + 1 < 2 ^ 31) :
    Wf cfg { c with pktNum := c.pktNum + 1 } hand v ∧
      ∀ a ∈ c.unackItems, 0 < ({ c with pktNum := c.pktNum + 1 } : SendCore).pktDist a := by
  have hdist : ∀ a ∈ c.unackItems, ({ c with pktNum := c.pktNum + 1 } : SendCore).pktDist a = c.pktDist a + 1 := by
    intro a ha
    have hlt := hroom a ha
    exact toNat_add_sub (d := 1) _ (hlt.trans (by decide))
  refine ⟨?_, fun a ha => by rw [hdist a ha]; exact Nat.succ_pos _⟩
  exact {
    h with
    mapSorted := fun j => (h.mapSorted j).imp_of_mem fun ha hb hlt => by
      rw [hdist _ (h.mapped j _ ha).2, hdist _ (h.mapped j _ hb).2]
      exact Nat.succ_lt_succ hlt
    pkt := fun a ha => by
      rw [hdist a ha]
      exact hroom a ha
    unsent := { h.unsent with } }

/-- An item from `unSendList` gets the next sequence number. -/
theorem sendNew {rest : List ℕ} (hlist : c.unSendList = i :: rest)
    (hroom : c.span + (c.lenOf i).toNat < 2 ^ 31) :
    Wf cfg
      { c with
        unSendList := rest
        seqNum := c.seqNum + (c.lenOf i).toUInt32
        seqOf := update c.seqOf i (c.seqNum + (c.lenOf i).toUInt32) } (i :: hand) v := by
  have hi : i ∈ c.unSendList := hlist ▸ mem_cons_self
  have hlen : 0 < (c.lenOf i).toNat := Nat.pos_of_ne_zero fun h0 => h.unsent.pos i hi (UInt16.toNat_inj.1 h0)
  have hspan : (c.seqNum + (c.lenOf i).toUInt32 - c.ackSeqNum).toNat = c.span + (c.lenOf i).toNat :=
    toNat_add_sub _ (hroom.trans (by decide))
  have hother := h.congr_of (update c.seqOf i (c.seqNum + (c.lenOf i).toUInt32)) c.pktOf
    (fun a ha => update_of_ne (ne_of_mem_of_not_mem ha (h.unsent.notMem i hi)) ..) fun _ _ => rfl
  have hnew : (update c.seqOf i (c.seqNum + (c.lenOf i).toUInt32) i - c.ackSeqNum).toNat =
      c.span + (c.lenOf i).toNat := by
    rw [update_self]
    exact hspan
  -- All other items have smaller numbers.
  have hle : ∀ a ∈ c.live hand v,
      (update c.seqOf i (c.seqNum + (c.lenOf i).toUInt32) a - c.ackSeqNum).toNat ≤ c.span :=
    fun a ha => (hother.window a ha).2
  have hnodup := nodup_cons.1 (hlist ▸ h.unsent.nodup)
  have hrest : ∀ a ∈ rest, a ∈ c.unSendList := fun a ha => hlist ▸ mem_cons_of_mem i ha
  exact {
    hother with
    distinct := by
      refine pairwise_cons.2 ⟨fun a ha heq => ?_, hother.distinct⟩
      have hle' := (hnew.symm.trans heq).le.trans (hle a ha)
      omega
    window := by
      refine forall_mem_cons.2 ⟨⟨?_, ?_⟩, fun a ha => ⟨(hother.window a ha).1, ?_⟩⟩
      · exact Nat.lt_of_lt_of_eq (by omega) hnew.symm
      · exact (hnew.trans hspan.symm).le
      · exact (hle a ha).trans ((Nat.le_add_right ..).trans hspan.ge)
    span_lt := hspan.trans_lt hroom
    maxAck := h.maxAck.trans ((Nat.le_add_right ..).trans hspan.ge)
    unsent :=
      { old := forall_mem_cons.2 ⟨h.unsent.lt i hi, h.unsent.old⟩
        nodup := hnodup.2
        notMem := fun a ha hmem => by
          rcases mem_cons.1 hmem with rfl | hmem
          · exact hnodup.1 ha
          · exact h.unsent.notMem a (hrest a ha) hmem
        lt := fun a ha => h.unsent.lt a (hrest a ha)
        pos := fun a ha => h.unsent.pos a (hrest a ha) } }

/-- The application writes data. -/
theorem write {seqNum pktNum : UInt32} {dataLen : UInt16} (hlen : dataLen ≠ 0) :
    Wf cfg
      { c with
        seqOf := update c.seqOf c.itemNum seqNum
        pktOf := update c.pktOf c.itemNum pktNum
        lenOf := update c.lenOf c.itemNum dataLen
        itemNum := c.itemNum + 1
        unSendList := c.unSendList ++ [c.itemNum] } hand v := by
  have hlive : ∀ a ∈ c.live hand v, a ≠ c.itemNum := fun a ha => Nat.ne_of_lt (h.unsent.old a ha)
  have hother := h.congr_of (update c.seqOf c.itemNum seqNum)
    (update c.pktOf c.itemNum pktNum) (fun a ha => update_of_ne (hlive a ha) ..)
    fun a ha => update_of_ne (hlive a (SendCore.mem_live.2 (.inr (.inl ha)))) ..
  have hunsent : ∀ a ∈ c.unSendList, a ≠ c.itemNum := fun a ha => Nat.ne_of_lt (h.unsent.lt a ha)
  exact {
    hother with
    unsent :=
      { old := fun a ha => Nat.lt_succ_of_lt (h.unsent.old a ha)
        nodup := nodup_append.2 ⟨h.unsent.nodup, nodup_singleton _, fun a ha b hb =>
          mem_singleton.1 hb ▸ hunsent a ha⟩
        notMem := by
          intro a ha hmem
          rcases mem_append.1 ha with ha | ha
          · exact h.unsent.notMem a ha hmem
          · exact hlive a hmem (mem_singleton.1 ha)
        lt := by
          intro a ha
          rcases mem_append.1 ha with ha | ha
          · exact Nat.lt_succ_of_lt (h.unsent.lt a ha)
          · exact mem_singleton.1 ha ▸ Nat.lt_succ_self _
        pos := by
          intro a ha
          rcases mem_append.1 ha with ha | ha
          · show update c.lenOf c.itemNum dataLen a ≠ 0
            rw [update_of_ne (hunsent a ha)]
            exact h.unsent.pos a ha
          · show update c.lenOf c.itemNum dataLen a ≠ 0
            rw [mem_singleton.1 ha, update_self]
            exact hlen } }

/-- The order does not depend on the number from which the distances are counted, as long as it is behind all
    items. -/
theorem rebase (base : UInt32)
    (hwindow : ∀ i ∈ c.live hand v, 0 < (c.seqOf i - base).toNat ∧ (c.seqOf i - base).toNat ≤ (c.seqNum - base).toNat)
    (hspan : (c.seqNum - base).toNat < 2 ^ 31) (hmax : (c.maxAck - base).toNat ≤ (c.seqNum - base).toNat) :
    Wf cfg { c with ackSeqNum := base } hand v := by
  have hlt : ∀ {a b}, a ∈ c.live hand v → b ∈ c.live hand v →
      (c.dist a < c.dist b ↔ (c.seqOf a - base).toNat < (c.seqOf b - base).toNat) := by
    intro a b ha hb
    have hold := toInt_sub_pos_iff c.ackSeqNum ((h.window b hb).2.trans_lt h.span_lt)
      ((h.window a ha).2.trans_lt h.span_lt)
    exact hold.symm.trans
      (toInt_sub_pos_iff base ((hwindow b hb).2.trans_lt hspan) ((hwindow a ha).2.trans_lt hspan))
  exact {
    h with
    sorted := fun L => (h.sorted L).imp_of_mem fun ha hb => (hlt (live_of_mem ha) (live_of_mem hb)).1
    distinct := h.distinct.imp_of_mem fun {a b} ha hb hne heq =>
      hne ((seqOf_inj c).1 ((toNat_sub_inj base).1 heq))
    window := hwindow
    span_lt := hspan
    maxAck := hmax
    bucket := fun j => (h.bucket j).imp_of_mem fun ha hb => (hlt (h.live_of_unackList ha) (h.live_of_unackList hb)).1
    unsent := { h.unsent with } }

/-- The acknowledged number moves on to `maxAck`, when all items up to it have been released. -/
theorem advance (hdone : ∀ i ∈ c.live hand v, (c.maxAck - c.ackSeqNum).toNat < c.dist i) :
    Wf cfg { c with ackSeqNum := c.maxAck } hand v := by
  have hspan : (c.seqNum - c.maxAck).toNat = c.span - (c.maxAck - c.ackSeqNum).toNat :=
    toNat_sub_sub _ h.maxAck
  refine h.rebase c.maxAck (fun i hi => ?_) (hspan ▸ (Nat.sub_le ..).trans_lt h.span_lt) ?_
  · have hdist : (c.seqOf i - c.maxAck).toNat = c.dist i - (c.maxAck - c.ackSeqNum).toNat :=
      toNat_sub_sub _ (hdone i hi).le
    have := hdone i hi
    have := (h.window i hi).2
    omega
  · rw [UInt32.sub_self]
    exact Nat.zero_le _

end
end Wf
end SoftBus.Native
