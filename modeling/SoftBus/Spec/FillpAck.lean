import SoftBus.Spec.FillpSendWf

/-!
# Releasing acknowledged items

`FillpAckUnackList` releases the items up to a number: all of those in the skip lists, and those in the table
until `cntLimit` items have been released.  The table is gone through from the list of the old acknowledged
number to the list of the new one, and the items up to the new number are in these lists.

## Main results

- `Wf.ackListLoop`, `Wf.ackBuckets`: which items the loops release
- `mem_ackIndices`: the lists of the table that are gone through are enough
- `Wf.fillpAckUnackList`: what is left after a call
-/

namespace SoftBus.Native
open Function List FillpSendPcb SendCore
variable {j : UInt32} {l rest : List ℕ} {c : SendCore} {cntLimit : Int} {count : ℕ} {s' : FillpSendPcb}
  {r : ℕ × FillpSendPcb}
variable {cfg : SendConfig} {s : FillpSendPcb} {hand : List ℕ} {v : SendList → List ℕ} {L : SendList} {i : ℕ}
  {x : UInt32} {m : ℕ}

namespace FillpSendPcb

/-- Counters of an item do not matter to the lists. -/
theorem core_setItem {f : SendItem → SendItem} (hseq : (f (s.item i)).seqNum = (s.item i).seqNum)
    (hpkt : (f (s.item i)).pktNum = (s.item i).pktNum) (hlen : (f (s.item i)).dataLen = (s.item i).dataLen) :
    (s.setItem i f).core = s.core := by
  have hself : ∀ {β : Type} (g : ℕ → β), update g i (g i) = g := fun g => update_eq_self i g
  rw [setItem, core_update, hseq, hpkt, hlen]
  show { s.core with
    seqOf := update s.core.seqOf i (s.core.seqOf i)
    pktOf := update s.core.pktOf i (s.core.pktOf i)
    lenOf := update s.core.lenOf i (s.core.lenOf i) } = s.core
  rw [hself, hself, hself]

theorem core_landItem : (s.landItem i).core = s.core := core_setItem rfl rfl rfl

end FillpSendPcb

section
variable (h : Wf cfg s.core hand v) (hx : (x - s.ackSeqNum).toNat = m) (hm : m < 2 ^ 31)
include h hx hm in
/-- An item is after the number `x`, which is `m` ahead of the acknowledged one. -/
theorem Wf.isbigger_item (hi : i ∈ s.core.live hand v) :
    fillpNumIsbigger (s.item i).seqNum x = true ↔ m < s.core.dist i := by
  rw [← hx]
  exact h.isbigger_iff hi (hx.trans_lt hm)

/-! ## The skip lists -/

include h hx hm in
/-- One of the skip lists is emptied up to the first item after the number `x`. -/
theorem Wf.ackListLoop {n : ℕ} (hn : (v L).length ≤ n) :
    ∃ list, (ackListLoop L x n s).2.core = { s.core with list := list } ∧
      Wf cfg { s.core with list := list } hand (update v L ((v L).filter (m < s.core.dist ·))) ∧
      (ackListLoop L x n s).1 = (v L).countP (s.core.dist · ≤ m) := by
  induction n generalizing s v with
  | zero =>
    have hnil : v L = [] := length_eq_zero_iff.1 (Nat.le_zero.1 hn)
    refine ⟨s.list, rfl, ?_, by rw [hnil]; rfl⟩
    rw [hnil, filter_nil, ← hnil, update_eq_self]
    exact h
  | succ n ih =>
    rw [ackListLoop, SkipList.skipListGetPop, show (s.list L).head = (v L).head? from (h.repr L).head]
    cases hv : v L with
    | nil =>
      refine ⟨s.list, rfl, ?_, rfl⟩
      rw [filter_nil, ← hv, update_eq_self]
      exact h
    | cons i l =>
      have hi : i ∈ s.core.live hand v := mem_live.2 (.inr (.inr ⟨L, hv ▸ mem_cons_self⟩))
      have hbig := h.isbigger_item hx hm hi
      have hsorted := pairwise_cons.1 (hv ▸ h.sorted L)
      simp only [head?_cons]
      by_cases hle : m < s.core.dist i
      · -- The first item is after the number, and so are all others.
        have hall : ∀ a ∈ i :: l, m < s.core.dist a :=
          forall_mem_cons.2 ⟨hle, fun a ha => hle.trans (hsorted.1 a ha)⟩
        rw [if_pos (hbig.2 hle)]
        refine ⟨s.list, rfl, ?_, ?_⟩
        · rw [filter_eq_self.2 fun a ha => by simpa using hall a ha, ← hv, update_eq_self]
          exact h
        · exact (countP_eq_zero.2 fun a ha => by simpa using hall a ha).symm
      · rw [if_neg fun hb => hle (hbig.1 hb)]
        have hpop := (h.pop hv).2.release
        -- The state with which the loop goes on differs by counters from the one after the item was taken out.
        generalize hs' : (if L = SendList.itemWaitTokenLists then (s.pop L).2
          else { (s.pop L).2 with
            unrecvRedunListBytes := (s.pop L).2.unrecvRedunListBytes -
              ((s.pop L).2.item i).dataLen.toUInt64 }).landItem i = s'
        have hcore : s'.core = { s.core with list := update s.list L (s.list L).skipListPopValue.2 } := by
          rw [← hs', core_landItem]
          split <;> rfl
        rw [show { s.core with list := update s.core.list L (s.core.list L).skipListPopValue.2 } = s'.core from
          hcore.symm] at hpop
        have hdist : s'.core.dist = s.core.dist := by rw [hcore]; rfl
        have hack : s'.ackSeqNum = s.ackSeqNum := congrArg SendCore.ackSeqNum hcore
        obtain ⟨list, hcore', hwf, hcount⟩ := ih hpop (by rw [hack, hx]) (by
          rw [update_self]
          rw [hv] at hn
          exact Nat.le_of_succ_le_succ hn)
        rw [update_self] at hcount
        rw [update_self, update_idem] at hwf
        refine ⟨list, ?_, ?_, ?_⟩
        · rw [hcore', hcore]
        · rw [filter_cons_of_neg (by simpa using hle)]
          rw [hcore] at hwf
          exact hwf
        · rw [hcount, hdist, countP_cons_of_pos (by simpa using hle)]

/-! ## The table -/

/-- How many items of the table are at most `m` ahead. -/
def SendCore.acked (c : SendCore) (m : ℕ) : ℕ := c.unackItems.countP (c.dist · ≤ m)

/-- Items up to the one that is `m` ahead have been released from the table, and counted. -/
structure Released (cfg : SendConfig) (hand : List ℕ) (v : SendList → List ℕ) (m count : ℕ) (s : FillpSendPcb)
    (r : ℕ × FillpSendPcb) : Prop where
  core : r.2.core = { s.core with unackList := r.2.unackList, pktSeqMap := r.2.pktSeqMap }
  wf : Wf cfg r.2.core hand v
  sublist : ∀ j, (r.2.unackList j).Sublist (s.unackList j)
  count : r.1 + r.2.core.acked m = count + s.core.acked m

namespace Released
variable {r' : ℕ × FillpSendPcb}

theorem refl (h : Wf cfg s.core hand v) : Released cfg hand v m count s (count, s) :=
  ⟨rfl, h, fun _ => List.Sublist.refl _, rfl⟩

section
variable (hr : Released cfg hand v m count s r)
include hr

theorem trans (h' : Released cfg hand v m r.1 r.2 r') :
    Released cfg hand v m count s r' where
  core := by rw [h'.core, hr.core]
  wf := h'.wf
  sublist j := (h'.sublist j).trans (hr.sublist j)
  count := h'.count.trans hr.count

theorem dist_eq : r.2.core.dist = s.core.dist := by rw [hr.core]; rfl

theorem ackSeqNum_eq : r.2.ackSeqNum = s.ackSeqNum := congrArg SendCore.ackSeqNum hr.core

end
end Released

/-- The first item of a list of the table leaves it. -/
theorem Wf.unackItems_head (h : Wf cfg s.core hand v) (hj : s.unackList j = i :: rest) :
    s.core.unackItems.Perm
      (i :: ({ s.core with unackList := update s.unackList j rest } : SendCore).unackItems) := by
  have hidx : j ∈ (range fillpUnackHashSize.toNat).map UInt32.ofNat := by
    rw [← h.home j i (show i ∈ s.unackList j from hj ▸ mem_cons_self)]
    exact hashindex_mem _
  have hflat := Buckets.flatMap_update_perm (b := s.unackList) nodup_indices hidx (List.Perm.refl (i :: rest))
  rw [← hj, update_eq_self] at hflat
  rw [unackItems_eq, unackItems_eq]
  exact hflat

/-- A node is in no list after it was taken out of the one it is in. -/
theorem Wf.notMem_hlistDelNode (h : Wf cfg c hand v) (i : ℕ) (j : UInt32) :
    i ∉ hlistDelNode c.pktSeqMap i j := by
  have hnodup : (c.pktSeqMap j).Nodup := (h.mapSorted j).imp fun hgt heq => Nat.ne_of_gt hgt (congrArg _ heq)
  exact hnodup.not_mem_erase

/-- A node is taken out of the list of the table that it is in. -/
theorem Wf.unackItems_hlistDelNode (h : Wf cfg c hand v) (hi : i ∈ c.unackItems) :
    c.unackItems.Perm
      (i :: ({ c with unackList := hlistDelNode c.unackList i } : SendCore).unackItems) := by
  have hmem := h.mem_unackItems.1 hi
  have heq : hlistDelNode c.unackList i = update c.unackList (fillpUnacklistHashindex (c.seqOf i))
        ((c.unackList (fillpUnacklistHashindex (c.seqOf i))).erase i) := by
    funext j
    rw [hlistDelNode]
    by_cases hj : j = fillpUnacklistHashindex (c.seqOf i)
    · rw [hj, update_self]
    · rw [update_of_ne hj, erase_of_not_mem fun hmem => hj (h.home j i hmem).symm]
  have hflat := Buckets.flatMap_update_perm (b := c.unackList) nodup_indices (hashindex_mem (c.seqOf i))
    (perm_cons_erase hmem)
  rw [update_eq_self] at hflat
  rw [unackItems_eq, unackItems_eq, heq]
  exact hflat

theorem update_sublist {f : UInt32 → List ℕ} (h : l.Sublist (f j)) (k : UInt32) :
    (update f j l k).Sublist (f k) := by
  by_cases hk : k = j
  · subst hk
    rw [update_self]
    exact h
  · rw [update_of_ne hk]

theorem Wf.freeUnackList (h : Wf cfg s.core hand v) (count : ℕ) (hj : s.unackList j = i :: rest)
    (hi : s.core.dist i ≤ m) :
    Released cfg hand v m count s (count + 1, s.freeUnackList j i rest) := by
  have hcore : (s.freeUnackList j i rest).core = { s.core with
        unackList := update s.unackList j rest
        pktSeqMap := hlistDelNode s.pktSeqMap i } := core_landItem ..
  have hsub : ∀ k, (update s.unackList j rest k).Sublist (s.unackList k) :=
    update_sublist (hj ▸ sublist_cons_self i rest)
  have hperm := h.unackItems_head hj
  constructor
  · exact hcore
  · rw [hcore]
    exact (h.takeUnack hperm hsub (fun k => erase_sublist) (h.notMem_hlistDelNode i)
      fun k a ha hne => (mem_erase_of_ne hne).2 ha).release
  · intro k
    exact hsub k
  · have hcount := hperm.countP_eq (s.core.dist · ≤ m)
    rw [countP_cons_of_pos (by simpa using hi)] at hcount
    show count + 1 + (s.freeUnackList j i rest).core.acked m = count + s.core.acked m
    rw [hcore, acked, acked, hcount]
    exact (Nat.add_assoc ..).trans (congrArg _ (Nat.add_comm ..))

theorem limitReached_eq_false :
    limitReached cntLimit count = false ↔ cntLimit ≤ 0 ∨ (count : Int) < cntLimit := by
  simp only [limitReached, Bool.and_eq_false_iff, decide_eq_false_iff_not]
  omega

theorem limitReached_eq_true :
    limitReached cntLimit count = true ↔ 0 < cntLimit ∧ cntLimit ≤ count := by
  simp only [limitReached, Bool.and_eq_true, decide_eq_true_eq]

include h hx hm in
/-- A list of the table is emptied up to the first item after the number `x`, if `cntLimit` does not end the loop
    before. -/
theorem Wf.ackBucket (hl : s.unackList j = l) (hlim : limitReached cntLimit count = false) :
    Released cfg hand v m count s (ackBucket x cntLimit j l count s).2 ∧
      if (ackBucket x cntLimit j l count s).1 then
        0 < cntLimit ∧ ((ackBucket x cntLimit j l count s).2.1 : Int) = cntLimit
      else
        limitReached cntLimit (ackBucket x cntLimit j l count s).2.1 = false ∧
          ∀ a ∈ (ackBucket x cntLimit j l count s).2.2.unackList j, m < s.core.dist a := by
  induction l generalizing s count with
  | nil =>
    refine ⟨.refl h, hlim, fun a ha => ?_⟩
    rw [ackBucket, hl] at ha
    exact absurd ha not_mem_nil
  | cons i rest ih =>
    have hmem : ∀ a ∈ s.unackList j, a ∈ s.core.live hand v :=
      fun a ha => mem_live.2 (.inr (.inl (h.mem_unackItems_of_mem ha)))
    have hbig := h.isbigger_item hx hm (hmem i (hl ▸ mem_cons_self))
    have hsorted : (i :: rest).Pairwise (s.core.dist · < s.core.dist ·) := hl ▸ h.bucket j
    rw [ackBucket]
    by_cases hi : m < s.core.dist i
    · -- The first item is after the number, and so are all others.
      rw [if_pos (hbig.2 hi)]
      refine ⟨.refl h, hlim, fun a ha => ?_⟩
      rcases mem_cons.1 (hl ▸ ha) with rfl | ha
      · exact hi
      · exact hi.trans ((pairwise_cons.1 hsorted).1 a ha)
    · rw [if_neg fun hb => hi (hbig.1 hb)]
      have hfree := h.freeUnackList count hl (Nat.le_of_not_lt hi)
      cases hlim' : limitReached cntLimit (count + 1) with
      | true =>
        refine ⟨hfree, ?_⟩
        obtain ⟨hpos, hle⟩ := limitReached_eq_true.1 hlim'
        have hlt := limitReached_eq_false.1 hlim
        show 0 < cntLimit ∧ ((count + 1 : ℕ) : Int) = cntLimit
        omega
      | false =>
        have hrest : (s.freeUnackList j i rest).unackList j = rest := update_self ..
        obtain ⟨hrel, hend⟩ := ih hfree.wf (by rw [hfree.ackSeqNum_eq, hx]) hrest hlim'
        rw [hfree.dist_eq] at hend
        exact ⟨hfree.trans hrel, hend⟩

include h hx hm in
/-- Lists of the table are emptied one after the other. -/
theorem Wf.ackBuckets (js : List UInt32) (hlim : limitReached cntLimit count = false) :
    Released cfg hand v m count s (ackBuckets x cntLimit js count s) ∧
      (0 < cntLimit ∧ ((ackBuckets x cntLimit js count s).1 : Int) = cntLimit ∨
        limitReached cntLimit (ackBuckets x cntLimit js count s).1 = false ∧
          ∀ j ∈ js, ∀ a ∈ (ackBuckets x cntLimit js count s).2.unackList j, m < s.core.dist a) := by
  induction js generalizing s count with
  | nil => exact ⟨.refl h, .inr ⟨hlim, fun j hj => absurd hj not_mem_nil⟩⟩
  | cons j js ih =>
    have hbucket := h.ackBucket hx hm (rfl : s.unackList j = s.unackList j) hlim
    rw [ackBuckets]
    generalize FillpSendPcb.ackBucket x cntLimit j (s.unackList j) count s = r at hbucket ⊢
    obtain ⟨stop, count', s'⟩ := r
    obtain ⟨hrel, hend⟩ := hbucket
    cases stop with
    | true => exact ⟨hrel, .inl hend⟩
    | false =>
      obtain ⟨hlim', hclean⟩ := hend
      obtain ⟨hrel', hend'⟩ := ih hrel.wf (by rw [hrel.ackSeqNum_eq, hx]) hlim'
      refine ⟨hrel.trans hrel', hend'.imp id fun ⟨hlim'', hclean'⟩ => ⟨hlim'', ?_⟩⟩
      rw [hrel.dist_eq] at hclean'
      exact forall_mem_cons.2 ⟨fun a ha => hclean a ((hrel'.sublist j).subset ha), hclean'⟩

/-! ## Which lists of the table are gone through -/

theorem toNat_and_mod (a : UInt32) : (a &&& (fillpUnackHashSize - 1)).toNat = a.toNat % 512 := by
  exact Nat.and_two_pow_sub_one_eq_mod a.toNat 9

theorem toNat_hashindex (a : UInt32) : (fillpUnacklistHashindex a).toNat = a.toNat / 1024 % 512 := by
  rw [fillpUnacklistHashindex, toNat_and_mod]
  rfl

theorem mem_indicesFrom {first loopCount : UInt32} (hi : i ≤ loopCount.toNat)
    (hj : (i + first.toNat) % 512 = j.toNat) : j ∈ indicesFrom first loopCount := by
  refine mem_map.2 ⟨i, mem_range.2 (Nat.lt_succ_of_le hi), UInt32.toNat_inj.1 ?_⟩
  have hlt := loopCount.toNat_lt
  rw [toNat_and_mod, UInt32.toNat_add, UInt32.toNat_ofNat_of_lt' (hi.trans_lt hlt)]
  omega

/-- The number of lists from the one of `a` to the one of `b`. -/
theorem toNat_loopCount (a b : UInt32) :
    ((fillpUnacklistHashindex b + fillpUnackHashSize - fillpUnacklistHashindex a) &&& (fillpUnackHashSize - 1)).toNat =
      (b.toNat / 1024 % 512 + 512 - a.toNat / 1024 % 512) % 512 := by
  have ha := toNat_hashindex a
  have hb := toNat_hashindex b
  rw [toNat_and_mod, UInt32.toNat_sub, UInt32.toNat_add, show fillpUnackHashSize.toNat = 512 from rfl]
  omega

/-- The smaller of the two numbers that `UTILS_MIN` is given is always the first. -/
theorem min_hashSize (a : UInt32) :
    min (a &&& (fillpUnackHashSize - 1)) fillpUnackHashSize = a &&& (fillpUnackHashSize - 1) := by
  refine if_pos (UInt32.le_iff_toNat_le.2 ?_)
  rw [toNat_and_mod]
  exact (Nat.mod_lt _ (by decide)).le

/-- From any list on, all lists are gone through. -/
theorem hashindex_mem_all (a y : UInt32) :
    fillpUnacklistHashindex y ∈ indicesFrom (fillpUnacklistHashindex a) fillpUnackHashSize := by
  have hidx := toNat_hashindex
  refine mem_indicesFrom (i := (y.toNat / 1024 % 512 + 512 - a.toNat / 1024 % 512) % 512) ?_ ?_
  · show _ ≤ 512
    omega
  · rw [hidx, hidx]
    omega

theorem mem_ackIndices {a b y : UInt32} (hb : (b - a).toNat < 2 ^ 31) (hy : (y - a).toNat ≤ (b - a).toNat) :
    fillpUnacklistHashindex y ∈ ackIndices a b := by
  have hidx := toNat_hashindex
  have ha' := a.toNat_lt
  have hb' := b.toNat_lt
  have hy' := y.toNat_lt
  rw [UInt32.toNat_sub] at hb hy
  rw [UInt32.toNat_sub] at hy
  unfold ackIndices
  by_cases hge : b / fillpUnackHashMod - a / fillpUnackHashMod ≥ fillpUnackHashSize
  · simp only [if_pos hge]
    exact hashindex_mem_all a y
  · -- The quotients do not wrap, so that they are in the order of the numbers.
    have hlt : (b / fillpUnackHashMod - a / fillpUnackHashMod).toNat < 512 := Nat.lt_of_not_le hge
    rw [UInt32.toNat_sub, UInt32.toNat_div, UInt32.toNat_div, show fillpUnackHashMod.toNat = 1024 from rfl] at hlt
    simp only [if_neg hge]
    refine mem_indicesFrom (i := y.toNat / 1024 - a.toNat / 1024) ?_ ?_
    · rw [min_hashSize, toNat_loopCount]
      omega
    · rw [hidx, hidx]
      omega

/-! ## A call of `FillpAckUnackList` -/

namespace FillpSendPcb

/-- How many of the items are not after the number `curSeq`. -/
def countAcked (s : FillpSendPcb) (l : List ℕ) (curSeq : UInt32) : ℕ :=
  l.countP fun i => !fillpNumIsbigger (s.item i).seqNum curSeq

/-- The items in the table and the three lists. -/
def heldItems (s : FillpSendPcb) : List ℕ :=
  s.unackItems ++ (s.list .unrecvList).items ++ (s.list .redunList).items ++ (s.list .itemWaitTokenLists).items

/-- If a call moves the acknowledged number to `curSeq`, no item up to it is left. -/
def AckSafe (cfg : SendConfig) (s : FillpSendPcb) (curSeq : UInt32) (cntLimit : Int) : Prop :=
  s.ackSeqNum ≠ curSeq → (s.fillpAckUnackList cfg curSeq cntLimit).ackSeqNum = curSeq →
    ∀ i ∈ (s.fillpAckUnackList cfg curSeq cntLimit).heldItems,
      fillpNumIsbigger ((s.fillpAckUnackList cfg curSeq cntLimit).item i).seqNum curSeq = true

/-- `cntLimit` does not keep a call from releasing all items up to the number `curSeq`. -/
def EnoughForAll (s : FillpSendPcb) (curSeq : UInt32) (cntLimit : Int) : Prop :=
  cntLimit ≤ 0 ∨ s.countAcked s.unackItems curSeq = 0 ∨
    ((s.countAcked (s.list .unrecvList).items curSeq + s.countAcked s.unackItems curSeq : ℕ) : Int) ≤ cntLimit

/-- A call for the number `maxAckNumFromReceiver` releases all items up to it in spite of `cntLimit`, or does not reach
    the size of the cache. -/
def Uncut (cfg : SendConfig) (s : FillpSendPcb) (cntLimit : Int) : Prop :=
  fillpNumIsbigger s.maxAckNumFromReceiver s.ackSeqNum = true →
    s.EnoughForAll s.maxAckNumFromReceiver cntLimit ∨
      fillpNumIsbigger cfg.pktSendCache (s.maxAckNumFromReceiver - s.ackSeqNum) = true

end FillpSendPcb

theorem Wf.items_eq (h : Wf cfg s.core hand v) (L : SendList) : (s.list L).items = v L :=
  SkipList.Repr.items_eq (h.repr L)

include h hx hm in
theorem Wf.countAcked_eq (hl : ∀ a ∈ l, a ∈ s.core.live hand v) : s.countAcked l x = l.countP (s.core.dist · ≤ m) := by
  refine countP_congr fun a ha => ?_
  rw [Bool.not_eq_true', ← Bool.not_eq_true, h.isbigger_item hx hm (hl a ha), decide_eq_true_eq, Nat.not_lt]

/-- Only the skip lists differ. -/
def OnlyLists (s s' : FillpSendPcb) : Prop := s'.core = { s.core with list := s'.list }

theorem OnlyLists.trans {s₁ s₂ s₃ : FillpSendPcb} (h : OnlyLists s₁ s₂) (h' : OnlyLists s₂ s₃) : OnlyLists s₁ s₃ := by
  unfold OnlyLists at h h' ⊢
  rw [h', h]

theorem OnlyLists.dist_eq (h : OnlyLists s s') : s'.core.dist = s.core.dist := by
  rw [h]
  rfl

theorem OnlyLists.ackSeqNum_eq (h : OnlyLists s s') : s'.ackSeqNum = s.ackSeqNum :=
  congrArg SendCore.ackSeqNum h

include h hx hm in
/-- All items of a skip list up to the number `x` are released. -/
theorem Wf.ackList (hbig : fillpNumIsbigger x s.ackSeqNum = true) : OnlyLists s (s.ackList L x).2 ∧
      Wf cfg (s.ackList L x).2.core hand (update v L ((v L).filter (m < s.core.dist ·))) ∧
      (s.ackList L x).1 = (v L).countP (s.core.dist · ≤ m) := by
  have hlen : (v L).length ≤ (s.list L).nodeNum.toNat := by
    rw [show (s.list L).nodeNum = _ from (h.repr L).nodeNum, UInt32.toNat_ofNat_of_lt' h.length_lt]
  obtain ⟨list, hcore, hwf, hcount⟩ := h.ackListLoop hx hm hlen
  have heq : s.ackList L x = FillpSendPcb.ackListLoop L x (s.list L).nodeNum.toNat s := by
    rw [FillpSendPcb.ackList, hbig]
    rfl
  have hlist : (s.ackList L x).2.list = list := by
    rw [heq]
    exact congrArg SendCore.list hcore
  rw [← heq] at hcore hcount
  refine ⟨?_, ?_, hcount⟩
  · rw [OnlyLists, hlist, hcore]
  · rw [hcore]
    exact hwf

include h hx hm

/-- All items of the skip lists up to the number `x` are released. -/
theorem Wf.ackLists (hbig : fillpNumIsbigger x s.ackSeqNum = true)
    (hr : ((s.fillpAckRedunlist x).fillpAckItemWaitTklist x).fillpAckUnrecvList x = r) :
    OnlyLists s r.2 ∧ Wf cfg r.2.core hand (fun L => (v L).filter (m < s.core.dist ·)) ∧
      r.1 = (v .unrecvList).countP (s.core.dist · ≤ m) := by
  obtain ⟨hlists, hwf, -⟩ := h.ackList hx hm hbig
  obtain ⟨hlists', hwf', -⟩ := hwf.ackList (by rw [hlists.ackSeqNum_eq, hx]) hm (by rw [hlists.ackSeqNum_eq, hbig])
  have hlists₂ := hlists.trans hlists'
  obtain ⟨hlists'', hwf'', hcount⟩ := hwf'.ackList (by rw [hlists₂.ackSeqNum_eq, hx]) hm
    (by rw [hlists₂.ackSeqNum_eq, hbig])
  rw [← hr]
  refine ⟨hlists₂.trans hlists'', ?_, ?_⟩
  · have hv : ∀ L, update (update (update v .redunList
        ((v .redunList).filter (m < s.core.dist ·))) .itemWaitTokenLists
        ((v .itemWaitTokenLists).filter (m < s.core.dist ·))) .unrecvList
        ((v .unrecvList).filter (m < s.core.dist ·)) L = (v L).filter (m < s.core.dist ·) := by
      intro L
      cases L <;> simp
    rw [hlists₂.dist_eq, hlists.dist_eq] at hwf''
    rw [← funext hv]
    exact hwf''
  · rw [hlists₂.dist_eq] at hcount
    exact hcount

/-- What the loops of a call release: either `cntLimit` ends them, or no item up to the number is left. -/
theorem Wf.ackScan (hr : (if FillpSendPcb.limitReached cntLimit count then (count, s) else FillpSendPcb.ackBuckets x cntLimit (FillpSendPcb.ackIndices s.ackSeqNum x) count s) = r) :
    Released cfg hand v m count s r ∧ (r.1 = 0 → r.2.core.acked m = 0) ∧
      (r.2.core.acked m = 0 ↔ cntLimit ≤ 0 ∨ s.core.acked m = 0 ∨ ((count + s.core.acked m : ℕ) : Int) ≤ cntLimit) := by
  cases hlim : limitReached cntLimit count with
  | true =>
    rw [hlim, if_pos rfl] at hr
    subst hr
    obtain ⟨hpos, hle⟩ := limitReached_eq_true.1 hlim
    refine ⟨.refl h, fun h0 => ?_, ?_⟩
    · omega
    · simp only
      omega
  | false =>
    rw [hlim, if_neg Bool.false_ne_true] at hr
    obtain ⟨hrel, hend⟩ := h.ackBuckets hx hm (ackIndices s.ackSeqNum x) hlim
    rw [hr] at hrel hend
    have hcount := hrel.count
    have hlt := limitReached_eq_false.1 hlim
    refine ⟨hrel, ?_⟩
    rcases hend with ⟨hpos, hstop⟩ | ⟨hlim', hclean⟩
    · exact ⟨fun h0 => by omega, by omega⟩
    · -- The lists that were gone through are those in which items up to the number are.
      have hzero : r.2.core.acked m = 0 := by
        refine countP_eq_zero.2 fun a ha => ?_
        have hmem := hrel.wf.mem_unackItems.1 ha
        have hseq : r.2.core.seqOf a = s.core.seqOf a := by rw [hrel.core]
        rw [hseq] at hmem
        rw [hrel.dist_eq, decide_eq_true_eq]
        intro hle
        have hidx := mem_ackIndices (a := s.ackSeqNum) (b := x) (y := s.core.seqOf a) (hx.trans_lt hm) (hle.trans hx.ge)
        exact absurd (hclean _ hidx a hmem) (Nat.not_lt.2 hle)
      have hlt' := limitReached_eq_false.1 hlim'
      exact ⟨fun _ => hzero, by omega⟩

end

/-- The items that are left after the loops are those of the table, and items after the number. -/
theorem Wf.heldItems_after (h : Wf cfg s'.core hand (fun L => (v L).filter (m < s.core.dist ·)))
    (hdist : s'.core.dist = s.core.dist) :
    (∀ i ∈ s'.heldItems, m < s.core.dist i) ↔ s'.core.acked m = 0 := by
  have hacked : s'.core.acked m = 0 ↔ ∀ i ∈ s'.unackItems, m < s.core.dist i := by
    rw [acked, countP_eq_zero, hdist]
    exact forall₂_congr fun i _ => by rw [decide_eq_true_eq, Nat.not_le]
  have hlist : ∀ L, ∀ i ∈ (s'.list L).items, m < s.core.dist i := by
    intro L i hi
    rw [h.items_eq L] at hi
    simpa using (mem_filter.1 hi).2
  rw [hacked]
  simp only [heldItems, mem_append]
  refine ⟨fun hall i hi => hall i (.inl (.inl (.inl hi))), ?_⟩
  rintro hall i (((hi | hi) | hi) | hi)
  exacts [hall i hi, hlist _ i hi, hlist _ i hi, hlist _ i hi]

/-- The state after the loops of a call, and what the call makes of it. -/
structure AckLoops (cfg : SendConfig) (v : SendList → List ℕ) (m : ℕ) (s : FillpSendPcb) (curSeq : UInt32)
    (cntLimit : Int) (r : ℕ × FillpSendPcb) : Prop where
  call : s.fillpAckUnackList cfg curSeq cntLimit =
    if r.1 = 0 ∨ fillpNumIsbigger cfg.pktSendCache (curSeq - s.ackSeqNum) = false then { r.2 with ackSeqNum := curSeq }
    else r.2
  wf : Wf cfg r.2.core [] (fun L => (v L).filter (m < s.core.dist ·))
  core : r.2.core =
    { s.core with list := r.2.list, unackList := r.2.unackList, pktSeqMap := r.2.pktSeqMap }
  none : r.1 = 0 → r.2.core.acked m = 0
  all : r.2.core.acked m = 0 ↔ s.EnoughForAll curSeq cntLimit

theorem Wf.ackLoops (h : Wf cfg s.core [] v) (hx : (x - s.ackSeqNum).toNat = m) (hm : m < 2 ^ 31)
    (hbig : fillpNumIsbigger x s.ackSeqNum = true) (cntLimit : Int) : ∃ r, AckLoops cfg v m s x cntLimit r := by
  generalize hr₃ : ((s.fillpAckRedunlist x).fillpAckItemWaitTklist x).fillpAckUnrecvList x = r₃
  obtain ⟨hlists, hwf₃, hcount₃⟩ := h.ackLists hx hm hbig hr₃
  obtain ⟨count, s₃⟩ := r₃
  generalize hr : (if limitReached cntLimit count then (count, s₃)
    else FillpSendPcb.ackBuckets x cntLimit (FillpSendPcb.ackIndices s₃.ackSeqNum x) count s₃) = r
  obtain ⟨hrel, hzero, hleft⟩ := hwf₃.ackScan (by rw [hlists.ackSeqNum_eq, hx]) hm hr
  have hcore₃ : s₃.core = { s.core with list := s₃.list } := hlists
  refine ⟨r, ?_, hrel.wf, ?_, hzero, ?_⟩
  · have hack : r.2.ackSeqNum = s.ackSeqNum := hrel.ackSeqNum_eq.trans hlists.ackSeqNum_eq
    rw [fillpAckUnackList, hbig]
    simp only [hr₃, hr, hack, Bool.not_true, Bool.false_eq_true, if_false, Bool.or_eq_true, decide_eq_true_eq,
      Bool.not_eq_true']
  · have hlist : r.2.list = s₃.list := congrArg SendCore.list hrel.core
    rw [hlist, hrel.core]
    simp only [hcore₃]
  · have hunrecv : s.countAcked (s.list .unrecvList).items x = count := by
      rw [h.items_eq, h.countAcked_eq hx hm fun a ha => mem_live.2 (.inr (.inr ⟨_, ha⟩))]
      exact hcount₃.symm
    have hunack : s.countAcked s.unackItems x = s₃.core.acked m := by
      rw [hcore₃]
      exact h.countAcked_eq hx hm fun a ha => mem_live.2 (.inr (.inl ha))
    rw [FillpSendPcb.EnoughForAll, hunrecv, hunack]
    exact hleft

namespace AckLoops

theorem dist_eq (h : AckLoops cfg v m s x cntLimit r) : r.2.core.dist = s.core.dist := by rw [h.core]; rfl

/-- The items that are left are after the number exactly when none of the others is. -/
theorem forall_heldItems (h : AckLoops cfg v m s x cntLimit r) (hx : (x - s.ackSeqNum).toNat = m) (hm : m < 2 ^ 31) :
    (∀ i ∈ r.2.heldItems, fillpNumIsbigger (r.2.item i).seqNum x = true) ↔ s.EnoughForAll x cntLimit := by
  have hack : r.2.ackSeqNum = s.ackSeqNum := congrArg SendCore.ackSeqNum h.core
  rw [← h.all, ← h.wf.heldItems_after h.dist_eq]
  refine forall₂_congr fun i hi => ?_
  rw [h.wf.isbigger_item (by rw [hack, hx]) hm ?_, h.dist_eq]
  simp only [heldItems, mem_append, h.wf.items_eq] at hi
  rw [mem_live]
  rcases hi with ((hi | hi) | hi) | hi
  exacts [.inr (.inl hi), .inr (.inr ⟨_, hi⟩), .inr (.inr ⟨_, hi⟩), .inr (.inr ⟨_, hi⟩)]

/-- When no other item is left, the acknowledged number may move on. -/
theorem advance (h : AckLoops cfg v m s s.maxAckNumFromReceiver cntLimit r)
    (hx : (s.maxAckNumFromReceiver - s.ackSeqNum).toNat = m) (hall : s.EnoughForAll s.maxAckNumFromReceiver cntLimit) :
    Wf cfg { r.2 with ackSeqNum := s.maxAckNumFromReceiver }.core [] (fun L => (v L).filter (m < s.core.dist ·)) := by
  have hmax : r.2.maxAckNumFromReceiver = s.maxAckNumFromReceiver := congrArg maxAck h.core
  have hack : r.2.ackSeqNum = s.ackSeqNum := congrArg SendCore.ackSeqNum h.core
  rw [← hmax]
  refine h.wf.advance fun i hi => ?_
  show (r.2.maxAckNumFromReceiver - r.2.ackSeqNum).toNat < _
  rw [hmax, hack, hx, h.dist_eq]
  rcases mem_live.1 hi with hi | hi | ⟨L, hi⟩
  · exact absurd hi not_mem_nil
  · have hzero := countP_eq_zero.1 (h.all.2 hall) i hi
    rwa [decide_eq_true_eq, Nat.not_le, h.dist_eq] at hzero
  · simpa using (mem_filter.1 hi).2

end AckLoops

/-- A call is safe exactly when it is not cut short at the size of the cache; a safe call keeps the lists in order. -/
theorem Wf.fillpAckUnackList (h : Wf cfg s.core [] v) (cntLimit : Int) :
    (s.AckSafe cfg s.maxAckNumFromReceiver cntLimit ↔ s.Uncut cfg cntLimit) ∧
      (s.Uncut cfg cntLimit → ∃ v', Wf cfg (s.fillpAckUnackList cfg s.maxAckNumFromReceiver cntLimit).core [] v') := by
  obtain ⟨m, hx⟩ : ∃ m, (s.maxAckNumFromReceiver - s.ackSeqNum).toNat = m := ⟨_, rfl⟩
  have hm : m < 2 ^ 31 := hx ▸ h.maxAck.trans_lt h.span_lt
  have hpos : fillpNumIsbigger s.maxAckNumFromReceiver s.ackSeqNum = true ↔ 0 < m := by
    rw [fillpNumIsbigger, decide_eq_true_eq,
      UInt32.toInt_sub_pos_iff s.ackSeqNum (hx.trans_lt hm) (by rw [UInt32.sub_self]; decide), UInt32.sub_self, hx]
    rfl
  have hne : s.ackSeqNum ≠ s.maxAckNumFromReceiver ↔ 0 < m := by
    rw [← hx, Nat.pos_iff_ne_zero, ne_comm, not_iff_not, ← UInt32.toNat_sub_inj s.ackSeqNum, UInt32.sub_self]
    rfl
  unfold FillpSendPcb.AckSafe FillpSendPcb.Uncut
  by_cases hbig : fillpNumIsbigger s.maxAckNumFromReceiver s.ackSeqNum = true
  · obtain ⟨r, hloops⟩ := h.ackLoops hx hm hbig cntLimit
    have hne' := hne.2 (hpos.1 hbig)
    have hheld := hloops.forall_heldItems hx hm
    rw [imp_iff_right hbig, imp_iff_right hne', hloops.call]
    by_cases hset : r.1 = 0 ∨ fillpNumIsbigger cfg.pktSendCache (s.maxAckNumFromReceiver - s.ackSeqNum) = false
    · -- The number moves on.
      have hiff : s.EnoughForAll s.maxAckNumFromReceiver cntLimit ∨
          fillpNumIsbigger cfg.pktSendCache (s.maxAckNumFromReceiver - s.ackSeqNum) = true ↔
            s.EnoughForAll s.maxAckNumFromReceiver cntLimit := by
        refine or_iff_left_of_imp fun hcache => hloops.all.1 (hloops.none ?_)
        exact hset.resolve_right (by rw [hcache]; exact Bool.noConfusion)
      rw [if_pos hset, imp_iff_right rfl, hiff]
      exact ⟨hheld, fun hall => ⟨_, hloops.advance hx hall⟩⟩
    · -- The number stays.
      have hack : r.2.ackSeqNum = s.ackSeqNum := congrArg SendCore.ackSeqNum hloops.core
      rw [if_neg hset]
      rw [not_or, Bool.not_eq_false] at hset
      exact ⟨⟨fun _ => .inr hset.2, fun _ heq => absurd (hack.symm.trans heq) hne'⟩, fun _ => ⟨_, hloops.wf⟩⟩
  · have hm0 : ¬ 0 < m := fun h0 => hbig (hpos.2 h0)
    have hcall : s.fillpAckUnackList cfg s.maxAckNumFromReceiver cntLimit = s := by
      rw [FillpSendPcb.fillpAckUnackList, (Bool.not_eq_true _).mp hbig]
      rfl
    rw [hcall]
    exact ⟨⟨fun _ hb => absurd hb hbig, fun _ hne' => absurd (hne.1 hne') hm0⟩, fun _ => ⟨v, h⟩⟩

end SoftBus.Native
