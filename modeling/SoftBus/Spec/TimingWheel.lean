import Mathlib
import SoftBus.Native.TimingWheel

/-!
# Timing wheel: lists and nodes

The lists of the wheel and the fields of the nodes say the same.
-/

namespace SoftBus.Native
open Function List FillpTimingWheelTimerNode FillpTimingWheel
variable {s' : FillpTimingWheel} {f : FillpTimingWheelTimerNode → FillpTimingWheelTimerNode}
  {node : FillpTimingWheelTimerNode} {l : List ℕ} {nodes : ℕ → FillpTimingWheelTimerNode}
variable {s : FillpTimingWheel} {h h' : TimingHand} {j j' : ℤ} {n m : ℕ}

/-- What the wheel reads apart from lists and nodes. -/
structure WheelClock where
  curTime : ℤ
  accuracy : ℤ
  secAccuracy : ℤ
  hourLength : ℤ
  curTick : TimingHand → ℤ

namespace FillpTimingWheel

def clock (s : FillpTimingWheel) : WheelClock :=
  ⟨s.curTime, s.accuracy, (s.hand .sec).accuracy, (s.hand .hour).handLength, fun h => (s.hand h).curTick⟩

/-- The lists hold the nodes that are linked. -/
structure Mirror (s : FillpTimingWheel) : Prop where
  mem : ∀ h j n, n ∈ (s.hand h).slotList j ↔ (s.node n).slot h = some j
  nodup : ∀ h j, ((s.hand h).slotList j).Nodup
  memCb : ∀ n, n ∈ s.curCbList ↔ (s.node n).cbListNode = true
  nodupCb : s.curCbList.Nodup

section
variable (s : FillpTimingWheel) (f : List ℕ → List ℕ)

theorem slotList_modifySlot :
    ((s.modifySlot h j f).hand h').slotList j' =
      if h' = h ∧ j' = j then f ((s.hand h).slotList j) else (s.hand h').slotList j' := by
  by_cases hh : h' = h
  · subst hh
    by_cases hj : j' = j
    · subst hj
      simp [modifySlot, modifyHand]
    · simp [modifySlot, modifyHand, hj]
  · simp [modifySlot, modifyHand, hh]

theorem node_modifySlot : (s.modifySlot h j f).node = s.node := rfl

theorem clock_modifySlot : (s.modifySlot h j f).clock = s.clock := by
  have htick : ∀ h', ((s.modifySlot h j f).hand h').curTick = (s.hand h').curTick := fun h' => by
    cases h <;> cases h' <;> rfl
  cases h <;> simp only [clock, htick] <;> rfl

end

theorem slot_setSlot (o : Option ℤ) :
    ((s.setSlot h o n).node m).slot h' = if m = n ∧ h' = h then o else (s.node m).slot h' := by
  by_cases hm : m = n
  · subst hm
    by_cases hh : h' = h
    · subst hh
      simp [setSlot, modifyNode]
    · simp [setSlot, modifyNode, hh]
  · simp [setSlot, modifyNode, hm]

/-- A field that a change of a timer leaves alone. -/
theorem apply_modifyNode {β : Type*} (g : FillpTimingWheelTimerNode → β) (hf : g (f (s.node n)) = g (s.node n)) :
    g ((s.modifyNode n f).node m) = g (s.node m) := by
  by_cases hm : m = n
  · subst hm
    simp [modifyNode, hf]
  · simp [modifyNode, hm]

theorem cbListNode_setSlot (o : Option ℤ) : ((s.setSlot h o n).node m).cbListNode = (s.node m).cbListNode :=
  apply_modifyNode cbListNode rfl

theorem Mirror.hlistAddTail (hs : s.Mirror) (hnone : (s.node n).slot h = none) : (s.hlistAddTail h j n).Mirror where
  mem h' j' m := by
    rw [FillpTimingWheel.hlistAddTail, slot_setSlot, node_modifySlot]
    show m ∈ ((s.modifySlot h j (· ++ [n])).hand h').slotList j' ↔ _
    rw [slotList_modifySlot]
    have hmem := hs.mem h' j' m
    grind
  nodup h' j' := by
    show (((s.modifySlot h j (· ++ [n])).hand h').slotList j').Nodup
    rw [slotList_modifySlot]
    split
    · rw [← concat_eq_append]
      refine (hs.nodup h j).concat fun hmem => ?_
      rw [hs.mem, hnone] at hmem
      cases hmem
    · exact hs.nodup h' j'
  memCb m := by
    rw [FillpTimingWheel.hlistAddTail, cbListNode_setSlot]
    exact hs.memCb m
  nodupCb := hs.nodupCb

theorem Mirror.hlistDelete (hs : s.Mirror) (hslot : (s.node n).slot h = some j) : (s.hlistDelete h j n).Mirror where
  mem h' j' m := by
    rw [FillpTimingWheel.hlistDelete, slot_setSlot, node_modifySlot]
    show m ∈ ((s.modifySlot h j (List.erase · n)).hand h').slotList j' ↔ _
    rw [slotList_modifySlot]
    have hmem := hs.mem h' j' m
    have hnodup := (hs.nodup h j).mem_erase_iff (a := m) (b := n)
    grind
  nodup h' j' := by
    show (((s.modifySlot h j (List.erase · n)).hand h').slotList j').Nodup
    rw [slotList_modifySlot]
    split
    · exact (hs.nodup h j).erase n
    · exact hs.nodup h' j'
  memCb m := by
    rw [FillpTimingWheel.hlistDelete, cbListNode_setSlot]
    exact hs.memCb m
  nodupCb := hs.nodupCb

end FillpTimingWheel

namespace FillpTimingWheelTimerNode

theorem isClear_iff : node.isClear = true ↔ ∀ h, node.status h = false := by
  rw [isClear]
  constructor
  · intro hclear h
    cases h <;> simp_all
  · intro hclear
    simp [hclear]

/-- The bits of a timer say into which hands it is linked, and a timer that waits for its callback is in no slot. -/
structure Ok (node : FillpTimingWheelTimerNode) : Prop where
  status : ∀ h, node.status h = (node.slot h).isSome
  range : ∀ h, ∀ j ∈ node.slot h, 0 ≤ j ∧ j < fillpTimingWheelSlotNum
  pending : node.cbListNode = true → ∀ h, node.slot h = none
  wheel : node.cbListNode = true ∨ node.isClear = false → node.wheel = true

theorem Ok.isClear_iff (hok : node.Ok) : node.isClear = true ↔ ∀ h, node.slot h = none := by
  simp only [FillpTimingWheelTimerNode.isClear_iff, hok.status, Option.isSome_eq_false_iff, Option.isNone_iff_eq_none]

/-- A timer that is linked is enabled. -/
theorem Ok.enabled_of_slot (hok : node.Ok) (hslot : node.slot h = some j) : node.isNodeEnabled = true := by
  have hclear : node.isClear = false := by
    rw [← Bool.not_eq_true, hok.isClear_iff]
    intro hall
    rw [hall h] at hslot
    cases hslot
  rw [isNodeEnabled, hok.wheel (.inr hclear), hclear]
  rfl

def unlink (h : TimingHand) (node : FillpTimingWheelTimerNode) : FillpTimingWheelTimerNode :=
  { node with slot := update node.slot h none, status := update node.status h false }

/-- A timer is taken out of its slot of a hand. -/
def leave (h : TimingHand) (node : FillpTimingWheelTimerNode) : FillpTimingWheelTimerNode :=
  if (node.unlink h).isClear then { node.unlink h with cbListNode := true } else node.unlink h

theorem Ok.unlink (hok : node.Ok) (hslot : node.slot h = some j) : (node.unlink h).Ok where
  status h' := by
    by_cases hh : h' = h
    · subst hh
      simp [unlink]
    · simpa [FillpTimingWheelTimerNode.unlink, hh] using hok.status h'
  range h' j' hj' := by
    by_cases hh : h' = h
    · subst hh
      simp [unlink] at hj'
    · refine hok.range h' j' ?_
      simpa [FillpTimingWheelTimerNode.unlink, hh] using hj'
  pending hcb := by
    rw [hok.pending hcb h] at hslot
    cases hslot
  wheel _ := (Bool.and_eq_true_iff.1 (hok.enabled_of_slot hslot)).1

theorem Ok.leave (hok : node.Ok) (hslot : node.slot h = some j) : (node.leave h).Ok := by
  have hok' := hok.unlink hslot
  rw [FillpTimingWheelTimerNode.leave]
  split
  next hclear =>
    refine ⟨hok'.status, hok'.range, fun _ => hok'.isClear_iff.1 hclear, fun _ => ?_⟩
    exact (Bool.and_eq_true_iff.1 (hok.enabled_of_slot hslot)).1
  next => exact hok'

end FillpTimingWheelTimerNode

namespace FillpTimingWheel

structure Wf (s : FillpTimingWheel) : Prop extends Mirror s where
  node : ∀ n, (s.node n).Ok

/-- The lists change along with the nodes, and nothing else. -/
structure Rewrites (s s' : FillpTimingWheel) (nodes : ℕ → FillpTimingWheelTimerNode) : Prop where
  mirror : s'.Mirror
  clock : s'.clock = s.clock
  node : s'.node = nodes
  cycle : s'.hourCycleList = s.hourCycleList

structure Turns (s s' : FillpTimingWheel) (nodes : ℕ → FillpTimingWheelTimerNode) : Prop
    extends Rewrites s s' nodes where
  ok : ∀ n, (nodes n).Ok

theorem Turns.wf (ht : Turns s s' nodes) : s'.Wf :=
  ⟨ht.mirror, fun n => ht.node ▸ ht.ok n⟩

theorem modifyNode_modifyNode (g : FillpTimingWheelTimerNode → FillpTimingWheelTimerNode) :
    (s.modifyNode n f).modifyNode n g = s.modifyNode n (g ∘ f) := by
  simp [modifyNode]

theorem clock_modifyNode (s : FillpTimingWheel) (f : FillpTimingWheelTimerNode → FillpTimingWheelTimerNode) :
    (s.modifyNode n f).clock = s.clock := rfl

theorem Mirror.modifyNode (hs : s.Mirror) (hslot : (f (s.node n)).slot = (s.node n).slot)
    (hcb : (f (s.node n)).cbListNode = (s.node n).cbListNode) : (s.modifyNode n f).Mirror where
  __ := hs
  mem h j m := by
    rw [apply_modifyNode slot hslot]
    exact hs.mem h j m
  memCb m := by
    rw [apply_modifyNode cbListNode hcb]
    exact hs.memCb m

theorem Mirror.cbListAddTail (hs : s.Mirror) (hcb : (s.node n).cbListNode = false) : (s.cbListAddTail n).Mirror := by
  have hout : n ∉ s.curCbList := fun hmem => by
    rw [hs.memCb, hcb] at hmem
    cases hmem
  refine ⟨fun h j m => ?_, hs.nodup, fun m => ?_, ?_⟩
  · rw [FillpTimingWheel.cbListAddTail, apply_modifyNode slot rfl]
    exact hs.mem h j m
  · have hmem := hs.memCb m
    by_cases hm : m = n
    · subst hm
      simp [FillpTimingWheel.cbListAddTail, FillpTimingWheel.modifyNode]
    · simp [FillpTimingWheel.cbListAddTail, FillpTimingWheel.modifyNode, hm, hmem]
  · show (s.curCbList ++ [n]).Nodup
    rw [← concat_eq_append]
    exact hs.nodupCb.concat hout

theorem Turns.trans {s₁ s₂ s₃ : FillpTimingWheel} {node₂ node₃ : ℕ → FillpTimingWheelTimerNode}
    (h₁ : Turns s₁ s₂ node₂) (h₂ : Turns s₂ s₃ node₃) : Turns s₁ s₃ node₃ :=
  ⟨⟨h₂.mirror, h₂.clock.trans h₁.clock, h₂.node, h₂.cycle.trans h₁.cycle⟩, h₂.ok⟩

variable (hs : s.Wf)
include hs

theorem Turns.self : Turns s s s.node := ⟨⟨hs.toMirror, rfl, rfl, rfl⟩, hs.node⟩

theorem ok_update (hok : node.Ok) (m : ℕ) : (update s.node n node m).Ok := by
  by_cases hm : m = n
  · subst hm
    rw [update_self]
    exact hok
  · rw [update_of_ne hm]
    exact hs.node m

theorem Wf.unlinkSlot (hslot : (s.node n).slot h = some j) :
    Turns s ((s.hlistDelete h j n).setStatus h false n) (update s.node n ((s.node n).unlink h)) := by
  -- The bit is cleared along with the link.
  have hunlink : (s.hlistDelete h j n).setStatus h false n =
      (s.modifySlot h j (List.erase · n)).modifyNode n (·.unlink h) := by
    rw [setStatus, hlistDelete, setSlot, modifyNode_modifyNode]
    rfl
  have hmirror : ((s.hlistDelete h j n).setStatus h false n).Mirror :=
    (hs.hlistDelete hslot).modifyNode rfl rfl
  refine ⟨⟨hmirror, ?_, by rw [hunlink]; rfl, rfl⟩, ok_update hs ((hs.node n).unlink hslot)⟩
  rw [hunlink, clock_modifyNode, clock_modifySlot]

theorem Wf.leaveSlot (hslot : (s.node n).slot h = some j) :
    Turns s (s.leaveSlot h j n) (update s.node n ((s.node n).leave h)) := by
  have hcb : (s.node n).cbListNode = false := by
    cases hcb : (s.node n).cbListNode with
    | false => rfl
    | true =>
      rw [(hs.node n).pending hcb h] at hslot
      cases hslot
  have hunlink := hs.unlinkSlot hslot
  have hok := (hs.node n).leave hslot
  rw [FillpTimingWheel.leaveSlot]
  generalize (s.hlistDelete h j n).setStatus h false n = s' at hunlink ⊢
  have hself : s'.node n = (s.node n).unlink h := by rw [hunlink.node, update_self]
  rw [fillpTimingWheelRunPending, hself]
  rw [leave] at hok ⊢
  split
  next hclear =>
    rw [if_pos hclear] at hok
    have hnode : (s'.cbListAddTail n).node = update s.node n { (s.node n).unlink h with cbListNode := true } := by
      show update s'.node n _ = _
      rw [hself, hunlink.node, update_idem]
    refine ⟨⟨hunlink.mirror.cbListAddTail ?_, hunlink.clock, hnode, hunlink.cycle⟩, ok_update hs hok⟩
    rw [hself]
    exact hcb
  next => exact hunlink

/-! ## Deleting -/

theorem Wf.delHand (h : TimingHand) (n : ℕ) :
    Turns s (s.delHand h n) (update s.node n ((s.node n).unlink h)) := by
  rw [FillpTimingWheel.delHand, hlistDelNode]
  have hstatus := (hs.node n).status h
  cases hslot : (s.node n).slot h with
  | none =>
    rw [hslot] at hstatus
    rw [hstatus]
    have hsame : (s.node n).unlink h = s.node n := by
      rw [unlink, ← hslot, update_eq_self]
      have hfalse : update (s.node n).status h false = (s.node n).status := by
        rw [show false = (s.node n).status h from hstatus.symm, update_eq_self]
      rw [hfalse]
    rw [hsame, update_eq_self]
    exact .self hs
  | some j =>
    rw [hslot] at hstatus
    rw [hstatus, Option.isSome_some]
    exact hs.unlinkSlot hslot

theorem Wf.cbListDelete (n : ℕ) :
    Turns s (s.cbListDelete n) (update s.node n { s.node n with cbListNode := false }) := by
  have hok := hs.node n
  refine ⟨⟨⟨fun h j m => ?_, hs.nodup, fun m => ?_, hs.nodupCb.erase n⟩, rfl, rfl, rfl⟩, fun m => ?_⟩
  · rw [FillpTimingWheel.cbListDelete, apply_modifyNode slot rfl]
    exact hs.mem h j m
  · have hmem := hs.memCb m
    by_cases hm : m = n
    · subst hm
      simp [FillpTimingWheel.cbListDelete, FillpTimingWheel.modifyNode, hs.nodupCb.mem_erase_iff]
    · simp [FillpTimingWheel.cbListDelete, FillpTimingWheel.modifyNode, hm, hmem, hs.nodupCb.mem_erase_iff]
  · have hok' : ({ s.node n with cbListNode := false } : FillpTimingWheelTimerNode).Ok := by
      refine ⟨hok.status, hok.range, ?_, ?_⟩
      · rintro ⟨⟩
      · rintro (⟨⟨⟩⟩ | hclear)
        exact hok.wheel (.inr hclear)
    exact ok_update hs hok' m

end FillpTimingWheel

/-- A timer that has been deleted. -/
def FillpTimingWheelTimerNode.deleted (node : FillpTimingWheelTimerNode) : FillpTimingWheelTimerNode :=
  { node with slot := fun _ => none, status := fun _ => false, cbListNode := false, wheel := false }

namespace FillpTimingWheel

theorem Wf.fillpTimingWheelDelTimer (hs : s.Wf) (hen : (s.node n).isNodeEnabled = true) :
    Turns s (s.fillpTimingWheelDelTimer n) (update s.node n (s.node n).deleted) := by
  rw [FillpTimingWheel.fillpTimingWheelDelTimer, hen, if_neg (by decide)]
  have hcb : Turns s (if (s.node n).cbListNode then s.cbListDelete n else s)
      (update s.node n { s.node n with cbListNode := false }) := by
    split
    next => exact hs.cbListDelete n
    next hcb =>
      have hsame : ({ s.node n with cbListNode := false } : FillpTimingWheelTimerNode) = s.node n := by
        rw [← Bool.not_eq_true _ |>.mp hcb]
      rw [hsame, update_eq_self]
      exact .self hs
  generalize (if (s.node n).cbListNode then s.cbListDelete n else s) = s₀ at hcb ⊢
  dsimp only
  have hsec := hcb.wf.delHand .sec n
  have hmin := hsec.wf.delHand .min n
  have hhour := hmin.wf.delHand .hour n
  have hdel := ((hcb.trans hsec).trans hmin).trans hhour
  have hnode := hdel.node
  rw [hmin.node, hsec.node, hcb.node] at hnode
  generalize ((s₀.delHand .sec n).delHand .min n).delHand .hour n = s₁ at hdel hnode ⊢
  have hnode' : (s₁.modifyNode n fun node => { node with wheel := false }).node =
      update s.node n (s.node n).deleted := by
    rw [modifyNode, hnode]
    simp only [update_self, update_idem]
    congr 1
    congr 1
    · funext h
      cases h <;> rfl
    · funext h
      cases h <;> rfl
  refine ⟨⟨hdel.mirror.modifyNode rfl rfl, hdel.clock, hnode', hdel.cycle⟩, ?_⟩
  refine ok_update hs ⟨fun _ => rfl, ?_, fun _ _ => rfl, ?_⟩
  · rintro h j ⟨⟩
  · rintro (⟨⟨⟩⟩ | ⟨⟨⟩⟩)

end FillpTimingWheel

/-! ## Adding -/

namespace WheelClock

variable (c : WheelClock) (expireTime : ℤ)

/-- `tickDiff` of `FillpTimingWheelAddTimerInner`, with `secTick`, `minTick` and `hourTick` in what follows -/
def tickDiff : ℤ :=
  let timeDiff := expireTime - c.curTime
  fillpInt ((if timeDiff < 0 ∨ timeDiff < c.secAccuracy then c.secAccuracy else timeDiff).tdiv c.secAccuracy)

def secTick : ℤ := fillpInt (c.curTick .sec + c.tickDiff expireTime)

def minTick : ℤ :=
  fillpInt ((c.secTick expireTime).tdiv fillpTimingWheelSlotNum + c.curTick .min)

def hourTick : ℤ :=
  fillpInt ((c.minTick expireTime).tdiv fillpTimingWheelSlotNum + c.curTick .hour)

/-- The slots for a timer. -/
def slots : TimingHand → Option ℤ
  | .sec => some ((c.secTick expireTime).tmod fillpTimingWheelSlotNum)
  | .min =>
    if c.secTick expireTime ≥ fillpTimingWheelSlotNum then some ((c.minTick expireTime).tmod fillpTimingWheelSlotNum)
    else none
  | .hour =>
    if c.secTick expireTime ≥ fillpTimingWheelSlotNum ∧ (c.minTick expireTime).tdiv fillpTimingWheelSlotNum > 0 then
      some ((c.hourTick expireTime).tmod fillpTimingWheelSlotNum)
    else none

end WheelClock

namespace FillpTimingWheelTimerNode

def link (h : TimingHand) (j : ℤ) (node : FillpTimingWheelTimerNode) : FillpTimingWheelTimerNode :=
  { node with slot := update node.slot h (some j), status := update node.status h true }

/-- A timer that is not linked yet. -/
def fresh (expireTime : ℤ) (node : FillpTimingWheelTimerNode) : FillpTimingWheelTimerNode :=
  { node with slot := fun _ => none, status := fun _ => false, expireTime := expireTime }

/-- A timer that has been added. -/
def insert (c : WheelClock) (expireTime : ℤ) (node : FillpTimingWheelTimerNode) : FillpTimingWheelTimerNode :=
  { node with
    slot := c.slots expireTime, status := fun h => (c.slots expireTime h).isSome, expireTime := expireTime, wheel := true }

theorem insert_ext {c : WheelClock} {node' : FillpTimingWheelTimerNode} (hslot : ∀ h, node'.slot h = c.slots node'.expireTime h)
    (hstatus : ∀ h, node'.status h = (node'.slot h).isSome) (hcbList : node'.cbListNode = node.cbListNode)
    (hcb : node'.cb = node.cb) : { node' with wheel := true } = node.insert c node'.expireTime := by
  rw [insert, ← funext hslot, ← hcbList, ← hcb, ← funext hstatus]

end FillpTimingWheelTimerNode

namespace FillpTimingWheel

/-- A timer is linked into a slot of a hand. -/
def linkSlot (h : TimingHand) (j : ℤ) (n : ℕ) (s : FillpTimingWheel) : FillpTimingWheel :=
  (s.hlistAddTail h j n).setStatus h true n

theorem Rewrites.link (hr : Rewrites s s' (update s.node n node)) (hnone : node.slot h = none) :
    Rewrites s (s'.linkSlot h j n) (update s.node n (node.link h j)) := by
  have hself : s'.node n = node := by rw [hr.node, update_self]
  have hlink : s'.linkSlot h j n = (s'.modifySlot h j (· ++ [n])).modifyNode n (·.link h j) := by
    rw [linkSlot, setStatus, hlistAddTail, setSlot, modifyNode_modifyNode]
    rfl
  have hmirror : (s'.linkSlot h j n).Mirror := by
    rw [linkSlot]
    exact (hr.mirror.hlistAddTail (hself ▸ hnone)).modifyNode rfl rfl
  refine ⟨hmirror, ?_, ?_, hr.cycle⟩
  · rw [hlink, clock_modifyNode, clock_modifySlot, hr.clock]
  · rw [hlink, modifyNode, node_modifySlot, hself, hr.node, update_idem]

theorem Rewrites.modifyNode (hr : Rewrites s s' (update s.node n node)) (hslot : (f node).slot = node.slot)
    (hcb : (f node).cbListNode = node.cbListNode) :
    Rewrites s (s'.modifyNode n f) (update s.node n (f node)) := by
  have hself : s'.node n = node := by rw [hr.node, update_self]
  refine ⟨hr.mirror.modifyNode (by rw [hself, hslot]) (by rw [hself, hcb]), hr.clock, ?_, hr.cycle⟩
  rw [FillpTimingWheel.modifyNode, hr.node, update_self, update_idem]

/-- The links of a timer that is added depend on the clock only. -/
theorem fillpTimingWheelAddTimerInner_eq (expireTime : ℤ) : s.fillpTimingWheelAddTimerInner expireTime n =
      let c := s.clock
      let s₁ := (s.modifyNode n (fresh expireTime)).linkSlot .sec ((c.secTick expireTime).tmod fillpTimingWheelSlotNum) n
      let s₂ := s₁.linkSlot .min ((c.minTick expireTime).tmod fillpTimingWheelSlotNum) n
      let s₃ := s₂.linkSlot .hour ((c.hourTick expireTime).tmod fillpTimingWheelSlotNum) n
      (if c.secTick expireTime ≥ fillpTimingWheelSlotNum then
        if (c.minTick expireTime).tdiv fillpTimingWheelSlotNum > 0 then s₃ else s₂
      else s₁).modifyNode n fun node => { node with wheel := true } := rfl

theorem Mirror.fillpTimingWheelAddTimerInner (hs : s.Mirror) (hnone : ∀ h, (s.node n).slot h = none) (expireTime : ℤ) :
    Rewrites s (s.fillpTimingWheelAddTimerInner expireTime n)
      (update s.node n ((s.node n).insert s.clock expireTime)) := by
  have hslot : (s.node n).slot = fun _ => none := funext hnone
  have hstart : Rewrites s (s.modifyNode n (fresh expireTime)) (update s.node n ((s.node n).fresh expireTime)) :=
    ⟨hs.modifyNode hslot.symm rfl, rfl, rfl, rfl⟩
  have hsec := hstart.link (h := .sec) (j := (s.clock.secTick expireTime).tmod fillpTimingWheelSlotNum) rfl
  have hmin := hsec.link (h := .min) (j := (s.clock.minTick expireTime).tmod fillpTimingWheelSlotNum) rfl
  have hhour := hmin.link (h := .hour) (j := (s.clock.hourTick expireTime).tmod fillpTimingWheelSlotNum) rfl
  rw [fillpTimingWheelAddTimerInner_eq]
  -- What is left is to see that the links are those of `slots`.
  have hdone : ∀ {s' : FillpTimingWheel} {node : FillpTimingWheelTimerNode}, Rewrites s s' (update s.node n node) →
      { node with wheel := true } = (s.node n).insert s.clock expireTime →
      Rewrites s (s'.modifyNode n fun node => { node with wheel := true })
        (update s.node n ((s.node n).insert s.clock expireTime)) := fun hr heq =>
    heq ▸ hr.modifyNode rfl rfl
  dsimp only
  by_cases hcross : s.clock.secTick expireTime ≥ fillpTimingWheelSlotNum
  · rw [if_pos hcross]
    by_cases hover : (s.clock.minTick expireTime).tdiv fillpTimingWheelSlotNum > 0
    · rw [if_pos hover]
      refine hdone hhour (insert_ext (fun h => ?_) (fun h => ?_) rfl rfl) <;> cases h <;>
        simp [link, fresh, WheelClock.slots, hcross, hover]
    · rw [if_neg hover]
      refine hdone hmin (insert_ext (fun h => ?_) (fun h => ?_) rfl rfl) <;> cases h <;>
        simp [link, fresh, WheelClock.slots, hcross, hover]
  · rw [if_neg hcross]
    refine hdone hsec (insert_ext (fun h => ?_) (fun h => ?_) rfl rfl) <;> cases h <;> simp [link, fresh, WheelClock.slots, hcross]

end FillpTimingWheel

/-! ## Sweeps -/

namespace FillpTimingWheelTimerNode
variable {J : List ℤ}

/-- The hand `h` goes over the slots `J`. -/
def pass (h : TimingHand) (J : List ℤ) (node : FillpTimingWheelTimerNode) : FillpTimingWheelTimerNode :=
  match node.slot h with
  | some j => if j ∈ J then node.leave h else node
  | none => node

/-- The hour hand only takes a timer out if it is overdue at the time `now`. -/
def passHour (now : ℤ) (J : List ℤ) (node : FillpTimingWheelTimerNode) : FillpTimingWheelTimerNode :=
  if node.expireTime < now then node.pass .hour J else node

/-- A timer of a slot that the hour hand goes over. -/
def leaveDue (now : ℤ) (node : FillpTimingWheelTimerNode) : FillpTimingWheelTimerNode :=
  if node.expireTime < now then node.leave .hour else node

/-- Whether the hour hand adds a timer again. -/
def Recycles (now hourLength : ℤ) (J : List ℤ) (node : FillpTimingWheelTimerNode) : Prop :=
  (∃ j ∈ J, node.slot .hour = some j) ∧ now ≤ node.expireTime ∧ node.expireTime < now + hourLength

theorem pass_of_mem (hslot : node.slot h = some j) (hj : j ∈ J) : node.pass h J = node.leave h := by
  rw [pass, hslot]
  exact if_pos hj

theorem pass_of_not (hnot : ∀ j ∈ J, node.slot h ≠ some j) : node.pass h J = node := by
  rw [pass]
  split
  next j hslot => exact if_neg fun hj => hnot j hj hslot
  next => rfl

theorem slot_leave : (node.leave h).slot = update node.slot h none := by
  rw [leave]
  split <;> rfl

theorem expireTime_leave : (node.leave h).expireTime = node.expireTime := by
  rw [leave]
  split <;> rfl

theorem cb_leave : (node.leave h).cb = node.cb := by
  rw [leave]
  split <;> rfl

theorem pass_cases (node : FillpTimingWheelTimerNode) :
    node.pass h J = node ∨ ∃ j, node.slot h = some j ∧ node.pass h J = node.leave h := by
  rw [pass]
  split
  next j hslot =>
    split
    next => exact .inr ⟨j, hslot, rfl⟩
    next => exact .inl rfl
  next => exact .inl rfl

/-- A field that leaving a slot does not change. -/
theorem apply_pass {β : Type*} {g : FillpTimingWheelTimerNode → β} (hg : g (node.leave h) = g node) :
    g (node.pass h J) = g node := by
  obtain heq | ⟨-, -, heq⟩ := node.pass_cases
  · rw [heq]
  · rw [heq, hg]

theorem expireTime_pass : (node.pass h J).expireTime = node.expireTime :=
  apply_pass expireTime_leave

theorem cb_pass : (node.pass h J).cb = node.cb :=
  apply_pass cb_leave

theorem pass_cons (h : TimingHand) (j : ℤ) (J : List ℤ) :
    node.pass h (j :: J) = (node.pass h [j]).pass h J := by
  by_cases hslot : node.slot h = some j
  · have hgone : ∀ j' ∈ J, (node.leave h).slot h ≠ some j' := fun j' _ => by
      rw [slot_leave, update_self]
      exact nofun
    rw [pass_of_mem hslot mem_cons_self, pass_of_mem hslot mem_cons_self, pass_of_not hgone]
  · have hstay : node.pass h [j] = node := pass_of_not (by simpa using hslot)
    rw [hstay, pass, pass]
    split
    next j' hslot' =>
      have hne : j' ≠ j := fun heq => hslot (heq ▸ hslot')
      simp only [mem_cons, hne, false_or]
    next => rfl

theorem passHour_cons (now : ℤ) : node.passHour now (j :: J) = (node.passHour now [j]).passHour now J := by
  by_cases hdue : node.expireTime < now
  · have hpass : ∀ J, node.passHour now J = node.pass .hour J := fun J => if_pos hdue
    rw [hpass, hpass, pass_cons, passHour, if_pos (by rwa [expireTime_pass])]
  · have hpass : ∀ J, node.passHour now J = node := fun J => if_neg hdue
    rw [hpass, hpass, hpass]

theorem Ok.pass (hok : node.Ok) : (node.pass h J).Ok := by
  obtain heq | ⟨j, hslot, heq⟩ := node.pass_cases
  · rwa [heq]
  · rw [heq]
    exact hok.leave hslot

end FillpTimingWheelTimerNode

namespace FillpTimingWheel

/-- Timers that are changed one after the other. -/
theorem turn_cons {k : FillpTimingWheelTimerNode → FillpTimingWheelTimerNode}
    (hn : n ∉ l) : (fun m => if m ∈ n :: l then k (nodes m) else nodes m) =
      fun m => if m ∈ l then k (update nodes n (k (nodes n)) m) else update nodes n (k (nodes n)) m := by
  funext m
  by_cases hm : m = n
  · subst hm
    simp [hn]
  · simp [hm]

theorem Wf.foldl_leaveSlot (hs : s.Wf) (hnodup : l.Nodup) (hslot : ∀ m ∈ l, (s.node m).slot h = some j) :
    Turns s (l.foldl (FillpTimingWheel.leaveSlot h j) s) fun m => if m ∈ l then (s.node m).leave h else s.node m := by
  induction l generalizing s with
  | nil =>
    exact .self hs
  | cons n l ih =>
    obtain ⟨hn, hl⟩ := nodup_cons.1 hnodup
    have hleave := hs.leaveSlot (hslot n mem_cons_self)
    have hne : ∀ m ∈ l, m ≠ n := fun m hm heq => hn (heq ▸ hm)
    have hrest := ih hleave.wf hl fun m hm => by
      rw [hleave.node, update_of_ne (hne m hm)]
      exact hslot m (mem_cons_of_mem n hm)
    rw [turn_cons hn, ← hleave.node]
    exact hleave.trans hrest

theorem Wf.sweepSlot (hs : s.Wf) (h : TimingHand) (j : ℤ) :
    Turns s (s.sweepSlot h j) fun m => (s.node m).pass h [j] := by
  have hnodes : (fun m => (s.node m).pass h [j]) =
      fun m => if m ∈ (s.hand h).slotList j then (s.node m).leave h else s.node m := by
    funext m
    by_cases hm : (s.node m).slot h = some j
    · rw [if_pos ((hs.mem h j m).2 hm), pass_of_mem hm mem_cons_self]
    · rw [if_neg (mt (hs.mem h j m).1 hm), pass_of_not (by simpa using hm)]
  rw [hnodes]
  exact hs.foldl_leaveSlot (hs.nodup h j) fun m hm => (hs.mem h j m).1 hm

theorem Wf.foldl_sweepSlot (hs : s.Wf) (J : List ℤ) :
    Turns s (J.foldl (fun s j => s.sweepSlot h j) s) fun m => (s.node m).pass h J := by
  induction J generalizing s with
  | nil =>
    have hnodes : (fun m => (s.node m).pass h []) = s.node := by
      funext m
      exact pass_of_not (by simp)
    rw [hnodes]
    exact .self hs
  | cons j J ih =>
    have hfirst := hs.sweepSlot h j
    have hrest := ih hfirst.wf
    rw [hfirst.node] at hrest
    simp only [pass_cons h j J]
    exact hfirst.trans hrest

/-! ## The hour hand -/

/-- The timers of a slot that are added again. -/
def recycles (s : FillpTimingWheel) (m : ℕ) : Bool :=
  s.curTime ≤ (s.node m).expireTime && (s.node m).expireTime < s.curTime + (s.hand .hour).handLength

theorem Wf.visitHour (hs : s.Wf) (hslot : (s.node n).slot .hour = some j) :
    Turns { s with hourCycleList := s.hourCycleList ++ [n].filter s.recycles } (s.visitHour j n)
      (update s.node n ((s.node n).leaveDue s.curTime)) := by
  rw [FillpTimingWheel.visitHour, leaveDue]
  by_cases hdue : (s.node n).expireTime < s.curTime
  · have hrec : s.recycles n = false := by rw [recycles, decide_eq_false (by omega), Bool.false_and]
    rw [if_pos hdue, if_pos hdue, filter_singleton, hrec, cond_false, append_nil]
    exact hs.leaveSlot hslot
  · -- The timer stays for the moment.
    have hrec : s.recycles n = decide (s.curTime + (s.hand .hour).handLength > (s.node n).expireTime) := by
      rw [recycles, decide_eq_true (by omega), Bool.true_and]
    rw [if_neg hdue, if_neg hdue, update_eq_self, filter_singleton, hrec]
    split
    next hsoon =>
      rw [decide_eq_true hsoon]
      exact ⟨⟨{ hs with }, rfl, rfl, rfl⟩, hs.node⟩
    next hsoon =>
      rw [decide_eq_false hsoon, cond_false, append_nil]
      exact .self hs

theorem Wf.foldl_visitHour (hs : s.Wf) (hnodup : l.Nodup) (hslot : ∀ m ∈ l, (s.node m).slot .hour = some j) :
    Turns { s with hourCycleList := s.hourCycleList ++ l.filter s.recycles } (l.foldl (FillpTimingWheel.visitHour j) s)
      fun m => if m ∈ l then (s.node m).leaveDue s.curTime else s.node m := by
  induction l generalizing s with
  | nil =>
    simp only [not_mem_nil, if_false, filter_nil, append_nil]
    exact .self hs
  | cons n l ih =>
    obtain ⟨hn, hl⟩ := nodup_cons.1 hnodup
    have hfirst := hs.visitHour (hslot n mem_cons_self)
    have hold : ∀ m ∈ l, (s.visitHour j n).node m = s.node m := fun m hm => by
      rw [hfirst.node, update_of_ne (ne_of_mem_of_not_mem hm hn)]
    have hrest := ih hfirst.wf hl fun m hm => by
      rw [hold m hm]
      exact hslot m (mem_cons_of_mem n hm)
    have hcurTime : (s.visitHour j n).curTime = s.curTime := congrArg WheelClock.curTime hfirst.clock
    have hlength : ((s.visitHour j n).hand .hour).handLength = (s.hand .hour).handLength :=
      congrArg WheelClock.hourLength hfirst.clock
    have hfilter : l.filter (s.visitHour j n).recycles = l.filter s.recycles := filter_congr fun m hm => by
      rw [recycles, recycles, hcurTime, hlength, hold m hm]
    have hnodes : (fun m => if m ∈ n :: l then (s.node m).leaveDue s.curTime else s.node m) = fun m =>
        if m ∈ l then ((s.visitHour j n).node m).leaveDue (s.visitHour j n).curTime else (s.visitHour j n).node m := by
      rw [turn_cons hn, hfirst.node, hcurTime]
    rw [hnodes]
    refine ⟨⟨hrest.mirror, hrest.clock.trans hfirst.clock, hrest.node, ?_⟩, hrest.ok⟩
    rw [foldl_cons, hrest.cycle, hfilter]
    show (s.visitHour j n).hourCycleList ++ _ = _
    rw [hfirst.cycle, append_assoc, ← filter_append]
    rfl

theorem Wf.sweepHourSlot (hs : s.Wf) (j : ℤ) :
    Turns { s with hourCycleList := s.hourCycleList ++ ((s.hand .hour).slotList j).filter s.recycles } (s.sweepHourSlot j)
      fun m => (s.node m).passHour s.curTime [j] := by
  have hnodes : (fun m => (s.node m).passHour s.curTime [j]) = fun m =>
      if m ∈ (s.hand .hour).slotList j then (s.node m).leaveDue s.curTime else s.node m := by
    funext m
    rw [passHour, leaveDue]
    by_cases hm : (s.node m).slot .hour = some j
    · rw [if_pos ((hs.mem .hour j m).2 hm), pass_of_mem hm mem_cons_self]
    · rw [if_neg (mt (hs.mem .hour j m).1 hm), pass_of_not (by simpa using hm), ite_self]
  rw [hnodes]
  exact hs.foldl_visitHour (hs.nodup .hour j) fun m hm => (hs.mem .hour j m).1 hm

theorem Wf.foldl_sweepHourSlot (hs : s.Wf) {J : List ℤ} (hJ : J.Nodup) :
    ∃ l : List ℕ, l.Nodup ∧ (∀ m, m ∈ l ↔ (s.node m).Recycles s.curTime (s.hand .hour).handLength J) ∧
      Turns { s with hourCycleList := s.hourCycleList ++ l } (J.foldl (fun s j => s.sweepHourSlot j) s) fun m =>
        (s.node m).passHour s.curTime J := by
  induction J generalizing s with
  | nil =>
    have hnodes : (fun m => (s.node m).passHour s.curTime []) = s.node := by
      funext m
      rw [passHour, pass_of_not (by simp), ite_self]
    rw [hnodes]
    refine ⟨[], nodup_nil, fun m => ?_, ?_⟩
    · simp [FillpTimingWheelTimerNode.Recycles]
    · rw [append_nil]
      exact .self hs
  | cons j J ih =>
    obtain ⟨hj, hJ'⟩ := nodup_cons.1 hJ
    have hfirst := hs.sweepHourSlot j
    obtain ⟨l, hl, hmem, hrest⟩ := ih hfirst.wf hJ'
    have hcurTime : (s.sweepHourSlot j).curTime = s.curTime := congrArg WheelClock.curTime hfirst.clock
    have hlength : ((s.sweepHourSlot j).hand .hour).handLength = (s.hand .hour).handLength :=
      congrArg WheelClock.hourLength hfirst.clock
    rw [hcurTime, hlength, hfirst.node] at hmem
    dsimp only at hmem
    -- The timers of the other slots have not changed.
    have hrec : ∀ m, m ∈ l ↔ (s.node m).Recycles s.curTime (s.hand .hour).handLength J := fun m => by
      rw [hmem]
      by_cases hm : (s.node m).expireTime < s.curTime ∧ (s.node m).slot .hour = some j
      · have hpass : (s.node m).passHour s.curTime [j] = (s.node m).leave .hour := by
          rw [passHour, if_pos hm.1, pass_of_mem hm.2 mem_cons_self]
        rw [hpass, FillpTimingWheelTimerNode.Recycles, expireTime_leave]
        constructor
        · omega
        · rintro ⟨-, hle, -⟩
          omega
      · have hpass : (s.node m).passHour s.curTime [j] = s.node m := by
          rw [passHour]
          split
          next hdue =>
            refine pass_of_not fun j' hj' hslot => hm ⟨hdue, ?_⟩
            rw [hslot, mem_singleton.1 hj']
          next => rfl
        rw [hpass]
    refine ⟨((s.hand .hour).slotList j).filter s.recycles ++ l, ?_, fun m => ?_, ?_⟩
    · refine nodup_append.2 ⟨(hs.nodup .hour j).filter _, hl, fun a ha b hb heq => ?_⟩
      obtain ⟨⟨j', hj', hslot⟩, -⟩ := (hrec b).1 hb
      have hslot' := (hs.mem .hour j a).1 (mem_filter.1 ha).1
      rw [heq, hslot] at hslot'
      exact hj (Option.some.inj hslot' ▸ hj')
    · rw [mem_append, hrec, mem_filter, hs.mem, recycles, Bool.and_eq_true, decide_eq_true_eq, decide_eq_true_eq,
        FillpTimingWheelTimerNode.Recycles, FillpTimingWheelTimerNode.Recycles, exists_mem_cons_iff, or_and_right]
    · have hnodes : (fun m => (s.node m).passHour s.curTime (j :: J)) =
          fun m => ((s.sweepHourSlot j).node m).passHour (s.sweepHourSlot j).curTime J := by
        funext m
        rw [hfirst.node, hcurTime]
        exact passHour_cons s.curTime
      rw [hnodes, foldl_cons]
      refine ⟨⟨hrest.mirror, hrest.clock.trans hfirst.clock, hrest.node, ?_⟩, hrest.ok⟩
      rw [hrest.cycle]
      show (s.sweepHourSlot j).hourCycleList ++ l = _
      rw [hfirst.cycle]
      exact append_assoc ..

end FillpTimingWheel

/-- A timer that has been deleted and added again. -/
def FillpTimingWheelTimerNode.reinsert (c : WheelClock) (node : FillpTimingWheelTimerNode) : FillpTimingWheelTimerNode :=
  node.deleted.insert c node.expireTime

/-- A timer that is added is in slots that exist. -/
theorem FillpTimingWheelTimerNode.Ok.insert {c : WheelClock} {expireTime : ℤ} (hcb : node.cbListNode = false)
    (hrange : ∀ h, ∀ j ∈ c.slots expireTime h, 0 ≤ j ∧ j < fillpTimingWheelSlotNum) :
    (node.insert c expireTime).Ok := by
  refine ⟨fun _ => rfl, hrange, fun hcb' => ?_, fun _ => rfl⟩
  rw [show node.cbListNode = true from hcb'] at hcb
  cases hcb

namespace FillpTimingWheel

theorem Wf.recycleLoop (hs : s.Wf) (hcycle : s.hourCycleList = l) (hnodup : l.Nodup)
    (hen : ∀ m ∈ l, (s.node m).isNodeEnabled = true)
    (hrange : ∀ m ∈ l, ∀ h, ∀ j ∈ s.clock.slots (s.node m).expireTime h, 0 ≤ j ∧ j < fillpTimingWheelSlotNum) :
    Turns { s with hourCycleList := [] } (recycleLoop l.length s) fun m =>
      if m ∈ l then (s.node m).reinsert s.clock else s.node m := by
  induction l generalizing s with
  | nil =>
    simp only [not_mem_nil, if_false]
    rw [length_nil, ← hcycle]
    exact .self hs
  | cons n l ih =>
    obtain ⟨hn, hl⟩ := nodup_cons.1 hnodup
    have hne : ∀ m ∈ l, m ≠ n := fun m hm heq => hn (heq ▸ hm)
    rw [length_cons, recycleLoop, hcycle]
    dsimp only
    have hs₀ : ({ s with hourCycleList := l } : FillpTimingWheel).Wf := { hs with }
    have hdel := hs₀.fillpTimingWheelDelTimer (hen n mem_cons_self)
    generalize ({ s with hourCycleList := l } : FillpTimingWheel).fillpTimingWheelDelTimer n = s₁ at hdel ⊢
    have hself : s₁.node n = (s.node n).deleted := by rw [hdel.node, update_self]
    have hexpire : (s₁.node n).expireTime = (s.node n).expireTime := by rw [hself]; rfl
    have hclock : s₁.clock = s.clock := hdel.clock
    rw [hexpire]
    have hadd := hdel.mirror.fillpTimingWheelAddTimerInner (n := n) (by rw [hself]; exact fun _ => rfl) (s.node n).expireTime
    generalize s₁.fillpTimingWheelAddTimerInner (s.node n).expireTime n = s₂ at hadd ⊢
    have hnode : s₂.node = update s.node n ((s.node n).reinsert s.clock) := by
      rw [hadd.node, hself, hdel.node, update_idem, hclock]
      rfl
    have hok : ((s.node n).reinsert s.clock).Ok := .insert rfl (hrange n mem_cons_self)
    have hs₂ : s₂.Wf := ⟨hadd.mirror, fun m => hnode ▸ ok_update hs hok m⟩
    have hclock' : s₂.clock = s.clock := hadd.clock.trans hclock
    have hold : ∀ m ∈ l, s₂.node m = s.node m := fun m hm => by rw [hnode, update_of_ne (hne m hm)]
    have hrest := ih hs₂ (hadd.cycle.trans hdel.cycle) hl
      (fun m hm => by rw [hold m hm]; exact hen m (mem_cons_of_mem n hm))
      (fun m hm => by rw [hold m hm, hclock']; exact hrange m (mem_cons_of_mem n hm))
    rw [turn_cons hn, ← hnode, ← hclock']
    exact ⟨⟨hrest.mirror, hrest.clock.trans hclock', hrest.node, hrest.cycle⟩, hrest.ok⟩

end FillpTimingWheel
end SoftBus.Native
