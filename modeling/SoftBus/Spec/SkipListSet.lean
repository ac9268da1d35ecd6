import SoftBus.ForStd.Run
import SoftBus.Spec.SkipList

/-!
# Skip lists are ordered sets

`SortedItems` is what a skip list is for: the items in the order of their keys, from which the users take the first one or
the last one.  Read from the back a skip list is a skip list of the items in the opposite order, so that the last
item is taken out as the first one is.  In every run in which no node is inserted that is in the list already, a
skip list returns what the ordered items give, and it holds these items.

## Main results

* `SkipList.Repr.popTail_concat`: taking out the last item leaves the others.
* `SkipListUser.skipList_refines`: the calls of the users of a skip list and of the ordered items return the same.
-/

namespace SoftBus.Native
open Function List
variable {ι α κ : Type*} {l : List ι} {a : ι}

/-! ## The list read from the back -/

theorem maxLevel_perm {nodeLevel : ι → ℕ} {l' : List ι} (h : l.Perm l') :
    maxLevel nodeLevel l = maxLevel nodeLevel l' := by
  induction h with
  | nil => rfl
  | cons a _ ih => exact congrArg (max (nodeLevel a)) ih
  | swap a b l => exact Nat.max_left_comm ..
  | trans _ _ ih₁ ih₂ => exact ih₁.trans ih₂

namespace SkipList
variable {s : SkipList ι}

/-- Head and tail exchanged in all levels. -/
def reverse (s : SkipList ι) : SkipList ι :=
  { s with
    head := s.tail
    tail := s.head
    levels := fun i => (s.levels i).reverse }

theorem Repr.reverse (h : Repr s l) : Repr s.reverse l.reverse where
  levels i := by
    rw [filter_reverse]
    exact (h.levels i).reverse
  pos a ha := h.pos a (mem_reverse.1 ha)
  level := h.level.trans (maxLevel_perm l.reverse_perm.symm)
  head := by
    rw [head?_reverse]
    exact h.tail
  tail := by
    rw [getLast?_reverse]
    exact h.head
  nodeNum := by
    rw [length_reverse]
    exact h.nodeNum
  size := by
    rw [length_reverse]
    exact h.size

variable [DecidableEq ι]

theorem popTailLevel_eq (d : DList ι) : popTailLevel a d = (popLevel a d.reverse).reverse := by
  simp only [popTailLevel, popLevel, DList.reverse]
  cases d.prev a <;> rfl

/-- The loop over the levels of the last item, in a list that is read from the back. -/
theorem foldl_popTailLevel (s : SkipList ι) (tail : ι) (levels : List ℕ) :
    levels.foldl
        (fun list index =>
          { list with
            levels := update list.levels index (popTailLevel tail (list.levels index))
            level := if (list.levels index).prev tail = none then list.level - 1 else list.level }) s.reverse =
      reverse (levels.foldl
        (fun list index =>
          { list with
            levels := update list.levels index (popLevel tail (list.levels index))
            level := if (list.levels index).next tail = none then list.level - 1 else list.level }) s) := by
  refine foldl_hom reverse fun s index => ?_
  have hlevels : update s.reverse.levels index (popTailLevel tail (s.reverse.levels index)) =
      fun i => (update s.levels index (popLevel tail (s.levels index)) i).reverse := by
    rw [popTailLevel_eq]
    exact (comp_update DList.reverse s.levels index _).symm
  simp only [hlevels]
  rfl

/-- The last item is taken out of a list as the first one of the list that is read from the back. -/
theorem skipListPopTail_eq :
    s.skipListPopTail = (s.reverse.skipListPopValue.1, s.reverse.skipListPopValue.2.reverse) := by
  cases htail : s.tail with
  | none =>
    have hhead : s.reverse.head = none := htail
    rw [skipListPopTail, skipListPopValue, htail, hhead]
    rfl
  | some tail =>
    have hhead : s.reverse.head = some tail := htail
    have hfold := foldl_popTailLevel s.reverse tail (range (s.nodeLevel tail)).reverse
    rw [show s.reverse.reverse = s from rfl] at hfold
    rw [skipListPopTail, skipListPopValue, htail, hhead]
    simp only [hfold]
    rfl

theorem Repr.popTail_nil (h : Repr s []) : s.skipListPopTail = (none, s) := by
  rw [skipListPopTail, h.tail]
  rfl

theorem Repr.popTail_concat (h : Repr s (l ++ [a])) :
    s.skipListPopTail.1 = some a ∧ Repr s.skipListPopTail.2 l := by
  have hback := h.reverse
  rw [reverse_concat] at hback
  obtain ⟨hitem, hrest⟩ := hback.popValue_cons
  rw [skipListPopTail_eq]
  exact ⟨hitem, l.reverse_reverse ▸ hrest.reverse⟩

end SkipList

/-! ## The ordered items -/

/-- The items in the order of their keys, and what the calls returned so far. -/
structure SortedItems (α : Type*) where
  items : List α
  returned : List (SkipListReturn α)

variable [LinearOrder κ]

/-- An item is inserted before those of its key; with `errIfConflict` there must be none. -/
def SortedItems.step (key : α → κ) (t : SortedItems α) : SkipListCall ι α → SortedItems α
  | .insert item _ errIfConflict =>
    if errIfConflict ∧ ∃ a ∈ t.items, key a = key item then { t with returned := t.returned ++ [.ret .comm] }
    else ⟨t.items.orderedInsert (key · ≤ key ·) item, t.returned ++ [.ret .ok]⟩
  | .popValue => ⟨t.items.tail, t.returned ++ [.item t.items.head?]⟩
  | .popTail => ⟨t.items.dropLast, t.returned ++ [.item t.items.getLast?]⟩

/-- The comparison of a total order. -/
structure TotalOrderCmp (funcCmp : α → α → Int) (key : α → κ) : Prop where
  pos : ∀ a b, funcCmp a b > 0 ↔ key b < key a
  zero : ∀ a b, funcCmp a b = 0 ↔ key a = key b

namespace SkipListUser
variable {key : α → κ} {funcCmp : α → α → Int} {s : SkipListUser ι α} {t : SortedItems α}

/-- The list holds the items `l`, and `chain i` are the nodes that are linked in level `i`. -/
structure Holds (key : α → κ) (s : SkipListUser ι α) (l : List α) (chain : ℕ → List ι) : Prop where
  linked : ∀ i, (s.list.levels i).Repr (chain i)
  items : (chain 0).map s.item = l
  sublist : ∀ i, (chain (i + 1)).Sublist (chain i)
  sorted : ∀ i, ((chain i).map s.item).Pairwise (key · ≤ key ·)
  head : s.list.head = (chain 0).head?
  tail : s.list.tail = (chain 0).getLast?
  level : ∀ i, i < s.list.level ↔ chain i ≠ []
  nodeNum : s.list.nodeNum = UInt32.ofNat l.length

/-- The nodes of the list are `l`, their items are the ordered ones, and the calls returned the same. -/
structure Refines (key : α → κ) (s : SkipListUser ι α) (t : SortedItems α) (l : List ι) : Prop where
  repr : s.list.Repr l
  items : l.map s.item = t.items
  sorted : t.items.Pairwise (key · ≤ key ·)
  returned : s.returned = t.returned

theorem Refines.sorted_nodes (h : Refines key s t l) : l.Pairwise fun a b => key (s.item a) ≤ key (s.item b) := by
  have hsorted := h.sorted
  rwa [← h.items, pairwise_map] at hsorted

theorem Refines.holds (h : Refines key s t l) :
    Holds key s t.items fun i => l.filter fun a => i < s.list.nodeLevel a where
  linked := h.repr.levels
  items := by
    rw [h.repr.filter_zero (List.Subset.refl l)]
    exact h.items
  sublist i := monotone_filter_right l fun a ha => by
    rw [decide_eq_true_eq] at ha ⊢
    exact Nat.lt_of_succ_lt ha
  sorted i := pairwise_map.2 (h.sorted_nodes.sublist filter_sublist)
  head := by
    rw [h.repr.filter_zero (List.Subset.refl l)]
    exact h.repr.head
  tail := by
    rw [h.repr.filter_zero (List.Subset.refl l)]
    exact h.repr.tail
  level i := by
    rw [Ne, filter_level_eq_nil, h.repr.level]
    exact Nat.not_le.symm
  nodeNum := by
    rw [h.repr.nodeNum, ← h.items, length_map]

variable [DecidableEq ι]

theorem Refines.insert (hcmp : TotalOrderCmp funcCmp key) (h : Refines key s t l) {item : α} {node : ι}
    (hnode : node ∉ l) (errIfConflict : Bool) :
    ∃ l', Refines key (s.step funcCmp (.insert item node errIfConflict))
      (t.step key (.insert item node errIfConflict)) l' := by
  -- the items of the list are as before
  have hitem : ∀ a ∈ l, update s.item node item a = s.item a := fun a ha =>
    update_of_ne (ne_of_mem_of_not_mem ha hnode) _ _
  have hitems : l.map (update s.item node item) = t.items := by
    rw [← h.items]
    exact map_congr_left hitem
  have hnew : update s.item node item node = item := update_self ..
  have hsorted := h.sorted
  rw [← hitems, pairwise_map] at hsorted
  simp only [step, SortedItems.step]
  generalize update s.item node item = items at hitems hnew hsorted ⊢
  have hcompares : SkipList.Compares (fun a b => funcCmp (items a) (items b)) (fun a => key (items a)) node l :=
    ⟨fun a _ => hcmp.pos _ _, fun a _ => hcmp.pos _ _, fun a _ _ => hcmp.zero _ _⟩
  have hins := h.repr.insert hnode hsorted hcompares errIfConflict
  have hequal : (∃ a ∈ l, key (items a) = key (items node)) ↔ ∃ a ∈ t.items, key a = key item := by
    rw [← hitems, hnew]
    simp
  by_cases hconflict : errIfConflict = true ∧ ∃ a ∈ t.items, key a = key item
  · rw [if_pos ⟨hconflict.1, hequal.2 hconflict.2⟩] at hins
    rw [if_pos hconflict]
    exact ⟨l, hins.2, hitems, h.sorted, by rw [hins.1, h.returned]⟩
  · rw [if_neg fun hc => hconflict ⟨hc.1, hequal.1 hc.2⟩] at hins
    rw [if_neg hconflict]
    refine ⟨_, hins.2, ?_, h.sorted.orderedInsert item _, by rw [hins.1, h.returned]⟩
    rw [← hitems, ← hnew]
    exact map_orderedInsert _ _ items l node (fun _ _ => Iff.rfl) fun _ _ => Iff.rfl

theorem Refines.popValue (h : Refines key s t l) :
    ∃ l', Refines key (s.step funcCmp .popValue) (t.step key (.popValue : SkipListCall ι α)) l' := by
  have hitems := h.items
  simp only [step, SortedItems.step]
  cases l with
  | nil =>
    rw [h.repr.popValue_nil, ← hitems]
    exact ⟨[], h.repr, rfl, List.Pairwise.nil, by rw [h.returned]; rfl⟩
  | cons a l =>
    obtain ⟨hitem, hrest⟩ := h.repr.popValue_cons
    have hsorted := h.sorted
    rw [← hitems] at hsorted ⊢
    exact ⟨l, hrest, rfl, (pairwise_cons.1 hsorted).2, by rw [hitem, h.returned]; rfl⟩

theorem Refines.popTail (h : Refines key s t l) :
    ∃ l', Refines key (s.step funcCmp .popTail) (t.step key (.popTail : SkipListCall ι α)) l' := by
  have hitems := h.items
  simp only [step, SortedItems.step]
  rcases eq_nil_or_concat' l with rfl | ⟨l, a, rfl⟩
  · rw [h.repr.popTail_nil, ← hitems]
    exact ⟨[], h.repr, rfl, List.Pairwise.nil, by rw [h.returned]; rfl⟩
  · obtain ⟨hitem, hrest⟩ := h.repr.popTail_concat
    have hsorted := h.sorted
    rw [← hitems, map_append, map_singleton] at hsorted ⊢
    rw [dropLast_concat, getLast?_concat]
    exact ⟨l, hrest, rfl, (pairwise_append.1 hsorted).1, by rw [hitem, h.returned]; rfl⟩

/-- The node that is inserted is not in the list. -/
def NodeFree (s : SkipListUser ι α) : SkipListCall ι α → Prop
  | .insert _ node _ => node ∉ s.list.items
  | _ => True

instance (s : SkipListUser ι α) : ∀ call, Decidable (s.NodeFree call)
  | .insert _ node _ => inferInstanceAs (Decidable (node ∉ s.list.items))
  | .popValue => .isTrue trivial
  | .popTail => .isTrue trivial

/-- One call. -/
theorem Refines.step (hcmp : TotalOrderCmp funcCmp key) (h : Refines key s t l) {call : SkipListCall ι α}
    (hfree : s.NodeFree call) : ∃ l', Refines key (s.step funcCmp call) (t.step key call) l' := by
  cases call with
  | insert item node errIfConflict =>
    have hnode : node ∉ s.list.items := hfree
    rw [h.repr.items_eq] at hnode
    exact h.insert hcmp hnode errIfConflict
  | popValue => exact h.popValue
  | popTail => exact h.popTail

/-- The first of the ordered items is a minimum. -/
theorem key_head_le {l : List α} (hsorted : l.Pairwise (key · ≤ key ·)) :
    ∀ x ∈ l.head?, ∀ y ∈ l, key x ≤ key y := by
  cases l with
  | nil => simp
  | cons a l =>
    rintro x ⟨⟩ y hy
    rcases mem_cons.1 hy with rfl | hy
    · exact le_rfl
    · exact (pairwise_cons.1 hsorted).1 y hy

/-- The last one is a maximum. -/
theorem le_key_getLast {l : List α} (hsorted : l.Pairwise (key · ≤ key ·)) :
    ∀ x ∈ l.getLast?, ∀ y ∈ l, key y ≤ key x := by
  rcases eq_nil_or_concat' l with rfl | ⟨l, a, rfl⟩
  · simp
  · rw [getLast?_concat]
    rintro x ⟨⟩ y hy
    rcases mem_append.1 hy with hy | hy
    · exact (pairwise_append.1 hsorted).2.2 y hy _ mem_cons_self
    · exact (congrArg key (mem_singleton.1 hy)).le

/-- In every run in which no node is inserted that is in the list, the calls return what the ordered items give, the list holds
    these items in all its levels, and the first and the last of them are a minimum and a maximum. -/
theorem skipList_refines (hcmp : TotalOrderCmp funcCmp key) (randomLev : ℕ → Bool) (item : ι → α)
    (calls : List (SkipListCall ι α)) (hfree : Run.AllSteps (step funcCmp) NodeFree (init randomLev item) calls) :
    let s := calls.foldl (step funcCmp) (init randomLev item)
    let t := calls.foldl (SortedItems.step key) ⟨[], []⟩
    s.returned = t.returned ∧ (∃ chain, Holds key s t.items chain) ∧
      (∀ x ∈ t.items.head?, ∀ y ∈ t.items, key x ≤ key y) ∧ ∀ x ∈ t.items.getLast?, ∀ y ∈ t.items, key y ≤ key x := by
  have hinit : ∃ l, Refines key (init randomLev item) ⟨[], []⟩ l :=
    ⟨[], SkipList.Repr.init, rfl, List.Pairwise.nil, rfl⟩
  obtain ⟨l, h⟩ := hfree.foldl_sim (R := fun s t => ∃ l, Refines key s t l)
    (fun _ _ _ ⟨_, h⟩ hok => h.step hcmp hok) hinit
  exact ⟨h.returned, ⟨_, h.holds⟩, key_head_le h.sorted, le_key_getLast h.sorted⟩

/-- Two nodes of three are taken out, and one of them comes back with another item. -/
theorem skipList_refines_of_three :
    let calls := [.insert 5 0 true, .insert 3 1 true, .insert 5 2 true, .insert 5 2 false, .popValue, .popTail,
      .insert 7 1 true]
    let s := calls.foldl (step (ι := ℕ) fun a b : ℤ => a - b) (init (fun i => i % 3 = 0) fun _ => 0)
    s.returned = [.ret .ok, .ret .ok, .ret .comm, .ret .ok, .item (some 3), .item (some 5), .ret .ok] ∧
      ∃ chain, Holds id s [5, 7] chain := by
  intro calls s
  have hcmp : TotalOrderCmp (fun a b : ℤ => a - b) id :=
    ⟨fun _ _ => Int.sub_pos, fun _ _ => Int.sub_eq_zero⟩
  obtain ⟨hreturned, hholds, -⟩ := skipList_refines hcmp (fun i => i % 3 = 0) (fun _ => 0) calls (by decide +kernel)
  refine ⟨hreturned.trans (by decide +kernel), ?_⟩
  exact hholds

/-- The node in the middle of three is inserted once more.  The call fails for the conflict, but it has set the links of the node
    to null, so that the last item cannot be reached from the first one any more. -/
theorem conflict_cuts_list :
    let calls := [.insert 1 1 true, .insert 2 2 true, .insert 3 3 true]
    let s := calls.foldl (step (ι := ℕ) fun a b : ℤ => a - b) (init (fun _ => false) fun _ => 0)
    let s' := s.step (fun a b => a - b) (.insert 2 2 true)
    s.list.items.map s.item = [1, 2, 3] ∧ s'.returned = s.returned ++ [.ret .comm] ∧ s'.list.nodeNum = 3 ∧
      s'.list.items.map s'.item = [1, 2] ∧ (s'.list.levels 0).next 2 = none ∧ s'.list.tail = some 3 := by
  decide +kernel

end SkipListUser
end SoftBus.Native
