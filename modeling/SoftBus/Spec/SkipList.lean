import Mathlib
import SoftBus.Native.SkipList

/-!
# Skip lists hold ordered lists

`Repr s l` says that the items of a skip list are `l`: each level links those items that have it, in this order, and the counts are
right.  Taking out the first item gives the rest.  The search for the place of a new item comes, in each
level, to the last smaller item of it, so that the new item gets between the smaller items and the others.
-/

namespace SoftBus.Native
open Function List Option
variable {ι κ : Type*} {l l₁ l₂ : List ι} {a x : ι} {d : DList ι} {nodeLevel : ι → ℕ} {funcCmp : ι → ι → Int}
  {randomLev : ℕ → Bool}

/-! ## Levels -/

/-- The highest level of the items. -/
def maxLevel (nodeLevel : ι → ℕ) (l : List ι) : ℕ := l.foldr (fun a m => max (nodeLevel a) m) 0

theorem filter_level_eq_nil {i : ℕ} :
    l.filter (fun a => i < nodeLevel a) = [] ↔ maxLevel nodeLevel l ≤ i := by
  induction l with
  | nil => simp [maxLevel]
  | cons a l ih =>
    simp only [maxLevel, foldr_cons, Nat.max_le] at ih ⊢
    rw [filter_cons]
    split
    · next h => simp at h; simp; omega
    · next h => simp at h; rw [ih]; omega

theorem maxLevel_middle :
    maxLevel nodeLevel (l₁ ++ a :: l₂) = max (nodeLevel a) (maxLevel nodeLevel (l₁ ++ l₂)) := by
  induction l₁ with
  | nil => rfl
  | cons b l₁ ih =>
    simp only [maxLevel, cons_append, foldr_cons] at ih ⊢
    omega

theorem maxLevel_congr {nodeLevel' : ι → ℕ} (h : ∀ a ∈ l, nodeLevel' a = nodeLevel a) :
    maxLevel nodeLevel' l = maxLevel nodeLevel l := by
  induction l with
  | nil => rfl
  | cons a l ih =>
    simp only [maxLevel, foldr_cons] at ih ⊢
    rw [h a mem_cons_self, ih fun b hb => h b (mem_cons_of_mem a hb)]

theorem forLevels_apply (n : ℕ) (f : ℕ → DList ι → DList ι) (levels : ℕ → DList ι) (i : ℕ) :
    forLevels n f levels i = if i < n then f i (levels i) else levels i := by
  induction n generalizing i with
  | zero => rfl
  | succ n ih =>
    have hsucc : forLevels (n + 1) f levels =
        update (forLevels n f levels) n (f n (forLevels n f levels n)) := by
      rw [forLevels, range_succ, foldl_append]
      rfl
    rw [hsucc]
    by_cases hi : i = n
    · subst hi
      rw [update_self, ih, if_neg (Nat.lt_irrefl i), if_pos (Nat.lt_succ_self i)]
    · rw [update_of_ne hi, ih]
      exact if_congr (by omega) rfl rfl

namespace SkipList
variable {s : SkipList ι}

/-- The items of the list. -/
structure Repr (s : SkipList ι) (l : List ι) : Prop where
  levels : ∀ i, (s.levels i).Repr (l.filter fun a => i < s.nodeLevel a)
  pos : ∀ a ∈ l, 0 < s.nodeLevel a
  level : s.level = maxLevel s.nodeLevel l
  head : s.head = l.head?
  tail : s.tail = l.getLast?
  nodeNum : s.nodeNum = UInt32.ofNat l.length
  size : s.size = l.length

theorem Repr.init : Repr (skiplistInit randomLev : SkipList ι) [] :=
  ⟨fun _ => .empty, fun _ h => absurd h not_mem_nil, rfl, rfl, rfl, rfl, rfl⟩

/-- All items are in the lowest level. -/
theorem Repr.filter_zero (h : Repr s l) {l' : List ι} (hl' : l' ⊆ l) : l'.filter (fun a => 0 < s.nodeLevel a) = l' :=
  filter_eq_self.2 fun a ha => by simpa using h.pos a (hl' ha)

theorem Repr.levels_zero (h : Repr s l) : (s.levels 0).Repr l := by
  have hlevel := h.levels 0
  rwa [h.filter_zero (List.Subset.refl l)] at hlevel

theorem Repr.randomLevel (h : Repr s l) : Repr s.skiplistRandomLevel.2 l := { h with }

theorem itemsFrom_eq {start : Option ι} {steps : ℕ} (h : Seg d.next start l none)
    (hsteps : l.length ≤ steps) : itemsFrom d steps start = l := by
  induction l generalizing start steps with
  | nil =>
    obtain rfl := h.start_eq
    cases steps <;> rfl
  | cons a l ih =>
    obtain ⟨rfl, hrest⟩ := h
    cases steps with
    | zero => simp at hsteps
    | succ steps => rw [itemsFrom, ih hrest (by simpa using hsteps)]

/-- The items of the list, read in the lowest level. -/
theorem Repr.items_eq (h : Repr s l) : s.items = l := by
  rw [items, h.head, ← h.levels_zero.first_eq]
  exact itemsFrom_eq h.levels_zero.next h.size.ge

/-! ## The search -/

/-- In a level the search goes over the smaller items. -/
theorem walk_eq {steps : ℕ} {prev start : Option ι}
    (h : Seg d.next start (l₁ ++ l₂) none) (hl₁ : ∀ a ∈ l₁, funcCmp x a > 0) (hl₂ : ∀ a ∈ l₂.head?, ¬ funcCmp x a > 0)
    (hsteps : l₁.length ≤ steps) : walk funcCmp d x steps prev start = (l₁.getLast?.or prev, l₂.head?) := by
  induction l₁ generalizing steps prev start with
  | nil =>
    rw [nil_append] at h
    obtain rfl := h.start_eq
    cases steps with
    | zero => rfl
    | succ steps =>
      cases hhead : l₂.head? with
      | none => rfl
      | some b => rw [walk, if_neg (hl₂ b hhead)]; rfl
  | cons a l₁ ih =>
    obtain ⟨rfl, hrest⟩ := h
    cases steps with
    | zero => simp at hsteps
    | succ steps =>
      rw [walk, if_pos (hl₁ a mem_cons_self),
        ih hrest (fun b hb => hl₁ b (mem_cons_of_mem a hb)) (by simpa using hsteps)]
      cases l₁ with
      | nil => rfl
      | cons b l₁ => rw [getLast?_cons_cons, getLast?_cons, some_or, some_or]

/-- The search in the levels below `n`, from the last smaller item of level `n` on. -/
theorem Repr.findPrev_eq (h : Repr s (l₁ ++ l₂)) (hl₁ : ∀ a ∈ l₁, funcCmp x a > 0)
    (hl₂ : ∀ a ∈ l₂, ¬ funcCmp x a > 0) (n : ℕ) (next : Option ι) (prevRecord : ℕ → Option ι) :
    findPrev funcCmp s x n (l₁.filter fun a => n < s.nodeLevel a).getLast? next prevRecord =
      (if n = 0 then next else l₂.head?,
        fun i => if i < n then (l₁.filter fun a => i < s.nodeLevel a).getLast? else prevRecord i) := by
  induction n generalizing next prevRecord with
  | zero => rfl
  | succ n ih =>
    have hsteps : (l₁ ++ l₂).length ≤ s.size := h.size.ge
    have hchain := h.levels n
    rw [filter_append] at hchain
    have hwalk : walk funcCmp (s.levels n) x s.size (l₁.filter fun a => n + 1 < s.nodeLevel a).getLast?
        ((l₁.filter fun a => n + 1 < s.nodeLevel a).getLast?.elim (s.levels n).first (s.levels n).next) =
        ((l₁.filter fun a => n < s.nodeLevel a).getLast?, (l₂.filter fun a => n < s.nodeLevel a).head?) := by
      have hsmall : ∀ a ∈ l₁.filter fun a => n < s.nodeLevel a, funcCmp x a > 0 := fun a ha =>
        hl₁ a (mem_of_mem_filter ha)
      have hlarge : ∀ a ∈ (l₂.filter fun a => n < s.nodeLevel a).head?, ¬ funcCmp x a > 0 := fun a ha =>
        hl₂ a (mem_of_mem_filter (mem_of_mem_head? ha))
      have hle : (l₁.filter fun a => n < s.nodeLevel a).length ≤ s.size :=
        Nat.le_trans (length_filter_le _ _) (by rw [length_append] at hsteps; omega)
      cases hp : (l₁.filter fun a => n + 1 < s.nodeLevel a).getLast? with
      | none =>
        rw [elim_none, walk_eq hchain.next hsmall hlarge hle, or_none]
      | some p =>
        -- the search goes on from an item that is in this level too
        have hmem : p ∈ l₁.filter fun a => n < s.nodeLevel a := by
          have hmem := mem_filter.1 (mem_of_getLast? hp)
          rw [mem_filter, decide_eq_true_eq]
          exact ⟨hmem.1, Nat.lt_of_succ_lt (of_decide_eq_true hmem.2)⟩
        obtain ⟨before, after, heq⟩ := append_of_mem hmem
        rw [heq] at hsmall hle hchain ⊢
        rw [append_assoc] at hchain
        rw [length_append, length_cons] at hle
        rw [elim_some, walk_eq hchain.next.rest
          (fun a ha => hsmall a (mem_append_right _ (mem_cons_of_mem p ha))) hlarge (by omega)]
        cases after with
        | nil => rw [getLast?_concat]; rfl
        | cons b after => rw [getLast?_append, getLast?_cons_cons]; rfl
    rw [findPrev]
    simp only [hwalk, ih]
    rw [Prod.mk.injEq]
    constructor
    · rw [if_neg (Nat.succ_ne_zero n)]
      split
      · next hn =>
        subst hn
        rw [h.filter_zero (subset_append_right l₁ l₂)]
      · rfl
    · funext i
      by_cases hi : i = n
      · subst hi
        rw [if_neg (Nat.lt_irrefl i), if_pos (Nat.lt_succ_self i), update_self]
      · rw [update_of_ne hi]
        exact if_congr (by omega) rfl rfl

/-! ## The place of a new item -/

section
variable [LinearOrder κ] {key : ι → κ} {funcCmp : ι → ι → Int}

/-- The new item is compared with the items by their keys.  The comparison of a smaller item with it may give `0`
    as well. -/
structure Compares (funcCmp : ι → ι → Int) (key : ι → κ) (x : ι) (l : List ι) : Prop where
  gt : ∀ a ∈ l, funcCmp x a > 0 ↔ key a < key x
  lt : ∀ a ∈ l, funcCmp a x > 0 ↔ key x < key a
  eq : ∀ a ∈ l, key x ≤ key a → (funcCmp a x = 0 ↔ key a = key x)

/-- The items from the first one on that is not smaller. -/
theorem key_le_of_mem_dropWhile (hsorted : l.Pairwise (key · ≤ key ·)) :
    ∀ a ∈ l.dropWhile (key · < key x), key x ≤ key a := by
  induction l with
  | nil => simp
  | cons b l ih =>
    rw [pairwise_cons] at hsorted
    rw [dropWhile_cons]
    split
    · exact ih hsorted.2
    · next hb =>
      have hb : key x ≤ key b := by simpa using hb
      rw [forall_mem_cons]
      exact ⟨hb, fun a ha => hb.trans (hsorted.1 a ha)⟩

theorem orderedInsert_eq_append :
    l.orderedInsert (key · ≤ key ·) x = l.takeWhile (key · < key x) ++ x :: l.dropWhile (key · < key x) := by
  rw [orderedInsert_eq_take_drop]
  simp only [not_le]

/-- The first of the other items is the new one's equal, if there is one. -/
theorem any_head?_dropWhile (hsorted : l.Pairwise (key · ≤ key ·)) (hcmp : Compares funcCmp key x l) :
    (l.dropWhile (key · < key x)).head?.any (funcCmp · x = 0) = true ↔ ∃ a ∈ l, key a = key x := by
  have hge := key_le_of_mem_dropWhile hsorted (x := x)
  have hsplit := takeWhile_append_dropWhile (p := (key · < key x)) (l := l)
  -- an equal item is not one of the smaller ones
  have hmem : ∀ a ∈ l, key a = key x → a ∈ l.dropWhile (key · < key x) := by
    intro a ha heq
    rw [← hsplit, mem_append] at ha
    rcases ha with ha | ha
    · have hlt : key a < key x := by simpa using mem_takeWhile_imp ha
      exact absurd heq hlt.ne
    · exact ha
  have hsorted₂ : (l.dropWhile (key · < key x)).Pairwise (key · ≤ key ·) :=
    hsorted.sublist (dropWhile_sublist _)
  have hsub : ∀ a ∈ l.dropWhile (key · < key x), a ∈ l := fun a ha => (dropWhile_sublist _).subset ha
  generalize l.dropWhile (key · < key x) = l₂ at hge hmem hsorted₂ hsub ⊢
  cases l₂ with
  | nil =>
    refine ⟨fun hany => absurd hany Bool.false_ne_true, fun hex => ?_⟩
    obtain ⟨a, ha, heq⟩ := hex
    exact absurd (hmem a ha heq) not_mem_nil
  | cons b l₂ =>
    have hb := hsub b mem_cons_self
    rw [head?_cons, any_some, decide_eq_true_eq, hcmp.eq b hb (hge b mem_cons_self)]
    refine ⟨fun heq => ⟨b, hb, heq⟩, fun ⟨a, ha, heq⟩ => ?_⟩
    refine (hge b mem_cons_self).antisymm' ?_
    rcases mem_cons.1 (hmem a ha heq) with rfl | ha
    · exact heq.le
    · exact ((pairwise_cons.1 hsorted₂).1 a ha).trans heq.le

end

variable [DecidableEq ι]

/-! ## Taking out the first item -/

/-- What the first item leaves in its levels. -/
theorem repr_popLevel (h : d.Repr (a :: l)) : (popLevel a d).Repr l := by
  have hnext : d.next a = l.head? := h.next.2.start_eq
  unfold popLevel
  refine h.tail ?_ ?_ ?_ ?_
  all_goals
    rw [hnext]
    cases l <;> rfl

theorem popLevel_next : (popLevel a d).next = d.next := by
  unfold popLevel
  simp only
  split <;> rfl

theorem countP_le_range (m n : ℕ) : (range n).countP (fun i => m ≤ i) = n - m := by
  induction n with
  | zero => simp
  | succ n ih =>
    rw [range_succ, countP_append]
    by_cases h : m ≤ n
    · simp [h]; omega
    · simp [h]; omega

/-- The loop over the levels of the first item. -/
theorem foldl_popLevel (head : ι) (n : ℕ) : (range n).reverse.foldl (fun list index => { list with
            levels := update list.levels index (popLevel head (list.levels index))
            level := if (list.levels index).next head = none then list.level - 1 else list.level }) s =
      { s with
        levels := forLevels n (fun _ => popLevel head) s.levels
        level := s.level - (range n).countP fun i => (s.levels i).next head = none } := by
  induction n generalizing s with
  | zero => rfl
  | succ n ih =>
    rw [range_succ, reverse_append, reverse_singleton, singleton_append, foldl_cons, ih]
    -- the levels below the highest one are as before
    have hlevels : forLevels n (fun _ => popLevel head)
        (update s.levels n (popLevel head (s.levels n))) =
        forLevels (n + 1) (fun _ => popLevel head) s.levels := by
      funext i
      simp only [forLevels_apply]
      by_cases hi : i = n
      · subst hi
        rw [if_neg (Nat.lt_irrefl i), if_pos (Nat.lt_succ_self i), update_self]
      · rw [update_of_ne hi]
        exact if_congr (by omega) rfl rfl
    have hcount : (range n).countP (fun i =>
        (update s.levels n (popLevel head (s.levels n)) i).next head = none) =
        (range n).countP fun i => (s.levels i).next head = none := by
      refine countP_congr fun i hi => ?_
      rw [update_of_ne (Nat.ne_of_lt (mem_range.1 hi))]
    simp only [hlevels, hcount, countP_append, countP_singleton]
    split
    · next h => simp [h]; omega
    · next h => simp [h]

theorem Repr.popValue_nil (h : Repr s []) : s.skipListPopValue = (none, s) := by
  rw [skipListPopValue, h.head]
  rfl

theorem Repr.popValue_cons (h : Repr s (a :: l)) :
    s.skipListPopValue.1 = some a ∧ Repr s.skipListPopValue.2 l := by
  have hnext : ∀ i, i < s.nodeLevel a → (s.levels i).next a = (l.filter fun b => i < s.nodeLevel b).head? := by
    intro i hi
    have hlevel := h.levels i
    rw [filter_cons_of_pos (by simpa using hi)] at hlevel
    exact hlevel.next.2.start_eq
  have hpos := h.pos a mem_cons_self
  have hfirst : (s.levels 0).next a = l.head? := h.levels_zero.next.2.start_eq
  have hcount : (range (s.nodeLevel a)).countP (fun i => (s.levels i).next a = none) =
      s.nodeLevel a - maxLevel s.nodeLevel l := by
    rw [← countP_le_range]
    refine countP_congr fun i hi => ?_
    rw [hnext i (mem_range.1 hi), decide_eq_true_eq, decide_eq_true_eq, head?_eq_none_iff,
      filter_level_eq_nil]
  have hnext0 : (forLevels (s.nodeLevel a) (fun _ => popLevel a) s.levels 0).next a = l.head? := by
    rw [forLevels_apply, if_pos hpos, popLevel_next, hfirst]
  rw [skipListPopValue, h.head]
  simp only [head?_cons, foldl_popLevel, hnext0]
  refine ⟨trivial, fun i => ?_, fun b hb => h.pos b (mem_cons_of_mem a hb), ?_, ?_, ?_, ?_, ?_⟩
  · have hlevel := h.levels i
    simp only [forLevels_apply]
    split
    · next hi =>
      rw [filter_cons_of_pos (by simpa using hi)] at hlevel
      exact repr_popLevel hlevel
    · next hi => rwa [filter_cons_of_neg (by simpa using hi)] at hlevel
  · simp only [hcount, h.level, maxLevel, foldr_cons]
    omega
  · rfl
  · simp only [h.tail]
    cases l with
    | nil => rfl
    | cons b l => rfl
  · simp only [h.nodeNum, length_cons, UInt32.ofNat_add]
    exact UInt32.add_sub_cancel _ _
  · simp only [h.size, length_cons, Nat.add_sub_cancel]

/-! ## The node of a new item -/

theorem randomLevelLoop_pos {more : ℕ} (h : more < maxSkiplistLevel) (index : UInt32) :
    0 < (randomLevelLoop randomLev more index).1 := by
  induction more generalizing index with
  | zero => exact Nat.succ_pos 15
  | succ more ih =>
    rw [randomLevelLoop]
    split
    · exact ih (Nat.lt_of_succ_lt h) _
    · exact Nat.sub_pos_of_lt h

/-- The new node is not linked, and the items are linked as before. -/
theorem Repr.resetNode (h : Repr s l) (hx : x ∉ l) (level : ℕ) : Repr (s.resetNode x level) l := by
  have hlevel : ∀ a ∈ l, (s.resetNode x level).nodeLevel a = s.nodeLevel a := fun a ha =>
    update_of_ne (ne_of_mem_of_not_mem ha hx) _ _
  have hfilter : ∀ i, (l.filter fun a => i < (s.resetNode x level).nodeLevel a) = l.filter fun a => i < s.nodeLevel a :=
    fun i => filter_congr fun a ha => by rw [hlevel a ha]
  refine ⟨fun i => ?_, fun a ha => ?_, ?_, h.head, h.tail, h.nodeNum, h.size⟩
  · rw [hfilter]
    refine (h.levels i).congr rfl rfl (fun a ha => ?_) fun a ha => ?_
    · exact update_of_ne (ne_of_mem_of_not_mem (mem_of_mem_filter ha) hx) _ _
    · exact update_of_ne (ne_of_mem_of_not_mem (mem_of_mem_filter ha) hx) _ _
  · rw [hlevel a ha]
    exact h.pos a ha
  · rw [maxLevel_congr hlevel]
    exact h.level

/-- The node `x` is in no list yet. -/
structure Fresh (x : ι) (d : DList ι) : Prop where
  next : d.next x = none
  prev : d.prev x = none

theorem fresh_resetNode (level i : ℕ) : Fresh x ((s.resetNode x level).levels i) :=
  ⟨update_self .., update_self ..⟩

/-! ## Linking in one level -/

theorem onlyNode_eq_link (h : Fresh x d) : onlyNode x d = d.link none x none := by
  have hnext : update d.next x none = d.next := by rw [← h.next, update_eq_self]
  have hprev : update d.prev x none = d.prev := by rw [← h.prev, update_eq_self]
  simp only [onlyNode, DList.link, elim_none, isNone_none, if_true, hnext, hprev]

theorem tailLevel_eq_link (h : Fresh x d) {p : ι} (hlast : d.last = some p) (hp : p ≠ x) :
    tailLevel x d = d.link d.last x none := by
  have hnext : update (update d.next p (some x)) x none = update d.next p (some x) := by
    rw [update_eq_self_iff, update_of_ne hp.symm, h.next]
  simp [tailLevel, DList.link, store, hlast, hnext]

theorem headLevel_eq_link (h : Fresh x d) {n : ι} (hfirst : d.first = some n) (hn : n ≠ x) :
    headLevel x d = d.link none x d.first := by
  have hprev : update (update d.prev n (some x)) x none = update d.prev n (some x) := by
    rw [update_eq_self_iff, update_of_ne hn.symm, h.prev]
  simp [headLevel, DList.link, store, hfirst, hprev]

theorem midLevel_none_eq_link (h : Fresh x d) {n : ι} (hfirst : d.first = some n) (hn : n ≠ x) :
    midLevel x none d = d.link none x d.first := headLevel_eq_link h hfirst hn

theorem midLevel_some_eq_link {p : ι} (hp : p ≠ x) (hnext : d.next p ≠ some x) :
    midLevel x (some p) d = d.link (some p) x (d.next p) := by
  cases hn : d.next p with
  | none => simp [midLevel, DList.link, store, hn, update_comm hp]
  | some n =>
    have hne : n ≠ x := fun heq => hnext (heq ▸ hn)
    simp [midLevel, DList.link, store, hn, update_comm hp, update_comm hne]

/-- The new item is linked in its levels, between the items `l₁` and `l₂`. -/
theorem Repr.of_link (h : Repr s (l₁ ++ l₂)) (hx : x ∉ l₁ ++ l₂) (hpos : 0 < s.nodeLevel x) {s' : SkipList ι}
    (hlevels : ∀ i, s'.levels i =
      if i < s.nodeLevel x then
        (s.levels i).link (l₁.filter fun a => i < s.nodeLevel a).getLast? x (l₂.filter fun a => i < s.nodeLevel a).head?
      else s.levels i)
    (hnodeLevel : s'.nodeLevel = s.nodeLevel) (hlevel : s'.level = max (s.nodeLevel x) s.level)
    (hhead : s'.head = (s'.levels 0).first) (htail : s'.tail = (s'.levels 0).last)
    (hnum : s'.nodeNum = s.nodeNum + 1) (hsize : s'.size = s.size + 1) : Repr s' (l₁ ++ x :: l₂) := by
  have hrepr : ∀ i, (s'.levels i).Repr ((l₁ ++ x :: l₂).filter fun a => i < s'.nodeLevel a) := by
    intro i
    have hold := h.levels i
    rw [filter_append] at hold
    rw [hlevels, hnodeLevel, filter_append]
    split
    · next hi =>
      rw [filter_cons_of_pos (by simpa using hi)]
      refine hold.link fun hmem => hx ?_
      rw [← filter_append] at hmem
      exact mem_of_mem_filter hmem
    · next hi => rwa [filter_cons_of_neg (by simpa using hi)]
  have hall : ∀ a ∈ l₁ ++ x :: l₂, 0 < s'.nodeLevel a := by
    intro a ha
    rw [hnodeLevel]
    rcases mem_cons.1 (perm_middle.mem_iff.1 ha) with rfl | ha
    · exact hpos
    · exact h.pos a ha
  have hzero := hrepr 0
  rw [filter_eq_self.2 fun a ha => by simpa using hall a ha] at hzero
  refine ⟨hrepr, hall, ?_, hhead.trans hzero.first_eq, htail.trans hzero.last_eq, ?_, ?_⟩
  · rw [hlevel, hnodeLevel, maxLevel_middle, h.level]
  · rw [hnum, h.nodeNum, perm_middle.length_eq, length_cons, UInt32.ofNat_add]
    rfl
  · rw [hsize, h.size, perm_middle.length_eq, length_cons]

section
variable (hpos : 0 < s.nodeLevel x) (hfresh : ∀ i, Fresh x (s.levels i))
include hpos hfresh in
/-- The levels up to the one of the list are linked; the rest is done at the end of the insertion. -/
theorem Repr.raiseLevel (h : Repr s (l₁ ++ l₂)) (hx : x ∉ l₁ ++ l₂) {f : ℕ → DList ι → DList ι}
    (hf : ∀ i, i < s.nodeLevel x → i < s.level → f i (s.levels i) =
      (s.levels i).link (l₁.filter fun a => i < s.nodeLevel a).getLast? x
        (l₂.filter fun a => i < s.nodeLevel a).head?) :
    Repr (SkipList.raiseLevel { s with levels := forLevels (if s.level > s.nodeLevel x then s.nodeLevel x else s.level) f s.levels } x)
      (l₁ ++ x :: l₂) := by
  refine h.of_link hx hpos (fun i => ?_) rfl ?_ rfl rfl rfl rfl
  · -- above the level of the list there are no items
    have hempty : s.level ≤ i → (l₁.filter fun a => i < s.nodeLevel a) = [] ∧
        (l₂.filter fun a => i < s.nodeLevel a) = [] := by
      intro hi
      rw [h.level, ← filter_level_eq_nil, filter_append] at hi
      exact append_eq_nil_iff.1 hi
    simp only [SkipList.raiseLevel]
    by_cases hlevel : s.level < s.nodeLevel x
    · rw [if_pos hlevel, if_neg (by omega), forLevels_apply, forLevels_apply]
      by_cases hi : i < s.nodeLevel x
      · rw [if_pos hi, if_pos hi]
        by_cases hi' : s.level ≤ i
        · rw [if_pos hi', if_neg (by omega), (hempty hi').1, (hempty hi').2]
          exact onlyNode_eq_link (hfresh i)
        · rw [if_neg hi', if_pos (by omega)]
          exact hf i hi (by omega)
      · rw [if_neg hi, if_neg hi, if_neg (by omega)]
    · have hmin : (if s.level > s.nodeLevel x then s.nodeLevel x else s.level) = s.nodeLevel x := by
        split <;> omega
      rw [if_neg hlevel, hmin, forLevels_apply]
      by_cases hi : i < s.nodeLevel x
      · rw [if_pos hi, if_pos hi]
        exact hf i hi (by omega)
      · rw [if_neg hi, if_neg hi]
  · simp only [SkipList.raiseLevel]
    split <;> omega

/-! ## Insertion -/

include hfresh in
/-- In the level `i` of the list the new node is linked between the smaller and the other items. -/
theorem Repr.level_eq (h : Repr s (l₁ ++ l₂)) (hx : x ∉ l₁ ++ l₂) {i : ℕ} (hi : i < s.level) :
    midLevel x (l₁.filter fun a => i < s.nodeLevel a).getLast? (s.levels i) =
      (s.levels i).link (l₁.filter fun a => i < s.nodeLevel a).getLast? x
        (l₂.filter fun a => i < s.nodeLevel a).head? := by
  have hchain := h.levels i
  have hne : (l₁ ++ l₂).filter (fun a => i < s.nodeLevel a) ≠ [] := by
    rw [Ne, filter_level_eq_nil, ← h.level]
    omega
  rw [filter_append] at hchain hne
  have hout : ∀ a ∈ (l₁.filter fun a => i < s.nodeLevel a) ++ l₂.filter fun a => i < s.nodeLevel a, a ≠ x := by
    intro a ha
    rw [← filter_append] at ha
    exact ne_of_mem_of_not_mem (mem_of_mem_filter ha) hx
  generalize (l₁.filter fun a => i < s.nodeLevel a) = c₁ at hchain hne hout ⊢
  generalize (l₂.filter fun a => i < s.nodeLevel a) = c₂ at hchain hne hout ⊢
  rcases eq_nil_or_concat' c₁ with rfl | ⟨c₀, p, rfl⟩
  · -- before all others of the level
    rw [nil_append] at hchain hne hout
    obtain ⟨n, c, rfl⟩ := exists_cons_of_ne_nil hne
    rw [getLast?_nil, midLevel_none_eq_link (hfresh i) hchain.first_eq (hout n mem_cons_self),
      hchain.first_eq]
  · rw [append_assoc, singleton_append] at hchain hout
    have hnext := hchain.next_eq
    rw [getLast?_concat, midLevel_some_eq_link (hout p (by simp)), hnext]
    intro heq
    rw [hnext] at heq
    exact hout x (by simp [mem_of_mem_head? heq]) rfl

variable {funcCmp : ι → ι → Int}
include hpos hfresh

/-- After the last item. -/
theorem Repr.insertAtTail (h : Repr s l) (hx : x ∉ l) :
    Repr ((s.skipListInsertAtTail x (if s.level > s.nodeLevel x then s.nodeLevel x else s.level)).raiseLevel x)
      (l ++ [x]) := by
  rw [← append_nil l] at h hx
  refine h.raiseLevel hpos hfresh hx fun i _ hi => ?_
  rw [append_nil] at h hx
  have hlast := (h.levels i).last_eq
  cases hp : (l.filter fun a => i < s.nodeLevel a).getLast? with
  | none =>
    rw [getLast?_eq_none_iff, filter_level_eq_nil, ← h.level] at hp
    omega
  | some p =>
    rw [hp] at hlast
    rw [tailLevel_eq_link (hfresh i) hlast
      (ne_of_mem_of_not_mem (mem_of_mem_filter (mem_of_getLast? hp)) hx), hlast]
    rfl

/-- Before the first item. -/
theorem Repr.insertAtHead (h : Repr s l) (hx : x ∉ l) :
    Repr ((s.skipListInsertAtHead x (if s.level > s.nodeLevel x then s.nodeLevel x else s.level)).raiseLevel x)
      (x :: l) := by
  rw [← nil_append l] at h hx
  exact h.raiseLevel hpos hfresh hx fun i _ hi => h.level_eq hfresh hx hi

/-- The first item of a list. -/
theorem Repr.insertFirst (h : Repr s []) : Repr (s.skipListInsertFirstNode x) [x] := by
  rw [← nil_append []] at h
  refine h.of_link not_mem_nil hpos (fun i => ?_) rfl ?_ ?_ ?_ rfl rfl
  · simp only [skipListInsertFirstNode, forLevels_apply]
    exact if_congr Iff.rfl (onlyNode_eq_link (hfresh i)) rfl
  · rw [h.level]
    exact (Nat.max_zero _).symm
  · simp only [skipListInsertFirstNode, forLevels_apply, if_pos hpos, onlyNode]
  · simp only [skipListInsertFirstNode, forLevels_apply, if_pos hpos, onlyNode]

/-- Between the smaller items and the others, if there is no conflict. -/
theorem Repr.insertAtMid (h : Repr s (l₁ ++ l₂)) (hx : x ∉ l₁ ++ l₂) (hl₁ : ∀ a ∈ l₁, funcCmp x a > 0)
    (hl₂ : ∀ a ∈ l₂, ¬ funcCmp x a > 0) (hne : l₁ ++ l₂ ≠ []) (errIfConflict : Bool) :
    if (l₂.head?.any (funcCmp · x = 0) && errIfConflict) = true then
      s.skiplistInsertAtMid funcCmp x errIfConflict
        (if s.level > s.nodeLevel x then s.nodeLevel x else s.level) = (.comm, s)
    else
      (s.skiplistInsertAtMid funcCmp x errIfConflict
          (if s.level > s.nodeLevel x then s.nodeLevel x else s.level)).1 = .ok ∧
        Repr ((s.skiplistInsertAtMid funcCmp x errIfConflict
          (if s.level > s.nodeLevel x then s.nodeLevel x else s.level)).2.raiseLevel x) (l₁ ++ x :: l₂) := by
  have htop : (l₁.filter fun a => s.level < s.nodeLevel a).getLast? = none := by
    have hnil : (l₁ ++ l₂).filter (fun a => s.level < s.nodeLevel a) = [] :=
      filter_level_eq_nil.2 (Nat.le_of_eq h.level.symm)
    rw [filter_append] at hnil
    rw [(append_eq_nil_iff.1 hnil).1]
    rfl
  have hlevel : s.level ≠ 0 := by
    intro h0
    have hnil := h.filter_zero (List.Subset.refl _)
    rw [filter_level_eq_nil.2 (by rw [← h.level, h0])] at hnil
    exact hne hnil.symm
  have hfind := h.findPrev_eq hl₁ hl₂ s.level none fun _ => none
  rw [htop] at hfind
  rw [skiplistInsertAtMid, hfind]
  simp only
  split
  · rfl
  · refine ⟨rfl, h.raiseLevel hpos hfresh hx fun i _ hi => ?_⟩
    rw [if_pos hi]
    exact h.level_eq hfresh hx hi

end

variable [LinearOrder κ] {key : ι → κ} {funcCmp : ι → ι → Int}

/-- An item is inserted into a list that is in order, unless it conflicts with one of the items. -/
theorem Repr.insert (h : Repr s l) (hx : x ∉ l) (hsorted : l.Pairwise (key · ≤ key ·))
    (hcmp : Compares funcCmp key x l) (errIfConflict : Bool) :
    if errIfConflict = true ∧ ∃ a ∈ l, key a = key x then
      (s.skipListInsert funcCmp x errIfConflict).1 = .comm ∧ Repr (s.skipListInsert funcCmp x errIfConflict).2 l
    else
      (s.skipListInsert funcCmp x errIfConflict).1 = .ok ∧
        Repr (s.skipListInsert funcCmp x errIfConflict).2 (l.orderedInsert (key · ≤ key ·) x) := by
  have hlevel : (s.skiplistRandomLevel.2.resetNode x s.skiplistRandomLevel.1).nodeLevel x = s.skiplistRandomLevel.1 :=
    update_self ..
  have hpos : 0 < s.skiplistRandomLevel.1 := randomLevelLoop_pos (by decide) _
  have hfresh := fresh_resetNode (s := s.skiplistRandomLevel.2) (x := x) s.skiplistRandomLevel.1
  replace h := h.randomLevel.resetNode hx s.skiplistRandomLevel.1
  simp only [skipListInsert]
  generalize s.skiplistRandomLevel.2.resetNode x s.skiplistRandomLevel.1 = s₀ at h hlevel hfresh ⊢
  rw [← hlevel] at hpos ⊢
  simp only [h.head, h.tail]
  cases l with
  | nil =>
    rw [if_neg fun hc => by simpa using hc.2]
    exact ⟨rfl, h.insertFirst hpos hfresh⟩
  | cons b l =>
    obtain ⟨t, ht⟩ : ∃ t, (b :: l).getLast? = some t := ⟨_, getLast?_cons⟩
    simp only [head?_cons, ht, any_some, decide_eq_true_eq]
    by_cases htail : funcCmp x t > 0
    · -- all items are smaller
      have hsmall : ∀ a ∈ b :: l, key a < key x := by
        obtain ⟨l', hl'⟩ := getLast?_eq_some_iff.1 ht
        rw [hcmp.gt t (mem_of_getLast? ht)] at htail
        rw [hl'] at hsorted ⊢
        intro a ha
        rcases mem_append.1 ha with ha | ha
        · exact lt_of_le_of_lt ((pairwise_append.1 hsorted).2.2 a ha t mem_cons_self) htail
        · rwa [mem_singleton.1 ha]
      rw [if_neg fun hc => hc.2.elim fun a ha => (hsmall a ha.1).ne ha.2, if_pos htail, orderedInsert_eq_append,
        takeWhile_eq_self_iff.2 (by simpa using hsmall), dropWhile_eq_nil_iff.2 (by simpa using hsmall)]
      exact ⟨rfl, h.insertAtTail hpos hfresh hx⟩
    rw [if_neg htail]
    by_cases hhead : funcCmp b x > 0
    · -- all items are larger
      have hlt : key x < key b := (hcmp.lt b mem_cons_self).1 hhead
      have hlarge : ∀ a ∈ b :: l, key x < key a := by
        rw [forall_mem_cons]
        exact ⟨hlt, fun a ha => hlt.trans_le ((pairwise_cons.1 hsorted).1 a ha)⟩
      rw [if_neg fun hc => hc.2.elim fun a ha => (hlarge a ha.1).ne' ha.2, if_pos hhead, orderedInsert_cons,
        if_pos hlt.le]
      exact ⟨rfl, h.insertAtHead hpos hfresh hx⟩
    rw [if_neg hhead]
    have hsplit := takeWhile_append_dropWhile (p := (key · < key x)) (l := b :: l)
    have hsmall : ∀ a ∈ (b :: l).takeWhile (key · < key x), funcCmp x a > 0 := by
      intro a ha
      rw [hcmp.gt a ((takeWhile_sublist _).subset ha)]
      simpa using mem_takeWhile_imp ha
    have hlarge : ∀ a ∈ (b :: l).dropWhile (key · < key x), ¬ funcCmp x a > 0 := by
      intro a ha
      rw [hcmp.gt a ((dropWhile_sublist _).subset ha), not_lt]
      exact key_le_of_mem_dropWhile hsorted a ha
    have hany := any_head?_dropWhile hsorted hcmp
    rw [orderedInsert_eq_append]
    rw [← hsplit] at h hx
    have hmid := h.insertAtMid hpos hfresh hx hsmall hlarge (by rw [hsplit]; exact cons_ne_nil b l)
      errIfConflict
    have hiff : ((((b :: l).dropWhile (key · < key x)).head?.any (funcCmp · x = 0) && errIfConflict) = true) ↔
        errIfConflict = true ∧ ∃ a ∈ b :: l, key a = key x := by
      rw [Bool.and_eq_true, hany, and_comm]
    by_cases hconflict : errIfConflict = true ∧ ∃ a ∈ b :: l, key a = key x
    · rw [if_pos (hiff.2 hconflict)] at hmid
      rw [if_pos hconflict, hmid]
      rw [hsplit] at h
      exact ⟨rfl, h⟩
    · rw [if_neg (hiff.not.2 hconflict)] at hmid
      rw [if_neg hconflict]
      generalize s₀.skiplistInsertAtMid funcCmp x errIfConflict
        (if s₀.level > s₀.nodeLevel x then s₀.nodeLevel x else s₀.level) = r at hmid ⊢
      obtain ⟨ret, s'⟩ := r
      obtain ⟨rfl, hrepr⟩ := hmid
      exact ⟨rfl, hrepr⟩

end SkipList
end SoftBus.Native
