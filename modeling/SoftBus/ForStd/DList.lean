import Mathlib

/-!
# Doubly linked lists

The links of a list are functions from a node to the one after it and to the one before it.  `Seg next s l t` says that one
comes from `s` to `t` over the nodes `l`.  `DList.Repr d l` says that the nodes of the list are `l`, read
from the front and from the back; it is kept when a node is linked in between two neighbours and when the
first or the last node is taken out.
-/

variable {ι : Type*}

/-! ## Segments -/

/-- From `s` over the nodes `l` to `t`. -/
def Seg (next : ι → Option ι) : Option ι → List ι → Option ι → Prop
  | s, [], t => s = t
  | s, a :: l, t => s = some a ∧ Seg next (next a) l t

open Function List

namespace Seg
variable {next next' : ι → Option ι} {s t : Option ι} {l l₁ l₂ : List ι} {a : ι}

@[simp] theorem seg_nil : Seg next s [] t ↔ s = t := Iff.rfl

@[simp] theorem seg_cons : Seg next s (a :: l) t ↔ s = some a ∧ Seg next (next a) l t := Iff.rfl

/-- A segment goes over its middle. -/
theorem seg_append : Seg next s (l₁ ++ l₂) t ↔ ∃ m, Seg next s l₁ m ∧ Seg next m l₂ t := by
  induction l₁ generalizing s with
  | nil => simp
  | cons a l₁ ih => simp [ih, and_assoc]

/-- Only the links of the nodes of the segment matter. -/
theorem congr (h : Seg next s l t) (heq : ∀ a ∈ l, next' a = next a) : Seg next' s l t := by
  induction l generalizing s with
  | nil => exact h
  | cons a l ih =>
    refine ⟨h.1, ?_⟩
    rw [heq a mem_cons_self]
    exact ih h.2 fun b hb => heq b (mem_cons_of_mem a hb)

/-- Where a segment to the end begins. -/
theorem start_eq (h : Seg next s l none) : s = l.head? := by
  cases l with
  | nil => exact h
  | cons a l => exact h.1

/-- The link of a node leads to the rest. -/
theorem next_eq (h : Seg next s (l₁ ++ a :: l₂) none) : next a = l₂.head? := by
  obtain ⟨m, -, -, hrest⟩ := seg_append.1 h
  exact hrest.start_eq

/-- The rest after a node. -/
theorem rest (h : Seg next s (l₁ ++ a :: l₂) t) : Seg next (next a) l₂ t := by
  obtain ⟨m, -, -, hrest⟩ := seg_append.1 h
  exact hrest

/-- Another end. -/
theorem congr_end [DecidableEq ι] (h : Seg next s (l ++ [a]) t) (ha : a ∉ l) (t' : Option ι) :
    Seg (update next a t') s (l ++ [a]) t' := by
  obtain ⟨m, hl, hm⟩ := seg_append.1 h
  refine seg_append.2 ⟨m, hl.congr fun b hb => update_of_ne (ne_of_mem_of_not_mem hb ha) _ _, hm.1, ?_⟩
  rw [update_self]
  rfl

end Seg

/-! ## Lists -/

/-- The first and the last node, and the links. -/
structure DList (ι : Type*) where
  first : Option ι
  last : Option ι
  next : ι → Option ι
  prev : ι → Option ι

namespace DList
variable {d : DList ι} {l l₁ l₂ : List ι} {a x : ι}

def empty : DList ι := ⟨none, none, fun _ => none, fun _ => none⟩

/-- The nodes of the list. -/
structure Repr (d : DList ι) (l : List ι) : Prop where
  next : Seg d.next d.first l none
  prev : Seg d.prev d.last l.reverse none
  nodup : l.Nodup

theorem Repr.empty : Repr (DList.empty : DList ι) [] := ⟨rfl, rfl, List.nodup_nil⟩

theorem Repr.first_eq (h : Repr d l) : d.first = l.head? := h.next.start_eq

theorem Repr.last_eq (h : Repr d l) : d.last = l.getLast? := by
  rw [h.prev.start_eq, head?_reverse]

theorem Repr.next_eq (h : Repr d (l₁ ++ a :: l₂)) : d.next a = l₂.head? := h.next.next_eq

/-- Only the links of the nodes of the list matter. -/
theorem Repr.congr {d' : DList ι} (h : Repr d l) (hfirst : d'.first = d.first) (hlast : d'.last = d.last)
    (hnext : ∀ a ∈ l, d'.next a = d.next a) (hprev : ∀ a ∈ l, d'.prev a = d.prev a) : Repr d' l := by
  refine ⟨?_, ?_, h.nodup⟩
  · rw [hfirst]
    exact h.next.congr hnext
  · rw [hlast]
    exact h.prev.congr fun a ha => hprev a (mem_reverse.1 ha)

/-- The list read from the back. -/
def reverse (d : DList ι) : DList ι := ⟨d.last, d.first, d.prev, d.next⟩

theorem Repr.reverse (h : Repr d l) : Repr d.reverse l.reverse :=
  ⟨h.prev, (reverse_reverse l).symm ▸ h.next, nodup_reverse.2 h.nodup⟩

variable [DecidableEq ι]

/-- Links `x` between the neighbours `p` and `n`, or at an end of the list. -/
def link (d : DList ι) (p : Option ι) (x : ι) (n : Option ι) : DList ι where
  first := if p.isNone then some x else d.first
  last := if n.isNone then some x else d.last
  next := update (p.elim d.next fun p => update d.next p (some x)) x n
  prev := update (n.elim d.prev fun n => update d.prev n (some x)) x p

/-- The links to the back. -/
private theorem seg_link (h : Seg d.next d.first (l₁ ++ l₂) none) (hnodup : (l₁ ++ l₂).Nodup) (hx : x ∉ l₁ ++ l₂) :
    Seg (d.link l₁.getLast? x l₂.head?).next (d.link l₁.getLast? x l₂.head?).first (l₁ ++ x :: l₂) none := by
  rw [mem_append, not_or] at hx
  obtain ⟨m, hl₁, hl₂⟩ := Seg.seg_append.1 h
  have hm : m = l₂.head? := hl₂.start_eq
  rcases eq_nil_or_concat' l₁ with rfl | ⟨l₀, p, rfl⟩
  · -- before all others
    refine ⟨rfl, ?_⟩
    simp only [link, getLast?_nil, Option.elim_none, update_self]
    rw [← hm]
    exact hl₂.congr fun a ha => update_of_ne (ne_of_mem_of_not_mem ha hx.2) _ _
  · rw [getLast?_concat]
    rw [append_assoc, nodup_append, nodup_append] at hnodup
    have hp : p ∉ l₀ := fun hmem => hnodup.2.2 p hmem p (by simp) rfl
    have hpl₂ : p ∉ l₂ := fun hmem => hnodup.2.1.2.2 p (by simp) p hmem rfl
    refine Seg.seg_append.2 ⟨some x, ?_, rfl, ?_⟩
    · -- the segment to the node before ends at the new one
      refine (hl₁.congr_end hp (some x)).congr fun a ha => ?_
      exact update_of_ne (ne_of_mem_of_not_mem ha hx.1) _ _
    · simp only [link, Option.elim_some, update_self]
      rw [← hm]
      refine hl₂.congr fun a ha => ?_
      rw [update_of_ne (ne_of_mem_of_not_mem ha hx.2), update_of_ne (ne_of_mem_of_not_mem ha hpl₂)]

theorem Repr.link (h : Repr d (l₁ ++ l₂)) (hx : x ∉ l₁ ++ l₂) :
    Repr (d.link l₁.getLast? x l₂.head?) (l₁ ++ x :: l₂) := by
  refine ⟨seg_link h.next h.nodup hx, ?_, ?_⟩
  · -- read from the back the list is the same with the links exchanged
    have hback := h.reverse
    rw [reverse_append] at hback
    have hout : x ∉ l₂.reverse ++ l₁.reverse := by
      rw [← reverse_append, mem_reverse]
      exact hx
    have hseg := seg_link hback.next hback.nodup hout
    rw [getLast?_reverse, head?_reverse] at hseg
    rw [reverse_append, reverse_cons, append_assoc]
    exact hseg
  · rw [nodup_middle, nodup_cons]
    exact ⟨hx, h.nodup⟩

/-- The first node is taken out; the links of the others stay. -/
theorem Repr.tail (h : Repr d (a :: l)) {d' : DList ι} (hfirst : d'.first = d.next a)
    (hlast : d'.last = if l = [] then none else d.last) (hnext : d'.next = d.next)
    (hprev : d'.prev = l.head?.elim d.prev fun b => update d.prev b none) : Repr d' l := by
  obtain ⟨ha, hl⟩ := nodup_cons.1 h.nodup
  refine ⟨?_, ?_, hl⟩
  · rw [hfirst, hnext]
    exact h.next.2
  · cases l with
    | nil => rw [hlast]; rfl
    | cons b l =>
      have hback := h.prev
      rw [reverse_cons, reverse_cons] at hback
      obtain ⟨m, hback, -⟩ := Seg.seg_append.1 hback
      rw [hlast, hprev, reverse_cons]
      exact hback.congr_end (fun hmem => (nodup_cons.1 hl).1 (mem_reverse.1 hmem)) none

end DList
