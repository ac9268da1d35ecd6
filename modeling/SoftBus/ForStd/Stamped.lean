import Mathlib

/-!
# Numbered items

Items get numbers in the order in which they come.  A queue is in order of a key, and items with the same key are
in order of their numbers: a new item is inserted before the first one with a greater key.  `Accounted` says of
the items that a component has at its different places that none of them is there twice and that each is the
one that came with its number.
-/

namespace Stamped
open List
variable {α κ : Type*} {stamp : α → ℕ} {a : α} {l l' came : List α}

/-! ## Queues in order of a key -/

section Queue
variable [LinearOrder κ] {key : α → κ}

/-- The order in which items leave the queue. -/
def Before (key : α → κ) (stamp : α → ℕ) (a b : α) : Prop := key a < key b ∨ key a = key b ∧ stamp a < stamp b

instance (key : α → κ) (stamp : α → ℕ) : DecidableRel (Before key stamp) := fun _ _ => instDecidableOr

theorem Before.key_le {b : α} (h : Before key stamp a b) : key a ≤ key b := by
  rcases h with h | ⟨h, -⟩
  · exact h.le
  · exact h.le

/-- The last item that came is inserted before the first one with a greater key. -/
theorem pairwise_orderedInsert (h : l.Pairwise (Before key stamp)) (hl : ∀ b ∈ l, stamp b < stamp a) :
    (l.orderedInsert (key · < key ·) a).Pairwise (Before key stamp) := by
  induction l with
  | nil => exact pairwise_singleton _ a
  | cons b l ih =>
    rw [pairwise_cons] at h
    rw [forall_mem_cons] at hl
    rw [orderedInsert_cons]
    split
    · next hlt =>
      -- the keys of all items from here on are greater
      rw [pairwise_cons, forall_mem_cons, pairwise_cons]
      exact ⟨⟨.inl hlt, fun c hc => .inl (hlt.trans_le (h.1 c hc).key_le)⟩, h⟩
    · next hge =>
      rw [pairwise_cons]
      refine ⟨fun c hc => ?_, ih h.2 hl.2⟩
      rcases mem_cons.1 ((perm_orderedInsert _ a l).mem_iff.1 hc) with rfl | hc
      · -- an item with the same key came before
        rcases (not_lt.1 hge).lt_or_eq with hlt | heq
        · exact .inl hlt
        · exact .inr ⟨heq, hl.1⟩
      · exact h.1 c hc

end Queue

/-! ## Items at different places -/

/-- No item is there twice, and each is the one that came with its number. -/
structure Accounted (stamp : α → ℕ) (came l : List α) : Prop where
  nodup : (l.map stamp).Nodup
  came : ∀ a ∈ l, came[stamp a]? = some a

theorem Accounted.nil : Accounted stamp came [] := ⟨List.nodup_nil, fun _ ha => absurd ha List.not_mem_nil⟩

section
variable (h : Accounted stamp came l)
include h

theorem Accounted.stamp_lt (ha : a ∈ l) : stamp a < came.length :=
  (List.getElem?_eq_some_iff.1 (h.came a ha)).1

/-- Items are moved, or taken out. -/
theorem Accounted.subperm (hl : l'.Subperm l) : Accounted stamp came l' := by
  obtain ⟨l₀, hperm, hsub⟩ := hl
  constructor
  · rw [← (hperm.map stamp).nodup_iff]
    exact h.nodup.sublist (hsub.map stamp)
  · intro a ha
    exact h.came a (hsub.subset (hperm.mem_iff.2 ha))

/-- An item comes and is not taken in. -/
theorem Accounted.refuse (a : α) : Accounted stamp (came ++ [a]) l := by
  refine ⟨h.nodup, fun b hb => ?_⟩
  rw [getElem?_append_left (h.stamp_lt hb), h.came b hb]

/-- An item comes and is taken in. -/
theorem Accounted.take (ha : stamp a = came.length) (hl : l'.Perm (a :: l)) :
    Accounted stamp (came ++ [a]) l' := by
  constructor
  · rw [(hl.map stamp).nodup_iff, map_cons, nodup_cons]
    refine ⟨fun hmem => ?_, h.nodup⟩
    obtain ⟨b, hb, heq⟩ := mem_map.1 hmem
    have := h.stamp_lt hb
    omega
  · intro b hb
    rcases mem_cons.1 (hl.mem_iff.1 hb) with rfl | hb
    · rw [ha, getElem?_concat_length]
    · exact (h.refuse a).came b hb

end
end Stamped
