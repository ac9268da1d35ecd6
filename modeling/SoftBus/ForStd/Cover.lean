import Mathlib

/-!
# Disjoint parts that fill a set

Parts of a finite set that do not overlap have at most as many elements as the set, and when
they have as many, every element is in one of them.
-/

namespace Cover
variable {α : Type*} [DecidableEq α] {l : List (Finset α)} {t : Finset α} {a : α}

/-- What is in one of the parts. -/
def union (l : List (Finset α)) : Finset α := l.foldr (· ∪ ·) ∅

theorem mem_union : a ∈ union l ↔ ∃ s ∈ l, a ∈ s := by
  induction l with
  | nil => simp [union]
  | cons s l ih =>
    rw [union, List.foldr_cons, Finset.mem_union, ← union, ih]
    simp

theorem union_subset (h : ∀ s ∈ l, s ⊆ t) : union l ⊆ t := by
  intro a ha
  obtain ⟨s, hs, has⟩ := mem_union.1 ha
  exact h s hs has

/-- Parts that do not overlap are counted one by one. -/
theorem card_union (h : l.Pairwise Disjoint) : (union l).card = (l.map Finset.card).sum := by
  induction l with
  | nil => rfl
  | cons s l ih =>
    obtain ⟨hs, hl⟩ := List.pairwise_cons.1 h
    have hdisj : Disjoint s (union l) := by
      rw [Finset.disjoint_left]
      intro a has hal
      obtain ⟨s', hs', has'⟩ := mem_union.1 hal
      exact Finset.disjoint_left.1 (hs s' hs') has has'
    calc (union (s :: l)).card
      _ = s.card + (union l).card := Finset.card_union_of_disjoint hdisj
      _ = ((s :: l).map Finset.card).sum := by rw [ih hl, List.map_cons, List.sum_cons]

theorem sum_card_le (hdisj : l.Pairwise Disjoint) (hsub : ∀ s ∈ l, s ⊆ t) :
    (l.map Finset.card).sum ≤ t.card := by
  rw [← card_union hdisj]
  exact Finset.card_le_card (union_subset hsub)

/-- Parts with as many elements as the set leave nothing out. -/
theorem exists_mem (hdisj : l.Pairwise Disjoint) (hsub : ∀ s ∈ l, s ⊆ t)
    (hcard : t.card ≤ (l.map Finset.card).sum) (ha : a ∈ t) : ∃ s ∈ l, a ∈ s := by
  rw [← card_union hdisj] at hcard
  rw [← Finset.eq_of_subset_of_card_le (union_subset hsub) hcard] at ha
  exact mem_union.1 ha

end Cover
