import Mathlib

/-!
# Values for unordered pairs

A value for the pair of `a` and `b` is stored at one of the two, `f a b` or `f b a`.  Where no point with
values of its own has a value at another point (`Separated`), each pair has at most one value, and
it is found from both ends.
-/

namespace PairMap
open Function
variable {α β : Type*} {f : α → α → Option β} {a b : α} {v : Option β}

/-- A point at which there are values has none elsewhere. -/
def Separated (f : α → α → Option β) : Prop := ∀ a b c, f a b ≠ none → f b c ≠ none → b = a

/-- The value of a pair. -/
def get (f : α → α → Option β) (a b : α) : Option β := (f a b).or (f b a)

theorem Separated.eq_of_both (h : Separated f) (hab : f a b ≠ none) (hba : f b a ≠ none) : b = a :=
  h a b a hab hba

theorem Separated.get_comm (h : Separated f) : get f a b = get f b a := by
  unfold get
  cases hab : f a b with
  | none => rw [Option.none_or, Option.or_none]
  | some v =>
    cases hba : f b a with
    | none => rfl
    | some w =>
      obtain rfl := h.eq_of_both (a := a) (b := b) (by rw [hab]; nofun) (by rw [hba]; nofun)
      rw [← hab, hba]

variable [DecidableEq α]

/-- The value `v` for `a` and `b`, stored at `a`. -/
def set (f : α → α → Option β) (a b : α) (v : Option β) : α → α → Option β :=
  update f a (update (f a) b v)

theorem set_apply (x y : α) : set f a b v x y = if x = a ∧ y = b then v else f x y := by
  unfold set
  by_cases hx : x = a
  · subst hx
    rw [update_self]
    by_cases hy : y = b
    · subst hy
      rw [update_self, if_pos ⟨rfl, rfl⟩]
    · rw [update_of_ne hy, if_neg fun hxy => hy hxy.2]
  · rw [update_of_ne hx, if_neg fun hxy => hx hxy.1]

/-- A value is stored at `a`, which has none elsewhere, for `b`, at which there are none. -/
theorem Separated.set (h : Separated f) (ha : ∀ c, f c a ≠ none → c = a)
    (hb : ∀ c, f b c ≠ none → b = a) : Separated (set f a b v) := by
  intro x y z hxy hyz
  rw [set_apply] at hxy hyz
  split at hxy
  · next hab =>
    rw [hab.1]
    split at hyz
    · next hyz' => exact hyz'.1
    · exact hab.2 ▸ hb z (hab.2 ▸ hyz)
  · split at hyz
    · next hyz' =>
      rw [hyz'.1]
      exact (ha x (hyz'.1 ▸ hxy)).symm
    · exact h x y z hxy hyz

/-- Only the value of the pair changes, unless it is stored at the other end, too. -/
theorem get_set (hba : f b a ≠ none → b = a) (x y : α) :
    get (set f a b v) x y = if s(x, y) = s(a, b) then v else get f x y := by
  unfold get
  rw [set_apply, set_apply]
  by_cases hxy : s(x, y) = s(a, b)
  · by_cases heq : b = a
    · subst heq
      obtain ⟨rfl, rfl⟩ | ⟨rfl, rfl⟩ := Sym2.eq_iff.1 hxy
      all_goals simp
    · have hnone : f b a = none := by
        by_contra hne
        exact heq (hba hne)
      obtain ⟨rfl, rfl⟩ | ⟨rfl, rfl⟩ := Sym2.eq_iff.1 hxy
      · simp [hnone, heq]
      · simp [hnone, heq]
  · have h1 : ¬(x = a ∧ y = b) := fun hab => hxy (Sym2.eq_iff.2 (.inl hab))
    have h2 : ¬(y = a ∧ x = b) := fun hab => hxy (Sym2.eq_iff.2 (.inr ⟨hab.2, hab.1⟩))
    rw [if_neg hxy, if_neg h1, if_neg h2]

end PairMap
