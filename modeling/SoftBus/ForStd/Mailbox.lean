import SoftBus.ForStd.Run

/-!
# Mailboxes

What is sent goes into the box of its key and is taken from there.  `Balanced` says that what
was sent with a key is, in order, what was taken with that key and what is in the box: nothing
is lost, nothing is taken twice, and what has the same key is taken in the order in which it was
sent.  `Balanced.drained` says when all of it has been taken.
-/

namespace Mailbox
open List
variable {α κ : Type*} [DecidableEq κ] {key : α → κ} {sent taken : List α} {boxes boxes' : κ → List α}

/-- What was sent is what was taken and what is in the boxes. -/
structure Balanced (key : α → κ) (sent taken : List α) (boxes : κ → List α) : Prop where
  filter_eq : ∀ k, sent.filter (key · = k) = taken.filter (key · = k) ++ boxes k

namespace Balanced

theorem init (h : ∀ k, boxes k = []) : Balanced key [] [] boxes := ⟨fun k => by rw [h k]; rfl⟩

section
variable (h : Balanced key sent taken boxes)
include h

theorem congr (hboxes : ∀ k, boxes' k = boxes k) : Balanced key sent taken boxes' :=
  ⟨fun k => by rw [hboxes k]; exact h.filter_eq k⟩

/-- What is in a box has its key. -/
theorem key_of_mem {k : κ} {a : α} (ha : a ∈ boxes k) : key a = k := by
  have hmem : a ∈ sent.filter (key · = k) := by
    rw [h.filter_eq k]
    exact mem_append_right _ ha
  simpa using (mem_filter.1 hmem).2

theorem send (a : α) (ha : boxes' (key a) = boxes (key a) ++ [a])
    (hother : ∀ k ≠ key a, boxes' k = boxes k) : Balanced key (sent ++ [a]) taken boxes' := by
  refine ⟨fun k => ?_⟩
  rw [filter_append, h.filter_eq k]
  by_cases hk : key a = k
  · subst hk
    rw [ha]
    simp
  · rw [hother k (Ne.symm hk)]
    simp [hk]

theorem take {k : κ} {a : α} (ha : boxes k = a :: boxes' k)
    (hother : ∀ k' ≠ k, boxes' k' = boxes k') : Balanced key sent (taken ++ [a]) boxes' := by
  have hkey : key a = k := h.key_of_mem (ha ▸ mem_cons_self)
  refine ⟨fun k' => ?_⟩
  rw [h.filter_eq k']
  by_cases hk : k' = k
  · subst hk
    rw [ha]
    simp [hkey]
  · rw [hother k' hk]
    simp [hkey, Ne.symm hk]

/-- What was taken with a key was sent before all else that was sent with it. -/
theorem takenOf_le (k : κ) : taken.filter (key · = k) <+: sent.filter (key · = k) :=
  ⟨boxes k, (h.filter_eq k).symm⟩

end
end Balanced

/-! ## Draining

The state of a system has boxes; while there is something in a box, the `cost` of the state grows by
no more than its `budget` does. -/

section Drain
variable {σ ε : Type*} {step : σ → ε → σ} {ok : σ → ε → Prop} {P : σ → Prop} {sent taken : σ → List α}
  {boxes : σ → κ → List α} {cost : σ → ℕ} {s : σ} {k : κ}

theorem le_foldl {f : σ → List α} (hstep : ∀ s e, P s → ok s e → P (step s e))
    (hf : ∀ s e, P s → ok s e → f s <+: f (step s e)) (hs : P s) {es : List ε} (hes : Run.AllSteps step ok s es) :
    f s <+: f (es.foldl step s) := by
  induction es generalizing s with
  | nil => exact prefix_refl _
  | cons e es ih => exact (hf s e hs hes.1).trans (ih (hstep s e hs hes.1) hes.2)

/-- All that had been sent with `k` at the begin has been taken; or what is in the box of `k` at the
    end kept it from being empty all the time. -/
theorem drained (budget : σ → ℕ) (hbalanced : ∀ s, P s → Balanced key (sent s) (taken s) (boxes s))
    (hstep : ∀ s e, P s → ok s e → P (step s e)) (hsent : ∀ s e, P s → ok s e → sent s <+: sent (step s e))
    (htaken : ∀ s e, P s → ok s e → taken s <+: taken (step s e))
    (hcost : ∀ s e, P s → ok s e → boxes s k ≠ [] →
      cost (step s e) + budget s ≤ cost s + budget (step s e))
    (hs : P s) {es : List ε} (hes : Run.AllSteps step ok s es) :
    (sent s).filter (key · = k) <+: (taken (es.foldl step s)).filter (key · = k) ∨
      boxes (es.foldl step s) k ≠ [] ∧
        cost (es.foldl step s) + budget s ≤ cost s + budget (es.foldl step s) := by
  induction es generalizing s with
  | nil =>
    by_cases hbox : boxes s k = []
    · left
      rw [foldl_nil, (hbalanced s hs).filter_eq k, hbox, append_nil]
    · exact .inr ⟨hbox, Nat.le_refl _⟩
  | cons e es ih =>
    have hs' := hstep s e hs hes.1
    have hfirst : (sent s).filter (key · = k) <+: (sent (step s e)).filter (key · = k) :=
      (hsent s e hs hes.1).filter _
    rw [foldl_cons]
    rcases ih hs' hes.2 with htaken' | ⟨hbox, hle⟩
    · exact .inl (hfirst.trans htaken')
    · by_cases hempty : boxes s k = []
      · -- all that had been sent with `k` was already taken
        left
        rw [(hbalanced s hs).filter_eq k, hempty, append_nil]
        exact ((htaken s e hs hes.1).trans (le_foldl hstep htaken hs' hes.2)).filter _
      · right
        have := hcost s e hs hes.1 hempty
        exact ⟨hbox, by omega⟩

end Drain
end Mailbox
