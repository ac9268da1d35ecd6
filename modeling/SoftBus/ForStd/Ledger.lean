import Mathlib

/-!
# Accounts of acquired resources

A component acquires resources and releases them.  `run` replays what it did: the
account is the multiset of the resources that are acquired and not yet released, and
a release of anything else has no account at all.
-/

namespace Ledger

inductive Op (α : Type*) where
  | acquire (a : α)
  | release (a : α)

variable {α : Type*} [DecidableEq α] {ops : List (Op α)}

def step (held : Multiset α) : Op α → Option (Multiset α)
  | .acquire a => some (a ::ₘ held)
  | .release a => if a ∈ held then some (held.erase a) else none

/-- The account after `ops`. -/
def run : Multiset α → List (Op α) → Option (Multiset α)
  | held, [] => some held
  | held, op :: ops => (step held op).bind fun held => run held ops

@[simp] theorem run_nil (held : Multiset α) : run held [] = some held := rfl

@[simp] theorem run_acquire (held : Multiset α) (a : α) :
    run held (.acquire a :: ops) = run (a ::ₘ held) ops := rfl

@[simp] theorem run_release_cons (held : Multiset α) (a : α) :
    run (a ::ₘ held) (.release a :: ops) = run held ops := by
  simp [run, step]

theorem run_append (held : Multiset α) (ops' : List (Op α)) :
    run held (ops ++ ops') = (run held ops).bind fun held => run held ops' := by
  induction ops generalizing held with
  | nil => rfl
  | cons op ops ih =>
    rw [List.cons_append, run, run, Option.bind_assoc]
    congr 1
    funext held'
    exact ih held'

/-- A release leaves `rest` exactly when the resource was held beside `rest`. -/
theorem run_release_eq_some_iff {held rest : Multiset α} {a : α} :
    run held [.release a] = some rest ↔ held = a ::ₘ rest := by
  constructor
  · intro h
    by_cases ha : a ∈ held
    · have hrest : held.erase a = rest := by simpa [run, step, ha] using h
      rw [← hrest, Multiset.cons_erase ha]
    · simp [run, step, ha] at h
  · rintro rfl
    simp

/-- A run does not look at what else is held. -/
theorem run_add {held held' : Multiset α} {ops : List (Op α)} (rest : Multiset α)
    (h : run held ops = some held') : run (rest + held) ops = some (rest + held') := by
  induction ops generalizing held with
  | nil => exact congrArg some (congrArg _ (Option.some.inj h))
  | cons op ops ih =>
    obtain ⟨held₁, hop, hrun⟩ := Option.bind_eq_some_iff.1 h
    have hop' : step (rest + held) op = some (rest + held₁) := by
      cases op with
      | acquire a =>
        rw [← Option.some.inj hop, Multiset.add_cons]
        rfl
      | release a =>
        by_cases ha : a ∈ held
        · have hheld : held.erase a = held₁ := by simpa [step, ha] using hop
          rw [← hheld, step, if_pos (Multiset.mem_add.2 (.inr ha)), Multiset.erase_add_right_pos _ ha]
        · simp [step, ha] at hop
    rw [run, hop']
    exact ih hrun

end Ledger
