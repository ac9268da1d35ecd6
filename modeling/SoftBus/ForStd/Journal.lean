import Mathlib

/-!
# Journals

A journal is the list of what a component has done, oldest first.  `since reset pick l`
is what `pick` finds in the journal after the last entry that `reset` marks, and
`Always P l` says that every entry meets `P` with the part of the journal before it.
Both are stated for a journal to which a few entries are appended, which is what a step
of a component does.
-/

namespace Journal
open List
variable {α β : Type*} {reset : α → Bool} {pick : α → Option β} {acc : List β} {l l' : List α}

/-! ## Since the last reset -/

/-- One more entry. -/
def add (reset : α → Bool) (pick : α → Option β) (acc : List β) (e : α) : List β :=
  if reset e then [] else acc ++ (pick e).toList

/-- What is picked after the last reset. -/
def since (reset : α → Bool) (pick : α → Option β) (l : List α) : List β :=
  l.foldl (add reset pick) []

theorem since_append : since reset pick (l ++ l') = l'.foldl (add reset pick) (since reset pick l) :=
  foldl_append

/-- Entries among which nothing is picked either reset or change nothing. -/
theorem foldl_add_of_pick_none (h : ∀ e ∈ l, pick e = none) :
    l.foldl (add reset pick) acc = if l.any reset then [] else acc := by
  induction l generalizing acc with
  | nil => rfl
  | cons e l ih =>
    have hl := fun e' he' => h e' (mem_cons_of_mem _ he')
    rw [foldl_cons, any_cons, add, h e mem_cons_self]
    cases hr : reset e with
    | true =>
      rw [ih hl]
      split
      · rfl
      · rfl
    | false =>
      rw [if_neg Bool.false_ne_true, Option.toList_none, append_nil, ih hl, Bool.false_or]

/-- Entries that are neither picked nor resets change nothing. -/
theorem foldl_add_of_other (h : ∀ e ∈ l, pick e = none ∧ reset e = false) :
    l.foldl (add reset pick) acc = acc := by
  have hany : l.any reset = false := by
    rw [any_eq_false]
    intro e he
    simp [(h e he).2]
  rw [foldl_add_of_pick_none fun e he => (h e he).1, hany]
  rfl

/-! ## Entries and what is before them -/

/-- Every entry meets `P` with the part of the journal before it. -/
def Always (P : List α → α → Prop) (l : List α) : Prop :=
  ∀ before e after, l = before ++ e :: after → P before e

variable {P : List α → α → Prop}

@[simp] theorem always_nil : Always P [] := by
  intro before e after h
  simp at h

/-- One more entry, at the end. -/
theorem always_append_singleton {e : α} : Always P (l ++ [e]) ↔ Always P l ∧ P l e := by
  constructor
  · intro h
    refine ⟨fun before e' after hl => ?_, h l e [] rfl⟩
    exact h before e' (after ++ [e]) (by rw [hl, append_assoc, cons_append])
  · intro h before e' after hl
    -- the entry is the new one, or it is one of the old ones
    rcases eq_nil_or_concat after with rfl | ⟨after', e'', rfl⟩
    · obtain ⟨rfl, he⟩ := append_inj' hl rfl
      rw [← (cons.inj he).1]
      exact h.2
    · have hconcat : l ++ [e] = (before ++ e' :: after') ++ [e''] := by
        rw [hl, concat_eq_append, append_assoc, cons_append]
      exact h.1 before e' after' (append_inj' hconcat rfl).1

/-- More entries, at the end. -/
theorem always_append :
    Always P (l ++ l') ↔ Always P l ∧ Always (fun before => P (l ++ before)) l' := by
  induction l' using reverseRecOn with
  | nil => simp
  | append_singleton l' e ih =>
    rw [← append_assoc, always_append_singleton, ih, always_append_singleton, and_assoc]

theorem always_cons {e : α} :
    Always P (e :: l) ↔ P [] e ∧ Always (fun before => P (e :: before)) l := by
  rw [← singleton_append, always_append, ← nil_append [e], always_append_singleton]
  simp

/-- What holds of the entries alone. -/
theorem Always.of_forall (h : ∀ before, ∀ e ∈ l, P before e) : Always P l := by
  intro before e after hl
  exact h before e (by simp [hl])

end Journal
