import Mathlib

/-!
# Runs of a step function

A deterministic component is a step function `σ → α → σ`; a run is its
`List.foldl` over the inputs.  `AllSteps ok s as` says that every step of the run
from `s` over `as` meets `ok` in the state in which it is taken, and the
lemmas below turn a fact about one step into a fact about the whole run.
-/

namespace Run
variable {σ α : Type*} {step : σ → α → σ} {ok : σ → α → Prop} {s : σ} {as : List α} {P : σ → Prop}

/-- Every step of the run from `s` meets `ok`. -/
def AllSteps (step : σ → α → σ) (ok : σ → α → Prop) : σ → List α → Prop
  | _, [] => True
  | s, a :: as => ok s a ∧ AllSteps step ok (step s a) as

instance AllSteps.instDecidable (step : σ → α → σ) (ok : σ → α → Prop)
    [∀ s a, Decidable (ok s a)] : ∀ s as, Decidable (AllSteps step ok s as)
  | _, [] => .isTrue trivial
  | s, a :: as =>
    have := AllSteps.instDecidable step ok (step s a) as
    inferInstanceAs (Decidable (_ ∧ _))

@[simp] theorem allSteps_nil : AllSteps step ok s [] := trivial

@[simp] theorem allSteps_cons {a : α} :
    AllSteps step ok s (a :: as) ↔ ok s a ∧ AllSteps step ok (step s a) as := Iff.rfl

/-- A run splits at any point. -/
theorem allSteps_append {bs : List α} :
    AllSteps step ok s (as ++ bs) ↔ AllSteps step ok s as ∧ AllSteps step ok (as.foldl step s) bs := by
  induction as generalizing s with
  | nil => simp
  | cons a as ih => simp [ih, and_assoc]

/-- The steps of a run are the inputs that end one of its prefixes. -/
theorem allSteps_iff_forall_pre :
    AllSteps step ok s as ↔ ∀ pre a, pre ++ [a] <+: as → ok (pre.foldl step s) a := by
  induction as generalizing s with
  | nil => simp
  | cons b as ih =>
    rw [allSteps_cons, ih]
    constructor
    · rintro ⟨hb, has⟩ pre a hpre
      cases pre with
      | nil =>
        obtain rfl : a = b := by simpa using hpre
        exact hb
      | cons c pre =>
        obtain ⟨rfl, hpre'⟩ := List.cons_prefix_cons.1 hpre
        exact has pre a hpre'
    · intro h
      refine ⟨h [] b (by simp), fun pre a hpre => h (b :: pre) a ?_⟩
      exact List.cons_prefix_cons.2 ⟨rfl, hpre⟩

/-- Inputs that meet `ok` in every state. -/
theorem AllSteps.of_forall (h : ∀ s, ∀ a ∈ as, ok s a) : AllSteps step ok s as := by
  rw [allSteps_iff_forall_pre]
  intro pre a hpre
  exact h _ a (hpre.subset (by simp))

/-- Every prefix of a run of steps that meet `ok` is one. -/
theorem AllSteps.of_prefix {pre : List α} (h : AllSteps step ok s as) (hpre : pre <+: as) :
    AllSteps step ok s pre := by
  obtain ⟨post, rfl⟩ := hpre
  exact (allSteps_append.1 h).1

/-- An invariant of the steps that meet `ok` holds after every run of such steps. -/
theorem AllSteps.foldl_inv (hstep : ∀ s a, P s → ok s a → P (step s a)) (h : AllSteps step ok s as) (hs : P s) : P (as.foldl step s) := by
  induction as generalizing s with
  | nil => exact hs
  | cons a as ih => exact ih h.2 (hstep s a hs h.1)

/-- A simulation by another step function, kept by the steps that meet `ok`. -/
theorem AllSteps.foldl_sim {τ : Type*} {step' : τ → α → τ} {R : σ → τ → Prop}
    (hstep : ∀ s t a, R s t → ok s a → R (step s a) (step' t a)) {t : τ}
    (h : AllSteps step ok s as) (hs : R s t) : R (as.foldl step s) (as.foldl step' t) := by
  induction as generalizing s t with
  | nil => exact hs
  | cons a as ih => exact ih h.2 (hstep s t a hs h.1)

/-- A property that a step keeps exactly when it meets `ok` holds in every state of a run
    exactly when every step of the run meets `ok`. -/
theorem forall_pre_iff_allSteps (hstep : ∀ s a, P s → (P (step s a) ↔ ok s a))
    (hs : P s) :
    (∀ pre, pre <+: as → P (pre.foldl step s)) ↔ AllSteps step ok s as := by
  constructor
  · intro h
    refine allSteps_iff_forall_pre.2 fun pre a hpre => ?_
    have hpre' := h pre (List.IsPrefix.trans (List.prefix_append _ _) hpre)
    have ha := h (pre ++ [a]) hpre
    rw [List.foldl_append] at ha
    exact (hstep _ a hpre').1 ha
  · intro h pre hpre
    exact (h.of_prefix hpre).foldl_inv (fun s a hs hok => (hstep s a hs).2 hok) hs

/-- Two conditions that agree under an invariant of the steps that meet `ok` agree on
    every run of such steps. -/
theorem AllSteps.congr_inv {q q' : σ → α → Prop}
    (hstep : ∀ s a, P s → ok s a → P (step s a) ∧ (q s a ↔ q' s a)) (h : AllSteps step ok s as) (hs : P s) : AllSteps step q s as ↔ AllSteps step q' s as := by
  induction as generalizing s with
  | nil => exact Iff.rfl
  | cons a as ih =>
    obtain ⟨hs', hiff⟩ := hstep s a hs h.1
    exact and_congr hiff (ih h.2 hs')

/-- Two conditions that agree under an invariant, which the steps that meet the second one keep. -/
theorem AllSteps.congr_of_inv {q q' : σ → α → Prop}
    (hstep : ∀ s a, P s → ok s a → (q s a ↔ q' s a) ∧ (q' s a → P (step s a))) (h : AllSteps step ok s as) (hs : P s) : AllSteps step q s as ↔ AllSteps step q' s as := by
  induction as generalizing s with
  | nil => exact Iff.rfl
  | cons a as ih =>
    obtain ⟨hiff, hnext⟩ := hstep s a hs h.1
    rw [allSteps_cons, hiff]
    exact and_congr_right fun hq => ih h.2 (hnext hq)

end Run
