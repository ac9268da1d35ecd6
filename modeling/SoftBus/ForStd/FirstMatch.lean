import Mathlib

/-!
# The first entry of a list that meets a test

A linked list is searched from its head: an operation looks at the first entry that meets
a test, changes it in place or takes it out.  `FirstMatch p l before a after` splits the
list at that entry, and says what the search, a change in place (`modifyFirst`) and a
removal (`List.eraseP`) give.
-/

namespace List
open List
variable {α β : Type*} {p : α → Bool} {l : List α} {f : α → α} {q : α → Bool}

/-- Changes the first entry that meets `p`. -/
def modifyFirst (p : α → Bool) (f : α → α) (l : List α) : List α :=
  l.replaceF fun a => if p a then some (f a) else none

/-- Changes the first entry that meets `p`, and gives a copy of it as it is then. -/
def updateFirst (p : α → Bool) (f : α → α) (l : List α) : Option (α × List α) :=
  (l.find? p).map fun a => (f a, l.modifyFirst p f)

/-- Takes out the first entry that meets `p`, and gives it. -/
def takeFirst (p : α → Bool) (l : List α) : Option (α × List α) :=
  (l.find? p).map fun a => (a, l.eraseP p)

/-- `a` is the first entry of `l` that meets `p`. -/
structure FirstMatch (p : α → Bool) (l before : List α) (a : α) (after : List α) : Prop where
  eq : l = before ++ a :: after
  skip : ∀ b ∈ before, p b = false
  hit : p a = true

theorem find?_eq_none_cases (h : l.find? p = none) : ∀ a ∈ l, p a = false := by
  intro a ha
  simpa using find?_eq_none.1 h a ha

/-- A search that finds something splits the list. -/
theorem exists_firstMatch {a : α} (h : l.find? p = some a) :
    ∃ before after, FirstMatch p l before a after := by
  obtain ⟨hit, before, after, rfl, skip⟩ := find?_eq_some_iff_append.1 h
  exact ⟨before, after, rfl, fun b hb => by simpa using skip b hb, hit⟩

/-- An entry that meets the test is found, or one before it. -/
theorem find?_isSome_of_mem {a : α} (ha : a ∈ l) (hp : p a = true) : ∃ b, l.find? p = some b := by
  cases h : l.find? p with
  | some b => exact ⟨b, rfl⟩
  | none => exact absurd (find?_eq_none_cases h a ha) (by simp [hp])

namespace FirstMatch
variable {before after : List α} {a : α}

section
variable (h : FirstMatch p l before a after)
include h

theorem mem : a ∈ l := by
  rw [h.eq]
  simp

theorem find?_eq : l.find? p = some a :=
  find?_eq_some_iff_append.2 ⟨h.hit, before, after, h.eq, fun b hb => by simp [h.skip b hb]⟩

theorem eraseP_eq : l.eraseP p = before ++ after := by
  rw [h.eq, eraseP_append_right _ fun b hb => by simp [h.skip b hb], eraseP_cons_of_pos h.hit]

theorem modifyFirst_eq : l.modifyFirst p f = before ++ f a :: after := by
  obtain ⟨heq, hskip, hit⟩ := h
  subst heq
  induction before with
  | nil => simp [modifyFirst, hit]
  | cons b before ih =>
    have hb : p b = false := hskip b (by simp)
    have ih := ih fun c hc => hskip c (by simp [hc])
    simp only [modifyFirst] at ih
    simp [modifyFirst, hb, ih]

/-- The first match is the head of all matches. -/
theorem filter_eq : l.filter p = a :: after.filter p := by
  have hbefore : before.filter p = [] := filter_eq_nil_iff.2 fun b hb => by simp [h.skip b hb]
  rw [h.eq, filter_append, hbefore, nil_append, filter_cons_of_pos h.hit]

/-- What is left of the list. -/
theorem perm_cons : l.Perm (a :: (before ++ after)) := by
  rw [h.eq]
  exact perm_middle

end
end FirstMatch

/-- What is found meets `q` exactly when no entry that passes the test but does not meet `q`
    comes before all that meet it. -/
theorem find?_forall_iff {q : α → Prop} (hqp : ∀ a, q a → p a = true) :
    (∀ a, l.find? p = some a → q a) ↔
      ∀ before a after, l = before ++ a :: after → p a = true → ¬ q a → ∃ d ∈ before, q d := by
  constructor
  · intro h before a after hl hpa hqa
    cases hd : before.find? p with
    | some d =>
      -- the entry found in the first part is the one found in the list
      have hfind : l.find? p = some d := by rw [hl, find?_append, hd, Option.some_or]
      exact ⟨d, mem_of_find?_eq_some hd, h d hfind⟩
    | none =>
      have hfind : l.find? p = some a := by
        rw [hl, find?_append, hd, Option.none_or, find?_cons_of_pos hpa]
      exact absurd (h a hfind) hqa
  · intro h a ha
    obtain ⟨before, after, hm⟩ := exists_firstMatch ha
    by_contra hqa
    obtain ⟨d, hd, hqd⟩ := h before a after hm.eq hm.hit hqa
    have hskip := hm.skip d hd
    rw [hqp d hqd] at hskip
    exact absurd hskip (by simp)

theorem modifyFirst_of_none (h : l.find? p = none) : l.modifyFirst p f = l := by
  apply replaceF_of_forall_none
  intro a ha
  rw [if_neg (by simp [find?_eq_none_cases h a ha])]

/-- The change depends on the test for the entries of the list only. -/
theorem modifyFirst_congr (h : ∀ a ∈ l, p a = q a) : l.modifyFirst p f = l.modifyFirst q f := by
  induction l with
  | nil => rfl
  | cons a l ih =>
    have ih := ih fun b hb => h b (mem_cons_of_mem a hb)
    simp only [modifyFirst] at ih
    simp only [modifyFirst, replaceF_cons, h a mem_cons_self, ih]

/-- What is in the list after the change. -/
theorem mem_of_mem_modifyFirst {a : α} (h : a ∈ l.modifyFirst p f) :
    a ∈ l ∨ ∃ b, l.find? p = some b ∧ a = f b := by
  cases hb : l.find? p with
  | none =>
    rw [modifyFirst_of_none hb] at h
    exact .inl h
  | some b =>
    obtain ⟨_, _, hm⟩ := exists_firstMatch hb
    rw [hm.modifyFirst_eq, mem_append, mem_cons] at h
    rw [hm.eq, mem_append, mem_cons]
    rcases h with h | h | h
    · exact .inl (.inl h)
    · exact .inr ⟨b, rfl, h⟩
    · exact .inl (.inr (.inr h))

theorem eraseP_congr (h : ∀ a ∈ l, p a = q a) : l.eraseP p = l.eraseP q := by
  induction l with
  | nil => rfl
  | cons a l ih =>
    rw [eraseP_cons, eraseP_cons, h a mem_cons_self, ih fun b hb => h b (mem_cons_of_mem a hb)]

theorem eraseP_of_none (h : l.find? p = none) : l.eraseP p = l :=
  eraseP_of_forall_not fun a ha => by simp [find?_eq_none_cases h a ha]

/-- Taking out the first match forgets a change of it that the test does not see. -/
theorem eraseP_modifyFirst (hf : ∀ a, p (f a) = p a) : (l.modifyFirst p f).eraseP p = l.eraseP p := by
  cases ha : l.find? p with
  | none => rw [modifyFirst_of_none ha]
  | some a =>
    obtain ⟨before, after, hm⟩ := exists_firstMatch ha
    have hm' : FirstMatch p (l.modifyFirst p f) before (f a) after :=
      ⟨hm.modifyFirst_eq, hm.skip, (hf a).trans hm.hit⟩
    rw [hm.eraseP_eq, hm'.eraseP_eq]

/-- Taking out a match of `p` leaves the entries that meet `q` alone, if it is not one of them. -/
theorem filter_eraseP_of_not (h : ∀ a ∈ l, p a = true → q a = false) :
    (l.eraseP p).filter q = l.filter q := by
  cases ha : l.find? p with
  | none => rw [eraseP_of_none ha]
  | some a =>
    obtain ⟨_, _, hm⟩ := exists_firstMatch ha
    have hq : q a = false := h a hm.mem hm.hit
    rw [hm.eraseP_eq, hm.eq]
    simp [filter_append, hq]

/-- Changing a match of `p` leaves the entries that meet `q` alone, if it is none of them
    before and after the change. -/
theorem filter_modifyFirst_of_not (h : ∀ a ∈ l, p a = true → q a = false ∧ q (f a) = false) :
    (l.modifyFirst p f).filter q = l.filter q := by
  cases ha : l.find? p with
  | none => rw [modifyFirst_of_none ha]
  | some a =>
    obtain ⟨_, _, hm⟩ := exists_firstMatch ha
    obtain ⟨hq, hq'⟩ := h a hm.mem hm.hit
    rw [hm.modifyFirst_eq, hm.eq]
    simp [filter_append, hq, hq']

/-- A change of the first match that keeps its key. -/
theorem map_modifyFirst {key : α → β} (h : ∀ a, l.find? p = some a → key (f a) = key a) :
    (l.modifyFirst p f).map key = l.map key := by
  cases ha : l.find? p with
  | none => rw [modifyFirst_of_none ha]
  | some a =>
    obtain ⟨_, _, hm⟩ := exists_firstMatch ha
    rw [hm.modifyFirst_eq, hm.eq]
    simp [h a ha]

/-- What a change of the first entry gives, if there is one. -/
theorem updateFirst_eq_some {r : α × List α} (h : l.updateFirst p f = some r) :
    ∃ before a after, FirstMatch p l before a after ∧ r = (f a, before ++ f a :: after) := by
  cases ha : l.find? p with
  | none => simp [updateFirst, ha] at h
  | some a =>
    obtain ⟨before, after, hm⟩ := exists_firstMatch ha
    rw [updateFirst, ha, hm.modifyFirst_eq] at h
    exact ⟨before, a, after, hm, (Option.some.inj h).symm⟩

end List
