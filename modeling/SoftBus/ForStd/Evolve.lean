import Mathlib
import SoftBus.ForStd.FirstMatch

/-!
# Lists whose entries change or go

`Evolves R l l'` says that `l'` comes from `l` by taking entries out and putting others in
the place of those that stay, each related by `R` to the one before it.  The operations on
a table (change the first match, take it out, filter, map) all are of this kind, so an
invariant of the entries is shown once for `R`.
-/

namespace List
variable {α κ : Type*} {R S : α → α → Prop} {l l' l'' : List α}

/-- Entries go, or are replaced by entries related by `R`. -/
def Evolves (R : α → α → Prop) (l l' : List α) : Prop := SublistForall₂ (fun b a => R a b) l' l

namespace Evolves

theorem of_sublist (hR : ∀ a, R a a) (h : l' <+ l) : Evolves R l l' :=
  sublistForall₂_iff.2 ⟨l', forall₂_same.2 fun a _ => hR a, h⟩

theorem refl (hR : ∀ a, R a a) : Evolves R l l := of_sublist hR (Sublist.refl l)

theorem cons {a b : α} (hab : R a b) (h : Evolves R l l') : Evolves R (a :: l) (b :: l') :=
  SublistForall₂.cons hab h

theorem of_filterMap {f : α → Option α} (hf : ∀ a b, f a = some b → R a b) :
    Evolves R l (l.filterMap f) := by
  induction l with
  | nil => exact .nil
  | cons a l ih =>
    cases h : f a with
    | none => rw [filterMap_cons_none h]; exact .cons_right ih
    | some b => rw [filterMap_cons_some h]; exact cons (hf a b h) ih

theorem of_map {f : α → α} (hf : ∀ a, R a (f a)) : Evolves R l (l.map f) := by
  rw [← filterMap_eq_map]
  apply of_filterMap
  intro a b hab
  rw [← Option.some.inj hab]
  exact hf a

/-- A change of the first match; entries that are not changed are related to themselves. -/
theorem of_modifyFirst {p : α → Bool} {f : α → α} (hR : ∀ a, R a a) (hf : ∀ a, R a (f a)) :
    Evolves R l (l.modifyFirst p f) := by
  cases ha : l.find? p with
  | none => rw [modifyFirst_of_none ha]; exact refl hR
  | some a =>
    obtain ⟨before, after, hm⟩ := exists_firstMatch ha
    rw [hm.modifyFirst_eq, hm.eq]
    apply sublistForall₂_iff.2
    refine ⟨before ++ a :: after, rel_append ?_ (.cons (hf a) ?_), Sublist.refl _⟩
    · exact forall₂_same.2 fun b _ => hR b
    · exact forall₂_same.2 fun b _ => hR b

theorem of_updateFirst {p : α → Bool} {f : α → α} {r : α × List α} (hR : ∀ a, R a a)
    (hf : ∀ a, R a (f a)) (h : l.updateFirst p f = some r) : Evolves R l r.2 := by
  obtain ⟨a, ha, hr⟩ := Option.map_eq_some_iff.1 h
  rw [← hr]
  exact of_modifyFirst hR hf

theorem mono (hRS : ∀ a b, R a b → S a b) (h : Evolves R l l') : Evolves S l l' := by
  obtain ⟨m, hm, hsub⟩ := sublistForall₂_iff.1 h
  exact sublistForall₂_iff.2 ⟨m, hm.imp fun b a hab => hRS a b hab, hsub⟩

theorem trans (hR : ∀ a b c, R a b → R b c → R a c) (h : Evolves R l l')
    (h' : Evolves R l' l'') : Evolves R l l'' := by
  have : IsTrans α fun b a => R a b := ⟨fun c b a hcb hba => hR a b c hba hcb⟩
  exact IsTrans.trans (r := SublistForall₂ fun b a => R a b) l'' l' l h' h

/-- Where an entry comes from. -/
theorem exists_of_mem (h : Evolves R l l') {b : α} (hb : b ∈ l') : ∃ a ∈ l, R a b := by
  induction h with
  | nil => exact absurd hb not_mem_nil
  | cons hab _ ih =>
    cases hb with
    | head => exact ⟨_, mem_cons_self, hab⟩
    | tail _ hb =>
      obtain ⟨a, ha, hab'⟩ := ih hb
      exact ⟨a, mem_cons_of_mem _ ha, hab'⟩
  | cons_right _ ih =>
    obtain ⟨a, ha, hab⟩ := ih hb
    exact ⟨a, mem_cons_of_mem _ ha, hab⟩

/-- Keys that the entries keep. -/
theorem map_sublist {key : α → κ} (h : Evolves R l l') (hkey : ∀ a b, R a b → key b = key a) :
    l'.map key <+ l.map key := by
  induction h with
  | nil => exact nil_sublist _
  | cons hab _ ih => rw [map_cons, hkey _ _ hab]; exact ih.cons_cons _
  | cons_right _ ih => exact ih.cons _

end Evolves
end List
