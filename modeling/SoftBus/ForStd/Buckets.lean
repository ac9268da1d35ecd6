import Mathlib
import SoftBus.ForStd.FirstMatch

/-!
# Chained hash tables

A table has a list of entries for each value of the hash function, and an entry is searched for in the
list of its key.  `Ok` says that the entries are where they are searched for and that no two of them have
the same key; the lemmas say what is found after an entry has been added, changed or taken out.
-/

namespace List
open List
variable {α κ : Type*} [DecidableEq κ] {key : α → κ} {l : List α} {k k' : κ}

theorem find?_modifyFirst_key {f : α → α} (hf : ∀ a, key (f a) = key a) :
    (l.modifyFirst (key · = k) f).find? (key · = k') =
      if k' = k then (l.find? (key · = k)).map f else l.find? (key · = k') := by
  cases hfind : l.find? (key · = k) with
  | none =>
    rw [modifyFirst_of_none hfind]
    split
    · next heq => rw [heq, hfind, Option.map_none]
    · rfl
  | some a =>
    obtain ⟨before, after, hm⟩ := exists_firstMatch hfind
    have hkey : key a = k := by simpa using hm.hit
    rw [hm.modifyFirst_eq, hm.eq, find?_append, find?_append]
    split
    · next heq =>
      have hbefore : before.find? (key · = k) = none :=
        find?_eq_none.2 fun b hb => by simp [hm.skip b hb]
      rw [heq, hbefore, Option.none_or, find?_cons_of_pos (by simp [hf, hkey]), Option.map_some]
    · next hne =>
      rw [find?_cons_of_neg (by simp [hf, hkey, Ne.symm hne]),
        find?_cons_of_neg (by simp [hkey, Ne.symm hne])]

theorem find?_eraseP_key (hnodup : (l.map key).Nodup) :
    (l.eraseP (key · = k)).find? (key · = k') = if k' = k then none else l.find? (key · = k') := by
  cases hfind : l.find? (key · = k) with
  | none =>
    rw [eraseP_of_none hfind]
    split
    · next heq => rw [heq, hfind]
    · rfl
  | some a =>
    obtain ⟨before, after, hm⟩ := exists_firstMatch hfind
    have hkey : key a = k := by simpa using hm.hit
    rw [hm.eq, map_append, map_cons, nodup_append, nodup_cons] at hnodup
    rw [hm.eraseP_eq, hm.eq, find?_append, find?_append]
    split
    · next heq =>
      have hbefore : before.find? (key · = k) = none :=
        find?_eq_none.2 fun b hb => by simp [hm.skip b hb]
      have hafter : after.find? (key · = k) = none := by
        refine find?_eq_none.2 fun b hb => ?_
        have hne : key b ≠ k := fun heq => hnodup.2.1.1 (hkey.trans heq.symm ▸ mem_map_of_mem hb)
        simpa using hne
      rw [heq, hbefore, hafter, Option.none_or]
    · next hne => rw [find?_cons_of_neg (by simp [hkey, Ne.symm hne])]

end List

namespace Buckets
open Function List
variable {ι α κ : Type*} {hash : κ → ι} {key : α → κ} {b : ι → List α} {k : κ} {a : α}

/-- The entry with the key `k`. -/
def find [DecidableEq κ] (hash : κ → ι) (key : α → κ) (b : ι → List α) (k : κ) : Option α := (b (hash k)).find? (key · = k)

/-- Entries are in the list of their key, and have different keys. -/
structure Ok (hash : κ → ι) (key : α → κ) (b : ι → List α) : Prop where
  home : ∀ i, ∀ a ∈ b i, hash (key a) = i
  nodup : ∀ i, ((b i).map key).Nodup

/-- All lists one after the other have different keys as well. -/
theorem nodup_flatMap (h : Ok hash key b) {is : List ι} (his : is.Nodup) : ((is.flatMap b).map key).Nodup := by
  rw [map_flatMap, List.nodup_flatMap]
  refine ⟨fun i _ => h.nodup i, his.imp fun {i j} hne k hi hj => hne ?_⟩
  obtain ⟨a, ha, rfl⟩ := mem_map.1 hi
  obtain ⟨a', ha', hkey⟩ := mem_map.1 hj
  rw [← h.home i a ha, ← hkey, h.home j a' ha']

/-- All lists one after the other, when one of them changes by an entry. -/
theorem flatMap_update_perm [DecidableEq ι] {is : List ι} (his : is.Nodup) {i : ι} (hi : i ∈ is) {l l' : List α}
    (h : l.Perm (a :: l')) :
    (is.flatMap (update b i l)).Perm (a :: is.flatMap (update b i l')) := by
  obtain ⟨before, after, rfl⟩ := append_of_mem hi
  rw [nodup_middle, nodup_cons, mem_append, not_or] at his
  have hother : ∀ {js : List ι} {l : List α}, i ∉ js → js.flatMap (update b i l) = js.flatMap b :=
    fun hjs => flatMap_congr fun j hj => update_of_ne (ne_of_mem_of_not_mem hj hjs) ..
  simp only [flatMap_append, flatMap_cons, update_self, hother his.1.1, hother his.1.2]
  exact ((h.append_right _).append_left _).trans perm_middle

section
variable [DecidableEq κ]

theorem find_eq_some (h : Ok hash key b) : find hash key b k = some a ↔ a ∈ b (hash k) ∧ key a = k := by
  constructor
  · intro hfind
    exact ⟨mem_of_find?_eq_some hfind, by simpa using find?_some hfind⟩
  · rintro ⟨hmem, hkey⟩
    obtain ⟨a', ha'⟩ := find?_isSome_of_mem (p := (key · = k)) hmem (by simpa using hkey)
    have hkey' : key a' = k := by simpa using find?_some ha'
    have heq := inj_on_of_nodup_map (h.nodup (hash k)) (mem_of_find?_eq_some ha') hmem
      (hkey'.trans hkey.symm)
    rw [find, ha', heq]

/-- An entry is found under its key. -/
theorem find_of_mem (h : Ok hash key b) {i : ι} (ha : a ∈ b i) : find hash key b (key a) = some a :=
  (find_eq_some h).2 ⟨by rw [h.home i a ha]; exact ha, rfl⟩

/-- A search through all lists finds what a search in the right one does. -/
theorem find?_flatMap (h : Ok hash key b) {is : List ι} (hk : hash k ∈ is) :
    (is.flatMap b).find? (key · = k) = find hash key b k := by
  have hfound : ∀ a, (is.flatMap b).find? (key · = k) = some a → find hash key b k = some a := by
    intro a ha
    obtain ⟨i, -, hi⟩ := mem_flatMap.1 (mem_of_find?_eq_some ha)
    have hkey : key a = k := by simpa using find?_some ha
    rw [← hkey]
    exact find_of_mem h hi
  cases hfind : find hash key b k with
  | none =>
    refine Option.eq_none_iff_forall_ne_some.2 fun a ha => ?_
    exact Option.some_ne_none a ((hfound a ha).symm.trans hfind)
  | some a =>
    obtain ⟨ha, hkey⟩ := (find_eq_some h).1 hfind
    obtain ⟨a', ha'⟩ := find?_isSome_of_mem (p := (key · = k)) (mem_flatMap_of_mem hk ha)
      (by simpa using hkey)
    rw [ha', ← hfound a' ha', hfind]

end

/-- A new list in the place of the one for `k`. -/
protected theorem Ok.update [DecidableEq ι] (h : Ok hash key b) {l : List α} (hhome : ∀ a ∈ l, hash (key a) = hash k)
    (hnodup : (l.map key).Nodup) : Ok hash key (update b (hash k) l) := by
  constructor
  · intro i a ha
    by_cases hi : i = hash k
    · subst hi
      rw [update_self] at ha
      exact hhome a ha
    · rw [update_of_ne hi] at ha
      exact h.home i a ha
  · intro i
    by_cases hi : i = hash k
    · subst hi
      rw [update_self]
      exact hnodup
    · rw [update_of_ne hi]
      exact h.nodup i

variable [DecidableEq ι] [DecidableEq κ]

/-- What is found with a new list in the place of the one for `k`. -/
theorem find_update {l : List α} {k' : κ}
    (hl : ∀ k', k' ≠ k → l.find? (key · = k') = (b (hash k)).find? (key · = k')) :
    find hash key (update b (hash k) l) k' =
      if k' = k then l.find? (key · = k) else find hash key b k' := by
  unfold find
  by_cases heq : k' = k
  · rw [if_pos heq, heq, update_self]
  · rw [if_neg heq]
    by_cases hhash : hash k' = hash k
    · rw [hhash, update_self, hl k' heq]
    · rw [update_of_ne hhash]

/-! ## Operations -/

theorem Ok.cons (h : Ok hash key b) (ha : find hash key b (key a) = none) :
    Ok hash key (update b (hash (key a)) (a :: b (hash (key a)))) := by
  refine h.update ?_ ?_
  · simp only [forall_mem_cons]
    exact ⟨trivial, fun a' ha' => h.home _ a' ha'⟩
  · rw [map_cons, nodup_cons]
    refine ⟨fun hmem => ?_, h.nodup _⟩
    obtain ⟨a', ha', hkey⟩ := mem_map.1 hmem
    exact absurd hkey (by simpa using find?_eq_none.1 ha a' ha')

theorem find_cons (k' : κ) :
    find hash key (update b (hash (key a)) (a :: b (hash (key a)))) k' =
      if k' = key a then some a else find hash key b k' := by
  rw [find_update fun k' hne => find?_cons_of_neg (by simp [Ne.symm hne]),
    find?_cons_of_pos (by simp)]

/-- Entries with different keys, none of which is in the table, are added one after the other. -/
theorem foldl_cons {l : List α} (h : Ok hash key b) (hnodup : (l.map key).Nodup)
    (hl : ∀ a ∈ l, find hash key b (key a) = none) :
    Ok hash key (l.foldl (fun b a => update b (hash (key a)) (a :: b (hash (key a)))) b) ∧
      ∀ k, find hash key (l.foldl (fun b a => update b (hash (key a)) (a :: b (hash (key a)))) b) k =
        (l.find? (key · = k)).or (find hash key b k) := by
  induction l generalizing b with
  | nil => exact ⟨h, fun k => rfl⟩
  | cons a l ih =>
    rw [map_cons, nodup_cons] at hnodup
    rw [forall_mem_cons] at hl
    have hne : ∀ a' ∈ l, key a' ≠ key a := fun a' ha' heq => hnodup.1 (heq ▸ mem_map_of_mem ha')
    obtain ⟨hok, hfind⟩ := ih (h.cons hl.1) hnodup.2 fun a' ha' => by
      rw [find_cons, if_neg (hne a' ha'), hl.2 a' ha']
    refine ⟨hok, fun k => ?_⟩
    rw [foldl_cons, hfind, find_cons]
    split
    · next heq =>
      have hnone : l.find? (key · = k) = none :=
        find?_eq_none.2 fun a' ha' => by simpa [heq] using hne a' ha'
      rw [hnone, find?_cons_of_pos (by simp [heq])]
      rfl
    · next hk => rw [find?_cons_of_neg (by simpa using Ne.symm hk)]

theorem Ok.modify (h : Ok hash key b) {f : α → α} (hf : ∀ a, key (f a) = key a) :
    Ok hash key (update b (hash k) ((b (hash k)).modifyFirst (key · = k) f)) := by
  have hmap : ((b (hash k)).modifyFirst (key · = k) f).map key = (b (hash k)).map key :=
    map_modifyFirst fun a _ => hf a
  refine h.update (fun a ha => ?_) (by rw [hmap]; exact h.nodup _)
  have hmem : key a ∈ (b (hash k)).map key := by
    rw [← hmap]
    exact mem_map_of_mem ha
  obtain ⟨a', ha', hkey⟩ := mem_map.1 hmem
  rw [← hkey]
  exact h.home _ a' ha'

theorem find_modify {f : α → α} (hf : ∀ a, key (f a) = key a) (k' : κ) :
    find hash key (update b (hash k) ((b (hash k)).modifyFirst (key · = k) f)) k' =
      if k' = k then (find hash key b k).map f else find hash key b k' := by
  rw [find_update fun k' hne => by rw [find?_modifyFirst_key hf, if_neg hne],
    find?_modifyFirst_key hf, if_pos rfl]
  rfl

theorem Ok.erase (h : Ok hash key b) :
    Ok hash key (update b (hash k) ((b (hash k)).eraseP (key · = k))) :=
  h.update (fun a ha => h.home _ a (mem_of_mem_eraseP ha))
    ((h.nodup _).sublist (eraseP_sublist.map key))

theorem find_erase (h : Ok hash key b) (k' : κ) :
    find hash key (update b (hash k) ((b (hash k)).eraseP (key · = k))) k' =
      if k' = k then none else find hash key b k' := by
  rw [find_update fun k' hne => by rw [find?_eraseP_key (h.nodup _), if_neg hne],
    find?_eraseP_key (h.nodup _), if_pos rfl]

end Buckets
