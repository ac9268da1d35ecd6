import Mathlib

/-!
# Lists with one entry per key

`KeyedList key` is a list in which no two entries have the same key, as a table kept
as a linked list and searched by an id is.  Entries keep their place when they are
replaced, and new ones go to the end.
-/

/-- A list whose entries have different keys. -/
structure KeyedList {α κ : Type*} (key : α → κ) where
  toList : List α
  nodup : (toList.map key).Nodup

namespace KeyedList
open List Option
variable {α κ : Type*} {key : α → κ}

@[ext] theorem ext {l m : KeyedList key} (h : l.toList = m.toList) : l = m := by
  cases m; cases h; rfl

/-- The list without entries. -/
def empty : KeyedList key := ⟨[], List.nodup_nil⟩

/-- Every entry is replaced or taken out; an entry that stays keeps its key. -/
def update (l : KeyedList key) (f : α → Option α) (hf : ∀ a b, f a = some b → key b = key a) :
    KeyedList key where
  toList := l.toList.filterMap f
  nodup := by
    have hsub : ((l.toList.filterMap f).map key).Sublist (l.toList.map key) := by
      induction l.toList with
      | nil => exact .slnil
      | cons a as ih =>
        cases h : f a with
        | none => rw [List.filterMap_cons_none h]; exact ih.cons _
        | some b =>
          rw [List.filterMap_cons_some h, List.map_cons, List.map_cons, hf a b h]
          exact ih.cons_cons _
    exact l.nodup.sublist hsub

/-- An entry splits the list into entries with other keys. -/
theorem split_of_mem {l : KeyedList key} {a : α} (h : a ∈ l.toList) :
    ∃ before after, l.toList = before ++ a :: after ∧
      (∀ b ∈ before, key b ≠ key a) ∧ ∀ b ∈ after, key b ≠ key a := by
  obtain ⟨before, after, hl⟩ := append_of_mem h
  have hn := l.nodup
  rw [hl, map_append, map_cons, nodup_append, nodup_cons] at hn
  refine ⟨before, after, hl, fun b hb he => ?_, fun b hb he => ?_⟩
  · exact hn.2.2 (key b) (mem_map_of_mem hb) (key a) mem_cons_self he
  · exact hn.2.1.1 (he ▸ mem_map_of_mem hb)

private theorem filterMap_eq_self {f : α → Option α} {l : List α} (h : ∀ a ∈ l, f a = some a) :
    l.filterMap f = l := by
  rw [filterMap_congr (g := some) h, filterMap_some]

section
variable [DecidableEq κ] {l : KeyedList key} {a b : α} {k : κ}

/-- The entry with the key `k`. -/
def find (l : KeyedList key) (k : κ) : Option α := l.toList.find? (key · = k)

theorem key_of_find (h : l.find k = some a) : key a = k := by
  simpa using find?_some h

theorem mem_of_find (h : l.find k = some a) : a ∈ l.toList := mem_of_find?_eq_some h

theorem find_eq_none : l.find k = none ↔ k ∉ l.toList.map key := by
  simp [find]

/-- Every entry is found under its key. -/
theorem find_of_mem (h : a ∈ l.toList) : l.find (key a) = some a := by
  obtain ⟨before, after, hl, hbefore, -⟩ := split_of_mem h
  have hnone : before.find? (key · = key a) = none :=
    find?_eq_none.2 fun b hb => by simpa using hbefore b hb
  rw [find, hl, find?_append, hnone, none_or, find?_cons_of_pos (by simp)]

theorem find_update {f : α → Option α} (hf : ∀ a b, f a = some b → key b = key a) :
    (l.update f hf).find k = (l.find k).bind f := by
  cases h : l.find k with
  | some a =>
    have hk := key_of_find h
    rw [bind_some]
    cases ha : f a with
    | some b =>
      have hb : b ∈ (l.update f hf).toList := mem_filterMap.2 ⟨a, mem_of_find h, ha⟩
      rw [← hk, ← hf a b ha]
      exact find_of_mem hb
    | none =>
      -- another entry that stays would have had the same key
      rw [find_eq_none]
      intro hmem
      obtain ⟨b, hb, hbk⟩ := mem_map.1 hmem
      obtain ⟨c, hc, hcb⟩ := mem_filterMap.1 hb
      have hck : key c = k := by rw [← hf c b hcb, hbk]
      have hfind := find_of_mem hc
      rw [hck, h] at hfind
      rw [← some.inj hfind, ha] at hcb
      exact absurd hcb (by simp)
  | none =>
    rw [bind_none, find_eq_none]
    rw [find_eq_none] at h
    intro hmem
    obtain ⟨b, hb, hbk⟩ := mem_map.1 hmem
    obtain ⟨c, hc, hcb⟩ := mem_filterMap.1 hb
    exact h (mem_map.2 ⟨c, hc, by rw [← hf c b hcb, hbk]⟩)

/-- Puts `a` in the place of the entry with its key. -/
def set (l : KeyedList key) (a : α) : KeyedList key :=
  l.update (fun b => some (if key b = key a then a else b)) fun b c h => by
    rw [← Option.some.inj h]
    split
    · next he => exact he.symm
    · rfl

/-- Takes out the entry with the key `k`. -/
def erase (l : KeyedList key) (k : κ) : KeyedList key :=
  l.update (fun b => if key b = k then none else some b) fun b c h => by
    split at h
    · exact absurd h (by simp)
    · rw [Option.some.inj h]

/-- Appends an entry, unless its key is taken. -/
def push (l : KeyedList key) (a : α) : KeyedList key :=
  if h : key a ∈ l.toList.map key then l
  else
    { toList := l.toList ++ [a]
      nodup := by
        rw [List.map_append, List.nodup_append]
        exact ⟨l.nodup, List.nodup_singleton _, fun x hx y hy => by
          rw [List.mem_singleton.1 hy]
          exact fun he => h (he ▸ hx)⟩ }

/-- What replacing and taking out an entry do to the list. -/
theorem split_of_find (h : l.find k = some b) :
    ∃ before after, l.toList = before ++ b :: after ∧
      (∀ a, key a = k → (l.set a).toList = before ++ a :: after) ∧
      (l.erase k).toList = before ++ after := by
  obtain ⟨before, after, hl, hbefore, hafter⟩ := split_of_mem (mem_of_find h)
  rw [key_of_find h] at hbefore hafter
  refine ⟨before, after, hl, fun a ha => ?_, ?_⟩
  · simp only [set, update, hl, filterMap_append, filterMap_cons, ha, key_of_find h, if_true]
    congr 1
    · exact filterMap_eq_self (fun c hc => by rw [if_neg (hbefore c hc)])
    · congr 1
      exact filterMap_eq_self (fun c hc => by rw [if_neg (hafter c hc)])
  · simp only [erase, update, hl, filterMap_append, filterMap_cons, key_of_find h, if_true]
    congr 1
    · exact filterMap_eq_self (fun c hc => by rw [if_neg (hbefore c hc)])
    · exact filterMap_eq_self (fun c hc => by rw [if_neg (hafter c hc)])

@[simp] theorem find_set_self (h : l.find (key a) = some b) : (l.set a).find (key a) = some a := by
  rw [set, find_update, h, bind_some, if_pos (key_of_find h)]

theorem find_set_ne (l : KeyedList key) {a : α} (h : k ≠ key a) : (l.set a).find k = l.find k := by
  rw [set, find_update]
  cases hk : l.find k with
  | none => rfl
  | some b => rw [bind_some, if_neg (fun he => h (by rw [← he, key_of_find hk]))]

@[simp] theorem find_erase_self : (l.erase k).find k = none := by
  rw [erase, find_update]
  cases hk : l.find k with
  | none => rfl
  | some b => rw [bind_some, if_pos (key_of_find hk)]

theorem find_erase_ne {k k' : κ} (h : k ≠ k') : (l.erase k').find k = l.find k := by
  rw [erase, find_update]
  cases hk : l.find k with
  | none => rfl
  | some b => rw [bind_some, if_neg (fun he => h (by rw [← he, key_of_find hk]))]

theorem find_push_self (h : l.find (key a) = none) : (l.push a).find (key a) = some a := by
  apply find_of_mem
  rw [push, dif_neg (find_eq_none.1 h)]
  simp

theorem find_push_ne (h : k ≠ key a) : (l.push a).find k = l.find k := by
  unfold push
  split
  · rfl
  · simp [find, find?_append, h.symm]

/-- Puts an entry in front, unless its key is taken. -/
def cons (l : KeyedList key) (a : α) : KeyedList key :=
  if h : key a ∈ l.toList.map key then l
  else ⟨a :: l.toList, List.nodup_cons.2 ⟨h, l.nodup⟩⟩

theorem toList_cons (h : l.find (key a) = none) : (l.cons a).toList = a :: l.toList := by
  rw [cons, dif_neg (find_eq_none.1 h)]

theorem find_cons_self (h : l.find (key a) = none) : (l.cons a).find (key a) = some a := by
  rw [find, toList_cons h, find?_cons_of_pos (by simp)]

theorem find_cons_ne (h : k ≠ key a) : (l.cons a).find k = l.find k := by
  unfold cons
  split
  · rfl
  · rw [find, find?_cons_of_neg (by simpa using h.symm), ← find]

/-- Puts `a` in the place of the entry with its key, or at the end. -/
def put (l : KeyedList key) (a : α) : KeyedList key :=
  if (l.find (key a)).isSome then l.set a else l.push a

@[simp] theorem find_put_self : (l.put a).find (key a) = some a := by
  unfold put
  cases h : l.find (key a) with
  | none => exact find_push_self h
  | some b => exact find_set_self h

theorem find_put_ne (h : k ≠ key a) : (l.put a).find k = l.find k := by
  unfold put
  split
  · exact find_set_ne l h
  · exact find_push_ne h

/-! ## Several changes of one entry -/

theorem set_set (h : key a = key b) : (l.set a).set b = l.set b := by
  apply ext
  simp only [set, update, filterMap_filterMap]
  congr 1
  funext c
  by_cases hc : key c = key b
  · simp [hc, h]
  · simp [hc, h]

theorem erase_set (h : key a = k) : (l.set a).erase k = l.erase k := by
  apply ext
  simp only [set, erase, update, filterMap_filterMap]
  congr 1
  funext c
  by_cases hc : key c = k
  · simp [hc, h]
  · simp [hc, h]

theorem erase_of_find_none (h : l.find k = none) : l.erase k = l := by
  apply ext
  refine filterMap_eq_self fun a ha => ?_
  rw [if_neg]
  exact fun he => find_eq_none.1 h (he ▸ mem_map_of_mem ha)

theorem set_push (hn : l.find (key a) = none) (h : key a = key b) : (l.push a).set b = l.push b := by
  have ha := find_eq_none.1 hn
  have hb : key b ∉ l.toList.map key := h ▸ ha
  apply ext
  rw [push, dif_neg ha, push, dif_neg hb]
  simp only [set, update, filterMap_append, filterMap_cons, filterMap_nil, h, if_true]
  congr 1
  refine filterMap_eq_self fun c hc => ?_
  have hne : key c ≠ key b := fun he => hb (he ▸ mem_map_of_mem hc)
  rw [if_neg hne]

theorem erase_push (hn : l.find (key a) = none) : (l.push a).erase (key a) = l := by
  have ha := find_eq_none.1 hn
  apply ext
  rw [push, dif_neg ha]
  simp only [erase, update, filterMap_append, filterMap_cons, filterMap_nil, if_true, append_nil]
  refine filterMap_eq_self fun c hc => ?_
  have hne : key c ≠ key a := fun he => ha (he ▸ mem_map_of_mem hc)
  rw [if_neg hne]

theorem put_of_find (h : l.find (key a) = some b) : l.put a = l.set a := by
  rw [put, h, isSome_some, if_pos rfl]

theorem put_of_find_none (h : l.find (key a) = none) : l.put a = l.push a := by
  rw [put, h, if_neg (by simp)]

/-! ## Sums over the entries -/

variable {M : Type*} [AddCommMonoid M] (f : α → M)

/-- The sum of a value of the entries. -/
def total (l : KeyedList key) : M := (l.toList.map f).sum

theorem total_erase : l.total f = (l.erase k).total f + ((l.find k).map f).getD 0 := by
  cases h : l.find k with
  | none => simp [erase_of_find_none h]
  | some b =>
    obtain ⟨before, after, hl, -, herase⟩ := split_of_find h
    simp only [total, hl, herase, map_append, map_cons, sum_append, sum_cons, map_some, getD_some]
    rw [add_assoc, add_comm (f b)]

theorem total_put (l : KeyedList key) (a : α) :
    (l.put a).total f = (l.erase (key a)).total f + f a := by
  cases h : l.find (key a) with
  | none =>
    rw [put_of_find_none h, erase_of_find_none h, push, dif_neg (find_eq_none.1 h)]
    simp [total]
  | some b =>
    obtain ⟨before, after, -, hset, herase⟩ := split_of_find h
    rw [put_of_find h]
    simp only [total, hset a rfl, herase, map_append, map_cons, sum_append, sum_cons]
    rw [add_assoc, add_comm (f a)]

end
end KeyedList
