import Mathlib
import SoftBus.ForStd.Buckets
import SoftBus.ForStd.PairMap
import SoftBus.ForStd.Run
import SoftBus.Native.TopoManager

/-!
# The relation of two devices

The relation of a pair is stored in the list of one of the two devices, and which one depends on
the items that are there.  A search looks at one end only: at the item of the first device if it
has one.  So the relation is found from both ends only as long as no device has an item and is in the
list of another one (`PairMap.Separated`); updates that add a pair can break this, and `Fits` says
which ones do not.
-/

namespace SoftBus.Native
open PairMap List Option
variable {f : TopoTableItem → TopoTableItem} {v : Option Relation} {u : TopoUpdate} {relation : Relation}

namespace TopoHashTable
variable {t t' : TopoHashTable} {a b udid peerUdid : Udid} {item : TopoTableItem}

/-! ## What is stored -/

section
variable (t)

/-- The relation in the list of `a` for `b`. -/
def stored (a b : Udid) : Option Relation :=
  (t.findTopoItem a).bind fun item => (item.joinList.find? (·.peerUdid = b)).map (·.relation)

def items : List TopoTableItem := (List.finRange 16).flatMap t.table

/-- The pairs whose relation is stored. -/
def pairs : List (Sym2 Udid) :=
  t.items.flatMap fun item => item.joinList.map fun info => s(item.udid, info.peerUdid)

end

/-- The lists of the table. -/
structure Shape (t : TopoHashTable) : Prop where
  buckets : Buckets.Ok t.hashIndex TopoTableItem.udid t.table
  peers : ∀ a item, t.findTopoItem a = some item → (item.joinList.map (·.peerUdid)).Nodup

/-- Each pair is stored at one end. -/
structure Ok (t : TopoHashTable) : Prop extends Shape t where
  nonempty : ∀ a item, t.findTopoItem a = some item → item.joinList ≠ []
  separated : Separated t.stored

theorem udid_of_find (h : t.findTopoItem a = some item) : item.udid = a := by
  simpa using find?_some h

theorem Shape.find_of_mem (h : t.Shape) (hitem : item ∈ t.items) : t.findTopoItem item.udid = some item := by
  obtain ⟨i, _, hmem⟩ := mem_flatMap.1 hitem
  exact Buckets.find_of_mem h.buckets hmem

theorem mem_items_of_find (h : t.findTopoItem a = some item) : item ∈ t.items :=
  mem_flatMap.2 ⟨_, mem_finRange _, mem_of_find?_eq_some h⟩

theorem stored_of_find (h : t.findTopoItem a = some item) (b : Udid) :
    t.stored a b = (item.joinList.find? (·.peerUdid = b)).map (·.relation) := by
  rw [stored, h, bind_some]

theorem stored_of_find_none (h : t.findTopoItem a = none) (b : Udid) : t.stored a b = none := by
  rw [stored, h, bind_none]

theorem stored_ne_none : t.stored a b ≠ none ↔
    ∃ item, t.findTopoItem a = some item ∧ ∃ info ∈ item.joinList, info.peerUdid = b := by
  cases h : t.findTopoItem a with
  | none => simp [stored_of_find_none h]
  | some item => simp [stored_of_find h]

/-- There is something at a device with an item. -/
theorem Ok.exists_stored (h : t.Ok) (hitem : t.findTopoItem a = some item) : ∃ b, t.stored a b ≠ none := by
  obtain ⟨info, hinfo⟩ := exists_mem_of_ne_nil _ (h.nonempty a item hitem)
  exact ⟨info.peerUdid, stored_ne_none.2 ⟨item, hitem, info, hinfo, rfl⟩⟩

theorem lnnGetRelation_eq_ite : t.lnnGetRelation udid peerUdid =
      if (t.findTopoItem udid).isSome then t.stored udid peerUdid else t.stored peerUdid udid := by
  unfold lnnGetRelation findTopoInfo findEnd
  cases h : t.findTopoItem udid with
  | some item =>
    rw [stored_of_find h]
    cases hfind : item.joinList.find? (·.peerUdid = peerUdid) <;> simp [hfind]
  | none =>
    cases h' : t.findTopoItem peerUdid with
    | none =>
      rw [stored_of_find_none h']
      rfl
    | some item =>
      rw [stored_of_find h']
      cases hfind : item.joinList.find? (·.peerUdid = udid) <;> simp [hfind]

/-- The search gives what is stored for the pair, at whichever end. -/
theorem Ok.lnnGetRelation_eq (h : t.Ok) : t.lnnGetRelation a b = PairMap.get t.stored a b := by
  rw [lnnGetRelation_eq_ite, PairMap.get]
  cases hitem : t.findTopoItem a with
  | none => rw [stored_of_find_none hitem]; rfl
  | some item =>
    cases hab : t.stored a b with
    | some r => rfl
    | none =>
      by_contra hba
      obtain ⟨c, hac⟩ := h.exists_stored hitem
      obtain rfl := h.separated b a c (Ne.symm hba) hac
      exact hba hab.symm

/-- No pair is stored twice. -/
theorem Ok.nodup_pairs (h : t.Ok) : t.pairs.Nodup := by
  have hitems : t.items.Nodup := by
    refine nodup_flatMap.2 ⟨fun i _ => .of_map _ (h.buckets.nodup i), ?_⟩
    refine (nodup_finRange 16).pairwise_of_forall_ne fun i _ j _ hij => ?_
    intro item hi hj
    exact hij ((h.buckets.home i item hi).symm.trans (h.buckets.home j item hj))
  refine nodup_flatMap.2 ⟨fun item hitem => ?_, ?_⟩
  · have hpeers := h.peers _ _ (h.find_of_mem hitem)
    have hmap : item.joinList.map (fun info => s(item.udid, info.peerUdid)) =
        (item.joinList.map (·.peerUdid)).map fun peer => s(item.udid, peer) := by
      rw [List.map_map]
      rfl
    rw [hmap]
    exact hpeers.map fun p q hpq => Sym2.congr_right.1 hpq
  · refine hitems.pairwise_of_forall_ne fun x hx y hy hne => ?_
    intro pair hpx hpy
    obtain ⟨info, hinfo, rfl⟩ := mem_map.1 hpx
    obtain ⟨info', hinfo', heq⟩ := mem_map.1 hpy
    have hx' := h.find_of_mem hx
    have hy' := h.find_of_mem hy
    have hudid : x.udid ≠ y.udid := by
      intro hudid
      rw [hudid, hy'] at hx'
      exact hne (some.inj hx').symm
    obtain ⟨h1, h2⟩ := (Sym2.eq_iff.1 heq).resolve_left fun hsame => hudid hsame.1.symm
    -- each of the two is in the list of the other
    have hxy : t.stored x.udid y.udid ≠ none := stored_ne_none.2 ⟨x, hx', info, hinfo, h1.symm⟩
    have hyx : t.stored y.udid x.udid ≠ none := stored_ne_none.2 ⟨y, hy', info', hinfo', h2⟩
    exact hudid (h.separated.eq_of_both hxy hyx).symm

/-! ## Changes of one item -/

/-- The relation in the list of an item for `b`. -/
def entry (item : TopoTableItem) (b : Udid) : Option Relation :=
  (item.joinList.find? (·.peerUdid = b)).map (·.relation)

theorem entry_add (c : Udid) :
    entry (item.add ⟨b, relation⟩) c = if c = b then some relation else entry item c := by
  unfold entry TopoTableItem.add
  by_cases hc : c = b
  · rw [if_pos hc, find?_cons_of_pos (by simp [hc]), map_some]
  · rw [if_neg hc, find?_cons_of_neg (by simp [Ne.symm hc])]

theorem entry_setRelation (relation : Relation) (hb : entry item b ≠ none) (c : Udid) :
    entry (item.setRelation b relation) c = if c = b then some relation else entry item c := by
  have hkey : ∀ info : TopoInfo, ({ info with relation := relation } : TopoInfo).peerUdid = info.peerUdid :=
    fun _ => rfl
  unfold entry TopoTableItem.setRelation at *
  rw [find?_modifyFirst_key hkey]
  by_cases hc : c = b
  · obtain ⟨info, hinfo⟩ := ne_none_iff_exists'.1 (mt map_eq_none_iff.2 hb)
    rw [if_pos hc, if_pos hc, hinfo]
    rfl
  · rw [if_neg hc, if_neg hc]

theorem entry_delete (hnodup : (item.joinList.map (·.peerUdid)).Nodup) (c : Udid) :
    entry (item.delete b) c = if c = b then none else entry item c := by
  unfold entry TopoTableItem.delete
  rw [find?_eraseP_key hnodup]
  split <;> rfl

/-- The item of `a` is `new` now, and the others are as before. -/
structure Puts (t t' : TopoHashTable) (a : Udid) (new : Option TopoTableItem) : Prop where
  buckets : Buckets.Ok t'.hashIndex TopoTableItem.udid t'.table
  find : ∀ c, t'.findTopoItem c = if c = a then new else t.findTopoItem c

variable {new new' : Option TopoTableItem}

theorem Puts.trans {t'' : TopoHashTable} (h : Puts t t' a new) (h' : Puts t' t'' a new') : Puts t t'' a new' := by
  refine ⟨h'.buckets, fun c => ?_⟩
  rw [h'.find, h.find]
  split <;> rfl

theorem Puts.find_self (h : Puts t t' a new) : t'.findTopoItem a = new := by
  rw [h.find, if_pos rfl]

/-- The number of entries plays no role. -/
theorem Puts.withCount (h : Puts t t' a new) (n : UInt32) : Puts t { t' with totalCount := n } a new :=
  ⟨h.buckets, h.find⟩

section
variable (h : Buckets.Ok t.hashIndex TopoTableItem.udid t.table)
include h

theorem puts_modifyItem (hf : ∀ item, (f item).udid = item.udid)
    (hitem : t.findTopoItem a = some item) : Puts t (t.modifyItem a f) a (some (f item)) := by
  refine ⟨h.modify hf, fun c => ?_⟩
  have hfind : (t.modifyItem a f).findTopoItem c = if c = a then (t.findTopoItem a).map f else t.findTopoItem c :=
    Buckets.find_modify hf c
  rwa [hitem] at hfind

theorem puts_insertItem (item : TopoTableItem) (hnone : t.findTopoItem item.udid = none) :
    Puts t (t.insertItem item) item.udid (some item) :=
  ⟨h.cons hnone, Buckets.find_cons⟩

/-- An item that has no entries left is deleted. -/
theorem puts_tryDeleteItem (hitem : t.findTopoItem a = some item) :
    Puts t (t.tryDeleteItem a) a (if item.joinList.isEmpty then none else some item) := by
  unfold TopoHashTable.tryDeleteItem
  simp only [hitem]
  split
  · exact ⟨h.erase, Buckets.find_erase h⟩
  · refine ⟨h, fun c => ?_⟩
    split
    · next hc => rw [hc, hitem]
    · rfl

end

/-- The relation `v` of the pair is now stored at `a` for `b`. -/
structure Writes (t t' : TopoHashTable) (a b : Udid) (v : Option Relation) : Prop where
  shape : t'.Shape
  stored : t'.stored = PairMap.set t.stored a b v
  nonempty : ∀ c item, t'.findTopoItem c = some item → item.joinList ≠ []

/-- Nothing is looked up in the new item but `b`. -/
theorem Ok.writes (h : t.Ok) (hput : Puts t t' a new)
    (hnew : ∀ item ∈ new, (item.joinList.map (·.peerUdid)).Nodup ∧ item.joinList ≠ [])
    (hentry : ∀ c, (new.bind fun item => entry item c) = if c = b then v else t.stored a c) : Writes t t' a b v := by
  have hcases : ∀ c item, t'.findTopoItem c = some item → item ∈ new ∨ t.findTopoItem c = some item := by
    intro c item hc
    rw [hput.find] at hc
    split at hc
    · exact .inl hc
    · exact .inr hc
  refine ⟨⟨hput.buckets, fun c item hc => ?_⟩, ?_, fun c item hc => ?_⟩
  · exact (hcases c item hc).elim (fun hi => (hnew item hi).1) (h.peers c item)
  · funext x y
    rw [set_apply, stored, hput.find]
    by_cases hx : x = a
    · subst hx
      simp only [if_true, true_and]
      exact hentry y
    · rw [if_neg hx, if_neg fun h => hx h.1]
      rfl
  · exact (hcases c item hc).elim (fun hi => (hnew item hi).2) (h.nonempty c item)

/-- An entry comes to an item that has none for the peer. -/
theorem Ok.add (h : t.Ok) (hput : Puts t t' a (some (item.add ⟨b, relation⟩)))
    (hnodup : (item.joinList.map (·.peerUdid)).Nodup) (hitem : ∀ c, entry item c = t.stored a c) (hnew : t.stored a b = none) :
    Writes t t' a b (some relation) := by
  refine h.writes hput ?_ fun c => ?_
  · rintro _ ⟨⟩
    refine ⟨nodup_cons.2 ⟨fun hmem => ?_, hnodup⟩, cons_ne_nil _ _⟩
    obtain ⟨info, hinfo, hpeer⟩ := mem_map.1 hmem
    have hnone := find?_eq_none.1 (map_eq_none_iff.1 ((hitem b).trans hnew)) info hinfo
    simp [hpeer] at hnone
  · rw [bind_some, entry_add, hitem]

/-- What is stored for a pair changes or is deleted. -/
theorem Ok.change (h : t.Ok) (relation : Relation) (hstored : t.stored a b ≠ none) :
    let t₁ := t.modifyItem a (·.setRelation b relation)
    let t₂ := if !hasRelation relation then
        { t₁.modifyItem a (·.delete b) with totalCount := t₁.totalCount - 1 }
      else t₁
    Writes t (t₂.tryDeleteItem a) a b (if hasRelation relation then some relation else none) := by
  intro t₁ t₂
  obtain ⟨item, hitem, -⟩ := stored_ne_none.1 hstored
  have hentry : ∀ c, t.stored a c = entry item c := stored_of_find hitem
  have hset := entry_setRelation relation (hentry b ▸ hstored)
  have hput₁ : Puts t t₁ a (some (item.setRelation b relation)) := puts_modifyItem h.buckets (fun _ => rfl) hitem
  have hkeys : (item.setRelation b relation).joinList.map (·.peerUdid) = item.joinList.map (·.peerUdid) :=
    map_modifyFirst fun _ _ => rfl
  have hnodup : ((item.setRelation b relation).joinList.map (·.peerUdid)).Nodup := hkeys ▸ h.peers a item hitem
  obtain ⟨item₂, hput₂, hnodup₂, hlook⟩ : ∃ item₂, Puts t t₂ a (some item₂) ∧
      (item₂.joinList.map (·.peerUdid)).Nodup ∧ ∀ c, entry item₂ c =
        if c = b then (if hasRelation relation then some relation else none) else t.stored a c := by
    simp only [hentry, t₂]
    by_cases hrel : hasRelation relation
    · simp only [hrel, if_true, Bool.not_true, Bool.false_eq_true, if_false]
      exact ⟨_, hput₁, hnodup, hset⟩
    · simp only [hrel, Bool.false_eq_true, if_false, Bool.not_false, if_true]
      have hput := puts_modifyItem (f := (·.delete b)) hput₁.buckets (fun _ => rfl) hput₁.find_self
      refine ⟨_, hput₁.trans (hput.withCount _), hnodup.sublist (eraseP_sublist.map _), fun c => ?_⟩
      rw [entry_delete hnodup, hset]
      split <;> rfl
  refine h.writes (hput₂.trans (puts_tryDeleteItem hput₂.buckets hput₂.find_self)) (fun item' hitem' => ?_) fun c => ?_
  · split at hitem'
    · exact absurd hitem' nofun
    · next hne =>
      obtain rfl := some.inj hitem'
      exact ⟨hnodup₂, fun hnil => hne (isEmpty_iff.2 hnil)⟩
  · rw [← hlook]
    split
    · next hempty => simp [entry, isEmpty_iff.1 hempty]
    · rfl

/-! ## Updates -/

/-- An update that adds a pair finds an item of at most one of the two devices; and if it creates one,
    the device is in no list. -/
def Fits (t : TopoHashTable) (u : TopoUpdate) : Prop :=
  t.findTopoInfo u.udid u.peerUdid = none → hasRelation u.relation →
    (t.findTopoItem u.udid ≠ none → t.findTopoItem u.peerUdid ≠ none → u.udid = u.peerUdid) ∧
      (t.findTopoItem u.udid = none → t.findTopoItem u.peerUdid = none →
        ∀ item ∈ t.items, ∀ info ∈ item.joinList, info.peerUdid ≠ u.udid)

instance (t : TopoHashTable) (u : TopoUpdate) : Decidable (t.Fits u) := by
  unfold Fits
  infer_instance

theorem createTopoInfo_eq_some {info : TopoInfo}
    (h : createTopoInfo udid relation = some info) : info = ⟨udid, relation⟩ := by
  unfold createTopoInfo at h
  split at h
  · exact (some.inj h).symm
  · exact absurd h nofun

theorem createTopoItem_eq_some (h : createTopoItem udid = some item) : item = ⟨udid, 0, []⟩ := by
  unfold createTopoItem at h
  split at h
  · exact (some.inj h).symm
  · exact absurd h nofun

/-- The end at which a pair is searched for. -/
theorem findEnd_spec {name : Udid} (h : t.findEnd udid peerUdid = some (item, name)) :
    t.findTopoItem item.udid = some item ∧ s(item.udid, name) = s(udid, peerUdid) ∧
      (item.udid = udid ∧ name = peerUdid ∨ name = udid ∧ t.findTopoItem udid = none) := by
  unfold findEnd at h
  cases hitem : t.findTopoItem udid with
  | some item' =>
    rw [hitem] at h
    obtain ⟨rfl, rfl⟩ := Prod.mk.inj (some.inj h)
    rw [udid_of_find hitem]
    exact ⟨hitem, rfl, .inl ⟨rfl, rfl⟩⟩
  | none =>
    rw [hitem] at h
    obtain ⟨item', hitem', heq⟩ := map_eq_some_iff.1 h
    obtain ⟨rfl, rfl⟩ := Prod.mk.inj heq
    rw [udid_of_find hitem']
    exact ⟨hitem', Sym2.eq_swap, .inr ⟨rfl, rfl⟩⟩

theorem findEnd_eq_none (h : t.findEnd udid peerUdid = none) :
    t.findTopoItem udid = none ∧ t.findTopoItem peerUdid = none := by
  unfold findEnd at h
  cases hitem : t.findTopoItem udid with
  | some item' => rw [hitem] at h; exact absurd h nofun
  | none =>
    rw [hitem] at h
    exact ⟨rfl, map_eq_none_iff.1 h⟩

/-- The pair is written at an end where it does no harm. -/
theorem Ok.write (h : t.Ok) (hwrites : Writes t t' a b v) (ha : ∀ c, t.stored c a ≠ none → c = a)
    (hb : ∀ c, t.stored b c ≠ none → b = a) :
    t'.Ok ∧ ∀ x y, t'.lnnGetRelation x y = if s(x, y) = s(a, b) then v else t.lnnGetRelation x y := by
  have hok : t'.Ok := ⟨hwrites.shape, hwrites.nonempty, hwrites.stored ▸ h.separated.set ha hb⟩
  refine ⟨hok, fun x y => ?_⟩
  rw [hok.lnnGetRelation_eq, h.lnnGetRelation_eq, hwrites.stored]
  exact get_set (hb a) x y

/-- An update that is not written changes nothing. -/
def Updated (t : TopoHashTable) (u : TopoUpdate) (r : TopoRet × TopoHashTable) : Prop :=
  r.1 ≠ .ok ∧ r.2 = t ∨ r.1 = .ok ∧ r.2.Ok ∧ ∀ x y, r.2.lnnGetRelation x y =
      if s(x, y) = s(u.udid, u.peerUdid) then (if hasRelation u.relation then some u.relation else none)
      else t.lnnGetRelation x y

theorem Ok.addTopoInfo (h : t.Ok) (hfits : t.Fits u) (hnone : t.findTopoInfo u.udid u.peerUdid = none)
    (hrel : hasRelation u.relation) :
    t.Updated u (t.addTopoInfo u.udid u.peerUdid u.relation) := by
  obtain ⟨hboth, hneither⟩ := hfits hnone hrel
  have hitem_of : ∀ {b c}, t.stored b c ≠ none → t.findTopoItem b ≠ none := by
    intro b c hbc hb
    exact hbc (stored_of_find_none hb c)
  unfold TopoHashTable.addTopoInfo
  cases hend : t.findEnd u.udid u.peerUdid with
  | some r =>
    obtain ⟨item, name⟩ := r
    obtain ⟨hitem, hpair, hname⟩ := findEnd_spec hend
    have hnew : t.stored item.udid name = none := by
      rw [stored_of_find hitem]
      unfold findTopoInfo at hnone
      rw [hend] at hnone
      cases hfind : item.joinList.find? (·.peerUdid = name) with
      | none => rfl
      | some info => simp [hfind] at hnone
    dsimp only
    split
    · exact .inl ⟨nofun, rfl⟩
    · next info hinfo =>
      obtain rfl := createTopoInfo_eq_some hinfo
      obtain ⟨c, hc⟩ := h.exists_stored hitem
      have hput := (puts_modifyItem (f := (·.add ⟨name, u.relation⟩)) h.buckets (fun _ => rfl) hitem).withCount (t.totalCount + 1)
      have hwrites := h.add hput (h.peers _ _ hitem) (fun c => (stored_of_find hitem c).symm) hnew
      obtain ⟨hok, hget⟩ := h.write hwrites (fun d hd => (h.separated d item.udid c hd hc).symm) (by
        intro d hd
        rcases hname with ⟨hudid, hpeer⟩ | ⟨hpeer, hudid⟩
        · rw [hpeer] at hd ⊢
          rw [hudid] at hitem ⊢
          exact (hboth (by rw [hitem]; nofun) (hitem_of hd)).symm
        · rw [hpeer] at hd
          exact absurd hudid (hitem_of hd))
      refine .inr ⟨rfl, hok, fun x y => ?_⟩
      rw [hget, hpair, if_pos hrel]
  | none =>
    obtain ⟨hudid, hpeer⟩ := findEnd_eq_none hend
    dsimp only
    split
    · next item info hcreate hinfo =>
      obtain rfl := createTopoItem_eq_some hcreate
      obtain rfl := createTopoInfo_eq_some hinfo
      have hnew := stored_of_find_none hudid
      have hput := (puts_insertItem h.buckets (.add ⟨u.peerUdid, u.relation⟩ ⟨u.udid, 0, []⟩) hudid).withCount (t.totalCount + 1)
      have hwrites := h.add hput nodup_nil (fun c => (hnew c).symm) (hnew _)
      obtain ⟨hok, hget⟩ := h.write hwrites (by
        intro c hc
        obtain ⟨item, hitem, info, hinfo, heq⟩ := stored_ne_none.1 hc
        exact absurd heq (hneither hudid hpeer item (mem_items_of_find hitem) info hinfo))
        (fun c hc => absurd hpeer (hitem_of hc))
      refine .inr ⟨rfl, hok, fun x y => ?_⟩
      rw [if_pos hrel]
      exact hget x y
    · exact .inl ⟨nofun, rfl⟩

theorem Ok.updateLocalTopo (h : t.Ok) (hfits : t.Fits u) :
    t.Updated u (t.updateLocalTopo u.udid u.peerUdid u.relation) := by
  unfold TopoHashTable.updateLocalTopo
  cases hfind : t.findTopoInfo u.udid u.peerUdid with
  | none =>
    by_cases hrel : hasRelation u.relation
    · simp only [hrel, Bool.not_true, Bool.false_eq_true, if_false]
      exact h.addTopoInfo hfits hfind hrel
    · simp only [hrel, Bool.not_false, if_true]
      exact .inl ⟨nofun, rfl⟩
  | some r =>
    obtain ⟨item, info⟩ := r
    dsimp only
    split
    · exact .inl ⟨nofun, rfl⟩
    · obtain ⟨⟨item', name⟩, hend, hname⟩ := bind_eq_some_iff.1 hfind
      obtain ⟨info', hinfo', heq⟩ := bind_eq_some_iff.1 hname
      obtain ⟨rfl, rfl⟩ := Prod.mk.inj (some.inj heq)
      obtain ⟨hitem, hpair, -⟩ := findEnd_spec hend
      have hpeer : info'.peerUdid = name := by simpa using find?_some hinfo'
      have hstored : t.stored item'.udid info'.peerUdid ≠ none :=
        stored_ne_none.2 ⟨item', hitem, info', mem_of_find?_eq_some hinfo', rfl⟩
      have hwrites := h.change u.relation hstored
      obtain ⟨hok, hget⟩ := h.write hwrites (fun c hc => (h.separated c _ _ hc hstored).symm)
        (fun c hc => h.separated _ _ c hstored hc)
      refine .inr ⟨rfl, hok, fun x y => ?_⟩
      rw [← hpair, ← hpeer]
      exact hget x y

end TopoHashTable

/-! ## Runs -/

namespace TopoRun

/-- The relation that was last written for a pair, if it was not deleted. -/
def lastWritten (s : TopoRun) (a b : Udid) : Option Relation :=
  (s.written.reverse.find? fun u => s(a, b) = s(u.udid, u.peerUdid)).bind fun u =>
    if hasRelation u.relation then some u.relation else none

def Fits (s : TopoRun) : TopoEvent → Prop
  | .update u => s.table.Fits u
  | .clear => True

instance (s : TopoRun) (e : TopoEvent) : Decidable (s.Fits e) := by
  unfold Fits
  cases e <;> infer_instance

/-- What is found for a pair is what was last written for it. -/
structure Inv (s : TopoRun) : Prop where
  ok : s.table.Ok
  get_eq : ∀ a b, s.table.lnnGetRelation a b = s.lastWritten a b

/-- A table without entries. -/
theorem inv_empty (littleEndian : Bool) (totalCount : UInt32) :
    Inv ⟨⟨littleEndian, fun _ => [], totalCount⟩, []⟩ :=
  ⟨⟨⟨⟨fun _ _ => nofun, fun _ => nodup_nil⟩, fun _ _ => nofun⟩, fun _ _ => nofun,
    fun _ _ _ hbad => absurd rfl hbad⟩, fun _ _ => rfl⟩

theorem lastWritten_append (table table' : TopoHashTable) (written : List TopoUpdate) (u : TopoUpdate)
    (a b : Udid) :
    lastWritten ⟨table', written ++ [u]⟩ a b =
      if s(a, b) = s(u.udid, u.peerUdid) then (if hasRelation u.relation then some u.relation else none)
      else lastWritten ⟨table, written⟩ a b := by
  unfold lastWritten
  rw [reverse_append, reverse_singleton, singleton_append]
  by_cases h : s(a, b) = s(u.udid, u.peerUdid)
  · rw [if_pos h, find?_cons_of_pos (by simpa using h), bind_some]
  · rw [if_neg h, find?_cons_of_neg (by simpa using h)]

theorem Inv.step {s : TopoRun} (h : s.Inv) {e : TopoEvent} (hfits : s.Fits e) : (s.step e).Inv := by
  cases e with
  | clear => exact inv_empty _ _
  | update u =>
    rw [TopoRun.step]
    obtain ⟨ret, table, hr⟩ :
        ∃ ret table, s.table.updateLocalTopo u.udid u.peerUdid u.relation = (ret, table) := ⟨_, _, rfl⟩
    have hupdated := h.ok.updateLocalTopo hfits
    rw [hr] at hupdated ⊢
    rcases hupdated with ⟨hret, rfl⟩ | ⟨rfl, hok, hget⟩
    · cases ret with
      | ok => exact absurd rfl hret
      | err | notFind | memErr => exact h
    · refine ⟨hok, fun a b => ?_⟩
      rw [hget, h.get_eq]
      exact (lastWritten_append s.table table s.written u a b).symm

/-- The udid of four equal letters, and an update that writes a relation by WLAN. -/
def sampleUdid (letter : UInt8) : Udid := List.replicate 4 letter

def sampleUpdate (letter peerLetter relation : UInt8) : TopoEvent :=
  .update ⟨sampleUdid letter, sampleUdid peerLetter, #v[relation, 0, 0, 0]⟩

end TopoRun
end SoftBus.Native
