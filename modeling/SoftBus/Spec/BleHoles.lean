import Mathlib
import SoftBus.ForStd.Cover
import SoftBus.ForStd.Run
import SoftBus.Spec.BleFragments

/-!
# Holes in the messages of a BLE connection

A cache counts the bytes that are copied into it, and the message is taken as complete when
the count is the total of the packet that comes last.  The count says nothing about where the
bytes are: a fragment that comes twice is counted twice.  `BleLog` keeps, beside the caches,
the heads of the fragments copied into each of them since it was taken for its sequence
number; where these fragments do not overlap and name one total (`Fits`), a complete message
has no hole.
-/

namespace SoftBus.Native
open Function Finset
variable {pos : ℕ} {s : BleLog} {seq : UInt32} {i : Fin 3} {c : RecvCaches} {value : List UInt8}
  {header : BleTransHeader} {node : BleRecvCache}

/-- The positions that a fragment fills. -/
def BleTransHeader.range (header : BleTransHeader) : Finset ℕ :=
  Finset.Ico header.offset.toNat (header.offset.toNat + header.size.toNat)

/-- The caches of a connection, each with the fragments that were copied into it since it was
    taken for its sequence number. -/
structure BleLog where
  recvCache : RecvCaches
  parts : Fin 3 → List BleTransHeader

namespace BleLog

/-- A new connection. -/
def new : BleLog := ⟨fun _ => ⟨false, 0, 0, none⟩, fun _ => []⟩

section
variable (s)

/-- The cache into which the data of a packet is copied, with the head of the packet. -/
def copied (value : List UInt8) : Option (Fin 3 × BleTransHeader) :=
  match getTransHeader value with
  | none => none
  | some header =>
    if header.size = header.total then none
    else
      match findAvailableCacheIndex s.recvCache header.seq with
      | none => none
      | some (i, _) =>
        if memcpyS (maxDataLen - header.offset).toNat (value.drop bleTransHeaderLen.toNat) then
          some (i, header)
        else
          none

/-- The parts of a cache that is in use; one that is not is taken anew. -/
def partsOf (i : Fin 3) : List BleTransHeader :=
  if (s.recvCache i).isUsed then s.parts i else []

/-- A packet is received. -/
def receive (value : List UInt8) : BleLog where
  recvCache := (bleOnReceive s.recvCache value).2
  parts :=
    match s.copied value with
    | none => s.parts
    | some (i, header) => update s.parts i (s.partsOf i ++ [header])

/-- A fragment that is copied into a cache lies within its total, and it overlaps no fragment
    that the cache has already and names the same total. -/
def Fits (value : List UInt8) : Prop :=
  ∀ copy ∈ s.copied value, copy.2.offset.toNat + copy.2.size.toNat ≤ copy.2.total.toNat ∧
      ∀ part ∈ s.partsOf copy.1, part.total = copy.2.total ∧ Disjoint part.range copy.2.range

end

instance (s : BleLog) (value : List UInt8) : Decidable (s.Fits value) :=
  inferInstanceAs (Decidable (∀ copy ∈ s.copied value, _))

end BleLog

/-! ## A cache and its parts -/

/-- The parts of a cache have its sequence number and do not overlap, and the cache counts
    them. -/
structure PartsOk (node : BleRecvCache) (parts : List BleTransHeader) : Prop where
  seq : ∀ part ∈ parts, part.seq = node.seq
  inside : ∀ part ∈ parts, part.range ⊆ Finset.range part.total.toNat
  disjoint : parts.Pairwise fun part part' => Disjoint part.range part'.range
  size : node.currentSize.toNat = (parts.map fun part => part.range.card).sum

namespace PartsOk
variable {node' : BleRecvCache} {parts : List BleTransHeader}

theorem nil (seq : UInt32) (cache : Option (List UInt8)) : PartsOk ⟨true, seq, 0, cache⟩ [] :=
  ⟨by simp, by simp, .nil, rfl⟩

/-- One more part.  The count does not overflow, since the parts lie within one total. -/
theorem add (h : PartsOk node parts) (htotal : ∀ part ∈ parts, part.total = header.total)
    (hinside : header.offset.toNat + header.size.toNat ≤ header.total.toNat)
    (hdisj : ∀ part ∈ parts, Disjoint part.range header.range) (hseq : header.seq = node.seq)
    (hseq' : node'.seq = node.seq) (hsize : node'.currentSize = node.currentSize + header.size) :
    PartsOk node' (parts ++ [header]) := by
  have hrange : header.range ⊆ range header.total.toNat := by
    intro pos hpos
    rw [BleTransHeader.range, mem_Ico] at hpos
    rw [mem_range]
    omega
  have hpairs : (parts ++ [header]).Pairwise fun part part' => Disjoint part.range part'.range := by
    rw [List.pairwise_append]
    refine ⟨h.disjoint, List.pairwise_singleton _ _, fun part hpart part' hpart' => ?_⟩
    rw [List.mem_singleton.1 hpart']
    exact hdisj part hpart
  have hcard : header.range.card = header.size.toNat := by
    rw [BleTransHeader.range, Nat.card_Ico]
    omega
  have hle : ((parts ++ [header]).map fun part => part.range.card).sum ≤ header.total.toNat := by
    have hparts : ∀ part ∈ parts ++ [header], part.range ⊆ range header.total.toNat := by
      simp only [List.forall_mem_append, List.forall_mem_singleton]
      exact ⟨fun part hpart => htotal part hpart ▸ h.inside part hpart, hrange⟩
    have hsum := Cover.sum_card_le (l := (parts ++ [header]).map BleTransHeader.range)
      (List.pairwise_map.2 hpairs) (List.forall_mem_map.2 hparts)
    rwa [List.map_map, card_range] at hsum
  refine ⟨?_, ?_, hpairs, ?_⟩
  · simp only [List.forall_mem_append, List.forall_mem_singleton, hseq', hseq]
    exact ⟨h.seq, trivial⟩
  · simp only [List.forall_mem_append, List.forall_mem_singleton]
    exact ⟨h.inside, hrange⟩
  · have hlt := header.total.toNat_lt
    rw [List.map_append, List.sum_append, List.map_singleton, List.sum_singleton] at hle ⊢
    rw [hsize, UInt32.toNat_add, h.size]
    omega

/-- When the count is the total of the parts, every position is in one of them. -/
theorem exists_part (h : PartsOk node parts) (total : UInt32) (htotal : ∀ part ∈ parts, part.total = total)
    (hsize : node.currentSize = total) (hpos : pos < total.toNat) :
    ∃ part ∈ parts, part.seq = node.seq ∧ pos ∈ part.range := by
  have hsub : ∀ part ∈ parts, part.range ⊆ range total.toNat :=
    fun part hpart => htotal part hpart ▸ h.inside part hpart
  have hcard : (range total.toNat).card ≤ ((parts.map BleTransHeader.range).map card).sum := by
    rw [List.map_map, card_range, ← hsize, h.size]
    exact le_refl _
  obtain ⟨s, hs, hmem⟩ := Cover.exists_mem (List.pairwise_map.2 h.disjoint) (List.forall_mem_map.2 hsub)
    hcard (mem_range.2 hpos)
  obtain ⟨part, hpart, rfl⟩ := List.mem_map.1 hs
  exact ⟨part, hpart, h.seq part hpart, hmem⟩

end PartsOk

/-! ## Steps -/

namespace BleLog

/-- Every cache that is in use counts its parts. -/
def Counted (s : BleLog) : Prop := ∀ i, (s.recvCache i).isUsed = true → PartsOk (s.recvCache i) (s.parts i)

theorem counted_new : new.Counted := fun _ hused => absurd hused Bool.false_ne_true

/-- The cache that is found for a packet, as it is before the copy. -/
theorem Counted.found (h : s.Counted) (hfind : findAvailableCacheIndex s.recvCache seq = some (i, c)) :
    PartsOk (c i) (s.partsOf i) := by
  unfold partsOf
  cases cacheFound_of_find hfind with
  | old hused hseq =>
    rw [if_pos hused]
    exact h i hused
  | new buf hunused hnone =>
    rw [if_neg (by simp [hunused]), update_self]
    exact .nil seq (some buf)

/-- What is found differs from the caches before in the cache that is found only. -/
theorem eq_of_found {c' : RecvCaches} {j : Fin 3} (hfind : findAvailableCacheIndex c seq = some (i, c')) (hj : j ≠ i) :
    c' j = c j := by
  cases cacheFound_of_find hfind with
  | old hused hseq => rfl
  | new buf hunused hnone => rw [update_of_ne hj]

variable (h : s.Counted)
include h

/-- The cache of a packet after the copy. -/
theorem Counted.copied (hfits : s.Fits value)
    (hfind : findAvailableCacheIndex s.recvCache header.seq = some (i, c))
    (hcopied : s.copied value = some (i, header)) (hseq : node.seq = (c i).seq)
    (hsize : node.currentSize = (c i).currentSize + header.size) :
    PartsOk node (s.partsOf i ++ [header]) := by
  obtain ⟨hinside, hparts⟩ := hfits _ hcopied
  exact (h.found hfind).add (fun part hpart => (hparts part hpart).1) hinside
    (fun part hpart => (hparts part hpart).2) (cacheFound_of_find hfind).seq_eq.symm hseq hsize

/-- A change of one cache. -/
theorem Counted.update {parts : Fin 3 → List BleTransHeader}
    (hfind : findAvailableCacheIndex s.recvCache seq = some (i, c)) (hparts : ∀ j, j ≠ i → parts j = s.parts j)
    (hnode : node.isUsed = true → PartsOk node (parts i)) :
    Counted ⟨update c i node, parts⟩ := by
  intro j hused
  by_cases hj : j = i
  · subst hj
    dsimp only at hused ⊢
    rw [update_self] at hused ⊢
    exact hnode hused
  · dsimp only at hused ⊢
    rw [update_of_ne hj, eq_of_found hfind hj] at hused ⊢
    rw [hparts j hj]
    exact h j hused

theorem Counted.receive (hfits : s.Fits value) : (s.receive value).Counted := by
  cases hheader : getTransHeader value with
  | none =>
    have hcopied : s.copied value = none := by simp only [BleLog.copied, hheader]
    simp only [BleLog.receive, hcopied, bleOnReceive, bleTransRecv, hheader]
    exact h
  | some header =>
    by_cases hpart : header.size = header.total
    · have hcopied : s.copied value = none := by simp only [BleLog.copied, hheader, if_pos hpart]
      simp only [BleLog.receive, hcopied, bleOnReceive, bleTransRecv, hheader, if_pos hpart]
      exact h
    cases hfind : findAvailableCacheIndex s.recvCache header.seq with
    | none =>
      have hcopied : s.copied value = none := by simp only [BleLog.copied, hheader, if_neg hpart, hfind]
      simp only [BleLog.receive, hcopied, bleOnReceive, bleTransRecv, hheader, if_neg hpart, hfind]
      exact h
    | some found =>
      obtain ⟨i, c⟩ := found
      rw [BleLog.receive, bleOnReceive_part hheader hpart hfind]
      by_cases hcopy : memcpyS (maxDataLen - header.offset).toNat (value.drop bleTransHeaderLen.toNat)
      · have hcopied : s.copied value = some (i, header) := by
          simp only [BleLog.copied, hheader, if_neg hpart, hfind, if_pos hcopy]
        rw [if_pos hcopy, hcopied]
        split
        · -- the message is complete, and its cache is free again
          exact h.update hfind (fun j hj => update_of_ne hj _ _)
            fun hused => absurd hused Bool.false_ne_true
        · refine h.update hfind (fun j hj => update_of_ne hj _ _) fun _ => ?_
          dsimp only
          rw [update_self]
          exact h.copied hfits hfind hcopied rfl rfl
      · have hcopied : s.copied value = none := by
          simp only [BleLog.copied, hheader, if_neg hpart, hfind, if_neg hcopy]
        rw [if_neg hcopy, hcopied]
        exact h.update hfind (fun _ _ => rfl) fun hused => absurd hused Bool.false_ne_true

/-- A packet that completes a message. -/
theorem Counted.complete (hfits : s.Fits value) (hheader : getTransHeader value = some header)
    {message : List UInt8} (hrecv : (bleTransRecv s.recvCache value).1 = some (message, some i))
    (hpos : pos < header.total.toNat) :
    ∃ part ∈ (s.receive value).parts i, part.seq = header.seq ∧ pos ∈ part.range := by
  unfold bleTransRecv at hrecv
  simp only [hheader] at hrecv
  split at hrecv
  · exact absurd hrecv nofun
  · next hpart =>
    split at hrecv
    · exact absurd hrecv nofun
    · next j c hfind =>
      split at hrecv
      · next hcopy =>
        split at hrecv
        · next hsize =>
          obtain ⟨rfl, rfl⟩ : (PosFile.pwrite 0 ((c j).cache.getD []) header.offset.toNat
              (value.drop bleTransHeaderLen.toNat)).take header.total.toNat = message ∧ j = i := by
            simpa using hrecv
          have hcopied : s.copied value = some (j, header) := by
            simp only [BleLog.copied, hheader, if_neg hpart, hfind, if_pos hcopy]
          have hparts : PartsOk { c j with currentSize := (c j).currentSize + header.size }
              (s.partsOf j ++ [header]) := h.copied hfits hfind hcopied rfl rfl
          obtain ⟨_, hsame⟩ := hfits _ hcopied
          obtain ⟨part, hmem, hseq, hrange⟩ := hparts.exists_part header.total (by
            simp only [List.forall_mem_append, List.forall_mem_singleton]
            exact ⟨fun part hpart => (hsame part hpart).1, trivial⟩) hsize hpos
          refine ⟨part, ?_, hseq.trans (cacheFound_of_find hfind).seq_eq, hrange⟩
          rw [BleLog.receive, hcopied]
          dsimp only
          rwa [update_self]
        · exact absurd hrecv nofun
      · exact absurd hrecv nofun

end BleLog

/-! ## Runs -/

/-- In every run in which the fragments that are copied fit (see `BleLog.Fits`), a packet that
    completes a message leaves no position of it that no fragment of its sequence number has
    filled since the cache was taken for it. -/
theorem completed_without_holes (values : List (List UInt8)) (value : List UInt8)
    (hfits : Run.AllSteps BleLog.receive BleLog.Fits .new (values ++ [value])) :
    let s := values.foldl BleLog.receive .new
    ∀ header message i, getTransHeader value = some header →
      (bleTransRecv s.recvCache value).1 = some (message, some i) → ∀ pos < header.total.toNat,
        ∃ part ∈ (s.receive value).parts i, part.seq = header.seq ∧
          part.offset.toNat ≤ pos ∧ pos < part.offset.toNat + part.size.toNat := by
  intro s header message i hheader hrecv pos hpos
  obtain ⟨hvalues, hvalue⟩ := Run.allSteps_append.1 hfits
  have h : s.Counted := hvalues.foldl_inv (P := BleLog.Counted) (fun _ _ h hok => h.receive hok)
    BleLog.counted_new
  obtain ⟨part, hpart, hseq, hrange⟩ := h.complete hvalue.1 hheader hrecv hpos
  exact ⟨part, hpart, hseq, mem_Ico.1 hrange⟩

/-- The first two bytes of a message of four come twice, and the message is complete. -/
theorem completed_with_hole :
    let value := packBleTransHeader ⟨1, 2, 0, 4⟩ ++ [8, 9]
    let s : BleLog := [value].foldl BleLog.receive .new
    (bleTransRecv s.recvCache value).1 = some ([8, 9, 0, 0], some 0) ∧
      (s.receive value).parts 0 = [⟨1, 2, 0, 4⟩, ⟨1, 2, 0, 4⟩] := by
  decide +kernel

/-- The two halves of a message come in the wrong order. -/
theorem completed_from_halves :
    let values := [packBleTransHeader ⟨1, 2, 2, 4⟩ ++ [8, 9]]
    let value := packBleTransHeader ⟨1, 2, 0, 4⟩ ++ [6, 7]
    let s : BleLog := values.foldl BleLog.receive .new
    (bleTransRecv s.recvCache value).1 = some ([6, 7, 8, 9], some 0) ∧
      ∀ pos < 4, ∃ part ∈ (s.receive value).parts 0, part.seq = 1 ∧
        part.offset.toNat ≤ pos ∧ pos < part.offset.toNat + part.size.toNat := by
  intro values value s
  have hrecv : (bleTransRecv s.recvCache value).1 = some ([6, 7, 8, 9], some 0) := by decide +kernel
  exact ⟨hrecv, completed_without_holes values value (by decide +kernel) ⟨1, 2, 0, 4⟩ _ 0
    (by decide +kernel) hrecv⟩

/-! ## Bounds -/

/-- What the checks before a copy are. -/
theorem BleLog.checks_of_copied (h : s.copied value = some (i, header)) :
    header.size = .ofNat value.length - bleTransHeaderLen ∧
      header.size + header.offset ≤ header.total ∧ header.total ≤ maxDataLen := by
  unfold BleLog.copied at h
  split at h
  · exact absurd h nofun
  · next header' hheader =>
    have heq : header' = header := by
      split at h
      · exact absurd h nofun
      · split at h
        · exact absurd h nofun
        · split at h
          · exact (Prod.mk.inj (Option.some.inj h)).2
          · exact absurd h nofun
    subst heq
    unfold getTransHeader at hheader
    dsimp only at hheader
    split at hheader
    · exact absurd hheader nofun
    · next hcheck =>
      rw [← Option.some.inj hheader]
      simpa [not_or, UInt32.not_lt] using hcheck

/-- A fragment that is copied into a cache lies inside its message and so inside the cache,
    and its size is that of the data received, exactly if its offset and its size can be added
    without overflow. -/
theorem copied_in_bounds_iff (hlen : value.length < 2 ^ 32) (h : s.copied value = some (i, header)) :
    (header.offset.toNat + header.size.toNat ≤ header.total.toNat ∧ header.total.toNat ≤ 4096 ∧
        bleTransHeaderLen.toNat + header.size.toNat = value.length) ↔
      header.offset.toNat + header.size.toNat < 2 ^ 32 := by
  obtain ⟨hsize, hsum, htotal⟩ := BleLog.checks_of_copied h
  rw [UInt32.le_iff_toNat_le, UInt32.toNat_add] at hsum
  rw [UInt32.le_iff_toNat_le, show maxDataLen.toNat = 4096 from rfl] at htotal
  have hsize' := congrArg UInt32.toNat hsize
  rw [UInt32.toNat_sub, UInt32.toNat_ofNat_of_lt' hlen] at hsize'
  rw [show bleTransHeaderLen.toNat = 16 from rfl] at hsize' ⊢
  constructor
  · omega
  · intro hadd
    -- a packet without a whole head would have a size that is too large
    omega

/-- A fragment of 2 bytes for the place before the cache is copied: its offset and size add
    up to 1. -/
theorem copied_before_cache :
    let value := packBleTransHeader ⟨1, 2, 0xFFFFFFFF, 3⟩ ++ [8, 9]
    BleLog.new.copied value = some (0, ⟨1, 2, 0xFFFFFFFF, 3⟩) := by
  decide +kernel

/-- A fragment that fills the last two bytes of a message of four. -/
theorem copied_at_end :
    let value := packBleTransHeader ⟨1, 2, 2, 4⟩ ++ [8, 9]
    BleLog.new.copied value = some (0, ⟨1, 2, 2, 4⟩) ∧ bleTransHeaderLen.toNat + 2 = value.length := by
  have h : BleLog.new.copied (packBleTransHeader ⟨1, 2, 2, 4⟩ ++ [8, 9]) = some (0, ⟨1, 2, 2, 4⟩) := by
    decide +kernel
  exact ⟨h, ((copied_in_bounds_iff (by decide) h).2 (by decide)).2.2⟩

end SoftBus.Native
