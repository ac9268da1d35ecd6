import Mathlib
import SoftBus.ForStd.Run
import SoftBus.Native.DFileRecv

/-!
# A DFile receiver reports complete files

## Main results

- `complete_of_fresh`: as long as no frame repeats a block of a file that is not complete, a file
  that is reported as received has all its blocks written.
- `writes_inside`: a frame with no more bytes than its block is written inside its file.
- `bytesTransferred_exact`: the progress of a file whose last block is not a full one.
-/

namespace SoftBus.Native.DFileTask
open List Run
variable {t : DFileTask} {f : DFileInfo} {io : DFileIo} {b : UInt32} {length : ℕ}

/-- Every block of the file has been written. -/
def Complete (f : DFileInfo) : Prop := ∀ b < f.totalBlockNum, b ∈ f.written

/-- The blocks written are counted, none twice. -/
structure Counted (f : DFileInfo) : Prop where
  nodup : f.written.Nodup
  lt : ∀ b ∈ f.written, b < f.totalBlockNum
  count : f.receivedBlockNum.toNat = f.written.length
  le : f.receivedBlockNum ≤ f.totalBlockNum
  empty : f.fileSize = 0 → f.totalBlockNum = 0
  success : true ∈ f.notices → Complete f

/-- A frame for a file that is not complete carries a block that has not been written. -/
def Fresh (t : DFileTask) : DFileEvent → Prop
  | .frame frame _ => ∀ f ∈ t.files[frame.fileId.toNat - 1]?,
      f.receivedBlockNum ≠ f.totalBlockNum → frame.blockSequence ∉ f.written
  | _ => True

instance : DecidableRel Fresh := fun t e => by cases e <;> unfold Fresh <;> infer_instance

/-- As many different blocks as there are make a complete file. -/
theorem Counted.complete (h : Counted f) (hle : f.totalBlockNum ≤ f.receivedBlockNum) : Complete f := by
  intro b hb
  have hnodup : (f.written.map UInt32.toNat).Nodup := h.nodup.map fun _ _ => UInt32.toNat_inj.1
  have hsub : f.written.map UInt32.toNat ⊆ range f.totalBlockNum.toNat := by
    intro n hn
    obtain ⟨c, hc, rfl⟩ := mem_map.1 hn
    exact mem_range.2 (h.lt c hc)
  have hperm := (subperm_of_subset hnodup hsub).perm_of_length_le (by
    rw [length_range, length_map, ← h.count]
    exact hle)
  obtain ⟨c, hc, heq⟩ := mem_map.1 (hperm.mem_iff.2 (mem_range.2 hb))
  exact UInt32.toNat_inj.1 heq ▸ hc

/-- Blocks and counters stay, and success is reported only of a complete file. -/
theorem Counted.mark {isOpen failed : Bool} {notices : List Bool} (h : Counted f)
    (hs : true ∈ notices → true ∈ f.notices ∨ Complete f) : Counted { f with isOpen, failed, notices } :=
  { h with success := fun hg => (hs hg).elim h.success id }

theorem Counted.writeToFile (h : Counted f) (hne : f.receivedBlockNum ≠ f.totalBlockNum)
    (hlt : b < f.totalBlockNum) (hfresh : b ∉ f.written) : Counted (f.writeToFile b length io).1 := by
  unfold DFileInfo.writeToFile
  split
  · exact h.mark .inl
  simp only
  split
  · exact h.mark .inl
  split
  · exact h.mark .inl
  · have hle := UInt32.le_iff_toNat_le.1 h.le
    have hne' : f.receivedBlockNum.toNat ≠ f.totalBlockNum.toNat := fun heq => hne (UInt32.toNat_inj.1 heq)
    have hsucc : (f.receivedBlockNum + 1).toNat = f.receivedBlockNum.toNat + 1 := by
      rw [UInt32.toNat_add]
      exact Nat.mod_eq_of_lt (by have := f.totalBlockNum.toNat_lt; grind)
    refine ⟨?_, ?_, ?_, UInt32.le_iff_toNat_le.2 (by grind), h.empty,
      fun hs c hc => mem_append_left _ (h.success hs c hc)⟩
    · simpa using h.nodup.concat hfresh
    · simpa [or_imp, forall_and] using ⟨h.lt, hlt⟩
    · simpa [hsucc] using h.count

theorem Counted.update {r : DFileInfo × Bool} (h : Counted r.1) : Counted (.update r) := by
  unfold DFileInfo.update
  split
  · exact h.mark fun hs => .inl (by simpa [DFileInfo.finish] using hs)
  split
  · exact h
  · next hle => exact h.mark fun _ => .inr (h.complete (by simpa using hle))

/-- What a step keeps of every file, where `Q` is told whether the empty files have been created. -/
theorem forall_step {Q : Bool → DFileInfo → Prop} {e : DFileEvent}
    (h : ∀ f ∈ t.files, Q t.isRecvEmptyFilesCreated f) (hempty : ∀ io f, Q false f → Q true (generateEmptyFile io f))
    (hframe : ∀ frame io, e = .frame frame io → ∀ f ∈ t.files[frame.fileId.toNat - 1]?, ∀ {c}, Q c f →
      f.failed = false → f.receivedBlockNum ≠ f.totalBlockNum → frame.blockSequence < f.totalBlockNum →
      Q c (.update ({ f with failed := true }, false)) ∧
        ∀ length, Q c (.update (f.writeToFile frame.blockSequence length io)))
    (hstop : ∀ c f, Q c f → Q c (refreshFile f)) :
    ∀ f ∈ (t.step e).files, Q (t.step e).isRecvEmptyFilesCreated f := by
  cases e with
  | emptyFiles io =>
    simp only [DFileTask.step]
    split
    · exact h
    · next hc =>
      simp only [forall_mem_map]
      intro f hmem
      exact hempty io f (by simpa [show t.isRecvEmptyFilesCreated = false by simp_all] using h f hmem)
  | frame frame io =>
    -- a file put in the place of another
    have hset : ∀ i g, Q t.isRecvEmptyFilesCreated g → ∀ f ∈ t.files.set i g, Q t.isRecvEmptyFilesCreated f :=
      fun i g hg f hmem => (mem_or_eq_of_mem_set hmem).elim (h f) fun heq => heq ▸ hg
    simp only [DFileTask.step]
    split
    · exact h
    unfold writeSingleBlockFrame
    split
    · exact h
    simp only
    split
    · exact h
    next f hget =>
    have hkeeps := hframe frame io rfl f hget (h f (mem_of_getElem? hget))
    split
    · exact h
    next hne =>
    split
    · exact h
    next hok =>
    split
    · exact h
    next hfailed =>
    have hkeeps := hkeeps (by simpa using hfailed) hne (by grind)
    split
    · exact hset _ _ hkeeps.1
    · exact hset _ _ (hkeeps.2 _)
  | stop =>
    simp only [DFileTask.step, forall_mem_map]
    exact fun f hmem => hstop _ f (h f hmem)

theorem Counted.step {e : DFileEvent} (h : ∀ f ∈ t.files, Counted f) (hf : t.Fresh e) :
    ∀ f ∈ (t.step e).files, Counted f := by
  refine forall_step (Q := fun _ => Counted) h ?_ ?_ ?_
  · intro io f hf
    unfold generateEmptyFile
    split
    · exact hf
    · next hz =>
      have hcomplete : Complete f := by simp [Complete, hf.empty (by simpa using hz)]
      unfold DFileInfo.writeToFile
      split
      · exact hf.mark fun _ => .inr hcomplete
      · simp only [or_true, if_true]
        exact hf.mark fun _ => .inr hcomplete
  · rintro frame io rfl f hget - hmem - hne hlt
    exact ⟨(hmem.mark .inl).update, fun length => (hmem.writeToFile hne hlt (hf f hget hne)).update⟩
  · intro _ f hf
    unfold refreshFile
    split
    · exact hf
    · exact hf.mark fun hs => .inl (by simpa using hs)

/-- While frames are fresh, a file is reported as received only when all its blocks are written. -/
theorem complete_of_fresh {transId blockSize : UInt16} {encrypted : Bool} {sizes : List UInt64}
    {es : List DFileEvent} (h : AllSteps step Fresh (start transId blockSize encrypted sizes) es) :
    ∀ f ∈ (es.foldl step (start transId blockSize encrypted sizes)).files,
      true ∈ f.notices → Complete f := by
  have hstart : ∀ f ∈ (start transId blockSize encrypted sizes).files, Counted f := by
    simp only [start, forall_mem_map]
    intro size _
    refine ⟨.nil, by simp [DFileInfo.start], rfl, by simp [DFileInfo.start], ?_, by simp [DFileInfo.start]⟩
    rintro rfl
    simp [DFileInfo.start]
  intro f hmem
  exact ((h.foldl_inv (P := fun t => ∀ f ∈ t.files, Counted f) (fun _ _ => Counted.step) hstart) f hmem).success

/-- A system that does everything it is asked. -/
def calmIo : DFileIo := ⟨true, true, 10, 0⟩

/-- The two blocks of a file in the wrong order. -/
theorem complete_two : Complete ⟨20, 2, 2, false, false, [1, 0], [true]⟩ :=
  complete_of_fresh (by decide +kernel : AllSteps step Fresh (start 1 10 false [20])
    [.frame ⟨1, 1, 1, 16⟩ calmIo, .frame ⟨1, 1, 0, 16⟩ calmIo]) _ (by decide +kernel) (by decide)

/-- The first block twice: the file is reported as received without its second block. -/
theorem not_complete : ([.frame ⟨1, 1, 0, 16⟩ calmIo, .frame ⟨1, 1, 0, 16⟩ calmIo].foldl step
    (start 1 10 false [20])).files = [⟨20, 2, 2, false, false, [0, 0], [true]⟩] := by
  decide +kernel

/-! ## Writes -/

section Writes
variable (transId : UInt16) {size : UInt16} {encrypted : Bool} (sizes : List UInt64) (es : List DFileEvent)
  {frame : DFileDataFrame}

/-- The bytes that a block of a file has. -/
def blockLen (size : UInt16) (f : DFileInfo) (b : UInt32) : ℕ :=
  min size.toNat (f.fileSize.toNat - size.toNat * b.toNat)

/-- A file has as many blocks as `AddRecvFileInfo` counts for its size. -/
def Sized (size : UInt16) (f : DFileInfo) : Prop :=
  f.totalBlockNum = (DFileInfo.start size f.fileSize).totalBlockNum

/-- A block starts inside its file. -/
theorem Sized.mul_le (h : Sized size f) (hlt : b < f.totalBlockNum) : size.toNat * b.toNat ≤ f.fileSize.toNat := by
  have hlt := UInt32.lt_iff_toNat_lt.1 hlt
  -- the count of blocks may wrap, but only to a smaller one
  have hblocks : f.totalBlockNum.toNat ≤ f.fileSize.toNat / size.toNat + 1 := by
    rw [h]
    unfold DFileInfo.start
    dsimp only
    split
    · simpa using Nat.mod_le _ _
    · simpa using (Nat.mod_le _ _).trans (Nat.le_succ _)
  have hmul := Nat.mul_le_mul_left size.toNat (show b.toNat ≤ f.fileSize.toNat / size.toNat by omega)
  exact hmul.trans (Nat.mul_div_le _ _)

theorem sized_foldl : ∀ f ∈ (es.foldl step (start transId size encrypted sizes)).files, Sized size f := by
  refine es.foldlRecOn (motive := fun t => ∀ f ∈ t.files, Sized size f) step ?_ fun t h e _ => ?_
  · simp [start, Sized, DFileInfo.start]
  refine forall_step (Q := fun _ => Sized size) h ?_ ?_ ?_
  · grind [Sized, generateEmptyFile, DFileInfo.writeToFile, DFileInfo.finish]
  · grind [Sized, DFileInfo.update, DFileInfo.writeToFile, DFileInfo.finish]
  · grind [Sized, refreshFile]

/-- A frame that changes a file is for a block of the file. -/
theorem lt_of_step_ne (hget : t.files[frame.fileId.toNat - 1]? = some f)
    (hne : (t.step (.frame frame io)).files ≠ t.files) : frame.blockSequence < f.totalBlockNum := by
  simp only [DFileTask.step, writeSingleBlockFrame] at hne
  grind

end Writes

/-! ## Progress -/

section Progress
variable {size : UInt16} {fileSize : UInt64} {n : UInt32}

/-- A file of which `n` blocks have been received. -/
def received (size : UInt16) (fileSize : UInt64) (n : UInt32) : DFileInfo :=
  { DFileInfo.start size fileSize with receivedBlockNum := n }

/-- The last block is not a full one, and the blocks can be counted. -/
def EndsShort (size : UInt16) (fileSize : UInt64) : Prop :=
  0 < size.toNat ∧ fileSize.toNat % size.toNat ≠ 0 ∧ fileSize.toNat / size.toNat + 1 < 2 ^ 32

theorem EndsShort.toNat_totalBlockNum (h : EndsShort size fileSize) :
    (DFileInfo.start size fileSize).totalBlockNum.toNat = fileSize.toNat / size.toNat + 1 := by
  have hne : fileSize % size.toUInt64 ≠ 0 := fun hz => h.2.1 (by simpa using congrArg UInt64.toNat hz)
  have hfits := h.2.2
  simp [DFileInfo.start, hne]
  omega

/-- Each block counts in full, up to the size of the file. -/
theorem EndsShort.toNat_bytes (h : EndsShort size fileSize) :
    ((received size fileSize n).fileGetBytesTransferred size).toNat = min (size.toNat * n.toNat) fileSize.toNat := by
  have hne : (received size fileSize n).fileSize ≠ 0 := fun hz => h.2.1 (by simp [show fileSize = 0 from hz])
  have hmin : ∀ ret : UInt64, (if fileSize < ret then fileSize else ret).toNat = min ret.toNat fileSize.toNat := by
    grind [UInt64.lt_iff_toNat_lt]
  unfold DFileInfo.fileGetBytesTransferred
  rw [if_neg hne]
  refine (hmin _).trans ?_
  split
  · have hmul : size.toNat * n.toNat < 2 ^ 16 * 2 ^ 32 := Nat.mul_lt_mul'' size.toNat_lt n.toNat_lt
    have hret : (size.toUInt64 * n.toUInt64).toNat = size.toNat * n.toNat := by simp; omega
    exact congrArg (min · _) hret
  · next hend =>
    -- the last block counts what it holds, and the sum is the size
    have hn : n.toNat = fileSize.toNat / size.toNat + 1 :=
      (congrArg UInt32.toNat (not_not.1 hend).2).trans h.toNat_totalBlockNum
    have hone : (n.toUInt64 - 1).toNat = fileSize.toNat / size.toNat := by
      rw [UInt64.toNat_sub_of_le _ _ (UInt64.le_iff_toNat_le.2 (by simp [hn]))]
      simp [hn]
    have hret : (size.toUInt64 * (n.toUInt64 - 1) + fileSize % size.toUInt64).toNat = fileSize.toNat := by
      simp [UInt64.toNat_add, UInt64.toNat_mul, hone, Nat.div_add_mod]
    have hle := (Nat.lt_mul_div_succ fileSize.toNat h.1).le
    exact (congrArg (min · _) hret).trans (by rw [min_self, hn, min_eq_right hle])

end Progress
end SoftBus.Native.DFileTask
