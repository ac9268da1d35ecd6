import SoftBus.ForStd.PosFile

/-!
# Files written chunk by chunk

A file is sent in chunks of `n` bytes, the last of which may be shorter, and each chunk
is written to its own place.  `HasChunk n file copy k` says that the copy has chunk `k`
of the file; a copy that is not longer than the file and has all its chunks is the file.
-/

namespace Chunks
open List
variable {α : Type*} {n k j : ℕ} {file copy : List α}

/-- The number of chunks of `n` bytes. -/
def count (n : ℕ) (file : List α) : ℕ := (file.length + n - 1) / n

def chunk (n : ℕ) (file : List α) (k : ℕ) : List α := (file.drop (n * k)).take n

theorem lt_count (hn : 0 < n) : k < count n file ↔ n * k < file.length := by
  rw [count, Nat.lt_div_iff_mul_lt hn, Nat.mul_comm]
  omega

theorem length_le_count (hn : 0 < n) (file : List α) : file.length ≤ n * count n file :=
  Nat.not_lt.1 fun h => Nat.lt_irrefl _ ((lt_count hn).2 h)

theorem length_chunk : (chunk n file k).length = min n (file.length - n * k) := by
  simp [chunk]

/-- Every chunk has a byte. -/
theorem chunk_ne_nil (hn : 0 < n) (hk : k < count n file) : chunk n file k ≠ [] := by
  rw [lt_count hn] at hk
  rw [← length_pos_iff, length_chunk]
  omega

/-- Every chunk but the last is full. -/
theorem length_chunk_of_lt (hn : 0 < n) (hk : k + 1 < count n file) : (chunk n file k).length = n := by
  rw [lt_count hn, Nat.mul_add_one] at hk
  rw [length_chunk]
  omega

/-- A chunk ends where the next one starts, or with the file. -/
theorem chunk_end (hn : 0 < n) (hk : k < count n file) :
    n * k + (chunk n file k).length = min (n * (k + 1)) file.length := by
  rw [lt_count hn] at hk
  rw [length_chunk, Nat.mul_add_one]
  omega

/-- The first `k` chunks are the start of the file. -/
theorem flatten_chunks (n k : ℕ) (file : List α) :
    ((List.range k).map (chunk n file)).flatten = file.take (n * k) := by
  induction k with
  | zero => simp
  | succ k ih =>
    rw [range_succ, map_append, flatten_append, ih, Nat.mul_succ, take_add]
    simp [chunk]

/-- The lengths of all chunks add up to the file. -/
theorem sum_length_chunks (hn : 0 < n) :
    ((List.range (count n file)).map fun k => (chunk n file k).length).sum = file.length := by
  have hflat := congrArg length (flatten_chunks n (count n file) file)
  rw [take_of_length_le (length_le_count hn file), length_flatten, map_map] at hflat
  exact hflat

theorem getElem?_chunk {i : ℕ} (hi : i < n) : (chunk n file k)[i]? = file[n * k + i]? := by
  rw [chunk, getElem?_take_of_lt hi, getElem?_drop]

/-- The copy has chunk `k` of the file. -/
def HasChunk (n : ℕ) (file copy : List α) (k : ℕ) : Prop :=
  ∀ i, n * k ≤ i → i < n * (k + 1) → i < file.length → copy[i]? = file[i]?

/-- A chunk is there after it is written. -/
theorem hasChunk_pwrite_self (fill : α) : HasChunk n file
    (PosFile.pwrite fill copy (n * k) (chunk n file k)) k := by
  intro i hlo hhi hi
  rw [Nat.mul_add_one] at hhi
  rw [PosFile.getElem?_pwrite_inside hlo (by rw [length_chunk]; omega),
    getElem?_chunk (by omega)]
  congr 1
  omega

/-- A write elsewhere leaves a chunk alone. -/
theorem HasChunk.pwrite {fill : α} {off : ℕ} {data : List α} (h : HasChunk n file copy j)
    (hout : n * (j + 1) ≤ off ∨ off + data.length ≤ n * j) :
    HasChunk n file (PosFile.pwrite fill copy off data) j := by
  intro i hlo hhi hi
  have hcopy := h i hlo hhi hi
  have hlen : i < copy.length := by
    rw [getElem?_eq_getElem hi] at hcopy
    exact (List.getElem?_eq_some_iff.1 hcopy).1
  rw [PosFile.getElem?_pwrite_outside hlen (by omega), hcopy]

/-- Writing a chunk of the file keeps the chunks that are there. -/
theorem HasChunk.pwrite_chunk {fill : α} (h : HasChunk n file copy j) :
    HasChunk n file (PosFile.pwrite fill copy (n * k) (chunk n file k)) j := by
  rcases Nat.lt_trichotomy j k with hlt | rfl | hgt
  · refine h.pwrite (.inl ?_)
    exact Nat.mul_le_mul_left n hlt
  · exact hasChunk_pwrite_self fill
  · refine h.pwrite (.inr ?_)
    have hle : n * (k + 1) ≤ n * j := Nat.mul_le_mul_left n hgt
    rw [Nat.mul_add_one] at hle
    rw [length_chunk]
    omega

/-- Writing inside the file does not make the copy longer than it. -/
theorem length_pwrite_le {fill : α} {off : ℕ} {data : List α} (h : copy.length ≤ file.length)
    (hoff : off + data.length ≤ file.length) :
    (PosFile.pwrite fill copy off data).length ≤ file.length := by
  by_cases hd : data = []
  · rw [hd]
    exact h
  · rw [PosFile.length_pwrite off hd]
    omega

/-- A copy with all chunks is the file. -/
theorem eq_of_hasChunk (hn : 0 < n) (hlen : copy.length ≤ file.length)
    (h : ∀ k < count n file, HasChunk n file copy k) : copy = file := by
  apply ext_getElem?
  intro i
  by_cases hi : i < file.length
  · have hdiv := Nat.div_add_mod i n
    have hmod := Nat.mod_lt i hn
    have hk : i / n < count n file := (lt_count hn).2 (by omega)
    exact h (i / n) hk i (by omega) (by rw [Nat.mul_add_one]; omega) hi
  · rw [getElem?_eq_none (by omega), getElem?_eq_none (by omega)]

/-- A longer copy with all chunks starts with the file. -/
theorem take_eq_of_hasChunk (hn : 0 < n) (h : ∀ k < count n file, HasChunk n file copy k) :
    copy.take file.length = file := by
  apply eq_of_hasChunk hn (by rw [length_take]; omega)
  intro k hk i hlo hhi hi
  rw [getElem?_take_of_lt hi]
  exact h k hk i hlo hhi hi

end Chunks
