import Mathlib

/-!
# Positional writes

A file is the list of its bytes.  `pwrite` puts data at an offset; a gap between
the end of the file and the offset is filled with `fill`, and writing nothing
changes nothing.
-/

namespace PosFile
open List
variable {α : Type*} {fill : α} {file : List α}

/-- The file after `data` is written at `off`. -/
def pwrite (fill : α) (file : List α) (off : ℕ) (data : List α) : List α :=
  if data.isEmpty then file
  else
    file.take off ++ List.replicate (off - file.length) fill ++ data
      ++ file.drop (off + data.length)

@[simp] theorem pwrite_nil (off : ℕ) : pwrite fill file off [] = file := rfl

theorem length_pwrite (off : ℕ) {data : List α} (h : data ≠ []) :
    (pwrite fill file off data).length = max file.length (off + data.length) := by
  rw [pwrite, if_neg (by simpa using h)]
  simp only [length_append, length_take, length_replicate, length_drop]
  omega

/-- Inside the written range the file holds the data. -/
theorem getElem?_pwrite_inside {off i : ℕ} {data : List α} (hlo : off ≤ i) (hhi : i < off + data.length) :
    (pwrite fill file off data)[i]? = data[i - off]? := by
  have h : data ≠ [] := by
    intro hd
    simp only [hd, length_nil] at hhi
    omega
  have hlen : (file.take off ++ replicate (off - file.length) fill).length = off := by
    simp only [length_append, length_take, length_replicate]
    omega
  rw [pwrite, if_neg (by simpa using h), getElem?_append_left, getElem?_append_right, hlen]
  · omega
  · rw [length_append]
    omega

/-- Outside the written range the file keeps its bytes. -/
theorem getElem?_pwrite_outside {file : List α} {off i : ℕ} {data : List α}
    (hi : i < file.length) (hout : i < off ∨ off + data.length ≤ i) :
    (pwrite fill file off data)[i]? = file[i]? := by
  by_cases h : data = []
  · rw [h, pwrite_nil]
  rw [pwrite, if_neg (by simpa using h)]
  rcases hout with hlt | hge
  · rw [append_assoc, append_assoc, getElem?_append_left, getElem?_take_of_lt hlt]
    simp only [length_take]
    omega
  · have hlen : (file.take off ++ replicate (off - file.length) fill ++ data).length =
        off + data.length := by
      simp only [length_append, length_take, length_replicate]
      omega
    rw [getElem?_append_right (by omega), getElem?_drop]
    congr 1
    omega

/-- Two writes behind one another are one. -/
theorem pwrite_pwrite (fill : α) (file : List α) (off : ℕ) (a b : List α) :
    pwrite fill (pwrite fill file off a) (off + a.length) b = pwrite fill file off (a ++ b) := by
  by_cases ha : a = []
  · simp [ha]
  by_cases hb : b = []
  · simp [hb]
  have hlen : (file.take off ++ replicate (off - file.length) fill ++ a).length = off + a.length := by
    simp only [length_append, length_take, length_replicate]
    omega
  have hfull : off + a.length - (pwrite fill file off a).length = 0 := by
    rw [length_pwrite off ha]
    omega
  have hfile : pwrite fill file off a = file.take off ++ replicate (off - file.length) fill ++ a
      ++ file.drop (off + a.length) := by
    rw [pwrite, if_neg (by simpa using ha)]
  rw [pwrite, if_neg (by simpa using hb), hfull, hfile, take_left' hlen, ← drop_drop,
    drop_left' hlen, pwrite, if_neg (by simp [ha])]
  simp [Nat.add_assoc]

end PosFile
