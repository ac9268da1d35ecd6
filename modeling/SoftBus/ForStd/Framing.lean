import Mathlib

/-!
# Frames in a byte stream

A stream is the concatenation of its frames.  A reader has taken some of the frames out;
of the others it has a part in its buffer, and the rest of the stream is still to come.
`Splits buf pending rest` says so for the frames `rest` that have not been taken out.
-/

namespace Framing
open List
variable {α : Type*} {buf pending frame : List α} {rest : List (List α)}

/-- The buffer and what is still to come are the frames `rest`. -/
def Splits (buf pending : List α) (rest : List (List α)) : Prop := buf ++ pending = rest.flatten

namespace Splits

/-- The next part of the stream comes into the buffer. -/
theorem read (h : Splits buf pending rest) (n : ℕ) :
    Splits (buf ++ pending.take n) (pending.drop n) rest := by
  unfold Splits
  rw [append_assoc, take_append_drop]
  exact h

theorem nil (h : Splits buf pending []) : buf = [] ∧ pending = [] := List.append_eq_nil_iff.1 h

/-- The buffer begins like the next frame. -/
theorem take_eq (h : Splits buf pending (frame :: rest)) {n : ℕ} (hbuf : n ≤ buf.length)
    (hframe : n ≤ frame.length) : buf.take n = frame.take n := by
  have heq := congrArg (take n) h
  rwa [take_append_of_le_length hbuf, flatten_cons, take_append_of_le_length hframe] at heq

/-- A frame that is in the buffer as a whole is taken out. -/
theorem next (h : Splits buf pending (frame :: rest)) (hle : frame.length ≤ buf.length) :
    buf.take frame.length = frame ∧ Splits (buf.drop frame.length) pending rest := by
  constructor
  · rw [h.take_eq hle (Nat.le_refl _), take_length]
  · have heq := congrArg (drop frame.length) h
    rwa [drop_append_of_le_length hle, flatten_cons, drop_left] at heq

/-- When nothing is still to come, the buffer has the next frame as a whole. -/
theorem length_le (h : Splits buf [] (frame :: rest)) : frame.length ≤ buf.length := by
  rw [Splits, append_nil] at h
  rw [h, flatten_cons, length_append]
  exact Nat.le_add_right _ _

end Splits
end Framing
