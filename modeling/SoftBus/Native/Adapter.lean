import SoftBus.ForStd.Bytes

/-!
# Memory and byte order

Model of the allocations of `softbus_adapter_mem.c` and of the conversions of
`softbus_adapter_socket.c`.  The numbers in the heads of packets are sent with their low byte
first; a host with the other order reverses the bytes of each field, in the buffer itself.
-/

namespace SoftBus.Native

/-- Allocations above this size fail. -/
def maxMallocSize : ℕ := 512 * 1024 * 1024

def softBusMalloc (size : UInt32) : Bool := size.toNat ≤ maxMallocSize

/-- `memset_s` fails for a size of 0. -/
def softBusCalloc (size : UInt32) : Bool := size.toNat ≤ maxMallocSize ∧ size ≠ 0

def procByteOrder (littleEndian : Bool) (value : List UInt8) : List UInt8 :=
  if littleEndian then value else value.reverse

/-- The fields of a head, of the given sizes, one after the other. -/
def procFields (littleEndian : Bool) : List ℕ → List UInt8 → List UInt8
  | [], bytes => bytes
  | size :: sizes, bytes =>
    procByteOrder littleEndian (bytes.take size) ++ procFields littleEndian sizes (bytes.drop size)

/-- The word that the host reads at `off`. -/
def hostWordAt (littleEndian : Bool) (bytes : List UInt8) (off : ℕ) : UInt32 :=
  let word := (bytes.drop off).take 4
  .ofNat (if littleEndian then Bytes.ofLE word else Bytes.ofBE word)

@[simp] theorem procFields_true (sizes : List ℕ) (bytes : List UInt8) :
    procFields true sizes bytes = bytes := by
  induction sizes generalizing bytes with
  | nil => rfl
  | cons size sizes ih => rw [procFields, ih, procByteOrder, if_pos rfl, List.take_append_drop]

@[simp] theorem length_procFields (littleEndian : Bool) (sizes : List ℕ) (bytes : List UInt8) :
    (procFields littleEndian sizes bytes).length = bytes.length := by
  induction sizes generalizing bytes with
  | nil => rfl
  | cons size sizes ih =>
    rw [procFields, List.length_append, ih, procByteOrder]
    split
    · simp
      omega
    · simp
      omega

/-- A word is read from the bytes before it and its own. -/
theorem hostWordAt_eq_of_take {littleEndian : Bool} {a b : List UInt8} {off n : ℕ} (hn : off + 4 ≤ n)
    (h : a.take n = b.take n) : hostWordAt littleEndian a off = hostWordAt littleEndian b off := by
  have hword : ∀ bytes : List UInt8, (bytes.drop off).take 4 = ((bytes.take n).drop off).take 4 := by
    intro bytes
    rw [List.drop_take, List.take_take, Nat.min_eq_left (by omega)]
  unfold hostWordAt
  rw [hword a, hword b, h]

end SoftBus.Native
