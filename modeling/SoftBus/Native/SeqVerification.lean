import Mathlib

/-!
# Sequence verification

Model of `softbus_sequence_verification.c`: the sliding window that a receiver
keeps over the 32-bit sequence numbers of a session.  Sequence numbers are
`Int32`, whose arithmetic wraps modulo 2^32 as the code assumes ("consider
flip"), and the bitmap is a `UInt64`.

The C code returns a `bool` and updates the window in place.  A `SeqCheck`
carries both, together with the amounts of the bitmap shifts that the call
executed, in order.  A shift by 64 or more is undefined in C; the model takes
the amount modulo 64, as the machine instructions do.
-/

namespace SoftBus.Native

/-- `MAX_SEQ_BIAS` -/
def maxSeqBias : Int32 := 60

/-- Bit `i` of `recvBitmap` stands for the packet `maxSeq - i`. -/
structure SeqVerifyInfo where
  maxSeq : Int32
  minSeq : Int32
  recvBitmap : UInt64
deriving Repr, DecidableEq

/-- What one check of the window returns, leaves behind and shifts. -/
structure SeqCheck where
  pass : Bool
  info : SeqVerifyInfo
  shifts : List UInt32
deriving Repr, DecidableEq

namespace SeqVerifyInfo

/-- The window of a session that has received nothing and expects `s` first. -/
def fresh (s : Int32) : SeqVerifyInfo := { maxSeq := s, minSeq := s, recvBitmap := 0 }

/-- `return false` without touching the window. -/
def reject (info : SeqVerifyInfo) : SeqCheck := ⟨false, info, []⟩

end SeqVerifyInfo

def isDifferentSign (seqA seqB : Int32) : Bool :=
  if (seqA ≥ 0 ∧ seqB ≥ 0) ∨ (seqA < 0 ∧ seqB < 0) then false else true

section
variable (info : SeqVerifyInfo)

def isPassDuplicateCheck (recvSeq : Int32) : SeqCheck :=
  let offset : UInt32 := (info.maxSeq - recvSeq).toUInt32
  let mask : UInt64 := 1 <<< offset.toUInt64
  -- `int32_t isRepeat` keeps the low half of the 64-bit conjunction only
  let isRepeat : Int32 := (info.recvBitmap &&& mask).toUInt32.toInt32
  if isRepeat ≠ 0 then
    ⟨false, info, [offset]⟩
  else
    ⟨true, { info with recvBitmap := info.recvBitmap ||| mask }, [offset, offset]⟩

def isPassOverMaxCheck (recvSeq : Int32) : SeqCheck :=
  if recvSeq - info.maxSeq < 0 then
    info.reject
  else if recvSeq - info.minSeq ≥ maxSeqBias then
    info.reject
  else
    let seqOffset : UInt32 := (recvSeq - info.maxSeq + 1).toUInt32
    let shifted := info.recvBitmap <<< seqOffset.toUInt64
    -- `maxSeq` is one past the packet, so the packet itself is the bit above the lowest
    ⟨true, { info with maxSeq := recvSeq + 1, recvBitmap := shifted ||| ((1 : UInt64) <<< 1) },
      [seqOffset, 1]⟩

def isPassAllRangeCheck (recvSeq : Int32) : SeqCheck :=
  if recvSeq = info.minSeq then
    ⟨true, { info with minSeq := recvSeq + 1 }, []⟩
  else if recvSeq > info.minSeq then
    if recvSeq < info.maxSeq then
      isPassDuplicateCheck info recvSeq
    else
      isPassOverMaxCheck info recvSeq
  else
    info.reject

/-- The window is empty: `minSeq = maxSeq`. -/
def isPassNormalCheck (recvSeq : Int32) : SeqCheck :=
  if recvSeq = info.minSeq then
    ⟨true, { info with minSeq := recvSeq + 1, maxSeq := recvSeq + 1 }, []⟩
  else if !isDifferentSign recvSeq info.minSeq then
    if recvSeq > info.maxSeq then
      isPassOverMaxCheck info recvSeq
    else
      info.reject
  else
    isPassOverMaxCheck info recvSeq

/-- `minSeq < maxSeq` and both have the same sign. -/
def isPassNoflipDisorderCheck (recvSeq : Int32) : SeqCheck :=
  if info.minSeq ≥ 0 then
    if recvSeq ≥ 0 then
      isPassAllRangeCheck info recvSeq
    else
      isPassOverMaxCheck info recvSeq
  else if info.maxSeq < 0 then
    if recvSeq < 0 then
      isPassAllRangeCheck info recvSeq
    else
      isPassOverMaxCheck info recvSeq
  else
    info.reject

/-- `minSeq < 0 ≤ maxSeq`: the window crosses zero. -/
def isPassFlipPositiveCheck (recvSeq : Int32) : SeqCheck :=
  if recvSeq ≥ 0 then
    if recvSeq < info.maxSeq then
      isPassDuplicateCheck info recvSeq
    else
      isPassOverMaxCheck info recvSeq
  else if recvSeq = info.minSeq then
    ⟨true, { info with minSeq := recvSeq + 1 }, []⟩
  else if recvSeq > info.minSeq then
    isPassDuplicateCheck info recvSeq
  else
    info.reject

/-- `maxSeq < 0 ≤ minSeq`: the window crosses the wrap of the counter. -/
def isPassFlipNegativeCheck (recvSeq : Int32) : SeqCheck :=
  if recvSeq ≥ 0 then
    if recvSeq = info.minSeq then
      ⟨true, { info with minSeq := recvSeq + 1 }, []⟩
    else if recvSeq > info.minSeq then
      isPassDuplicateCheck info recvSeq
    else
      info.reject
  else if recvSeq < info.maxSeq then
    isPassDuplicateCheck info recvSeq
  else
    isPassOverMaxCheck info recvSeq

/-- The check of one received packet against the window (the `NULL` window of the
    source has no counterpart here). -/
def isPassSeqCheck (recvSeq : Int32) : SeqCheck :=
  let differentSign := isDifferentSign info.minSeq info.maxSeq
  if info.minSeq = info.maxSeq then
    isPassNormalCheck info recvSeq
  else if info.minSeq < info.maxSeq ∧ !differentSign then
    isPassNoflipDisorderCheck info recvSeq
  else if info.minSeq > info.maxSeq ∧ differentSign then
    isPassFlipNegativeCheck info recvSeq
  else if info.minSeq < info.maxSeq ∧ differentSign then
    isPassFlipPositiveCheck info recvSeq
  else
    info.reject

/-- The window after one packet, accepted or not. -/
def seqStep (recvSeq : Int32) : SeqVerifyInfo :=
  (isPassSeqCheck info recvSeq).info

/-- The window after a sequence of packets. -/
def seqRun (recvs : List Int32) : SeqVerifyInfo :=
  recvs.foldl seqStep info

end

/-- The packets of the sequence that were accepted, in order. -/
def accepted (info : SeqVerifyInfo) : List Int32 → List Int32
  | [] => []
  | r :: recvs =>
    if (isPassSeqCheck info r).pass then r :: accepted (seqStep info r) recvs
    else accepted (seqStep info r) recvs

end SoftBus.Native
