import SoftBus.ForStd.Framing
import SoftBus.Native.BrTrans

/-!
# The frames that come out of a BR stream

On a host with the low byte first, the calls of `BrTransReadOneFrame` give the frames of a
stream back, however the transport splits it.  On the other hosts the head of a frame is
reversed in the buffer each time it is looked at: a frame that does not come at once is
looked at twice, its magic number is wrong then, and the buffer is emptied.
-/

namespace SoftBus.Native
open Framing List
variable {enough : Prop} {bound fuel : ℕ} {stream : SppStream}

/-- A frame that fits into a buffer of `recvSize` bytes. -/
structure BrFrame (recvSize : Int32) (frame : List UInt8) : Prop where
  magic : hostWordAt true frame 0 = magicNumber
  len : (hostWordAt true frame 20).toNat + connPktHeadLen = frame.length
  fits : (frame.length : ℤ) ≤ recvSize.toInt

/-- A read that gives data. -/
def BrReadStep.IsData : BrReadStep → Prop
  | .data len => 0 < len
  | .failed => False

/-- What the calls give: the frames in their order, byte for byte.  Nothing is lost, and what is
    left in the buffer is less than a frame; if there are `enough` reads for the stream, all
    frames are there and the buffer is empty. -/
structure Deframed (enough : Prop) (frames : List (List UInt8)) (calls : ℕ)
    (r : List (List UInt8) × BrRecv × SppStream) : Prop where
  initial : r.1 <+: frames
  lossless : r.1.flatten ++ r.2.1.recvBuf ++ r.2.2.bytes = frames.flatten
  incomplete : r.1.length < calls → ∀ frame ∈ frames[r.1.length]?, r.2.1.recvBuf.length < frame.length
  complete : r.1.length < calls → enough → r.1 = frames ∧ r.2.1.recvBuf = []

/-- A frame without data. -/
def emptyBrFrame : List UInt8 := Bytes.toLE 4 magicNumber.toNat ++ List.replicate 20 0

/-! ## One frame -/

section LittleEndian
variable {recvSize : Int32} {buf pending frame : List UInt8} {rest : List (List UInt8)}

section
variable (hframe : BrFrame recvSize frame)
include hframe

/-- The length of a frame is not cut by its type. -/
theorem BrFrame.packLen_toInt : ((hostWordAt true frame 20).toInt32 + 24).toInt = frame.length := by
  have hlen := hframe.len
  have hfits := hframe.fits
  have hmax := Int32.toInt_lt recvSize
  have hword : (hostWordAt true frame 20).toInt32.toInt = (hostWordAt true frame 20).toNat := by
    apply BitVec.toInt_eq_toNat_of_lt
    change 2 * (hostWordAt true frame 20).toNat < 2 ^ 32
    omega
  unfold connPktHeadLen at hlen
  rw [Int32.toInt_add, show (24 : Int32).toInt = 24 from rfl]
  rw [Int.bmod_eq_of_le (by omega) (by omega)]
  omega

section
variable (h : Splits buf pending (frame :: rest))
include h

/-- The head of a frame is good when it is in the buffer. -/
theorem receivedHeadCheck_of_splits (hhead : connPktHeadLen ≤ buf.length) :
    BrRecv.receivedHeadCheck ⟨true, recvSize, buf⟩ = (true, ⟨true, recvSize, buf⟩) ∧
      (BrRecv.packLen ⟨true, recvSize, buf⟩).toInt = frame.length := by
  have htake : buf.take connPktHeadLen = frame.take connPktHeadLen := by
    apply h.take_eq hhead
    rw [← hframe.len]
    exact Nat.le_add_left _ _
  have hmagic : BrRecv.magic ⟨true, recvSize, buf⟩ = magicNumber := by
    rw [BrRecv.magic, hostWordAt_eq_of_take (by decide) htake]
    exact hframe.magic
  have hpack : (BrRecv.packLen ⟨true, recvSize, buf⟩).toInt = frame.length := by
    rw [BrRecv.packLen, hostWordAt_eq_of_take (by decide) htake]
    exact hframe.packLen_toInt
  refine ⟨?_, hpack⟩
  unfold BrRecv.receivedHeadCheck BrRecv.unpackConnPktHead
  rw [procFields_true]
  have hsize : ¬ (BrRecv.packLen ⟨true, recvSize, buf⟩ > recvSize) := by
    rw [gt_iff_lt, Int32.lt_iff_toInt_lt, hpack]
    exact Int.not_lt.2 hframe.fits
  simp only [Nat.not_lt.2 hhead, hmagic, ne_eq, not_true_eq_false, if_false, hsize]

theorem brRecvDataParse_whole (hle : frame.length ≤ buf.length) :
    BrRecv.brRecvDataParse ⟨true, recvSize, buf⟩ =
      (some frame, ⟨true, recvSize, buf.drop frame.length⟩) := by
  have hlen := hframe.len
  have hhead : connPktHeadLen ≤ buf.length := by omega
  obtain ⟨hcheck, hpack⟩ := receivedHeadCheck_of_splits hframe h hhead
  have hpos : ¬ (BrRecv.packLen ⟨true, recvSize, buf⟩ ≤ 0) := by
    rw [Int32.le_iff_toInt_le, show (0 : Int32).toInt = 0 from rfl]
    unfold connPktHeadLen at hlen
    omega
  unfold BrRecv.brRecvDataParse
  simp only [hcheck, Bool.not_true, Bool.false_eq_true, if_false, hpack, hpos, or_false, Int.toNat_natCast]
  rw [if_neg (by omega), (h.next hle).1]

theorem brRecvDataParse_part (hlt : buf.length < frame.length) :
    BrRecv.brRecvDataParse ⟨true, recvSize, buf⟩ = (none, ⟨true, recvSize, buf⟩) := by
  by_cases hhead : connPktHeadLen ≤ buf.length
  · obtain ⟨hcheck, hpack⟩ := receivedHeadCheck_of_splits hframe h hhead
    unfold BrRecv.brRecvDataParse
    simp only [hcheck, hpack]
    rw [if_neg (by simp), if_pos (.inl (by omega))]
  · have hcheck : BrRecv.receivedHeadCheck ⟨true, recvSize, buf⟩ = (false, ⟨true, recvSize, buf⟩) :=
      if_pos (Nat.not_le.1 hhead)
    unfold BrRecv.brRecvDataParse
    rw [hcheck]
    rfl

end
end

/-- An empty buffer has no frame. -/
theorem brRecvDataParse_nil :
    BrRecv.brRecvDataParse ⟨true, recvSize, []⟩ = (none, ⟨true, recvSize, []⟩) := rfl

/-! ## One call -/

/-- The reads of a stream are less than `fuel` and give data, and if they are `enough` they give
    all of it. -/
structure SppStream.Gives (enough : Prop) (fuel : ℕ) (stream : SppStream) : Prop where
  lt : stream.reads.length < fuel
  data : ∀ step ∈ stream.reads, step.IsData
  all : enough → stream.bytes.length ≤ stream.reads.length

/-- What a call gives when the frames `rest` have not been taken out: the next of them, or
    nothing, and then the buffer has less than a frame. -/
inductive ReadsOne (enough : Prop) (bound : ℕ) (recvSize : Int32) (rest : List (List UInt8)) :
    BrReadResult × BrRecv × SppStream → Prop where
  | frame (frame : List UInt8) (rest' : List (List UInt8)) (buf : List UInt8) (stream : SppStream)
      (hrest : rest = frame :: rest') (h : Splits buf stream.bytes rest') (hgives : stream.Gives enough bound) :
      ReadsOne enough bound recvSize rest (.frame frame, ⟨true, recvSize, buf⟩, stream)
  | none (result : BrReadResult) (buf : List UInt8) (stream : SppStream)
      (hresult : ∀ data, result ≠ .frame data) (h : Splits buf stream.bytes rest)
      (hlt : ∀ frame ∈ rest.head?, buf.length < frame.length) (hall : enough → stream.bytes = []) :
      ReadsOne enough bound recvSize rest (result, ⟨true, recvSize, buf⟩, stream)

/-- Without frames there is nothing to read. -/
theorem readsOne_nil (reads : List BrReadStep) :
    ReadsOne enough bound recvSize [] (brTransReadOneFrame fuel ⟨true, recvSize, []⟩ ⟨[], reads⟩) := by
  induction fuel generalizing reads with
  | zero => exact .none _ [] _ nofun rfl nofun fun _ => rfl
  | succ fuel ih =>
    rw [brTransReadOneFrame, brRecvDataParse_nil]
    dsimp only
    by_cases hspace : 0 < BrRecv.space ⟨true, recvSize, []⟩
    · -- the stream is at its end
      rw [if_pos hspace]
      cases reads with
      | nil => exact .none _ [] _ nofun rfl nofun fun _ => rfl
      | cons step reads =>
        cases step with
        | data len =>
          simp only [SppStream.read, take_nil, drop_nil, and_true, hspace, if_true]
          exact .none _ [] _ nofun rfl nofun fun _ => rfl
        | failed =>
          simp only [SppStream.read, and_true, hspace, if_true]
          exact .none _ [] _ nofun rfl nofun fun _ => rfl
    · simp only [hspace, false_and, if_false, append_nil, brRecvDataParse_nil]
      exact ih reads

theorem readsOne (hrest : ∀ frame ∈ rest, BrFrame recvSize frame) (hfuel : stream.reads.length < fuel)
    (hgives : stream.Gives enough bound) (h : Splits buf stream.bytes rest) :
    ReadsOne enough bound recvSize rest (brTransReadOneFrame fuel ⟨true, recvSize, buf⟩ stream) := by
  cases rest with
  | nil =>
    obtain ⟨rfl, hbytes⟩ := h.nil
    obtain ⟨bytes, reads⟩ := stream
    cases hbytes
    exact readsOne_nil reads
  | cons frame rest =>
    have hframe := hrest frame mem_cons_self
    induction fuel generalizing buf stream with
    | zero => exact absurd hfuel (Nat.not_lt_zero _)
    | succ fuel ih =>
      rw [brTransReadOneFrame]
      by_cases hle : frame.length ≤ buf.length
      · rw [brRecvDataParse_whole hframe h hle]
        exact .frame frame rest _ stream rfl (h.next hle).2 hgives
      rw [brRecvDataParse_part hframe h (Nat.not_le.1 hle)]
      -- there is space for the rest of the frame
      have hspace : 0 < BrRecv.space ⟨true, recvSize, buf⟩ := by
        have hfits := hframe.fits
        unfold BrRecv.space
        dsimp only
        omega
      dsimp only
      rw [if_pos hspace]
      obtain ⟨bytes, reads⟩ := stream
      cases reads with
      | nil =>
        refine .none _ buf _ nofun h (fun frame' hframe' => ?_) fun henough => ?_
        · cases hframe'
          exact Nat.not_le.1 hle
        · exact eq_nil_of_length_eq_zero (Nat.le_zero.1 (hgives.all henough))
      | cons step reads =>
        obtain ⟨hstep, hdata⟩ := forall_mem_cons.1 hgives.data
        cases step with
        | failed => exact hstep.elim
        | data len =>
          simp only [SppStream.read]
          have hmin : 0 < min len (BrRecv.space ⟨true, recvSize, buf⟩) := Nat.lt_min.2 ⟨hstep, hspace⟩
          generalize min len (BrRecv.space ⟨true, recvSize, buf⟩) = size at hmin
          have hbytes : bytes ≠ [] := by
            intro hnil
            rw [hnil] at h
            exact hle h.length_le
          have hread := h.read size
          have hgives' : SppStream.Gives enough bound ⟨bytes.drop size, reads⟩ := by
            refine ⟨Nat.lt_of_succ_lt hgives.lt, hdata, fun henough => ?_⟩
            have hlen := hgives.all henough
            simp only [length_cons] at hlen
            have hdrop := length_drop (i := size) (l := bytes)
            dsimp only
            omega
          rw [if_neg (by simp [hbytes, Nat.pos_iff_ne_zero.1 hmin])]
          by_cases hle' : frame.length ≤ (buf ++ bytes.take size).length
          · rw [brRecvDataParse_whole hframe hread hle']
            exact .frame frame rest _ _ rfl (hread.next hle').2 hgives'
          · rw [brRecvDataParse_part hframe hread (Nat.not_le.1 hle')]
            exact ih (Nat.lt_of_succ_lt_succ hfuel) hgives' hread

/-! ## Calls in a row -/

theorem deframed_of_splits (calls : ℕ) (hrest : ∀ frame ∈ rest, BrFrame recvSize frame)
    (hgives : stream.Gives enough fuel) (h : Splits buf stream.bytes rest) :
    Deframed enough rest calls (brReadFrames fuel calls ⟨true, recvSize, buf⟩ stream) := by
  induction calls generalizing rest buf stream with
  | zero =>
    refine ⟨ nil_prefix, ?_, fun hbad => absurd hbad (Nat.not_lt_zero _),
      fun hbad => absurd hbad (Nat.not_lt_zero _)⟩
    exact h
  | succ calls ih =>
    have hone := readsOne hrest hgives.lt hgives h
    rw [brReadFrames]
    generalize brTransReadOneFrame fuel ⟨true, recvSize, buf⟩ stream = r at hone
    cases hone with
    | frame frame rest' buf' stream' hrest' h' hgives' =>
      subst hrest'
      obtain ⟨hinitial, hlossless, hincomplete, hcomplete⟩ :=
        ih (fun frame' hframe' => hrest frame' (mem_cons_of_mem _ hframe')) hgives' h'
      constructor
      · exact (prefix_cons_inj frame).2 hinitial
      · simp only [flatten_cons, append_assoc] at hlossless ⊢
        rw [hlossless]
      · exact fun hlt => hincomplete (Nat.lt_of_succ_lt_succ hlt)
      · intro hlt henough
        obtain ⟨hall, hbuf⟩ := hcomplete (Nat.lt_of_succ_lt_succ hlt) henough
        exact ⟨congrArg (frame :: ·) hall, hbuf⟩
    | none result buf' stream' hresult h' hlt hall =>
      have hdone : Deframed enough rest (calls + 1) ([], ⟨true, recvSize, buf'⟩, stream') := by
        refine ⟨ nil_prefix, h', fun _ => ?_, fun _ henough => ?_⟩
        · rw [length_nil, ← head?_eq_getElem?]
          exact hlt
        · -- the stream is at its end and there is no whole frame, so there is none
          rw [hall henough] at h'
          cases rest with
          | nil => exact ⟨rfl, h'.nil.1⟩
          | cons frame rest => exact absurd h'.length_le (Nat.not_le.2 (hlt frame rfl))
      cases result with
      | frame data => exact absurd rfl (hresult data)
      | _ => exact hdone

end LittleEndian

/-! ## Hosts -/

/-- For every size of the buffer, every stream of frames that fit and every way in which the
    transport splits it, the calls give the frames back.  This is so on the hosts with the low
    byte first, and only there. -/
theorem deframes_iff (littleEndian : Bool) :
    (∀ (recvSize : Int32) (frames : List (List UInt8)) (reads : List BrReadStep) (fuel calls : ℕ),
        (∀ frame ∈ frames, BrFrame recvSize frame) → (∀ step ∈ reads, step.IsData) →
          reads.length < fuel → Deframed (frames.flatten.length ≤ reads.length) frames calls
              (brReadFrames fuel calls ⟨littleEndian, recvSize, []⟩ ⟨frames.flatten, reads⟩)) ↔
      littleEndian = true := by
  constructor
  · intro h
    by_contra hbig
    obtain rfl : littleEndian = false := by simpa using hbig
    -- one frame without data, read at once, comes out with its fields reversed
    have hdeframed := h 24 [emptyBrFrame] [.data 24] 2 1 (by
      intro frame hframe
      rw [mem_singleton.1 hframe]
      exact ⟨by decide, by decide, by decide⟩) (by
      intro step hstep
      rw [mem_singleton.1 hstep]
      exact Nat.succ_pos _) (by decide)
    exact absurd hdeframed.initial (by decide +kernel)
  · rintro rfl recvSize frames reads fuel calls hframes hreads hfuel
    exact deframed_of_splits calls hframes ⟨hfuel, hreads, fun henough => henough⟩ rfl

/-- On a host with the high byte first, a frame of 25 bytes that comes in two parts is lost: its
    first 24 bytes are thrown away. -/
theorem split_frame_lost :
    let frame := emptyBrFrame.set 20 1 ++ [7]
    BrFrame 100 frame ∧
      brReadFrames 3 1 ⟨false, 100, []⟩ ⟨frame, [.data 24, .data 1]⟩ = ([], ⟨false, 100, [7]⟩, ⟨[], []⟩) :=
  ⟨⟨by decide, by decide, by decide⟩, by decide +kernel⟩

end SoftBus.Native
