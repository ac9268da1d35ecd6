import Mathlib
import SoftBus.Native.DFileTcp

/-!
# Frames of DFile from a TCP stream

What a header announces is compared with the size of the buffer, which has to hold the header as
well: a payload of 1593 to 1599 bytes is written beyond its end.  As long as no header announces so
much, the calls hand over the frames of the stream, however the socket splits it.
-/

namespace SoftBus.Native
open List

/-- The length of a frame by its header. -/
def dFileFrameLen (frame : List UInt8) : ℕ := dFileFrameHeaderLen + dFilePayloadLen frame

/-- The stream has `frames` and then less than a frame, and no header announces more than the
    buffer has room for. -/
structure DFileStream (frames : List (List UInt8)) (tail : List UInt8) : Prop where
  frame : ∀ frame ∈ frames, frame.length = dFileFrameLen frame ∧ frame.length ≤ nstackxRecvBufferLen
  tail_lt : tail.length < dFileFrameLen tail
  room : dFileFrameHeaderLen ≤ tail.length → dFileFrameLen tail ≤ nstackxRecvBufferLen

variable {l l' tail : List UInt8} {frames rest : List (List UInt8)} {s : DFileReceiver}

theorem headerLen_le (l : List UInt8) : dFileFrameHeaderLen ≤ dFileFrameLen l := Nat.le_add_right _ _

/-- The length stands in the header. -/
theorem dFileFrameLen_append (h : dFileFrameHeaderLen ≤ l.length) :
    dFileFrameLen (l ++ l') = dFileFrameLen l := by
  unfold dFileFrameHeaderLen at h
  unfold dFileFrameLen dFilePayloadLen
  rw [getD_append _ _ _ _ (by omega), getD_append _ _ _ _ (by omega)]

/-- A header that has been read is that of the next frame, or of what the stream ends with. -/
theorem DFileStream.announced (hs : DFileStream rest tail) (h : l ++ l' = rest.flatten ++ tail)
    (hlen : dFileFrameHeaderLen ≤ l.length) :
    dFileFrameLen l ≤ nstackxRecvBufferLen ∧
      (dFileFrameLen l = l.length → ∃ rest', rest = l :: rest' ∧ l' = rest'.flatten ++ tail) := by
  cases rest with
  | nil =>
    obtain rfl : l ++ l' = tail := h
    have hlt := hs.tail_lt
    have hroom := hs.room
    rw [dFileFrameLen_append hlen, length_append] at hlt hroom
    exact ⟨hroom (by omega), fun _ => by omega⟩
  | cons frame rest =>
    obtain ⟨hframe, hfits⟩ := hs.frame frame mem_cons_self
    have hle := headerLen_le frame
    rw [flatten_cons, append_assoc] at h
    have hsame : dFileFrameLen l = dFileFrameLen frame := by
      have heq : dFileFrameLen (l ++ l') = _ := dFileFrameLen_append hlen
      rw [← heq, h, dFileFrameLen_append (by omega)]
    refine ⟨by omega, fun heq => ?_⟩
    obtain ⟨rfl, hrest⟩ := append_inj h (by omega)
    exact ⟨rest, rfl, hrest⟩

namespace DFileReceiver

/-- `TcpSocketRecv` reads what it is called for, or less if it does not succeed. -/
theorem tcpSocketRecv_read (reads : List SocketRead) (length : ℕ) (s : DFileReceiver) :
    ∃ n ≤ length, n ≤ s.stream.length ∧ (tcpSocketRecv reads length s).2.2 = s.read n ∧
      ((tcpSocketRecv reads length s).1 = .ok ↔ n = length) := by
  fun_induction tcpSocketRecv reads length s with
  | case1 | case2 | case3 | case4 | case5 => exact ⟨0, by simp [read]⟩
  | case6 len reads length s ret hret ih =>
    obtain ⟨n, hn, hstream, heq, hok⟩ := ih
    simp only [read, length_drop] at hstream
    refine ⟨ret + n, by omega, by omega, ?_, by rw [hok]; omega⟩
    rw [heq]
    simp [read, take_add]

/-- The frames up to `rest` have been handed over, and the buffer has no more than the next. -/
structure Gathers (frames : List (List UInt8)) (tail : List UInt8) (rest : List (List UInt8))
    (s : DFileReceiver) : Prop where
  handed : s.handed ++ rest = frames
  left : s.recvBuffer ++ s.stream = rest.flatten ++ tail
  le : s.recvBuffer.length ≤ dFileFrameLen s.recvBuffer

/-- The next frame is not complete. -/
def Unfinished (s : DFileReceiver) : Prop := s.recvBuffer.length < dFileFrameLen s.recvBuffer

theorem unfinished_nil (stream : List UInt8) (handed : List (List UInt8)) :
    Unfinished ⟨[], stream, handed⟩ :=
  Nat.lt_of_lt_of_le (by decide : 0 < dFileFrameHeaderLen) (headerLen_le [])

namespace Gathers
variable {n : ℕ} (h : Gathers frames tail rest s)

theorem length_read (h : n ≤ s.stream.length) :
    (s.read n).recvBuffer.length = s.recvBuffer.length + n := by
  simp [read, h]

include h in
/-- A part of the header is read, or a part of the payload. -/
theorem read (hn : n ≤ s.stream.length)
    (hle : s.recvBuffer.length + n ≤ dFileFrameHeaderLen ∨ dFileFrameHeaderLen ≤ s.recvBuffer.length ∧
      s.recvBuffer.length + n ≤ dFileFrameLen s.recvBuffer) :
    Gathers frames tail rest (s.read n) := by
  refine ⟨h.handed, by simp [DFileReceiver.read, h.left], ?_⟩
  rw [length_read hn]
  rcases hle with hle | ⟨hlen, hle⟩
  · exact Nat.le_trans hle (headerLen_le _)
  · rwa [DFileReceiver.read, dFileFrameLen_append hlen]

include h in
/-- A frame that is complete is handed over. -/
theorem hand (hs : DFileStream rest tail)
    (hfull : s.recvBuffer.length = dFileFrameLen s.recvBuffer) : ∃ rest', Gathers frames tail rest'
      { s with recvBuffer := [], handed := s.handed ++ [s.recvBuffer] } := by
  obtain ⟨rest', rfl, hleft⟩ := (hs.announced h.left (hfull ▸ headerLen_le _)).2 hfull.symm
  exact ⟨rest', by simpa using h.handed, hleft, Nat.zero_le _⟩

include h in
theorem step (hs : DFileStream rest tail) (reads : List SocketRead) :
    (∃ rest', Gathers frames tail rest' (s.dFileSocketRecvSP reads)) ∧
      (s.dFileSocketRecvSP reads).Unfinished := by
  unfold dFileSocketRecvSP socketRecvForTcp
  obtain ⟨n, hn, hstream, heq, hok⟩ :=
    tcpSocketRecv_read reads (dFileFrameHeaderLen - s.recvBuffer.length) s
  have hle := h.le
  have h₁ := h.read hstream (by omega)
  have hlen₁ := length_read hstream
  generalize tcpSocketRecv reads (dFileFrameHeaderLen - s.recvBuffer.length) s = r at heq hok ⊢
  obtain ⟨ret, reads, s₁⟩ := r
  obtain rfl : s₁ = s.read n := heq
  generalize s.read n = s₁ at *
  have hle₁ := h₁.le
  cases ret with
  | ok =>
    have hhead := hok.1 rfl
    have hroom := (hs.announced h₁.left (by omega)).1
    have hsum : dFileFrameLen s₁.recvBuffer = _ + dFilePayloadLen s₁.recvBuffer := rfl
    dsimp only
    rw [if_neg (by unfold dFileFrameHeaderLen at hsum; omega)]
    obtain ⟨m, hm, hstream, heq, hok⟩ := tcpSocketRecv_read reads
      (dFilePayloadLen s₁.recvBuffer - (s₁.recvBuffer.length - dFileFrameHeaderLen)) s₁
    have h₂ := h₁.read hstream (by omega)
    have hlen₂ := length_read hstream
    have hsame : dFileFrameLen (s₁.read m).recvBuffer = _ := dFileFrameLen_append (by omega)
    generalize tcpSocketRecv reads _ s₁ = r at heq hok ⊢
    obtain ⟨ret, reads, s₂⟩ := r
    obtain rfl : s₂ = s₁.read m := heq
    cases ret with
    | ok =>
      have hfull := hok.1 rfl
      exact ⟨h₂.hand hs (by omega), unfinished_nil _ _⟩
    | eAgain | eFailed | peerClose =>
      have hless := mt hok.2 (by simp)
      have hlt : (s₁.read m).Unfinished := by unfold Unfinished; omega
      exact ⟨⟨rest, h₂⟩, hlt⟩
  | eAgain | eFailed | peerClose =>
    -- the header is not complete
    have hless := mt hok.2 (by simp)
    have hlt : s₁.Unfinished := Nat.lt_of_lt_of_le (by omega) (headerLen_le _)
    exact ⟨⟨rest, h₁⟩, hlt⟩

include h in
theorem stream (hs : DFileStream frames tail) : DFileStream rest tail :=
  ⟨fun frame hmem => hs.frame frame (h.handed ▸ mem_append_right _ hmem), hs.tail_lt, hs.room⟩

theorem run (hs : DFileStream frames tail) (h : Gathers frames tail rest s) (hlt : s.Unfinished)
    (calls : List (List SocketRead)) :
    (∃ rest', Gathers frames tail rest' (calls.foldl dFileSocketRecvSP s)) ∧
      (calls.foldl dFileSocketRecvSP s).Unfinished := by
  induction calls generalizing s rest with
  | nil => exact ⟨⟨rest, h⟩, hlt⟩
  | cons reads calls ih =>
    obtain ⟨⟨rest', h'⟩, hlt'⟩ := h.step (h.stream hs) reads
    exact ih h' hlt'

end Gathers

/-- However the socket splits the stream, the calls hand over its frames one after the other, all
    of them when it has been read, and the buffer never has more bytes than it has room for. -/
theorem handed_of_dFileStream (h : DFileStream frames tail) (calls : List (List SocketRead)) :
    let s := calls.foldl dFileSocketRecvSP ⟨[], frames.flatten ++ tail, []⟩
    s.handed <+: frames ∧ (s.stream = [] → s.handed = frames) ∧
      s.recvBuffer.length ≤ nstackxRecvBufferLen := by
  intro s
  obtain ⟨⟨rest, hg⟩, hlt⟩ := Gathers.run (s := ⟨[], _, []⟩) h ⟨rfl, rfl, Nat.zero_le _⟩
    (unfinished_nil _ _) calls
  refine ⟨⟨rest, hg.handed⟩, fun hend => ?_, ?_⟩
  · have hleft : s.recvBuffer = rest.flatten ++ tail := by simpa [s, hend] using hg.left
    cases rest with
    | nil => simpa using hg.handed
    | cons frame rest =>
      have hframe := ((hg.stream h).frame frame mem_cons_self).1
      have hle := headerLen_le frame
      rw [flatten_cons, append_assoc] at hleft
      change s.recvBuffer.length < dFileFrameLen s.recvBuffer at hlt
      rw [hleft, dFileFrameLen_append (by omega), length_append] at hlt
      omega
  · by_cases hlen : dFileFrameHeaderLen ≤ s.recvBuffer.length
    · exact Nat.le_trans hg.le ((hg.stream h).announced hg.left hlen).1
    · exact Nat.le_trans (Nat.le_of_not_le hlen) (by decide)

/-- A frame without payload and a part of the next header. -/
theorem handed_one_frame :
    ([[.data 5], [.eAgain], [.data 3], [.data 9]].foldl dFileSocketRecvSP
      ⟨[], [replicate 8 0].flatten ++ [1, 2], []⟩).handed = [replicate 8 0] :=
  (handed_of_dFileStream ⟨by decide, by decide, by decide⟩ _).2.1 (by decide)

/-- A frame of 1607 bytes is read into the buffer of 1600. -/
theorem frame_overruns_recvBuffer :
    (dFileSocketRecvSP ⟨[], [0, 0, 0, 0, 0, 0, 6, 63] ++ replicate 1599 0, []⟩
      [.data 8, .data 1599]).handed.map length = [1607] := by
  decide +kernel

end DFileReceiver
end SoftBus.Native
