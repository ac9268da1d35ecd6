import Mathlib
import SoftBus.ForStd.Run
import SoftBus.Native.FillpFrame

/-!
# Frames are reported once

A `VideoFrame` is sent as fragments, each cut into items, and the items come in order to a socket that sends frames of
its own.  Other items may come between the fragments.  The receiver's part of `curFrame` is written anew by the first
fragment of a frame, so that what the socket sends between two frames does not matter; what it sends while it
receives a frame does, since both use the same fields.

## Main results

* `VideoFrame.send_snd`: the items of a fragment come with the marks that the sender has set.
* `reports_sendFrames`: the items of frames alone are reported as they complete a frame.
* `frames_reported_once`: `rxCb` is called once for each complete frame, if the socket sends between frames only.
-/

namespace SoftBus.Native
open List FillpFrameHandle
variable {h' h hs : FillpFrameHandle} {l : List MarkedItem}

/-! ## Frames -/

/-- What `rxCb` learns of a frame. -/
structure FrameReport where
  seqNum : UInt32
  type : Int32
  size : UInt32
  fragCnt : UInt32
deriving DecidableEq

def FillpFrameInfo.report (info : FillpFrameInfo) : FrameReport := ⟨info.seqNum, info.type, info.size, info.fragCnt⟩

/-- One call of the sender: its data are cut into items of the lengths `data`, which come at the times given with them. -/
structure Fragment where
  subSeqNum : Int32
  level : Int32
  timestamp : Int64
  bitMap : UInt32
  data : List (UInt16 × ℤ)
  /-- the items that come before the fragment and are not of a frame -/
  before : List FillpPcbItem
  nonempty : data ≠ []
  pos : ∀ d ∈ data, 0 < d.1.toNat
  bufLen_lt : (data.map fun d => d.1.toNat).sum < 2 ^ 31
  other : ∀ item ∈ before, item.frame = none

/-- The length of the data of the call, a `FILLP_INT`. -/
def Fragment.bufLen (g : Fragment) : ℕ := (g.data.map fun d => d.1.toNat).sum

/-- `FRAME_INFO_BITMAP_FRAME_END` is set in the last call. -/
structure VideoFrame where
  frameType : Int32
  seqNum : Int32
  init : List Fragment
  last : Fragment
  isVideo : fillpFrameIsVideo frameType = true
  init_bitMap : ∀ g ∈ init, flagsCheck g.bitMap frameInfoBitmapFrameEnd = false
  last_bitMap : flagsCheck last.bitMap frameInfoBitmapFrameEnd = true

namespace VideoFrame

variable (f : VideoFrame)

def size : ℕ := (f.init.map Fragment.bufLen).sum + f.last.bufLen

/-- The report of the complete frame, with the lowest 16 bits of its number. -/
def report : FrameReport where
  seqNum := f.seqNum.toUInt32.toUInt16.toUInt32
  type := f.frameType
  size := .ofNat f.size
  fragCnt := .ofNat (f.init.length + 1)

/-- What the application says in the call for a fragment. -/
def info (g : Fragment) : FrameInfo :=
  ⟨f.frameType, f.seqNum, g.subSeqNum, g.level, g.timestamp, g.bitMap⟩

end VideoFrame

/-- An item and what is to be reported when it comes. -/
abbrev MarkedItem := FillpPcbItem × Option FrameReport

/-- The last item gets the mark `m`. -/
def markEnd (m : Option FrameReport) : List FillpPcbItem → List MarkedItem
  | [] => []
  | [a] => [(a, m)]
  | a :: b :: l => (a, none) :: markEnd m (b :: l)

/-- The handle of the sender after a fragment, and the items as they come to the receiver.  The mark is what is to
    be reported with the last item. -/
def VideoFrame.send (f : VideoFrame) (h : FillpFrameHandle) (g : Fragment) (m : Option FrameReport) :
    FillpFrameHandle × List MarkedItem :=
  let r := sockSendmsgDataToBufCache (f.info g) (.ofNat g.bufLen) true h (g.data.map Prod.fst)
  (r.1, g.before.map (·, none) ++ markEnd m (List.zipWith processPcbItem r.2 (g.data.map Prod.snd)))

/-- The fragments of a frame but the last one. -/
def VideoFrame.sendInit (f : VideoFrame) :
    FillpFrameHandle → List Fragment → FillpFrameHandle × List MarkedItem
  | h, [] => (h, [])
  | h, g :: gs =>
    let r := f.send h g none
    let s := f.sendInit r.1 gs
    (s.1, r.2 ++ s.2)

/-- All items that a sender makes of the frames. -/
def sendFrames : FillpFrameHandle → List VideoFrame → List MarkedItem
  | _, [] => []
  | h, f :: frames =>
    let r := f.sendInit h f.init
    let s := f.send r.1 f.last (some f.report)
    r.2 ++ s.2 ++ sendFrames s.1 frames

/-! ## The items of a fragment -/

/-- The flags with which the first item of a fragment comes. -/
def fragFlags (first last : Bool) : UInt32 :=
  (if first then flagsFrameFirstFragStart else 0) ||| (if last then flagsFrameLastFragStart else 0) ||| flagsFirstPkt

/-- An item that is not the first one of its fragment. -/
def plainItem (d : UInt16 × ℤ) : FillpPcbItem := ⟨d.1, 0, 0, d.2, none⟩

section
variable (f : VideoFrame) (g : Fragment)

/-- What comes of the frame with the first item of a fragment. -/
def VideoFrame.frameItem : FillpFrameItem where
  info :=
    { frameType := f.frameType
      seqNum := f.seqNum.toUInt32.toUInt16.toUInt32.toInt32
      subSeqNum := g.subSeqNum.toUInt32.toUInt8.toUInt32.toInt32
      level := g.level.toUInt32.toUInt8.toUInt32.toInt32
      timestamp := g.timestamp.toUInt64.toUInt32.toUInt64.toInt64
      bitMap := 0 }
  fragSize := .ofNat g.bufLen

/-- The first item of a fragment at the receiver. -/
def VideoFrame.firstItem (d : UInt16 × ℤ) (first last : Bool) : FillpPcbItem :=
  ⟨d.1, 0, fragFlags first last, d.2, some (f.frameItem g)⟩

/-- The items of a fragment as they come. -/
def VideoFrame.fragItems (first last : Bool) : List FillpPcbItem :=
  match g.data with
  | [] => []
  | d :: rest => f.firstItem g d first last :: rest.map plainItem

end

/-! ## The sender -/

/-- The type of a video frame is one byte of the option. -/
theorem frameType_eq {type : Int32} (h : fillpFrameIsVideo type = true) : type.toUInt32.toUInt8.toUInt32.toInt32 = type := by
  simp only [fillpFrameIsVideo, Bool.or_eq_true, decide_eq_true_eq] at h
  rcases h with rfl | rfl <;> decide

/-- An item without the option. -/
theorem processPcbItem_plain (dataLen : UInt16) (flags : UInt32) (frame : Option FillpFrameItem) (t rxTimeStamp : ℤ) :
    processPcbItem ⟨dataLen, 0, flags, t, frame⟩ rxTimeStamp = plainItem (dataLen, rxTimeStamp) := by
  have hnone : flagsCheck 0 optFlagFrameInfo = false := by decide
  cases frame with
  | none => rfl
  | some frame => simp [processPcbItem, hnone, plainItem]

/-- The items after the first one tell nothing of the frame. -/
theorem sockSendmsg_rest {frame : FrameInfo} (hvideo : fillpFrameIsVideo frame.frameType = true) (bufLen : UInt32)
    (data : List (UInt16 × ℤ)) : (sockSendmsgDataToBufCache frame bufLen false h (data.map Prod.fst)).1 = h ∧
      zipWith processPcbItem (sockSendmsgDataToBufCache frame bufLen false h (data.map Prod.fst)).2
        (data.map Prod.snd) = data.map plainItem := by
  induction data with
  | nil => exact ⟨rfl, rfl⟩
  | cons d data ih =>
    simp only [map_cons, sockSendmsgDataToBufCache, fillpFrameTxInitItem, hvideo, if_true, Bool.false_eq_true, if_false,
      zipWith_cons_cons, ih, processPcbItem_plain]
    exact ⟨trivial, trivial⟩

namespace VideoFrame
variable {f : VideoFrame} {g : Fragment}

variable (f) (h)

/-- The sender takes the fragment for the first one of a frame. -/
def new : Bool :=
  h.curFrame.info.size = 0 ∨ f.seqNum.toUInt32 ≠ h.curFrame.info.seqNum

theorem send_snd (g : Fragment) (m : Option FrameReport) :
    (f.send h g m).2 = g.before.map (·, none) ++
      markEnd m (f.fragItems g (f.new h) (flagsCheck g.bitMap frameInfoBitmapFrameEnd)) := by
  have hvideo : fillpFrameIsVideo (f.info g).frameType = true := f.isVideo
  have htype := frameType_eq f.isVideo
  rw [send, fragItems]
  cases hdata : g.data with
  | nil => exact absurd hdata g.nonempty
  | cons d rest =>
    simp only [map_cons, sockSendmsgDataToBufCache, if_true, zipWith_cons_cons, sockSendmsg_rest hvideo]
    congr 3
    have hopt : flagsCheck (0 ||| optFlagFrameInfo) optFlagFrameInfo = true := by decide
    have hflags : ∀ first last : Bool,
        ((if last then (if first then flagsFirstPkt ||| flagsFrameFirstFragStart else flagsFirstPkt) |||
            flagsFrameLastFragStart
          else if first then flagsFirstPkt ||| flagsFrameFirstFragStart else flagsFirstPkt) &&&
            flagsFrameOptBitmapMask).toUInt8.toUInt32 ||| flagsFirstPkt = fragFlags first last := by decide
    simp only [fillpFrameTxInitItem, hvideo, if_true, processPcbItem, hopt, fillpFrameParseOption, fillpFrameBuildOption]
    rw [firstItem, FillpPcbItem.mk.injEq, hflags]
    simp only [info, htype]
    exact ⟨trivial, trivial, rfl, trivial, rfl⟩

theorem send_fst (g : Fragment) (m : Option FrameReport) :
    (f.send h g m).1.curFrame.info.seqNum = f.seqNum.toUInt32 ∧ (f.send h g m).1.curFrame.info.size =
        (if f.new h then 0 else h.curFrame.info.size) + .ofNat g.bufLen := by
  have hvideo : fillpFrameIsVideo (f.info g).frameType = true := f.isVideo
  have hnew : (decide (h.curFrame.info.size = 0 ∨ (f.info g).seqNum.toUInt32 ≠ h.curFrame.info.seqNum)) = f.new h := rfl
  rw [send]
  cases hdata : g.data with
  | nil => exact absurd hdata g.nonempty
  | cons d rest =>
    simp only [map_cons, sockSendmsgDataToBufCache, if_true, sockSendmsg_rest hvideo]
    simp only [fillpFrameTxInitItem, hvideo, if_true, hnew]
    cases hn : f.new h with
    | true => exact ⟨rfl, (UInt32.zero_add _).symm⟩
    | false =>
      have hseq : h.curFrame.info.seqNum = f.seqNum.toUInt32 := by
        simp only [new, decide_eq_false_iff_not, not_or, not_not] at hn
        exact hn.2.symm
      exact ⟨hseq, rfl⟩

end VideoFrame

/-! ## The receiver -/

section
variable (h)

/-- What was reported so far. -/
def FillpFrameHandle.reports : List FrameReport := h.notified.map FillpFrameInfo.report

def FillpFrameHandle.rxMarked (e : MarkedItem) : FillpFrameHandle := fillpFrameRx h e.1

/-- Each item has the effect of its mark: with the last item of a frame the frame is reported. -/
def FrameReports (items : List MarkedItem) : Prop :=
  Run.AllSteps FillpFrameHandle.rxMarked (fun h e => (h.rxMarked e).reports = h.reports ++ e.2.toList) h items

end

theorem FrameReports.append {l₁ l₂ : List MarkedItem} (h₁ : FrameReports h l₁)
    (h₂ : FrameReports (l₁.foldl rxMarked h) l₂) : FrameReports h (l₁ ++ l₂) :=
  Run.allSteps_append.2 ⟨h₁, h₂⟩

/-- The reports after the items. -/
theorem FrameReports.reports_eq (hl : FrameReports h l) :
    ((l.map Prod.fst).foldl fillpFrameRx h).reports = h.reports ++ l.filterMap Prod.snd := by
  induction l generalizing h with
  | nil => exact (append_nil _).symm
  | cons e l ih =>
    obtain ⟨he, hl⟩ := hl
    rw [map_cons, foldl_cons, show fillpFrameRx h e.1 = h.rxMarked e from rfl, ih hl, he, filterMap_cons,
      append_assoc]
    cases e.2 <;> rfl

variable {f : VideoFrame} {g : Fragment} {item : FillpPcbItem} {n k left : ℕ} {last : Bool}

/-- Of the frame `n` bytes in `k` fragments were announced. -/
structure FrameProgress (f : VideoFrame) (n k : ℕ) (c : FillpFrame) : Prop where
  rxStarted : c.rxStarted = true
  seqNum : c.info.seqNum = f.report.seqNum
  type : c.info.type = f.report.type
  size : c.info.size = .ofNat n
  fragCnt : c.info.fragCnt = .ofNat k

/-- So many bytes of a fragment are to come. -/
structure FragReceiving (f : VideoFrame) (n k : ℕ) (last : Bool) (left : ℕ) (h : FillpFrameHandle) : Prop where
  progress : FrameProgress f n k h.curFrame
  lastFragRecvd : h.curFrame.lastFragRecvd = last
  left : h.curFrame.curFrag.size = h.curFrame.curFrag.procSize + .ofNat left

/-- After a fragment: the frame is complete, or another fragment is to come. -/
def FragDone (f : VideoFrame) (n k : ℕ) (last : Bool) (h : FillpFrameHandle) : Prop :=
  if last then h.curFrame.rxStarted = false else FrameProgress f n k h.curFrame ∧ h.curFrame.lastFragRecvd = false

/-- The report after a fragment. -/
def fragMark (f : VideoFrame) (n k : ℕ) (last : Bool) : Option FrameReport :=
  if last then some ⟨f.report.seqNum, f.report.type, .ofNat n, .ofNat k⟩ else none

/-- An item that is not the first one of a fragment. -/
theorem fillpFrameRx_plain (hitem : item.frame = none) :
    fillpFrameRx h item = if h.curFrame.rxStarted then fillpFrameRxUpdateAndNotify h item else h := by
  rw [fillpFrameRx, hitem]
  cases h.curFrame.rxStarted <;> simp

theorem toUInt32_eq_ofNat (dataLen : UInt16) : dataLen.toUInt32 = .ofNat dataLen.toNat := by
  rw [← UInt32.toNat_inj, UInt16.toNat_toUInt32, UInt32.toNat_ofNat_of_lt']
  exact dataLen.toNat_lt.trans (by decide)

/-- The fragment is complete when nothing is left. -/
theorem FragReceiving.complete_iff (hr : FragReceiving f n k last (item.dataLen.toNat + left) h) (hleft : left < 2 ^ 32) :
    h.curFrame.curFrag.size = h.curFrame.curFrag.procSize + item.dataLen.toUInt32 ↔ left = 0 := by
  have hzero : UInt32.ofNat left = 0 ↔ left = 0 := by
    rw [← UInt32.toNat_inj, UInt32.toNat_ofNat_of_lt' hleft]
    rfl
  rw [hr.left, UInt32.ofNat_add, ← UInt32.add_assoc, toUInt32_eq_ofNat, UInt32.add_eq_left, hzero]

/-- The last bytes of a fragment. -/
theorem FragReceiving.update_end (hr : FragReceiving f n k last item.dataLen.toNat h) :
    FragDone f n k last (fillpFrameRxUpdateAndNotify h item) ∧
      (fillpFrameRxUpdateAndNotify h item).reports = h.reports ++ (fragMark f n k last).toList := by
  have hzero : FragReceiving f n k last (item.dataLen.toNat + 0) h := hr
  have hend := (hzero.complete_iff (by decide)).2 rfl
  obtain ⟨hp, hlast, -⟩ := hr
  simp only [fillpFrameRxUpdateAndNotify, hlast, if_pos hend]
  cases last with
  | true =>
    refine ⟨rfl, ?_⟩
    simp [reports, fragMark, FillpFrameInfo.report, hp.seqNum, hp.type, hp.size, hp.fragCnt]
  | false => exact ⟨⟨{ hp with }, rfl⟩, (append_nil _).symm⟩

/-- Bytes of a fragment of which more are to come. -/
theorem FragReceiving.update_more (hr : FragReceiving f n k last (item.dataLen.toNat + left) h)
    (hleft : left < 2 ^ 32) (hpos : left ≠ 0) :
    FragReceiving f n k last left (fillpFrameRxUpdateAndNotify h item) ∧
      (fillpFrameRxUpdateAndNotify h item).reports = h.reports := by
  have hmore := fun heq => hpos ((hr.complete_iff hleft).1 heq)
  obtain ⟨hp, hlast, hsize⟩ := hr
  simp only [fillpFrameRxUpdateAndNotify, if_neg hmore]
  refine ⟨⟨{ hp with }, hlast, ?_⟩, rfl⟩
  rw [hsize, UInt32.ofNat_add, ← UInt32.add_assoc, toUInt32_eq_ofNat]

/-- An item of a fragment and those after it; the handle `h'` is the one in which the item is counted. -/
theorem FragReceiving.items {data : List (UInt16 × ℤ)}
    (hrx : fillpFrameRx h item = fillpFrameRxUpdateAndNotify h' item)
    (hr : FragReceiving f n k last (item.dataLen.toNat + (data.map fun d => d.1.toNat).sum) h')
    (hsame : h'.reports = h.reports) (hpos : ∀ d ∈ data, 0 < d.1.toNat) (hsum : (data.map fun d => d.1.toNat).sum < 2 ^ 32) :
    FrameReports h (markEnd (fragMark f n k last) (item :: data.map plainItem)) ∧
      FragDone f n k last ((markEnd (fragMark f n k last) (item :: data.map plainItem)).foldl rxMarked h) := by
  induction data generalizing h h' item with
  | nil =>
    obtain ⟨hdone, hend⟩ := hr.update_end
    rw [← hrx, hsame] at hend
    rw [← hrx] at hdone
    exact ⟨⟨hend, trivial⟩, hdone⟩
  | cons d data ih =>
    rw [forall_mem_cons] at hpos
    rw [map_cons, sum_cons] at hr hsum
    obtain ⟨hmore, hkept⟩ := hr.update_more hsum (by omega)
    rw [← hrx, hsame] at hkept
    rw [← hrx] at hmore
    have hplain : (plainItem d).frame = none := rfl
    obtain ⟨hrest, hdone⟩ := ih ((fillpFrameRx_plain hplain).trans (if_pos hmore.progress.rxStarted)) hmore rfl hpos.2
      (by omega)
    exact ⟨⟨hkept.trans (append_nil _).symm, hrest⟩, hdone⟩

/-- Before a fragment. -/
def FragReady (f : VideoFrame) (n k : ℕ) (first : Bool) (h : FillpFrameHandle) : Prop :=
  if first then n = 0 ∧ k = 0 ∧ h.curFrame.rxStarted = false
  else FrameProgress f n k h.curFrame ∧ h.curFrame.lastFragRecvd = false

/-- The first item of a fragment announces it, and its bytes are counted then. -/
theorem FragReady.first {first : Bool} (hr : FragReady f n k first h) (d : UInt16 × ℤ) (last : Bool) :
    ∃ h', FragReceiving f (n + g.bufLen) (k + 1) last g.bufLen h' ∧ h'.reports = h.reports ∧
      fillpFrameRx h (f.firstItem g d first last) =
        fillpFrameRxUpdateAndNotify h' (f.firstItem g d first last) := by
  obtain ⟨hfirst, hlast, hpkt⟩ : flagsCheck (fragFlags first last) flagsFrameFirstFragStart = first ∧
      flagsCheck (fragFlags first last) flagsFrameLastFragStart = last ∧
      flagsCheck (fragFlags first last) flagsFirstPkt = true := by
    cases first <;> cases last <;> decide
  let c := fillpFrameRxNewFrag h.curFrame (f.firstItem g d first last) (f.frameItem g)
  have hc : FragReceiving f (n + g.bufLen) (k + 1) last g.bufLen { h with curFrame := c } := by
    cases first with
    | true =>
      obtain ⟨rfl, rfl, -⟩ := hr
      simp only [c, fillpFrameRxNewFrag, VideoFrame.firstItem, hfirst, hlast, if_true, Bool.not_true, Bool.false_eq_true,
        if_false]
      refine ⟨⟨rfl, ?_, rfl, ?_, rfl⟩, ?_, (UInt32.zero_add _).symm⟩
      · simp [VideoFrame.frameItem, VideoFrame.report]
      · simp [VideoFrame.frameItem]
      · cases last <;> rfl
    | false =>
      obtain ⟨hp, hmid⟩ := hr
      simp only [c, fillpFrameRxNewFrag, VideoFrame.firstItem, hfirst, hlast, hp.rxStarted, Bool.not_true,
        Bool.false_eq_true, if_false, hmid]
      refine ⟨⟨rfl, hp.seqNum, hp.type, ?_, ?_⟩, ?_, (UInt32.zero_add _).symm⟩
      · rw [hp.size, UInt32.ofNat_add]
        rfl
      · rw [hp.fragCnt, UInt32.ofNat_add]
        rfl
      · cases last <;> rfl
  refine ⟨{ h with curFrame := c }, hc, rfl, ?_⟩
  have hnew : fillpFrameRx h (f.firstItem g d first last) =
      if !c.rxStarted then { h with curFrame := c }
      else fillpFrameRxUpdateAndNotify { h with curFrame := c } (f.firstItem g d first last) := by
    simp only [fillpFrameRx, VideoFrame.firstItem, hpkt, if_true]
    rfl
  rw [hnew, show c.rxStarted = true from hc.progress.rxStarted]
  rfl

/-- The other items before a fragment. -/
theorem FragReady.before {first : Bool} {before : List FillpPcbItem} (hr : FragReady f n k first h)
    (hother : ∀ item ∈ before, item.frame = none) :
    FrameReports h (before.map (·, none)) ∧
      FragReady f n k first ((before.map (·, none)).foldl rxMarked h) := by
  induction before generalizing h with
  | nil => exact ⟨trivial, hr⟩
  | cons item before ih =>
    rw [forall_mem_cons] at hother
    have hrx := fillpFrameRx_plain (h := h) hother.1
    have hitem : FragReady f n k first (fillpFrameRx h item) ∧ (fillpFrameRx h item).reports = h.reports := by
      rw [hrx]
      cases first with
      | true =>
        rw [if_neg (by simp [hr.2.2])]
        exact ⟨hr, rfl⟩
      | false =>
        -- no frame is complete before its last fragment
        obtain ⟨hp, hmid⟩ := hr
        rw [if_pos hp.rxStarted]
        simp only [fillpFrameRxUpdateAndNotify, hmid, Bool.false_eq_true, if_false, ite_self]
        exact ⟨⟨{ hp with }, rfl⟩, rfl⟩
    obtain ⟨hrest, hready⟩ := ih hitem.1 hother.2
    exact ⟨⟨hitem.2.trans (append_nil _).symm, hrest⟩, hready⟩

/-- A fragment, with the items before it. -/
theorem FragReady.fragment {first : Bool} (hr : FragReady f n k first h) (g : Fragment) (last : Bool)
    (hl : l = g.before.map (·, none) ++ markEnd (fragMark f (n + g.bufLen) (k + 1) last) (f.fragItems g first last)) :
    FrameReports h l ∧ FragDone f (n + g.bufLen) (k + 1) last (l.foldl rxMarked h) := by
  obtain ⟨hbefore, hready⟩ := hr.before g.other
  have hbuf : g.bufLen = (g.data.map fun d => d.1.toNat).sum := rfl
  have hsum := g.bufLen_lt
  have hpos := g.pos
  subst hl
  rw [VideoFrame.fragItems, foldl_append]
  cases hdata : g.data with
  | nil => exact absurd hdata g.nonempty
  | cons d rest =>
    rw [hdata, forall_mem_cons] at hpos
    rw [hdata, map_cons, sum_cons] at hsum hbuf
    obtain ⟨h', hr', hreports, hrx⟩ := hready.first (g := g) d last
    replace hr' : FragReceiving f (n + g.bufLen) (k + 1) last (d.1.toNat + (rest.map fun d => d.1.toNat).sum) h' := by
      rwa [← hbuf]
    obtain ⟨hitems, hdone⟩ := FragReceiving.items hrx hr' hreports hpos.2 (by omega)
    exact ⟨hbefore.append hitems, hdone⟩

/-! ## Frames in a row -/

/-- The sender has sent `n` bytes of the frame. -/
def FrameSends (f : VideoFrame) (n : ℕ) (first : Bool) (h : FillpFrameHandle) : Prop :=
  if first then n = 0 ∧ f.new h = true
  else h.curFrame.info.seqNum = f.seqNum.toUInt32 ∧ h.curFrame.info.size = .ofNat n ∧ n ≠ 0

theorem Fragment.bufLen_pos (g : Fragment) : 0 < g.bufLen := by
  rw [Fragment.bufLen]
  cases hdata : g.data with
  | nil => exact absurd hdata g.nonempty
  | cons d rest =>
    have := g.pos d (hdata ▸ mem_cons_self)
    rw [map_cons, sum_cons]
    omega

/-- The sender knows the first fragment of a frame. -/
theorem FrameSends.new_eq {first : Bool} (hs : FrameSends f n first h) (hn : n < 2 ^ 32) : f.new h = first := by
  cases first with
  | true => exact hs.2
  | false =>
    obtain ⟨hseq, hsize, hpos⟩ := hs
    have hzero : h.curFrame.info.size ≠ 0 := by
      rw [hsize, Ne, ← UInt32.toNat_inj, UInt32.toNat_ofNat_of_lt' hn]
      exact hpos
    simp [VideoFrame.new, hzero, hseq]

theorem FrameSends.send {first : Bool} (hs : FrameSends f n first h) (hn : n < 2 ^ 32)
    (m : Option FrameReport) : FrameSends f (n + g.bufLen) false (f.send h g m).1 := by
  have hpos := g.bufLen_pos
  obtain ⟨hseq, hsize⟩ := f.send_fst h g m
  refine ⟨hseq, ?_, by omega⟩
  rw [hsize, hs.new_eq hn, UInt32.ofNat_add]
  cases first with
  | true => rw [hs.1]; rfl
  | false => rw [hs.2.1]; rfl

/-- The fragments of a frame before the last one. -/
theorem FragReady.sendInit {first : Bool} {gs : List Fragment} (hsends : FrameSends f n first hs)
    (hr : FragReady f n k first h) (hsum : n + (gs.map Fragment.bufLen).sum < 2 ^ 32)
    (hgs : ∀ g ∈ gs, flagsCheck g.bitMap frameInfoBitmapFrameEnd = false) :
    FrameReports h (f.sendInit hs gs).2 ∧
      FrameSends f (n + (gs.map Fragment.bufLen).sum) (first && gs.isEmpty) (f.sendInit hs gs).1 ∧
      FragReady f (n + (gs.map Fragment.bufLen).sum) (k + gs.length) (first && gs.isEmpty)
        ((f.sendInit hs gs).2.foldl rxMarked h) := by
  induction gs generalizing n k first hs h with
  | nil =>
    rw [isEmpty_nil, Bool.and_true]
    exact ⟨trivial, hsends, hr⟩
  | cons g gs ih =>
    rw [forall_mem_cons] at hgs
    rw [map_cons, sum_cons, ← Nat.add_assoc] at hsum ⊢
    have hn : n < 2 ^ 32 := by omega
    have hitems := f.send_snd hs g none
    rw [hsends.new_eq hn, hgs.1] at hitems
    obtain ⟨hreports, hdone⟩ := hr.fragment g false hitems
    have hmid : FragReady f (n + g.bufLen) (k + 1) false ((f.send hs g none).2.foldl rxMarked h) := hdone
    obtain ⟨hrest, hsends', hready⟩ := ih (hsends.send hn none) hmid hsum hgs.2
    rw [VideoFrame.sendInit, foldl_append, isEmpty_cons, Bool.and_false, length_cons,
      Nat.add_comm gs.length, ← Nat.add_assoc]
    exact ⟨hreports.append hrest, hsends', hready⟩

/-- All items of the frames. -/
theorem reports_sendFrames {frames : List VideoFrame} (hstart : ∀ f ∈ frames.head?, f.new hs = true)
    (hchain : frames.IsChain (·.seqNum ≠ ·.seqNum)) (hsize : ∀ f ∈ frames, f.size < 2 ^ 32)
    (hidle : h.curFrame.rxStarted = false) :
    FrameReports h (sendFrames hs frames) := by
  induction frames generalizing hs h with
  | nil => trivial
  | cons f frames ih =>
    rw [forall_mem_cons] at hsize
    have hnew : FrameSends f 0 true hs := ⟨rfl, hstart f rfl⟩
    have hlt : (f.init.map Fragment.bufLen).sum < 2 ^ 32 := by
      have hf := hsize.1
      rw [VideoFrame.size] at hf
      omega
    obtain ⟨hinit, hsends, hready⟩ := FragReady.sendInit hnew (h := h) (k := 0) ⟨rfl, rfl, hidle⟩
      (by rwa [Nat.zero_add]) f.init_bitMap
    rw [Nat.zero_add] at hsends hready
    -- the last fragment ends the frame
    have hlast := f.send_snd (f.sendInit hs f.init).1 f.last (some f.report)
    rw [hsends.new_eq hlt, f.last_bitMap] at hlast
    obtain ⟨hreports, hdone⟩ := hready.fragment f.last true (hlast.trans (by
      rw [fragMark, Nat.zero_add]
      rfl))
    have hseq := (f.send_fst (f.sendInit hs f.init).1 f.last (some f.report)).1
    have hnext : ∀ f' ∈ frames.head?, f'.new (f.send (f.sendInit hs f.init).1 f.last (some f.report)).1 = true := by
      intro f' hf'
      have hne : f.seqNum ≠ f'.seqNum := by
        cases frames with
        | nil => cases hf'
        | cons f₂ frames =>
          cases hf'
          exact (isChain_cons_cons.1 hchain).1
      rw [VideoFrame.new, hseq, decide_eq_true_eq]
      exact .inr fun heq => hne (congrArg Int32.ofUInt32 heq).symm
    refine (hinit.append hreports).append ?_
    rw [foldl_append]
    exact ih hnext hchain.of_cons hsize.2 hdone

/-! ## What the socket itself sends -/

/-- The same for the receiver: what a socket has sent does not matter between frames. -/
def RxEq (h h' : FillpFrameHandle) : Prop :=
  h = h' ∨ h.curFrame.rxStarted = false ∧ h'.curFrame.rxStarted = false ∧ h.notified = h'.notified

/-- A frame starts anew. -/
theorem RxEq.fillpFrameRx (heq : RxEq h h') : RxEq (fillpFrameRx h item) (fillpFrameRx h' item) := by
  rcases heq with rfl | ⟨hidle, hidle', hnotified⟩
  · exact .inl rfl
  · rw [Native.fillpFrameRx, Native.fillpFrameRx]
    cases hframe : item.frame with
    | none =>
      simp only [hidle, hidle', Bool.not_false, if_true]
      exact .inr ⟨hidle, hidle', hnotified⟩
    | some frame =>
      simp only
      split
      · by_cases hfirst : flagsCheck item.flags flagsFrameFirstFragStart = true
        · have hnew : fillpFrameRxNewFrag h.curFrame item frame = fillpFrameRxNewFrag h'.curFrame item frame := by
            simp only [fillpFrameRxNewFrag, hfirst, if_true]
            rfl
          rw [hnew, hnotified]
          exact .inl rfl
        · simp only [fillpFrameRxNewFrag, if_neg hfirst, hidle, hidle', Bool.not_false, if_true]
          exact .inr ⟨hidle, hidle', hnotified⟩
      · simp only [hidle, hidle', Bool.not_false, if_true]
        exact .inr ⟨hidle, hidle', hnotified⟩

/-- The item of a reception. -/
def FrameEvent.received : FrameEvent → Option FillpPcbItem
  | .rx item => some item
  | .tx .. => none

/-- While a frame is received, no fragment of a video frame is begun. -/
def QuietTx (h : FillpFrameHandle) : FrameEvent → Prop
  | .rx _ => True
  | .tx item info _ firstPkt =>
    h.curFrame.rxStarted = true →
      ¬ (firstPkt = true ∧ item.frame ≠ none ∧ info.any (fun info => fillpFrameIsVideo info.frameType) = true)

instance (h : FillpFrameHandle) : ∀ e, Decidable (QuietTx h e)
  | .rx _ => .isTrue trivial
  | .tx .. => inferInstanceAs (Decidable (_ → ¬ (_ ∧ _ ≠ none ∧ _)))

/-- What is sent between frames does not change what is received. -/
theorem RxEq.tx {info : Option FrameInfo} {fragSize : UInt32} {firstPkt : Bool} (heq : RxEq h h')
    (hquiet : QuietTx h (.tx item info fragSize firstPkt)) :
    RxEq (fillpFrameTxInitItem h item info fragSize firstPkt).1 h' := by
  have hkeep : (fillpFrameTxInitItem h item info fragSize firstPkt).1 = h ∨
      h.curFrame.rxStarted = false ∧ (fillpFrameTxInitItem h item info fragSize firstPkt).1.notified = h.notified ∧
        (fillpFrameTxInitItem h item info fragSize firstPkt).1.curFrame.rxStarted = h.curFrame.rxStarted := by
    unfold fillpFrameTxInitItem
    split
    · next frame info' hframe =>
      split
      · next hvideo =>
        split
        · next hfirst =>
          refine .inr ⟨?_, rfl, rfl⟩
          have hbegun : ¬ h.curFrame.rxStarted = true := fun hstart =>
            hquiet hstart ⟨hfirst, by simp [hframe], hvideo⟩
          simpa using hbegun
        · exact .inl rfl
      · exact .inl rfl
    · exact .inl rfl
  rcases hkeep with hsame | ⟨hidle, hnotified, hstart⟩
  · rw [hsame]
    exact heq
  · rcases heq with rfl | ⟨-, hidle', hnotified'⟩
    · exact .inr ⟨hstart.trans hidle, hidle, hnotified⟩
    · exact .inr ⟨hstart.trans hidle, hidle', hnotified.trans hnotified'⟩

/-- The receiver does not see what was sent. -/
theorem rxEq_foldl {evs : List FrameEvent} (heq : RxEq h h')
    (hquiet : Run.AllSteps step QuietTx h evs) :
    RxEq (evs.foldl step h) ((evs.filterMap FrameEvent.received).foldl fillpFrameRx h') := by
  induction evs generalizing h h' with
  | nil => exact heq
  | cons e evs ih =>
    cases e with
    | rx item => exact ih heq.fillpFrameRx hquiet.2
    | tx item info fragSize firstPkt => exact ih (heq.tx hquiet.1) hquiet.2

/-- A socket gets in order the items of frames that a sender has split, with other items between the fragments, and it
    sends frames of its own, but begins no fragment while it receives a frame.  Then `rxCb` was called once for each
    frame of which all items have come. -/
theorem frames_reported_once (frames : List VideoFrame) (hchain : frames.IsChain (·.seqNum ≠ ·.seqNum))
    (hsize : ∀ f ∈ frames, f.size < 2 ^ 32) (evs : List FrameEvent) (items : List MarkedItem)
    (hitems : items <+: sendFrames fillpFrameInit frames) (hrx : evs.filterMap FrameEvent.received = items.map Prod.fst)
    (hquiet : Run.AllSteps FillpFrameHandle.step QuietTx fillpFrameInit evs) :
    (evs.foldl FillpFrameHandle.step fillpFrameInit).reports = items.filterMap Prod.snd := by
  have hall : FrameReports fillpFrameInit (sendFrames fillpFrameInit frames) :=
    reports_sendFrames (fun f _ => rfl) hchain hsize rfl
  have hreports := FrameReports.reports_eq (hall.of_prefix hitems)
  have heq := rxEq_foldl (.inl rfl) hquiet
  rw [hrx] at heq
  have hsame : (evs.foldl step fillpFrameInit).reports =
      ((items.map Prod.fst).foldl fillpFrameRx fillpFrameInit).reports := by
    rcases heq with heq | ⟨-, -, hnotified⟩
    · rw [heq]
    · exact congrArg (map FillpFrameInfo.report) hnotified
  rw [hsame, hreports]
  rfl

/-- A frame of two fragments, of which the first one comes in two items. -/
def twoFragments : VideoFrame where
  frameType := videoI
  seqNum := 70000
  init := [⟨0, 0, 0, 0, [(1000, 1), (500, 2)], [], by decide, by decide, by decide, by decide⟩]
  last := ⟨1, 0, 0, 2, [(300, 4)], [⟨20, 0, 0, 3, none⟩], by decide, by decide, by decide, by decide⟩
  isVideo := by decide
  init_bitMap := by decide
  last_bitMap := by decide

/-- The socket sends a frame before and after the reception. -/
theorem frames_reported_once_of_two :
    let sent := FrameEvent.tx ⟨100, 0, 0x200, 0, some ⟨⟨2, 9, 0, 0, 0, 2⟩, 0⟩⟩ (some ⟨2, 9, 0, 0, 0, 2⟩) 100 true
    let items := (sendFrames fillpFrameInit [twoFragments]).map Prod.fst
    ((sent :: items.map .rx ++ [sent]).foldl FillpFrameHandle.step fillpFrameInit).reports =
      [⟨70000 - 65536, videoI, 1800, 2⟩] := by
  intro sent items
  have hreports := frames_reported_once [twoFragments] (.singleton _) (by decide)
    (sent :: items.map .rx ++ [sent]) (sendFrames fillpFrameInit [twoFragments]) (prefix_refl _) (by decide +kernel)
    (by decide +kernel)
  exact hreports.trans (by decide +kernel)

/-- Between the two items of a fragment of 150 bytes the socket begins to send a frame of its own, of 10 bytes.  What is
    reported is the frame that was sent. -/
theorem frame_reported_as_sent_one :
    let frame : FrameInfo := ⟨1, 7, 0, 0, 0, 2⟩
    let items := (sockSendmsgDataToBufCache frame 150 true fillpFrameInit [100, 50]).2.map (processPcbItem · 0)
    let sent := FrameEvent.tx ⟨10, 0, 0x200, 0, some ⟨⟨2, 3, 0, 0, 0, 2⟩, 0⟩⟩ (some ⟨2, 3, 0, 0, 0, 2⟩) 10 true
    let evs := [.rx (items.getD 0 ⟨0, 0, 0, 0, none⟩), sent, .rx (items.getD 1 ⟨0, 0, 0, 0, none⟩)]
    items.length = 2 ∧ (evs.foldl FillpFrameHandle.step fillpFrameInit).reports = [⟨3, videoP, 10, 1⟩] := by
  decide +kernel

end SoftBus.Native
