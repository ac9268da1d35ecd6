import Mathlib
import SoftBus.Native.SeqVerification
import SoftBus.ForStd.Serial
import SoftBus.ForStd.Run

/-!
# The sequence window in terms of distances

The code decides by the signs of `minSeq`, `maxSeq` and `recvSeq` which of four
functions looks at a packet.  All four compute the same thing, once a number is
named by its distance from `minSeq` on the circle of 2^32 numbers.  `check` says
what that is and `isPassSeqCheck_eq_check` that the code computes it on every
window of width at most 60.

The distances also show where the code goes wrong.  The bias check
`recvSeq - minSeq >= MAX_SEQ_BIAS` is a signed comparison, and a packet between
`minSeq + 2^31` and `maxSeq + 2^31` makes its left side negative while
`recvSeq - maxSeq` is still positive (`biasWraps`).
-/

namespace SoftBus.Native
open SeqVerifyInfo Int32
open Int32 (dist)
variable {info : SeqVerifyInfo} {r : Int32} {a b : Int32}
open Run (AllSteps allSteps_iff_forall_pre)

namespace SeqVerifyInfo

variable (info)

/-- The number of packets from `minSeq` up to `maxSeq`, exclusive. -/
def width : Nat := dist info.minSeq info.maxSeq

/-- The packet at the lower edge arrives; an empty window moves as a whole. -/
def atMin : SeqCheck :=
  ⟨true, { info with
    minSeq := info.minSeq + 1
    maxSeq := if info.width = 0 then info.minSeq + 1 else info.maxSeq }, []⟩

/-- A packet at or above `maxSeq` arrives and stretches the window. -/
def overMax (recvSeq : Int32) : SeqCheck :=
  let seqOffset : UInt32 := (recvSeq - info.maxSeq + 1).toUInt32
  ⟨true, { info with
    maxSeq := recvSeq + 1
    recvBitmap := (info.recvBitmap <<< seqOffset.toUInt64) ||| ((1 : UInt64) <<< 1) },
    [seqOffset, 1]⟩

/-- The bias check compares a wrapped difference: `recvSeq` counts as ahead of
    `maxSeq` and as behind `minSeq` at once. -/
def biasWraps (recvSeq : Int32) : Bool :=
  0 ≤ recvSeq - info.maxSeq ∧ recvSeq - info.minSeq < 0 ∧ isDifferentSign recvSeq info.minSeq

/-- The check of a packet, by its distance from `minSeq`. -/
def check (recvSeq : Int32) : SeqCheck :=
  if dist info.minSeq recvSeq = 0 then info.atMin
  else if dist info.minSeq recvSeq < info.width then isPassDuplicateCheck info recvSeq
  else if dist info.minSeq recvSeq < 60 ∨ info.biasWraps recvSeq then info.overMax recvSeq
  else info.reject

end SeqVerifyInfo

private theorem toInt_zero : (0 : Int32).toInt = 0 := rfl

theorem isDifferentSign_iff :
    isDifferentSign a b = true ↔ (0 ≤ a.toInt ∧ b.toInt < 0) ∨ (a.toInt < 0 ∧ 0 ≤ b.toInt) := by
  simp only [isDifferentSign, ge_iff_le, le_iff_toInt_le, lt_iff_toInt_lt, toInt_zero]
  split <;> simp <;> omega

/-- Both guards of the over-max check, as comparisons of signed differences. -/
private theorem isPassOverMaxCheck_eq : isPassOverMaxCheck info r =
      if (r - info.maxSeq).toInt < 0 ∨ 60 ≤ (r - info.minSeq).toInt then info.reject else info.overMax r := by
  have h60 : (60 : Int32).toInt = 60 := rfl
  simp only [isPassOverMaxCheck, maxSeqBias, lt_iff_toInt_lt, ge_iff_le,
    le_iff_toInt_le, overMax, h60, toInt_zero]
  split_ifs <;> first | rfl | omega

/-- The packets for which the bias check wraps are those of a band of `width` numbers
    half the circle ahead of `minSeq`. -/
theorem biasWraps_iff (hw : info.width ≤ 60) (hle : info.width ≤ dist info.minSeq r) :
    info.biasWraps r = true ↔ 2 ^ 31 ≤ dist info.minSeq r ∧ dist info.minSeq r < 2 ^ 31 + info.width ∧
      (0 ≤ r.toInt ∧ info.minSeq.toInt < 0 ∨ r.toInt < 0 ∧ 0 ≤ info.minSeq.toInt) := by
  have hadd := dist_add_dist info.minSeq info.maxSeq r
  have hmax := toInt_sub_eq info.maxSeq r
  have hmin := toInt_sub_eq info.minSeq r
  have hlt := dist_lt info.maxSeq r
  have hwd : info.width = dist info.minSeq info.maxSeq := rfl
  simp only [biasWraps, decide_eq_true_eq, le_iff_toInt_le,
    lt_iff_toInt_lt, toInt_zero, isDifferentSign_iff]
  constructor
  · rintro ⟨hpos, hneg, hsign⟩
    exact ⟨by omega, by omega, hsign⟩
  · rintro ⟨hlow, hhigh, hsign⟩
    exact ⟨by omega, by omega, hsign⟩

/-! ## The branches of `check` -/

theorem check_minSeq : info.check info.minSeq = info.atMin := by
  simp [check]

theorem check_inside (h0 : dist info.minSeq r ≠ 0) (h : dist info.minSeq r < info.width) :
    info.check r = isPassDuplicateCheck info r := by
  rw [check, if_neg h0, if_pos h]

theorem check_beyond (hw : info.width ≤ 60) (h : 60 ≤ dist info.minSeq r) (hb : info.biasWraps r = false) :
    info.check r = info.reject := by
  rw [check, if_neg (by omega), if_neg (by omega), if_neg (by simp [hb]; omega)]

/-- The over-max check is right for every packet at or above `maxSeq`, provided that the
    caller sends it the whole band in which its bias check wraps. -/
private theorem isPassOverMaxCheck_eq_check (hw : info.width ≤ 60) (hle : info.width ≤ dist info.minSeq r)
    (hne : dist info.minSeq r ≠ 0)
    (hs : 2 ^ 31 ≤ dist info.minSeq r → dist info.minSeq r < 2 ^ 31 + info.width → 0 ≤ r.toInt ∧ info.minSeq.toInt < 0 ∨ r.toInt < 0 ∧ 0 ≤ info.minSeq.toInt) :
    isPassOverMaxCheck info r = info.check r := by
  have hb := biasWraps_iff hw hle
  have hadd := dist_add_dist info.minSeq info.maxSeq r
  have hmax := toInt_sub_eq info.maxSeq r
  have hmin := toInt_sub_eq info.minSeq r
  have hlt := dist_lt info.maxSeq r
  have hwd : info.width = dist info.minSeq info.maxSeq := rfl
  rw [isPassOverMaxCheck_eq, check, if_neg hne,
    if_neg (show ¬ dist info.minSeq r < info.width by omega)]
  by_cases hband : 2 ^ 31 ≤ dist info.minSeq r ∧ dist info.minSeq r < 2 ^ 31 + info.width
  · rw [if_neg (by omega), if_pos (.inr (hb.2 ⟨hband.1, hband.2, hs hband.1 hband.2⟩))]
  · have hnb : info.biasWraps r = false :=
      Bool.eq_false_iff.2 fun h => hband ⟨(hb.1 h).1, (hb.1 h).2.1⟩
    simp only [hnb, Bool.false_eq_true, or_false]
    split_ifs <;> first | rfl | omega

/-- Behind the window there is nothing to accept. -/
private theorem check_behind (hw : info.width ≤ 60) (h : 2 ^ 31 ≤ dist info.minSeq r)
    (hb : 2 ^ 31 + info.width ≤ dist info.minSeq r ∨ ¬ (0 ≤ r.toInt ∧ info.minSeq.toInt < 0 ∨ r.toInt < 0 ∧ 0 ≤ info.minSeq.toInt)) :
    info.check r = info.reject := by
  apply check_beyond hw (by omega)
  rw [Bool.eq_false_iff]
  intro hwrap
  obtain ⟨_, hlt, hsign⟩ := (biasWraps_iff hw (by omega)).1 hwrap
  rcases hb with hb | hb
  · omega
  · exact hb hsign

/-! ## The four paths of the code -/

/-- The signed values of a window and a packet by their distances from `minSeq`: all that
    the case analysis of the paths needs. -/
private theorem toInt_facts (info : SeqVerifyInfo) (r : Int32) :
    (r.toInt = info.minSeq.toInt + dist info.minSeq r ∨
      r.toInt = info.minSeq.toInt + dist info.minSeq r - 2 ^ 32) ∧
    (info.maxSeq.toInt = info.minSeq.toInt + info.width ∨
      info.maxSeq.toInt = info.minSeq.toInt + info.width - 2 ^ 32) ∧
    dist info.minSeq r < 2 ^ 32 ∧
    (-2 ^ 31 ≤ info.minSeq.toInt ∧ info.minSeq.toInt < 2 ^ 31) ∧
    (-2 ^ 31 ≤ info.maxSeq.toInt ∧ info.maxSeq.toInt < 2 ^ 31) ∧
    (-2 ^ 31 ≤ r.toInt ∧ r.toInt < 2 ^ 31) :=
  ⟨toInt_eq_add_dist _ _, toInt_eq_add_dist _ _, dist_lt _ _,
    ⟨info.minSeq.le_toInt, info.minSeq.toInt_lt⟩, ⟨info.maxSeq.le_toInt, info.maxSeq.toInt_lt⟩,
    ⟨r.le_toInt, r.toInt_lt⟩⟩

private theorem isPassNormalCheck_eq_check (h : info.minSeq = info.maxSeq) :
    isPassNormalCheck info r = info.check r := by
  have hfacts := toInt_facts info r
  have hw : info.width = 0 := dist_eq_zero.2 h.symm
  rw [isPassNormalCheck]
  split
  · next heq => rw [heq, check_minSeq, atMin, if_pos hw]
  · next hne =>
    have hne' : dist info.minSeq r ≠ 0 := fun h => hne (dist_eq_zero.1 h)
    split
    · next hsame =>
      have hsame' : ¬ isDifferentSign r info.minSeq = true := by simpa using hsame
      rw [isDifferentSign_iff] at hsame'
      split
      · exact isPassOverMaxCheck_eq_check (by omega) (by omega) hne' (by omega)
      · next hle =>
        rw [gt_iff_lt, lt_iff_toInt_lt] at hle
        rw [check_behind] <;> omega
    · exact isPassOverMaxCheck_eq_check (by omega) (by omega) hne' (by omega)

private theorem isPassAllRangeCheck_eq_check (hw : info.width ≤ 60) (hlt : info.minSeq < info.maxSeq)
    (hsame : ¬ (0 ≤ r.toInt ∧ info.minSeq.toInt < 0 ∨ r.toInt < 0 ∧ 0 ≤ info.minSeq.toInt)) :
    isPassAllRangeCheck info r = info.check r := by
  have hfacts := toInt_facts info r
  rw [lt_iff_toInt_lt] at hlt
  have hw0 : info.width ≠ 0 := by omega
  rw [isPassAllRangeCheck]
  split
  · next heq => rw [heq, check_minSeq, atMin, if_neg hw0]
  · next hne =>
    have hne' : dist info.minSeq r ≠ 0 := fun h => hne (dist_eq_zero.1 h)
    simp only [gt_iff_lt, lt_iff_toInt_lt]
    split_ifs
    · exact (check_inside hne' (by omega)).symm
    · exact isPassOverMaxCheck_eq_check hw (by omega) hne' (by omega)
    · rw [check_behind] <;> omega

section
variable (r : Int32) (hw : info.width ≤ 60)
include hw

private theorem isPassNoflipDisorderCheck_eq_check (hlt : info.minSeq < info.maxSeq) (hsame : ¬ isDifferentSign info.minSeq info.maxSeq = true) :
    isPassNoflipDisorderCheck info r = info.check r := by
  have hfacts := toInt_facts info r
  have hall := @isPassAllRangeCheck_eq_check info r hw hlt
  rw [isDifferentSign_iff] at hsame
  simp only [isPassNoflipDisorderCheck, ge_iff_le, le_iff_toInt_le, lt_iff_toInt_lt, toInt_zero]
  split_ifs
  · exact hall (by omega)
  · exact isPassOverMaxCheck_eq_check hw (by omega) (by omega) (by omega)
  · exact hall (by omega)
  · exact isPassOverMaxCheck_eq_check hw (by omega) (by omega) (by omega)
  · omega

private theorem isPassFlipPositiveCheck_eq_check (hlt : info.minSeq < info.maxSeq)
    (hsign : isDifferentSign info.minSeq info.maxSeq = true) :
    isPassFlipPositiveCheck info r = info.check r := by
  have hfacts := toInt_facts info r
  rw [lt_iff_toInt_lt] at hlt
  rw [isDifferentSign_iff] at hsign
  simp only [isPassFlipPositiveCheck, ge_iff_le, gt_iff_lt, le_iff_toInt_le,
    lt_iff_toInt_lt, toInt_zero]
  split_ifs with hpos hin heq
  · exact (check_inside (by omega) (by omega)).symm
  · exact isPassOverMaxCheck_eq_check hw (by omega) (by omega) (by omega)
  · rw [heq, check_minSeq, atMin, if_neg (by omega)]
  · exact (check_inside (by omega) (by omega)).symm
  · rw [← toInt_inj] at heq
    rw [check_behind] <;> omega

private theorem isPassFlipNegativeCheck_eq_check (hgt : info.minSeq > info.maxSeq) :
    isPassFlipNegativeCheck info r = info.check r := by
  have hfacts := toInt_facts info r
  rw [gt_iff_lt, lt_iff_toInt_lt] at hgt
  simp only [isPassFlipNegativeCheck, ge_iff_le, gt_iff_lt, le_iff_toInt_le,
    lt_iff_toInt_lt, toInt_zero]
  split_ifs with hpos heq hin
  · rw [heq, check_minSeq, atMin, if_neg (by omega)]
  · exact (check_inside (by omega) (by omega)).symm
  · rw [← toInt_inj] at heq
    rw [check_behind] <;> omega
  · exact (check_inside (by omega) (by omega)).symm
  · exact isPassOverMaxCheck_eq_check hw (by omega) (by omega) (by omega)

/-- On a window of width at most 60 the code computes `check`, whatever the signs. -/
theorem isPassSeqCheck_eq_check : isPassSeqCheck info r = info.check r := by
  simp only [isPassSeqCheck]
  split_ifs with heq hnoflip hneg hpos
  · exact isPassNormalCheck_eq_check heq
  · exact isPassNoflipDisorderCheck_eq_check r hw hnoflip.1 (by simpa using hnoflip.2)
  · exact isPassFlipNegativeCheck_eq_check r hw hneg.1
  · exact isPassFlipPositiveCheck_eq_check r hw hpos.1 hpos.2
  · -- `minSeq > maxSeq` with equal signs would be a window of more than 60 packets
    have hfacts := toInt_facts info r
    rw [← toInt_inj] at heq
    simp only [lt_iff_toInt_lt, gt_iff_lt, isDifferentSign_iff, Bool.not_eq_true',
      Bool.eq_false_iff, ne_eq] at hnoflip hneg hpos
    omega

end

/-! ## The width of the window over a run -/

theorem width_atMin : info.atMin.info.width = info.width - 1 := by
  by_cases h : info.width = 0
  · simp only [atMin, if_pos h]
    simp [width] at h ⊢
    omega
  · simp only [atMin, if_neg h]
    exact dist_add_one_left _ _ h

theorem width_isPassDuplicateCheck : (isPassDuplicateCheck info r).info.width = info.width := by
  simp only [isPassDuplicateCheck]
  split <;> rfl

theorem width_overMax (h : dist info.minSeq r + 1 < 2 ^ 32) :
    (info.overMax r).info.width = dist info.minSeq r + 1 :=
  dist_add_one_right _ _ h

/-- A step whose bias check does not wrap keeps the window within 60 packets. -/
theorem width_check_le (hw : info.width ≤ 60) (hb : info.biasWraps r = false) : (info.check r).info.width ≤ 60 := by
  simp only [check, hb, Bool.false_eq_true, or_false]
  split_ifs with h0 hin h60
  · rw [width_atMin]; omega
  · rw [width_isPassDuplicateCheck]; exact hw
  · rw [width_overMax (by omega)]; omega
  · exact hw

/-- A step whose bias check wraps stretches the window over half the circle. -/
theorem lt_width_check (hw : info.width ≤ 60) (hb : info.biasWraps r = true) :
    2 ^ 31 < (info.check r).info.width := by
  have hle : info.width ≤ dist info.minSeq r := by
    have hadd := dist_add_dist info.minSeq info.maxSeq r
    have hmax := toInt_sub_eq info.maxSeq r
    have hwd : info.width = dist info.minSeq info.maxSeq := rfl
    simp only [biasWraps, decide_eq_true_eq, le_iff_toInt_le, toInt_zero] at hb
    omega
  obtain ⟨hlow, hhigh, -⟩ := (biasWraps_iff hw hle).1 hb
  rw [check, if_neg (by omega), if_neg (by omega), if_pos (.inr hb), width_overMax (by omega)]
  omega

/-- The shift amounts of a packet inside the window: its distance from `maxSeq`. -/
private theorem shifts_isPassDuplicateCheck {sh : UInt32} (h : sh ∈ (isPassDuplicateCheck info r).shifts) :
    sh.toNat = dist r info.maxSeq := by
  simp only [isPassDuplicateCheck] at h
  split at h <;> simp at h <;> rw [h, Int32.dist, toUInt32_sub]

/-- A step whose bias check does not wrap shifts the 64-bit bitmap by at most 63. -/
theorem shifts_check_le (hw : info.width ≤ 60) (hb : info.biasWraps r = false) :
    ∀ sh ∈ (info.check r).shifts, sh.toNat ≤ 63 := by
  have hadd := dist_add_dist info.minSeq r info.maxSeq
  have hadd' := dist_add_dist info.minSeq info.maxSeq r
  have hlt := dist_lt r info.maxSeq
  have hlt' := dist_lt info.maxSeq r
  have hwd : info.width = dist info.minSeq info.maxSeq := rfl
  intro sh hsh
  simp only [check, hb, Bool.false_eq_true, or_false] at hsh
  split_ifs at hsh with h0 hin h60
  · simp [atMin] at hsh
  · rw [shifts_isPassDuplicateCheck hsh]; omega
  · have hshift : (r - info.maxSeq + 1).toUInt32.toNat = dist info.maxSeq r + 1 := by
      rw [← dist_add_one_right _ _ (by omega), Int32.dist]
      rw [Int32.sub_eq_add_neg, Int32.sub_eq_add_neg, Int32.add_assoc, Int32.add_assoc,
        Int32.add_comm 1]
    simp only [overMax, List.mem_cons, List.not_mem_nil, or_false] at hsh
    rcases hsh with rfl | rfl
    · omega
    · decide
  · simp [reject] at hsh

/-- A run keeps the window within 60 packets and every shift within the bitmap exactly
    as long as no packet arrives for which the bias check wraps. -/
theorem window_wellFormed_iff (s : Int32) (recvs : List Int32) :
    ((∀ pre, pre <+: recvs → (seqRun (.fresh s) pre).width ≤ 60) ∧ ∀ pre r, pre ++ [r] <+: recvs →
        ∀ sh ∈ (isPassSeqCheck (seqRun (.fresh s) pre) r).shifts, sh.toNat ≤ 63) ↔
    AllSteps seqStep (fun info r => info.biasWraps r = false) (.fresh s) recvs := by
  constructor
  · rintro ⟨hwidth, -⟩
    refine allSteps_iff_forall_pre.2 fun pre r hpre => Bool.eq_false_iff.2 fun hb => ?_
    -- a step that wraps leaves a window that the first part of the property excludes
    have hw := hwidth pre (List.IsPrefix.trans (List.prefix_append _ _) hpre)
    have hw' := hwidth (pre ++ [r]) hpre
    have hlt := lt_width_check hw hb
    rw [← isPassSeqCheck_eq_check r hw] at hlt
    simp only [seqRun, List.foldl_append, List.foldl_cons, List.foldl_nil, seqStep] at hw' hlt
    omega
  · intro hsteps
    have hwidth : ∀ pre, pre <+: recvs → (seqRun (.fresh s) pre).width ≤ 60 := by
      intro pre hpre
      refine (hsteps.of_prefix hpre).foldl_inv (P := fun info => info.width ≤ 60) ?_ ?_
      · intro info r hw hb
        rw [seqStep, isPassSeqCheck_eq_check r hw]
        exact width_check_le hw hb
      · simp [width, fresh]
    refine ⟨hwidth, fun pre r hpre => ?_⟩
    have hw := hwidth pre (List.IsPrefix.trans (List.prefix_append _ _) hpre)
    rw [isPassSeqCheck_eq_check r hw]
    exact shifts_check_le hw (allSteps_iff_forall_pre.1 hsteps pre r hpre)

/-- After packet 1, packet -2147483647 passes the bias check and opens the window to
    half the circle. -/
theorem window_wellFormed_fails :
    ¬ ((∀ pre, pre <+: [1, -2147483647] → (seqRun (.fresh 0) pre).width ≤ 60) ∧
      ∀ pre r, pre ++ [r] <+: [1, -2147483647] →
        ∀ sh ∈ (isPassSeqCheck (seqRun (.fresh 0) pre) r).shifts, sh.toNat ≤ 63) := by
  rintro ⟨hwidth, -⟩
  exact absurd (hwidth [1, -2147483647] (List.prefix_refl _)) (by decide)

/-! ## Shifted windows -/

/-- All numbers of the window are `k` higher. -/
def SeqVerifyInfo.shift (k : Int32) (info : SeqVerifyInfo) : SeqVerifyInfo :=
  { info with maxSeq := info.maxSeq + k, minSeq := info.minSeq + k }

def SeqCheck.shift (k : Int32) (result : SeqCheck) : SeqCheck :=
  { result with info := result.info.shift k }

theorem sub_shift (k : Int32) : b + k - (a + k) = b - a := by grind

theorem dist_shift (k : Int32) : dist (a + k) (b + k) = dist a b := by
  unfold Int32.dist
  rw [sub_shift]

/-- A packet less than 2^30 away is not in the band in which the bias check wraps. -/
theorem biasWraps_of_near (hw : info.width ≤ 60) (hle : info.width ≤ dist info.minSeq r)
    (hlow : -2 ^ 30 < (r - info.minSeq).toInt) (hhigh : (r - info.minSeq).toInt < 2 ^ 30) :
    info.biasWraps r = false := by
  have hdist := toInt_sub_eq info.minSeq r
  rw [Bool.eq_false_iff]
  intro hb
  have hband := (biasWraps_iff hw hle).1 hb
  omega

/-- The check of a packet less than 2^30 away from `minSeq` does not depend on where the window
    is: on a shifted window it gives the same, shifted. -/
theorem isPassSeqCheck_shift (info : SeqVerifyInfo) (r k : Int32) (hw : info.width ≤ 60)
    (hlow : -2 ^ 30 < (r - info.minSeq).toInt) (hhigh : (r - info.minSeq).toInt < 2 ^ 30) :
    isPassSeqCheck (info.shift k) (r + k) = (isPassSeqCheck info r).shift k := by
  have hdist : dist (info.shift k).minSeq (r + k) = dist info.minSeq r := dist_shift k
  have hwidth : (info.shift k).width = info.width := dist_shift k
  have hsub : r + k - (info.shift k).minSeq = r - info.minSeq := sub_shift k
  rw [isPassSeqCheck_eq_check _ hw, isPassSeqCheck_eq_check _ (hwidth ▸ hw), check, check, hdist, hwidth]
  by_cases hmin : dist info.minSeq r = 0
  · -- the lower edge moves by one, and so does an empty window
    rw [if_pos hmin, if_pos hmin, atMin, atMin, hwidth]
    simp only [SeqCheck.shift, SeqVerifyInfo.shift]
    split
    · grind
    · grind
  rw [if_neg hmin, if_neg hmin]
  by_cases hin : dist info.minSeq r < info.width
  · rw [if_pos hin, if_pos hin, isPassDuplicateCheck, isPassDuplicateCheck]
    simp only [SeqVerifyInfo.shift, sub_shift]
    split
    · rfl
    · rfl
  rw [if_neg hin, if_neg hin, biasWraps_of_near hw (not_lt.1 hin) hlow hhigh,
    biasWraps_of_near (hwidth ▸ hw) (by omega) (hsub ▸ hlow) (hsub ▸ hhigh)]
  split
  · simp only [overMax, SeqCheck.shift, SeqVerifyInfo.shift, sub_shift]
    grind
  · rfl

/-- A window that is shifted across the end of the range. -/
theorem isPassSeqCheck_shift_across :
    (isPassSeqCheck ⟨-2147483647, 2147483646, 4⟩ 2147483647).pass = false ∧
      isPassSeqCheck ⟨-2147483647, 2147483646, 4⟩ 2147483647 =
        (isPassSeqCheck ⟨3, 0, 4⟩ 1).shift 2147483646 :=
  ⟨by decide, isPassSeqCheck_shift ⟨3, 0, 4⟩ 1 2147483646 (by decide) (by decide) (by decide)⟩

end SoftBus.Native
