import SoftBus.ForStd.Run
import SoftBus.Native.TimeSync

/-!
# A time synchronisation satisfies its requests

A start takes both of its values over when one of them is better than what runs, so it can worsen the
other.  It does not while each start asks for at least as much as what runs in both values, or for at
most as much in both.
-/

namespace SoftBus.Native
open List Run TimeSyncReqInfo
variable {info info' : TimeSyncReqInfo} {reqList : List TimeSyncReqInfo} {para : StartTimeSyncReq}

namespace TimeSyncReqInfo

/-- What runs is good enough for the request. -/
def Meets (info : TimeSyncReqInfo) (req : StartTimeSyncReq) : Prop :=
  req.accuracy ≤ info.curAccuracy ∧ info.curPeriod ≤ req.period

def Satisfies (info : TimeSyncReqInfo) : Prop := ∀ req ∈ info.startReqList, info.Meets req

variable (h : info.Satisfies)
include h

theorem Satisfies.removeStartTimeSyncReq (pkgName : String) :
    (info.removeStartTimeSyncReq pkgName).Satisfies :=
  fun req hreq => h req (mem_of_mem_eraseP hreq)

theorem Satisfies.start (hpara : info.Meets para) (env : TimeSyncEnv) (isStart : Bool) :
    (info.start env isStart para).2.Satisfies := by
  rw [TimeSyncReqInfo.start]
  cases hup : info.tryUpdateStartTimeSyncReq env.createReq para with
  | none => exact h
  | some info' =>
    -- a request of the list is an old one or the new one
    have h' : info'.Satisfies := by
      rw [tryUpdateStartTimeSyncReq] at hup
      split at hup
      · split at hup <;> cases hup
        · intro req hreq
          obtain hreq | ⟨_, -, rfl⟩ := mem_of_mem_modifyFirst hreq
          · exact h req hreq
          · exact hpara
        · exact h
      · split at hup <;> cases hup
        exact forall_mem_cons.2 ⟨hpara, h⟩
    dsimp only
    split
    · exact h'.removeStartTimeSyncReq _
    · exact h'

theorem Satisfies.tryUpdateTimeSyncReq (hup : info.tryUpdateTimeSyncReq = some info') :
    info'.Satisfies := by
  have hfold : ∀ (l : List StartTimeSyncReq) (cur : Int × Int),
      let r := l.foldl (fun cur item => (max cur.1 item.accuracy, min cur.2 item.period)) cur
      (cur.1 ≤ r.1 ∧ r.2 ≤ cur.2) ∧ ∀ req ∈ l, req.accuracy ≤ r.1 ∧ r.2 ≤ req.period := by
    intro l
    induction l with
    | nil => simp
    | cons item l ih =>
      intro cur
      obtain ⟨hcur, hl⟩ := ih (max cur.1 item.accuracy, min cur.2 item.period)
      simp only [max_le_iff, le_min_iff] at hcur
      exact ⟨⟨hcur.1.1, hcur.2.1⟩, forall_mem_cons.2 ⟨⟨hcur.1.2, hcur.2.2⟩, hl⟩⟩
  simp only [TimeSyncReqInfo.tryUpdateTimeSyncReq] at hup
  split at hup
  · cases hup
  · split at hup <;> cases hup
    · exact (hfold _ _).2
    · exact h

end TimeSyncReqInfo

/-- A start for what runs asks for at least as much in both values, or for at most as much. -/
def Comparable (reqList : List TimeSyncReqInfo) : TimeSyncMessage → Prop
  | .start _ target para => ∀ info ∈ reqList.find? (·.targetNetworkId = target),
    (info.curAccuracy ≤ para.accuracy ∧ para.period ≤ info.curPeriod) ∨ info.Meets para
  | _ => True

theorem satisfies_timeSyncMessageHandler (h : ∀ info ∈ reqList, info.Satisfies) {msg : TimeSyncMessage}
    (hmsg : Comparable reqList msg) : ∀ info ∈ timeSyncMessageHandler reqList msg, info.Satisfies := by
  have hmodify : ∀ {target : String} {new : TimeSyncReqInfo}, new.Satisfies →
      ∀ info ∈ reqList.modifyFirst (·.targetNetworkId = target) fun _ => new, info.Satisfies := by
    intro target new hnew info hinfo
    obtain hold | ⟨_, -, rfl⟩ := mem_of_mem_modifyFirst hinfo
    · exact h info hold
    · exact hnew
  cases msg with
  | start env target para =>
    rw [timeSyncMessageHandler]
    cases hfind : reqList.find? (·.targetNetworkId = target) with
    | none =>
      have hnew : (TimeSyncReqInfo.start ⟨target, [], para.accuracy, para.period⟩ env true para).2.Satisfies :=
        Satisfies.start (by simp [Satisfies]) ⟨le_rfl, le_rfl⟩ env true
      dsimp only
      split
      · exact forall_mem_cons.2 ⟨hnew, h⟩
      · exact h
    | some info =>
      have hinfo := h info (mem_of_find?_eq_some hfind)
      have hcmp := hmsg info hfind
      -- what runs then meets the start, and all that it met before
      have hup : (info.tryUpdateTimeSyncReqInfo para.accuracy para.period).2.Satisfies ∧
          (info.tryUpdateTimeSyncReqInfo para.accuracy para.period).2.Meets para := by
        rw [tryUpdateTimeSyncReqInfo]
        simp only [Satisfies, Meets] at hinfo hcmp ⊢
        split
        · exact ⟨fun req hreq => by have := hinfo req hreq; dsimp only; omega, le_rfl, le_rfl⟩
        · exact ⟨hinfo, by dsimp only; omega⟩
      exact hmodify (hup.1.start hup.2 env _)
  | stop target pkgName =>
    rw [timeSyncMessageHandler]
    split
    · exact h
    · next info hfind =>
      have hinfo := (h info (mem_of_find?_eq_some hfind)).removeStartTimeSyncReq pkgName
      split
      · next hup => exact hmodify (hinfo.tryUpdateTimeSyncReq hup)
      · exact fun i hi => h i (mem_of_mem_eraseP hi)
  | complete networkId failed =>
    rw [timeSyncMessageHandler]
    split
    · exact fun i hi => h i (mem_of_mem_eraseP hi)
    · exact h
  | removeAll => simp [timeSyncMessageHandler]

/-- Each synchronisation has at least the accuracy and at most the period of every request for it. -/
theorem satisfies_of_comparable (msgs : List TimeSyncMessage)
    (h : AllSteps timeSyncMessageHandler Comparable [] msgs) :
    ∀ info ∈ msgs.foldl timeSyncMessageHandler [], ∀ req ∈ info.startReqList,
      req.accuracy ≤ info.curAccuracy ∧ info.curPeriod ≤ req.period :=
  h.foldl_inv (P := fun reqList => ∀ info ∈ reqList, info.Satisfies)
    (fun _ _ hs hmsg => satisfies_timeSyncMessageHandler hs hmsg) (by simp)

instance : DecidableRel Comparable := fun reqList msg => by
  unfold Comparable Meets
  induction msg using TimeSyncMessage.casesOn <;> infer_instance

/-- The second package asks for more, and what it has asked for stays when it has stopped. -/
theorem satisfies_two_packages :
    let env : TimeSyncEnv := ⟨true, true, true⟩
    let msgs := [.start env "d" ⟨"a", 11, 2⟩, .start env "d" ⟨"b", 12, 1⟩, .stop "d" "b"]
    let info : TimeSyncReqInfo := ⟨"d", [⟨"a", 11, 2⟩], 12, 1⟩
    info ∈ msgs.foldl timeSyncMessageHandler [] ∧ (11 : Int) ≤ info.curAccuracy ∧ info.curPeriod ≤ 2 := by
  intro env msgs info
  exact ⟨by decide, satisfies_of_comparable msgs (by decide) info (by decide) ⟨"a", 11, 2⟩ (by decide)⟩

/-- `HIGH_ACCURACY` with `LONG_PERIOD`, then `LOW_ACCURACY` with `SHORT_PERIOD` for another package: the
    first package gets the low accuracy. -/
theorem not_satisfied :
    let env : TimeSyncEnv := ⟨true, true, true⟩
    [.start env "d" ⟨"a", 12, 2⟩, .start env "d" ⟨"b", 10, 0⟩].foldl timeSyncMessageHandler [] =
      [⟨"d", [⟨"b", 10, 0⟩, ⟨"a", 12, 2⟩], 10, 0⟩] := by
  decide

end SoftBus.Native
