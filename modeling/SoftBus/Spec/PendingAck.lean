import Mathlib
import SoftBus.ForStd.Run
import SoftBus.Native.PendingPkt

/-!
# Which acknowledgements a call hears

A call hears of its packet only while its item is in the pending list: `heard` is the last
thing that came for it between its registration and the end of its loop.  A call returns
`SOFTBUS_OK` exactly if that was an acknowledgement, whatever other calls, acknowledgements,
closed channels and clock readings come between its steps.
-/

namespace SoftBus.Native
open KeyedList PendingWorld Option
variable {phase : SyncPhase} {id' outtime : ℕ} {pending : KeyedList PendingPktInfo.key} {item : PendingPktInfo}
  {key : PendingKey} {status : PackageStatus} {call' : SyncCall} {inputs : List PendingInput}
  {input : PendingInput}

/-! ## Items belong to calls -/

/-- The phases in which a call has its item in the list. -/
def SyncPhase.listed : SyncPhase → Bool
  | .registered | .waiting _ | .evaluated _ => true
  | _ => false

/-- The phases in which a call listens. -/
def SyncPhase.listening : SyncPhase → Bool
  | .registered | .waiting _ => true
  | _ => false

theorem SyncPhase.listed_of_listening (h : phase.listening = true) : phase.listed = true := by
  cases phase with
  | registered => rfl
  | waiting outtime => rfl
  | _ => simp [SyncPhase.listening] at h

/-- Every call that is in the list has its own item there. -/
def PendingOk (w : PendingWorld) : Prop :=
  ∀ id call, w.calls.find id = some call → call.phase.listed = true →
    ∃ item, w.pending.find call.key = some item ∧ item.owner = id

section
variable {w : PendingWorld} {id : ℕ} {call : SyncCall}

theorem find_setPhase_self (hfind : w.calls.find id = some call) :
    (w.setPhase call phase).calls.find id = some { call with phase := phase } := by
  have hid : call.id = id := key_of_find hfind
  subst hid
  exact find_set_self (a := { call with phase := phase }) hfind

theorem find_setPhase_ne (hid : call.id ≠ id') : (w.setPhase call phase).calls.find id' = w.calls.find id' :=
  find_set_ne w.calls (a := { call with phase := phase }) hid.symm

theorem find_setStatus_self (hitem : w.pending.find item.key = some item) :
    (w.setStatus item status).pending.find item.key = some { item with status := status } :=
  find_set_self (l := w.pending) (a := { item with status := status }) hitem

theorem find_setStatus_ne (hkey : key ≠ item.key) (status : PackageStatus) :
    (w.setStatus item status).pending.find key = w.pending.find key :=
  find_set_ne w.pending (a := { item with status := status }) hkey

section
variable (h : PendingOk w)
include h

/-- The status of an item changes. -/
theorem PendingOk.setStatus (hitem : w.pending.find item.key = some item) :
    PendingOk (w.setStatus item status) := by
  intro id call hfind hlisted
  obtain ⟨item', hitem', howner⟩ := h id call hfind hlisted
  by_cases hkey : call.key = item.key
  · rw [hkey, hitem] at hitem'
    rw [hkey]
    exact ⟨_, find_setStatus_self hitem, some.inj hitem' ▸ howner⟩
  · exact ⟨item', (find_setStatus_ne hkey status).trans hitem', howner⟩

/-- No two calls that are in the list wait for the same packet. -/
theorem PendingOk.key_ne (hfind : w.calls.find id = some call) (hlisted : call.phase.listed = true)
    (hfind' : w.calls.find id' = some call') (hlisted' : call'.phase.listed = true)
    (hid : id' ≠ id) : call'.key ≠ call.key := by
  intro hkey
  obtain ⟨item, hitem, howner⟩ := h id call hfind hlisted
  obtain ⟨item', hitem', howner'⟩ := h id' call' hfind' hlisted'
  rw [hkey, hitem] at hitem'
  rw [← some.inj hitem'] at howner'
  exact hid (howner'.symm.trans howner)

theorem PendingOk.send (id : ℕ) (key : PendingKey) (ret : TransErr) :
    PendingOk (transProxyTransDataSendSyncMsg id key ret w) := by
  unfold transProxyTransDataSendSyncMsg
  cases hfind : w.calls.find id with
  | some call => exact h
  | none =>
    intro id' call' hfind' hlisted
    by_cases hid : id' = id
    · -- a new call is not in the list yet
      subst hid
      rw [find_push_self hfind] at hfind'
      rw [← some.inj hfind'] at hlisted
      split at hlisted
      · simp [SyncPhase.listed] at hlisted
      · simp [SyncPhase.listed] at hlisted
    · rw [find_push_ne hid] at hfind'
      exact h id' call' hfind' hlisted

end
end

theorem pendingOk_init : PendingOk .init := by
  intro id call hfind
  exact absurd hfind (by simp [init, find, empty])

/-! ## What a call hears -/

/-- The packet that a call listens for. -/
def PendingWorld.listensFor (w : PendingWorld) (id : ℕ) : Option PendingKey :=
  (w.calls.find id).bind fun call => if call.phase.listening then some call.key else none

/-- What an input tells a call. -/
def news (id : ℕ) (w : PendingWorld) : PendingInput → Option PackageStatus
  | .ack key => if w.listensFor id = some key then some .finished else none
  | .cancel type channelId =>
    (w.firstOf type channelId).bind fun item =>
      if w.listensFor id = some item.key then some .canceled else none
  | _ => none

/-- All that a call hears in a run. -/
def heard (id : ℕ) : PendingWorld → List PendingInput → List PackageStatus
  | _, [] => []
  | w, input :: inputs => (news id w input).toList ++ heard id (w.step input) inputs

theorem heard_concat (id : ℕ) (w : PendingWorld) : heard id w (inputs ++ [input]) =
      heard id w inputs ++ (news id (inputs.foldl step w) input).toList := by
  induction inputs generalizing w with
  | nil => simp [heard]
  | cons i inputs ih => rw [List.cons_append, heard, ih, heard, List.append_assoc, List.foldl_cons]

/-- What a call makes of the last thing it heard: nothing before it listens, then the status
    of its item, then its result. -/
inductive Knows (last : Option PackageStatus) (pending : KeyedList PendingPktInfo.key) :
    Option SyncCall → Prop where
  | notStarted (hlast : last = none) : Knows last pending none
  | sent (call : SyncCall) (hphase : call.phase = .sent) (hlast : last = none) :
      Knows last pending (some call)
  | listening (call : SyncCall) (item : PendingPktInfo) (hphase : call.phase.listening = true)
      (hitem : pending.find call.key = some item) (hstatus : item.status = last.getD .pending) :
      Knows last pending (some call)
  | done (call : SyncCall) (ret : TransErr)
      (hphase : call.phase = .evaluated ret ∨ call.phase = .returned ret)
      (hret : ret = .ok ↔ last = some .finished) : Knows last pending (some call)

section
variable {w : PendingWorld} {id : ℕ} {call : SyncCall} {last : Option PackageStatus}

/-- Changes of other items do not matter to a call. -/
theorem Knows.congr {pending' : KeyedList PendingPktInfo.key} {call? : Option SyncCall} (h : Knows last pending call?)
    (hkeep : ∀ call, call? = some call → call.phase.listening = true → pending'.find call.key = pending.find call.key) :
    Knows last pending' call? := by
  cases h with
  | notStarted hlast => exact .notStarted hlast
  | sent call hphase hlast => exact .sent call hphase hlast
  | listening call item hphase hitem hstatus =>
    exact .listening call item hphase (by rw [hkeep call rfl hphase, hitem]) hstatus
  | done call ret hphase hret => exact .done call ret hphase hret

/-- A step of one call leaves the others as they are. -/
structure Apart (id : ℕ) (w w' : PendingWorld) : Prop where
  calls : w'.calls.find id = w.calls.find id
  pending : ∀ call, w.calls.find id = some call → call.phase.listening = true →
    w'.pending.find call.key = w.pending.find call.key

theorem Apart.refl (id : ℕ) (w : PendingWorld) : Apart id w w := ⟨rfl, fun _ _ _ => rfl⟩

theorem Apart.knows {w' : PendingWorld} (h : Apart id w w')
    (hknows : Knows last w.pending (w.calls.find id)) : Knows last w'.pending (w'.calls.find id) := by
  rw [h.calls]
  exact hknows.congr h.pending

/-! ## The steps of a call -/

/-- A step of a call does nothing, or it moves on and changes at most the item of its packet.  The item of another
    call stays: the call that takes an item out has its own there, and one that adds an item finds none. -/
inductive CallStep (w : PendingWorld) (call : SyncCall) : PendingWorld → Prop where
  | stay : CallStep w call w
  | move (pending : KeyedList PendingPktInfo.key) (phase : SyncPhase)
      (hother : ∀ key, key ≠ call.key → pending.find key = w.pending.find key)
      (hmine : call.phase.listed = true ∨ w.pending.find call.key = none ∨ pending = w.pending)
      (hlisted : phase.listed = true → call.phase.listed = true ∧ pending = w.pending ∨
        ∃ item, pending.find call.key = some item ∧ item.owner = call.id)
      (hknows : ∀ last, Knows last w.pending (some call) → Knows last pending (some { call with phase := phase })) :
      CallStep w call ({ w with pending := pending }.setPhase call phase)

/-- The call moves on, and the list stays as it is. -/
theorem CallStep.setPhase (hlisted : phase.listed = true → call.phase.listed = true)
    (hknows : ∀ last, Knows last w.pending (some call) → Knows last w.pending (some { call with phase := phase })) :
    CallStep w call (w.setPhase call phase) :=
  .move w.pending phase (fun _ _ => rfl) (.inr (.inr rfl)) (fun h => .inl ⟨hlisted h, rfl⟩) hknows

theorem callStep_register (call : SyncCall) : CallStep w call (procRegister w call) := by
  unfold procRegister
  split
  · next hsent =>
    have hlast : ∀ last, Knows last w.pending (some call) → last = none := by
      intro last h
      cases h with
      | sent _ _ hlast => exact hlast
      | listening _ _ hphase => simp [hsent, SyncPhase.listening] at hphase
      | done _ _ hphase => simp [hsent] at hphase
    unfold procPendingPacketInsert
    cases hpending : w.pending.find call.key with
    | some item =>
      refine .setPhase (by simp [SyncPhase.listed]) fun last h => ?_
      exact .done _ .alreadyPending (.inr rfl) (by simp [hlast last h])
    | none =>
      let item : PendingPktInfo := ⟨call.type, call.channelId, call.seq, .pending, call.id⟩
      have hcons : (w.pending.cons item).find call.key = some item := find_cons_self (a := item) hpending
      refine .move _ _ (fun key hkey => find_cons_ne hkey) (.inr (.inl hpending)) (fun _ => .inr ⟨item, hcons, rfl⟩) ?_
      intro last h
      exact .listening _ item rfl hcons (by rw [hlast last h]; rfl)
  · exact .stay

theorem callStep_startWait (call : SyncCall) : CallStep w call (procStartWait w call) := by
  unfold procStartWait
  split
  · next hregistered =>
    refine .setPhase (fun _ => by rw [hregistered]; rfl) fun last h => ?_
    cases h with
    | sent _ hphase _ => simp [hregistered] at hphase
    | listening _ item _ hitem hstatus => exact .listening _ item rfl hitem hstatus
    | done _ _ hphase => simp [hregistered] at hphase
  · exact .stay

/-- The loop ends with `SOFTBUS_OK` exactly if the item is finished. -/
theorem procPendingPacketWait_ok {now : ℕ} {ret : TransErr}
    (hret : procPendingPacketWait now outtime status = some ret) : ret = .ok ↔ status = .finished := by
  unfold procPendingPacketWait at hret
  split at hret
  · simp at hret
  · split at hret
    · next hne => simp [← some.inj hret, hne]
    · next hfinished => simp [← some.inj hret, not_not.1 hfinished]

theorem callStep_check (call : SyncCall) : CallStep w call (procCheck w call) := by
  unfold procCheck
  split
  · next outtime item hwaiting hitem =>
    split
    · exact .stay
    · next ret hret =>
      refine .setPhase (fun _ => by rw [hwaiting]; rfl) fun last h => .done _ ret (.inl rfl) ?_
      rw [procPendingPacketWait_ok hret]
      cases h with
      | sent _ hphase _ => simp [hwaiting] at hphase
      | listening _ item' _ hitem' hstatus =>
        rw [← some.inj (hitem.symm.trans hitem')] at hstatus
        rw [hstatus]
        cases last with
        | none => simp
        | some status => simp
      | done _ _ hphase => simp [hwaiting] at hphase
  · exact .stay

theorem callStep_remove (call : SyncCall) : CallStep w call (procRemove w call) := by
  unfold procRemove
  split
  · next ret hevaluated =>
    refine .move _ _ (fun key hkey => find_erase_ne hkey) (.inl (by rw [hevaluated]; rfl))
      (by simp [SyncPhase.listed]) fun last h => ?_
    cases h with
    | sent _ hphase _ => simp [hevaluated] at hphase
    | listening _ item hphase => simp [hevaluated, SyncPhase.listening] at hphase
    | done _ ret' hphase hret =>
      obtain rfl : ret = ret' := by simpa [hevaluated] using hphase
      exact .done _ ret (.inr rfl) hret
  · exact .stay

/-- The items of the other calls stay. -/
theorem PendingOk.find_other (h : PendingOk w) (hfind : w.calls.find id = some call)
    (hother : ∀ key, key ≠ call.key → pending.find key = w.pending.find key)
    (hmine : call.phase.listed = true ∨ w.pending.find call.key = none ∨ pending = w.pending)
    (hfind' : w.calls.find id' = some call') (hlisted : call'.phase.listed = true)
    (hne : id' ≠ id) : pending.find call'.key = w.pending.find call'.key := by
  rcases hmine with hmine | hfree | rfl
  · exact hother _ (h.key_ne hfind hmine hfind' hlisted hne)
  · apply hother
    intro hkey
    obtain ⟨item, hitem, -⟩ := h id' call' hfind' hlisted
    rw [hkey, hfree] at hitem
    simp at hitem
  · rfl

theorem PendingOk.callStep {w' : PendingWorld} (h : PendingOk w) (hfind : w.calls.find id = some call)
    (hstep : CallStep w call w') : PendingOk w' := by
  cases hstep with
  | stay => exact h
  | move pending phase hother hmine hlisted _ =>
    have hid : call.id = id := key_of_find hfind
    intro id' call' hfind' hlisted'
    by_cases hne : id' = id
    · subst hne
      rw [find_setPhase_self (w := { w with pending := pending }) hfind] at hfind'
      obtain rfl := some.inj hfind'
      rcases hlisted hlisted' with ⟨hold, rfl⟩ | hown
      · exact h _ call hfind hold
      · exact hid ▸ hown
    · rw [find_setPhase_ne (by rw [hid]; exact Ne.symm hne)] at hfind'
      obtain ⟨item, hitem, howner⟩ := h id' call' hfind' hlisted'
      exact ⟨item, (h.find_other hfind hother hmine hfind' hlisted' hne).trans hitem, howner⟩

theorem CallStep.apart {w' : PendingWorld} (hstep : CallStep w call w') (hok : PendingOk w)
    (hfind : w.calls.find id' = some call) (hne : id' ≠ id) : Apart id w w' := by
  cases hstep with
  | stay => exact .refl id w
  | move pending phase hother hmine _ _ =>
    refine ⟨find_setPhase_ne ?_, fun call' hfind' hlistening => ?_⟩
    · rwa [show call.id = id' from key_of_find hfind]
    · exact hok.find_other hfind hother hmine hfind' (SyncPhase.listed_of_listening hlistening) (Ne.symm hne)

theorem CallStep.knows {w' : PendingWorld} (hstep : CallStep w call w') (hfind : w.calls.find id = some call)
    (h : Knows last w.pending (some call)) : Knows last w'.pending (w'.calls.find id) := by
  cases hstep with
  | stay => rwa [hfind]
  | move pending phase _ _ _ hknows =>
    rw [find_setPhase_self (w := { w with pending := pending }) hfind]
    exact hknows last h

theorem key_of_firstOf {type : PendingType} {channelId : Int32} (h : w.firstOf type channelId = some item) :
    w.pending.find item.key = some item :=
  find_of_mem (List.mem_of_find?_eq_some h)

theorem PendingOk.step (h : PendingOk w) : PendingOk (w.step input) := by
  have hwith : ∀ id (f : SyncCall → PendingWorld),
      (∀ call, CallStep w call (f call)) → PendingOk (w.withCall id f) := by
    intro id f hf
    unfold withCall
    split
    · exact h
    · next call hfind => exact h.callStep hfind (hf call)
  cases input with
  | send id key ret => exact h.send id key ret
  | register id => exact hwith id _ callStep_register
  | startWait id => exact hwith id _ callStep_startWait
  | check id => exact hwith id _ callStep_check
  | remove id => exact hwith id _ callStep_remove
  | ack key =>
    rw [PendingWorld.step, setPendingPacket]
    split
    · next item hitem =>
      have hkey : item.key = key := key_of_find hitem
      exact h.setStatus (hkey ▸ hitem)
    · exact h
  | cancel type channelId =>
    rw [PendingWorld.step, delPendingPacket]
    split
    · next item hitem => exact h.setStatus (key_of_firstOf hitem)
    · exact h
  | advance d => exact h

theorem PendingOk.run (h : PendingOk w) : PendingOk (inputs.foldl PendingWorld.step w) := by
  induction inputs generalizing w with
  | nil => exact h
  | cons input inputs ih => exact ih h.step

/-! ## Acknowledgements and closed channels -/

theorem listensFor_of_find (hfind : w.calls.find id = some call) :
    w.listensFor id = if call.phase.listening then some call.key else none := by
  rw [listensFor, hfind]
  rfl

/-- The item that a call listens for is in the list. -/
theorem PendingOk.find_of_listensFor (hok : PendingOk w) (h : w.listensFor id = some key) :
    ∃ item, w.pending.find key = some item := by
  cases hfind : w.calls.find id with
  | none => simp [listensFor, hfind] at h
  | some call =>
    rw [listensFor_of_find hfind] at h
    split at h
    · next hlistening =>
      obtain ⟨item, hitem, -⟩ := hok id call hfind (SyncPhase.listed_of_listening hlistening)
      exact ⟨item, some.inj h ▸ hitem⟩
    · simp at h

/-- An item of the list changes its status: the call that listens for it hears that. -/
theorem knows_setStatus (hitem : w.pending.find item.key = some item)
    (h : Knows last w.pending (w.calls.find id)) :
    Knows ((if w.listensFor id = some item.key then some status else none).or last)
      (w.setStatus item status).pending (w.calls.find id) := by
  generalize hcall : w.calls.find id = call? at h
  cases h with
  | notStarted hlast =>
    have hlistens : w.listensFor id = none := by rw [listensFor, hcall]; rfl
    rw [hlistens, if_neg (by simp)]
    exact .notStarted hlast
  | sent call hphase hlast =>
    rw [listensFor_of_find hcall, hphase, if_neg (by simp [SyncPhase.listening])]
    exact .sent call hphase hlast
  | listening call item' hphase hitem' hstatus =>
    rw [listensFor_of_find hcall, if_pos hphase]
    by_cases hkey : call.key = item.key
    · rw [hkey, if_pos rfl]
      refine .listening call { item with status := status } hphase ?_ rfl
      rw [hkey]
      exact find_setStatus_self hitem
    · rw [if_neg (by simpa using hkey)]
      exact .listening call item' hphase ((find_setStatus_ne hkey status).trans hitem') hstatus
  | done call ret hphase hret =>
    have hlistening : call.phase.listening = false := by
      rcases hphase with hphase | hphase
      · rw [hphase]
        rfl
      · rw [hphase]
        rfl
    rw [listensFor_of_find hcall, hlistening, if_neg (by simp)]
    exact .done call ret hphase hret

theorem knows_send (ret : TransErr) (h : Knows last w.pending (w.calls.find id)) :
    Knows last (transProxyTransDataSendSyncMsg id' key ret w).pending
      ((transProxyTransDataSendSyncMsg id' key ret w).calls.find id) := by
  unfold transProxyTransDataSendSyncMsg
  cases hfind : w.calls.find id' with
  | some call => exact h
  | none =>
    by_cases hid : id = id'
    · subst hid
      have hlast : last = none := by
        rw [hfind] at h
        cases h with
        | notStarted hlast => exact hlast
      rw [find_push_self hfind]
      by_cases hret : ret = .ok
      · exact .sent _ (if_pos hret) hlast
      · exact .done _ ret (.inr (if_neg hret)) (by simp [hret, hlast])
    · rwa [find_push_ne hid]

/-- What a call knows after a step is what it heard last. -/
theorem knows_step (hok : PendingOk w) (h : Knows last w.pending (w.calls.find id))
    (input : PendingInput) :
    Knows ((news id w input).or last) (w.step input).pending ((w.step input).calls.find id) := by
  -- a step of a call: of this one, or of another
  have hwith : ∀ id' (f : SyncCall → PendingWorld), (∀ call, CallStep w call (f call)) →
      Knows last (w.withCall id' f).pending ((w.withCall id' f).calls.find id) := by
    intro id' f hf
    unfold withCall
    split
    · exact h
    · next call hfind =>
      by_cases hid : id' = id
      · subst hid
        exact (hf call).knows hfind (hfind ▸ h)
      · exact ((hf call).apart hok hfind hid).knows h
  cases input with
  | send id' key ret => exact knows_send ret h
  | register id' => exact hwith id' _ callStep_register
  | startWait id' => exact hwith id' _ callStep_startWait
  | check id' => exact hwith id' _ callStep_check
  | remove id' => exact hwith id' _ callStep_remove
  | ack key =>
    rw [step, setPendingPacket, news]
    cases hitem : w.pending.find key with
    | some item =>
      obtain rfl : item.key = key := key_of_find hitem
      exact knows_setStatus hitem h
    | none =>
      have hlistens : w.listensFor id ≠ some key := by
        intro hlistens
        obtain ⟨item, hfound⟩ := hok.find_of_listensFor hlistens
        simp [hitem] at hfound
      rw [if_neg hlistens]
      exact h
  | cancel type channelId =>
    rw [step, delPendingPacket, news]
    cases hitem : w.firstOf type channelId with
    | some item => exact knows_setStatus (key_of_firstOf hitem) h
    | none => exact h
  | advance d => exact h

end

/-! ## Runs -/

/-- What a call knows at the end of a run is the last thing it heard in it. -/
theorem knows_run (id : ℕ) (inputs : List PendingInput) :
    Knows (heard id .init inputs).getLast? (inputs.foldl step .init).pending
      ((inputs.foldl step .init).calls.find id) := by
  induction inputs using List.reverseRecOn with
  | nil => exact .notStarted rfl
  | append_singleton inputs input ih =>
    have hstep := knows_step pendingOk_init.run ih input
    rw [List.foldl_append, heard_concat, List.foldl_cons]
    cases hnews : news id (inputs.foldl step .init) input with
    | none => simpa [hnews] using hstep
    | some status => simpa [hnews] using hstep

/-- A call that waits returns when its time is over. -/
theorem returns_after_outtime {w : PendingWorld} (hok : PendingOk w) {id : ℕ} {call : SyncCall}
    (hfind : w.calls.find id = some call) (hphase : call.phase = .waiting outtime) :
    ∃ ret, ([.advance outtime, .check id, .remove id].foldl step w).calls.find id =
      some { call with phase := .returned ret } := by
  obtain ⟨item, hitem, -⟩ := hok id call hfind (by rw [hphase]; rfl)
  obtain ⟨ret, hret⟩ : ∃ ret, procPendingPacketWait (w.now + outtime) outtime item.status = some ret := by
    unfold procPendingPacketWait
    rw [if_neg fun h => by omega]
    split
    · exact ⟨_, rfl⟩
    · exact ⟨_, rfl⟩
  let w₁ : PendingWorld := { w with now := w.now + outtime }
  have hcheck : w₁.step (.check id) = w₁.setPhase call (.evaluated ret) := by
    simp only [step, withCall, procCheck, w₁, hfind, hphase, hitem, hret]
  have hself : (w₁.setPhase call (.evaluated ret)).calls.find id =
      some { call with phase := .evaluated ret } := find_setPhase_self hfind
  refine ⟨ret, ?_⟩
  change ((w₁.step (.check id)).step (.remove id)).calls.find id = _
  rw [hcheck]
  simp only [step, withCall, procRemove, hself]
  exact find_setPhase_self (w := { w₁.setPhase call (.evaluated ret) with pending := _ }) hself

/-- In every run, a call that has returned has returned `SOFTBUS_OK` exactly if the last thing
    that came for it while its item was in the list and its loop was not over was an
    acknowledgement; and a call that waits does return. -/
theorem returned_ok_iff_heard_ack (inputs : List PendingInput) (id : ℕ) :
    (∀ call ret, (inputs.foldl PendingWorld.step .init).calls.find id = some call →
      call.phase = .returned ret → (ret = .ok ↔ (heard id .init inputs).getLast? = some .finished)) ∧
    ∀ call outtime, (inputs.foldl PendingWorld.step .init).calls.find id = some call →
      call.phase = .waiting outtime →
        ∃ ret, ((inputs ++ [PendingInput.advance outtime, .check id, .remove id]).foldl PendingWorld.step
          .init).calls.find id = some { call with phase := .returned ret } := by
  constructor
  · intro call ret hfind hphase
    have hknows := knows_run id inputs
    rw [hfind] at hknows
    cases hknows with
    | sent _ hsent => simp [hphase] at hsent
    | listening _ _ hlistening => simp [hphase, SyncPhase.listening] at hlistening
    | done _ ret' hdone hret =>
      obtain rfl : ret = ret' := by simpa [hphase] using hdone
      exact hret
  · intro call outtime hfind hphase
    rw [List.foldl_append]
    exact returns_after_outtime pendingOk_init.run hfind hphase

/-- The acknowledgement comes after the packet is sent, but before the call has put its item
    into the list: the call waits for two seconds and returns `SOFTBUS_TIMOUT`. -/
theorem early_ack_lost :
    (([.send 1 (.proxy, 7, 5) .ok, .ack (.proxy, 7, 5), .register 1, .startWait 1,
      .advance pendingTimeOut, .check 1, .remove 1] : List PendingInput).foldl PendingWorld.step
        .init).calls.find 1 = some ⟨1, .proxy, 7, 5, .returned .timout⟩ := by
  decide +kernel

/-- The acknowledgement comes when the item is in the list, before the clock is read. -/
def registeredAck : List PendingInput :=
  [.send 1 (.proxy, 7, 5) .ok, .register 1, .ack (.proxy, 7, 5), .startWait 1, .check 1, .remove 1]

theorem registered_ack_heard :
    (registeredAck.foldl PendingWorld.step .init).calls.find 1 = some ⟨1, .proxy, 7, 5, .returned .ok⟩ ∧
      (heard 1 .init registeredAck).getLast? = some .finished :=
  have hfind : (registeredAck.foldl step .init).calls.find 1 =
      some ⟨1, .proxy, 7, 5, .returned .ok⟩ := by decide +kernel
  ⟨hfind, ((returned_ok_iff_heard_ack registeredAck 1).1 _ .ok hfind rfl).1 rfl⟩

/-! ## Closed channels -/

end SoftBus.Native
