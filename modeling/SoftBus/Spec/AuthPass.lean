import SoftBus.Spec.AuthKeys

/-!
# Passing after key agreement

An authentication should pass once, and only after HiChain has returned a session key for
it.  The status of an authentication says little about this: packets of the peer set it back
after a pass, and on a Wi-Fi link the information of the peer is taken as a pass in any status.
`Ordered` is the condition on the packets and answers under which it holds; the ids must be
new as well (`FreshIds`), since a key is taken for that of another authentication otherwise.
-/

namespace SoftBus.Native
open List AuthWorld
variable {f : AuthManager → AuthManager} {w : AuthWorld} {auth : AuthManager} {input : AuthInput}
  {w₀ : AuthWorld}

theorem AuthEvent.PassSafe.of_calm {before : List AuthEvent} {e : AuthEvent} (h : e.IsCalm) :
    e.PassSafe before := by
  cases e with
  | verifyPass uid => exact h.elim
  | _ => exact trivial

namespace AuthWorld
namespace PassOk
variable {w' : AuthWorld}

theorem init (serverSide : Bool) (uniqueId : UInt64) : PassOk (.init serverSide uniqueId) where
  keys := fun _ hbad => absurd hbad not_mem_nil
  generated := fun _ hbad => absurd hbad not_mem_nil
  keyed := fun _ hbad => absurd hbad not_mem_nil
  passed := fun _ hbad => absurd hbad not_mem_nil
  uid_lt := fun _ hbad => absurd hbad not_mem_nil
  passed_lt := fun _ hbad => absurd hbad not_mem_nil
  always := Journal.always_nil

/-! ## Changes -/

section
variable (h : PassOk w)
include h

theorem calm (hcalm : Calm w w') : PassOk w' := by
  obtain ⟨new, heq, _, hnew⟩ := hcalm.events
  have hold : ∀ {e}, e ∈ w.events → e ∈ w'.events := fun he => heq ▸ mem_append_left new he
  -- passes are not among the new events
  have hpass : ∀ {uid}, .verifyPass uid ∈ w'.events → .verifyPass uid ∈ w.events := by
    intro uid he
    rw [heq] at he
    cases mem_append.1 he with
    | inl he => exact he
    | inr he => exact (hnew _ he).elim
  constructor
  · exact fun key hkey => hold (h.keys key (hcalm.keys key hkey))
  · rw [hcalm.generated]
    exact fun told htold => hold (h.generated told htold)
  · intro b hb hstatus
    obtain ⟨a, ha, hab⟩ := hcalm.managers.exists_of_mem hb
    rw [hab.uid]
    exact hold (h.keyed a ha (hab.status ▸ hstatus))
  · intro b hb he
    obtain ⟨a, ha, hab⟩ := hcalm.managers.exists_of_mem hb
    rw [hab.uid] at he
    rw [hab.status, h.passed a ha (hpass he)]
  · intro b hb
    obtain ⟨a, ha, hab⟩ := hcalm.managers.exists_of_mem hb
    rw [hab.uid, hcalm.nextUid]
    exact h.uid_lt a ha
  · intro uid he
    rw [hcalm.nextUid]
    exact h.passed_lt uid (hpass he)
  · rw [heq, Journal.always_append]
    exact ⟨h.always, .of_forall fun _ e he => .of_calm (hnew e he)⟩

/-- Fields of an authentication change that decide nothing here; the id may be one. -/
theorem modify (hf : ∀ a : AuthManager, (f a).uid = a.uid ∧ (f a).status = a.status) :
    PassOk (w.modify auth f) := by
  have hmem : ∀ b ∈ (w.modify auth f).managers, ∃ a ∈ w.managers, b.uid = a.uid ∧ b.status = a.status := by
    intro b hb
    rw [managers_modify] at hb
    obtain ⟨a, ha, rfl⟩ := mem_map.1 hb
    refine ⟨a, ha, ?_⟩
    split
    · exact hf a
    · exact ⟨rfl, rfl⟩
  refine { h with keyed := fun b hb hstatus => ?_, passed := fun b hb he => ?_, uid_lt := fun b hb => ?_ }
  · obtain ⟨a, ha, huid, hst⟩ := hmem b hb
    rw [huid]
    exact h.keyed a ha (hst ▸ hstatus)
  · obtain ⟨a, ha, huid, hst⟩ := hmem b hb
    rw [hst]
    exact h.passed a ha (huid ▸ he)
  · obtain ⟨a, ha, huid, _⟩ := hmem b hb
    rw [huid]
    exact h.uid_lt a ha

/-- An authentication that has not passed changes its status. -/
theorem setStatus (status : AuthStatus)
    (hf : ∀ a : AuthManager, (f a).uid = a.uid ∧ (f a).status = status) (hnot : .verifyPass auth.uid ∉ w.events)
    (hkey : status.isKeyed → .keyReturned auth.uid ∈ w.events) : PassOk (w.modify auth f) := by
  have hmem : ∀ b ∈ (w.modify auth f).managers,
      b.uid = auth.uid ∧ b.status = status ∧ b.uid < w.nextUid ∨ b ∈ w.managers := by
    intro b hb
    rw [managers_modify] at hb
    obtain ⟨a, ha, rfl⟩ := mem_map.1 hb
    split
    · next huid => exact .inl ⟨(hf a).1.trans huid, (hf a).2, (hf a).1.symm ▸ h.uid_lt a ha⟩
    · exact .inr ha
  refine { h with keyed := fun b hb hstatus => ?_, passed := fun b hb he => ?_, uid_lt := fun b hb => ?_ }
  · rcases hmem b hb with ⟨huid, hst, _⟩ | hold
    · rw [huid]
      exact hkey (hst ▸ hstatus)
    · exact h.keyed b hold hstatus
  · rcases hmem b hb with ⟨huid, _, _⟩ | hold
    · exact absurd (huid ▸ he) hnot
    · exact h.passed b hold he
  · rcases hmem b hb with ⟨_, _, hlt⟩ | hold
    · exact hlt
    · exact h.uid_lt b hold

/-- The pass itself. -/
theorem verifyPass (hlt : auth.uid < w.nextUid)
    (hkey : .keyReturned auth.uid ∈ w.events) (hnot : .verifyPass auth.uid ∉ w.events) :
    PassOk (w.verifyPass auth) := by
  have hstatus : PassOk (w.modify auth ({ · with status := .authPassed })) :=
    h.setStatus .authPassed (fun _ => ⟨rfl, rfl⟩) hnot nofun
  have hold : ∀ {e}, e ∈ w.events → e ∈ (w.verifyPass auth).events := mem_append_left _
  refine ⟨fun key hkey => hold (h.keys key hkey), fun told htold => hold (h.generated told htold),
    fun b hb hst => hold (hstatus.keyed b hb hst), fun b hb he => ?_, hstatus.uid_lt,
    fun uid he => ?_, Journal.always_append_singleton.2 ⟨h.always, hkey, hnot⟩⟩
  · cases mem_append.1 he with
    | inl he => exact hstatus.passed b hb he
    | inr he =>
      -- the record of the authentication that passes
      have huid : b.uid = auth.uid := by simpa using he
      change b ∈ (w.modify auth _).managers at hb
      rw [managers_modify] at hb
      obtain ⟨a, _, rfl⟩ := mem_map.1 hb
      split
      · rfl
      · next hne => rw [if_neg hne] at huid; exact absurd huid hne
  · cases mem_append.1 he with
    | inl he => exact h.passed_lt uid he
    | inr he =>
      have huid : uid = auth.uid := by simpa using he
      rw [huid]
      exact hlt

/-- A key for an authentication is returned. -/
theorem keyReturned (uid : ℕ) : PassOk (w.emit [.keyReturned uid]) := by
  have hold : ∀ {e}, e ∈ w.events → e ∈ (w.emit [.keyReturned uid]).events := mem_append_left _
  have hpass : ∀ {uid'}, .verifyPass uid' ∈ (w.emit [.keyReturned uid]).events →
      .verifyPass uid' ∈ w.events := by
    intro uid' he
    simpa [emit] using he
  exact ⟨fun key hkey => hold (h.keys key hkey), fun told htold => hold (h.generated told htold),
    fun a ha hst => hold (h.keyed a ha hst), fun a ha he => h.passed a ha (hpass he), h.uid_lt,
    fun uid' he => h.passed_lt uid' (hpass he),
    Journal.always_append_singleton.2 ⟨h.always, trivial⟩⟩

/-- A key is stored for an authentication for which one was returned. -/
theorem store (key : SessionKey) (hkey : .keyReturned key.owner ∈ w.events) :
    PassOk { w with keys := authSetLocalSessionKey key w.keys } := by
  refine { h with keys := fun key' hkey' => ?_ }
  cases mem_authSetLocalSessionKey hkey' with
  | inl hnew => rw [hnew]; exact hkey
  | inr hold => exact h.keys key' hold

/-- The network layer is told that the key of an authentication is there. -/
theorem told {uid : ℕ} (authId : Int64) (hkey : .keyReturned uid ∈ w.events) :
    PassOk { w with generated := w.generated ++ [(uid, authId)] } := by
  refine { h with generated := fun told htold => ?_ }
  cases mem_append.1 htold with
  | inl htold => exact h.generated told htold
  | inr htold =>
    rw [mem_singleton.1 htold]
    exact hkey

/-- A new authentication. -/
theorem insert (hmanagers : ∀ a ∈ w'.managers, a = auth ∨ a ∈ w.managers)
    (huid : auth.uid = w.nextUid) (hstatus : auth.status.isKeyed = false)
    (hkeys : w'.keys = w.keys) (hgenerated : w'.generated = w.generated)
    (hevents : w'.events = w.events) (hnext : w'.nextUid = w.nextUid + 1) : PassOk w' := by
  constructor
  · rw [hkeys, hevents]
    exact h.keys
  · rw [hgenerated, hevents]
    exact h.generated
  · intro a ha hst
    rw [hevents]
    cases hmanagers a ha with
    | inl hnew => rw [hnew, hstatus] at hst; exact absurd hst Bool.false_ne_true
    | inr hold => exact h.keyed a hold hst
  · intro a ha he
    rw [hevents] at he
    cases hmanagers a ha with
    | inl hnew =>
      -- the number has not been used before
      rw [hnew, huid] at he
      exact absurd (h.passed_lt _ he) (Nat.lt_irrefl _)
    | inr hold => exact h.passed a hold he
  · intro a ha
    rw [hnext]
    cases hmanagers a ha with
    | inl hnew => rw [hnew, huid]; exact Nat.lt_succ_self _
    | inr hold => exact Nat.lt_succ_of_lt (h.uid_lt a hold)
  · intro uid he
    rw [hevents] at he
    rw [hnext]
    exact Nat.lt_succ_of_lt (h.passed_lt uid he)
  · rw [hevents]
    exact h.always

end
end PassOk

/-! ## Steps -/

/-- Keys are returned for authentications that are there. -/
def ReturnedLt (w : AuthWorld) : Prop := ∀ uid, .keyReturned uid ∈ w.events → uid < w.nextUid

theorem ReturnedLt.of_moves (h₀ : w₀.ReturnedLt) (h : Moves True w₀ w) : w.ReturnedLt := by
  induction h with
  | start => exact h₀
  | calm _ hcalm ih =>
    obtain ⟨new, heq, _, hnew⟩ := hcalm.events
    intro uid he
    rw [heq] at he
    rw [hcalm.nextUid]
    cases mem_append.1 he with
    | inl he => exact ih uid he
    | inr he => exact (hnew _ he).elim
  | pass _ _ ih =>
    intro uid he
    cases mem_append.1 he with
    | inl he => exact ih uid he
    | inr he => exact absurd (mem_singleton.1 he) nofun
  | returned _ uid hlt ih =>
    intro uid' he
    cases mem_append.1 he with
    | inl he => exact ih uid' he
    | inr he =>
      rw [AuthEvent.keyReturned.inj (mem_singleton.1 he)]
      exact hlt trivial
  | insert _ _ _ _ hevents hnext _ _ _ ih =>
    intro uid he
    rw [hevents] at he
    rw [hnext]
    exact Nat.lt_succ_of_lt (ih uid he)
  | status | store | told | untold | rename => assumption

/-- The moves report a pass after a key, and once. -/
theorem PassOk.of_moves (h₀ : PassOk w₀) (hlt₀ : w₀.ReturnedLt) (h : Moves True w₀ w) : PassOk w := by
  induction h with
  | start => exact h₀
  | calm _ hcalm ih => exact ih.calm hcalm
  | status _ status hf hstrict ih =>
    exact ih.setStatus status (fun a => ⟨(hf a).1.uid, (hf a).2⟩) (hstrict trivial).1 (hstrict trivial).2
  | pass hmoves hcan ih =>
    obtain ⟨hkey, hnot⟩ := hcan trivial
    exact ih.verifyPass (hlt₀.of_moves hmoves _ hkey) hkey hnot
  | returned _ uid _ ih => exact ih.keyReturned uid
  | store _ _ key _ _ howner hkey ih => exact ih.store key (by rw [howner]; exact hkey)
  | told _ _ authId hkey ih => exact ih.told authId (hkey trivial)
  | untold _ n ih =>
    exact ⟨ih.keys, fun told hmem => ih.generated told (mem_of_mem_eraseIdx hmem), ih.keyed, ih.passed,
      ih.uid_lt, ih.passed_lt, ih.always⟩
  | rename _ _ ih => exact ih.modify fun _ => ⟨rfl, rfl⟩
  | insert _ hmanagers hkeys hgenerated hevents hnext huid hstatus _ ih =>
    exact ih.insert hmanagers huid hstatus hkeys hgenerated hevents hnext

end AuthWorld

/-! ## Runs -/

/-- In every run in which ids are new and packets and answers come in order, an authentication
    passes only after a session key was returned for it, and at most once. -/
theorem verify_pass_after_key (serverSide : Bool) (uniqueId : UInt64) (inputs : List AuthInput)
    (hsteps : Run.AllSteps AuthWorld.step (fun w input => w.FreshIds input ∧ w.Ordered input)
      (.init serverSide uniqueId) inputs) :
    ∀ before uid after, (inputs.foldl AuthWorld.step (.init serverSide uniqueId)).events =
          before ++ .verifyPass uid :: after →
        .keyReturned uid ∈ before ∧ .verifyPass uid ∉ before := by
  have h := hsteps.foldl_inv (P := fun w => w.IdsOk ∧ w.PassOk ∧ w.ReturnedLt)
    (fun w input h hok => by
      have hmoves : Moves True w (w.step input) := moves_step hok.1 fun _ => ⟨h.1, h.2.1, hok.2⟩
      exact ⟨h.1.of_moves hmoves, h.2.1.of_moves h.2.2 hmoves, h.2.2.of_moves hmoves⟩)
    ⟨.init serverSide uniqueId, .init serverSide uniqueId, fun _ hbad => absurd hbad not_mem_nil⟩
  exact fun before uid after heq => h.2.1.always before (.verifyPass uid) after heq

/-- Information of a peer that comes on a socket. -/
def infoOnSocket (fd : Int32) : AuthInput := .ipData fd ⟨.authConnection, 0, 0⟩ [9] goodAuthEnv

/-- A client on a Wi-Fi link passes when the peer sends its information, without any key, and
    it passes again when the peer does so again. -/
theorem verify_pass_without_key :
    ([.verifyDevice ⟨.tcp, [1], 6000, lnnProtocolIp⟩ 1 (some 5) true, .socketOut 5 true goodAuthEnv,
        infoOnSocket 5, infoOnSocket 5].foldl AuthWorld.step (.init true 0)).events =
      [.recvSyncDeviceInfo 0 [9], .verifyPass 0, .recvSyncDeviceInfo 0 [9], .verifyPass 0] := by
  decide +kernel

/-- A server on a BR connection: the peer sends its id, the key is returned, the local
    information is sent, the one of the peer and then its acknowledgement are received. -/
theorem verify_pass_on_br :
    let inputs : List AuthInput := [authByPeer 1 4, keyForPeer 4, .syncDeviceInfo 0 goodAuthEnv,
      .data 1 4 ⟨.sync, false, 4⟩ [9] none goodAuthEnv, .data 1 4 ⟨.closeAck, false, 4⟩ [9] none goodAuthEnv]
    let w : AuthWorld := inputs.foldl AuthWorld.step (.init true 0)
    .verifyPass 0 ∈ w.events ∧ ∀ before uid after, w.events = before ++ .verifyPass uid :: after →
        .keyReturned uid ∈ before ∧ .verifyPass uid ∉ before := by
  intro inputs w
  exact ⟨by decide +kernel, verify_pass_after_key true 0 inputs (by decide +kernel)⟩

end SoftBus.Native
