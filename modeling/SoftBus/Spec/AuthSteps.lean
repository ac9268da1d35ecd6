import SoftBus.ForStd.Evolve
import SoftBus.Native.AuthManager

/-!
# What a step does to the authentications

Most of what the handlers of the authentication manager do is *calm*: authentications go or
change fields that decide nothing, keys go, and what is reported is neither a key nor a
pass (`Calm`).  A change of status keeps the ids of the authentications, too (`Keeps`).
-/

namespace SoftBus.Native
open List
variable {a b c auth : AuthManager} {w : AuthWorld} {f : AuthManager → AuthManager} {e : AuthEvent}
  {authId : Int64} {requestId connectionId : UInt32}

/-! ## Authentications that stay -/

/-- `b` is the authentication `a` at a later time, with the same id. -/
structure AuthManager.SameIds (a b : AuthManager) : Prop where
  uid : b.uid = a.uid
  authId : b.authId = a.authId

theorem AuthManager.SameIds.refl (a : AuthManager) : a.SameIds a := ⟨rfl, rfl⟩

theorem AuthManager.SameIds.trans (hab : a.SameIds b) (hbc : b.SameIds c) : a.SameIds c :=
  ⟨hbc.uid.trans hab.uid, hbc.authId.trans hab.authId⟩

theorem AuthManager.SameIds.seq (h : a.SameIds b) : b.seq = a.seq := by
  rw [AuthManager.seq, AuthManager.seq, h.authId]

/-- The status is the same, too. -/
structure AuthManager.Same (a b : AuthManager) : Prop extends AuthManager.SameIds a b where
  status : b.status = a.status

theorem AuthManager.Same.refl (a : AuthManager) : a.Same a := ⟨.refl a, rfl⟩

theorem AuthManager.Same.trans (hab : a.Same b) (hbc : b.Same c) : a.Same c :=
  ⟨hab.toSameIds.trans hbc.toSameIds, hbc.status.trans hab.status⟩

/-- Neither a key nor a pass. -/
def AuthEvent.IsCalm : AuthEvent → Prop
  | .keyReturned _ | .verifyPass _ => False
  | _ => True

namespace AuthWorld

/-- The keys that are deleted on behalf of an authentication have its number. -/
def ClearsOwn (w : AuthWorld) (new : List AuthEvent) : Prop :=
  ∀ uid key, AuthEvent.cleared uid key ∈ new →
    key ∈ w.keys ∧ ∃ auth ∈ w.managers, auth.uid = uid ∧ key.seq = auth.seq

/-- Authentications go or change, but not their ids; keys go. -/
structure Keeps (w w' : AuthWorld) : Prop where
  managers : w.managers.Evolves AuthManager.SameIds w'.managers
  keys : ∀ key ∈ w'.keys, key ∈ w.keys
  nextUid : w'.nextUid = w.nextUid
  events : ∃ new, w'.events = w.events ++ new ∧ w.ClearsOwn new

/-- Nothing that decides about an authentication changes. -/
structure Calm (w w' : AuthWorld) : Prop where
  managers : w.managers.Evolves AuthManager.Same w'.managers
  keys : ∀ key ∈ w'.keys, key ∈ w.keys
  generated : w'.generated = w.generated
  nextUid : w'.nextUid = w.nextUid
  events : ∃ new, w'.events = w.events ++ new ∧ w.ClearsOwn new ∧ ∀ e ∈ new, e.IsCalm

theorem ClearsOwn.nil (w : AuthWorld) : w.ClearsOwn [] := fun _ _ hbad => absurd hbad List.not_mem_nil

theorem ClearsOwn.append {w' : AuthWorld} {new new' : List AuthEvent}
    (hmanagers : w.managers.Evolves AuthManager.SameIds w'.managers) (hkeys : ∀ key ∈ w'.keys, key ∈ w.keys)
    (h : w.ClearsOwn new) (h' : w'.ClearsOwn new') :
    w.ClearsOwn (new ++ new') := by
  intro uid key hmem
  cases mem_append.1 hmem with
  | inl hmem => exact h uid key hmem
  | inr hmem =>
    obtain ⟨hkey, b, hb, huid, hseq⟩ := h' uid key hmem
    obtain ⟨a, ha, hab⟩ := hmanagers.exists_of_mem hb
    exact ⟨hkeys key hkey, a, ha, hab.uid.symm.trans huid, hseq.trans hab.seq⟩

namespace Calm
variable {w' w'' : AuthWorld}

/-- Only the authentications change. -/
theorem of_managers (hmanagers : w.managers.Evolves AuthManager.Same w'.managers)
    (hkeys : w'.keys = w.keys) (hgenerated : w'.generated = w.generated)
    (hnext : w'.nextUid = w.nextUid) (hevents : w'.events = w.events) : Calm w w' := by
  refine ⟨hmanagers, fun key hkey => hkeys ▸ hkey, hgenerated, hnext, [], ?_, .nil w, ?_⟩
  · rw [hevents, append_nil]
  · exact fun _ hbad => absurd hbad not_mem_nil

theorem refl (w : AuthWorld) : Calm w w := .of_managers (.refl .refl) rfl rfl rfl rfl

theorem managers_ids (h : Calm w w') : w.managers.Evolves AuthManager.SameIds w'.managers :=
  h.managers.mono fun _ _ hab => hab.toSameIds

theorem keeps (h : Calm w w') : Keeps w w' where
  managers := h.managers_ids
  keys := h.keys
  nextUid := h.nextUid
  events := by
    obtain ⟨new, heq, hnew, _⟩ := h.events
    exact ⟨new, heq, hnew⟩

theorem trans (h : Calm w w') (h' : Calm w' w'') : Calm w w'' where
  managers := h.managers.trans (fun _ _ _ => .trans) h'.managers
  keys := fun key hkey => h.keys key (h'.keys key hkey)
  generated := h'.generated.trans h.generated
  nextUid := h'.nextUid.trans h.nextUid
  events := by
    obtain ⟨new, heq, hnew, hcalm⟩ := h.events
    obtain ⟨new', heq', hnew', hcalm'⟩ := h'.events
    refine ⟨new ++ new', by rw [heq', heq, append_assoc],
      hnew.append h.managers_ids h.keys hnew', fun e he => ?_⟩
    cases mem_append.1 he with
    | inl he => exact hcalm e he
    | inr he => exact hcalm' e he

end Calm

/-! ## Single changes -/

theorem managers_modify :
    (w.modify auth f).managers = w.managers.map fun a => if a.uid = auth.uid then f a else a := by
  simp [managers, modify]

/-- The record that is changed. -/
theorem mem_modify (ha : a ∈ w.managers) (huid : a.uid = auth.uid) : f a ∈ (w.modify auth f).managers := by
  rw [managers_modify]
  exact mem_map.2 ⟨a, ha, if_pos huid⟩

theorem managers_deleteAuth : (w.deleteAuth auth).managers = w.managers.filter (·.uid ≠ auth.uid) := by
  simp [managers, deleteAuth]

theorem evolves_modify {R : AuthManager → AuthManager → Prop} (hrefl : ∀ a, R a a)
    (hf : ∀ a, R a (f a)) : w.managers.Evolves R (w.modify auth f).managers := by
  rw [managers_modify]
  apply List.Evolves.of_map
  intro a
  split
  · exact hf a
  · exact hrefl a

theorem calm_modify (hf : ∀ a : AuthManager, a.Same (f a)) : Calm w (w.modify auth f) :=
  .of_managers (evolves_modify .refl hf) rfl rfl rfl rfl

theorem keeps_modify (auth : AuthManager) (hf : ∀ a : AuthManager, a.SameIds (f a)) (w : AuthWorld) :
    Keeps w (w.modify auth f) :=
  ⟨evolves_modify .refl hf, fun _ h => h, rfl, [], (append_nil _).symm, .nil w⟩

theorem calm_deleteAuth : Calm w (w.deleteAuth auth) := by
  refine .of_managers ?_ rfl rfl rfl rfl
  rw [managers_deleteAuth]
  exact .of_sublist .refl filter_sublist

theorem calm_crash : Calm w w.crash := .of_managers (.refl .refl) rfl rfl rfl rfl

theorem calm_getSeq (flag : AuthSideFlag) (w : AuthWorld) : Calm w (w.getSeq flag).2 :=
  .of_managers (.refl .refl) rfl rfl rfl rfl

theorem calm_authConnId : Calm w { w with authConnId := w.authConnId + 1 } :=
  .of_managers (.refl .refl) rfl rfl rfl rfl

/-- A report that is neither a key nor a pass, and deletes no key. -/
theorem calm_emit (he : e.IsCalm) (hclears : ∀ uid key, e ≠ .cleared uid key) (w : AuthWorld) :
    Calm w (w.emit [e]) := by
  refine ⟨.refl .refl, fun _ h => h, rfl, rfl, [e], rfl, fun uid key hmem => ?_, fun e' he' => ?_⟩
  · exact absurd (mem_singleton.1 hmem).symm (hclears uid key)
  · rw [mem_singleton.1 he']
    exact he

theorem keeps_emit (hclears : ∀ uid key, e ≠ .cleared uid key) : Keeps w (w.emit [e]) := by
  refine ⟨.refl .refl, fun _ h => h, rfl, [e], rfl, fun uid key hmem => ?_⟩
  exact absurd (mem_singleton.1 hmem).symm (hclears uid key)

theorem calm_clearSessionKey (hauth : ∃ a ∈ w.managers, auth.SameIds a) : Calm w (w.clearSessionKey auth) := by
  obtain ⟨a, ha, hids⟩ := hauth
  refine ⟨.refl .refl, fun key hkey => mem_of_mem_filter hkey, rfl, rfl, _, rfl,
    fun uid key hmem => ?_, fun e he => ?_⟩
  · obtain ⟨key', hkey', heq⟩ := mem_map.1 hmem
    obtain ⟨huid, hkey⟩ := AuthEvent.cleared.inj heq
    obtain ⟨hmem', hseq⟩ := mem_filter.1 hkey'
    rw [hkey] at hmem' hseq
    exact ⟨hmem', a, ha, hids.uid.trans huid, by rw [hids.seq]; simpa using hseq⟩
  · obtain ⟨key, _, rfl⟩ := mem_map.1 he
    exact trivial

/-- The authentication that a peer starts. -/
theorem createServerAuth_cases (connectionId : UInt32) (seq : Int64) (option : ConnectOption)
    (w : AuthWorld) :
    (∃ auth : AuthManager, w.createServerAuth connectionId seq option = (some auth, w.insertServer auth) ∧
        auth.uid = w.nextUid ∧ auth.authId = seq ∧ auth.status = .waitConnectionEstablished) ∨
      w.createServerAuth connectionId seq option = (none, { w with authConnId := w.authConnId + 1 }) := by
  unfold createServerAuth
  cases option.type with
  | tcp | br | ble => exact .inl ⟨_, rfl, rfl, rfl, rfl⟩
  | _ => exact .inr rfl

/-! ## Handlers that end an authentication -/

theorem calm_callConnOpenFailed : Calm w (w.callConnOpenFailed auth) := by
  have hemit : Calm w (w.emit [.connOpenFailed auth.requestId]) := calm_emit (by trivial) (by nofun) w
  refine hemit.trans (calm_modify ?_)
  exact fun _ => ⟨⟨rfl, rfl⟩, rfl⟩

theorem calm_authHandleFail : Calm w (w.authHandleFail auth) := by
  unfold authHandleFail
  split
  · exact calm_crash
  · have hfail : Calm w (w.emit [.verifyFail auth.uid]) := calm_emit (by trivial) (by nofun) w
    split
    · exact (hfail.trans calm_callConnOpenFailed).trans calm_deleteAuth
    · exact hfail

theorem calm_authHandleLeaveLNN (authId : Int64) (w : AuthWorld) :
    Calm w (w.authHandleLeaveLNN authId) := by
  unfold authHandleLeaveLNN
  split
  · exact .refl w
  · next auth hauth =>
    -- the keys go in any case
    have hclear : Calm w (w.clearSessionKey auth) :=
      calm_clearSessionKey ⟨auth, mem_of_find?_eq_some hauth, .refl auth⟩
    split
    · exact hclear.trans calm_deleteAuth
    · split
      · exact hclear.trans (calm_emit (by trivial) (by nofun) _)
      · exact hclear.trans calm_deleteAuth

theorem calm_handleAuthTimeout (id : UInt16) : Calm w (w.handleAuthTimeout id) := by
  unfold handleAuthTimeout
  split
  · exact .refl w
  · next auth _ =>
    split
    · exact calm_crash
    · have hfail : Calm w (w.emit [.verifyFail auth.uid]) := calm_emit (by trivial) (by nofun) w
      split
      · exact hfail.trans calm_callConnOpenFailed
      · exact hfail

theorem calm_tryRemoveOldAuthManager (remoteIp : Option (List UInt8)) (auth : AuthManager)
    (w : AuthWorld) : Calm w (w.tryRemoveOldAuthManager remoteIp auth) := by
  refine .of_managers ?_ rfl rfl rfl rfl
  apply List.Evolves.of_sublist .refl
  exact filter_sublist.append filter_sublist

theorem calm_tryRemoveConnection (remoteIp : Option (List UInt8)) : Calm w (w.tryRemoveConnection remoteIp auth) := by
  have hold := calm_tryRemoveOldAuthManager remoteIp auth w
  unfold tryRemoveConnection
  split
  · exact hold.trans (calm_emit (by trivial) (by nofun) _)
  · split
    · exact hold.trans (calm_emit (by trivial) (by nofun) _)
    · exact hold

theorem calm_authOnError : Calm w (w.authOnError authId) := by
  unfold authOnError
  split
  · exact .refl w
  · exact calm_authHandleFail

theorem calm_authOnConnectFailed : Calm w (w.authOnConnectFailed requestId) := by
  unfold authOnConnectFailed
  split
  · exact .refl w
  · exact calm_authHandleFail

theorem calm_onConnectSuccessed : Calm w (w.onConnectSuccessed requestId connectionId) := by
  unfold onConnectSuccessed
  split
  · exact .refl w
  · split
    · split
      · exact (calm_emit (by trivial) (by nofun) w).trans calm_deleteAuth
      · exact (calm_emit (by trivial) (by nofun) w).trans calm_deleteAuth
    · exact calm_deleteAuth

theorem calm_onConnectFailed : Calm w (w.onConnectFailed requestId) := by
  unfold onConnectFailed
  split
  · exact .refl w
  · split
    · exact (calm_emit (by trivial) (by nofun) w).trans calm_deleteAuth
    · exact calm_deleteAuth

theorem calm_authNotifyLnnDisconn : Calm w (w.authNotifyLnnDisconn authId) := by
  unfold authNotifyLnnDisconn
  split
  · exact .refl w
  · split
    · exact calm_authHandleLeaveLNN _ w
    · split
      · exact calm_callConnOpenFailed
      · exact .refl w

theorem calm_authNotifyDisconn (fd : Int32) : Calm w (w.authNotifyDisconn fd) := by
  unfold authNotifyDisconn
  split
  · exact .refl w
  · exact calm_authNotifyLnnDisconn

theorem calm_authOnDisConnect : Calm w (w.authOnDisConnect connectionId) := by
  unfold authOnDisConnect
  split
  · exact .refl w
  · next auth hauth =>
    split
    · exact .refl w
    · have hmem : auth ∈ w.managers := mem_of_find?_eq_some hauth
      -- the callback changes the record, but not its ids
      have hcall : ∀ p : Prop, [Decidable p] → Calm w (if p then w.callConnOpenFailed auth else w) ∧
            ∃ a ∈ (if p then w.callConnOpenFailed auth else w).managers, auth.SameIds a := by
        intro p _
        split
        · exact ⟨calm_callConnOpenFailed, _, mem_modify hmem rfl, rfl, rfl⟩
        · exact ⟨.refl w, auth, hmem, .refl auth⟩
      obtain ⟨hcalm, hfound⟩ := hcall (auth.status ≠ .authPassed ∧ auth.connCb.onConnOpenFailed)
      have hclear := hcalm.trans (calm_clearSessionKey hfound)
      apply Calm.trans _ calm_deleteAuth
      split
      · exact hclear.trans calm_authNotifyLnnDisconn
      · exact hclear

theorem calm_handleReceiveAuthData (isSdk : Bool) (env : AuthEnv) : Calm w (w.handleReceiveAuthData auth isSdk env) := by
  unfold handleReceiveAuthData
  split
  · exact calm_authHandleFail
  · exact .refl w

end AuthWorld
end SoftBus.Native
