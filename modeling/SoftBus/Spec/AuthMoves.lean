import SoftBus.ForStd.Journal
import SoftBus.Spec.AuthSteps

/-!
# The moves of the authentications

Every handler of the authentication manager is a sequence of few kinds of moves (`Moves`):
calm ones, changes of the status, the pass, a key that is returned and stored, what the network
layer is told, and ids that are given out.  The handlers are gone through once, here.  What
holds about keys and about passes is then shown for the moves.

An id is only given out if its number is new (`FreshIds`).  The conditions on statuses and
passes hold under `Ordered`, and only where they are asked for (`strict`): the results about
keys need none of them.
-/

namespace SoftBus.Native
open List AuthWorld
variable {f : AuthManager → AuthManager} {w : AuthWorld} {auth : AuthManager} {input : AuthInput}
  {data : List UInt8} {env : AuthEnv} {connectionId : UInt32} {requestId : UInt32}

/-- The statuses that are reached with a key. -/
def AuthStatus.isKeyed : AuthStatus → Bool
  | .inSyncProgress | .syncFinish | .waitCloseAck => true
  | _ => false

/-- A pass comes after a key for the same authentication, and it is the first one. -/
def AuthEvent.PassSafe (before : List AuthEvent) : AuthEvent → Prop
  | .verifyPass uid => .keyReturned uid ∈ before ∧ .verifyPass uid ∉ before
  | _ => True

namespace AuthWorld

/-- Numbers tell authentications apart, and the keys with the number of an authentication are
    its own. -/
structure IdsOk (w : AuthWorld) : Prop where
  distinct : ∀ a ∈ w.managers, ∀ b ∈ w.managers, a.seq = b.seq → a.uid = b.uid
  owned : ∀ a ∈ w.managers, ∀ key ∈ w.keys, key.seq = a.seq → key.owner = a.uid
  cleared : ∀ uid key, AuthEvent.cleared uid key ∈ w.events → key.owner = uid

/-- The authentication `uid` can get the id: there is no key for its number and no other
    authentication has it. -/
def FreshId (w : AuthWorld) (uid : ℕ) (authId : Int64) : Prop :=
  (∀ key ∈ w.keys, key.seq ≠ authId.toInt32) ∧ ∀ a ∈ w.managers, a.uid ≠ uid → a.seq ≠ authId.toInt32

/-- The id that an authentication gets from a packet on its socket. -/
def givenId (auth : AuthManager) (fd : Int32) (head : AuthPktHead) (w : AuthWorld) : Option Int64 :=
  if isDropped auth fd head then none
  else
    match head.module with
    | .trustEngine => if takesPeerId auth fd head then some head.seq else none
    | .timeSync | .authChannel | .authMsg =>
      if auth.authId = 0 then some (w.getSeq .server).1 else none
    | _ => none

/-- The number of an authentication is new whenever its id is given out. -/
def FreshIds (w : AuthWorld) : AuthInput → Prop
  | .verifyDevice .. | .openChannel .. => w.FreshId w.nextUid (w.getSeq .client).1
  | .openConn _ option requestId active connected _ remoteIp =>
    -- there may be two requests
    let r := w.isNeedVerifyAgain option requestId active connected remoteIp
    (r.2.nextUid ≠ w.nextUid → w.FreshId w.nextUid (w.getSeq .client).1) ∧
      (r.1 → r.2.FreshId r.2.nextUid (r.2.getSeq .client).1)
  | .addServer cfd _ => w.FreshId w.nextUid cfd.toInt64
  | .ipData fd head _ _ =>
    ∀ auth ∈ w.authGetManagerByFd fd, ∀ authId ∈ givenId auth fd head w, w.FreshId auth.uid authId
  | .data connectionId seq info _ connInfo _ =>
    w.authGetManagerByConnectionId connectionId = none ∧ w.isNewServer seq info ∧ connInfo.isSome →
      w.FreshId w.nextUid info.seq
  | _ => True

instance (w : AuthWorld) (uid : ℕ) (authId : Int64) : Decidable (w.FreshId uid authId) := by
  unfold FreshId
  infer_instance

instance (w : AuthWorld) (input : AuthInput) : Decidable (w.FreshIds input) := by
  unfold FreshIds
  cases input <;> infer_instance

/-- What is known about keys and passes. -/
structure PassOk (w : AuthWorld) : Prop where
  keys : ∀ key ∈ w.keys, .keyReturned key.owner ∈ w.events
  generated : ∀ told ∈ w.generated, .keyReturned told.1 ∈ w.events
  keyed : ∀ a ∈ w.managers, a.status.isKeyed → .keyReturned a.uid ∈ w.events
  passed : ∀ a ∈ w.managers, .verifyPass a.uid ∈ w.events → a.status = .authPassed
  uid_lt : ∀ a ∈ w.managers, a.uid < w.nextUid
  passed_lt : ∀ uid, .verifyPass uid ∈ w.events → uid < w.nextUid
  always : Journal.Always AuthEvent.PassSafe w.events

/-! ## Copies of records -/

/-- A handler works with a record that it has looked up.  This is what it knows of it. -/
structure Known (w : AuthWorld) (auth : AuthManager) : Prop where
  uid_lt : auth.uid < w.nextUid
  notPassed : auth.status ≠ .authPassed → .verifyPass auth.uid ∉ w.events
  keyed : auth.status.isKeyed → .keyReturned auth.uid ∈ w.events
  own : authIsSeqInKeyList auth.seq w.keys → .keyReturned auth.uid ∈ w.events

theorem PassOk.known (h : PassOk w) (hids : IdsOk w) (hauth : auth ∈ w.managers) : Known w auth where
  uid_lt := h.uid_lt auth hauth
  notPassed := fun hstatus he => hstatus (h.passed auth hauth he)
  keyed := h.keyed auth hauth
  own := by
    intro hin
    obtain ⟨key, hkey, hseq⟩ := any_eq_true.1 hin
    rw [← hids.owned auth hauth key hkey (of_decide_eq_true hseq)]
    exact h.keys key hkey

/-- The information of the peer is not taken before the key is there, or it is only kept. -/
def Ready (w : AuthWorld) (auth : AuthManager) : Prop :=
  auth.isWiFiLink → auth.side = .server ∧ auth.encryptInfoStatus = .initial ∧
        authIsSeqInKeyList auth.seq w.keys = false ∨
      .keyReturned auth.uid ∈ w.events ∧ .verifyPass auth.uid ∉ w.events

/-- The information of the peer on a Wi-Fi link: a client has sent its own and no pass was
    reported; a server has no key and keeps it, or has its key and has not answered. -/
def SyncExpected (w : AuthWorld) (auth : AuthManager) : Prop :=
  auth.isWiFiLink → auth.side = .client ∧ auth.status = .syncFinish ∨
      auth.side = .server ∧ auth.encryptInfoStatus = .initial ∧
        authIsSeqInKeyList auth.seq w.keys = false ∨
      auth.side = .server ∧ auth.encryptInfoStatus = .keyGenerated ∧ auth.status = .inSyncProgress

theorem SyncExpected.ready (h : SyncExpected w auth) (hknown : Known w auth) : Ready w auth := by
  intro hwifi
  rcases h hwifi with ⟨_, hstatus⟩ | hkept | ⟨_, _, hstatus⟩
  · exact .inr ⟨hknown.keyed (by rw [hstatus]; rfl), hknown.notPassed (by rw [hstatus]; nofun)⟩
  · exact .inl hkept
  · exact .inr ⟨hknown.keyed (by rw [hstatus]; rfl), hknown.notPassed (by rw [hstatus]; nofun)⟩

/-- What may come for an authentication on its connection. -/
def DataExpected (w : AuthWorld) (auth : AuthManager) : AuthDataType → Prop
  | .deviceId => auth.side = .server → auth.status ≠ .authPassed
  | .sync => SyncExpected w auth
  | .closeAck => auth.status ≠ .authPassed
  | _ => True

/-- The condition on packets and answers.  Nothing that sets the status back comes after a
    pass; the information of the peer comes as `SyncExpected` says; the network layer answers
    for the authentication whose key it was told of. -/
def Ordered (w : AuthWorld) : AuthInput → Prop
  | .connectSuccessful requestId _ _ =>
    ∀ auth ∈ w.authGetManagerByRequestId requestId, auth.status ≠ .authPassed
  | .ipData fd head _ _ =>
    ∀ auth ∈ w.authGetManagerByFd fd, isDropped auth fd head = false →
      (head.module = .trustEngine → auth.side = .server → auth.status ≠ .authPassed) ∧
        (head.module = .authConnection → SyncExpected w auth)
  | .data connectionId _ info _ _ _ =>
    ∀ auth ∈ w.authGetManagerByConnectionId connectionId, DataExpected w auth info.type
  | .sessionKeyReturned authId _ _ =>
    ∀ auth ∈ w.authGetManagerByAuthId authId, auth.status ≠ .authPassed
  | .syncDeviceInfo n _ =>
    ∀ told ∈ w.generated[n]?, ∀ auth ∈ w.authGetManagerByAuthId told.2,
      auth.uid = told.1 ∧ auth.status ≠ .authPassed
  | _ => True

instance (w : AuthWorld) (auth : AuthManager) : Decidable (SyncExpected w auth) :=
  inferInstanceAs (Decidable (_ → _))

instance (w : AuthWorld) (auth : AuthManager) (type : AuthDataType) :
    Decidable (DataExpected w auth type) := by
  unfold DataExpected
  cases type <;> infer_instance

instance (w : AuthWorld) (input : AuthInput) : Decidable (w.Ordered input) := by
  unfold Ordered
  induction input using AuthInput.casesOn <;> infer_instance

/-! ## Moves -/

/-- There is a key for the authentication, and it has not passed. -/
def CanPass (w : AuthWorld) (uid : ℕ) : Prop :=
  .keyReturned uid ∈ w.events ∧ .verifyPass uid ∉ w.events

theorem CanPass.emit {uid : ℕ} {e : AuthEvent} (h : w.CanPass uid) (he : e.IsCalm) :
    (w.emit [e]).CanPass uid := by
  refine ⟨mem_append_left _ h.1, fun hpass => ?_⟩
  cases mem_append.1 hpass with
  | inl hold => exact h.2 hold
  | inr hnew =>
    rw [← mem_singleton.1 hnew] at he
    exact he

/-- What is reached from `w₀` by moves. -/
inductive Moves (strict : Prop) (w₀ : AuthWorld) : AuthWorld → Prop where
  | start : Moves strict w₀ w₀
  | calm {w w' : AuthWorld} (h : Moves strict w₀ w) (hcalm : Calm w w') : Moves strict w₀ w'
  | status {w : AuthWorld} {auth : AuthManager} {f : AuthManager → AuthManager} (h : Moves strict w₀ w)
      (status : AuthStatus) (hf : ∀ a : AuthManager, a.SameIds (f a) ∧ (f a).status = status)
      (hstrict : strict → .verifyPass auth.uid ∉ w.events ∧
        (status.isKeyed → .keyReturned auth.uid ∈ w.events)) :
      Moves strict w₀ (w.modify auth f)
  | pass {w : AuthWorld} {auth : AuthManager} (h : Moves strict w₀ w)
      (hstrict : strict → w.CanPass auth.uid) :
      Moves strict w₀ (w.verifyPass auth)
  | returned {w : AuthWorld} (h : Moves strict w₀ w) (uid : ℕ) (hlt : strict → uid < w.nextUid) :
      Moves strict w₀ (w.emit [.keyReturned uid])
  | store {w : AuthWorld} (h : Moves strict w₀ w) (auth : AuthManager) (key : SessionKey)
      (hauth : ∃ a ∈ w.managers, a.SameIds auth) (hseq : key.seq = auth.seq)
      (howner : key.owner = auth.uid) (hkey : .keyReturned auth.uid ∈ w.events) :
      Moves strict w₀ { w with keys := authSetLocalSessionKey key w.keys }
  | told {w : AuthWorld} (h : Moves strict w₀ w) (uid : ℕ) (authId : Int64)
      (hkey : strict → .keyReturned uid ∈ w.events) :
      Moves strict w₀ { w with generated := w.generated ++ [(uid, authId)] }
  | untold {w : AuthWorld} (h : Moves strict w₀ w) (n : ℕ) :
      Moves strict w₀ { w with generated := w.generated.eraseIdx n }
  | rename {w : AuthWorld} {auth : AuthManager} {authId : Int64} (h : Moves strict w₀ w)
      (hfresh : w.FreshId auth.uid authId) :
      Moves strict w₀ (w.modify auth ({ · with authId := authId }))
  | insert {w w' : AuthWorld} {auth : AuthManager} (h : Moves strict w₀ w)
      (hmanagers : ∀ a ∈ w'.managers, a = auth ∨ a ∈ w.managers) (hkeys : w'.keys = w.keys)
      (hgenerated : w'.generated = w.generated) (hevents : w'.events = w.events)
      (hnext : w'.nextUid = w.nextUid + 1) (huid : auth.uid = w.nextUid)
      (hstatus : auth.status.isKeyed = false) (hfresh : w.FreshId auth.uid auth.authId) :
      Moves strict w₀ w'

namespace Moves
variable {strict : Prop} {w₀ : AuthWorld}

/-- A report that is neither a key nor a pass, and deletes no key. -/
theorem emit {e : AuthEvent} (h : Moves strict w₀ w) (he : e.IsCalm)
    (hclears : ∀ uid key, e ≠ .cleared uid key) : Moves strict w₀ (w.emit [e]) :=
  h.calm (calm_emit he hclears w)

section
variable (h : Moves strict w₀ w)
include h

/-- Fields of an authentication change that decide nothing. -/
theorem modify (hf : ∀ a : AuthManager, a.Same (f a)) : Moves strict w₀ (w.modify auth f) :=
  h.calm (calm_modify hf)

theorem insertClient (huid : auth.uid = w.nextUid)
    (hstatus : auth.status.isKeyed = false) (hfresh : w.FreshId auth.uid auth.authId) :
    Moves strict w₀ (w.insertClient auth) :=
  h.insert (fun _ ha => mem_cons.1 ha) rfl rfl rfl rfl huid hstatus hfresh

theorem insertServer (huid : auth.uid = w.nextUid)
    (hstatus : auth.status.isKeyed = false) (hfresh : w.FreshId auth.uid auth.authId) :
    Moves strict w₀ (w.insertServer auth) := by
  refine h.insert (fun a ha => ?_) rfl rfl rfl rfl huid hstatus hfresh
  cases mem_append.1 ha with
  | inl ha => exact .inr (mem_append_left _ ha)
  | inr ha =>
    cases ha with
    | head => exact .inl rfl
    | tail _ ha => exact .inr (mem_append_right _ ha)

/-! ## The information of the peer -/

theorem authReportSyncDeviceInfoResults (remoteIp : Option (List UInt8))
    (hready : strict → auth.isWiFiLink ∨ auth.status = .syncFinish ∨ auth.status = .waitPeerDevInfo →
      w.CanPass auth.uid) :
    Moves strict w₀ (w.authReportSyncDeviceInfoResults remoteIp auth data) := by
  unfold AuthWorld.authReportSyncDeviceInfoResults
  split
  · exact h.calm calm_crash
  · have hinfo : Moves strict w₀ (w.emit [.recvSyncDeviceInfo auth.uid data]) :=
      h.emit (by trivial) (by nofun)
    have hack : Moves strict w₀
        ((w.emit [.recvSyncDeviceInfo auth.uid data]).emit [.closeAck auth.connectionId]) :=
      hinfo.emit (by trivial) (by nofun)
    have hcan := fun hs hstatus => ((hready hs hstatus).emit (e := .recvSyncDeviceInfo auth.uid data)
      trivial).emit (e := .closeAck auth.connectionId) trivial
    split
    · next hwifi =>
      exact hinfo.pass fun hs => (hready hs (.inl hwifi)).emit trivial
    · split
      · next hstatus =>
        refine hack.status .waitCloseAck (fun _ => ⟨⟨rfl, rfl⟩, rfl⟩) fun hs => ?_
        have hcan := hcan hs (.inr (.inl hstatus))
        exact ⟨hcan.2, fun _ => hcan.1⟩
      · next hstatus =>
        refine Moves.calm ?_ (calm_tryRemoveConnection remoteIp)
        exact hack.pass fun hs => hcan hs (.inr (.inr hstatus))
      · exact hinfo

end

section
variable (h : Moves strict w₀ w) (remoteIp : Option (List UInt8))
include h

theorem reportPeerSyncDeviceInfo (hkeyed : strict → auth.status.isKeyed → .keyReturned auth.uid ∈ w.events)
    (hready : strict → auth.isWiFiLink ∨ auth.status = .syncFinish ∨ auth.status = .waitPeerDevInfo →
      w.CanPass auth.uid) : Moves strict w₀ (w.reportPeerSyncDeviceInfo remoteIp auth data) := by
  unfold AuthWorld.reportPeerSyncDeviceInfo
  split
  · next hreport =>
    have hstatus : auth.status = .inSyncProgress := by
      simp only [AuthManager.isReportKeyGeneratedInTcpServer, decide_eq_true_eq] at hreport
      exact hreport.2.2.2
    have htold := h.told auth.uid auth.authId fun hs => hkeyed hs (by rw [hstatus]; rfl)
    exact htold.modify fun _ => ⟨⟨rfl, rfl⟩, rfl⟩
  · exact h.authReportSyncDeviceInfoResults remoteIp hready

theorem authHandlePeerSyncDeviceInfo (data : List UInt8)
    (hown : strict → authIsSeqInKeyList auth.seq w.keys → .keyReturned auth.uid ∈ w.events)
    (hnot : strict → auth.status ≠ .authPassed → .verifyPass auth.uid ∉ w.events)
    (hready : strict → Ready w auth) :
    Moves strict w₀ (w.authHandlePeerSyncDeviceInfo remoteIp auth data) := by
  have hsaved : Moves strict w₀ (w.modify auth ({ · with encryptDevData := some data })) :=
    h.modify fun _ => ⟨⟨rfl, rfl⟩, rfl⟩
  unfold AuthWorld.authHandlePeerSyncDeviceInfo
  split
  · exact h
  · split
    · split
      · exact hsaved
      · next hwifi =>
        split
        · exact hsaved.modify fun _ => ⟨⟨rfl, rfl⟩, rfl⟩
        · next hinitial =>
          -- the information is not only kept, so the key is there
          have hpass : strict → w.CanPass auth.uid := by
            intro hs
            rcases hready hs (by simpa using hwifi) with ⟨hside, hstate, _⟩ | hpass
            · exact absurd ⟨hside, hstate⟩ hinitial
            · exact hpass
          exact hsaved.reportPeerSyncDeviceInfo remoteIp (fun hs _ => (hpass hs).1)
            (fun hs _ => hpass hs)
    · next hin =>
      have hkey : authIsSeqInKeyList auth.seq w.keys = true := by
        by_contra hno
        exact hin (.inl hno)
      refine h.reportPeerSyncDeviceInfo remoteIp (fun hs _ => hown hs hkey) fun hs => ?_
      rintro (hwifi | hstatus)
      · rcases hready hs hwifi with ⟨_, _, hno⟩ | hpass
        · exact absurd (hno.symm.trans hkey) Bool.false_ne_true
        · exact hpass
      · refine ⟨hown hs hkey, hnot hs ?_⟩
        rcases hstatus with hstatus | hstatus <;> rw [hstatus] <;> nofun

theorem receiveCloseAck (hknown : strict → Known w auth ∧ .verifyPass auth.uid ∉ w.events) :
    Moves strict w₀ (w.receiveCloseAck remoteIp auth) := by
  unfold AuthWorld.receiveCloseAck
  split
  · next hstatus =>
    split
    · exact h.calm calm_crash
    · refine Moves.calm (h.pass fun hs => ?_) (calm_tryRemoveConnection remoteIp)
      obtain ⟨hknown, hnot⟩ := hknown hs
      exact ⟨hknown.keyed (by rw [hstatus]; rfl), hnot⟩
  · exact h.status .waitPeerDevInfo (fun _ => ⟨⟨rfl, rfl⟩, rfl⟩) fun hs => ⟨(hknown hs).2, nofun⟩

theorem handlePeerSyncDeviceInfo {dataType : AuthDataType}
    (hready : strict → dataType = .sync → w.CanPass auth.uid) :
    Moves strict w₀ (w.handlePeerSyncDeviceInfo remoteIp auth dataType) := by
  unfold AuthWorld.handlePeerSyncDeviceInfo
  split
  · exact h
  · next hsync =>
    have hcan := fun hs => hready hs (Decidable.not_not.1 hsync)
    have hfinish : Moves strict w₀
        (w.modify { auth with status := .syncFinish } ({ · with status := .syncFinish })) :=
      h.status .syncFinish (fun _ => ⟨⟨rfl, rfl⟩, rfl⟩) fun hs => ⟨(hcan hs).2, fun _ => (hcan hs).1⟩
    dsimp only
    split
    · exact hfinish
    · refine Moves.modify ?_ fun _ => ⟨⟨rfl, rfl⟩, rfl⟩
      apply hfinish.authHandlePeerSyncDeviceInfo remoteIp
      exacts [fun hs _ => (hcan hs).1, fun hs _ => (hcan hs).2, fun hs _ => .inr (hcan hs)]

end

/-! ## Sending -/

section
variable (h : Moves strict w₀ w)
include h

theorem authPostData (authId : Int64) (dataType : AuthDataType)
    (hready : strict → dataType = .sync → ∀ auth ∈ w.authGetManagerByAuthId authId, w.CanPass auth.uid) :
    Moves strict w₀ (w.authPostData authId dataType env).2 := by
  unfold AuthWorld.authPostData
  split
  · exact h
  · next auth hauth =>
    dsimp only
    split
    · split
      · exact h.handlePeerSyncDeviceInfo env.remoteIp fun hs hsync => hready hs hsync auth hauth
      · exact (h.calm (calm_getSeq auth.side w)).handlePeerSyncDeviceInfo env.remoteIp
          fun hs hsync => hready hs hsync auth hauth
    · split
      · exact h
      · exact h.calm (calm_getSeq auth.side w)

theorem syncDeviceUuid (hnot : strict → .verifyPass auth.uid ∉ w.events) :
    Moves strict w₀ (w.syncDeviceUuid auth env) := by
  have hsync : Moves strict w₀ (w.authSyncDeviceUuid auth env).2 := by
    unfold authSyncDeviceUuid
    split
    · exact h
    · have hauth : Moves strict w₀ (w.modify auth ({ · with status := .inAuthProgress })) :=
        h.status .inAuthProgress (fun _ => ⟨⟨rfl, rfl⟩, rfl⟩) fun hs => ⟨hnot hs, nofun⟩
      apply hauth.authPostData
      -- the device id is sent, not the information
      intro _ htype
      split at htype
      · exact absurd htype nofun
      · exact absurd htype nofun
  unfold AuthWorld.syncDeviceUuid
  dsimp only
  split
  · exact hsync
  · exact hsync.calm calm_authHandleFail

theorem handleReceiveDeviceId (env : AuthEnv)
    (hnot : strict → auth.side = .server → .verifyPass auth.uid ∉ w.events) :
    Moves strict w₀ (w.handleReceiveDeviceId auth env) := by
  unfold AuthWorld.handleReceiveDeviceId
  split
  · exact h.calm calm_authHandleFail
  · split
    · next hside => exact h.syncDeviceUuid fun hs => hnot hs hside
    · split
      · exact h.calm calm_authHandleFail
      · exact h

/-- The answer of the module that a key is there. -/
theorem onKeyGenerated (hcan : strict → w.CanPass auth.uid)
    (hfound : strict → ∀ a ∈ w.managers, a.authId = auth.authId → a.uid = auth.uid) :
    Moves strict w₀ (w.onKeyGenerated auth env) := by
  unfold AuthWorld.onKeyGenerated
  split
  · exact h.calm calm_crash
  · exact h.told auth.uid auth.authId fun hs => (hcan hs).1
  · split
    · apply h.authPostData
      intro hs _ a ha
      -- the record that is found by the id is the one of the authentication
      have huid := hfound hs a (mem_of_find?_eq_some ha) (by simpa using find?_some ha)
      rw [huid]
      exact hcan hs
    · exact h

theorem handleReceiveData (info : AuthDataInfo) (data : List UInt8) (env : AuthEnv)
    (hknown : strict → Known w auth ∧ DataExpected w auth info.type) :
    Moves strict w₀ (w.handleReceiveData auth info data env) := by
  unfold AuthWorld.handleReceiveData
  split
  · next htype =>
    rw [htype] at hknown
    exact h.handleReceiveDeviceId env fun hs hside => (hknown hs).1.notPassed ((hknown hs).2 hside)
  · exact h.calm (calm_handleReceiveAuthData _ env)
  · next htype =>
    rw [htype] at hknown
    exact h.authHandlePeerSyncDeviceInfo env.remoteIp data (fun hs => (hknown hs).1.own)
      (fun hs => (hknown hs).1.notPassed) fun hs => SyncExpected.ready (hknown hs).2 (hknown hs).1
  · next htype =>
    rw [htype] at hknown
    exact h.receiveCloseAck env.remoteIp fun hs => ⟨(hknown hs).1, (hknown hs).1.notPassed (hknown hs).2⟩
  · exact h
  · exact h

/-! ## New authentications -/

theorem initClientAuthManager (moduleId : AuthVerifyModule) (option : ConnectOption)
    (requestId : UInt32) (connCb : AuthConnCallback)
    (hfresh : w.FreshId w.nextUid (w.getSeq .client).1) :
    Moves strict w₀ (w.initClientAuthManager moduleId option requestId connCb).2 :=
  (h.calm (calm_getSeq .client w)).insertClient rfl rfl hfresh

variable (option : ConnectOption)

theorem authVerifyDevice (requestId : UInt32)
    (fd : Option Int32) (connected : Bool) (hfresh : w.FreshId w.nextUid (w.getSeq .client).1) :
    Moves strict w₀ (w.authVerifyDevice option requestId fd connected) := by
  have hnew := h.initClientAuthManager .lnn option requestId .none hfresh
  unfold AuthWorld.authVerifyDevice
  split
  · split
    · exact hnew.calm (calm_authHandleLeaveLNN _ _)
    · exact hnew.modify fun _ => ⟨⟨rfl, rfl⟩, rfl⟩
  · split
    · exact hnew
    · exact hnew.calm (calm_authHandleLeaveLNN _ _)
  · split
    · exact hnew
    · exact hnew.calm (calm_authHandleLeaveLNN _ _)
  · exact hnew.calm calm_deleteAuth

theorem tryCreateConnection (connected : Bool)
    (hfresh : (w.tryCreateConnection option requestId connected).2.nextUid ≠ w.nextUid →
      w.FreshId w.nextUid (w.getSeq .client).1) :
    Moves strict w₀ (w.tryCreateConnection option requestId connected).2 := by
  unfold AuthWorld.tryCreateConnection at hfresh ⊢
  split at hfresh
  · next htype => rw [if_pos htype]; exact h
  · next htype =>
    rw [if_neg htype]
    split at hfresh
    · next hconn =>
      rw [if_pos hconn]
      exact h.initClientAuthManager _ _ _ _ (hfresh (Nat.succ_ne_self _))
    · next hconn =>
      rw [if_neg hconn]
      have hleave := calm_authHandleLeaveLNN
        (w.initClientAuthManager .lnn option requestId ⟨true, true⟩).1.authId
        (w.initClientAuthManager .lnn option requestId ⟨true, true⟩).2
      refine (h.initClientAuthManager _ _ _ _ (hfresh ?_)).calm hleave
      rw [hleave.nextUid]
      exact Nat.succ_ne_self _

theorem isNeedVerifyAgain (requestId : UInt32)
    (active connected : Bool) (remoteIp : Option (List UInt8))
    (hfresh : (w.isNeedVerifyAgain option requestId active connected remoteIp).2.nextUid ≠ w.nextUid →
      w.FreshId w.nextUid (w.getSeq .client).1) :
    Moves strict w₀ (w.isNeedVerifyAgain option requestId active connected remoteIp).2 := by
  unfold AuthWorld.isNeedVerifyAgain at hfresh ⊢
  cases hauth : w.authGetManagerByOption remoteIp option with
  | none => exact h
  | some auth =>
    rw [hauth] at hfresh
    dsimp only at hfresh ⊢
    split at hfresh
    · next hp2p => rw [if_pos hp2p]; exact h.emit (by trivial) (by nofun)
    · next hp2p =>
      rw [if_neg hp2p]
      split at hfresh
      · next hactive =>
        rw [if_pos hactive]
        exact h.tryCreateConnection option connected hfresh
      · next hactive => rw [if_neg hactive]; exact h

end
end Moves

/-! ## Steps -/

section
variable {strict : Prop}

theorem moves_authIpOnDataReceived (fd : Int32) (head : AuthPktHead)
    (hfresh : w.FreshIds (.ipData fd head data env))
    (hstrict : strict → w.IdsOk ∧ w.PassOk ∧ w.Ordered (.ipData fd head data env)) :
    Moves strict w (w.authIpOnDataReceived fd head data env) := by
  unfold authIpOnDataReceived
  split
  · exact .start
  · next auth hauth =>
    have hgiven := hfresh auth hauth
    have hmem : auth ∈ w.managers := mem_of_find?_eq_some hauth
    have hknown : strict → Known w auth := fun hs => (hstrict hs).2.1.known (hstrict hs).1 hmem
    unfold givenId at hgiven
    split
    · exact .start
    · next hdrop =>
      rw [if_neg hdrop] at hgiven
      have hordered := fun hs => (hstrict hs).2.2 auth hauth (by simpa using hdrop)
      split
      · next hmodule =>
        simp only [hmodule] at hgiven
        have hnot := fun hs hside => (hknown hs).notPassed ((hordered hs).1 hmodule hside)
        split
        · next htakes =>
          rw [if_pos htakes] at hgiven
          exact (Moves.rename .start (hgiven _ rfl)).handleReceiveDeviceId env hnot
        · exact Moves.start.handleReceiveDeviceId env hnot
      · exact Moves.start.calm (calm_handleReceiveAuthData true env)
      · next hmodule =>
        exact Moves.start.authHandlePeerSyncDeviceInfo _ data (fun hs => (hknown hs).own)
          (fun hs => (hknown hs).notPassed) fun hs => ((hordered hs).2 hmodule).ready (hknown hs)
      all_goals first
        | exact .start
        | (next hmodule =>
            -- the modules that give an id to an authentication without one
            simp only [hmodule] at hgiven
            split
            · next hzero =>
              rw [if_pos hzero] at hgiven
              exact (Moves.start.calm (calm_getSeq .server w)).rename (hgiven _ rfl)
            · exact .start)

theorem moves_authOnDataReceived (seq : Int64) (info : AuthDataInfo) (connInfo : Option ConnectOption)
    (hfresh : w.FreshIds (.data connectionId seq info data connInfo env))
    (hstrict : strict → w.IdsOk ∧ w.PassOk ∧ w.Ordered (.data connectionId seq info data connInfo env)) :
    Moves strict w (w.authOnDataReceived connectionId seq info data connInfo env) := by
  unfold authOnDataReceived
  split
  · next auth hauth =>
    refine Moves.start.handleReceiveData info data env fun hs => ?_
    obtain ⟨hids, hpass, hordered⟩ := hstrict hs
    exact ⟨hpass.known hids (mem_of_find?_eq_some hauth), hordered auth hauth⟩
  · next hnone =>
    split
    · next hnew =>
      split
      · exact .start
      · next option =>
        have hid := hfresh ⟨hnone, hnew, rfl⟩
        rcases createServerAuth_cases connectionId info.seq option w with
          ⟨auth, hcreate, huid, hseq, hstatus⟩ | hcreate
        · have hinsert : Moves strict w (w.insertServer auth) :=
            Moves.start.insertServer huid (by rw [hstatus]; rfl) (by rw [huid, hseq]; exact hid)
          -- a new authentication has not passed
          have hnot : strict → .verifyPass auth.uid ∉ w.events := by
            intro hs he
            rw [huid] at he
            exact Nat.lt_irrefl _ ((hstrict hs).2.1.passed_lt _ he)
          have htype : info.type = .deviceId := by
            simp only [isNewServer, decide_eq_true_eq] at hnew
            exact hnew.1
          rw [hcreate]
          unfold handleReceiveData
          rw [htype]
          exact hinsert.handleReceiveDeviceId env fun hs _ => hnot hs
        · rw [hcreate]
          exact Moves.start.calm calm_authConnId
    · exact .start

theorem moves_authOnSessionKeyReturned (authId : Int64) (key : KeyData)
    (hstrict : strict → w.IdsOk ∧ w.PassOk ∧ w.Ordered (.sessionKeyReturned authId key env)) :
    Moves strict w (w.authOnSessionKeyReturned authId key env) := by
  unfold authOnSessionKeyReturned
  split
  · exact .start
  · next auth hauth =>
    have hmem : auth ∈ w.managers := mem_of_find?_eq_some hauth
    have hreturned : Moves strict w (w.emit [.keyReturned auth.uid]) :=
      Moves.start.returned auth.uid fun hs => (hstrict hs).2.1.uid_lt auth hmem
    have hkey : .keyReturned auth.uid ∈ (w.emit [.keyReturned auth.uid]).events := by simp [emit]
    have hcan : strict → (w.emit [.keyReturned auth.uid]).CanPass auth.uid := by
      intro hs
      refine ⟨hkey, fun he => (hstrict hs).2.2 auth hauth ((hstrict hs).2.1.passed auth hmem ?_)⟩
      simpa [emit] using he
    dsimp only
    split
    · exact hreturned
    · have hsync : Moves strict w ((w.emit [.keyReturned auth.uid]).modify
          { auth with status := .inSyncProgress } ({ · with status := .inSyncProgress })) :=
        hreturned.status .inSyncProgress (fun _ => ⟨⟨rfl, rfl⟩, rfl⟩) fun hs => ⟨(hcan hs).2, fun _ => hkey⟩
      have hstored := fun stored hseq howner => hsync.store auth stored
        ⟨_, mem_modify hmem rfl, rfl, rfl⟩ hseq howner hkey
      have hfound : strict → ∀ a ∈ ((w.emit [.keyReturned auth.uid]).modify
          { auth with status := .inSyncProgress } ({ · with status := .inSyncProgress })).managers,
          a.authId = auth.authId → a.uid = auth.uid := by
        intro hs b hb hid
        obtain ⟨a, ha, hab⟩ := (keeps_modify { auth with status := .inSyncProgress }
          (f := ({ · with status := .inSyncProgress })) (fun _ => ⟨rfl, rfl⟩) _).managers.exists_of_mem hb
        rw [hab.uid]
        apply (hstrict hs).1.distinct a ha auth hmem
        rw [AuthManager.seq, ← hab.authId, hid]
        rfl
      split
      · split
        · exact (hstored _ rfl rfl).modify fun _ => ⟨⟨rfl, rfl⟩, rfl⟩
        · exact (hstored _ rfl rfl).onKeyGenerated hcan hfound
        · exact hstored _ rfl rfl
      · exact (hstored _ rfl rfl).onKeyGenerated hcan hfound

theorem moves_onSyncDeviceInfo (n : ℕ)
    (hstrict : strict → w.IdsOk ∧ w.PassOk ∧ w.Ordered (.syncDeviceInfo n env)) :
    Moves strict w (w.onSyncDeviceInfo n env) := by
  unfold onSyncDeviceInfo
  split
  · exact .start
  · next uid authId htold =>
    have herased : Moves strict w { w with generated := w.generated.eraseIdx n } := .untold .start n
    split
    · apply herased.authPostData
      intro hs _ auth hauth
      obtain ⟨_, hpass, hordered⟩ := hstrict hs
      obtain ⟨huid, hstatus⟩ := hordered _ htold auth hauth
      refine ⟨?_, fun he => hstatus (hpass.passed auth (mem_of_find?_eq_some hauth) he)⟩
      rw [huid]
      exact hpass.generated _ (mem_of_getElem? htold)
    · exact herased

theorem moves_authOnConnectSuccessful
    (hstrict : strict → w.IdsOk ∧ w.PassOk ∧ w.Ordered (.connectSuccessful requestId connectionId env)) :
    Moves strict w (w.authOnConnectSuccessful requestId connectionId env) := by
  unfold authOnConnectSuccessful
  split
  · exact .start
  · next auth hauth =>
    have hmem : auth ∈ w.managers := mem_append_left _ (mem_of_find?_eq_some hauth)
    have hconn : Moves strict w (w.modify auth ({ · with connectionId := connectionId })) :=
      Moves.start.modify fun _ => ⟨⟨rfl, rfl⟩, rfl⟩
    apply hconn.syncDeviceUuid
    exact fun hs he => (hstrict hs).2.2 auth hauth ((hstrict hs).2.1.passed auth hmem he)

theorem moves_trySyncDeviceUuid (fd : Int32) (trigger : Bool) (hpass : strict → w.PassOk) :
    Moves strict w (w.trySyncDeviceUuid fd trigger env) := by
  unfold trySyncDeviceUuid
  split
  · exact .start
  · next auth hauth =>
    split
    · exact .start
    · next hwait =>
      split
      · apply Moves.start.syncDeviceUuid
        intro hs he
        have hstatus := (hpass hs).passed auth (mem_of_find?_eq_some hauth) he
        exact hwait (.inr (by rw [hstatus]; nofun))
      · exact Moves.start.calm calm_authHandleFail

theorem moves_handle (hfresh : w.FreshIds input)
    (hstrict : strict → w.IdsOk ∧ w.PassOk ∧ w.Ordered input) : Moves strict w (w.handle input) := by
  have calm : ∀ {w'}, Calm w w' → Moves strict w w' := Moves.start.calm
  cases input with
  | verifyDevice option requestId fd connected =>
    exact Moves.start.authVerifyDevice option requestId fd connected hfresh
  | openConn moduleId option requestId active connected connected' remoteIp =>
    have hagain : Moves strict w _ :=
      Moves.start.isNeedVerifyAgain option requestId active connected remoteIp hfresh.1
    simp only [handle, authOpenCommonConn]
    split
    · exact hagain
    · next hneed =>
      have hnew := hagain.initClientAuthManager moduleId option requestId ⟨true, true⟩
        (hfresh.2 (by simpa using hneed))
      split
      · exact hnew
      · exact hnew.calm (calm_authHandleLeaveLNN _ _)
  | openChannel option fd => exact (calm (calm_getSeq .client w)).insertClient rfl rfl hfresh
  | connectSuccessful requestId connectionId env =>
    exact moves_authOnConnectSuccessful hstrict
  | connectFailed requestId => exact calm calm_authOnConnectFailed
  | createSuccessed requestId connectionId => exact calm calm_onConnectSuccessed
  | createFailed requestId => exact calm calm_onConnectFailed
  | addServer cfd clientAddr => exact Moves.start.insertServer rfl rfl hfresh
  | socketOut fd trigger env => exact moves_trySyncDeviceUuid fd trigger fun hs => (hstrict hs).2.1
  | ipData fd head data env => exact moves_authIpOnDataReceived fd head hfresh hstrict
  | ipDisconnected fd => exact calm (calm_authNotifyDisconn fd)
  | data connectionId seq info data connInfo env =>
    exact moves_authOnDataReceived seq info connInfo hfresh hstrict
  | disconnected connectionId => exact calm calm_authOnDisConnect
  | sessionKeyReturned authId key env => exact moves_authOnSessionKeyReturned authId key hstrict
  | error authId => exact calm calm_authOnError
  | syncDeviceInfo n env => exact moves_onSyncDeviceInfo n hstrict
  | leaveLNN authId => exact calm (calm_authHandleLeaveLNN authId w)
  | timeout id => exact calm (calm_handleAuthTimeout id)

/-- A step of the authentication manager is a sequence of moves. -/
theorem moves_step (hfresh : w.FreshIds input)
    (hstrict : strict → w.IdsOk ∧ w.PassOk ∧ w.Ordered input) : Moves strict w (w.step input) := by
  unfold step
  split
  · exact .start
  · exact moves_handle hfresh hstrict

end
end AuthWorld
end SoftBus.Native
