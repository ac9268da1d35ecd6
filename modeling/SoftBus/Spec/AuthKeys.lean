import SoftBus.ForStd.Run
import SoftBus.Spec.AuthMoves

/-!
# Session keys and the authentications they belong to

Keys are found and deleted by the low 32 bits of the id of an authentication.  The ids of a
server are chosen by its peers, so two authentications may have the same number, and the key
of one is then used and deleted for the other.  Where the number of an authentication is new
whenever its id is given out (`FreshIds`), every key stays with the authentication for which
it was stored.
-/

namespace SoftBus.Native
open List AuthWorld
variable {auth : AuthManager} {input : AuthInput}

theorem mem_authSetLocalSessionKey {key key' : SessionKey} {keys : List SessionKey}
    (h : key' ∈ authSetLocalSessionKey key keys) : key' = key ∨ key' ∈ keys := by
  simp only [authSetLocalSessionKey] at h
  split at h
  · exact .inr h
  · split at h
    · exact mem_cons.1 (dropLast_sublist _ |>.subset h)
    · exact mem_cons.1 h

namespace AuthWorld

/-! ## Changes -/

namespace IdsOk
variable {w w' : AuthWorld}

theorem init (serverSide : Bool) (uniqueId : UInt64) : IdsOk (.init serverSide uniqueId) :=
  ⟨fun _ hbad => absurd hbad not_mem_nil, fun _ hbad => absurd hbad not_mem_nil,
    fun _ _ hbad => absurd hbad not_mem_nil⟩

section
variable (h : IdsOk w)
include h

theorem keeps (hkeeps : Keeps w w') : IdsOk w' := by
  constructor
  · intro b hb b' hb' hseq
    obtain ⟨a, ha, hab⟩ := hkeeps.managers.exists_of_mem hb
    obtain ⟨a', ha', hab'⟩ := hkeeps.managers.exists_of_mem hb'
    rw [hab.seq, hab'.seq] at hseq
    rw [hab.uid, hab'.uid, h.distinct a ha a' ha' hseq]
  · intro b hb key hkey hseq
    obtain ⟨a, ha, hab⟩ := hkeeps.managers.exists_of_mem hb
    rw [hab.seq] at hseq
    rw [hab.uid, h.owned a ha key (hkeeps.keys key hkey) hseq]
  · intro uid key hmem
    obtain ⟨new, heq, hnew⟩ := hkeeps.events
    rw [heq] at hmem
    cases mem_append.1 hmem with
    | inl hmem => exact h.cleared uid key hmem
    | inr hmem =>
      -- a key that is deleted has the number of the authentication, so it is its own
      obtain ⟨hkey, a, ha, huid, hseq⟩ := hnew uid key hmem
      rw [← huid, h.owned a ha key hkey hseq]

/-- An authentication gets a new number, or is added with one. -/
theorem fresh (auth : AuthManager)
    (hmanagers : ∀ a ∈ w'.managers, a.uid = auth.uid ∧ a.seq = auth.seq ∨ a ∈ w.managers)
    (hkeys : w'.keys = w.keys) (hevents : w'.events = w.events)
    (hfresh : w.FreshId auth.uid auth.authId) : IdsOk w' := by
  constructor
  · intro a ha b hb hseq
    rcases hmanagers a ha with ⟨huid, hnew⟩ | hold <;> rcases hmanagers b hb with ⟨huid', hnew'⟩ | hold'
    · rw [huid, huid']
    · by_contra hne
      exact hfresh.2 b hold' (fun hb => hne (huid.trans hb.symm)) (hseq.symm.trans hnew)
    · by_contra hne
      exact hfresh.2 a hold (fun ha => hne (ha.trans huid'.symm)) (hseq.trans hnew')
    · exact h.distinct a hold b hold' hseq
  · intro a ha key hkey hseq
    rw [hkeys] at hkey
    rcases hmanagers a ha with ⟨_, hnew⟩ | hold
    · exact absurd (hseq.trans hnew) (hfresh.1 key hkey)
    · exact h.owned a hold key hkey hseq
  · rw [hevents]
    exact h.cleared

/-- A key is stored for an authentication. -/
theorem store (key : SessionKey) (hauth : ∃ a ∈ w.managers, a.SameIds auth) (hseq : key.seq = auth.seq)
    (howner : key.owner = auth.uid) : IdsOk { w with keys := authSetLocalSessionKey key w.keys } := by
  refine ⟨h.distinct, fun b hb key' hkey' hseq' => ?_, h.cleared⟩
  obtain ⟨a, ha, hids⟩ := hauth
  cases mem_authSetLocalSessionKey hkey' with
  | inl hnew =>
    rw [hnew] at hseq' ⊢
    rw [howner, hids.uid]
    exact h.distinct a ha b hb (by rw [← hids.seq, ← hseq, hseq'])
  | inr hold => exact h.owned b hb key' hold hseq'

/-- An authentication gets another id. -/
theorem rename {authId : Int64} (hfresh : w.FreshId auth.uid authId) :
    IdsOk (w.modify auth ({ · with authId := authId })) := by
  refine h.fresh { auth with authId := authId } (fun a ha => ?_) rfl rfl hfresh
  rw [managers_modify] at ha
  obtain ⟨b, hb, rfl⟩ := mem_map.1 ha
  split
  · next huid => exact .inl ⟨huid, rfl⟩
  · exact .inr hb

/-- What is encrypted for an authentication is encrypted with its own key. -/
theorem owner_of_encrypt (hauth : auth ∈ w.managers) {data : List UInt8} {bufLen : ℕ}
    {cipher : SeqCipher} (hcipher : authEncryptBySeq auth.seq data bufLen w.keys = .ok cipher) :
    cipher.key.owner = auth.uid := by
  unfold authEncryptBySeq at hcipher
  split at hcipher
  · exact absurd hcipher nofun
  · split at hcipher
    · exact absurd hcipher nofun
    · next key hkey =>
      rw [← Except.ok.inj hcipher]
      have hseq : key.seq = auth.seq := by simpa using find?_some hkey
      exact h.owned auth hauth key (mem_of_find?_eq_some hkey) hseq

end

/-- The moves keep every key with its authentication. -/
theorem of_moves {strict : Prop} {w₀ : AuthWorld} (h₀ : IdsOk w₀) (h : Moves strict w₀ w) : IdsOk w := by
  induction h with
  | start => exact h₀
  | calm _ hcalm ih => exact ih.keeps hcalm.keeps
  | status _ _ hf _ ih => exact ih.keeps (keeps_modify _ (fun a => (hf a).1) _)
  | pass _ _ ih =>
    refine IdsOk.keeps (ih.keeps (keeps_modify _ ?_ _)) (keeps_emit (by nofun))
    exact fun _ => ⟨rfl, rfl⟩
  | returned _ _ _ ih => exact ih.keeps (keeps_emit (by nofun))
  | store _ auth key hauth hseq howner _ ih => exact ih.store key hauth hseq howner
  | told _ _ _ _ ih => exact ⟨ih.distinct, ih.owned, ih.cleared⟩
  | untold _ _ ih => exact ⟨ih.distinct, ih.owned, ih.cleared⟩
  | rename _ hfresh ih => exact ih.rename hfresh
  | insert _ hmanagers hkeys _ hevents _ _ _ hfresh ih =>
    refine ih.fresh _ (fun a ha => ?_) hkeys hevents hfresh
    cases hmanagers a ha with
    | inl hnew => exact .inl ⟨by rw [hnew], by rw [hnew]⟩
    | inr hold => exact .inr hold

theorem step (h : IdsOk w) (hfresh : w.FreshIds input) : IdsOk (w.step input) := by
  have hmoves : Moves False w (w.step input) := moves_step hfresh False.elim
  exact h.of_moves hmoves

end IdsOk
end AuthWorld

/-! ## Runs -/

/-- In every run in which each authentication gets an id whose number is new, the key that is
    used for an authentication was stored for it, and so was every key that is deleted on its
    behalf. -/
theorem session_keys_confined (serverSide : Bool) (uniqueId : UInt64) (inputs : List AuthInput)
    (hfresh : Run.AllSteps AuthWorld.step AuthWorld.FreshIds (.init serverSide uniqueId) inputs) :
    let w := inputs.foldl AuthWorld.step (.init serverSide uniqueId)
    (∀ auth ∈ w.managers, ∀ data bufLen cipher,
        authEncryptBySeq auth.seq data bufLen w.keys = .ok cipher → cipher.key.owner = auth.uid) ∧
      ∀ uid key, AuthEvent.cleared uid key ∈ w.events → key.owner = uid := by
  have h := hfresh.foldl_inv (P := AuthWorld.IdsOk) (fun _ _ h hok => h.step hok)
    (.init serverSide uniqueId)
  exact ⟨fun auth hauth _ _ _ hcipher => h.owner_of_encrypt hauth hcipher, h.cleared⟩

/-- Everything can be packed and sent. -/
def goodAuthEnv : AuthEnv := ⟨true, true, true, true, none⟩

/-- A peer starts an authentication on its own connection, with an id of its choice. -/
def authByPeer (connectionId : UInt32) (authId : Int64) : AuthInput :=
  .data connectionId 4 ⟨.deviceId, false, authId⟩ [] (some ⟨.br, [connectionId.toUInt8], 0, 0⟩)
    goodAuthEnv

/-- HiChain has a key for an authentication. -/
def keyForPeer (authId : Int64) : AuthInput :=
  .sessionKeyReturned authId ⟨[7, 7], some [1]⟩ goodAuthEnv

/-- Two peers with the ids `4` and `2 ^ 32 + 4`: what is sent to the second is encrypted with
    the key of the first, and when the second leaves, the key of the first is deleted. -/
theorem session_key_of_other_peer :
    let w : AuthWorld := [authByPeer 1 4, keyForPeer 4, authByPeer 2 0x100000004].foldl AuthWorld.step
      (.init true 0)
    let key : SessionKey := ⟨.br, .server, 4, [1], [7, 7], 0⟩
    (∃ auth ∈ w.managers, auth.uid = 1 ∧
      authEncryptBySeq auth.seq [5] 64 w.keys = .ok ⟨.server, 4, key, [5]⟩) ∧
      (w.step (.leaveLNN 0x100000004)).keys = [] ∧
      (w.step (.leaveLNN 0x100000004)).events = w.events ++ [.cleared 1 key, .disconnectDevice 2] := by
  decide +kernel

/-- With the ids `4` and `6` each peer has its own key, and the key of the first stays. -/
theorem session_keys_of_two_peers :
    let inputs := [authByPeer 1 4, keyForPeer 4, authByPeer 2 6, keyForPeer 6, .leaveLNN 6]
    let w : AuthWorld := inputs.foldl AuthWorld.step (.init true 0)
    Run.AllSteps AuthWorld.step AuthWorld.FreshIds (.init true 0) inputs ∧
      w.keys = [⟨.br, .server, 4, [1], [7, 7], 0⟩] ∧
      ∀ uid key, AuthEvent.cleared uid key ∈ w.events → key.owner = uid := by
  intro inputs w
  have hfresh : Run.AllSteps step AuthWorld.FreshIds (.init true 0) inputs := by
    decide +kernel
  exact ⟨hfresh, by decide +kernel, (session_keys_confined true 0 inputs hfresh).2⟩

end SoftBus.Native
