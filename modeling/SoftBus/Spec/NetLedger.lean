import Mathlib
import SoftBus.ForStd.Run
import SoftBus.Native.NetLedger

/-!
# The ledger tracks the connections of a device

## Main results

- `tracks_of_separate`: while each connection that comes up is the only one of its discovery type
  and the ledger takes the auth id of a Wi-Fi one, the node is online exactly while a connection
  is up, and the reports of going online and offline alternate.
-/

namespace SoftBus.Native.NetLedger
open Run
variable {s : NetLedger} {e : LedgerEvent}

/-- Whether the newest report of a change of state, `rs` being newest first, is `online`. -/
def lastOnline : List ReportCategory → Bool
  | [] | .offline :: _ => false
  | .online :: _ => true
  | _ :: rs => lastOnline rs

/-- `online` and `offline` alternate, from `online` on. -/
def Alternates : List ReportCategory → Prop
  | [] => True
  | .online :: rs => lastOnline rs = false ∧ Alternates rs
  | .offline :: rs => lastOnline rs = true ∧ Alternates rs
  | _ :: rs => Alternates rs

/-- The entry of the device says which discovery types are up and, for Wi-Fi, with which auth id. -/
structure Shows (n : LedgerNode) (conns : List (AddrType × Int32)) : Prop where
  online : n.online = true ↔ conns ≠ []
  bits : ∀ d, n.discoveryType d = true ↔ ∃ c ∈ conns, c.1.discType = d
  auth : ∀ c ∈ conns, c.1.discType = .wifi → n.authChannelId c.1 = c.2

structure Tracks (s : NetLedger) : Prop where
  shows : (s.node = none ∧ s.up = []) ∨ ∃ n, s.node = some n ∧ Shows n s.up
  distinct : (s.up.map (·.1.discType)).Nodup
  alternates : Alternates s.reports
  last : lastOnline s.reports = true ↔ s.up ≠ []

/-- No connection of the discovery type is up, and a Wi-Fi connection comes up first or with the
    auth id that the ledger holds for its type. -/
def Separate (s : NetLedger) : LedgerEvent → Prop
  | .up type authId _ =>
    (∀ c ∈ s.up, c.1.discType ≠ type.discType) ∧
      (type.discType = .wifi → s.up ≠ [] → s.node.any (·.authChannelId type = authId))
  | .down .. => True

instance : DecidableRel Separate := fun s e => by cases e <;> unfold Separate <;> infer_instance

variable {type : AddrType} {authId : Int32} {networkId : String} {n : LedgerNode}
  {conns : List (AddrType × Int32)}

/-- No bit is left exactly when no connection is. -/
theorem any_bit {bits : DiscType → Bool} (h : ∀ d, bits d = true ↔ ∃ c ∈ conns, c.1.discType = d) :
    (bits .wifi || bits .ble || bits .br) = true ↔ conns ≠ [] := by
  rw [Bool.or_eq_true, Bool.or_eq_true, h, h, h]
  constructor
  · rintro ((⟨c, hc, -⟩ | ⟨c, hc, -⟩) | ⟨c, hc, -⟩) <;> exact List.ne_nil_of_mem hc
  · intro hne
    obtain ⟨c, hc⟩ := List.exists_mem_of_ne_nil _ hne
    cases hd : c.1.discType with
    | wifi => exact .inl (.inl ⟨c, hc, hd⟩)
    | ble => exact .inl (.inr ⟨c, hc, hd⟩)
    | br => exact .inr ⟨c, hc, hd⟩

/-- The entry that the first connection makes. -/
theorem shows_first : Shows { LedgerNode.parsePeerConnInfo type authId networkId with online := true }
    [(type, authId)] where
  online := by simp
  bits d := by simp [LedgerNode.parsePeerConnInfo, eq_comm]
  auth c hc _ := by
    obtain rfl := List.mem_singleton.1 hc
    simp [LedgerNode.parsePeerConnInfo]

/-- The entry after a further connection: the auth ids stay. -/
theorem Shows.merge (h : Shows n conns) (hauth : type.discType = .wifi → n.authChannelId type = authId) :
    Shows { n.merge (.parsePeerConnInfo type authId networkId) with online := true }
      ((type, authId) :: conns) where
  online := by simp
  bits d := by
    rw [List.exists_mem_cons_iff, ← h.bits d]
    simp [LedgerNode.merge, LedgerNode.parsePeerConnInfo, @eq_comm _ d]
  auth c hc hw := by
    rcases List.mem_cons.1 hc with rfl | hc
    · exact hauth hw
    · exact h.auth c hc hw

theorem Tracks.up (h : s.Tracks) (hs : s.Separate (.up type authId networkId)) :
    (s.step (.up type authId networkId)).Tracks := by
  obtain ⟨hdisc, hauth⟩ := hs
  have hdistinct : (((type, authId) :: s.up).map (·.1.discType)).Nodup := by
    refine List.nodup_cons.2 ⟨fun hmem => ?_, h.distinct⟩
    obtain ⟨c, hc, heq⟩ := List.mem_map.1 hmem
    exact hdisc c hc heq
  by_cases hup : s.up = []
  · -- the new information stands alone, and the node was not online
    have hadd : (LedgerNode.parsePeerConnInfo type authId networkId).lnnAddOnlineNode s.node =
        (.online, { LedgerNode.parsePeerConnInfo type authId networkId with online := true }) := by
      obtain ⟨hnone, -⟩ | ⟨n, hn, hshows⟩ := h.shows
      · simp [LedgerNode.lnnAddOnlineNode, hnone]
      · simp [LedgerNode.lnnAddOnlineNode, hn, show n.online = false by simpa [hup] using hshows.online]
    have hlast : lastOnline s.reports = false := by simpa [hup] using h.last
    simp only [step, hadd]
    exact ⟨.inr ⟨_, rfl, hup ▸ shows_first⟩, hdistinct, ⟨hlast, h.alternates⟩, by simp [lastOnline]⟩
  · obtain ⟨-, hnil⟩ | ⟨n, hn, hshows⟩ := h.shows
    · exact absurd hnil hup
    have hlast := h.last.2 hup
    simp only [step, hn, LedgerNode.lnnAddOnlineNode, if_pos (hshows.online.2 hup)]
    refine ⟨.inr ⟨_, rfl, hshows.merge fun hw => ?_⟩, hdistinct, ?_, ?_⟩
    · simpa [hn] using hauth hw hup
    · split <;> exact h.alternates
    · split <;> simpa [lastOnline] using hlast

theorem Tracks.down (h : s.Tracks) : (s.step (.down type authId)).Tracks := by
  obtain ⟨hnone, -⟩ | ⟨n, hn, hshows⟩ := h.shows
  · simpa only [step, hnone] using h
  simp only [step, hn]
  split
  swap
  · exact h
  next hmem =>
  have hne : s.up ≠ [] := List.ne_nil_of_mem hmem
  -- the connection is the only one of its discovery type
  have hrest : ∀ c, c ∈ s.up.erase (type, authId) ↔ c ∈ s.up ∧ c.1.discType ≠ type.discType := by
    intro c
    rw [(h.distinct.of_map _).mem_erase_iff, and_comm]
    refine and_congr_right fun hc => not_congr ⟨fun heq => heq ▸ rfl, fun heq => ?_⟩
    exact List.inj_on_of_nodup_map h.distinct hc hmem heq
  have hmatch : ¬ (n.discoveryType .wifi = true ∧ type.discType = .wifi ∧ n.authChannelId type ≠ authId) :=
    fun hw => hw.2.2 (hshows.auth _ hmem hw.2.1)
  have hbits : ∀ d, (n.discoveryType d && decide (d ≠ type.discType)) = true ↔
      ∃ c ∈ s.up.erase (type, authId), c.1.discType = d := by
    intro d
    simp only [Bool.and_eq_true, decide_eq_true_eq, hshows.bits d, hrest]
    grind
  have hauth : ∀ c ∈ s.up.erase (type, authId), c.1.discType = .wifi → n.authChannelId c.1 = c.2 :=
    fun c hc => hshows.auth c ((hrest c).1 hc).1
  have hdistinct : ((s.up.erase (type, authId)).map (·.1.discType)).Nodup :=
    (List.erase_sublist.map _).nodup h.distinct
  simp only [LedgerNode.lnnSetNodeOffline, if_neg hmatch]
  split
  · next hany =>
    have hleft := (any_bit hbits).1 hany
    exact ⟨.inr ⟨_, rfl, ⟨by simp [hleft, hshows.online.2 hne], hbits, hauth⟩⟩, hdistinct, h.alternates,
      by simpa [lastOnline, hleft] using h.last.2 hne⟩
  · next hany =>
    have hnil : s.up.erase (type, authId) = [] := by
      by_contra hleft
      exact hany ((any_bit hbits).2 hleft)
    exact ⟨.inr ⟨_, rfl, ⟨by simp [hnil], hbits, hauth⟩⟩, hdistinct, ⟨h.last.2 hne, h.alternates⟩,
      by simp [lastOnline, hnil]⟩

/-- While connections are separate, the node is online exactly while one is up, and the reports of
    going online and offline alternate. -/
theorem tracks_of_separate {es : List LedgerEvent} (h : AllSteps step Separate init es) :
    ((es.foldl step init).isOnline = true ↔ (es.foldl step init).up ≠ []) ∧
      Alternates (es.foldl step init).reports := by
  have hinit : init.Tracks := ⟨.inl ⟨rfl, rfl⟩, .nil, trivial, by simp [init, lastOnline]⟩
  have hs := h.foldl_inv (P := Tracks) (fun s e hs ht => by
    cases e with
    | up type authId networkId => exact hs.up ht
    | down type authId => exact hs.down) hinit
  refine ⟨?_, hs.alternates⟩
  obtain ⟨hnone, hup⟩ | ⟨n, hn, hshows⟩ := hs.shows
  · simp [isOnline, hnone, hup]
  · simpa [isOnline, hn] using hshows.online

/-- A Wi-Fi and a Bluetooth connection one after the other. -/
theorem tracks_wlan_br :
    ([.up .wlan 1 "a", .up .br 2 "a", .down .wlan 1].foldl step init).up = [(.br, 2)] ∧
      ([.up .wlan 1 "a", .up .br 2 "a", .down .wlan 1].foldl step init).isOnline = true :=
  ⟨by decide, (tracks_of_separate (by decide)).1.2 (by decide)⟩

/-- Two BR connections share one bit: the first that goes down takes the node offline, the second
    reports it again.  A Wi-Fi connection beside a BR one loses its auth id: the node stays online
    after both are gone. -/
theorem not_tracks :
    (let s := [.up .br 1 "a", .up .br 2 "a", .down .br 1].foldl step init
     s.up = [(.br, 2)] ∧ s.isOnline = false) ∧
    ([.up .br 1 "a", .up .br 2 "a", .down .br 1, .down .br 2].foldl step init).reports =
      [.offline, .offline, .none, .online] ∧
    (let s := [.up .br 1 "a", .up .wlan 2 "a", .down .wlan 2, .down .br 1].foldl step init
     s.up = [] ∧ s.isOnline = true) := by
  decide

end SoftBus.Native.NetLedger
