import Gearsdk.Roomserver.Registration

/-! The table of new connections. A connection enters it when it is established
and leaves it with a match request or a shutdown request; its destruction takes
no entry away. -/
namespace Gearsdk.Roomserver
open Std Transition

variable {site : Site} {s t : Roomserver} {ptr p : Nat} {connection : Connection} {r : Room}

/-- Every key of the table is a live connection that has not been matched. -/
def Tracked (s : Roomserver) : Prop :=
  ∀ ptr : Nat, ptr ∈ s.newConnections →
    ∃ connection : Connection, s.conns[ptr]? = some connection ∧
      connection.roomConfigReceived = false

/-- Only an established connection is matched. -/
def MatchedLater (conns : TreeMap Nat Connection) : Prop :=
  ∀ (ptr : Nat) (connection : Connection), conns[ptr]? = some connection →
    connection.connectionEstablished = false → connection.roomConfigReceived = false

/-- The event does not destroy a connection that is in the table. -/
def Settled (s : Roomserver) (e : Event) : Prop :=
  ∀ ptr : Nat, e = .destroyConnection ptr → ptr ∉ s.newConnections

/-! ### Connections under an event -/

theorem conns_joined (joined : Joined site s q msg t) (sound : Sound site s) :
    t.conns = s.conns ∧ t.newConnections = s.newConnections := by
  cases joined with
  | alreadySeated => exact ⟨rfl, rfl⟩
  | @joins room prev r base outcome found accepted same =>
    have change :=
      Room.change_of_inv (sound.inv found) (rfl : r.allows (.tryAdd q msg.pid prev) = true)
    obtain ⟨_, _, conns, _, listed, _⟩ := updateRoom_frame site s room change
    exact ⟨conns, listed⟩
  | @creates base outcome same =>
    obtain ⟨conns, listed, _⟩ := joinNewRoom_frame site { s with connectionMap := base } q msg
    exact ⟨conns, listed⟩

theorem conns_operated {op : Room.Op} (sound : Sound site s) (live : s.roomHeap[p]? = some r)
    (allowed : r.allows op = true) :
    (s.updateRoom site p (r.apply op).1 (r.apply op).2).conns = s.conns ∧
      (s.updateRoom site p (r.apply op).1 (r.apply op).2).newConnections = s.newConnections := by
  obtain ⟨_, _, conns, _, listed, _⟩ :=
    updateRoom_frame site s p (Room.change_of_inv (sound.inv live) allowed)
  exact ⟨conns, listed⟩

theorem conns_sweeps (sweeps : Sweeps site s zombies t) :
    t.conns = s.conns ∧ ∀ ptr : Nat, ptr ∈ t.newConnections → ptr ∈ s.newConnections := by
  induction sweeps with
  | done => exact ⟨rfl, fun _ => id⟩
  | @next s t room zombie zombies found rest ih =>
    obtain ⟨conns, fewer⟩ := ih
    rw [swept, deleteRoom_eq] at conns fewer
    refine ⟨conns, fun ptr member => ?_⟩
    have still := fewer ptr member
    rw [OrderedMap.mem_iff_lookup] at still ⊢
    obtain ⟨time, entry⟩ := still
    refine ⟨time, ?_⟩
    change ((zombie.players.map (·.qconnection.ptr) ++ zombie.disconnectedPlayers.map fun _ =>
      nullptr).foldl
      (fun map ptr => map.erase ptr) s.newConnections)[ptr]? = some time at entry
    rw [OrderedMap.lookup_eraseAll] at entry
    split at entry
    · cases entry
    · exact entry

/-- What an event does to the connections: it makes one, it changes flags of one,
it destroys one, or it leaves them alone. -/
inductive Reconnects (s : Roomserver) : Event → Roomserver → Prop where
  | connects {ptr cidHashVal : Nat} {t : Roomserver} (fresh : ptr ∉ s.conns)
      (conns : t.conns = s.conns.insert ptr { cidHashVal })
      (listed : t.newConnections = s.newConnections) :
      Reconnects s (.connect ptr cidHashVal) t
  | establishes {ptr : Nat} {connection : Connection} {time : Int} {t : Roomserver}
      (found : s.conns[ptr]? = some connection) (unestablished : connection.connectionEstablished = false)
      (conns : t.conns = s.conns.insert ptr { connection with connectionEstablished := true })
      (listed : t.newConnections = s.newConnections.insert ptr time) : Reconnects s (.connected ptr) t
  | greets {ptr : Nat} {connection : Connection} {t : Roomserver}
      (found : s.conns[ptr]? = some connection)
      (conns : t.conns = s.conns.insert ptr { connection with firstHiReceived := true })
      (listed : t.newConnections = s.newConnections) : Reconnects s (.message ptr buf doc) t
  | admits {ptr : Nat} {connection : Connection} {t : Roomserver}
      (found : s.conns[ptr]? = some connection)
      (conns : t.conns = s.conns.insert ptr { connection with roomConfigReceived := true })
      (listed : t.newConnections = s.newConnections.erase ptr) : Reconnects s (.message ptr buf doc) t
  | destroys {ptr : Nat} {t : Roomserver} (conns : t.conns = s.conns.erase ptr)
      (listed : t.newConnections = s.newConnections) : Reconnects s (.destroyConnection ptr) t
  | unlists {e : Event} {t : Roomserver} (other : ∀ ptr : Nat, e ≠ .destroyConnection ptr)
      (conns : t.conns = s.conns)
      (fewer : ∀ ptr : Nat, ptr ∈ t.newConnections → ptr ∈ s.newConnections) : Reconnects s e t

theorem Effect.reconnects (sound : Sound site s) (effect : Effect site s e t) :
    Reconnects s e t := by
  cases effect with
  | connect _ fresh => exact .connects fresh rfl rfl
  | connected found unestablished => exact .establishes found unestablished rfl rfl
  | hi found => exact .greets found rfl rfl
  | ignored | clock | keyExpires | keyExpired => exact .unlists (by simp) rfl fun _ => id
  | shutdown =>
    exact .unlists (by simp) rfl fun ptr member => ((OrderedMap.mem_erase_iff _ _ _).mp member).2
  | @request _ _ _ _ ptr connection requests joined =>
    obtain ⟨conns, listed⟩ := conns_joined joined (sound_matched sound ptr connection)
    exact .admits requests.found conns listed
  | @chat buf _ ptr room connection r found mapped live present =>
    obtain ⟨conns, listed⟩ := conns_operated sound live
      (rfl : r.allows (.message connection.cidHashVal buf) = true)
    exact .unlists (by simp) conns fun ptr member => listed ▸ member
  | tick live active =>
    obtain ⟨conns, listed⟩ := conns_operated sound live active
    exact .unlists (by simp) conns fun ptr member => listed ▸ member
  | unseated found => exact .destroys rfl rfl
  | leaves found mapped live => exact .destroys rfl (vacates_frame sound live _).2.2.1
  | @leavesLast middle ptr room connection r found mapped live ended empty same =>
    have kept : middle.newConnections = s.newConnections :=
      same ▸ (vacates_frame sound live _).2.2.1
    rw [deleteRoom_eq]
    exact .destroys rfl kept
  | sweeps sweeps =>
    obtain ⟨conns, fewer⟩ := conns_sweeps sweeps
    exact .unlists (by simp) conns fewer

/-! ### The table -/

/-- A message comes from an established connection. -/
theorem established_of_message (step : (machine site).Step s (.message ptr buf doc) t)
    (found : s.conns[ptr]? = some connection) : connection.connectionEstablished = true := by
  have possible : s.enabled (.message ptr buf doc) = true := step.1
  simpa [enabled, found] using possible

theorem MatchedLater.insert {conns : TreeMap Nat Connection} (later : MatchedLater conns)
    (kept : connection.connectionEstablished = false → connection.roomConfigReceived = false) :
    MatchedLater (conns.insert ptr connection) := by
  intro other c found
  rw [OrderedMap.lookup_insert] at found
  split at found
  · cases Option.some.inj found
    exact kept
  · exact later other c found

theorem Reconnects.matchedLater (reconnects : Reconnects s e t) (step : (machine site).Step s e t)
    (later : MatchedLater s.conns) : MatchedLater t.conns := by
  cases reconnects with
  | connects _ conns =>
    rw [conns]
    exact later.insert fun _ => rfl
  | establishes found _ conns =>
    rw [conns]
    exact later.insert fun unestablished => nomatch unestablished
  | greets found conns =>
    rw [conns]
    have waiting := later _ _ found
    exact later.insert waiting
  | @admits _ _ _ connection _ found conns =>
    rw [conns]
    have established := established_of_message step found
    refine later.insert fun unestablished => ?_
    change connection.connectionEstablished = false at unestablished
    rw [established] at unestablished
    cases unestablished
  | destroys conns =>
    rw [conns]
    intro other c found
    rw [OrderedMap.lookup_erase] at found
    split at found
    · cases found
    · exact later other c found
  | unlists _ conns =>
    rw [conns]
    exact later

theorem matchedLater_of_run (run : (machine site).Run es s) : MatchedLater s.conns := by
  refine Machine.Run.induction (P := fun _ s => MatchedLater s.conns) ?_ ?_ run
  · intro ptr connection found
    simp [machine] at found
  · intro es s e t before later step
    exact ((step_effect step).reconnects (sound_of_run before)).matchedLater step later

/-- A live connection keeps its entry while its flags change. -/
theorem Tracked.insert (tracked : s.Tracked) (conns : t.conns = s.conns.insert ptr connection)
    (listed : ∀ other : Nat, other ∈ t.newConnections → other = ptr ∨ other ∈ s.newConnections)
    (waiting : ptr ∈ t.newConnections → connection.roomConfigReceived = false) : t.Tracked := by
  intro other member
  rw [conns, OrderedMap.lookup_insert]
  split
  · rename_i same
    exact ⟨connection, rfl, waiting (same.symm ▸ member)⟩
  · rename_i different
    rcases listed other member with same | before
    · exact absurd same.symm different
    · exact tracked other before

theorem Reconnects.tracked_iff (reconnects : Reconnects s e t) (later : MatchedLater s.conns)
    (tracked : s.Tracked) : t.Tracked ↔ s.Settled e := by
  cases reconnects with
  | connects _ conns listed =>
    refine iff_of_true ?_ (by simp [Settled])
    exact tracked.insert conns (fun other member => .inr (listed ▸ member)) fun _ => rfl
  | establishes found unestablished conns listed =>
    refine iff_of_true ?_ (by simp [Settled])
    have waiting := later _ _ found unestablished
    refine tracked.insert conns (fun other member => ?_) fun _ => waiting
    rw [listed, OrderedMap.mem_insert_iff] at member
    exact member.imp Eq.symm id
  | @greets _ _ ptr connection _ found conns listed =>
    refine iff_of_true ?_ (by simp [Settled])
    refine tracked.insert conns (fun other member => .inr (listed ▸ member)) fun member => ?_
    obtain ⟨c, found', waiting⟩ := tracked ptr (listed ▸ member)
    cases Option.some.inj (found.symm.trans found')
    exact waiting
  | @admits _ _ ptr connection _ found conns listed =>
    refine iff_of_true ?_ (by simp [Settled])
    refine tracked.insert conns (fun other member => ?_) fun member => ?_
    · rw [listed, OrderedMap.mem_erase_iff] at member
      exact .inr member.2
    · rw [listed, OrderedMap.mem_erase_iff] at member
      exact absurd rfl member.1
  | @destroys ptr _ conns listed =>
    constructor
    · rintro after _ ⟨rfl⟩ member
      obtain ⟨c, found, _⟩ := after ptr (listed ▸ member)
      rw [conns, OrderedMap.lookup_erase, if_pos rfl] at found
      cases found
    · intro settled other member
      rw [listed] at member
      have different : ptr ≠ other := by
        rintro rfl
        exact settled ptr rfl member
      rw [conns, OrderedMap.lookup_erase_ne _ different]
      exact tracked other member
  | unlists other conns fewer =>
    refine iff_of_true (fun ptr member => ?_) fun ptr destroys => absurd destroys (other ptr)
    rw [conns]
    exact tracked ptr (fewer ptr member)

/-- The keys of the table stay live and unmatched connections exactly as long as
no connection is destroyed while it is in the table. -/
theorem new_connections_tracked_iff (run : (machine site).Run es s) :
    (machine site).Always Tracked es ↔ (machine site).Meets Settled es := by
  refine Machine.always_iff_meets ?_ ?_ run
  · intro ptr member
    simp [machine] at member
  · intro es s e t before tracked step
    exact ((step_effect step).reconnects (sound_of_run before)).tracked_iff
      (matchedLater_of_run before) tracked

/-- A client that leaves without having asked for a room. -/
def passerby : List Event := [.connect 1 11, .connected 1, .destroyConnection 1]

/-- The connection is gone, its entry is not. -/
theorem stale_new_connection :
    ∃ s, (machine ⟨.gameRoom, [], []⟩).Run passerby s ∧ 1 ∈ s.newConnections ∧
      s.conns[1]? = none := by
  have shown : ((machine ⟨.gameRoom, [], []⟩).exec {} passerby).map
      (fun s => (s.newConnections.contains 1, s.conns[1]?)) = some (true, none) := by decide +kernel
  obtain ⟨s, run, same⟩ := Machine.exec_observe shown
  obtain ⟨listed, gone⟩ := Prod.mk.inj same
  exact ⟨s, run, TreeMap.mem_iff_contains.mpr listed, gone⟩

theorem new_connections_tracked_iff_passerby :
    ∃ s, (machine ⟨.gameRoom, [], []⟩).Run passerby s ∧
      ¬ (machine ⟨.gameRoom, [], []⟩).Meets Settled passerby := by
  have shown : ((machine ⟨.gameRoom, [], []⟩).exec {} passerby).map
      (fun s => (s.newConnections.contains 1, s.conns[1]?)) = some (true, none) := by decide +kernel
  obtain ⟨s, run, same⟩ := Machine.exec_observe shown
  obtain ⟨listed, gone⟩ := Prod.mk.inj same
  refine ⟨s, run, fun meets => ?_⟩
  have tracked := (new_connections_tracked_iff run).mpr meets _ _ (List.prefix_refl _) run
  obtain ⟨connection, found, _⟩ := tracked 1 (TreeMap.mem_iff_contains.mpr listed)
  exact Option.some_ne_none connection (found.symm.trans gone)

end Gearsdk.Roomserver
