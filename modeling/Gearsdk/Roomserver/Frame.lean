import Gearsdk.Roomserver.NewConnections

/-! What the network layer reads back from the room server: the time of the event
loop, and the hash and the state of each connection. Only the events that the
network layer makes itself change a connection in these respects, and only the
clock changes the time. -/
namespace Gearsdk.Roomserver
open Std Transition

variable {site : Site} {s t : Roomserver} {ptr p : Nat} {e : Event}

/-! ### Time -/

theorem perform_evNow (s : Roomserver) (room : Nat) (r : Room) (call : RoomCall) :
    (s.perform site room r call).evNow = s.evNow := by
  cases call with
  | onroomPreStart =>
    simp only [perform, onroomPreStart]
    split
    · rfl
    · split <;> rfl
  | observer | sendmessage | close | decrBy => rfl

theorem performAll_evNow (s : Roomserver) (room : Nat) (r : Room) (calls : List RoomCall) :
    (s.performAll site room r calls).evNow = s.evNow := by
  induction calls generalizing s with
  | nil => rfl
  | cons call rest ih => exact (ih _).trans (perform_evNow s room r call)

theorem updateRoom_evNow (s : Roomserver) (room : Nat) (r : Room) (calls : List RoomCall) :
    (s.updateRoom site room r calls).evNow = s.evNow :=
  performAll_evNow { s with roomHeap := s.roomHeap.insert room r } room r calls

theorem deleteRoom_evNow (s : Roomserver) (room : Nat) (r : Room) :
    (s.deleteRoom site room r).evNow = s.evNow :=
  performAll_evNow s room r (r.destroy site.hostId site.portId)

theorem joinNewRoom_evNow (s : Roomserver) (q : QconnIo) (msg : MsgRoomMatchRequest) :
    (s.joinNewRoom site q msg).evNow = s.evNow := by
  have created : (s.createWaitingRoom site msg.roomConfig).1.evNow = s.evNow :=
    updateRoom_evNow { s with roomIdCounter := s.roomIdCounter + 1 } s.roomIdCounter _ _
  exact (updateRoom_evNow _ _ _ _).trans created

theorem Joined.evNow (joined : Joined site s q msg t) : t.evNow = s.evNow := by
  cases joined with
  | alreadySeated => rfl
  | joins => exact updateRoom_evNow s _ _ _
  | creates => exact joinNewRoom_evNow _ q msg

theorem Sweeps.evNow (sweeps : Sweeps site s zombies t) : t.evNow = s.evNow := by
  induction sweeps with
  | done => rfl
  | next found rest ih => exact ih.trans (deleteRoom_evNow _ _ _)

/-- Time passes with the events of the clock. -/
def timeAfter (s : Roomserver) : Event → Int
  | .clock now => now
  | _ => s.evNow

theorem evNow_step (step : (machine site).Step s e t) : t.evNow = s.timeAfter e := by
  cases step_effect step with
  | connect | connected | hi | ignored | shutdown | clock | keyExpires | keyExpired | unseated =>
    rfl
  | request _ joined => exact joined.evNow
  | chat => exact updateRoom_evNow s _ _ _
  | leaves => exact updateRoom_evNow { s with connectionMap := _ } _ _ _
  | leavesLast _ _ _ _ _ same =>
    subst same
    exact (deleteRoom_evNow _ _ _).trans (updateRoom_evNow { s with connectionMap := _ } _ _ _)
  | tick => exact updateRoom_evNow s _ _ _
  | sweeps sweeps => exact sweeps.evNow

/-! ### Connections -/

/-- The hash of a connection, and whether it is established. -/
def profile (s : Roomserver) (ptr : Nat) : Option (Nat × Bool) :=
  (s.conns[ptr]?).map fun connection => (connection.cidHashVal, connection.connectionEstablished)

theorem profile_congr (conns : t.conns = s.conns) (p : Nat) : t.profile p = s.profile p := by
  rw [profile, profile, conns]

theorem profile_insert {connection : Connection} (conns : t.conns = s.conns.insert ptr connection)
    (p : Nat) :
    t.profile p =
      if ptr = p then some (connection.cidHashVal, connection.connectionEstablished)
        else s.profile p := by
  rw [profile, conns, OrderedMap.lookup_insert]
  split <;> rfl

/-- A connection whose other flags change. -/
theorem profile_flagged {connection flagged : Connection} (found : s.conns[ptr]? = some connection)
    (conns : t.conns = s.conns.insert ptr flagged)
    (hash : flagged.cidHashVal = connection.cidHashVal)
    (state : flagged.connectionEstablished = connection.connectionEstablished) (p : Nat) :
    t.profile p = s.profile p := by
  rw [profile_insert conns]
  split
  · rename_i same
    subst same
    rw [profile, found, hash, state]
    rfl
  · rfl

theorem profile_connect (step : (machine site).Step s (.connect ptr cidHashVal) t) (p : Nat) :
    t.profile p = if ptr = p then some (cidHashVal, false) else s.profile p := by
  obtain rfl := Except.ok.inj step.2
  have conns : ({ s with conns := s.conns.insert ptr { cidHashVal } } : Roomserver).conns =
    s.conns.insert ptr { cidHashVal } := rfl
  exact profile_insert conns p

theorem profile_connected (step : (machine site).Step s (.connected ptr) t) (p : Nat) :
    t.profile p = if ptr = p then (s.profile p).map fun known => (known.1, true)
      else s.profile p := by
  cases step_effect step with
  | @connected _ connection found =>
    rw [profile_insert (@rfl _ (s.conns.insert ptr { connection with connectionEstablished := true }))]
    split
    · rename_i same
      subst same
      rw [profile, found]
      rfl
    · rfl

theorem profile_destroy (run : (machine site).Run es s)
    (step : (machine site).Step s (.destroyConnection ptr) t) (p : Nat) :
    t.profile p = if ptr = p then none else s.profile p := by
  cases (step_effect step).reconnects (sound_of_run run) with
  | destroys conns =>
    rw [profile, conns, OrderedMap.lookup_erase]
    split <;> rfl
  | unlists other => exact absurd rfl (other ptr)

/-- The events that make, establish or destroy a connection. -/
def ofNetwork : Event → Bool
  | .connect _ _ | .connected _ | .destroyConnection _ => true
  | _ => false

theorem profile_kept (run : (machine site).Run es s) (step : (machine site).Step s e t)
    (other : ofNetwork e = false) (p : Nat) : t.profile p = s.profile p := by
  cases (step_effect step).reconnects (sound_of_run run) with
  | connects | establishes | destroys => contradiction
  | greets found conns => exact profile_flagged found conns rfl rfl p
  | admits found conns => exact profile_flagged found conns rfl rfl p
  | unlists _ conns => exact profile_congr conns p

theorem mem_conns_iff_profile : ptr ∈ s.conns ↔ (s.profile ptr).isSome = true := by
  rw [profile, Option.isSome_map, TreeMap.mem_iff_isSome_getElem?]

end Gearsdk.Roomserver
