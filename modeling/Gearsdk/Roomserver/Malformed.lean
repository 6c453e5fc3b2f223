import Gearsdk.Roomserver.Anchored
import Gearsdk.Roomserver.NewConnections

/-! Messages that are no requests. The registry stays as it is under all of them; what may go
wrong is that the entry of a connection is followed to a room that has been deleted. -/
namespace Gearsdk.Roomserver
open Std Transition

/-- Neither the first message of a client nor a request that deserialises. -/
structure Malformed (doc : Option Json) : Prop where
  notHi : deserializeFirstHiMessage doc ≠ 0
  notMatch : ∀ obj sig, doc = some obj →
    deserializeHeader doc = .ok (sig, typeStringCrc "msg_room_match_request") →
    MsgRoomMatchRequest.deserialize obj = none
  notShutdown : ∀ sig, deserializeHeader doc ≠ .ok (sig, typeStringCrc "msg_room_server_shutdown")

/-- Nothing but the log of the calls differs. -/
structure SameRegistry (s t : Roomserver) : Prop where
  conns : t.conns = s.conns
  roomHeap : ∀ p : Nat, t.roomHeap[p]? = s.roomHeap[p]?
  waitingRooms : t.waitingRooms = s.waitingRooms
  rooms : t.rooms = s.rooms
  connectionMap : t.connectionMap = s.connectionMap
  newConnections : t.newConnections = s.newConnections
  hiredis : t.hiredis = s.hiredis
  loopBroken : t.loopBroken = s.loopBroken

/-- The room has the player of the connection. -/
def Seats (s : Roomserver) (connection : Connection) (p : Nat) : Prop :=
  ∃ r, s.roomHeap[p]? = some r ∧ connection.cidHashVal ∈ r.playermap

/-- The message is handled, the registry stays, and calls are made only by a room that seats
the connection. -/
def InertFor (site : Site) (s : Roomserver) (ptr : Nat) (connection : Connection) (buf : Qstring)
    (doc : Option Json) :
    Prop :=
  ∃ t told, s.onconnectionMessage site ptr connection buf doc = .ok t ∧ SameRegistry s t ∧
    t.log = s.log ++ told ∧
    ∀ entry ∈ told, s.Seats connection entry.1

/-- Every malformed message that a connection may send is inert. -/
def Inert (site : Site) (s : Roomserver) : Prop :=
  ∀ ptr connection buf doc, s.conns[ptr]? = some connection →
    connection.connectionEstablished = true →
    Malformed doc → InertFor site s ptr connection buf doc

/-- No entry names a deleted room. -/
def EntriesLive (s : Roomserver) : Prop :=
  ∀ cidHash p : Nat, s.connectionMap[cidHash]? = some p → p ∈ s.roomHeap

variable {site : Site} {s t : Roomserver} {ptr p : Nat} {connection : Connection} {r : Room}
  {doc : Option Json}

/-! ### One message -/

/-- A buffer that does not parse. -/
theorem malformed_unread : Malformed none := by
  refine ⟨by decide, fun obj sig absent => ?_, fun sig header => ?_⟩
  · contradiction
  · rw [deserializeHeader] at header
    contradiction

theorem SameRegistry.refl (s : Roomserver) : SameRegistry s s :=
  ⟨rfl, fun _ => rfl, rfl, rfl, rfl, rfl, rfl, rfl⟩

theorem Malformed.dispatch (malformed : Malformed doc) (s : Roomserver) (ptr : Nat)
    (connection : Connection) :
    s.dispatch site ptr connection doc = .ok s := by
  cases doc with
  | none => rfl
  | some obj =>
    cases header : deserializeHeader (some obj) with
    | error code => simp only [Roomserver.dispatch, header]
    | ok read =>
      obtain ⟨sig, tCrc⟩ := read
      by_cases request : tCrc = typeStringCrc "msg_room_match_request"
      · have handler : messageHandlers tCrc = some .processMatchRequest := by
          rw [messageHandlers, if_pos request]
        have unread : MsgRoomMatchRequest.deserialize obj = none :=
          malformed.notMatch obj sig rfl (request ▸ header)
        simp only [Roomserver.dispatch, header, handler, processMatchRequest, unread]
      · have shutdown : tCrc ≠ typeStringCrc "msg_room_server_shutdown" := fun same =>
          malformed.notShutdown sig (same ▸ header)
        have handler : messageHandlers tCrc = none := by
          rw [messageHandlers, if_neg request, if_neg shutdown]
        simp only [Roomserver.dispatch, header, handler]

/-- A malformed message is dropped, or it is chat. -/
theorem Malformed.handled (malformed : Malformed doc) (s : Roomserver) (ptr : Nat)
    (connection : Connection) (buf : Qstring) :
    s.onconnectionMessage site ptr connection buf doc =
      if !connection.roomConfigReceived && s.newConnections.contains ptr then .ok s
      else s.passToRoom site connection buf := by
  have noHi : (!connection.firstHiReceived && decide (deserializeFirstHiMessage doc = 0)) =
      false := by
    simp [malformed.notHi]
  rw [onconnectionMessage, noHi, malformed.dispatch]
  rfl

/-- Calls on the observer and on connections leave only their trace. -/
theorem performAll_quiet (calls : List RoomCall)
    (quiet : ∀ call ∈ calls, (∃ event, call = .observer event) ∨ ∃ q message,
    call = .sendmessage q message) :
    s.performAll site p r calls = { s with log := s.log ++ calls.map fun call => (p, call) } := by
  induction calls generalizing s with
  | nil =>
    rw [List.map_nil, List.append_nil]
    rfl
  | cons call rest ih =>
    have first : s.perform site p r call = { s with log := s.log ++ [(p, call)] } := by
      rcases quiet call (List.mem_cons_self ..) with ⟨event, rfl⟩ | ⟨q, message, rfl⟩ <;> rfl
    calc s.performAll site p r (call :: rest)
        = (s.perform site p r call).performAll site p r rest := rfl
      _ = { s with log := s.log ++ [(p, call)] ++ rest.map fun call => (p, call) } := by
          rw [first, ih fun call member => quiet call (List.mem_cons_of_mem _ member)]
      _ = _ := by rw [List.append_assoc, List.map_cons, List.singleton_append]

theorem passMessageToRoom_quiet (player : Player) (buf : Qstring) :
    ∀ call ∈ r.passMessageToRoom player buf,
      (∃ event, call = .observer event) ∨ ∃ q message, call = .sendmessage q message := by
  intro call member
  rw [Room.passMessageToRoom] at member
  rcases List.mem_cons.mp member with rfl | relayed
  · exact .inl ⟨_, rfl⟩
  · split at relayed
    · rw [Room.broadcastExcept] at relayed
      split at relayed
      · obtain ⟨entry, _, rfl⟩ := List.mem_map.mp relayed
        exact .inr ⟨_, _, rfl⟩
      · contradiction
    · contradiction
    · contradiction

theorem passToRoom_inert
    (live : ∀ p, s.connectionMap[connection.cidHashVal]? = some p → p ∈ s.roomHeap)
    (buf : Qstring) :
    ∃ t told, s.passToRoom site connection buf = .ok t ∧ SameRegistry s t ∧ t.log = s.log ++ told ∧
      ∀ entry ∈ told, s.Seats connection entry.1 := by
  have idle : ∃ t told, Except.ok s = (.ok t : Except Fault Roomserver) ∧ SameRegistry s t ∧
    t.log = s.log ++ told ∧
      ∀ entry ∈ told, s.Seats connection entry.1 :=
    ⟨s, [], rfl, .refl s, (List.append_nil _).symm, fun entry member => absurd member List.not_mem_nil⟩
  rw [passToRoom]
  cases mapped : s.connectionMap[connection.cidHashVal]? with
  | none => exact idle
  | some p =>
    obtain ⟨r, found⟩ := OrderedMap.mem_iff_lookup.mp (live p mapped)
    simp only [deref_ok.mpr found]
    cases present : r.playermap[connection.cidHashVal]? with
    | none => exact idle
    | some player =>
      refine ⟨_, (r.passMessageToRoom player buf).map fun call => (p, call), rfl, ?_⟩
      rw [updateRoom, performAll_quiet _ (passMessageToRoom_quiet player buf)]
      refine ⟨⟨rfl, fun q => ?_, rfl, rfl, rfl, rfl, rfl, rfl⟩, rfl, fun entry member => ?_⟩
      · rw [OrderedMap.lookup_insert]
        split
        · rename_i same
          rw [← same, found]
        · rfl
      · obtain ⟨call, _, rfl⟩ := List.mem_map.mp member
        exact ⟨r, found, OrderedMap.mem_of_lookup present⟩

/-- Only the entry of the connection itself is followed. -/
theorem Malformed.inert (malformed : Malformed doc) (buf : Qstring)
    (live : ∀ p, s.connectionMap[connection.cidHashVal]? = some p → p ∈ s.roomHeap) :
    InertFor site s ptr connection buf doc := by
  rw [InertFor, malformed.handled]
  split
  · exact ⟨s, [], rfl, .refl s, (List.append_nil _).symm, fun entry member =>
      absurd member List.not_mem_nil⟩
  · exact passToRoom_inert live buf

/-! ### Connections behind the entries -/

/-- Behind every entry there is a connection that has been matched. -/
def Backing (conns : TreeMap Nat Connection) (map : TreeMap Nat Nat) : Prop :=
  ∀ cidHash p : Nat, map[cidHash]? = some p → ∃ (ptr : Nat) (c : Connection), conns[ptr]? = some c ∧
    c.cidHashVal = cidHash ∧ c.connectionEstablished = true ∧ c.roomConfigReceived = true

section
variable {conns : TreeMap Nat Connection} {map map' base : TreeMap Nat Nat} {c' : Connection}

/-- A connection that may be behind an entry keeps what makes it so. -/
theorem Backing.insert (backing : Backing conns map)
    (kept : ∀ c, conns[ptr]? = some c → c.connectionEstablished = true → c.roomConfigReceived = true →
      c'.cidHashVal = c.cidHashVal ∧ c'.connectionEstablished = true ∧
        c'.roomConfigReceived = true) :
    Backing (conns.insert ptr c') map := by
  intro cidHash p mapped
  obtain ⟨other, c, found, same, established, matched⟩ := backing cidHash p mapped
  by_cases here : ptr = other
  · subst here
    obtain ⟨sameHash, still⟩ := kept c found established matched
    exact ⟨ptr, c', by rw [OrderedMap.lookup_insert, if_pos rfl], sameHash.trans same, still⟩
  · exact ⟨other, c, (OrderedMap.lookup_insert_ne _ _ here).trans found, same, established, matched⟩

/-- A new entry is that of a matched connection. -/
theorem Backing.enter {entered : Nat} (backing : Backing conns map) (found : conns[ptr]? = some c')
    (own : c'.cidHashVal = entered) (established : c'.connectionEstablished = true)
    (matched : c'.roomConfigReceived = true)
    (same : ∀ cidHash, cidHash ≠ entered → base[cidHash]? = map[cidHash]?) :
    Backing conns (base.insert entered p) := by
  intro cidHash q mapped
  rw [OrderedMap.lookup_insert] at mapped
  split at mapped
  · rename_i here
    exact ⟨ptr, c', found, own.trans here, established, matched⟩
  · rename_i different
    exact backing cidHash q ((same cidHash (Ne.symm different)).symm.trans mapped)

/-- No entry of a connection is left when the connection goes. -/
theorem Backing.erase (backing : Backing conns map)
    (fewer : ∀ cidHash p : Nat, map'[cidHash]? = some p → map[cidHash]? = some p)
    (gone : ∀ c, conns[ptr]? = some c → map'[c.cidHashVal]? = none) :
    Backing (conns.erase ptr) map' := by
  intro cidHash p mapped
  obtain ⟨other, c, found, same, rest⟩ := backing cidHash p (fewer cidHash p mapped)
  have different : ptr ≠ other := by
    rintro rfl
    rw [← same, gone c found] at mapped
    contradiction
  exact ⟨other, c, (OrderedMap.lookup_erase_ne _ different).trans found, same, rest⟩

end

theorem Sweeps.entries {cidHash q : Nat} (sweeps : Sweeps site s zombies t)
    (mapped : t.connectionMap[cidHash]? = some q) :
    s.connectionMap[cidHash]? = some q := by
  induction sweeps with
  | done => exact mapped
  | @next s t p zombie zombies live rest ih =>
    have before := ih mapped
    rw [swept, deleteRoom_eq] at before
    change ((zombie.playermap.keys ++ zombie.disconnectedPlayers.map (·.hash)).foldl
      (fun map hash => map.erase hash) s.connectionMap)[cidHash]? = some q at before
    rw [OrderedMap.lookup_eraseAll] at before
    split at before
    · contradiction
    · exact before

/-- A connection goes with its entry. -/
theorem Backing.vacated (backing : Backing s.conns s.connectionMap) (sound : Sound site s)
    (found : s.conns[ptr]? = some connection) (live : s.roomHeap[p]? = some r) :
    Backing (s.conns.erase ptr) (s.vacates site ⟨ptr, connection.cidHashVal⟩ p r).connectionMap := by
  rw [(vacates_frame sound live _).2.1]
  refine backing.erase (fun cidHash q mapped => ?_) fun c here => ?_
  · rw [OrderedMap.lookup_erase] at mapped
    split at mapped
    · contradiction
    · exact mapped
  · cases Option.some.inj (here.symm.trans found)
    rw [OrderedMap.lookup_erase, if_pos rfl]

/-- The connection of a request is matched before its entry is made. -/
theorem Backing.flagged (backing : Backing s.conns s.connectionMap)
    (found : s.conns[ptr]? = some connection) :
    Backing (s.matched ptr connection).conns s.connectionMap := by
  refine backing.insert fun c here established _ => ?_
  cases Option.some.inj (here.symm.trans found)
  exact ⟨rfl, established, rfl⟩

theorem Backing.step (backing : Backing s.conns s.connectionMap) (sound : Sound site s)
    (step : (machine site).Step s e t) : Backing t.conns t.connectionMap := by
  cases step_effect step with
  | connect _ fresh =>
    refine backing.insert fun c found => ?_
    rw [OrderedMap.not_mem_iff_lookup.mp fresh] at found
    contradiction
  | connected found unestablished =>
    refine backing.insert fun c here established => ?_
    cases Option.some.inj (here.symm.trans found)
    rw [unestablished] at established
    contradiction
  | hi found =>
    refine backing.insert fun c here established matched => ?_
    cases Option.some.inj (here.symm.trans found)
    exact ⟨rfl, established, matched⟩
  | ignored | shutdown | clock | keyExpires | keyExpired => exact backing
  | @request _ _ _ _ ptr connection requests joined =>
    have established := established_of_message step requests.found
    have flagged := backing.flagged requests.found
    have found : (s.matched ptr connection).conns[ptr]? = some { connection with
        roomConfigReceived := true } := by
      rw [matched, OrderedMap.lookup_insert, if_pos rfl]
    rw [(conns_joined joined (sound_matched sound ptr connection)).1]
    cases joined with
    | alreadySeated => exact flagged
    | joins _ _ _ same => exact flagged.enter found rfl established rfl same
    | @creates base _ same =>
      rw [(joinNewRoom_frame site { s.matched ptr connection with connectionMap := base } _ _).2.2.1]
      exact flagged.enter found rfl established rfl same
  | @chat _ _ ptr p connection r found mapped live present =>
    rw [(conns_operated sound live (rfl : r.allows (.message connection.cidHashVal _) = true)).1,
      connectionMap_updateRoom]
    exact backing
  | tick live active =>
    rw [(conns_operated sound live active).1, connectionMap_updateRoom]
    exact backing
  | unseated found unmapped =>
    refine backing.erase (fun _ _ => id) fun c here => ?_
    cases Option.some.inj (here.symm.trans found)
    exact unmapped
  | leaves found mapped live => exact backing.vacated sound found live
  | leavesLast found mapped live ended empty same =>
    rw [deleteRoom_eq]
    have left := backing.vacated sound found live
    rw [← same] at left
    exact left
  | sweeps sweeps =>
    rw [(conns_sweeps sweeps).1]
    exact fun cidHash p mapped => backing cidHash p (sweeps.entries mapped)

theorem backing_of_run (run : (machine site).Run es s) : Backing s.conns s.connectionMap := by
  refine Machine.Run.induction (P := fun _ s => Backing s.conns s.connectionMap)
    (fun cidHash p mapped => ?_) ?_ run
  · simp [machine] at mapped
  · intro es s e t before backing step
    exact backing.step (sound_of_run before) step

/-! ### Every message -/

/-- A state is inert just when no entry can be followed to a deleted room. -/
theorem inert_iff (backing : Backing s.conns s.connectionMap) : Inert site s ↔ s.EntriesLive := by
  constructor
  · intro inert cidHash p mapped
    obtain ⟨ptr, connection, found, rfl, established, matched⟩ := backing cidHash p mapped
    obtain ⟨t, told, handled, _⟩ := inert ptr connection [] none found established malformed_unread
    rw [malformed_unread.handled, matched] at handled
    by_contra absent
    have gone : s.deref p = .error (.useAfterFree p) := by
      rw [deref, OrderedMap.not_mem_iff_lookup.mp absent]
    simp [passToRoom, mapped, gone] at handled
  · intro live ptr connection buf doc _ _ malformed
    exact malformed.inert buf fun p => live connection.cidHashVal p

theorem Anchored.entriesLive (anchored : s.Anchored) : s.EntriesLive := by
  intro cidHash p mapped
  obtain ⟨r, found, _⟩ := anchored cidHash p mapped
  exact OrderedMap.mem_of_lookup found

/-- Without a collision of hashes the player that a message finds is that of its connection, and
no other room seats it. -/
theorem Registered.own_room (registered : Registered hashes s) (sound : Sound site s)
    (found : s.conns[ptr]? = some connection) (live : s.roomHeap[p]? = some r)
    (present : r.playermap[connection.cidHashVal]? = some player) :
    player.qconnection = ⟨ptr, connection.cidHashVal⟩ ∧ ∀ q, s.Seats connection q → q = p := by
  obtain ⟨⟨c, here, same⟩, mapped⟩ := registered.seated live present
  refine ⟨?_, fun q ⟨r', alive, seated⟩ => ?_⟩
  · have keyed := (sound.inv live).seated.keyed _ _ present
    rw [← registered.unique here found same, ← keyed]
  · obtain ⟨other, there⟩ := OrderedMap.mem_iff_lookup.mp seated
    exact Option.some.inj ((registered.seated alive there).2.symm.trans mapped)

/-- In every reachable state malformed messages are inert as long as the entries name live rooms,
which they do where every room that is created has a seat. -/
theorem malformed_inert_iff (run : (machine site).Run es s) :
    (Inert site s ↔ s.EntriesLive) ∧
      ((machine site).Meets Roomy es → (machine site).Always (Inert site) es) ∧
      ((usedHashes es).Nodup → ∀ ptr connection p r player, s.conns[ptr]? = some connection →
        s.roomHeap[p]? = some r →
        r.playermap[connection.cidHashVal]? = some player →
        player.qconnection = ⟨ptr, connection.cidHashVal⟩ ∧ ∀ q, s.Seats connection q → q = p) := by
  refine ⟨inert_iff (backing_of_run run), fun meets fs u inside before => ?_,
    fun distinct ptr connection p r player found live present => ?_⟩
  · have anchored : (machine site).Always Anchored es := by
      refine Machine.Meets.always (fun cidHash p mapped =>
        ?_) (fun earlier anchored step roomy => ?_) meets
      · simp [machine] at mapped
      · exact (step_effect step).anchored (sound_of_run earlier) anchored roomy
    exact (inert_iff (backing_of_run before)).mpr (anchored fs u inside before).entriesLive
  · exact (registered_of_run run distinct).own_room (sound_of_run run) found live present

/-- One player waits for another. -/
def waitingPlayer : List Event := arrival 1 11 { roomConfig := { min := 2, max := 2 } }

theorem waitingPlayer_inert :
    ∃ s, (machine ⟨.gameRoom, [], []⟩).Run waitingPlayer s ∧ s.connectionMap[11]? = some 0 ∧
      Inert ⟨.gameRoom, [], []⟩ s := by
  have shown : ((machine ⟨.gameRoom, [], []⟩).exec {} waitingPlayer).map
      (fun s => (s.connectionMap.toList, (s.roomHeap[0]?).isSome)) = some ([(11, 0)], true) := by
        decide +kernel
  obtain ⟨s, run, same⟩ := Machine.exec_observe shown
  obtain ⟨entries, live⟩ := Prod.mk.inj same
  have entry : ∀ cidHash p : Nat, s.connectionMap[cidHash]? = some p ↔ (cidHash, p) ∈ [(11, 0)] :=
    fun cidHash p => by
    rw [← entries]
    exact TreeMap.mem_toList_iff_getElem?_eq_some.symm
  refine ⟨s, run, (entry 11 0).mpr (List.mem_cons_self ..), (malformed_inert_iff run).1.mpr
    fun cidHash p mapped => ?_⟩
  obtain ⟨rfl, rfl⟩ := Prod.mk.inj (List.mem_singleton.mp ((entry cidHash p).mp mapped))
  obtain ⟨r, found⟩ := Option.isSome_iff_exists.mp live
  exact OrderedMap.mem_of_lookup found

/-- Text from a client whose room had no seat, and has been swept. -/
theorem swept_room_followed :
    (usedHashes seatless).Nodup ∧ ∃ s connection, (machine ⟨.gameRoom, [], []⟩).Run seatless s ∧
      s.conns[1]? = some connection ∧ connection.connectionEstablished = true ∧
      s.onconnectionMessage ⟨.gameRoom, [], []⟩ 1 connection (Qstring.literal "hello") none =
        .error (.useAfterFree 0) ∧
      ¬ Inert ⟨.gameRoom, [], []⟩ s := by
  have shown : ((machine ⟨.gameRoom, [], []⟩).exec {} seatless).map
      (fun s => ((s.conns[1]?).map fun connection => (connection.connectionEstablished,
        faultOf (s.onconnectionMessage ⟨.gameRoom, [],
          []⟩ 1 connection (Qstring.literal "hello") none)))) =
      some (some (true, some (.useAfterFree 0))) := by decide +kernel
  obtain ⟨s, run, seen⟩ := Machine.exec_observe shown
  obtain ⟨connection, found, same⟩ := Option.map_eq_some_iff.mp seen
  obtain ⟨established, faults⟩ := Prod.mk.inj same
  have fault := eq_error_of_faultOf faults
  refine ⟨by decide, s, connection, run, found, established, fault, fun inert => ?_⟩
  obtain ⟨t, told, handled, _⟩ :=
    inert 1 connection (Qstring.literal "hello") none found established malformed_unread
  cases fault.symm.trans handled

end Gearsdk.Roomserver
