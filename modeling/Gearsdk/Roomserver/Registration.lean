import Gearsdk.Roomserver.Registry

/-! Every event keeps the registry of players, so that a lost connection is found
in the one room that holds its seat. -/
namespace Gearsdk.Roomserver
open Std Transition

section
variable {site : Site} {s t : Roomserver} {hashes : List Nat} {ptr p : Nat} {connection : Connection}
  {r : Room} {op : Room.Op}

/-- The conditions on the room that `Registry.seat` asks for, for a room that
takes the player. -/
theorem Registered.joins {base : TreeMap Nat Nat} (sound : Sound site s)
    (registry : Registered hashes s) (found : s.conns[ptr]? = some connection)
    (matched : connection.roomConfigReceived = true)
    (unmapped : s.connectionMap[connection.cidHashVal]? = none) (live : s.roomHeap[p]? = some r)
    (accepted : r.accepts connection.cidHashVal prev = true)
    (same : ∀ cidHash, cidHash ≠ connection.cidHashVal → base[cidHash]? = s.connectionMap[cidHash]?)
    (pid : Qstring) :
    Registered hashes
      { s.updateRoom site p (r.apply (.tryAdd ⟨ptr, connection.cidHashVal⟩ pid prev)).1
          (r.apply (.tryAdd ⟨ptr, connection.cidHashVal⟩ pid prev)).2 with
        connectionMap := base.insert connection.cidHashVal p } := by
  have inv := sound.inv live
  have change := Room.change_tryAdd inv.initialised ⟨ptr, connection.cidHashVal⟩ pid prev
  obtain ⟨heap, _, conns, _, _, counter⟩ := updateRoom_frame site s p change
  have players : (r.apply (.tryAdd ⟨ptr, connection.cidHashVal⟩ pid prev)).1.playermap = _ :=
    Room.apply_tryAdd_playermap accepted
  have kept : (r.apply (.tryAdd ⟨ptr, connection.cidHashVal⟩ pid prev)).1.disconnectedPlayers = _ :=
    Room.apply_tryAdd_disconnectedPlayers accepted
  change Registry hashes (s.updateRoom site p _ _).conns _ (s.updateRoom site p _ _).roomHeap
    (s.updateRoom site p _ _).roomIdCounter
  rw [heap, conns, counter]
  refine registry.seat (p := p) found matched unmapped (fun h => ?_)
    (fun q => OrderedMap.lookup_insert s.roomHeap p q _) (Nat.le_refl _) (sound.born live) ?_ ?_ ?_ ?_ ?_
  · rw [OrderedMap.lookup_insert]
    split
    · rfl
    · rename_i different
      exact same h (Ne.symm different)
  · intro player seat
    rw [players, OrderedMap.lookup_insert, if_pos rfl] at seat
    cases Option.some.inj seat
    rw [Room.entrant_qconnection]
  · intro h player different seat
    rw [players, OrderedMap.lookup_insert_ne _ _ different] at seat
    exact ⟨r, live, seat⟩
  · left
    rw [players, OrderedMap.mem_insert_iff]
    exact .inl rfl
  · intro h entry
    rw [players, OrderedMap.mem_insert_iff, change.sameConfig]
    rcases registry.entered entry live with seated | closed
    · exact .inl (.inr seated)
    · exact .inr closed
  · intro seat member
    rw [kept] at member
    exact ⟨r, live, Room.prepared_subset r prev member⟩

theorem joinNewRoom_frame (site : Site) (s : Roomserver) (q : QconnIo) (msg : MsgRoomMatchRequest) :
    (s.joinNewRoom site q msg).conns = s.conns ∧
    (s.joinNewRoom site q msg).newConnections = s.newConnections ∧
    (s.joinNewRoom site q msg).connectionMap = s.connectionMap.insert q.cidHashVal s.roomIdCounter ∧
    (s.joinNewRoom site q msg).roomIdCounter = s.roomIdCounter + 1 := by
  have inv := Room.create_inv site.roomClass s.roomIdCounter s.evNow (.ofMsg msg.roomConfig)
  have change := Room.change_tryAdd inv.initialised q msg.pid 0
  obtain ⟨_, _, conns, _, newConnections, counter⟩ :=
    updateRoom_frame site (s.createWaitingRoom site msg.roomConfig).1 s.roomIdCounter change
  rw [joinNewRoom_eq]
  exact ⟨conns, newConnections, rfl, counter⟩

/-- The first player of a new room, if it has a seat at all. -/
theorem newborn_playermap (s : Roomserver) (q : QconnIo) (msg : MsgRoomMatchRequest) (cidHash : Nat)
    (player : Player) (seat : (newborn site s q msg).playermap[cidHash]? = some player) :
    cidHash = q.cidHashVal ∧ player.qconnection = q := by
  simp only [newborn] at seat
  cases accepted : (Room.create site.roomClass s.roomIdCounter s.evNow (.ofMsg msg.roomConfig)).1.accepts
      q.cidHashVal 0 with
  | false =>
    rw [Room.apply_tryAdd_rejected accepted] at seat
    exact absurd seat (by simp [Room.create_eq])
  | true =>
    rw [Room.apply_tryAdd_playermap accepted, OrderedMap.lookup_insert] at seat
    split at seat
    · rename_i same
      cases Option.some.inj seat
      exact ⟨same.symm, Room.entrant_qconnection ..⟩
    · exact absurd seat (by simp [Room.create_eq])

theorem newborn_disconnectedPlayers (s : Roomserver) (q : QconnIo) (msg : MsgRoomMatchRequest) :
    (newborn site s q msg).disconnectedPlayers = [] := by
  simp only [newborn]
  cases accepted : (Room.create site.roomClass s.roomIdCounter s.evNow (.ofMsg msg.roomConfig)).1.accepts
      q.cidHashVal 0 with
  | false =>
    rw [Room.apply_tryAdd_rejected accepted]
    rfl
  | true =>
    rw [Room.apply_tryAdd_disconnectedPlayers accepted]
    rfl

theorem newborn_roomConfig (s : Roomserver) (q : QconnIo) (msg : MsgRoomMatchRequest) :
    (newborn site s q msg).roomConfig = .ofMsg msg.roomConfig := by
  have inv := Room.create_inv site.roomClass s.roomIdCounter s.evNow (.ofMsg msg.roomConfig)
  exact (Room.change_tryAdd inv.initialised q msg.pid 0).sameConfig

/-- Without a seat the creator of a room is not in it. -/
theorem newborn_seated (s : Roomserver) (q : QconnIo) (msg : MsgRoomMatchRequest) :
    q.cidHashVal ∈ (newborn site s q msg).playermap ↔ 1 ≤ msg.roomConfig.max := by
  rw [← show _ ↔ 1 ≤ msg.roomConfig.max from
    Room.create_accepts site.roomClass s.roomIdCounter s.evNow (.ofMsg msg.roomConfig) q.cidHashVal]
  simp only [newborn]
  cases accepted : (Room.create site.roomClass s.roomIdCounter s.evNow (.ofMsg msg.roomConfig)).1.accepts
      q.cidHashVal 0 with
  | false =>
    rw [Room.apply_tryAdd_rejected accepted]
    simp [Room.create_eq]
  | true =>
    rw [Room.apply_tryAdd_playermap accepted, OrderedMap.mem_insert_iff]
    simp

theorem Registered.creates {base : TreeMap Nat Nat} (sound : Sound site s)
    (registry : Registered hashes s) (found : s.conns[ptr]? = some connection)
    (matched : connection.roomConfigReceived = true)
    (unmapped : s.connectionMap[connection.cidHashVal]? = none)
    (same : ∀ cidHash, cidHash ≠ connection.cidHashVal → base[cidHash]? = s.connectionMap[cidHash]?)
    (msg : MsgRoomMatchRequest) :
    Registered hashes
      (({ s with connectionMap := base } : Roomserver).joinNewRoom site ⟨ptr,
        connection.cidHashVal⟩ msg) := by
  have unborn := (sound.unborn (Nat.le_refl s.roomIdCounter)).1
  have lookup :=
    heap_joinNewRoom site { s with connectionMap := base } ⟨ptr, connection.cidHashVal⟩ msg
  obtain ⟨conns, _, map, counter⟩ :=
    joinNewRoom_frame site { s with connectionMap := base } ⟨ptr, connection.cidHashVal⟩ msg
  simp only [Registered]
  rw [conns, map, counter]
  refine registry.seat (p := s.roomIdCounter) found matched unmapped (fun h => ?_) lookup (Nat.le_succ _)
    (Nat.lt_succ_self _) ?_ ?_ ?_ ?_ ?_
  · rw [OrderedMap.lookup_insert]
    split
    · rfl
    · rename_i different
      exact same h (Ne.symm different)
  · intro player seat
    rw [(newborn_playermap _ _ _ _ _ seat).2]
  · intro h player different seat
    exact absurd (newborn_playermap _ _ _ _ _ seat).1.symm different
  · rw [newborn_seated, newborn_roomConfig]
    by_cases place : 1 ≤ msg.roomConfig.max
    · exact .inl place
    · exact .inr (by change msg.roomConfig.max ≤ 0; omega)
  · intro h entry
    exact absurd (registry.bounded entry) (Nat.lt_irrefl _)
  · intro seat member
    rw [newborn_disconnectedPlayers] at member
    contradiction

theorem Registry.seatless {conns : TreeMap Nat Connection} {map : TreeMap Nat Nat}
    {heap : TreeMap Nat Room} {counter cidHash : Nat}
    (registry : Registry hashes conns map heap counter) (live : heap[p]? = some r)
    (elsewhere : map[cidHash]? ≠ some p) : r.playermap[cidHash]? = none := by
  cases seat : r.playermap[cidHash]? with
  | none => rfl
  | some player => exact absurd (registry.seated live seat).2 elsewhere

/-- A lost connection leaves its room. -/
theorem Registered.leaves (sound : Sound site s) (registry : Registered hashes s)
    (found : s.conns[ptr]? = some connection)
    (mapped : s.connectionMap[connection.cidHashVal]? = some p) (live : s.roomHeap[p]? = some r) :
    Registry hashes (s.conns.erase ptr) (s.connectionMap.erase connection.cidHashVal)
      (s.roomHeap.insert p (r.apply (.remove ⟨ptr, connection.cidHashVal⟩)).1) s.roomIdCounter := by
  have inv := sound.inv live
  refine registry.unseat found (OrderedMap.lookup_erase _ _) fun q r' still => ?_
  rw [OrderedMap.lookup_insert] at still
  split at still
  · rename_i here
    cases Option.some.inj still
    subst here
    exact ⟨r, live, Room.apply_roomConfig inv rfl, Room.apply_remove_lookup inv _,
      fun seat member => Room.apply_remove_kept inv member⟩
  · rename_i different
    refine ⟨r', still, rfl, fun cidHash => ?_, fun seat member => .inl member⟩
    split
    · rename_i same
      refine registry.seatless still ?_
      rw [← same, mapped]
      exact fun here => different (Option.some.inj here)
    · rfl

theorem Registered.sweeps (registry : Registered hashes s) (sweeps : Sweeps site s zombies t) :
    Registered hashes t := by
  induction sweeps with
  | done => exact registry
  | next live _ ih =>
    apply ih
    rw [swept, deleteRoom_eq]
    exact registry.sweep live (OrderedMap.lookup_eraseAll _ _) (OrderedMap.lookup_erase _ _)

theorem Registry.erase_room {conns : TreeMap Nat Connection} {map : TreeMap Nat Nat}
    {heap : TreeMap Nat Room} {counter : Nat} (registry : Registry hashes conns map heap counter)
    (p : Nat) :
    Registry hashes conns map (heap.erase p) counter := by
  have before : ∀ {q : Nat} {r : Room}, (heap.erase p)[q]? = some r → heap[q]? = some r := by
    intro q r still
    rw [OrderedMap.lookup_erase] at still
    split at still
    · contradiction
    · exact still
  exact ⟨registry.used, registry.unique, registry.unmatched, fun still => registry.seated (before still),
    registry.mapped, registry.bounded, fun entry still => registry.entered entry (before still),
    fun still => registry.kept (before still)⟩

/-- A match request that deserialises. Its connection is not in the registry yet. -/
theorem Registered.request (sound : Sound site s) (registry : Registered hashes s)
    (requests : Requests s ptr doc connection rq)
    (joined : Joined site (s.matched ptr connection) ⟨ptr, connection.cidHashVal⟩ rq t) :
    Registered hashes t := by
  have soundMatched := sound_matched sound ptr connection
  have registryMatched : Registered hashes (s.matched ptr connection) :=
    registry.flag requests.found rfl fun flagged => nomatch flagged
  have found : (s.matched ptr connection).conns[ptr]? = some { connection with
      roomConfigReceived := true } := by
    rw [matched, OrderedMap.lookup_insert, if_pos rfl]
  have unmapped := registry.unmatched requests.found requests.unmatched
  cases joined with
  | alreadySeated => exact registryMatched
  | joins outcome live accepted same =>
    have seated := registryMatched.joins soundMatched found rfl unmapped live accepted same rq.pid
    exact seated
  | creates outcome same =>
    have seated := registryMatched.creates soundMatched found rfl unmapped same rq
    exact seated

theorem Effect.registered (sound : Sound site s) (registry : Registered hashes s)
    (effect : Effect site s e t) (fresh : ∀ cidHash ∈ usedHashes [e], cidHash ∉ hashes) :
    Registered (hashes ++ usedHashes [e]) t := by
  have operated : ∀ {p : Nat} {r : Room} {op : Room.Op}, s.roomHeap[p]? = some r →
    r.allows op = true →
      (r.apply op).1.playermap = r.playermap ∧
        (r.apply op).1.disconnectedPlayers = r.disconnectedPlayers →
      Registered hashes (s.updateRoom site p (r.apply op).1 (r.apply op).2) := by
    intro p r op live allowed seats
    have change := Room.change_of_inv (sound.inv live) allowed
    obtain ⟨heap, _, conns, map, _, counter⟩ := updateRoom_frame site s p change
    simp only [Registered]
    rw [heap, conns, map, counter]
    exact registry.room live seats.1 seats.2 change.sameConfig
  cases effect with
  | connect nonnull absent =>
    exact registry.connect (OrderedMap.not_mem_iff_lookup.mp absent) (fresh _ (List.mem_cons_self ..))
  | connected found | hi found =>
    rw [show usedHashes [_] = [] from rfl, List.append_nil]
    exact registry.flag found rfl id
  | ignored | shutdown | clock | keyExpires | keyExpired =>
    rw [show usedHashes [_] = [] from rfl, List.append_nil]
    exact registry
  | request requests joined =>
    rw [show usedHashes [_] = [] from rfl, List.append_nil]
    exact registry.request sound requests joined
  | chat found mapped live present =>
    rw [show usedHashes [_] = [] from rfl, List.append_nil]
    refine operated live rfl ?_
    rw [Room.apply_message]
    exact ⟨rfl, rfl⟩
  | tick live active =>
    rw [show usedHashes [_] = [] from rfl, List.append_nil]
    exact operated live active (Room.apply_tick_seats (sound.inv live) active)
  | unseated found unmapped =>
    rw [show usedHashes [_] = [] from rfl, List.append_nil]
    refine registry.unseat found (fun cidHash => ?_) fun q r live =>
      ⟨r, live, rfl, fun cidHash => ?_, fun seat member => .inl member⟩
    · split
      · rename_i same
        rw [← same, unmapped]
      · rfl
    · split
      · rename_i same
        refine registry.seatless live ?_
        rw [← same, unmapped]
        exact nofun
      · rfl
  | @leaves ptr p connection r found mapped live stays =>
    rw [show usedHashes [_] = [] from rfl, List.append_nil]
    obtain ⟨conns, map, _, counter⟩ := vacates_frame sound live ⟨ptr, connection.cidHashVal⟩
    change Registry hashes (s.conns.erase ptr) (s.vacates site ⟨ptr,
      connection.cidHashVal⟩ p r).connectionMap
      (s.vacates site ⟨ptr, connection.cidHashVal⟩ p r).roomHeap
      (s.vacates site ⟨ptr, connection.cidHashVal⟩ p r).roomIdCounter
    rw [map, heap_vacates sound live, counter]
    exact registry.leaves sound found mapped live
  | @leavesLast left ptr p connection r found mapped live ended empty same listed =>
    rw [show usedHashes [_] = [] from rfl, List.append_nil]
    obtain ⟨conns, map, _, counter⟩ := vacates_frame sound live ⟨ptr, connection.cidHashVal⟩
    rw [deleteRoom_eq]
    change Registry hashes (s.conns.erase ptr) left.connectionMap (left.roomHeap.erase p)
      left.roomIdCounter
    rw [same, map, heap_vacates sound live, counter]
    exact (registry.leaves sound found mapped live).erase_room p
  | sweeps sweeps listed =>
    rw [show usedHashes [_] = [] from rfl, List.append_nil]
    exact registry.sweeps sweeps

theorem usedHashes_append (es fs : List Event) :
    usedHashes (es ++ fs) = usedHashes es ++ usedHashes fs :=
  List.filterMap_append ..

theorem registered_init (site : Site) : Registered (usedHashes []) (machine site).init := by
  constructor <;> simp [machine]

/-- Every server that is reached without a collision of hashes is registered. -/
theorem registered_of_run (run : (machine site).Run es s) (distinct : (usedHashes es).Nodup) :
    Registered (usedHashes es) s := by
  refine Machine.Run.induction
    (P := fun es s => (usedHashes es).Nodup → Registered (usedHashes es) s)
    (fun _ => registered_init site) ?_ run distinct
  intro es s e t before registry step distinct
  rw [usedHashes_append] at distinct ⊢
  obtain ⟨earlier, _, fresh⟩ := List.nodup_append.mp distinct
  exact (step_effect step).registered (sound_of_run before) (registry earlier)
    fun cidHash used old => fresh cidHash old cidHash used rfl

/-! ### Disconnects -/

theorem Sound.vacates (sound : Sound site s) (live : s.roomHeap[p]? = some r) (q : QconnIo) :
    Sound site (s.vacates site q p r) := by
  have framed : Sound site { s with connectionMap := s.connectionMap.erase q.cidHashVal } :=
    sound.frame rfl rfl rfl rfl rfl
  exact framed.operate live (rfl : r.allows (.remove q) = true)

/-- The assertion in `onconnection_destroy` holds: an ended room is in `rooms`. -/
theorem Sound.deletes (sound : Sound site s) (live : s.roomHeap[p]? = some r) :
    ∃ t, s.deleteEndedRoom site p r = .ok t := by
  simp only [deleteEndedRoom]
  split
  · rename_i ended
    have started : p ∈ s.rooms := by
      rw [sound.rooms_live live, ended.1]
      decide
    have absent : p ∉ s.waitingRooms := fun waiting => sound.not_both waiting started
    have listed : s.waitingRooms.length = (s.waitingRooms.filter (· ≠ p)).length ∧
        s.rooms.length > (s.rooms.filter (· ≠ p)).length :=
      ⟨by rw [filter_absent absent], filter_length_lt started⟩
    rw [if_pos listed]
    exact ⟨_, rfl⟩
  · exact ⟨s, rfl⟩

/-- The leave of a connection that is entered for a live room. -/
theorem destroy_ok (sound : Sound site s) (found : s.conns[ptr]? = some connection)
    (entry : ∀ p, s.connectionMap[connection.cidHashVal]? = some p → ∃ r, s.roomHeap[p]? = some r) :
    ∃ t, (machine site).Step s (.destroyConnection ptr) t := by
  have possible : (machine site).enabled s (.destroyConnection ptr) := by
    change s.conns.contains ptr = true
    rw [← TreeMap.mem_iff_contains]
    exact OrderedMap.mem_of_lookup found
  suffices left : ∃ t, s.destroyConnection site ptr connection = .ok t by
    obtain ⟨t, left⟩ := left
    exact ⟨t, possible, by simpa only [machine, next, found] using left⟩
  cases mapped : s.connectionMap[connection.cidHashVal]? with
  | none =>
    rw [destroyConnection, onconnectionDestroy, mapped]
    exact ⟨_, rfl⟩
  | some p =>
    obtain ⟨r, live⟩ := entry p mapped
    have after : (s.vacates site ⟨ptr, connection.cidHashVal⟩ p r).roomHeap[p]? =
        some (r.apply (.remove ⟨ptr, connection.cidHashVal⟩)).1 := by
      rw [heap_vacates sound live, OrderedMap.lookup_insert, if_pos rfl]
    obtain ⟨t, deleted⟩ := (sound.vacates live ⟨ptr, connection.cidHashVal⟩).deletes after
    change (s.vacates site ⟨ptr, connection.cidHashVal⟩ p r).deleteEndedRoom site p
      (r.apply (.remove ⟨ptr, connection.cidHashVal⟩)).1 = .ok t at deleted
    rw [destroyConnection, onconnectionDestroy_entered mapped live, deleted]
    exact ⟨_, rfl⟩

/-- What a disconnect leaves of the room that held the connection, and of the others. -/
structure LeavesOnly (s t : Roomserver) (cidHash p : Nat) (r : Room) : Prop where
  left : ∀ r' : Room, t.roomHeap[p]? = some r' → ∀ other : Nat,
    r'.playermap[other]? = if cidHash = other then none else r.playermap[other]?
  elsewhere : ∀ q : Nat, q ≠ p → t.roomHeap[q]? = s.roomHeap[q]?

theorem destroy_leaves (sound : Sound site s) (found : s.conns[ptr]? = some connection)
    (mapped : s.connectionMap[connection.cidHashVal]? = some p) (live : s.roomHeap[p]? = some r)
    (step : (machine site).Step s (.destroyConnection ptr) t) :
    LeavesOnly s t connection.cidHashVal p r := by
  cases step_effect step with
  | @unseated _ c found' unmapped =>
    cases Option.some.inj (found.symm.trans found')
    rw [mapped] at unmapped
    contradiction
  | @leaves _ p' c r₁ found' mapped' live' stays =>
    cases Option.some.inj (found.symm.trans found')
    cases Option.some.inj (mapped.symm.trans mapped')
    cases Option.some.inj (live.symm.trans live')
    have heap := heap_vacates sound live ⟨ptr, connection.cidHashVal⟩
    constructor
    case left =>
      intro r' still
      change (s.vacates site ⟨ptr, connection.cidHashVal⟩ p r).roomHeap[p]? = some r' at still
      rw [heap, OrderedMap.lookup_insert, if_pos rfl] at still
      cases Option.some.inj still
      exact Room.apply_remove_lookup (sound.inv live) ⟨ptr, connection.cidHashVal⟩
    case elsewhere =>
      intro q different
      change (s.vacates site ⟨ptr, connection.cidHashVal⟩ p r).roomHeap[q]? = _
      rw [heap, OrderedMap.lookup_insert_ne _ _ (Ne.symm different)]
  | @leavesLast middle _ p' c r₁ found' mapped' live' ended empty same listed =>
    cases Option.some.inj (found.symm.trans found')
    cases Option.some.inj (mapped.symm.trans mapped')
    cases Option.some.inj (live.symm.trans live')
    have heap := heap_vacates sound live ⟨ptr, connection.cidHashVal⟩
    rw [← same] at heap
    rw [deleteRoom_eq]
    constructor
    case left =>
      intro r' still
      change (middle.roomHeap.erase p)[p]? = some r' at still
      rw [OrderedMap.lookup_erase, if_pos rfl] at still
      contradiction
    case elsewhere =>
      intro q different
      change (middle.roomHeap.erase p)[q]? = _
      rw [OrderedMap.lookup_erase_ne _ (Ne.symm different), heap,
        OrderedMap.lookup_insert_ne _ _ (Ne.symm different)]

/-- The registry of players is complete: without a collision of hashes a seated
player has an entry for his room, sits in no other room, and his connection, when
it is lost, leaves that room and no other. -/
theorem seated_players_registered (run : (machine site).Run es s)
    (distinct : (usedHashes es).Nodup) :
    (∀ (p cidHash : Nat) (r : Room), s.roomHeap[p]? = some r → cidHash ∈ r.playermap →
      s.connectionMap[cidHash]? = some p) ∧
    (∀ (p p' cidHash : Nat) (r r' : Room), s.roomHeap[p]? = some r → s.roomHeap[p']? = some r' →
      cidHash ∈ r.playermap → cidHash ∈ r'.playermap → p = p') ∧
    (∀ (p cidHash : Nat) (r : Room), s.roomHeap[p]? = some r → cidHash ∈ r.playermap →
      ∃ (ptr : Nat) (connection : Connection), s.conns[ptr]? = some connection ∧
        connection.cidHashVal = cidHash ∧
        (∃ t, (machine site).Step s (.destroyConnection ptr) t) ∧
        ∀ t, (machine site).Step s (.destroyConnection ptr) t → LeavesOnly s t cidHash p r) := by
  have sound := sound_of_run run
  have registry := registered_of_run run distinct
  have entry : ∀ (p cidHash : Nat) (r : Room), s.roomHeap[p]? = some r → cidHash ∈ r.playermap →
      s.connectionMap[cidHash]? = some p := by
    intro p cidHash r live seated
    obtain ⟨player, seat⟩ := OrderedMap.mem_iff_lookup.mp seated
    exact (registry.seated live seat).2
  refine ⟨entry, ?_, ?_⟩
  · intro p p' cidHash r r' live live' seated seated'
    exact Option.some.inj ((entry p cidHash r live seated).symm.trans (entry p' cidHash r' live' seated'))
  · intro p cidHash r live seated
    obtain ⟨player, seat⟩ := OrderedMap.mem_iff_lookup.mp seated
    obtain ⟨⟨connection, found, same⟩, mapped⟩ := registry.seated live seat
    subst same
    have known : ∀ q, s.connectionMap[connection.cidHashVal]? = some q →
        ∃ r, s.roomHeap[q]? = some r := by
      intro q mapped'
      cases Option.some.inj (mapped.symm.trans mapped')
      exact ⟨r, live⟩
    exact ⟨player.qconnection.ptr, connection, found, rfl, destroy_ok sound found known,
      fun t step => destroy_leaves sound found mapped live step⟩

/-- Two players of a duel that has started. -/
theorem seated_players_registered_duel :
    ∃ s r, (machine ⟨.gameRoom, [], []⟩).Run
        (arrival 1 11 { roomConfig := { min := 1, max := 2 } } ++
          arrival 2 22 { roomConfig := { min := 1, max := 2 } }) s ∧
      s.roomHeap[0]? = some r ∧ 22 ∈ r.playermap ∧ s.connectionMap[22]? = some 0 := by
  have shown : ((machine ⟨.gameRoom, [], []⟩).exec {}
        (arrival 1 11 { roomConfig := { min := 1, max := 2 } } ++
          arrival 2 22 { roomConfig := { min := 1, max := 2 } })).map
      (fun s => (s.roomHeap[0]?).map fun r => r.playermap.contains 22) = some (some true) := by
        decide +kernel
  obtain ⟨s, run, same⟩ := Machine.exec_observe shown
  obtain ⟨r, live, seated⟩ := Option.map_eq_some_iff.mp same
  have member : 22 ∈ r.playermap := TreeMap.mem_iff_contains.mpr seated
  exact ⟨s, r, run, live, member, (seated_players_registered run (by decide)).1 0 22 r live member⟩

end
end Gearsdk.Roomserver
